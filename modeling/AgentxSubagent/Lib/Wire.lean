import Mathlib.Data.List.Basic
import Mathlib.Tactic.Ring

/-!
# The wire format of protocol buffers

A message on the wire is a list of fields, and a field is a tag and a payload: a number in
base 128, the least significant digit first (`Wire.varint`), or a run of bytes behind its
length. The wire types of fixed width and of groups are left out.

`Wire.unwire_wire` says that a list of fields is read back from its bytes. A schema picks the
fields: one with the default value is not sent (`Wire.uintField`, `Wire.bytesField`), one that
is a message is sent when it is there (`Wire.messageField`), and the reader takes the last of
each number (`Wire.lastUint`, `Wire.lastBytes`).

The rest is how long the bytes get: `Wire.length_uintField_le` and its neighbours, for field
numbers below 1024.
-/

namespace Wire

/-! ### Numbers -/

/-- A number in base 128, every digit but the last with its high bit set. -/
def varint (n : ℕ) : List UInt8 :=
  if n < 128 then [n.toUInt8] else (128 + n % 128).toUInt8 :: varint (n / 128)
termination_by n
decreasing_by omega

/-- Read a number off the front. -/
def readVarint : List UInt8 → Option (ℕ × List UInt8)
  | [] => none
  | b :: bs =>
    if b.toNat < 128 then some (b.toNat, bs)
    else (readVarint bs).map fun r => (b.toNat % 128 + 128 * r.1, r.2)

/-- A number is read back, and what follows it is left. -/
theorem readVarint_varint (n : ℕ) (rest : List UInt8) :
    readVarint (varint n ++ rest) = some (n, rest) := by
  induction n using Nat.strongRecOn with
  | ind n ih =>
    rw [varint]
    by_cases hn : n < 128
    · have hbyte : n.toUInt8.toNat = n := by
        rw [Nat.toUInt8, UInt8.toNat_ofNat']
        omega
      rw [if_pos hn, List.singleton_append, readVarint, hbyte, if_pos hn]
    · have hbyte : (128 + n % 128).toUInt8.toNat = 128 + n % 128 := by
        rw [Nat.toUInt8, UInt8.toNat_ofNat']
        omega
      rw [if_neg hn, List.cons_append, readVarint, hbyte, if_neg (by omega),
        ih (n / 128) (by omega), Option.map_some]
      simp only [Option.some.injEq, Prod.mk.injEq, and_true]
      omega

theorem length_varint_pos (n : ℕ) : 0 < (varint n).length := by
  rw [varint]
  split_ifs
  · exact Nat.one_pos
  · exact Nat.succ_pos _

/-- A number below the `k`-th power of 128 takes at most `k` bytes. -/
theorem length_varint_le {k n : ℕ} (hk : 0 < k) (h : n < 128 ^ k) : (varint n).length ≤ k := by
  induction k generalizing n with
  | zero => exact absurd hk (Nat.lt_irrefl 0)
  | succ k ih =>
    rw [varint]
    split_ifs with hn
    · exact Nat.succ_le_succ (Nat.zero_le k)
    · have hk' : 0 < k := by
        rcases Nat.eq_zero_or_pos k with rfl | hpos
        · rw [Nat.zero_add, Nat.pow_one] at h
          exact absurd h hn
        · exact hpos
      rw [Nat.pow_succ] at h
      have hdiv : n / 128 < 128 ^ k := Nat.div_lt_of_lt_mul (by rwa [Nat.mul_comm])
      exact Nat.succ_le_succ (ih hk' hdiv)

/-! ### Fields -/

/-- What a field carries. -/
inductive Payload
  | uint (n : ℕ)
  | bytes (bs : List UInt8)
  deriving DecidableEq

/-- A field: its number and what it carries. -/
structure Field where
  number : ℕ
  payload : Payload
  deriving DecidableEq

/-- The bytes of a field. -/
def Field.wire (f : Field) : List UInt8 :=
  match f.payload with
  | .uint n => varint (8 * f.number) ++ varint n
  | .bytes bs => varint (8 * f.number + 2) ++ (varint bs.length ++ bs)

/-- The bytes of a list of fields. -/
def wire (fs : List Field) : List UInt8 := fs.flatMap Field.wire

/-- Read a field off the front. -/
def readField (s : List UInt8) : Option (Field × List UInt8) :=
  match readVarint s with
  | none => none
  | some (tag, s) =>
    match readVarint s with
    | none => none
    | some (n, s) =>
      if tag % 8 = 0 then some (⟨tag / 8, .uint n⟩, s)
      else if tag % 8 = 2 ∧ n ≤ s.length then some (⟨tag / 8, .bytes (s.take n)⟩, s.drop n)
      else none

/-- Read fields to the end, at most `fuel` of them. -/
def readFields : ℕ → List UInt8 → Option (List Field)
  | _, [] => some []
  | 0, _ :: _ => none
  | fuel + 1, b :: s =>
    match readField (b :: s) with
    | none => none
    | some (f, s) => (readFields fuel s).map (f :: ·)

/-- Read a message as a list of fields; each takes a byte or more. -/
def unwire (s : List UInt8) : Option (List Field) := readFields s.length s

/-- A field is read back, and what follows it is left. -/
theorem readField_wire (f : Field) (rest : List UInt8) :
    readField (f.wire ++ rest) = some (f, rest) := by
  obtain ⟨k, n | bs⟩ := f
  · have htag : 8 * k % 8 = 0 ∧ 8 * k / 8 = k := by omega
    simp only [Field.wire, readField, List.append_assoc, readVarint_varint, htag, if_true]
  · have htag : (8 * k + 2) % 8 = 2 ∧ (8 * k + 2) / 8 = k := by omega
    have hlen : bs.length ≤ (bs ++ rest).length := by simp
    simp only [Field.wire, readField, List.append_assoc, readVarint_varint, htag, hlen, and_self,
      if_true, List.take_left, List.drop_left]
    rfl

theorem Field.length_wire_pos (f : Field) : 0 < f.wire.length := by
  obtain ⟨k, n | bs⟩ := f
  · have hpos := length_varint_pos (8 * k)
    simp only [Field.wire, List.length_append]
    omega
  · have hpos := length_varint_pos (8 * k + 2)
    simp only [Field.wire, List.length_append]
    omega

@[simp] theorem wire_nil : wire [] = [] := rfl

theorem wire_cons (f : Field) (fs : List Field) : wire (f :: fs) = f.wire ++ wire fs := rfl

theorem wire_append (fs gs : List Field) : wire (fs ++ gs) = wire fs ++ wire gs :=
  List.flatMap_append

/-- A list of fields is read back when there is fuel for its bytes. -/
theorem readFields_wire (fs : List Field) (fuel : ℕ) (h : (wire fs).length ≤ fuel) :
    readFields fuel (wire fs) = some fs := by
  induction fs generalizing fuel with
  | nil => cases fuel <;> rfl
  | cons f fs ih =>
    have hpos := f.length_wire_pos
    rw [wire_cons, List.length_append] at h
    obtain ⟨fuel, rfl⟩ := Nat.exists_eq_succ_of_ne_zero (show fuel ≠ 0 by omega)
    obtain ⟨b, bs, hwire⟩ := List.exists_cons_of_length_pos hpos
    have hread := readField_wire f (wire fs)
    rw [wire_cons]
    rw [hwire] at hread hpos h ⊢
    rw [List.cons_append] at hread ⊢
    rw [readFields, hread]
    simp only [ih fuel (by rw [List.length_cons] at h; omega), Option.map_some]

/-- **A message is read back from its bytes.** -/
theorem unwire_wire (fs : List Field) : unwire (wire fs) = some fs :=
  readFields_wire fs _ (Nat.le_refl _)

/-! ### What a schema sends -/

/-- A number under the number `k`, if it is not the default. -/
def uintField (k n : ℕ) : List Field := if n = 0 then [] else [⟨k, .uint n⟩]

/-- A run of bytes under the number `k`, if it is not the default. -/
def bytesField (k : ℕ) (bs : List UInt8) : List Field := if bs = [] then [] else [⟨k, .bytes bs⟩]

/-- A message under the number `k`. -/
def messageField (k : ℕ) (fs : List Field) : List Field := [⟨k, .bytes (wire fs)⟩]

/-- The number a field carries, if it has the number `k`. -/
def Field.uint? (k : ℕ) (f : Field) : Option ℕ :=
  match f.payload with
  | .uint n => if f.number = k then some n else none
  | .bytes _ => none

/-- The run of bytes a field carries, if it has the number `k`. -/
def Field.bytes? (k : ℕ) (f : Field) : Option (List UInt8) :=
  match f.payload with
  | .uint _ => none
  | .bytes bs => if f.number = k then some bs else none

/-- The numbers sent under `k`. -/
def uints (k : ℕ) (fs : List Field) : List ℕ := fs.filterMap (Field.uint? k)

/-- The runs of bytes sent under `k`. -/
def runs (k : ℕ) (fs : List Field) : List (List UInt8) := fs.filterMap (Field.bytes? k)

/-- The number last sent under `k`, or the default. -/
def lastUint (k : ℕ) (fs : List Field) : ℕ := (uints k fs).getLast?.getD 0

/-- The run of bytes last sent under `k`. -/
def lastBytes (k : ℕ) (fs : List Field) : Option (List UInt8) := (runs k fs).getLast?

section Read

variable {j k : ℕ} (n : ℕ) (bs : List UInt8) (fs gs : List Field)

@[simp] theorem uints_append : uints k (fs ++ gs) = uints k fs ++ uints k gs :=
  List.filterMap_append

@[simp] theorem runs_append : runs k (fs ++ gs) = runs k fs ++ runs k gs :=
  List.filterMap_append

@[simp] theorem uints_bytesField : uints k (bytesField j bs) = [] := by
  rw [bytesField]
  split_ifs <;> rfl

@[simp] theorem uints_messageField : uints k (messageField j fs) = [] := rfl

@[simp] theorem runs_uintField : runs k (uintField j n) = [] := by
  rw [uintField]
  split_ifs <;> rfl

/-- A field says nothing about another number. -/
@[simp] theorem uints_uintField_ne (h : j ≠ k) : uints k (uintField j n) = [] := by
  rw [uintField]
  split_ifs
  · rfl
  · simp [uints, Field.uint?, h]

@[simp] theorem runs_bytesField_ne (h : j ≠ k) : runs k (bytesField j bs) = [] := by
  rw [bytesField]
  split_ifs
  · rfl
  · simp [runs, Field.bytes?, h]

@[simp] theorem runs_messageField_ne (h : j ≠ k) : runs k (messageField j fs) = [] := by
  simp [runs, messageField, Field.bytes?, h]

@[simp] theorem runs_messageField : runs k (messageField k fs) = [wire fs] := by
  simp [runs, messageField, Field.bytes?]

/-- A number comes back, as itself or as the default. -/
@[simp] theorem getLast?_uints_uintField : (uints k (uintField k n)).getLast?.getD 0 = n := by
  rw [uintField]
  split_ifs with hn
  · exact hn.symm
  · simp [uints, Field.uint?]

/-- A run of bytes comes back, as itself or as the default. -/
@[simp] theorem getLast?_runs_bytesField : (runs k (bytesField k bs)).getLast?.getD [] = bs := by
  rw [bytesField]
  split_ifs with hbs
  · exact hbs.symm
  · simp [runs, Field.bytes?]

end Read

/-! ### How long it gets -/

section Length

variable {k : ℕ}

/-- A number takes two bytes for its tag and those of its digits. -/
theorem length_uintField_le (hk : k < 1024) {n w : ℕ} (hw : 0 < w) (hn : n < 128 ^ w) :
    (wire (uintField k n)).length ≤ 2 + w := by
  rw [uintField]
  split_ifs
  · exact Nat.zero_le _
  · have htag : (varint (8 * k)).length ≤ 2 := length_varint_le two_pos (by omega)
    have hnum := length_varint_le hw hn
    simp only [wire_cons, wire_nil, List.append_nil, Field.wire, List.length_append]
    omega

/-- A run of bytes takes four more for its tag and its length. -/
theorem length_wire_bytes_le (hk : k < 1024) (bs : List UInt8) (hbs : bs.length < 16384) :
    (wire [⟨k, .bytes bs⟩]).length ≤ 4 + bs.length := by
  have htag : (varint (8 * k + 2)).length ≤ 2 := length_varint_le two_pos (by omega)
  have hlen : (varint bs.length).length ≤ 2 := length_varint_le two_pos (by omega)
  simp only [wire_cons, wire_nil, List.append_nil, Field.wire, List.length_append]
  omega

theorem length_bytesField_le (hk : k < 1024) (bs : List UInt8) (hbs : bs.length < 16384) :
    (wire (bytesField k bs)).length ≤ 4 + bs.length := by
  rw [bytesField]
  split_ifs
  · exact Nat.zero_le _
  · exact length_wire_bytes_le hk bs hbs

end Length

end Wire
