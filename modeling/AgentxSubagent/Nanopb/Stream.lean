import AgentxSubagent.Lib.Consume
import AgentxSubagent.Lib.Wire
import Mathlib.Tactic.IntervalCases

/-!
# The input stream of nanopb

The lower half of `third_party/nanopb/pb_decode.c`: reading bytes off a memory buffer, the two
varint decoders, tags, and skipping a field nobody asked for. A `pb_istream_t` over a buffer is
the list of the bytes it has left. A substream is a run of the bytes of its parent; closing it
moves the parent behind that run, whatever was read of it, so the parent is behind it from the
start.

The two varint decoders work on machine integers, with shifts and masks, and they differ on
what they take for an overflow. What they read is told by `Wire.readVarint`, the plain reader
of numbers in base 128:

* `AgentxSubagent.Nanopb.pbDecodeVarint_eq_ok_iff`: the 64-bit decoder reads exactly the
  numbers below `2 ^ 64` of at most ten bytes;
* `AgentxSubagent.Nanopb.pbDecodeVarint32_sound` and `_complete`: the 32-bit decoder reads
  every number below `2 ^ 32` of at most ten bytes, and what else it reads, a number with its
  sign extended, it reads modulo `2 ^ 32`.

Every reader here is local (`Consume.Local`), which is what the decoders of messages need.
-/

namespace AgentxSubagent.Nanopb

open Consume Wire

/-- What a decoder fails with: the texts `PB_RETURN_ERROR` is called with. -/
inductive DecodeErr
  | endOfStream
  | varintOverflow
  | invalidWireType
  | parentStreamTooShort
  | wrongWireType
  | integerTooLarge
  | bytesOverflow
  | stringOverflow
  | sizeTooLarge
  | zeroTag
  deriving DecidableEq

/-- What reads a `β` off a `pb_istream_t` over a buffer. -/
abbrev Istream (β : Type) := Reader UInt8 DecodeErr β

/-! ### Bytes -/

/-- The first `n` bytes of a stream that has as many. -/
def takeExactly (err : DecodeErr) (n : ℕ) : Istream {bs : List UInt8 // bs.length = n} := fun s =>
  if h : s.length < n then .error err
  else .ok (⟨s.take n, List.length_take_of_le (Nat.le_of_not_lt h)⟩, s.drop n)

/-- `pb_read`. -/
def pbRead (count : ℕ) : Istream {bs : List UInt8 // bs.length = count} :=
  takeExactly .endOfStream count

theorem reads_takeExactly (err : DecodeErr) {u : List UInt8} {n : ℕ} (h : u.length = n) :
    Reads (takeExactly err n) u ⟨u, h⟩ := by
  subst h
  intro t
  simp [takeExactly]

theorem local_takeExactly (err : DecodeErr) (n : ℕ) : Local (takeExactly err n) := by
  intro s b rest h
  rw [takeExactly] at h
  split_ifs at h with hlen
  obtain ⟨rfl, rfl⟩ := Prod.mk.inj (Except.ok.inj h)
  exact ⟨s.take n, (List.take_append_drop n s).symm, reads_takeExactly err _⟩

/-! ### Varints -/

/-- The loop of `pb_decode_varint`, with `bitpos` and `result` as they stand before a byte. -/
def varintLoop (bitpos : ℕ) (result : UInt64) : Istream UInt64
  | [] => .error .endOfStream
  | byte :: s =>
    if 63 ≤ bitpos ∧ byte &&& 0xFE ≠ 0 then .error .varintOverflow
    else
      let result := result ||| (byte &&& 0x7F).toUInt64 <<< UInt64.ofNat bitpos
      if byte &&& 0x80 = 0 then .ok (result, s) else varintLoop (bitpos + 7) result s

/-- `pb_decode_varint`. -/
def pbDecodeVarint : Istream UInt64 := varintLoop 0 0

/-- `sign_extension`: what a byte past the 32 bits is when the number is negative. -/
def signExtension (bitpos : ℕ) : UInt8 := if bitpos < 63 then 0xFF else 0x01

/-- What one more byte of the multibyte case of `pb_decode_varint32_eof` makes of `result`. -/
def varint32Byte (bitpos : ℕ) (result : UInt32) (byte : UInt8) : Except DecodeErr UInt32 :=
  if 32 ≤ bitpos then
    if 64 ≤ bitpos ∨ ¬(byte &&& 0x7F = 0 ∨ result >>> 31 ≠ 0 ∧ byte = signExtension bitpos) then
      .error .varintOverflow
    else .ok result
  else if bitpos = 28 then
    if byte &&& 0x70 ≠ 0 ∧ byte &&& 0x78 ≠ 0x78 then .error .varintOverflow
    else .ok (result ||| (byte &&& 0x0F).toUInt32 <<< UInt32.ofNat bitpos)
  else .ok (result ||| (byte &&& 0x7F).toUInt32 <<< UInt32.ofNat bitpos)

/-- The loop of the multibyte case of `pb_decode_varint32_eof`. -/
def varint32Loop (bitpos : ℕ) (result : UInt32) : Istream UInt32
  | [] => .error .endOfStream
  | byte :: s =>
    match varint32Byte bitpos result byte with
    | .error err => .error err
    | .ok result =>
      if byte &&& 0x80 = 0 then .ok (result, s) else varint32Loop (bitpos + 7) result s

/-- `pb_decode_varint32`. Its `eof` flag says that not even one byte was there; the loop over the
fields does not ask for a tag then. -/
def pbDecodeVarint32 : Istream UInt32
  | [] => .error .endOfStream
  | byte :: s =>
    if byte &&& 0x80 = 0 then .ok (byte.toUInt32, s)
    else varint32Loop 7 (byte &&& 0x7F).toUInt32 s

/-- `pb_skip_varint`. -/
def pbSkipVarint : Istream Unit
  | [] => .error .endOfStream
  | byte :: s => if byte &&& 0x80 = 0 then .ok ((), s) else pbSkipVarint s

/-! ### Tags, and fields that are skipped -/

/-- `PB_WT_VARINT`. -/
def pbWtVarint : ℕ := 0

/-- `PB_WT_64BIT`. -/
def pbWt64bit : ℕ := 1

/-- `PB_WT_STRING`. -/
def pbWtString : ℕ := 2

/-- `PB_WT_32BIT`. -/
def pbWt32bit : ℕ := 5

/-- `pb_decode_tag`: the wire type and the tag. -/
def pbDecodeTag : Istream (ℕ × ℕ) :=
  andThen pbDecodeVarint32 fun temp => give ((temp &&& 7).toNat, (temp >>> 3).toNat)

/-- `pb_skip_string`. -/
def pbSkipString : Istream Unit :=
  andThen pbDecodeVarint32 fun length => andThen (pbRead length.toNat) fun _ => give ()

/-- `pb_skip_field`. -/
def pbSkipField (wireType : ℕ) : Istream Unit :=
  if wireType = pbWtVarint then pbSkipVarint
  else if wireType = pbWt64bit then andThen (pbRead 8) fun _ => give ()
  else if wireType = pbWtString then pbSkipString
  else if wireType = pbWt32bit then andThen (pbRead 4) fun _ => give ()
  else fail .invalidWireType

/-- `pb_make_string_substream`: the bytes of the substream. -/
def pbMakeStringSubstream : Istream (List UInt8) :=
  andThen pbDecodeVarint32 fun size =>
    andThen (takeExactly .parentStreamTooShort size.toNat) fun bs => give bs.1

/-! ### Masks and shifts -/

section Bits

/-- The masks of the decoders, on the 256 bytes. -/
theorem masks_of_lt : ∀ n < 256, (n &&& 0x80 = 0 ↔ n < 128) ∧ (n &&& 0xFE = 0 ↔ n < 2) ∧
    (n &&& 0x70 = 0 ↔ n % 128 < 16) ∧ (n &&& 0x78 = 0x78 → 8 ≤ n % 16) := by
  decide +kernel

variable (b : UInt8)

theorem and_high : b &&& 0x80 = 0 ↔ b.toNat < 128 := by
  rw [← UInt8.toNat_inj, UInt8.toNat_and]
  exact (masks_of_lt b.toNat b.toNat_lt).1

theorem and_overflow : b &&& 0xFE = 0 ↔ b.toNat < 2 := by
  rw [← UInt8.toNat_inj, UInt8.toNat_and]
  exact (masks_of_lt b.toNat b.toNat_lt).2.1

theorem and_upper : b &&& 0x70 = 0 ↔ b.toNat % 128 < 16 := by
  rw [← UInt8.toNat_inj, UInt8.toNat_and]
  exact (masks_of_lt b.toNat b.toNat_lt).2.2.1

theorem and_sign (h : b &&& 0x78 = 0x78) : 8 ≤ b.toNat % 16 := by
  rw [← UInt8.toNat_inj, UInt8.toNat_and] at h
  exact (masks_of_lt b.toNat b.toNat_lt).2.2.2 h

theorem toNat_and_digit : (b &&& 0x7F).toNat = b.toNat % 128 :=
  Nat.and_two_pow_sub_one_eq_mod b.toNat 7

theorem toNat_and_nibble : (b &&& 0x0F).toNat = b.toNat % 16 :=
  Nat.and_two_pow_sub_one_eq_mod b.toNat 4

/-- A digit is put on top of the digits below it. -/
theorem or_mul_two_pow {r d i : ℕ} (h : r < 2 ^ i) : r ||| d * 2 ^ i = r + d * 2 ^ i := by
  rw [Nat.or_comm, Nat.mul_comm, ← Nat.two_pow_add_eq_or_of_lt h, Nat.add_comm]

theorem toNat_or_shift64 {result d : UInt64} {i : ℕ} (hi : i < 64) (h : result.toNat < 2 ^ i)
    (hd : d.toNat * 2 ^ i < 2 ^ 64) :
    (result ||| d <<< UInt64.ofNat i).toNat = result.toNat + d.toNat * 2 ^ i := by
  have hmod : (UInt64.ofNat i).toNat % 64 = i := by
    rw [UInt64.toNat_ofNat']
    omega
  rw [UInt64.toNat_or, UInt64.toNat_shiftLeft, hmod, Nat.shiftLeft_eq, Nat.mod_eq_of_lt hd,
    or_mul_two_pow h]

theorem toNat_or_shift32 {result d : UInt32} {i : ℕ} (hi : i < 32) (h : result.toNat < 2 ^ i)
    (hd : d.toNat * 2 ^ i < 2 ^ 32) :
    (result ||| d <<< UInt32.ofNat i).toNat = result.toNat + d.toNat * 2 ^ i := by
  have hmod : (UInt32.ofNat i).toNat % 32 = i := by
    rw [UInt32.toNat_ofNat']
    omega
  rw [UInt32.toNat_or, UInt32.toNat_shiftLeft, hmod, Nat.shiftLeft_eq, Nat.mod_eq_of_lt hd,
    or_mul_two_pow h]

end Bits

/-! ### What the varint decoders read -/

/-- The plain reader of numbers, one byte at a time. -/
theorem readVarint_cons_eq_some {b : UInt8} {s rest : List UInt8} {n : ℕ} :
    readVarint (b :: s) = some (n, rest) ↔
      (b.toNat < 128 ∧ n = b.toNat ∧ rest = s) ∨
        (128 ≤ b.toNat ∧ ∃ k, readVarint s = some (k, rest) ∧ n = b.toNat % 128 + 128 * k) := by
  rw [readVarint]
  split_ifs with hb
  · simp only [Option.some.injEq, Prod.mk.injEq, hb, true_and, Nat.not_le.mpr hb, false_and,
      or_false]
    exact and_congr eq_comm eq_comm
  · simp only [Option.map_eq_some_iff, Prod.mk.injEq, Prod.exists, hb, false_and, false_or,
      Nat.le_of_not_lt hb, true_and]
    constructor
    · rintro ⟨k, _, hk, rfl, rfl⟩
      exact ⟨k, hk, rfl⟩
    · rintro ⟨k, hk, rfl⟩
      exact ⟨k, rest, hk, rfl, rfl⟩

/-- A number has a byte or more. -/
theorem length_of_readVarint {s rest : List UInt8} {n : ℕ} (h : readVarint s = some (n, rest)) :
    rest.length < s.length := by
  induction s generalizing n with
  | nil => exact nomatch h
  | cons b s ih =>
    obtain ⟨-, -, rfl⟩ | ⟨-, k, hk, -⟩ := readVarint_cons_eq_some.mp h
    · exact Nat.lt_succ_self _
    · exact Nat.lt_succ_of_lt (ih hk)

/-- What reads a number takes off the bytes of that number. -/
theorem readVarint_append {s rest : List UInt8} {n : ℕ} (h : readVarint s = some (n, rest)) :
    ∃ u, s = u ++ rest ∧ ∀ t, readVarint (u ++ t) = some (n, t) := by
  induction s generalizing n with
  | nil => exact nomatch h
  | cons b s ih =>
    obtain ⟨hb, rfl, rfl⟩ | ⟨hb, k, hk, rfl⟩ := readVarint_cons_eq_some.mp h
    · exact ⟨[b], rfl, fun t => readVarint_cons_eq_some.mpr (Or.inl ⟨hb, rfl, rfl⟩)⟩
    · obtain ⟨u, rfl, hu⟩ := ih hk
      exact ⟨b :: u, rfl, fun t => readVarint_cons_eq_some.mpr (Or.inr ⟨hb, k, hu t, rfl⟩)⟩

/-- The loop reads a number digit by digit: `k` digits have been read, and at most ten are. -/
theorem varintLoop_eq_ok_iff {k : ℕ} (hk : k ≤ 9) (result v : UInt64)
    (hres : result.toNat < 2 ^ (7 * k)) {s rest : List UInt8} :
    varintLoop (7 * k) result s = .ok (v, rest) ↔
      ∃ n, readVarint s = some (n, rest) ∧ v.toNat = result.toNat + n * 2 ^ (7 * k) ∧
        s.length + k ≤ rest.length + 10 := by
  induction s generalizing k result with
  | nil => simp [varintLoop, readVarint]
  | cons b s ih =>
    have hv := v.toNat_lt
    have hb := b.toNat_lt
    have hdigit : (b &&& 0x7F).toUInt64.toNat = b.toNat % 128 := by
      rw [UInt8.toNat_toUInt64, toNat_and_digit]
    rw [varintLoop]
    rcases Nat.lt_or_ge k 9 with hlt | hge
    · -- there is room for this digit and for one more
      have hroom : b.toNat % 128 * 2 ^ (7 * k) < 2 ^ 64 := by
        interval_cases k <;> omega
      have hor := toNat_or_shift64 (i := 7 * k) (d := (b &&& 0x7F).toUInt64) (by omega) hres
        (by rwa [hdigit])
      rw [hdigit] at hor
      have hpow : 2 ^ (7 * (k + 1)) = 128 * 2 ^ (7 * k) := by
        rw [Nat.mul_succ, Nat.pow_add, Nat.mul_comm]
      have hnext : b.toNat % 128 * 2 ^ (7 * k) + 2 ^ (7 * k) ≤ 128 * 2 ^ (7 * k) := by
        rw [← Nat.succ_mul]
        exact Nat.mul_le_mul_right _ (by omega)
      rw [if_neg (by omega)]
      simp only [and_high, readVarint_cons_eq_some]
      by_cases hlast : b.toNat < 128
      · rw [if_pos hlast]
        simp only [Except.ok.injEq, Prod.mk.injEq, hlast, true_and, Nat.not_le.mpr hlast,
          false_and, or_false]
        rw [Nat.mod_eq_of_lt hlast] at hor
        constructor
        · rintro ⟨rfl, rfl⟩
          exact ⟨b.toNat, ⟨rfl, rfl⟩, hor, by rw [List.length_cons]; omega⟩
        · rintro ⟨n, ⟨rfl, rfl⟩, hval, -⟩
          exact ⟨UInt64.toNat_inj.mp (hor.trans hval.symm), rfl⟩
      · rw [if_neg hlast, show 7 * k + 7 = 7 * (k + 1) by omega,
          ih (by omega) _ (by rw [hor, hpow]; omega), hor, hpow]
        simp only [hlast, false_and, false_or, Nat.le_of_not_lt hlast, true_and,
          List.length_cons]
        constructor
        · rintro ⟨n, hn, hval, hlen⟩
          refine ⟨_, ⟨n, hn, rfl⟩, ?_, by omega⟩
          rw [hval]
          ring
        · rintro ⟨_, ⟨n, hn, rfl⟩, hval, hlen⟩
          refine ⟨n, hn, ?_, by omega⟩
          rw [hval]
          ring
    · -- the tenth digit: one bit is left of the 64
      obtain rfl : k = 9 := by omega
      simp only [Nat.reduceMul, le_refl, true_and, ne_eq, and_overflow, and_high,
        readVarint_cons_eq_some, List.length_cons] at hres ⊢
      by_cases hone : b.toNat < 2
      · have hlast : b.toNat < 128 := by omega
        have hor := toNat_or_shift64 (i := 63) (d := (b &&& 0x7F).toUInt64) (by omega) hres
          (by rw [hdigit]; omega)
        rw [hdigit, Nat.mod_eq_of_lt hlast] at hor
        rw [if_neg (not_not_intro hone), if_pos hlast]
        simp only [Except.ok.injEq, Prod.mk.injEq, hlast, true_and, Nat.not_le.mpr hlast,
          false_and, or_false]
        constructor
        · rintro ⟨rfl, rfl⟩
          exact ⟨b.toNat, ⟨rfl, rfl⟩, hor, by omega⟩
        · rintro ⟨n, ⟨rfl, rfl⟩, hval, -⟩
          exact ⟨UInt64.toNat_inj.mp (hor.trans hval.symm), rfl⟩
      · rw [if_pos hone]
        simp only [reduceCtorEq, false_iff, not_exists, not_and]
        rintro n (⟨hlast, rfl, rfl⟩ | ⟨-, m, hm, -⟩) hval
        · omega
        · have hlt := length_of_readVarint hm
          omega

/-- **What the 64-bit decoder reads**: the numbers below `2 ^ 64` of at most ten bytes. -/
theorem pbDecodeVarint_eq_ok_iff {s rest : List UInt8} {v : UInt64} :
    pbDecodeVarint s = .ok (v, rest) ↔
      readVarint s = some (v.toNat, rest) ∧ s.length ≤ rest.length + 10 := by
  have hloop : varintLoop (7 * 0) 0 s = .ok (v, rest) ↔ _ :=
    varintLoop_eq_ok_iff (by omega) 0 v (by simp)
  simp only [Nat.mul_zero, UInt64.toNat_zero, Nat.zero_add, Nat.pow_zero, Nat.mul_one,
    Nat.add_zero] at hloop
  rw [pbDecodeVarint, hloop]
  constructor
  · rintro ⟨n, hn, rfl, hlen⟩
    exact ⟨hn, hlen⟩
  · rintro ⟨hn, hlen⟩
    exact ⟨_, hn, rfl, hlen⟩

/-- What a byte of the 32-bit decoder adds is counted modulo `2 ^ 32`. When it is not counted
whole the number is negative, and the 32 bits have their highest one set. -/
theorem varint32Byte_sound {k : ℕ} (hk : 1 ≤ k) {result r : UInt32} {b : UInt8}
    (hres : result.toNat < 2 ^ (7 * k)) (h : varint32Byte (7 * k) result b = .ok r) :
    k ≤ 9 ∧ r.toNat = (result.toNat + b.toNat % 128 * 2 ^ (7 * k)) % 2 ^ 32 ∧
      (result.toNat + b.toNat % 128 * 2 ^ (7 * k) < 2 ^ 32 ∨ 4 ≤ k ∧ 2 ^ 31 ≤ r.toNat) := by
  have hresult := result.toNat_lt
  have hb := b.toNat_lt
  rw [varint32Byte] at h
  split_ifs at h with hbig hvalid h28 hupper
  · -- nothing is left of the 32 bits, so the byte counts for nothing
    obtain rfl := Except.ok.inj h
    refine ⟨by omega, ?_⟩
    obtain ⟨j, rfl⟩ : ∃ j, k = j + 5 := ⟨k - 5, by omega⟩
    have hpow : 2 ^ (7 * (j + 5)) = 2 ^ (7 * j) * 8 * 2 ^ 32 := by
      rw [Nat.mul_add, Nat.pow_add]
      ring
    refine ⟨by rw [hpow, ← Nat.mul_assoc, Nat.add_mul_mod_self_right, Nat.mod_eq_of_lt hresult], ?_⟩
    rw [not_or, not_not] at hvalid
    rcases hvalid.2 with hzero | ⟨hsign, -⟩
    · left
      rw [← toNat_and_digit, hzero]
      simpa using hresult
    · right
      refine ⟨by omega, ?_⟩
      by_contra hlt
      refine hsign (UInt32.toNat_inj.mp ?_)
      rw [UInt32.toNat_shiftRight, show (31 : UInt32).toNat % 32 = 31 from rfl,
        Nat.shiftRight_eq_div_pow, Nat.div_eq_of_lt (by omega)]
      rfl
  · obtain rfl : k = 4 := by omega
    obtain rfl := Except.ok.inj h
    refine ⟨by omega, ?_⟩
    have hdigit : (b &&& 0x0F).toUInt32.toNat = b.toNat % 16 := by
      rw [UInt8.toNat_toUInt32, toNat_and_nibble]
    have hor := toNat_or_shift32 (i := 28) (d := (b &&& 0x0F).toUInt32) (by omega) hres
      (by rw [hdigit]; omega)
    rw [hdigit] at hor
    simp only [Nat.reduceMul] at hres ⊢
    refine ⟨by omega, ?_⟩
    by_cases hzero : b &&& 0x70 = 0
    · have hlt := (and_upper b).mp hzero
      left
      omega
    · have hle := and_sign b (not_not.mp fun hne => hupper ⟨hzero, hne⟩)
      right
      omega
  · obtain rfl := Except.ok.inj h
    refine ⟨by omega, ?_⟩
    have hdigit : (b &&& 0x7F).toUInt32.toNat = b.toNat % 128 := by
      rw [UInt8.toNat_toUInt32, toNat_and_digit]
    have hroom : b.toNat % 128 * 2 ^ (7 * k) + 2 ^ (7 * k) ≤ 2 ^ 32 := by
      obtain rfl | rfl | rfl : k = 1 ∨ k = 2 ∨ k = 3 := by omega
      all_goals omega
    have hor := toNat_or_shift32 (i := 7 * k) (d := (b &&& 0x7F).toUInt32) (by omega) hres
      (by rw [hdigit]; omega)
    rw [hdigit] at hor
    exact ⟨hor.trans (Nat.mod_eq_of_lt (by omega)).symm, Or.inl (by omega)⟩

/-- A byte that keeps the number below `2 ^ 32` is taken. -/
theorem varint32Byte_complete {k : ℕ} (hk : 1 ≤ k) (hk9 : k ≤ 9) (result : UInt32) (b : UInt8)
    (hlt : result.toNat + b.toNat % 128 * 2 ^ (7 * k) < 2 ^ 32) :
    ∃ r, varint32Byte (7 * k) result b = .ok r := by
  have hb := b.toNat_lt
  rw [varint32Byte]
  split_ifs with hbig hvalid h28 hupper
  · -- past the 32 bits only zeros may follow
    have hpow : 2 ^ 35 ≤ 2 ^ (7 * k) := Nat.pow_le_pow_right (by omega) (by omega)
    have hzero : b.toNat % 128 = 0 := by
      by_contra hne
      have hmul := Nat.mul_le_mul_right (2 ^ (7 * k)) (Nat.one_le_iff_ne_zero.mpr hne)
      omega
    have hand : b &&& 0x7F = 0 := UInt8.toNat_inj.mp ((toNat_and_digit b).trans hzero)
    simp only [hand, true_or, not_true_eq_false, or_false] at hvalid
    omega
  · exact ⟨_, rfl⟩
  · obtain rfl : k = 4 := by omega
    have hzero : b &&& 0x70 = 0 := (and_upper b).mpr (by omega)
    exact absurd hzero hupper.1
  · exact ⟨_, rfl⟩
  · exact ⟨_, rfl⟩

/-- Past the 32 bits nothing is added any more. -/
theorem varint32Loop_eq {k : ℕ} (hk : 5 ≤ k) {result v : UInt32} {s rest : List UInt8}
    (h : varint32Loop (7 * k) result s = .ok (v, rest)) : v = result := by
  induction s generalizing k with
  | nil => exact nomatch h
  | cons b s ih =>
    rw [varint32Loop, varint32Byte, if_pos (by omega)] at h
    split_ifs at h with hvalid hlast
    · exact (Prod.mk.inj (Except.ok.inj h)).1.symm
    · exact ih (k := k + 1) (by omega) h

/-- The loop of the 32-bit decoder, `k` digits on. -/
theorem varint32Loop_sound {k : ℕ} (hk : 1 ≤ k) {result v : UInt32}
    (hres : result.toNat < 2 ^ (7 * k)) {s rest : List UInt8}
    (h : varint32Loop (7 * k) result s = .ok (v, rest)) :
    ∃ n, readVarint s = some (n, rest) ∧ v.toNat = (result.toNat + n * 2 ^ (7 * k)) % 2 ^ 32 ∧
      (result.toNat + n * 2 ^ (7 * k) < 2 ^ 32 ∨ 2 ^ 31 ≤ v.toNat) ∧
      s.length + k ≤ rest.length + 10 := by
  induction s generalizing k result with
  | nil => exact nomatch h
  | cons b s ih =>
    rw [varint32Loop] at h
    rcases hbyte : varint32Byte (7 * k) result b with err | r
    · rw [hbyte] at h
      exact nomatch h
    obtain ⟨hk9, hr, hwhole⟩ := varint32Byte_sound hk hres hbyte
    rw [hbyte] at h
    simp only [and_high] at h
    split_ifs at h with hlast
    · obtain ⟨rfl, rfl⟩ := Prod.mk.inj (Except.ok.inj h)
      rw [Nat.mod_eq_of_lt hlast] at hr hwhole
      refine ⟨b.toNat, readVarint_cons_eq_some.mpr (Or.inl ⟨hlast, rfl, rfl⟩), hr,
        hwhole.imp_right And.right, ?_⟩
      rw [List.length_cons]
      omega
    · have hpow : 2 ^ (7 * (k + 1)) = 128 * 2 ^ (7 * k) := by
        rw [Nat.mul_succ, Nat.pow_add, Nat.mul_comm]
      have hrlt : r.toNat < 2 ^ (7 * (k + 1)) := by
        have hdigit : b.toNat % 128 * 2 ^ (7 * k) + 2 ^ (7 * k) ≤ 128 * 2 ^ (7 * k) := by
          rw [← Nat.succ_mul]
          exact Nat.mul_le_mul_right _ (by omega)
        have hle := Nat.mod_le (result.toNat + b.toNat % 128 * 2 ^ (7 * k)) (2 ^ 32)
        omega
      obtain ⟨n, hn, hv, hvwhole, hlen⟩ := ih (k := k + 1) (by omega) hrlt h
      have hsum : result.toNat + (b.toNat % 128 + 128 * n) * 2 ^ (7 * k) =
          result.toNat + b.toNat % 128 * 2 ^ (7 * k) + n * 2 ^ (7 * (k + 1)) := by
        rw [hpow]
        ring
      refine ⟨_, readVarint_cons_eq_some.mpr (Or.inr ⟨Nat.le_of_not_lt hlast, n, hn, rfl⟩), ?_, ?_, ?_⟩
      · rw [hv, hr, hsum, Nat.mod_add_mod]
      · rcases hwhole with hwhole | ⟨hk4, hsign⟩
        · rw [Nat.mod_eq_of_lt hwhole] at hr
          rwa [hsum, ← hr]
        · right
          rwa [varint32Loop_eq (k := k + 1) (by omega) h]
      · rw [List.length_cons]
        omega

theorem varint32Loop_complete {k : ℕ} (hk : 1 ≤ k) {result : UInt32}
    (hres : result.toNat < 2 ^ (7 * k)) {s rest : List UInt8} {n : ℕ}
    (h : readVarint s = some (n, rest)) (hlt : result.toNat + n * 2 ^ (7 * k) < 2 ^ 32)
    (hlen : s.length + k ≤ rest.length + 10) : ∃ v, varint32Loop (7 * k) result s = .ok (v, rest) := by
  induction s generalizing k result n with
  | nil => exact nomatch h
  | cons b s ih =>
    have hpow : 2 ^ (7 * (k + 1)) = 128 * 2 ^ (7 * k) := by
      rw [Nat.mul_succ, Nat.pow_add, Nat.mul_comm]
    rw [varint32Loop]
    rw [List.length_cons] at hlen
    obtain ⟨hlast, rfl, rfl⟩ | ⟨hmore, m, hm, rfl⟩ := readVarint_cons_eq_some.mp h
    · obtain ⟨r, hr⟩ := varint32Byte_complete hk (by omega) result b
        (by rwa [Nat.mod_eq_of_lt hlast])
      rw [hr]
      simp only [and_high, if_pos hlast]
      exact ⟨r, rfl⟩
    · have hsum : b.toNat % 128 * 2 ^ (7 * k) + m * (128 * 2 ^ (7 * k)) =
          (b.toNat % 128 + 128 * m) * 2 ^ (7 * k) := by ring
      have hshort := length_of_readVarint hm
      obtain ⟨r, hr⟩ := varint32Byte_complete hk (by omega) result b (by omega)
      obtain ⟨-, hrval, -⟩ := varint32Byte_sound hk hres hr
      rw [Nat.mod_eq_of_lt (by omega)] at hrval
      rw [hr]
      simp only [and_high, if_neg (Nat.not_lt.mpr hmore)]
      have hdigit : b.toNat % 128 * 2 ^ (7 * k) + 2 ^ (7 * k) ≤ 128 * 2 ^ (7 * k) := by
        rw [← Nat.succ_mul]
        exact Nat.mul_le_mul_right _ (by omega)
      exact ih (k := k + 1) (by omega) (by rw [hrval, hpow]; omega) hm
        (by rw [hrval, hpow]; omega) (by omega)

/-- **What the 32-bit decoder reads, it reads modulo `2 ^ 32`**, off at most ten bytes; a number
that is larger is read as `2 ^ 31` or more. -/
theorem pbDecodeVarint32_sound {s rest : List UInt8} {v : UInt32}
    (h : pbDecodeVarint32 s = .ok (v, rest)) :
    ∃ n, readVarint s = some (n, rest) ∧ v.toNat = n % 2 ^ 32 ∧ (n < 2 ^ 32 ∨ 2 ^ 31 ≤ v.toNat) ∧
      s.length ≤ rest.length + 10 := by
  cases s with
  | nil => exact nomatch h
  | cons b s =>
    have hb := b.toNat_lt
    rw [pbDecodeVarint32] at h
    simp only [and_high] at h
    rw [List.length_cons]
    split_ifs at h with hlast
    · obtain ⟨rfl, rfl⟩ := Prod.mk.inj (Except.ok.inj h)
      refine ⟨b.toNat, readVarint_cons_eq_some.mpr (Or.inl ⟨hlast, rfl, rfl⟩), ?_, ?_, ?_⟩
      · rw [UInt8.toNat_toUInt32]
        omega
      · omega
      · omega
    · have hdigit : (b &&& 0x7F).toUInt32.toNat = b.toNat % 128 := by
        rw [UInt8.toNat_toUInt32, toNat_and_digit]
      obtain ⟨n, hn, hv, hwhole, hlen⟩ := varint32Loop_sound (k := 1) (by omega)
        (by rw [hdigit]; omega) h
      rw [hdigit] at hv hwhole
      refine ⟨_, readVarint_cons_eq_some.mpr (Or.inr ⟨Nat.le_of_not_lt hlast, n, hn, rfl⟩), ?_, ?_, ?_⟩
      · rw [hv]
        omega
      · omega
      · omega

/-- **The 32-bit decoder reads every number below `2 ^ 32`** of at most ten bytes. -/
theorem pbDecodeVarint32_complete {s rest : List UInt8} {n : ℕ} (h : readVarint s = some (n, rest))
    (hlt : n < 2 ^ 32) (hlen : s.length ≤ rest.length + 10) :
    pbDecodeVarint32 s = .ok (UInt32.ofNat n, rest) := by
  suffices hok : ∃ v, pbDecodeVarint32 s = .ok (v, rest) by
    obtain ⟨v, hv⟩ := hok
    obtain ⟨n', hn', hval, -, -⟩ := pbDecodeVarint32_sound hv
    obtain ⟨rfl, -⟩ := Prod.mk.inj (Option.some.inj (h.symm.trans hn'))
    rw [hv]
    congr 2
    exact UInt32.toNat_inj.mp (by rw [hval, UInt32.toNat_ofNat'])
  cases s with
  | nil => exact nomatch h
  | cons b s =>
    rw [pbDecodeVarint32]
    simp only [and_high]
    rw [List.length_cons] at hlen
    obtain ⟨hlast, rfl, rfl⟩ | ⟨hmore, m, hm, rfl⟩ := readVarint_cons_eq_some.mp h
    · exact ⟨_, if_pos hlast⟩
    · rw [if_neg (Nat.not_lt.mpr hmore)]
      have hdigit : (b &&& 0x7F).toUInt32.toNat = b.toNat % 128 := by
        rw [UInt8.toNat_toUInt32, toNat_and_digit]
      exact varint32Loop_complete (k := 1) (by omega) (by rw [hdigit]; omega) hm
        (by rw [hdigit]; omega) (by omega)

/-- `pb_skip_varint` takes a number off, of any length. -/
theorem pbSkipVarint_eq_ok_iff {s rest : List UInt8} :
    pbSkipVarint s = .ok ((), rest) ↔ ∃ n, readVarint s = some (n, rest) := by
  induction s with
  | nil => simp [pbSkipVarint, readVarint]
  | cons b s ih =>
    rw [pbSkipVarint]
    simp only [and_high, readVarint_cons_eq_some]
    split_ifs with hlast
    · simp only [Except.ok.injEq, Prod.mk.injEq, true_and, hlast, Nat.not_le.mpr hlast, false_and,
        or_false, exists_eq_left]
      exact eq_comm
    · rw [ih]
      simp [hlast, Nat.le_of_not_lt hlast]

/-! ### The readers are local -/

section Local

theorem local_pbDecodeVarint : Local pbDecodeVarint := by
  intro s v rest h
  obtain ⟨hread, hlen⟩ := pbDecodeVarint_eq_ok_iff.mp h
  obtain ⟨u, rfl, hu⟩ := readVarint_append hread
  refine ⟨u, rfl, fun t => pbDecodeVarint_eq_ok_iff.mpr ⟨hu t, ?_⟩⟩
  rw [List.length_append] at hlen ⊢
  omega

theorem local_varint32Loop (bitpos : ℕ) (result : UInt32) : Local (varint32Loop bitpos result) := by
  intro s v rest h
  induction s generalizing bitpos result with
  | nil => exact nomatch h
  | cons b s ih =>
    rw [varint32Loop] at h
    rcases hbyte : varint32Byte bitpos result b with err | r
    · rw [hbyte] at h
      exact nomatch h
    rw [hbyte] at h
    simp only at h
    split_ifs at h with hlast
    · obtain ⟨rfl, rfl⟩ := Prod.mk.inj (Except.ok.inj h)
      refine ⟨[b], rfl, fun t => ?_⟩
      rw [List.singleton_append, varint32Loop, hbyte]
      exact if_pos hlast
    · obtain ⟨u, rfl, hu⟩ := ih _ _ h
      refine ⟨b :: u, rfl, fun t => ?_⟩
      rw [List.cons_append, varint32Loop, hbyte]
      simp only [if_neg hlast]
      exact hu t

theorem local_pbDecodeVarint32 : Local pbDecodeVarint32 := by
  intro s v rest h
  cases s with
  | nil => exact nomatch h
  | cons b s =>
    rw [pbDecodeVarint32] at h
    split_ifs at h with hlast
    · obtain ⟨rfl, rfl⟩ := Prod.mk.inj (Except.ok.inj h)
      refine ⟨[b], rfl, fun t => ?_⟩
      rw [List.singleton_append, pbDecodeVarint32]
      exact if_pos hlast
    · obtain ⟨u, rfl, hu⟩ := local_varint32Loop 7 _ h
      refine ⟨b :: u, rfl, fun t => ?_⟩
      rw [List.cons_append, pbDecodeVarint32, if_neg hlast]
      exact hu t

theorem local_pbSkipVarint : Local pbSkipVarint := by
  intro s _ rest h
  obtain ⟨n, hn⟩ := pbSkipVarint_eq_ok_iff.mp h
  obtain ⟨u, rfl, hu⟩ := readVarint_append hn
  exact ⟨u, rfl, fun t => pbSkipVarint_eq_ok_iff.mpr ⟨n, hu t⟩⟩

theorem local_pbDecodeTag : Local pbDecodeTag :=
  local_pbDecodeVarint32.andThen fun _ => local_give _

theorem local_pbSkipString : Local pbSkipString :=
  local_pbDecodeVarint32.andThen fun _ => (local_takeExactly _ _).andThen fun _ => local_give ()

theorem local_pbSkipField (wireType : ℕ) : Local (pbSkipField wireType) := by
  have hread : ∀ n, Local (andThen (pbRead n) fun _ => give ()) := fun n =>
    (local_takeExactly _ n).andThen fun _ => local_give ()
  exact local_pbSkipVarint.ite ((hread 8).ite (local_pbSkipString.ite ((hread 4).ite (local_fail _))))

theorem local_pbMakeStringSubstream : Local pbMakeStringSubstream :=
  local_pbDecodeVarint32.andThen fun _ => (local_takeExactly _ _).andThen fun _ => local_give _

/-- A tag has a byte or more. -/
theorem length_of_pbDecodeTag {s rest : List UInt8} {tag : ℕ × ℕ}
    (h : pbDecodeTag s = .ok (tag, rest)) : rest.length < s.length := by
  obtain ⟨temp, mid, htemp, hgive⟩ := andThen_eq_ok.mp h
  obtain ⟨n, hn, -, -, -⟩ := pbDecodeVarint32_sound htemp
  obtain ⟨-, rfl⟩ := Prod.mk.inj (Except.ok.inj hgive)
  exact length_of_readVarint hn

end Local

/-! ### What was written is read -/

section Reads

variable {n : ℕ}

theorem reads_pbDecodeVarint (h : n < 2 ^ 64) :
    Reads pbDecodeVarint (varint n) (UInt64.ofNat n) := by
  intro t
  have hlen := length_varint_le (k := 10) (by omega) (lt_trans h (by norm_num))
  refine pbDecodeVarint_eq_ok_iff.mpr ⟨?_, by rw [List.length_append]; omega⟩
  rw [readVarint_varint, UInt64.toNat_ofNat', Nat.mod_eq_of_lt h]

theorem reads_pbDecodeVarint32 (h : n < 2 ^ 32) :
    Reads pbDecodeVarint32 (varint n) (UInt32.ofNat n) := by
  intro t
  have hlen := length_varint_le (k := 10) (by omega) (lt_trans h (by norm_num))
  exact pbDecodeVarint32_complete (readVarint_varint n t) h (by rw [List.length_append]; omega)

theorem reads_pbSkipVarint (n : ℕ) : Reads pbSkipVarint (varint n) () := fun t =>
  pbSkipVarint_eq_ok_iff.mpr ⟨n, readVarint_varint n t⟩

/-- A tag is read back, with the wire type that was put below it. -/
theorem reads_pbDecodeTag {tag wireType : ℕ} (htag : tag < 2 ^ 29) (htype : wireType < 8) :
    Reads pbDecodeTag (varint (8 * tag + wireType)) (wireType, tag) := by
  have hlt : 8 * tag + wireType < 2 ^ 32 := by omega
  have hnat : (UInt32.ofNat (8 * tag + wireType)).toNat = 8 * tag + wireType := by
    rw [UInt32.toNat_ofNat', Nat.mod_eq_of_lt hlt]
  have hlow : (UInt32.ofNat (8 * tag + wireType) &&& 7).toNat = wireType := by
    have hand := Nat.and_two_pow_sub_one_eq_mod (8 * tag + wireType) 3
    rw [UInt32.toNat_and, hnat]
    exact hand.trans (by omega)
  have hhigh : (UInt32.ofNat (8 * tag + wireType) >>> 3).toNat = tag := by
    rw [UInt32.toNat_shiftRight, hnat, show (3 : UInt32).toNat % 32 = 3 from rfl,
      Nat.shiftRight_eq_div_pow]
    omega
  intro t
  rw [pbDecodeTag, andThen, reads_pbDecodeVarint32 hlt, ← hlow, ← hhigh]
  simp only [hlow, hhigh]
  rfl

/-- A number of `k` digits is below the `k`-th power of 128. -/
theorem lt_of_length_varint_le {k n : ℕ} (h : (varint n).length ≤ k) : n < 128 ^ k := by
  induction k generalizing n with
  | zero =>
    have hpos := length_varint_pos n
    omega
  | succ k ih =>
    rw [varint] at h
    split_ifs at h with hn
    · exact lt_of_lt_of_le hn (Nat.le_self_pow (Nat.succ_ne_zero k) 128)
    · have hdiv := ih (Nat.le_of_succ_le_succ h)
      rw [Nat.pow_succ]
      omega

/-- A length of any size, if it is read at all, is read as it is or as one far too large. -/
theorem pbDecodeVarint32_varint {t rest : List UInt8} {v : UInt32}
    (h : pbDecodeVarint32 (varint n ++ t) = .ok (v, rest)) :
    rest = t ∧ (v.toNat = n ∨ 2 ^ 31 ≤ v.toNat) ∧ (varint n).length ≤ 10 := by
  obtain ⟨k, hk, hv, hwhole, hlen⟩ := pbDecodeVarint32_sound h
  rw [readVarint_varint] at hk
  obtain ⟨rfl, rfl⟩ := Prod.mk.inj (Option.some.inj hk)
  refine ⟨rfl, hwhole.imp_left fun hlt => ?_, ?_⟩
  · rw [hv, Nat.mod_eq_of_lt hlt]
  · rw [List.length_append] at hlen
    omega

/-- Bytes behind their length: the length is read, and what comes of it reads the bytes. -/
theorem reads_behind_length {β : Type} {f : UInt32 → Istream β} {u : List UInt8} {b : β}
    (h : u.length < 2 ^ 32) (hf : ∀ size : UInt32, size.toNat = u.length → Reads (f size) u b) :
    Reads (andThen pbDecodeVarint32 f) (varint u.length ++ u) b :=
  (reads_pbDecodeVarint32 h).andThen (hf _ (by rw [UInt32.toNat_ofNat', Nat.mod_eq_of_lt h]))

/-- A substream is what stands behind its length. -/
theorem reads_pbMakeStringSubstream {u : List UInt8} (h : u.length < 2 ^ 32) :
    Reads pbMakeStringSubstream (varint u.length ++ u) u :=
  reads_behind_length h fun _ hsize =>
    ((reads_takeExactly _ hsize.symm).andThen (f := fun bs => give bs.1) (reads_give u)).of_append_nil

theorem reads_pbSkipString {u : List UInt8} (h : u.length < 2 ^ 32) :
    Reads pbSkipString (varint u.length ++ u) () :=
  reads_behind_length h fun _ hsize =>
    ((reads_takeExactly _ hsize.symm).andThen (f := fun _ => give ()) (reads_give ())).of_append_nil

end Reads

end AgentxSubagent.Nanopb
