import Mathlib.Data.Nat.Bitwise
import Mathlib.Tactic.Ring

/-!
# Little-endian words

A number written on a fixed count of bytes, the least significant one first. Nothing
here mentions a program: `LittleEndian.leBytes` cuts a natural number into bytes,
`LittleEndian.leNat` puts them together again, and the two are inverse to each other up
to the width (`LittleEndian.leNat_leBytes`, `LittleEndian.leBytes_leNat`).

Code that assembles a word does so with shifts and disjunctions rather than with sums.
The bridge is `LittleEndian.lor_shiftLeft`: a disjunction whose right operand was shifted
past the left one is a sum, so a chain of such disjunctions is a `leNat`.
-/

namespace LittleEndian

/-- The `w` low-order bytes of `n`, the least significant one first. -/
def leBytes : ℕ → ℕ → List UInt8
  | 0, _ => []
  | w + 1, n => n.toUInt8 :: leBytes w (n / 256)

/-- The number a list of bytes denotes, the least significant one first. -/
def leNat (bs : List UInt8) : ℕ := bs.foldr (fun b acc => b.toNat + 256 * acc) 0

@[simp] theorem leNat_nil : leNat [] = 0 := rfl

@[simp] theorem leNat_cons (b : UInt8) (bs : List UInt8) :
    leNat (b :: bs) = b.toNat + 256 * leNat bs := rfl

@[simp] theorem leBytes_length : ∀ w n : ℕ, (leBytes w n).length = w
  | 0, _ => rfl
  | w + 1, n => by rw [leBytes, List.length_cons, leBytes_length w]

/-- A list of bytes denotes a number below the place value above its last byte. -/
theorem leNat_lt (bs : List UInt8) : leNat bs < 256 ^ bs.length := by
  induction bs with
  | nil => simp
  | cons b bs ih =>
    have hb : b.toNat < 256 := b.toNat_lt
    rw [leNat_cons, List.length_cons, Nat.pow_succ']
    omega

/-- **Cutting and reassembling** keeps the number, up to the width. -/
theorem leNat_leBytes (w n : ℕ) : leNat (leBytes w n) = n % 256 ^ w := by
  induction w generalizing n with
  | zero => simp [leBytes, Nat.mod_one]
  | succ w ih =>
    have hlow : n.toUInt8.toNat = n % 256 := by simp
    rw [leBytes, leNat_cons, ih, hlow, Nat.pow_succ', Nat.mod_mul]

/-- **Reassembling and cutting** at the length of the list gives the list back. -/
theorem leBytes_leNat (bs : List UInt8) : leBytes bs.length (leNat bs) = bs := by
  induction bs with
  | nil => rfl
  | cons b bs ih =>
    have hb : b.toNat < 256 := b.toNat_lt
    have hhead : (leNat (b :: bs)).toUInt8 = b := by
      apply UInt8.toNat_inj.mp
      simp only [leNat_cons, Nat.toUInt8, UInt8.toNat_ofNat']
      omega
    have htail : leNat (b :: bs) / 256 = leNat bs := by
      rw [leNat_cons]
      omega
    rw [List.length_cons, leBytes, hhead, htail, ih]

/-- The bytes after a front are worth the place value above it. -/
theorem leNat_append (bs cs : List UInt8) :
    leNat (bs ++ cs) = leNat bs + 256 ^ bs.length * leNat cs := by
  induction bs with
  | nil => simp
  | cons b bs ih =>
    rw [List.cons_append, leNat_cons, leNat_cons, ih, List.length_cons, Nat.pow_succ']
    ring

/-- Masking with `0xFF` keeps the low byte. -/
theorem land_255 (n : ℕ) : n &&& 255 = n % 256 := Nat.and_two_pow_sub_one_eq_mod n 8

/-- **A disjunction past the low bits is a sum**: what assembles a word with shifts
computes its place-value expansion. -/
theorem lor_shiftLeft {a k : ℕ} (ha : a < 2 ^ k) (b : ℕ) : a ||| b <<< k = a + b * 2 ^ k := by
  have h := Nat.shiftLeft_add_eq_or_of_lt ha b
  rw [Nat.or_comm, ← h, Nat.shiftLeft_eq]
  ring

end LittleEndian
