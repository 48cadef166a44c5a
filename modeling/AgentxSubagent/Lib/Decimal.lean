import Mathlib.Data.Nat.Digits.Lemmas
import Mathlib.Tactic.Ring

/-!
# Decimal numerals and dotted decimal

The bytes of a number as `printf` writes it, and of a list of numbers with dots in between.
Nothing here mentions a program.

* `Decimal.decimal` is the canonical numeral of a number, `Decimal.valueFrom` the number an
  accumulating reader arrives at. The canonical numerals are the non-empty digit strings
  without a superfluous leading zero: `Decimal.decimal_value` and `Decimal.value_decimal`
  make the two inverse to each other on them.
* `Decimal.dotted` joins numerals with dots. No dot occurs inside a numeral, so cutting at
  the dots gives the numerals back (`Decimal.splitOn_dotted`), and the text determines the
  numbers (`Decimal.dotted_inj`).
-/

namespace Decimal

/-! ### Numerals -/

/-- The byte of a digit. -/
def digitByte (d : ℕ) : UInt8 := (48 + d).toUInt8

/-- Whether a byte is a digit. -/
def isDigit (b : UInt8) : Bool := decide (48 ≤ b) && decide (b ≤ 57)

/-- The number a digit stands for. -/
def digitOf (b : UInt8) : ℕ := b.toNat - 48

/-- The canonical numeral of a number. -/
def decimal (n : ℕ) : List UInt8 :=
  if n = 0 then [48] else ((Nat.digits 10 n).map digitByte).reverse

/-- What a reader that has accumulated `v` arrives at after the digits `ds`. -/
def valueFrom (v : ℕ) (ds : List UInt8) : ℕ := ds.foldl (fun acc b => acc * 10 + digitOf b) v

@[simp] theorem valueFrom_nil (v : ℕ) : valueFrom v [] = v := rfl

@[simp] theorem valueFrom_cons (v : ℕ) (b : UInt8) (ds : List UInt8) :
    valueFrom v (b :: ds) = valueFrom (v * 10 + digitOf b) ds := by
  simp only [valueFrom, List.foldl_cons]

/-- A reader never loses what it has accumulated. -/
theorem le_valueFrom (v : ℕ) (ds : List UInt8) : v ≤ valueFrom v ds := by
  induction ds generalizing v with
  | nil => exact le_rfl
  | cons b ds ih =>
    rw [valueFrom_cons]
    exact le_trans (by omega) (ih _)

theorem isDigit_iff {b : UInt8} : isDigit b = true ↔ 48 ≤ b.toNat ∧ b.toNat ≤ 57 := by
  simp [isDigit, UInt8.le_iff_toNat_le]

theorem digitOf_lt {b : UInt8} (h : isDigit b = true) : digitOf b < 10 := by
  rw [isDigit_iff] at h
  rw [digitOf]
  omega

theorem digitByte_toNat {d : ℕ} (h : d < 10) : (digitByte d).toNat = 48 + d := by
  rw [digitByte, Nat.toUInt8, UInt8.toNat_ofNat']
  omega

theorem isDigit_digitByte {d : ℕ} (h : d < 10) : isDigit (digitByte d) = true := by
  rw [isDigit_iff, digitByte_toNat h]
  omega

theorem digitOf_digitByte {d : ℕ} (h : d < 10) : digitOf (digitByte d) = d := by
  rw [digitOf, digitByte_toNat h]
  omega

theorem digitByte_digitOf {b : UInt8} (h : isDigit b = true) : digitByte (digitOf b) = b := by
  refine UInt8.toNat_inj.mp ?_
  rw [digitByte_toNat (digitOf_lt h), digitOf]
  rw [isDigit_iff] at h
  omega

/-- An accumulating reader computes the place-value expansion. -/
theorem valueFrom_eq (v : ℕ) (ds : List UInt8) :
    valueFrom v ds = v * 10 ^ ds.length + Nat.ofDigits 10 (ds.map digitOf).reverse := by
  induction ds generalizing v with
  | nil => simp
  | cons b ds ih =>
    rw [valueFrom_cons, ih, List.map_cons, Nat.ofDigits_reverse_cons, List.length_cons,
      List.length_map, Nat.pow_succ]
    ring

theorem decimal_ne_nil (n : ℕ) : decimal n ≠ [] := by
  rw [decimal]
  split_ifs with h
  · simp
  · simpa using Nat.digits_ne_nil_iff_ne_zero.mpr h

theorem isDigit_of_mem_decimal {n : ℕ} {b : UInt8} (hb : b ∈ decimal n) : isDigit b = true := by
  rw [decimal] at hb
  split_ifs at hb with h
  · rw [List.mem_singleton.mp hb]
    rfl
  · rw [List.mem_reverse, List.mem_map] at hb
    obtain ⟨d, hd, rfl⟩ := hb
    exact isDigit_digitByte (Nat.digits_lt_base (by decide) hd)

/-- **A numeral denotes its number.** -/
theorem value_decimal (n : ℕ) : valueFrom 0 (decimal n) = n := by
  rw [decimal]
  split_ifs with h
  · subst h
    rfl
  · have hback : ((Nat.digits 10 n).map digitByte).map digitOf = Nat.digits 10 n := by
      rw [List.map_map]
      exact (List.map_congr_left fun d hd =>
        digitOf_digitByte (Nat.digits_lt_base (by decide) hd)).trans (List.map_id _)
    rw [valueFrom_eq, List.map_reverse, List.reverse_reverse, hback, Nat.ofDigits_digits,
      Nat.zero_mul, Nat.zero_add]

/-- A string of digits that `printf` could have written: not empty, and without a leading
zero unless it is the only digit. -/
structure Canonical (ds : List UInt8) : Prop where
  ne_nil : ds ≠ []
  digits : ∀ b ∈ ds, isDigit b = true
  lead : 1 < ds.length → ds.head? ≠ some 48

/-- **A canonical string is the numeral of its value.** -/
theorem decimal_value {ds : List UInt8} (h : Canonical ds) : decimal (valueFrom 0 ds) = ds := by
  obtain ⟨hne, hdig, hlead⟩ := h
  obtain ⟨b, rest, rfl⟩ := List.exists_cons_of_ne_nil hne
  by_cases hz : b = 48
  · -- a leading zero stands alone
    subst hz
    rcases rest with _ | ⟨c, rest⟩
    · rfl
    · exact absurd rfl (hlead (by simp))
  have hb := isDigit_iff.mp (hdig b (List.mem_cons_self ..))
  have hd : digitOf b ≠ 0 := by
    intro h0
    refine hz (UInt8.toNat_inj.mp ?_)
    rw [digitOf] at h0
    show b.toNat = 48
    omega
  have hdigits : Nat.digits 10 (Nat.ofDigits 10 ((b :: rest).map digitOf).reverse) =
      ((b :: rest).map digitOf).reverse := by
    refine Nat.digits_ofDigits 10 (by decide) _ ?_ ?_
    · intro d hmem
      rw [List.mem_reverse, List.mem_map] at hmem
      obtain ⟨c, hc, rfl⟩ := hmem
      exact digitOf_lt (hdig c hc)
    · intro hne'
      rw [List.getLast_reverse]
      exact hd
  have hv : valueFrom 0 (b :: rest) = Nat.ofDigits 10 ((b :: rest).map digitOf).reverse := by
    rw [valueFrom_eq, Nat.zero_mul, Nat.zero_add]
  have hpos : valueFrom 0 (b :: rest) ≠ 0 := by
    intro h0
    rw [hv] at h0
    rw [h0] at hdigits
    exact absurd hdigits.symm (by simp)
  rw [decimal, if_neg hpos, hv, hdigits, List.map_reverse, List.reverse_reverse, List.map_map]
  exact (List.map_congr_left fun c hc => digitByte_digitOf (hdig c hc)).trans (List.map_id _)

/-- Numerals are canonical. -/
theorem canonical_decimal (n : ℕ) : Canonical (decimal n) where
  ne_nil := decimal_ne_nil n
  digits := fun _ hb => isDigit_of_mem_decimal hb
  lead := by
    intro hlen hhead
    by_cases h : n = 0
    · subst h
      exact absurd hlen (by decide)
    · have hlast := Nat.getLast_digit_ne_zero 10 h
      have hlt := Nat.digits_lt_base (by decide : 1 < 10)
        (List.getLast_mem (Nat.digits_ne_nil_iff_ne_zero.mpr h))
      rw [decimal, if_neg h, List.head?_reverse, List.getLast?_map,
        List.getLast?_eq_getLast_of_ne_nil (Nat.digits_ne_nil_iff_ne_zero.mpr h)] at hhead
      have hbyte := congrArg UInt8.toNat (Option.some.inj hhead)
      rw [digitByte_toNat hlt] at hbyte
      exact hlast (by simpa using hbyte)

theorem decimal_inj {m n : ℕ} (h : decimal m = decimal n) : m = n := by
  rw [← value_decimal m, h, value_decimal]

/-- A number below a power of ten has at most as many digits. -/
theorem length_decimal_le {n k : ℕ} (hk : 0 < k) (h : n < 10 ^ k) : (decimal n).length ≤ k := by
  rw [decimal]
  split_ifs with hn
  · exact hk
  · rw [List.length_reverse, List.length_map]
    exact (Nat.digits_length_le_iff (by decide) n).mpr h

/-! ### Dotted decimal -/

/-- Two words before the first occurrence of a separator, and what follows it. -/
theorem append_cons_inj {α : Type} {a : α} {t t' : List α} : ∀ {c c' : List α}, a ∉ c → a ∉ c' →
    c ++ a :: t = c' ++ a :: t' → c = c' ∧ t = t'
  | [], [], _, _, h => ⟨rfl, (List.cons.inj h).2⟩
  | [], x :: c', _, hc', h => absurd (List.cons.inj h).1 fun he => hc' (by simp [he])
  | x :: c, [], hc, _, h => absurd (List.cons.inj h).1 fun he => hc (by simp [he])
  | x :: c, y :: c', hc, hc', h => by
    obtain ⟨hxy, hrest⟩ := List.cons.inj h
    have hih := append_cons_inj (fun hm => hc (List.mem_cons_of_mem x hm))
      (fun hm => hc' (List.mem_cons_of_mem y hm)) hrest
    exact ⟨by rw [hxy, hih.1], hih.2⟩

/-- The numerals of a list of numbers, with a dot (46) between each two. -/
def dotted (l : List ℕ) : List UInt8 := [46].intercalate (l.map decimal)

@[simp] theorem dotted_nil : dotted [] = [] := rfl

@[simp] theorem dotted_singleton (x : ℕ) : dotted [x] = decimal x := by simp [dotted]

@[simp] theorem dotted_cons_cons (x y : ℕ) (l : List ℕ) :
    dotted (x :: y :: l) = decimal x ++ 46 :: dotted (y :: l) := by
  simp [dotted, List.intercalate_cons_cons]

theorem not_mem_decimal_dot (n : ℕ) : (46 : UInt8) ∉ decimal n := by
  intro h
  exact absurd (isDigit_of_mem_decimal h) (by decide)

/-- **Cutting at the dots** gives the numerals back. -/
theorem splitOn_dotted {l : List ℕ} (h : l ≠ []) :
    (dotted l).splitOn 46 = l.map decimal := by
  refine List.splitOn_intercalate 46 ?_ (by simpa using h)
  intro ds hds
  obtain ⟨n, -, rfl⟩ := List.mem_map.mp hds
  exact not_mem_decimal_dot n

theorem dotted_ne_nil {l : List ℕ} (h : l ≠ []) : dotted l ≠ [] := by
  rcases l with _ | ⟨x, _ | ⟨y, l⟩⟩
  · exact absurd rfl h
  · simpa using decimal_ne_nil x
  · simp

/-- **The text determines the numbers.** -/
theorem dotted_inj {l m : List ℕ} (h : dotted l = dotted m) : l = m := by
  rcases eq_or_ne l [] with rfl | hl
  · by_contra hm
    exact dotted_ne_nil (Ne.symm hm) h.symm
  · have hm : m ≠ [] := by
      rintro rfl
      exact dotted_ne_nil hl h
    have hs := congrArg (List.splitOn 46) h
    rw [splitOn_dotted hl, splitOn_dotted hm] at hs
    exact (List.map_injective_iff.mpr fun _ _ he => decimal_inj he) hs

/-- A list of numbers needs a digit for each, and a dot between each two. -/
theorem two_mul_length_le_dotted (l : List ℕ) : 2 * l.length ≤ (dotted l).length + 1 := by
  induction l with
  | nil => simp
  | cons x l ih =>
    have hx := List.length_pos_iff.mpr (decimal_ne_nil x)
    rcases l with _ | ⟨y, l⟩
    · rw [dotted_singleton, List.length_singleton]
      omega
    · have hrest : 2 * (l.length + 1) ≤ (dotted (y :: l)).length + 1 := ih
      simp only [dotted_cons_cons, List.length_append, List.length_cons]
      omega

end Decimal
