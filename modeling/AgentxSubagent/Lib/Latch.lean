import Mathlib.Order.Nat
import Mathlib.Tactic.Push

/-!
# Latches

A latch is one bit with two inputs: while it is off, a step that sets it turns it on, and while
it is on, a step that resets it turns it off. A step at which it is turned on is a *rise*.

The bit is a function of the whole history, and the lemmas here say which one: it is on when some
rise has had no reset since (`Latch.IsLatch.on_iff`). So a rise is a step that sets, before which
no rise happened, or since whose last rise before there was a reset (`Latch.IsLatch.rises_iff`).
-/

namespace Latch

variable {sets resets on : ℕ → Prop} {n : ℕ}

/-- **A latch over `n` steps**: `on i` is its state before step `i`. -/
structure IsLatch (sets resets on : ℕ → Prop) (n : ℕ) : Prop where
  off_zero : ¬on 0
  step : ∀ i < n, (on (i + 1) ↔ on i ∧ ¬resets i ∨ ¬on i ∧ sets i)

/-- The latch is turned on at step `i`. -/
def Rises (sets on : ℕ → Prop) (i : ℕ) : Prop := ¬on i ∧ sets i

/-- `j` is the last of the steps before `i` at which `p` holds. -/
structure IsLastBefore (p : ℕ → Prop) (i j : ℕ) : Prop where
  lt : j < i
  holds : p j
  last : ∀ k, j < k → k < i → ¬p k

/-- The last step does not depend on what holds from `i` on. -/
theorem isLastBefore_congr {p q : ℕ → Prop} {i : ℕ} (h : ∀ j < i, (p j ↔ q j)) (j : ℕ) :
    IsLastBefore p i j ↔ IsLastBefore q i j := by
  constructor
  · rintro ⟨hj, hp, hlast⟩
    exact ⟨hj, (h j hj).mp hp, fun k hk hki hq => hlast k hk hki ((h k hki).mpr hq)⟩
  · rintro ⟨hj, hq, hlast⟩
    exact ⟨hj, (h j hj).mpr hq, fun k hk hki hp => hlast k hk hki ((h k hki).mp hp)⟩

/-- Among finitely many steps there is a last one. -/
theorem exists_isLastBefore {p : ℕ → Prop} {i : ℕ} (h : ∃ j < i, p j) :
    ∃ j, IsLastBefore p i j := by
  induction i with
  | zero =>
    obtain ⟨j, hj, -⟩ := h
    omega
  | succ i ih =>
    by_cases hi : p i
    · exact ⟨i, Nat.lt_succ_self i, hi, fun k hk hki => absurd hki (by omega)⟩
    · obtain ⟨j, hj, hp⟩ := h
      have hne : j ≠ i := by
        rintro rfl
        exact hi hp
      obtain ⟨l, hl⟩ := ih ⟨j, by omega, hp⟩
      refine ⟨l, hl.lt.trans (Nat.lt_succ_self i), hl.holds, fun k hk hki => ?_⟩
      obtain rfl | hlt := Nat.eq_or_lt_of_le (Nat.lt_succ_iff.mp hki)
      · exact hi
      · exact hl.last k hk hlt

namespace IsLatch

variable (h : IsLatch sets resets on n)

include h

/-- **The latch is on when some rise has had no reset since.** -/
theorem on_iff {i : ℕ} (hi : i ≤ n) :
    on i ↔ ∃ j < i, Rises sets on j ∧ ∀ k, j < k → k < i → ¬resets k := by
  induction i with
  | zero => exact iff_of_false h.off_zero fun ⟨j, hj, _⟩ => absurd hj (Nat.not_lt_zero j)
  | succ i ih =>
    rw [h.step i (by omega)]
    constructor
    · rintro (⟨hon, hkeep⟩ | hrise)
      · obtain ⟨j, hj, hrise, hquiet⟩ := (ih (by omega)).mp hon
        refine ⟨j, by omega, hrise, fun k hk hki => ?_⟩
        obtain rfl | hlt := Nat.eq_or_lt_of_le (Nat.lt_succ_iff.mp hki)
        · exact hkeep
        · exact hquiet k hk hlt
      · exact ⟨i, Nat.lt_succ_self i, hrise, fun k hk hki => absurd hki (by omega)⟩
    · rintro ⟨j, hj, hrise, hquiet⟩
      obtain rfl | hlt := Nat.eq_or_lt_of_le (Nat.lt_succ_iff.mp hj)
      · exact Or.inr hrise
      · refine Or.inl ⟨(ih (by omega)).mpr ⟨j, hlt, hrise, fun k hk hki => ?_⟩, ?_⟩
        · exact hquiet k hk (by omega)
        · exact hquiet i hlt (Nat.lt_succ_self i)

/-- **Between two rises there is a reset.** -/
theorem exists_reset {i j : ℕ} (hj : j ≤ n) (hij : i < j) (hi : Rises sets on i)
    (hrise : Rises sets on j) : ∃ k, i < k ∧ k < j ∧ resets k := by
  by_contra hno
  push Not at hno
  exact hrise.1 ((h.on_iff hj).mpr ⟨i, hij, hi, hno⟩)

/-- **When the latch rises**: at a step that sets it, with no rise before, or with a reset since
the last one. -/
theorem rises_iff {i : ℕ} (hi : i ≤ n) :
    Rises sets on i ↔ sets i ∧ ((∀ j < i, ¬Rises sets on j) ∨
      ∃ j, IsLastBefore (Rises sets on) i j ∧ ∃ k, j < k ∧ k < i ∧ resets k) := by
  constructor
  · intro hrise
    refine ⟨hrise.2, ?_⟩
    by_cases hbefore : ∃ j < i, Rises sets on j
    · obtain ⟨j, hj⟩ := exists_isLastBefore hbefore
      exact Or.inr ⟨j, hj, h.exists_reset hi hj.lt hj.holds hrise⟩
    · push Not at hbefore
      exact Or.inl hbefore
  · rintro ⟨hset, hcase⟩
    refine ⟨fun hon => ?_, hset⟩
    obtain ⟨j₀, hj₀, hrise₀, hquiet⟩ := (h.on_iff hi).mp hon
    obtain hnone | ⟨j, hj, k, hjk, hki, hreset⟩ := hcase
    · exact hnone j₀ hj₀ hrise₀
    · -- the rise that still counts is the last one, so the reset would have ended it
      have hle : ¬j < j₀ := fun hlt => hj.last j₀ hlt hj₀ hrise₀
      exact hquiet k (by omega) hki hreset

/-- Whenever a step sets the latch, there was a rise, and no reset since, if no step does both. -/
theorem exists_rise (hexcl : ∀ i, sets i → ¬resets i) {i : ℕ} (hi : i ≤ n) (hset : sets i) :
    ∃ j ≤ i, Rises sets on j ∧ ∀ k, j < k → k ≤ i → ¬resets k := by
  by_cases hon : on i
  · obtain ⟨j, hj, hrise, hquiet⟩ := (h.on_iff hi).mp hon
    refine ⟨j, by omega, hrise, fun k hk hki => ?_⟩
    obtain rfl | hlt := Nat.eq_or_lt_of_le hki
    · exact hexcl k hset
    · exact hquiet k hk hlt
  · exact ⟨i, le_rfl, ⟨hon, hset⟩, fun k hk hki => absurd hki (by omega)⟩

end IsLatch

end Latch
