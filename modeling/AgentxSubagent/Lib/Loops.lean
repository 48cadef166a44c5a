import Mathlib.Order.Filter.AtTopBot.Basic

/-!
# Loops that may not end

A loop without a bound, `for (;;)`, is run here with one: `Loops.loop body n` makes at most `n`
turns, and answers nothing if that is not enough. Its body may itself contain such loops, and then
answers nothing where they do. A computation of this kind ends when every bound that is large enough
gives the same result, which is `Loops.Settles`; one that does not end answers nothing under any
bound.

* `Loops.settles_loop`: a loop settles if its turns settle, and those that go on decrease a rank.
* `Loops.loop_meets`: a result is as the turns that leave the loop make it, from the states that an
  invariant describes; so a loop that no turn leaves there does not end (`Loops.loop_eq_none`).
* `Loops.exists_foldlM_iff`: a loop over a list ends exactly when each of its turns does; that a
  larger bound does not change a result (`Loops.Grows`) is what makes the turns fit together.
-/

namespace Loops

open Filter

variable {σ ρ α β ι : Type}

/-! ### Loops -/

/-- What a turn of a loop comes to: the next turn, or the end of the loop. -/
inductive Turn (σ ρ : Type)
  | next (s : σ)
  | leave (r : ρ)

/-- The next state and the result are as asked for. -/
def Turn.Meets (P : σ → Prop) (Q : ρ → Prop) : Turn σ ρ → Prop
  | .next s => P s
  | .leave r => Q r

/-- **A loop**, of at most `n` turns. -/
def loop (body : σ → Option (Turn σ ρ)) : ℕ → σ → Option ρ
  | 0, _ => none
  | n + 1, s =>
    match body s with
    | none => none
    | some (.next s') => loop body n s'
    | some (.leave r) => some r

/-- **What every turn keeps**, and what it leaves the loop with, holds of the result. -/
theorem loop_meets {body : σ → Option (Turn σ ρ)} {P : σ → Prop} {Q : ρ → Prop}
    (h : ∀ s, P s → ∀ t ∈ body s, t.Meets P Q) {n : ℕ} {s : σ} (hs : P s) {r : ρ}
    (hr : loop body n s = some r) : Q r := by
  induction n generalizing s with
  | zero => exact absurd hr (by simp [loop])
  | succ n ih =>
    rw [loop] at hr
    rcases hbody : body s with _ | s' | r'
    · simp [hbody] at hr
    · rw [hbody] at hr
      exact ih (h s hs _ hbody) hr
    · rw [hbody] at hr
      obtain rfl := Option.some.inj hr
      exact h s hs _ hbody

/-- **A loop that no turn leaves.** -/
theorem loop_eq_none {body : σ → Option (Turn σ ρ)} {P : σ → Prop}
    (h : ∀ s, P s → ∀ t ∈ body s, t.Meets P fun _ => False) (n : ℕ) {s : σ} (hs : P s) :
    loop body n s = none :=
  Option.eq_none_iff_forall_ne_some.mpr fun _ hr => loop_meets h hs hr

/-! ### Computations under a bound -/

/-- **A computation settles on a result**: every large bound gives it. -/
def Settles (f : ℕ → Option α) (a : α) : Prop := ∀ᶠ n in atTop, f n = some a

theorem settles_some (a : α) : Settles (fun _ => some a) a := Eventually.of_forall fun _ => rfl

theorem Settles.exists_eq {f : ℕ → Option α} {a : α} (h : Settles f a) : ∃ n, f n = some a :=
  Eventually.exists h

theorem Settles.map {f : ℕ → Option α} {a : α} (hf : Settles f a) (g : α → β) :
    Settles (fun n => (f n).map g) (g a) := by
  filter_upwards [hf] with n hn
  rw [hn, Option.map_some]

/-- **A loop settles** if its turns do, and a rank decreases from turn to turn. -/
theorem settles_loop [Preorder α] [WellFoundedLT α] {body : ℕ → σ → Option (Turn σ ρ)}
    {P : σ → Prop} {Q : ρ → Prop} (rank : σ → α)
    (h : ∀ s, P s → ∃ t, Settles (fun n => body n s) t ∧
      t.Meets (fun s' => P s' ∧ rank s' < rank s) Q) {s : σ} (hs : P s) :
    ∃ r, Settles (fun n => loop (body n) n s) r ∧ Q r := by
  -- the number of turns is fixed first; the bound inside them can be chosen after it
  have hturns : ∀ s, P s → ∃ r k, Q r ∧
      ∀ᶠ n in atTop, ∀ k' ≥ k, loop (body n) k' s = some r := by
    intro s
    induction s using (InvImage.wf rank wellFounded_lt).induction with
    | _ s ih =>
      intro hs
      obtain ⟨t, ht, hmeets⟩ := h s hs
      cases t with
      | leave r =>
        refine ⟨r, 1, hmeets, ?_⟩
        filter_upwards [ht] with n hn k' hk'
        obtain ⟨k', rfl⟩ := Nat.exists_eq_succ_of_ne_zero (Nat.one_le_iff_ne_zero.mp hk')
        rw [loop, hn]
      | next s' =>
        obtain ⟨r, k, hr, hk⟩ := ih s' hmeets.2 hmeets.1
        refine ⟨r, k + 1, hr, ?_⟩
        filter_upwards [ht, hk] with n hn hrest k' hk'
        obtain ⟨k', rfl⟩ := Nat.exists_eq_succ_of_ne_zero (Nat.ne_zero_of_lt hk')
        rw [loop, hn]
        exact hrest k' (Nat.le_of_succ_le_succ hk')
  obtain ⟨r, k, hr, hk⟩ := hturns s hs
  refine ⟨r, ?_, hr⟩
  filter_upwards [hk, eventually_ge_atTop k] with n hn hkn
  exact hn n hkn

/-! ### Larger bounds -/

/-- **A larger bound gives the same result**, where the smaller one gives any. -/
def Grows (f : ℕ → Option α) : Prop := ∀ ⦃n n' : ℕ⦄, n ≤ n' → ∀ a ∈ f n, a ∈ f n'

theorem grows_const (o : Option α) : Grows fun _ => o := fun _ _ _ _ h => h

theorem Grows.map {f : ℕ → Option α} (hf : Grows f) (g : α → β) :
    Grows fun n => (f n).map g := by
  intro n n' hn b hb
  obtain ⟨a, ha, rfl⟩ := Option.map_eq_some_iff.mp hb
  exact Option.map_eq_some_iff.mpr ⟨a, hf hn a ha, rfl⟩

theorem Grows.bind {f : ℕ → Option α} (hf : Grows f) {g : ℕ → α → Option β}
    (hg : ∀ a, Grows fun n => g n a) : Grows fun n => (f n).bind (g n) := by
  intro n n' hn b hb
  obtain ⟨a, ha, hb⟩ := Option.bind_eq_some_iff.mp hb
  exact Option.bind_eq_some_iff.mpr ⟨a, hf hn a ha, hg a hn b hb⟩

theorem Grows.ite {f g : ℕ → Option α} (hf : Grows f) (hg : Grows g) (c : Prop) [Decidable c] :
    Grows fun n => if c then f n else g n := by
  split_ifs
  · exact hf
  · exact hg

/-- **A loop grows** if its turns do. -/
theorem grows_loop {body : ℕ → σ → Option (Turn σ ρ)} (h : ∀ s, Grows fun n => body n s) (s : σ) :
    Grows fun n => loop (body n) n s := by
  -- the number of turns and the bound inside them grow independently
  have hturns : ∀ k k' n n', k ≤ k' → n ≤ n' → ∀ s, ∀ r ∈ loop (body n) k s,
      r ∈ loop (body n') k' s := by
    intro k
    induction k with
    | zero => exact fun k' n n' _ _ s r hr => absurd hr (by simp [loop])
    | succ k ih =>
      intro k' n n' hk hn s r hr
      obtain ⟨k', rfl⟩ := Nat.exists_eq_succ_of_ne_zero (Nat.ne_zero_of_lt hk)
      rw [Option.mem_def, loop] at hr ⊢
      rcases hbody : body n s with _ | s' | r'
      · simp [hbody] at hr
      · have hbody' : body n' s = some (.next s') := h s hn _ hbody
        rw [hbody] at hr
        rw [hbody']
        exact ih k' n n' (Nat.le_of_succ_le_succ hk) hn s' r hr
      · have hbody' : body n' s = some (.leave r') := h s hn _ hbody
        rw [hbody] at hr
        rw [hbody']
        exact hr
  exact fun n n' hn r hr => hturns n n' n n' hn hn s r hr

/-- **Two parts one after the other have a result** when the first has one, and the second has one
from there. -/
theorem exists_bind_iff {f : ℕ → Option α} (hf : Grows f) {g : ℕ → α → Option β}
    (hg : ∀ a, Grows fun n => g n a) {b : β} :
    (∃ n, (f n).bind (g n) = some b) ↔ ∃ a, (∃ n, f n = some a) ∧ ∃ n, g n a = some b := by
  constructor
  · rintro ⟨n, hn⟩
    obtain ⟨a, ha, hb⟩ := Option.bind_eq_some_iff.mp hn
    exact ⟨a, ⟨n, ha⟩, n, hb⟩
  · rintro ⟨a, ⟨n, ha⟩, n', hb⟩
    refine ⟨max n n', Option.bind_eq_some_iff.mpr ⟨a, ?_, ?_⟩⟩
    · exact hf (le_max_left n n') a ha
    · exact hg a (le_max_right n n') b hb

/-- A result is the same under every bound. -/
theorem Grows.unique {f : ℕ → Option α} (hf : Grows f) {n n' : ℕ} {a a' : α} (h : f n = some a)
    (h' : f n' = some a') : a = a' := by
  have hmax := hf (le_max_left n n') a h
  have hmax' := hf (le_max_right n n') a' h'
  exact Option.some.inj (hmax.symm.trans hmax')

section FoldlM

variable {step : ℕ → σ → ι → Option σ} (h : ∀ s i, Grows fun n => step n s i)

include h

/-- **A loop over a list grows** if its turns do. -/
theorem grows_foldlM (is : List ι) (s : σ) : Grows fun n => is.foldlM (step n) s := by
  induction is generalizing s with
  | nil => exact grows_const _
  | cons i is ih =>
    simp only [List.foldlM_cons]
    exact (h s i).bind ih

/-- **A loop over a list has a result** when each of its turns does, in the state that the turns
before it lead to. -/
theorem exists_foldlM_iff (is : List ι) (s : σ) :
    (∃ n s', is.foldlM (step n) s = some s') ↔
      ∀ k, (hk : k < is.length) → ∀ s₁, (∃ n, (is.take k).foldlM (step n) s = some s₁) →
        ∃ n s', step n s₁ is[k] = some s' := by
  induction is generalizing s with
  | nil => exact iff_of_true ⟨0, s, rfl⟩ fun k hk => absurd hk (Nat.not_lt_zero k)
  | cons i is ih =>
    have hcons : ∀ is' : List ι, ∀ s', (∃ n, (i :: is').foldlM (step n) s = some s') ↔
        ∃ s₁, (∃ n, step n s i = some s₁) ∧ ∃ n, is'.foldlM (step n) s₁ = some s' := by
      intro is' s'
      simp only [List.foldlM_cons]
      exact exists_bind_iff (h s i) fun s₁ => grows_foldlM h is' s₁
    constructor
    · rintro ⟨n, s', hfold⟩ k hk s₁ hs₁
      obtain ⟨s₂, ⟨n₂, hs₂⟩, n', hrest⟩ := (hcons is s').mp ⟨n, hfold⟩
      cases k with
      | zero =>
        obtain ⟨n₁, hs₁⟩ := hs₁
        obtain rfl := Option.some.inj hs₁
        exact ⟨n₂, s₂, hs₂⟩
      | succ k =>
        obtain ⟨s₂', ⟨n₂', hs₂'⟩, hbefore⟩ := (hcons (is.take k) s₁).mp hs₁
        obtain rfl := (h s i).unique hs₂ hs₂'
        exact (ih s₂).mp ⟨n', s', hrest⟩ k (Nat.lt_of_succ_lt_succ hk) s₁ hbefore
    · intro hturns
      obtain ⟨n₂, s₂, hs₂⟩ := hturns 0 (Nat.succ_pos _) s ⟨0, rfl⟩
      have hrest := (ih s₂).mpr fun k hk s₁ hs₁ =>
        hturns (k + 1) (Nat.succ_lt_succ hk) s₁ ((hcons (is.take k) s₁).mpr ⟨s₂, ⟨n₂, hs₂⟩, hs₁⟩)
      obtain ⟨n', s', hs'⟩ := hrest
      obtain ⟨n, hn⟩ := (hcons is s').mpr ⟨s₂, ⟨n₂, hs₂⟩, n', hs'⟩
      exact ⟨n, s', hn⟩

end FoldlM

end Loops
