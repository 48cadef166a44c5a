import Mathlib.Logic.Relation

/-!
# Runs of deterministic systems, and simulations between them

A system here is a function from a state and an input to an observation and a next state;
it may also get stuck. `Runs.run` feeds it a list of inputs and collects what it answers.

Two systems over the same inputs and observations answer alike when some relation between
their states is kept by every input. `Runs.Matches` is what one input has to show, and
`Runs.run_eq_of_simulation` is the conclusion for whole runs. A property of one system's
states that every input preserves holds after every run: `Runs.run_invariant`.

Where every input of a system is for one of two others, and the state is that of the one and
that of the other, its runs are theirs in any interleaving: `Runs.run_beside`.
-/

namespace Runs

variable {σ τ ι ω : Type}

/-- Feed a system a list of inputs: its answers in order, and its last state. -/
def run (f : σ → ι → Option (ω × σ)) : σ → List ι → Option (List ω × σ)
  | s, [] => some ([], s)
  | s, i :: is =>
    match f s i with
    | none => none
    | some (o, s') => (run f s' is).map fun r => (o :: r.1, r.2)

/-- Two answers match: both are stuck, or both observe the same and the states they lead to
are related. -/
inductive Matches (R : σ → τ → Prop) : Option (ω × σ) → Option (ω × τ) → Prop
  | stuck : Matches R none none
  | next {o : ω} {s : σ} {t : τ} : R s t → Matches R (some (o, s)) (some (o, t))

/-- **The simulation rule.** If related states give matching answers to every input, whole
runs from related states observe the same. -/
theorem run_eq_of_simulation {f : σ → ι → Option (ω × σ)} {g : τ → ι → Option (ω × τ)}
    {R : σ → τ → Prop} (hstep : ∀ s t, R s t → ∀ i, Matches R (f s i) (g t i)) :
    ∀ (is : List ι) {s : σ} {t : τ}, R s t →
      (run f s is).map Prod.fst = (run g t is).map Prod.fst := by
  intro is
  induction is with
  | nil =>
    intro s t _
    rfl
  | cons i is ih =>
    intro s t hst
    have hm := hstep s t hst i
    rw [run, run]
    rcases hf : f s i with _ | ⟨o, s'⟩
    · rcases hg : g t i with _ | ⟨o', t'⟩
      · rfl
      · rw [hf, hg] at hm
        nomatch hm
    · rcases hg : g t i with _ | ⟨o', t'⟩
      · rw [hf, hg] at hm
        nomatch hm
      · rw [hf, hg] at hm
        obtain ⟨⟩ | ⟨hnext⟩ := hm
        have hrest := congrArg (Option.map (List.cons o)) (ih hnext)
        rw [Option.map_map, Option.map_map] at hrest
        show Option.map _ (Option.map _ _) = Option.map _ (Option.map _ _)
        rw [Option.map_map, Option.map_map]
        exact hrest

/-- A run is a first step and a run from where it leads. -/
theorem run_cons_eq_some {f : σ → ι → Option (ω × σ)} {i : ι} {is : List ι} {s s'' : σ}
    {os : List ω} :
    run f s (i :: is) = some (os, s'') ↔
      ∃ o os' s', f s i = some (o, s') ∧ run f s' is = some (os', s'') ∧ os = o :: os' := by
  rw [run]
  constructor
  · intro h
    rcases hf : f s i with _ | ⟨o, s'⟩
    · rw [hf] at h
      exact absurd h (by simp)
    · rw [hf] at h
      obtain ⟨⟨os', t⟩, hrun, heq⟩ := Option.map_eq_some_iff.mp h
      obtain ⟨rfl, rfl⟩ : o :: os' = os ∧ t = s'' := Prod.mk.inj heq
      exact ⟨o, os', s', rfl, hrun, rfl⟩
  · rintro ⟨o, os', s', hf, hrun, rfl⟩
    simp only [hf, hrun, Option.map_some]

/-- A run over two pieces is a run over the first and then one over the second. -/
theorem run_append_eq_some {f : σ → ι → Option (ω × σ)} {is js : List ι} {s s'' : σ}
    {os : List ω} (h : run f s (is ++ js) = some (os, s'')) :
    ∃ os₁ os₂ s', run f s is = some (os₁, s') ∧ run f s' js = some (os₂, s'') ∧
      os = os₁ ++ os₂ := by
  induction is generalizing s os with
  | nil => exact ⟨[], os, s, rfl, h, rfl⟩
  | cons i is ih =>
    obtain ⟨o, os', s', hf, hrun, rfl⟩ := run_cons_eq_some.mp h
    obtain ⟨os₁, os₂, u, h1, h2, rfl⟩ := ih hrun
    exact ⟨o :: os₁, os₂, u, run_cons_eq_some.mpr ⟨o, os₁, s', hf, h1, rfl⟩, h2, rfl⟩

/-- And conversely. -/
theorem run_trans {f : σ → ι → Option (ω × σ)} {is js : List ι} {s s' s'' : σ}
    {os₁ os₂ : List ω} (h₁ : run f s is = some (os₁, s')) (h₂ : run f s' js = some (os₂, s'')) :
    run f s (is ++ js) = some (os₁ ++ os₂, s'') := by
  induction is generalizing s os₁ with
  | nil =>
    obtain ⟨rfl, rfl⟩ : [] = os₁ ∧ s = s' := by simpa [run] using h₁
    exact h₂
  | cons i is ih =>
    obtain ⟨o, os', t, hf, hrun, rfl⟩ := run_cons_eq_some.mp h₁
    exact run_cons_eq_some.mpr ⟨o, os' ++ os₂, t, hf, ih hrun, rfl⟩

/-- **The invariant rule.** What every input of a run preserves holds after the run. -/
theorem run_invariant {f : σ → ι → Option (ω × σ)} {I : σ → Prop} {is : List ι}
    (hstep : ∀ i ∈ is, ∀ s o s', I s → f s i = some (o, s') → I s') {s s' : σ} {os : List ω}
    (hs : I s) (h : run f s is = some (os, s')) : I s' := by
  induction is generalizing s os with
  | nil =>
    obtain ⟨-, rfl⟩ : [] = os ∧ s = s' := by simpa [run] using h
    exact hs
  | cons i is ih =>
    obtain ⟨o, os', t, hf, hrun, rfl⟩ := run_cons_eq_some.mp h
    exact ih (fun j hj => hstep j (List.mem_cons_of_mem i hj))
      (hstep i List.mem_cons_self s o t hs hf) hrun

/-! ### Two systems side by side -/

section Beside

variable {τ' κ κ' ω' : Type} (p : ι → κ ⊕ κ')

/-- The inputs for the first system. -/
def lefts (is : List ι) : List κ := is.filterMap fun i => (p i).getLeft?

/-- The inputs for the second one. -/
def rights (is : List ι) : List κ' := is.filterMap fun i => (p i).getRight?

/-- What is answered to the inputs for the first system. -/
def leftAnswers : List ι → List ω → List ω
  | i :: is, o :: os => if (p i).isLeft then o :: leftAnswers is os else leftAnswers is os
  | _, _ => []

variable {p}

/-- **The rule for two systems side by side.** If an input for one of them does to its part of the
state what that system does, and leaves the other part, a run is stuck exactly when the run of one
of the parts is; and if it is not, it leads to where these two lead. -/
theorem run_beside {f : σ → ι → Option (ω × σ)} {g : τ → κ → Option (ω × τ)}
    {g' : τ' → κ' → Option (ω' × τ')} {R : σ → τ → τ' → Prop}
    (hleft : ∀ s t t', R s t t' → ∀ i k, p i = .inl k →
      Matches (fun s₁ t₁ => R s₁ t₁ t') (f s i) (g t k))
    (hright : ∀ s t t', R s t t' → ∀ i k, p i = .inr k →
      Matches (fun s₁ t₁ => R s₁ t t₁) ((f s i).map fun r => ((), r.2))
        ((g' t' k).map fun r => ((), r.2))) :
    ∀ (is : List ι) {s : σ} {t : τ} {t' : τ'}, R s t t' →
      (run f s is = none ↔ run g t (lefts p is) = none ∨ run g' t' (rights p is) = none) ∧
      ∀ os s₁, run f s is = some (os, s₁) → ∃ t₁ os' t₁',
        run g t (lefts p is) = some (leftAnswers p is os, t₁) ∧
        run g' t' (rights p is) = some (os', t₁') ∧ R s₁ t₁ t₁' := by
  intro is
  induction is with
  | nil =>
    intro s t t' hR
    refine ⟨by simp [run, lefts, rights], ?_⟩
    rintro os s₁ ⟨⟩
    exact ⟨t, [], t', rfl, rfl, hR⟩
  | cons i is ih =>
    intro s t t' hR
    rcases hp : p i with k | k
    · -- a step of the first system
      have hlefts : lefts p (i :: is) = k :: lefts p is := by simp [lefts, hp]
      have hrights : rights p (i :: is) = rights p is := by simp [rights, hp]
      have hm := hleft s t t' hR i k hp
      rw [hlefts, hrights, run, run]
      generalize f s i = fstep at hm ⊢
      generalize g t k = gstep at hm ⊢
      cases hm with
      | stuck => exact ⟨by simp, by simp⟩
      | @next o s' t₁ hR' =>
        obtain ⟨hnone, hsome⟩ := ih hR'
        refine ⟨by simpa using hnone, ?_⟩
        intro os s₁ hrun
        obtain ⟨⟨os₁, s₂⟩, hrun', heq⟩ := Option.map_eq_some_iff.mp hrun
        obtain ⟨rfl, rfl⟩ := Prod.mk.inj heq
        obtain ⟨t₂, os', t₂', h₁, h₂, hR₂⟩ := hsome os₁ s₂ hrun'
        refine ⟨t₂, os', t₂', ?_, h₂, hR₂⟩
        simp [h₁, leftAnswers, hp]
    · -- a step of the second one
      have hlefts : lefts p (i :: is) = lefts p is := by simp [lefts, hp]
      have hrights : rights p (i :: is) = k :: rights p is := by simp [rights, hp]
      have hm := hright s t t' hR i k hp
      rw [hlefts, hrights, run, run]
      rcases hf : f s i with _ | ⟨o, s'⟩
      · rcases hg : g' t' k with _ | ⟨o', t₁'⟩
        · exact ⟨by simp, by simp⟩
        · rw [hf, hg] at hm
          cases hm
      · rcases hg : g' t' k with _ | ⟨o', t₁'⟩
        · rw [hf, hg] at hm
          cases hm
        rw [hf, hg] at hm
        obtain ⟨⟩ | ⟨hR'⟩ := hm
        obtain ⟨hnone, hsome⟩ := ih hR'
        refine ⟨by simpa using hnone, ?_⟩
        intro os s₁ hrun
        obtain ⟨⟨os₁, s₂⟩, hrun', heq⟩ := Option.map_eq_some_iff.mp hrun
        obtain ⟨rfl, rfl⟩ := Prod.mk.inj heq
        obtain ⟨t₂, os', t₂', h₁, h₂, hR₂⟩ := hsome os₁ s₂ hrun'
        refine ⟨t₂, o' :: os', t₂', ?_, ?_, hR₂⟩
        · simp [h₁, leftAnswers, hp]
        · simp [h₂]

end Beside

end Runs
