import Mathlib.Data.List.Basic

/-!
# Loops over a list of items

A loop that visits the items of a list in order, may change each of them, and threads a state
through: `ForEach.forEach`. Its body also sees the position of the item, so what happens at
one position can be told apart from what happens at another.

* `ForEach.map_forEach`: what the body leaves of every item, the loop leaves of all.
* `ForEach.exists_of_mem_forEach`: every item afterwards is some item after one turn.
* `ForEach.forEach_rel`: a relation on states that every turn keeps and that composes is kept
  by the loop.
* `ForEach.forEach_pure`: a loop whose turns leave the state alone.
* `ForEach.forEach_sim`: from two related states, two loops whose turns stay related make the same
  of the items.
-/

namespace ForEach

variable {σ ρ : Type} {body : ℕ → σ → ρ → ρ × σ}

/-- Visit the items of a list, from position `i` on. -/
def forEach (body : ℕ → σ → ρ → ρ × σ) : ℕ → List ρ → σ → List ρ × σ
  | _, [], s => ([], s)
  | i, r :: rs, s =>
    let (r', s') := body i s r
    let (rs', s'') := forEach body (i + 1) rs s'
    (r' :: rs', s'')

@[simp] theorem forEach_nil (i : ℕ) (s : σ) : forEach body i [] s = ([], s) := rfl

@[simp] theorem forEach_cons (i : ℕ) (r : ρ) (rs : List ρ) (s : σ) :
    forEach body i (r :: rs) s =
      ((body i s r).1 :: (forEach body (i + 1) rs (body i s r).2).1,
        (forEach body (i + 1) rs (body i s r).2).2) := rfl

/-- **What the body leaves of every item, the loop leaves of all.** -/
theorem map_forEach {β : Type} {g : ρ → β} (h : ∀ i s r, g (body i s r).1 = g r) (i : ℕ)
    (rs : List ρ) (s : σ) : (forEach body i rs s).1.map g = rs.map g := by
  induction rs generalizing i s with
  | nil => rfl
  | cons r rs ih => rw [forEach_cons, List.map_cons, List.map_cons, h, ih]

/-- Every item afterwards is some item after one turn. -/
theorem exists_of_mem_forEach {i : ℕ} {rs : List ρ} {s : σ} {r' : ρ}
    (h : r' ∈ (forEach body i rs s).1) : ∃ j t, ∃ r ∈ rs, r' = (body j t r).1 := by
  induction rs generalizing i s with
  | nil => exact absurd h (by simp)
  | cons r rs ih =>
    rw [forEach_cons] at h
    rcases List.mem_cons.mp h with rfl | h
    · exact ⟨i, s, r, List.mem_cons_self, rfl⟩
    · obtain ⟨j, t, r0, hr0, rfl⟩ := ih h
      exact ⟨j, t, r0, List.mem_cons_of_mem r hr0, rfl⟩

/-- **A relation that every turn keeps is kept by the loop.** -/
theorem forEach_rel {R : σ → σ → Prop} (hrefl : ∀ s, R s s)
    (htrans : ∀ s t u, R s t → R t u → R s u) {rs : List ρ}
    (h : ∀ r ∈ rs, ∀ i s, R s (body i s r).2) (i : ℕ) (s : σ) :
    R s (forEach body i rs s).2 := by
  induction rs generalizing i s with
  | nil => exact hrefl s
  | cons r rs ih =>
    rw [forEach_cons]
    exact htrans _ _ _ (h r List.mem_cons_self i s)
      (ih (fun r' hr' => h r' (List.mem_cons_of_mem r hr')) (i + 1) _)

/-- **A loop whose turns leave the state alone.** -/
theorem forEach_pure {s : σ} (h : ∀ i r, (body i s r).2 = s) (i : ℕ) (rs : List ρ) :
    (forEach body i rs s).2 = s ∧
      ∀ r' ∈ (forEach body i rs s).1, ∃ j, ∃ r ∈ rs, r' = (body j s r).1 := by
  induction rs generalizing i with
  | nil => exact ⟨rfl, by simp⟩
  | cons r rs ih =>
    obtain ⟨hstate, hmem⟩ := ih (i + 1)
    rw [forEach_cons, h]
    refine ⟨hstate, fun r' hr' => ?_⟩
    rcases List.mem_cons.mp hr' with rfl | hr'
    · exact ⟨i, r, List.mem_cons_self, rfl⟩
    · obtain ⟨j, r0, hr0, rfl⟩ := hmem r' hr'
      exact ⟨j, r0, List.mem_cons_of_mem r hr0, rfl⟩

/-- **Two loops in step.** If a turn makes the same of an item from related states, and leads to
related states, so does the loop. -/
theorem forEach_sim {R : σ → σ → Prop} {rs : List ρ}
    (h : ∀ r ∈ rs, ∀ i s t, R s t → (body i t r).1 = (body i s r).1 ∧
      R (body i s r).2 (body i t r).2) (i : ℕ) {s t : σ} (hst : R s t) :
    (forEach body i rs t).1 = (forEach body i rs s).1 ∧
      R (forEach body i rs s).2 (forEach body i rs t).2 := by
  induction rs generalizing i s t with
  | nil => exact ⟨rfl, hst⟩
  | cons r rs ih =>
    obtain ⟨hr, hnext⟩ := h r List.mem_cons_self i s t hst
    obtain ⟨hrs, hlast⟩ := ih (fun r' hr' => h r' (List.mem_cons_of_mem r hr')) (i + 1) hnext
    rw [forEach_cons, forEach_cons, hr, hrs]
    exact ⟨rfl, hlast⟩

end ForEach
