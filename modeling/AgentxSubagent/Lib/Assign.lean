import Mathlib.Data.List.Nodup
import Mathlib.Logic.Function.Basic

/-!
# Sequences of assignments, and taking them back

A sequence of assignments to a function, applied from left to right. Of several assignments
to one place the last one counts (`Assign.assign_last`), and no other place changes
(`Assign.assign_of_not_mem`).

A second sequence takes the first one back when it mentions every place the first one did
and assigns to each what was there before, up to a relation: `Assign.restore`. Neither the
order nor the number of assignments to a place matters.

`Assign.Edits` forgets the sequence and keeps what is known of every assignment in it; it is
what a program that may fail half way can promise. An invariant that every such assignment
establishes at its own place survives them all: `Assign.Edits.preserves`.
-/

namespace Assign

variable {A C : Type} [DecidableEq A]

/-- Carry out a sequence of assignments. -/
def assign : (A → C) → List (A × C) → A → C
  | s, [] => s
  | s, (a, c) :: l => assign (Function.update s a c) l

@[simp] theorem assign_nil (s : A → C) : assign s [] = s := rfl

@[simp] theorem assign_cons (s : A → C) (a : A) (c : C) (l : List (A × C)) :
    assign s ((a, c) :: l) = assign (Function.update s a c) l := rfl

theorem assign_append (s : A → C) (l l' : List (A × C)) :
    assign s (l ++ l') = assign (assign s l) l' := by
  induction l generalizing s with
  | nil => rfl
  | cons p l ih => exact ih (Function.update s p.1 p.2)

/-- **What is not mentioned does not change.** -/
theorem assign_of_not_mem {s : A → C} {l : List (A × C)} {a : A} (h : a ∉ l.map Prod.fst) :
    assign s l a = s a := by
  induction l generalizing s with
  | nil => rfl
  | cons p l ih =>
    obtain ⟨hp, hl⟩ : a ≠ p.1 ∧ a ∉ l.map Prod.fst := by simpa using h
    rw [assign_cons, ih hl, Function.update_of_ne hp]

/-- **The last assignment counts.** -/
theorem assign_last (s : A → C) (l : List (A × C)) {a : A} (c : C) {l' : List (A × C)}
    (h : a ∉ l'.map Prod.fst) : assign s (l ++ (a, c) :: l') a = c := by
  rw [assign_append, assign_cons, assign_of_not_mem h, Function.update_self]

/-- What is mentioned holds one of the values assigned to it. -/
theorem exists_assign_eq {l : List (A × C)} {a : A} (h : a ∈ l.map Prod.fst) (s : A → C) :
    ∃ c, (a, c) ∈ l ∧ assign s l a = c := by
  induction l generalizing s with
  | nil => exact absurd h (by simp)
  | cons p l ih =>
    by_cases hl : a ∈ l.map Prod.fst
    · obtain ⟨c, hc, hval⟩ := ih hl (Function.update s p.1 p.2)
      exact ⟨c, List.mem_cons_of_mem p hc, hval⟩
    · obtain rfl : a = p.1 := by simpa [hl] using h
      refine ⟨p.2, List.mem_cons_self, ?_⟩
      rw [assign_cons, assign_of_not_mem hl, Function.update_self]

/-- **Where no place is mentioned twice**, a place holds what is assigned to it. -/
theorem assign_of_nodup {l : List (A × C)} (hl : (l.map Prod.fst).Nodup) {a : A} {c : C}
    (h : (a, c) ∈ l) (s : A → C) : assign s l a = c := by
  obtain ⟨c', hc', hval⟩ := exists_assign_eq (List.mem_map_of_mem h) s
  rw [hval]
  exact congrArg Prod.snd (List.inj_on_of_nodup_map hl hc' h rfl)

/-- **Assignments under a renaming of the places**: where one function is another one renamed, up to
a translation of the contents, renamed and translated assignments keep it so. -/
theorem assign_map {B D : Type} [DecidableEq B] {f : A → B} (hf : Function.Injective f) (g : C → D)
    {s : A → C} {t : B → D} (h : ∀ a, t (f a) = g (s a)) (l : List (A × C)) (a : A) :
    assign t (l.map fun p => (f p.1, g p.2)) (f a) = g (assign s l a) := by
  induction l generalizing s t with
  | nil => exact h a
  | cons p l ih =>
    refine ih fun b => ?_
    by_cases hb : b = p.1
    · rw [hb, Function.update_self, Function.update_self]
    · rw [Function.update_of_ne hb, Function.update_of_ne fun heq => hb (hf heq), h b]

/-- The same assignments keep two functions related at a place. -/
theorem assign_rel {R : C → C → Prop} (hR : ∀ c, R c c) {s s' : A → C} {a : A}
    (h : R (s a) (s' a)) (l : List (A × C)) : R (assign s l a) (assign s' l a) := by
  induction l generalizing s s' with
  | nil => exact h
  | cons p l ih =>
    refine ih ?_
    by_cases ha : a = p.1
    · subst ha
      rw [Function.update_self, Function.update_self]
      exact hR p.2
    · rwa [Function.update_of_ne ha, Function.update_of_ne ha]

/-- **Taking assignments back.** If `undo` mentions every place `l` mentions, and assigns to
each place something related to what `s` has there, carrying out `l` and then `undo` leads
back to `s`, up to the relation. -/
theorem restore {R : C → C → Prop} (hR : ∀ c, R c c) {s : A → C} {l undo : List (A × C)}
    (hcover : ∀ a ∈ l.map Prod.fst, a ∈ undo.map Prod.fst)
    (hundo : ∀ p ∈ undo, R (s p.1) p.2) (a : A) : R (s a) (assign (assign s l) undo a) := by
  by_cases ha : a ∈ undo.map Prod.fst
  · obtain ⟨c, hc, hval⟩ := exists_assign_eq ha (assign s l)
    rw [hval]
    exact hundo (a, c) hc
  · have hl : a ∉ l.map Prod.fst := fun h => ha (hcover a h)
    rw [assign_of_not_mem ha, assign_of_not_mem hl]
    exact hR (s a)

/-! ### Edits -/

variable {P : A → C → Prop} {s s' s'' : A → C}

/-- One function is reached from another by assignments that all satisfy `P`. -/
def Edits (P : A → C → Prop) (s s' : A → C) : Prop :=
  ∃ l : List (A × C), (∀ p ∈ l, P p.1 p.2) ∧ s' = assign s l

theorem Edits.refl (s : A → C) : Edits P s s := ⟨[], by simp, rfl⟩

theorem Edits.update {a : A} {c : C} (h : P a c) : Edits P s (Function.update s a c) :=
  ⟨[(a, c)], by simpa using h, rfl⟩

theorem Edits.trans (h : Edits P s s') (h' : Edits P s' s'') : Edits P s s'' := by
  obtain ⟨l, hl, rfl⟩ := h
  obtain ⟨l', hl', rfl⟩ := h'
  refine ⟨l ++ l', fun p hp => ?_, (assign_append s l l').symm⟩
  rcases List.mem_append.mp hp with hp | hp
  · exact hl p hp
  · exact hl' p hp

/-- Less may be asked of the assignments. -/
theorem Edits.imp {Q : A → C → Prop} (h : Edits P s s') (hPQ : ∀ a c, P a c → Q a c) :
    Edits Q s s' := by
  obtain ⟨l, hl, rfl⟩ := h
  exact ⟨l, fun p hp => hPQ p.1 p.2 (hl p hp), rfl⟩

/-- **Edits of a part**: where one function is part of another, which does not change outside. -/
theorem Edits.part {B : Type} [DecidableEq B] {f : A → B} (hf : Function.Injective f) {t t' : B → C}
    (h : Edits P s s') (hs : ∀ a, t (f a) = s a) (hs' : ∀ a, t' (f a) = s' a)
    (hout : ∀ b, (∀ a, f a ≠ b) → t' b = t b) :
    Edits (fun b c => ∃ a, f a = b ∧ P a c) t t' := by
  obtain ⟨l, hl, rfl⟩ := h
  refine ⟨l.map fun p => (f p.1, p.2), ?_, ?_⟩
  · intro q hq
    obtain ⟨p, hp, rfl⟩ := List.mem_map.mp hq
    exact ⟨p.1, rfl, hl p hp⟩
  · funext b
    by_cases hb : ∃ a, f a = b
    · obtain ⟨a, rfl⟩ := hb
      exact (hs' a).trans (assign_map hf id hs l a).symm
    · push Not at hb
      rw [hout b hb, assign_of_not_mem]
      intro hmem
      obtain ⟨q, hq, rfl⟩ := List.mem_map.mp hmem
      obtain ⟨p, -, rfl⟩ := List.mem_map.mp hq
      exact hb p.1 rfl

/-- A place that no assignment mentions does not change. -/
theorem Edits.eq_of_forall_ne {a : A} (h : Edits P s s') (hP : ∀ b c, P b c → b ≠ a) :
    s' a = s a := by
  obtain ⟨l, hl, rfl⟩ := h
  refine assign_of_not_mem fun ha => ?_
  obtain ⟨p, hp, rfl⟩ := List.mem_map.mp ha
  exact hP p.1 p.2 (hl p hp) rfl

/-- **The invariant rule**: what holds everywhere and is established by every assignment at
its own place holds everywhere afterwards. -/
theorem Edits.preserves (h : Edits P s s') (hs : ∀ a, P a (s a)) (a : A) : P a (s' a) := by
  obtain ⟨l, hl, rfl⟩ := h
  by_cases ha : a ∈ l.map Prod.fst
  · obtain ⟨c, hc, hval⟩ := exists_assign_eq ha s
    rw [hval]
    exact hl (a, c) hc
  · rw [assign_of_not_mem ha]
    exact hs a

end Assign
