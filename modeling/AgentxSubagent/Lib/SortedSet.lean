import Mathlib.Data.List.Sort

/-!
# Finite sets as strictly increasing lists

Sorting a list and dropping adjacent repetitions is the usual way to make a set of it. With
a three-way comparison whose `eq` is equality, the result depends on the members alone:
`SortedSet.sort_unique` says that there is one sorted permutation, whichever algorithm
produced it, `SortedSet.dedup_sorted` and `SortedSet.mem_dedup` that the repetitions go and
nothing else, and `SortedSet.eq_of_mem_iff` that a strictly increasing list is determined by
its members.
-/

namespace SortedSet

variable {α : Type} (cmp : α → α → Ordering)

/-- Not after, in the order of a comparison. -/
def LE (a b : α) : Prop := (cmp a b).isLE = true

/-- Strictly before, in the order of a comparison. -/
def LT (a b : α) : Prop := cmp a b = .lt

instance : DecidableRel (LE cmp) := fun _ _ => inferInstanceAs (Decidable (_ = _))

instance : DecidableRel (LT cmp) := fun _ _ => inferInstanceAs (Decidable (_ = _))

/-- The sorted permutation of a list. -/
def sort (l : List α) : List α := l.insertionSort (LE cmp)

/-- Drop what repeats the last entry kept. -/
def dedupFrom (same : α → α → Bool) (last : α) : List α → List α
  | [] => []
  | x :: xs => if same x last then dedupFrom same last xs else x :: dedupFrom same x xs

/-- Drop adjacent repetitions, the first of each run staying. -/
def dedup (same : α → α → Bool) : List α → List α
  | [] => []
  | x :: xs => x :: dedupFrom same x xs

theorem swap_cmp [Std.OrientedCmp cmp] (a b : α) : cmp b a = (cmp a b).swap :=
  Std.OrientedCmp.eq_swap

theorem sort_perm (l : List α) : (sort cmp l).Perm l := List.perm_insertionSort (LE cmp) l

/-! ### Members -/

section Members

variable {cmp} [Std.LawfulEqCmp cmp]

theorem mem_cons_dedupFrom (a : α) (l : List α) : ∀ last,
    a ∈ last :: dedupFrom (fun a b => cmp a b == .eq) last l ↔ a ∈ last :: l := by
  induction l with
  | nil =>
    intro last
    rw [dedupFrom]
  | cons x xs ih =>
    intro last
    rw [dedupFrom]
    split_ifs with hsame
    · have hx : x = last := Std.LawfulEqCmp.eq_of_compare (by simpa using hsame : cmp x last = .eq)
      rw [ih last, hx]
      simp
    · rw [List.mem_cons, ih x, ← List.mem_cons]

/-- **Dropping adjacent repetitions keeps the members.** -/
theorem mem_dedup {a : α} {l : List α} : a ∈ dedup (fun a b => cmp a b == .eq) l ↔ a ∈ l := by
  cases l with
  | nil => exact Iff.rfl
  | cons x xs => exact mem_cons_dedupFrom a xs x

end Members

/-! ### Order -/

variable [Std.TransCmp cmp]

instance : IsTrans α (LE cmp) := ⟨fun _ _ _ => Std.TransCmp.isLE_trans⟩

instance : Std.Total (LE cmp) where
  total a b := by
    rw [LE, LE, swap_cmp cmp a b]
    cases cmp a b <;> simp

theorem sort_sorted (l : List α) : (sort cmp l).Pairwise (LE cmp) :=
  List.pairwise_insertionSort (LE cmp) l

variable {cmp}

/-- Not after, and not equal, is strictly before. -/
theorem LE.lt_of_ne {a b : α} (hab : LE cmp a b) (hne : cmp b a ≠ .eq) : LT cmp a b := by
  rw [swap_cmp cmp a b] at hne
  revert hab hne
  rw [LE, LT]
  cases cmp a b <;> simp

/-- In a sorted list, what is kept after `last` is strictly above it and strictly
increasing. -/
theorem dedupFrom_sorted (l : List α) : ∀ last, (last :: l).Pairwise (LE cmp) →
    (last :: dedupFrom (fun a b => cmp a b == .eq) last l).Pairwise (LT cmp) := by
  induction l with
  | nil =>
    intro last _
    simp [dedupFrom]
  | cons x xs ih =>
    intro last h
    obtain ⟨hlast, hrest⟩ := List.pairwise_cons.mp h
    rw [dedupFrom]
    split_ifs with hsame
    · refine ih last (List.pairwise_cons.mpr ⟨fun y hy => hlast y (List.mem_cons_of_mem x hy), ?_⟩)
      exact (List.pairwise_cons.mp hrest).2
    · have hx : LT cmp last x := (hlast x (List.mem_cons_self ..)).lt_of_ne (by simpa using hsame)
      have hxs := ih x hrest
      refine List.pairwise_cons.mpr ⟨fun y hy => ?_, hxs⟩
      rcases List.mem_cons.mp hy with rfl | hy
      · exact hx
      · exact Std.TransCmp.lt_trans hx ((List.pairwise_cons.mp hxs).1 y hy)

/-- **Dropping adjacent repetitions of a sorted list leaves it strictly increasing.** -/
theorem dedup_sorted {l : List α} (h : l.Pairwise (LE cmp)) :
    (dedup (fun a b => cmp a b == .eq) l).Pairwise (LT cmp) := by
  cases l with
  | nil => exact List.Pairwise.nil
  | cons x xs => exact dedupFrom_sorted xs x h

/-! ### Uniqueness -/

variable [Std.LawfulEqCmp cmp]

theorem LE.antisymm {a b : α} (hab : LE cmp a b) (hba : LE cmp b a) : a = b := by
  refine Std.LawfulEqCmp.eq_of_compare (?_ : cmp a b = .eq)
  rw [LE, swap_cmp cmp a b] at hba
  revert hab hba
  rw [LE]
  cases cmp a b <;> simp

/-- **There is one sorted permutation.** -/
theorem sort_unique {l l' : List α} (hperm : l'.Perm l) (hsorted : l'.Pairwise (LE cmp)) :
    l' = sort cmp l :=
  List.Perm.eq_of_pairwise (fun _ _ _ _ hab hba => LE.antisymm hab hba) hsorted
    (sort_sorted cmp l) (hperm.trans (sort_perm cmp l).symm)

/-- **A strictly increasing list is determined by its members.** -/
theorem eq_of_mem_iff {l l' : List α} (h : l.Pairwise (LT cmp)) (h' : l'.Pairwise (LT cmp))
    (hmem : ∀ a, a ∈ l ↔ a ∈ l') : l = l' := by
  have hle : ∀ {a b : α}, LT cmp a b → LE cmp a b := by
    intro a b hab
    rw [LE, show cmp a b = .lt from hab]
    rfl
  have hne : ∀ {a b : α}, LT cmp a b → a ≠ b := by
    rintro a b hab rfl
    exact absurd (hab.symm.trans Std.ReflCmp.compare_self) (by simp)
  refine List.Perm.eq_of_pairwise (fun _ _ _ _ hab hba => LE.antisymm hab hba) (h.imp hle)
    (h'.imp hle) ?_
  exact (List.perm_ext_iff_of_nodup (h.imp hne) (h'.imp hne)).mpr hmem

end SortedSet
