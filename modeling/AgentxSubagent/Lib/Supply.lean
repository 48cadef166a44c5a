import Mathlib.Algebra.BigOperators.Group.Finset.Basic
import Mathlib.Algebra.Order.BigOperators.Group.Finset

/-!
# Demands and a supply

Somebody waits for `d` units of something, and what comes, comes in turns: turn `j` brings
`give j` units, possibly none, or it ends the supply, `Stops j`. Either what has come is enough at
some turn (`Supply.Meets`), or the supply stops before it is (`Supply.Breaks`), or the wait has no
end. When there is a list of demands, the next one is attended to from the turn on at which the one
before was met, and what that turn brought too much is lost: all of them are met
(`Supply.MeetsAll`), or the supply stops under one of them (`Supply.BreaksIn`).

* `Supply.meetsAll_append`, `Supply.breaksIn_append`: one list of demands after the other.
* `Supply.serves_of_live`: nobody waits without end for a supply that brings something again and
  again, or stops.
* `Supply.not_serves_of_dry`: and whoever waits for something does, if nothing comes.
-/

namespace Supply

variable (give : ℕ → ℕ) (Stops : ℕ → Prop)

/-! ### One demand -/

/-- What `j` turns bring, the `k`-th one first. -/
def given (k j : ℕ) : ℕ := ∑ x ∈ Finset.range j, give (k + x)

/-- None of the first `j` turns ends the wait for `d` units. -/
def Waits (d k j : ℕ) : Prop := ∀ x < j, given give k x < d ∧ ¬Stops (k + x)

/-- **A demand is met** by `j` turns, and not by fewer. -/
structure Meets (d k j : ℕ) : Prop where
  waits : Waits give Stops d k j
  enough : d ≤ given give k j

/-- **The supply stops** before a demand is met, after `j` turns. -/
structure Breaks (d k j : ℕ) : Prop where
  waits : Waits give Stops d k j
  short : given give k j < d
  stops : Stops (k + j)

variable {give Stops} {d k j j' : ℕ}

theorem given_succ (give : ℕ → ℕ) (k j : ℕ) :
    given give k (j + 1) = given give k j + give (k + j) :=
  Finset.sum_range_succ ..

theorem given_mono (give : ℕ → ℕ) (k : ℕ) (h : j ≤ j') : given give k j ≤ given give k j' :=
  Finset.sum_le_sum_of_subset (Finset.range_subset_range.mpr h)

theorem waits_zero : Waits give Stops d k 0 := fun x hx => absurd hx (Nat.not_lt_zero x)

theorem Waits.succ (h : Waits give Stops d k j) (hshort : given give k j < d)
    (hgoes : ¬Stops (k + j)) : Waits give Stops d k (j + 1) := by
  intro x hx
  obtain hlt | rfl := Nat.lt_succ_iff_lt_or_eq.mp hx
  · exact h x hlt
  · exact ⟨hshort, hgoes⟩

/-- A wait does not go on past the turn that brought enough. -/
theorem Waits.le_of_enough (h : Waits give Stops d k j) (henough : d ≤ given give k j') :
    j ≤ j' := by
  by_contra hlt
  exact absurd (h j' (Nat.lt_of_not_le hlt)).1 (Nat.not_lt.mpr henough)

/-- Nor past the turn that ended the supply. -/
theorem Waits.le_of_stops (h : Waits give Stops d k j) (hstops : Stops (k + j')) : j ≤ j' := by
  by_contra hlt
  exact absurd hstops (h j' (Nat.lt_of_not_le hlt)).2

/-- A demand is met at one turn. -/
theorem Meets.unique (h : Meets give Stops d k j) (h' : Meets give Stops d k j') : j = j' :=
  Nat.le_antisymm (h.waits.le_of_enough h'.enough) (h'.waits.le_of_enough h.enough)

/-- A demand that is met is not broken off. -/
theorem Meets.not_breaks (h : Meets give Stops d k j) : ¬Breaks give Stops d k j' := by
  intro h'
  have hle := given_mono give k (h.waits.le_of_stops h'.stops)
  exact absurd h'.short (Nat.not_lt.mpr (h.enough.trans hle))

/-- **A wait that some turn would end is over** at the first such turn. -/
theorem exists_meets_or_breaks (h : ∃ j, d ≤ given give k j ∨ Stops (k + j)) :
    ∃ j, Meets give Stops d k j ∨ Breaks give Stops d k j := by
  classical
  refine ⟨Nat.find h, ?_⟩
  have hwaits : Waits give Stops d k (Nat.find h) := by
    intro x hx
    have hnot := Nat.find_min h hx
    push Not at hnot
    exact hnot
  by_cases henough : d ≤ given give k (Nat.find h)
  · exact Or.inl ⟨hwaits, henough⟩
  · exact Or.inr ⟨hwaits, Nat.lt_of_not_le henough, (Nat.find_spec h).resolve_left henough⟩

/-! ### A list of demands -/

variable (give Stops)

/-- **All the demands are met**, from turn `k` up to turn `k'`. -/
def MeetsAll : List ℕ → ℕ → ℕ → Prop
  | [], k, k' => k = k'
  | d :: ds, k, k' => ∃ j, Meets give Stops d k j ∧ MeetsAll ds (k + j) k'

/-- **The supply stops under one of the demands.** -/
def BreaksIn : List ℕ → ℕ → Prop
  | [], _ => False
  | d :: ds, k =>
    (∃ j, Breaks give Stops d k j) ∨ ∃ j, Meets give Stops d k j ∧ BreaksIn ds (k + j)

/-- None of the demands is waited for without end. -/
def Serves (ds : List ℕ) (k : ℕ) : Prop :=
  BreaksIn give Stops ds k ∨ ∃ k', MeetsAll give Stops ds k k'

variable {give Stops} {ds ds' : List ℕ} {k' k'' : ℕ}

theorem meetsAll_append :
    MeetsAll give Stops (ds ++ ds') k k'' ↔
      ∃ k', MeetsAll give Stops ds k k' ∧ MeetsAll give Stops ds' k' k'' := by
  induction ds generalizing k with
  | nil => simp [MeetsAll]
  | cons d ds ih =>
    simp only [List.cons_append, MeetsAll, ih]
    constructor
    · rintro ⟨j, hj, k', hds, hds'⟩
      exact ⟨k', ⟨j, hj, hds⟩, hds'⟩
    · rintro ⟨k', ⟨j, hj, hds⟩, hds'⟩
      exact ⟨j, hj, k', hds, hds'⟩

theorem breaksIn_append :
    BreaksIn give Stops (ds ++ ds') k ↔
      BreaksIn give Stops ds k ∨
        ∃ k', MeetsAll give Stops ds k k' ∧ BreaksIn give Stops ds' k' := by
  induction ds generalizing k with
  | nil => simp [MeetsAll, BreaksIn]
  | cons d ds ih =>
    simp only [List.cons_append, MeetsAll, BreaksIn, ih]
    constructor
    · rintro (hbreaks | ⟨j, hj, hds | ⟨k', hds, hds'⟩⟩)
      · exact Or.inl (Or.inl hbreaks)
      · exact Or.inl (Or.inr ⟨j, hj, hds⟩)
      · exact Or.inr ⟨k', ⟨j, hj, hds⟩, hds'⟩
    · rintro ((hbreaks | ⟨j, hj, hds⟩) | ⟨k', ⟨j, hj, hds⟩, hds'⟩)
      · exact Or.inl hbreaks
      · exact Or.inr ⟨j, hj, Or.inl hds⟩
      · exact Or.inr ⟨j, hj, Or.inr ⟨k', hds, hds'⟩⟩

/-- All the demands are met at one turn. -/
theorem MeetsAll.unique (h : MeetsAll give Stops ds k k') (h' : MeetsAll give Stops ds k k'') :
    k' = k'' := by
  induction ds generalizing k with
  | nil => exact h.symm.trans h'
  | cons d ds ih =>
    obtain ⟨j, hj, hds⟩ := h
    obtain ⟨j', hj', hds'⟩ := h'
    obtain rfl := hj.unique hj'
    exact ih hds hds'

/-- Demands that are met are not broken off. -/
theorem MeetsAll.not_breaksIn (h : MeetsAll give Stops ds k k') : ¬BreaksIn give Stops ds k := by
  induction ds generalizing k with
  | nil => exact id
  | cons d ds ih =>
    obtain ⟨j, hj, hds⟩ := h
    rintro (⟨j', hbreaks⟩ | ⟨j', hj', hbreaks⟩)
    · exact hj.not_breaks hbreaks
    · obtain rfl := hj.unique hj'
      exact ih hds hbreaks

/-- The demands in front are attended to first. -/
theorem Serves.of_append (h : Serves give Stops (ds ++ ds') k) : Serves give Stops ds k := by
  obtain hbreaks | ⟨k'', hmeets⟩ := h
  · exact (breaksIn_append.mp hbreaks).imp_right fun ⟨k', hds, _⟩ => ⟨k', hds⟩
  · obtain ⟨k', hds, -⟩ := meetsAll_append.mp hmeets
    exact Or.inr ⟨k', hds⟩

/-- What is left when the demands in front are met. -/
theorem Serves.drop (h : Serves give Stops (ds ++ ds') k) (hds : MeetsAll give Stops ds k k') :
    Serves give Stops ds' k' := by
  obtain hbreaks | ⟨k'', hmeets⟩ := h
  · obtain hin | ⟨k₁, hds₁, hds'⟩ := breaksIn_append.mp hbreaks
    · exact absurd hin hds.not_breaksIn
    · obtain rfl := hds.unique hds₁
      exact Or.inl hds'
  · obtain ⟨k₁, hds₁, hds'⟩ := meetsAll_append.mp hmeets
    obtain rfl := hds.unique hds₁
    exact Or.inr ⟨k'', hds'⟩

/-- A single demand that is served is met, or broken off. -/
theorem Serves.exists_of_singleton (h : Serves give Stops [d] k) :
    ∃ j, Meets give Stops d k j ∨ Breaks give Stops d k j := by
  obtain (⟨j, hbreaks⟩ | ⟨j, -, hnone⟩) | ⟨k', j, hmeets, -⟩ := h
  · exact ⟨j, Or.inr hbreaks⟩
  · exact hnone.elim
  · exact ⟨j, Or.inl hmeets⟩

/-! ### A supply that dries up -/

/-- A supply that never stops does not break a demand off. -/
theorem not_breaksIn_of_forall (h : ∀ j, ¬Stops j) : ¬BreaksIn give Stops ds k := by
  induction ds generalizing k with
  | nil => exact id
  | cons d ds ih =>
    rintro (⟨j, hbreaks⟩ | ⟨j, -, hds⟩)
    · exact h _ hbreaks.stops
    · exact ih hds

/-- **A supply that brings nothing and never stops** is waited for without end. -/
theorem not_serves_of_dry (hdry : ∀ j, give j = 0) (h : ∀ j, ¬Stops j) (hd : d ∈ ds)
    (hpos : 0 < d) : ¬Serves give Stops ds k := by
  rintro (hbreaks | ⟨k', hmeets⟩)
  · exact not_breaksIn_of_forall h hbreaks
  induction ds generalizing k with
  | nil => exact absurd hd List.not_mem_nil
  | cons d' ds ih =>
    obtain ⟨j, hj, hds⟩ := hmeets
    obtain rfl | hd := List.mem_cons.mp hd
    · have hnone : given give k j = 0 := Finset.sum_eq_zero fun x _ => hdry _
      have henough := hj.enough
      omega
    · exact ih hd hds

/-! ### A supply that goes on -/

variable (give Stops) in
/-- From turn `k` on, the supply stops once, or it brings something again and again. -/
def Live (k : ℕ) : Prop := (∃ j ≥ k, Stops j) ∨ ∀ k', ∃ j ≥ k', give j ≠ 0

/-- What comes again and again is enough at some time. -/
theorem exists_le_given (h : ∀ k', ∃ j ≥ k', give j ≠ 0) (d k : ℕ) : ∃ j, d ≤ given give k j := by
  induction d with
  | zero => exact ⟨0, Nat.zero_le _⟩
  | succ d ih =>
    obtain ⟨j, hj⟩ := ih
    obtain ⟨j', hle, hbrings⟩ := h (k + j)
    refine ⟨j' - k + 1, ?_⟩
    have hmore : given give k j ≤ given give k (j' - k) := given_mono give k (by omega)
    have hturn : k + (j' - k) = j' := by omega
    rw [given_succ, hturn]
    omega

/-- **A live supply serves every list of demands.** -/
theorem serves_of_live (h : Live give Stops k) (ds : List ℕ) : Serves give Stops ds k := by
  induction ds generalizing k with
  | nil => exact Or.inr ⟨k, rfl⟩
  | cons d ds ih =>
    have hover : ∃ j, d ≤ given give k j ∨ Stops (k + j) := by
      obtain ⟨j, hkj, hstops⟩ | hbrings := h
      · refine ⟨j - k, Or.inr ?_⟩
        rwa [Nat.add_sub_of_le hkj]
      · obtain ⟨j, hj⟩ := exists_le_given hbrings d k
        exact ⟨j, Or.inl hj⟩
    obtain ⟨j, hmeets | hbreaks⟩ := exists_meets_or_breaks hover
    · have hrest : Live give Stops (k + j) := by
        refine h.imp_left fun ⟨j', hkj', hstops⟩ => ⟨j', ?_, hstops⟩
        obtain ⟨x, rfl⟩ := Nat.exists_eq_add_of_le hkj'
        -- a supply that stops before the demand is met does not meet it
        exact Nat.add_le_add_left (hmeets.waits.le_of_stops hstops) k
      exact (ih hrest).imp (fun hds => Or.inr ⟨j, hmeets, hds⟩)
        fun ⟨k', hds⟩ => ⟨k', j, hmeets, hds⟩
    · exact Or.inl (Or.inl ⟨j, hbreaks⟩)

end Supply
