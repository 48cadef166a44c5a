import Mathlib.Data.List.Basic
import Mathlib.Data.List.Pairwise

/-!
# The field iterator of nanopb

`pb_field_iter_find` of `third_party/nanopb/pb_common.c`. The decoder keeps one iterator for all
the fields of a message, and the search for a tag starts where the last one has ended: fields
mostly come in the order of their tags, so that the next one is mostly found at once. When the
tag is a smaller one the search starts over from the first field, otherwise it goes on to the
end and around, until it is back.

`AgentxSubagent.Nanopb.pbFieldIterFind_of_mem` and `pbFieldIterFind_of_not_mem` say that none
of this shows. Wherever the iterator stands, a tag of the message is found, and after a tag
that is not the iterator stands where it stood. That a search for a smaller tag may give up
where it started is what the order of the fields is needed for.
-/

namespace AgentxSubagent.Nanopb

/-- `advance_iterator`, on the index. -/
def advanceIterator (fieldCount index : ℕ) : ℕ := if index + 1 < fieldCount then index + 1 else 0

/-- The loop of `pb_field_iter_find`: whether the tag was found, and the index. Out of `fuel` it
is `none`. -/
def findLoop (tags : List ℕ) (tag start : ℕ) : ℕ → ℕ → Option (Bool × ℕ)
  | 0, _ => none
  | fuel + 1, index =>
    let index := advanceIterator tags.length index
    if tags[index]? = some tag then some (true, index)
    else if index = start then some (false, index)
    else findLoop tags tag start fuel index

/-- `pb_field_iter_find` from the index `index`. -/
def pbFieldIterFind (tags : List ℕ) (index tag : ℕ) : Option (Bool × ℕ) :=
  if tags[index]? = some tag then some (true, index)
  else if tags.getLast?.getD 0 < tag then some (false, index)
  else
    findLoop tags tag index tags.length (if tag < tags[index]?.getD 0 then tags.length else index)

section Find

variable {tags : List ℕ} {tag start : ℕ}

/-- On the way up to the tag the search meets neither it nor its own start. -/
theorem findLoop_of_lt {p : ℕ} (hp : p < tags.length) (htag : tags[p]? = some tag)
    {fuel index : ℕ} (hlt : index < p) (hfuel : p ≤ index + fuel)
    (hother : ∀ j, index < j → j < p → tags[j]? ≠ some tag ∧ j ≠ start) :
    findLoop tags tag start fuel index = some (true, p) := by
  induction fuel generalizing index with
  | zero => omega
  | succ fuel ih =>
    have hnext : advanceIterator tags.length index = index + 1 := if_pos (by omega)
    rw [findLoop]
    simp only [hnext]
    rcases Nat.eq_or_lt_of_le hlt with heq | hlt'
    · obtain rfl : index + 1 = p := heq
      rw [if_pos htag]
    · obtain ⟨hne, hstart⟩ := hother (index + 1) (Nat.lt_succ_self _) hlt'
      rw [if_neg hne, if_neg hstart]
      exact ih hlt' (by omega) fun j hj => hother j (by omega)

/-- A search for a tag that is not there comes back to its start, from below. -/
theorem findLoop_up (hstart : start < tags.length) (hnot : tag ∉ tags) {fuel index : ℕ}
    (hlt : index < start) (hfuel : start ≤ index + fuel) :
    findLoop tags tag start fuel index = some (false, start) := by
  have hne : ∀ j : ℕ, tags[j]? ≠ some tag := fun j h => hnot (List.mem_of_getElem? h)
  induction fuel generalizing index with
  | zero => omega
  | succ fuel ih =>
    have hnext : advanceIterator tags.length index = index + 1 := if_pos (by omega)
    rw [findLoop]
    simp only [hnext, if_neg (hne _)]
    rcases Nat.eq_or_lt_of_le hlt with heq | hlt'
    · obtain rfl : index + 1 = start := heq
      rw [if_pos rfl]
    · rw [if_neg (Nat.ne_of_lt hlt')]
      exact ih hlt' (by omega)

/-- From its start or above it comes back too, over the end of the fields. -/
theorem findLoop_around (hstart : start < tags.length) (hnot : tag ∉ tags) {fuel index : ℕ}
    (hle : start ≤ index) (hfuel : tags.length + start ≤ index + fuel)
    (hturn : start < fuel) : findLoop tags tag start fuel index = some (false, start) := by
  have hne : ∀ j : ℕ, tags[j]? ≠ some tag := fun j h => hnot (List.mem_of_getElem? h)
  induction fuel generalizing index with
  | zero => omega
  | succ fuel ih =>
    rw [findLoop]
    by_cases hend : index + 1 < tags.length
    · have hnext : advanceIterator tags.length index = index + 1 := if_pos hend
      simp only [hnext, if_neg (hne _)]
      rw [if_neg (by omega)]
      exact ih (by omega) (by omega) (by omega)
    · have hnext : advanceIterator tags.length index = 0 := if_neg hend
      simp only [hnext, if_neg (hne _)]
      rcases Nat.eq_zero_or_pos start with rfl | hpos'
      · rw [if_pos rfl]
      · rw [if_neg (Nat.ne_of_lt hpos')]
        exact findLoop_up hstart hnot hpos' (by omega)

/-- In the order of the tags, a smaller tag stands further up. -/
theorem lt_iff_of_sorted (hsorted : tags.Pairwise (· < ·)) {i j s t : ℕ} (hi : tags[i]? = some s)
    (hj : tags[j]? = some t) : s < t ↔ i < j := by
  obtain ⟨hi', rfl⟩ := List.getElem?_eq_some_iff.mp hi
  obtain ⟨hj', rfl⟩ := List.getElem?_eq_some_iff.mp hj
  have hmono := List.pairwise_iff_getElem.mp hsorted
  constructor
  · intro hlt
    by_contra hle
    rcases Nat.eq_or_lt_of_le (Nat.le_of_not_lt hle) with rfl | hlt'
    · exact Nat.lt_irrefl _ hlt
    · exact Nat.lt_asymm hlt (hmono j i hj' hi' hlt')
  · exact hmono i j hi' hj'

/-- The last tag is the largest one. -/
theorem le_getLast_of_sorted (hsorted : tags.Pairwise (· < ·)) {p : ℕ} (htag : tags[p]? = some tag) :
    tag ≤ tags.getLast?.getD 0 := by
  obtain ⟨hp, -⟩ := List.getElem?_eq_some_iff.mp htag
  have hlast : tags[tags.length - 1]? = some (tags.getLast?.getD 0) := by
    rw [List.getLast?_eq_getElem?, List.getElem?_eq_getElem (by omega)]
    rfl
  by_contra hlt
  have hiff := (lt_iff_of_sorted hsorted hlast htag).mp (Nat.lt_of_not_le hlt)
  omega

variable (hsorted : tags.Pairwise (· < ·)) {index : ℕ} (hindex : index < tags.length)

include hsorted hindex

/-- **A tag of the message is found**, wherever the iterator stands. -/
theorem pbFieldIterFind_of_mem {p : ℕ} (htag : tags[p]? = some tag) :
    pbFieldIterFind tags index tag = some (true, p) := by
  obtain ⟨hp, -⟩ := List.getElem?_eq_some_iff.mp htag
  have huniq : ∀ {j}, tags[j]? = some tag → j = p := by
    intro j hj
    have hlt := lt_iff_of_sorted hsorted hj htag
    have hgt := lt_iff_of_sorted hsorted htag hj
    omega
  have hhere : tags[index]? = some (tags[index]?.getD 0) := by
    rw [List.getElem?_eq_getElem hindex]
    rfl
  rw [pbFieldIterFind]
  split_ifs with hfound hlast hback
  · rw [huniq hfound]
  · have hle := le_getLast_of_sorted hsorted htag
    omega
  · -- a smaller tag: from the first field on, and the start lies behind it
    have hlt := (lt_iff_of_sorted hsorted htag hhere).mp hback
    obtain ⟨fuel, hfuel⟩ := Nat.exists_eq_succ_of_ne_zero (show tags.length ≠ 0 by omega)
    have hzero : advanceIterator tags.length tags.length = 0 := if_neg (by omega)
    rw [hfuel, findLoop, ← hfuel]
    simp only [hzero]
    rcases Nat.eq_zero_or_pos p with rfl | hpos
    · rw [if_pos htag]
    · have hne : tags[0]? ≠ some tag := fun h => Nat.ne_of_lt hpos (huniq h)
      rw [if_neg hne, if_neg (by omega)]
      refine findLoop_of_lt hp htag hpos (by omega) fun j _ hj => ⟨fun h => ?_, by omega⟩
      exact Nat.ne_of_lt hj (huniq h)
  · -- a larger one: it is still to come
    have hne : index ≠ p := fun h => hfound (h ▸ htag)
    have hnot : ¬p < index := fun h => hback ((lt_iff_of_sorted hsorted htag hhere).mpr h)
    refine findLoop_of_lt hp htag (by omega) (by omega) fun j hj hjp => ⟨fun h => ?_, by omega⟩
    exact Nat.ne_of_lt hjp (huniq h)

omit hsorted in
/-- **After a tag that is not one of the message the iterator stands where it stood.** -/
theorem pbFieldIterFind_of_not_mem (hnot : tag ∉ tags) :
    pbFieldIterFind tags index tag = some (false, index) := by
  have hne : tags[index]? ≠ some tag := fun h => hnot (List.mem_of_getElem? h)
  rw [pbFieldIterFind, if_neg hne]
  split_ifs with hlast hback
  · rfl
  · exact findLoop_around hindex hnot (Nat.le_of_lt hindex) (by omega) (by omega)
  · exact findLoop_around hindex hnot (Nat.le_refl _) (by omega) (by omega)

end Find

end AgentxSubagent.Nanopb
