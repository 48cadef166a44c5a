import Mathlib.Data.List.Basic

/-!
# Words with a common front, in lexicographic order

In a lexicographic order the words that start with a given word `p` stand together, and `p`
itself comes before all of them. So a scan of an increasing list that starts at the first
word not below `p` and stops at the first word that does not start with `p` meets exactly
those words (`PrefixScan.scan_eq_filter`).

The letters are compared by any comparison whose `eq` is equality.
-/

namespace PrefixScan

variable {α : Type} {cmp : α → α → Ordering}

/-- A word is not above the words that start with it. -/
theorem not_lt_of_isPrefix [Std.ReflCmp cmp] {p k : List α} (h : p <+: k) :
    List.compareLex cmp k p ≠ .lt := by
  obtain ⟨t, rfl⟩ := h
  induction p with
  | nil => cases t <;> simp [List.compareLex]
  | cons x p ih =>
    have hx : cmp x x = .eq := Std.ReflCmp.compare_self
    rw [List.cons_append, List.compareLex_cons_cons, hx]
    exact ih

variable [Std.LawfulEqCmp cmp]

/-- **Words with a common front stand together**: what lies between `p` and a word that
starts with `p` starts with `p`. -/
theorem isPrefix_of_between : ∀ {p a b : List α}, List.compareLex cmp a p ≠ .lt →
    List.compareLex cmp a b = .lt → p <+: b → p <+: a
  | [], a, _, _, _, _ => List.nil_prefix
  | x :: p, a, b, hpa, hab, hpb => by
    obtain ⟨t, rfl⟩ := hpb
    rcases a with _ | ⟨y, a⟩
    · exact absurd (by simp [List.compareLex]) hpa
    · rw [List.compareLex_cons_cons] at hpa
      rw [List.cons_append, List.compareLex_cons_cons] at hab
      -- the first letters leave no room: neither may `y` be below `x`, nor above
      have hyx : cmp y x = .eq := by
        cases hc : cmp y x with
        | lt => simp [hc] at hpa
        | eq => rfl
        | gt => simp [hc] at hab
      rw [hyx] at hpa hab
      obtain rfl := Std.LawfulEqCmp.eq_of_compare hyx
      exact List.cons_prefix_cons.mpr
        ⟨rfl, isPrefix_of_between hpa hab ⟨t, rfl⟩⟩

variable [DecidableEq α]

/-- Above `p`, the words that start with `p` come first. -/
theorem takeWhile_eq_filter {p : List α} : ∀ {keys : List (List α)},
    keys.Pairwise (fun a b => List.compareLex cmp a b = .lt) →
    (∀ k ∈ keys, List.compareLex cmp k p ≠ .lt) →
    keys.takeWhile (fun k => decide (p <+: k)) = keys.filter fun k => decide (p <+: k)
  | [], _, _ => rfl
  | k :: keys, hsorted, hge => by
    obtain ⟨hk, hrest⟩ := List.pairwise_cons.mp hsorted
    by_cases hp : p <+: k
    · rw [List.takeWhile_cons, if_pos (by simpa using hp), List.filter_cons,
        if_pos (by simpa using hp), takeWhile_eq_filter hrest fun a ha =>
          hge a (List.mem_cons_of_mem k ha)]
    · rw [List.takeWhile_cons, if_neg (by simpa using hp), List.filter_cons,
        if_neg (by simpa using hp)]
      refine (List.filter_eq_nil_iff.mpr fun a ha hpa => hp ?_).symm
      exact isPrefix_of_between (hge k (List.mem_cons_self ..)) (hk a ha) (by simpa using hpa)

/-- **A scan from the first word not below `p`, up to the first that does not start with
`p`, meets exactly the words that do.** -/
theorem scan_eq_filter [Std.TransCmp cmp] {p : List α} {keys : List (List α)}
    (hsorted : keys.Pairwise fun a b => List.compareLex cmp a b = .lt) :
    (keys.dropWhile fun k => List.compareLex cmp k p == .lt).takeWhile
        (fun k => decide (p <+: k)) =
      keys.filter fun k => decide (p <+: k) := by
  induction keys with
  | nil => rfl
  | cons k keys ih =>
    obtain ⟨hk, hrest⟩ := List.pairwise_cons.mp hsorted
    by_cases hlt : List.compareLex cmp k p = .lt
    · have hnot : ¬p <+: k := fun hp => not_lt_of_isPrefix hp hlt
      rw [List.dropWhile_cons, if_pos (by simpa using hlt), ih hrest, List.filter_cons,
        if_neg (by simpa using hnot)]
    · rw [List.dropWhile_cons, if_neg (by simpa using hlt)]
      refine takeWhile_eq_filter hsorted fun a ha => ?_
      rcases List.mem_cons.mp ha with rfl | ha
      · exact hlt
      · exact fun hap => hlt (Std.TransCmp.lt_trans (hk a ha) hap)

end PrefixScan
