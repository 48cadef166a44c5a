import Mathlib.Data.Fintype.Card
import Mathlib.Logic.Function.Basic

/-!
# Descriptors and their holders

A process gets small numbers from its kernel for what it opens, and gives them back with `close`.
The numbers are used again, so "the descriptor of that connection" is not a number: connections are
counted here as they are accepted, and `Descriptors.Table.refers` says what a number refers to at
the moment. A `close` of a number that does not refer to a connection is counted apart.

Holders are places of a program that keep a descriptor, or nothing. `Descriptors.Owned` says that
they keep the books: every connection that is open is kept in one place, and every other one has
been closed once. It is kept by accepting into a free place, by accepting and closing at once, and
by closing what a place holds and clearing the place; and nothing else is needed to see that the
places are enough (`Descriptors.Owned.card_le`).
-/

namespace Descriptors

section Update

variable {α β : Type} [DecidableEq α] {f : α → Option β} {a a' : α} {b b' : β}

/-- What is found after something was put somewhere: that, or what was there. -/
theorem update_some_cases (h : Function.update f a (some b) a' = some b') :
    a' = a ∧ b' = b ∨ a' ≠ a ∧ f a' = some b' := by
  by_cases ha : a' = a
  · subst ha
    rw [Function.update_self] at h
    exact Or.inl ⟨rfl, (Option.some.inj h).symm⟩
  · rw [Function.update_of_ne ha] at h
    exact Or.inr ⟨ha, h⟩

/-- What is found after a place was cleared was there, elsewhere. -/
theorem update_none_cases (h : Function.update f a none a' = some b') :
    a' ≠ a ∧ f a' = some b' := by
  have ha : a' ≠ a := by
    rintro rfl
    rw [Function.update_self] at h
    exact absurd h (by simp)
  rw [Function.update_of_ne ha] at h
  exact ⟨ha, h⟩

end Update

/-- What an open descriptor refers to: a connection, by its number, or something else. -/
inductive Object
  | connection (n : ℕ)
  | other
  deriving DecidableEq

/-- **The descriptors of a process**: what each number refers to, how many connections have been
accepted, how often each has been closed, and how many calls of `close` were of no connection. -/
structure Table where
  refers : ℤ → Option Object
  accepted : ℕ
  closes : ℕ → ℕ
  stray : ℕ

namespace Table

/-- `accept` returned the number `fd`. -/
def accept (t : Table) (fd : ℤ) : Table :=
  { t with
    refers := Function.update t.refers fd (some (.connection t.accepted))
    accepted := t.accepted + 1 }

/-- `close`. -/
def close (t : Table) (fd : ℤ) : Table :=
  match t.refers fd with
  | some (.connection n) =>
    { t with
      refers := Function.update t.refers fd none
      closes := Function.update t.closes n (t.closes n + 1) }
  | some .other =>
    { t with refers := Function.update t.refers fd none, stray := t.stray + 1 }
  | none => { t with stray := t.stray + 1 }

/-- What a number refers to is opened or closed by another part of the process. -/
def setOther (t : Table) (fd : ℤ) (content : Option Object) : Table :=
  { t with refers := Function.update t.refers fd content }

theorem close_of_connection {t : Table} {fd : ℤ} {n : ℕ} (h : t.refers fd = some (.connection n)) :
    t.close fd = { t with
      refers := Function.update t.refers fd none
      closes := Function.update t.closes n (t.closes n + 1) } := by
  rw [close, h]

end Table

variable {ι : Type}

/-- **The holders keep the books.** -/
structure Owned (t : Table) (hold : ι → Option ℤ) : Prop where
  held : ∀ i fd, hold i = some fd → ∃ n, t.refers fd = some (.connection n)
  distinct : ∀ i j fd, hold i = some fd → hold j = some fd → i = j
  holder : ∀ fd n, t.refers fd = some (.connection n) → ∃ i, hold i = some fd
  once : ∀ fd fd' n, t.refers fd = some (.connection n) → t.refers fd' = some (.connection n) →
    fd = fd'
  known : ∀ fd n, t.refers fd = some (.connection n) → n < t.accepted ∧ t.closes n = 0
  gone : ∀ n < t.accepted, (∀ fd, t.refers fd ≠ some (.connection n)) → t.closes n = 1
  fresh : ∀ n, t.accepted ≤ n → t.closes n = 0
  stray : t.stray = 0

namespace Owned

section Keep

variable {t : Table} {hold : ι → Option ℤ} {fd : ℤ}

/-- The books of a process without connections. -/
theorem start (hrefers : ∀ fd n, t.refers fd ≠ some (.connection n)) (haccepted : t.accepted = 0)
    (hcloses : ∀ n, t.closes n = 0) (hstray : t.stray = 0) :
    Owned t fun _ : ι => none where
  held _ _ h := absurd h (by simp)
  distinct _ _ _ h := absurd h (by simp)
  holder fd n h := absurd h (hrefers fd n)
  once fd _ n h := absurd h (hrefers fd n)
  known fd n h := absurd h (hrefers fd n)
  gone n hn := absurd hn (by omega)
  fresh n _ := hcloses n
  stray := hstray

/-- No place holds a number that is not open. -/
theorem hold_ne (h : Owned t hold) (hfd : t.refers fd = none) (i : ι) : hold i ≠ some fd := by
  intro hi
  obtain ⟨n, hn⟩ := h.held i fd hi
  exact absurd (hfd.symm.trans hn) (by simp)

variable [DecidableEq ι]

/-- **Accepting into a free place.** -/
theorem accept (h : Owned t hold) (hfd : t.refers fd = none) {i : ι} (hi : hold i = none) :
    Owned (t.accept fd) (Function.update hold i (some fd)) := by
  have hnew : (t.accept fd).refers fd = some (.connection t.accepted) := Function.update_self ..
  have hsame : ∀ fd', fd' ≠ fd → (t.accept fd).refers fd' = t.refers fd' :=
    fun fd' hne => Function.update_of_ne hne _ _
  -- a number that is not the new one refers to what it did
  have hcases : ∀ fd' n, (t.accept fd).refers fd' = some (.connection n) →
      fd' = fd ∧ n = t.accepted ∨ fd' ≠ fd ∧ t.refers fd' = some (.connection n) := by
    intro fd' n hn
    obtain ⟨rfl, heq⟩ | hold' := update_some_cases hn
    · exact Or.inl ⟨rfl, Object.connection.inj heq⟩
    · exact Or.inr hold'
  constructor
  · intro j fd' hj
    obtain ⟨-, rfl⟩ | ⟨-, hj'⟩ := update_some_cases hj
    · exact ⟨_, hnew⟩
    · obtain ⟨n, hn⟩ := h.held j fd' hj'
      have hne : fd' ≠ fd := by
        rintro rfl
        exact h.hold_ne hfd j hj'
      exact ⟨n, (hsame fd' hne).trans hn⟩
  · intro j k fd' hj hk
    obtain ⟨rfl, rfl⟩ | ⟨-, hj'⟩ := update_some_cases hj <;>
      obtain ⟨rfl, heq⟩ | ⟨-, hk'⟩ := update_some_cases hk
    · rfl
    · exact absurd hk' (h.hold_ne hfd k)
    · exact absurd (heq ▸ hj') (h.hold_ne hfd j)
    · exact h.distinct j k fd' hj' hk'
  · intro fd' n hn
    obtain ⟨rfl, -⟩ | ⟨-, hn⟩ := hcases fd' n hn
    · exact ⟨i, Function.update_self ..⟩
    · obtain ⟨j, hj⟩ := h.holder fd' n hn
      have hji : j ≠ i := by
        rintro rfl
        exact absurd (hi.symm.trans hj) (by simp)
      exact ⟨j, (Function.update_of_ne hji _ _).trans hj⟩
  · intro fd' fd'' n hn hn'
    obtain ⟨rfl, heq⟩ | ⟨-, hold₁⟩ := hcases fd' n hn <;>
      obtain ⟨rfl, heq'⟩ | ⟨-, hold₂⟩ := hcases fd'' n hn'
    · rfl
    · exact absurd (h.known fd'' n hold₂).1 (by omega)
    · exact absurd (h.known fd' n hold₁).1 (by omega)
    · exact h.once fd' fd'' n hold₁ hold₂
  · intro fd' n hn
    show n < t.accepted + 1 ∧ t.closes n = 0
    obtain ⟨-, rfl⟩ | ⟨-, hn⟩ := hcases fd' n hn
    · exact ⟨by omega, h.fresh _ le_rfl⟩
    · obtain ⟨hlt, hzero⟩ := h.known fd' n hn
      exact ⟨by omega, hzero⟩
  · intro n hn hno
    have hn' : n < t.accepted + 1 := hn
    obtain hlt | rfl := Nat.lt_or_eq_of_le (Nat.lt_succ_iff.mp hn')
    · refine h.gone n hlt fun fd' hfd' => ?_
      have hne : fd' ≠ fd := by
        rintro rfl
        exact absurd (hfd.symm.trans hfd') (by simp)
      exact hno fd' ((hsame fd' hne).trans hfd')
    · exact absurd hnew (hno fd)
  · intro n hn
    have hn' : t.accepted + 1 ≤ n := hn
    exact h.fresh n (by omega)
  · exact h.stray

/-- **Closing what a place holds**, and clearing the place. -/
theorem close (h : Owned t hold) {i : ι} (hi : hold i = some fd) :
    Owned (t.close fd) (Function.update hold i none) := by
  obtain ⟨n, hn⟩ := h.held i fd hi
  rw [Table.close_of_connection hn]
  have hcases : ∀ fd' k, Function.update t.refers fd none fd' = some (Object.connection k) →
      fd' ≠ fd ∧ k ≠ n ∧ t.refers fd' = some (.connection k) := by
    intro fd' k hk
    obtain ⟨hne, hk⟩ := update_none_cases hk
    refine ⟨hne, ?_, hk⟩
    rintro rfl
    exact hne (h.once fd' fd k hk hn)
  have hholds : ∀ j fd', Function.update hold i none j = some fd' →
      hold j = some fd' ∧ fd' ≠ fd := by
    intro j fd' hj
    obtain ⟨hji, hj⟩ := update_none_cases hj
    refine ⟨hj, ?_⟩
    rintro rfl
    exact hji (h.distinct j i fd' hj hi)
  constructor
  · intro j fd' hj
    obtain ⟨hj, hne⟩ := hholds j fd' hj
    obtain ⟨k, hk⟩ := h.held j fd' hj
    exact ⟨k, (Function.update_of_ne hne _ _).trans hk⟩
  · intro j k fd' hj hk
    exact h.distinct j k fd' (hholds j fd' hj).1 (hholds k fd' hk).1
  · intro fd' k hk
    obtain ⟨hne, -, hk⟩ := hcases fd' k hk
    obtain ⟨j, hj⟩ := h.holder fd' k hk
    have hji : j ≠ i := by
      rintro rfl
      exact hne (Option.some.inj (hj.symm.trans hi))
    exact ⟨j, (Function.update_of_ne hji _ _).trans hj⟩
  · intro fd' fd'' k hk hk'
    exact h.once fd' fd'' k (hcases fd' k hk).2.2 (hcases fd'' k hk').2.2
  · intro fd' k hk
    obtain ⟨-, hne, hk⟩ := hcases fd' k hk
    exact ⟨(h.known fd' k hk).1, (Function.update_of_ne hne _ _).trans (h.known fd' k hk).2⟩
  · intro k hk hno
    by_cases hkn : k = n
    · subst hkn
      show Function.update t.closes k (t.closes k + 1) k = 1
      rw [Function.update_self, (h.known fd k hn).2]
    · refine (Function.update_of_ne hkn _ _).trans (h.gone k hk fun fd' hfd' => ?_)
      have hne : fd' ≠ fd := by
        rintro rfl
        exact hkn (by simpa using hfd'.symm.trans hn)
      exact hno fd' ((Function.update_of_ne hne _ _).trans hfd')
  · intro k hk
    have hkn : k ≠ n := by
      rintro rfl
      exact absurd (h.known fd k hn).1 (by show ¬k < t.accepted; exact Nat.not_lt.mpr hk)
    exact (Function.update_of_ne hkn _ _).trans (h.fresh k hk)
  · exact h.stray

omit [DecidableEq ι] in
/-- **Accepting and closing at once.** -/
theorem accept_close (h : Owned t hold) (hfd : t.refers fd = none) :
    Owned ((t.accept fd).close fd) hold := by
  have hnew : (t.accept fd).refers fd = some (.connection t.accepted) := Function.update_self ..
  have hback : Function.update (t.accept fd).refers fd none = t.refers := by
    show Function.update (Function.update t.refers fd _) fd none = t.refers
    rw [Function.update_idem, ← hfd, Function.update_eq_self]
  have heq : (t.accept fd).close fd = { t with
      accepted := t.accepted + 1
      closes := Function.update t.closes t.accepted 1 } := by
    rw [Table.close_of_connection hnew, hback]
    show Table.mk _ _ (Function.update t.closes t.accepted (t.closes t.accepted + 1)) _ = _
    rw [h.fresh t.accepted le_rfl]
    rfl
  rw [heq]
  refine ⟨h.held, h.distinct, h.holder, h.once, ?_, ?_, ?_, h.stray⟩
  · intro fd' n hn
    obtain ⟨hlt, hzero⟩ := h.known fd' n hn
    exact ⟨Nat.lt_succ_of_lt hlt, (Function.update_of_ne (Nat.ne_of_lt hlt) _ _).trans hzero⟩
  · intro n hn hno
    obtain hlt | rfl := Nat.lt_or_eq_of_le (Nat.lt_succ_iff.mp hn)
    · exact (Function.update_of_ne (Nat.ne_of_lt hlt) _ _).trans (h.gone n hlt hno)
    · exact Function.update_self ..
  · intro n hn
    have hlt : t.accepted < n := hn
    exact (Function.update_of_ne (Nat.ne_of_gt hlt) _ _).trans (h.fresh n (Nat.le_of_lt hlt))

omit [DecidableEq ι] in
/-- **What other parts of the process open and close** does not matter. -/
theorem setOther (h : Owned t hold) {content : Option Object}
    (hbefore : ∀ n, t.refers fd ≠ some (.connection n))
    (hafter : ∀ n, content ≠ some (.connection n)) : Owned (t.setOther fd content) hold := by
  have hsame : ∀ fd' n, (t.setOther fd content).refers fd' = some (.connection n) ↔
      t.refers fd' = some (.connection n) := by
    intro fd' n
    show Function.update t.refers fd content fd' = _ ↔ _
    by_cases hfd : fd' = fd
    · subst hfd
      rw [Function.update_self]
      exact iff_of_false (hafter n) (hbefore n)
    · rw [Function.update_of_ne hfd]
  constructor
  · intro i fd' hi
    obtain ⟨n, hn⟩ := h.held i fd' hi
    exact ⟨n, (hsame fd' n).mpr hn⟩
  · exact h.distinct
  · exact fun fd' n hn => h.holder fd' n ((hsame fd' n).mp hn)
  · exact fun fd' fd'' n hn hn' => h.once fd' fd'' n ((hsame fd' n).mp hn) ((hsame fd'' n).mp hn')
  · exact fun fd' n hn => h.known fd' n ((hsame fd' n).mp hn)
  · exact fun n hn hno => h.gone n hn fun fd' hfd' => hno fd' ((hsame fd' n).mpr hfd')
  · exact h.fresh
  · exact h.stray

/-- **Closing everything that is held**: the places of a list are cleared, and no descriptor of
anything else is closed. -/
theorem closeAll {is : List ι} (his : is.Nodup) : ∀ {t : Table} {hold : ι → Option ℤ},
    Owned t hold →
    Owned (is.foldl (fun t i => (hold i).elim t t.close) t) (fun i => if i ∈ is then none else hold i) ∧
      (is.foldl (fun t i => (hold i).elim t t.close) t).accepted = t.accepted ∧
      ∀ fd, (is.foldl (fun t i => (hold i).elim t t.close) t).refers fd = some .other ↔
        t.refers fd = some .other := by
  induction is with
  | nil => exact fun h => ⟨by simpa using h, rfl, fun _ => Iff.rfl⟩
  | cons i is ih =>
    intro t hold h
    obtain ⟨hi, his⟩ := List.nodup_cons.mp his
    have hclear : (fun j => if j ∈ i :: is then none else hold j) =
        fun j => if j ∈ is then none else Function.update hold i none j := by
      funext j
      by_cases hj : j = i
      · rw [hj, Function.update_self]
        simp
      · simp [hj]
    have hsame : ∀ t : Table, is.foldl (fun t j => (hold j).elim t t.close) t =
        is.foldl (fun t j => (Function.update hold i none j).elim t t.close) t := by
      intro t
      refine List.foldl_ext _ _ _ fun t j hj => ?_
      have hji : j ≠ i := by
        rintro rfl
        exact hi hj
      rw [Function.update_of_ne hji]
    -- the first place
    have hfirst : Owned ((hold i).elim t t.close) (Function.update hold i none) ∧
        ((hold i).elim t t.close).accepted = t.accepted ∧
        ∀ fd, ((hold i).elim t t.close).refers fd = some .other ↔ t.refers fd = some .other := by
      rcases hheld : hold i with _ | fd
      · have hkeep : Function.update hold i none = hold := by
          rw [← hheld, Function.update_eq_self]
        rw [hkeep]
        exact ⟨h, rfl, fun _ => Iff.rfl⟩
      · refine ⟨h.close hheld, ?_⟩
        obtain ⟨n, hn⟩ := h.held i fd hheld
        rw [Option.elim_some, Table.close_of_connection hn]
        refine ⟨rfl, fun fd' => ?_⟩
        show Function.update t.refers fd none fd' = _ ↔ _
        by_cases hfd : fd' = fd
        · rw [hfd, Function.update_self, hn]
          simp
        · rw [Function.update_of_ne hfd]
    obtain ⟨howned, haccepted, hother⟩ := hfirst
    obtain ⟨howned', haccepted', hother'⟩ := ih his howned
    rw [hclear, List.foldl_cons, hsame]
    exact ⟨howned', haccepted'.trans haccepted, fun fd => (hother' fd).trans (hother fd)⟩

end Keep

/-! ### What the books say -/

section Read

variable {t : Table} {hold : ι → Option ℤ}

/-- **A connection is held in exactly one place, or has been closed exactly once.** -/
theorem held_or_closed (h : Owned t hold) {n : ℕ} (hn : n < t.accepted) :
    ((∃! i, ∃ fd, hold i = some fd ∧ t.refers fd = some (.connection n)) ∧ t.closes n = 0) ∨
      (∀ fd, t.refers fd ≠ some (.connection n)) ∧ t.closes n = 1 := by
  by_cases hopen : ∃ fd, t.refers fd = some (.connection n)
  · obtain ⟨fd, hfd⟩ := hopen
    obtain ⟨i, hi⟩ := h.holder fd n hfd
    refine Or.inl ⟨⟨i, ⟨fd, hi, hfd⟩, ?_⟩, (h.known fd n hfd).2⟩
    rintro j ⟨fd', hj, hfd'⟩
    obtain rfl := h.once fd' fd n hfd' hfd
    exact h.distinct j i fd' hj hi
  · have hno : ∀ fd, t.refers fd ≠ some (.connection n) := fun fd hfd => hopen ⟨fd, hfd⟩
    exact Or.inr ⟨hno, h.gone n hn hno⟩

/-- **No more connections are open than there are places.** -/
theorem card_le [Fintype ι] (h : Owned t hold) :
    ((Finset.range t.accepted).filter fun n => t.closes n = 0).card ≤ Fintype.card ι := by
  classical
  have hplace : ∀ n ∈ (Finset.range t.accepted).filter (fun n => t.closes n = 0),
      ∃ i, ∃ fd, hold i = some fd ∧ t.refers fd = some (.connection n) := by
    intro n hn
    obtain ⟨hlt, hzero⟩ := Finset.mem_filter.mp hn
    obtain ⟨⟨i, hi, -⟩, -⟩ | ⟨-, hone⟩ := h.held_or_closed (Finset.mem_range.mp hlt)
    · exact ⟨i, hi⟩
    · exact absurd (hzero.symm.trans hone) (by simp)
  obtain hempty | ⟨n₀, hn₀⟩ :=
    ((Finset.range t.accepted).filter fun n => t.closes n = 0).eq_empty_or_nonempty
  · rw [hempty, Finset.card_empty]
    exact Nat.zero_le _
  obtain ⟨i₀, -⟩ := hplace n₀ hn₀
  have : Nonempty ι := ⟨i₀⟩
  choose! place hplace using hplace
  refine (Finset.card_le_card_of_injOn place (fun n _ => Finset.mem_univ (place n)) ?_).trans
    Finset.card_univ.le
  intro n hn k hk heq
  obtain ⟨fd, hfd, hrefers⟩ := hplace n hn
  obtain ⟨fd', hfd', hrefers'⟩ := hplace k hk
  rw [heq] at hfd
  obtain rfl := Option.some.inj (hfd.symm.trans hfd')
  simpa using hrefers.symm.trans hrefers'

end Read

end Owned

end Descriptors
