import Mathlib.Data.List.Basic

/-!
# Parsing a stream that arrives in pieces

A framing reads items off the front of a stream, and more input never changes its mind: an
item it has found stays the same item, a failure stays that failure. `Resume.Framing` is
such a reader, `Resume.parseAll` the parser that takes items while it can and hands each to
a handler, which may end the parse.

`Resume.parseAll_append` is the one result: parsing a stream cut in two is parsing the first
piece and resuming, with what is left of it in front of the second.
-/

namespace Resume

variable {α π ρ σ β : Type}

/-- What the front of a stream is: not decided yet, an item and what follows it, or a
failure. -/
inductive Next (α π ρ : Type)
  | more
  | item (p : π) (rest : List α)
  | fail (r : ρ)

/-- A way to read items off the front of a stream that more input never changes. -/
structure Framing (α π ρ : Type) where
  next : List α → Next α π ρ
  item_lt : ∀ {s p rest}, next s = .item p rest → rest.length < s.length
  item_append : ∀ {s p rest}, next s = .item p rest → ∀ t, next (s ++ t) = .item p (rest ++ t)
  fail_append : ∀ {s r}, next s = .fail r → ∀ t, next (s ++ t) = .fail r

/-- Where a parse stands: the handler's state, the items handed to it in order, and what is
held back for later or why the parse ended. -/
structure Outcome (σ π ρ β : Type) where
  state : σ
  items : List π
  status : Except ρ β

/-- An outcome after one more item in front. -/
def Outcome.cons (p : π) (o : Outcome σ π ρ β) : Outcome σ π ρ β := { o with items := p :: o.items }

/-- An outcome after the items of an earlier one. -/
def Outcome.after (items : List π) (o : Outcome σ π ρ β) : Outcome σ π ρ β :=
  { o with items := items ++ o.items }

section Parse

variable (F : Framing α π ρ) (handle : σ → π → σ × Option ρ)

/-- Take items while there are any, in at most `fuel` turns. -/
def parse : ℕ → List α → σ → Outcome σ π ρ (List α)
  | 0, s, st => ⟨st, [], .ok s⟩
  | fuel + 1, s, st =>
    match F.next s with
    | .more => ⟨st, [], .ok s⟩
    | .fail r => ⟨st, [], .error r⟩
    | .item p rest =>
      match handle st p with
      | (st', some r) => ⟨st', [p], .error r⟩
      | (st', none) => (parse fuel rest st').cons p

/-- Take items while there are any. -/
def parseAll (s : List α) (st : σ) : Outcome σ π ρ (List α) := parse F handle (s.length + 1) s st

/-- Go on with a parse when more input arrives. -/
def resume (o : Outcome σ π ρ (List α)) (t : List α) : Outcome σ π ρ (List α) :=
  match o.status with
  | .error _ => o
  | .ok rest => (parseAll F handle (rest ++ t) o.state).after o.items

variable {F handle}

/-- Every turn takes something off, so any bound above the length gives the same parse. -/
theorem parse_fuel (m : ℕ) : ∀ (n : ℕ) (s : List α) (st : σ), s.length < m → s.length < n →
    parse F handle m s st = parse F handle n s st := by
  induction m with
  | zero => exact fun n s st hm => absurd hm (Nat.not_lt_zero _)
  | succ m ih =>
    intro n s st hm hn
    obtain ⟨n, rfl⟩ := Nat.exists_eq_succ_of_ne_zero (Nat.ne_zero_of_lt hn)
    rw [parse, parse]
    cases hnext : F.next s with
    | more => rfl
    | fail r => rfl
    | item p rest =>
      have hlt := F.item_lt hnext
      rcases hh : handle st p with ⟨st', _ | r⟩
      · simp only [hh]
        rw [ih n rest st' (by omega) (by omega)]
      · simp only [hh]

/-- The front is not decided yet. -/
theorem parseAll_more {s : List α} (h : F.next s = .more) (st : σ) :
    parseAll F handle s st = ⟨st, [], .ok s⟩ := by
  rw [parseAll, parse, h]

/-- The front is a failure. -/
theorem parseAll_fail {s : List α} {r : ρ} (h : F.next s = .fail r) (st : σ) :
    parseAll F handle s st = ⟨st, [], .error r⟩ := by
  rw [parseAll, parse, h]

/-- The front is an item on which the handler ends the parse. -/
theorem parseAll_stop {s rest : List α} {p : π} {st st' : σ} {r : ρ} (h : F.next s = .item p rest)
    (hh : handle st p = (st', some r)) : parseAll F handle s st = ⟨st', [p], .error r⟩ := by
  rw [parseAll, parse, h]
  simp only [hh]

/-- The front is an item after which the parse goes on. -/
theorem parseAll_item {s rest : List α} {p : π} {st st' : σ} (h : F.next s = .item p rest)
    (hh : handle st p = (st', none)) :
    parseAll F handle s st = (parseAll F handle rest st').cons p := by
  have hlt := F.item_lt h
  rw [parseAll, parse, h]
  simp only [hh]
  rw [parseAll, parse_fuel s.length (rest.length + 1) rest st' hlt (by omega)]

/-- **A stream may be parsed piece by piece.** -/
theorem parseAll_append (s t : List α) (st : σ) :
    parseAll F handle (s ++ t) st = resume F handle (parseAll F handle s st) t := by
  induction hn : s.length using Nat.strongRecOn generalizing s st with
  | ind n ih =>
    cases hnext : F.next s with
    | more =>
      rw [parseAll_more hnext]
      rfl
    | fail r =>
      rw [parseAll_fail hnext, parseAll_fail (F.fail_append hnext t)]
      rfl
    | item p rest =>
      -- more input does not change the item, so both parses hand it out and go on alike
      rcases hh : handle st p with ⟨st', _ | r⟩
      · rw [parseAll_item hnext hh, parseAll_item (F.item_append hnext t) hh,
          ih rest.length (hn ▸ F.item_lt hnext) rest st' rfl]
        rcases hstatus : (parseAll F handle rest st').status with r | rest'
        · simp [resume, Outcome.cons, hstatus]
        · simp [resume, Outcome.cons, Outcome.after, hstatus]
      · rw [parseAll_stop hnext hh, parseAll_stop (F.item_append hnext t) hh]
        rfl

/-- **What the handler keeps, a parse keeps.** -/
theorem parseAll_keeps {P : σ → Prop} (h : ∀ st p, P st → P (handle st p).1) {st : σ} (hst : P st)
    (s : List α) : P (parseAll F handle s st).state := by
  induction hn : s.length using Nat.strongRecOn generalizing s st with
  | ind n ih =>
    cases hnext : F.next s with
    | more =>
      rw [parseAll_more hnext]
      exact hst
    | fail r =>
      rw [parseAll_fail hnext]
      exact hst
    | item p rest =>
      have hkept := h st p hst
      rcases hh : handle st p with ⟨st', _ | r⟩
      · rw [hh] at hkept
        rw [parseAll_item hnext hh]
        exact ih rest.length (hn ▸ F.item_lt hnext) hkept rest rfl
      · rw [hh] at hkept
        rw [parseAll_stop hnext hh]
        exact hkept

/-- What a parse holds back is not an item yet. -/
theorem next_of_parseAll_ok {s rest : List α} {st : σ}
    (h : (parseAll F handle s st).status = .ok rest) : F.next rest = .more := by
  induction hn : s.length using Nat.strongRecOn generalizing s st with
  | ind n ih =>
    cases hnext : F.next s with
    | more =>
      rw [parseAll_more hnext] at h
      rw [← Except.ok.inj h]
      exact hnext
    | fail r =>
      rw [parseAll_fail hnext] at h
      exact absurd h (by simp)
    | item p rest' =>
      rcases hh : handle st p with ⟨st', _ | r⟩
      · rw [parseAll_item hnext hh] at h
        exact ih rest'.length (hn ▸ F.item_lt hnext) h rfl
      · rw [parseAll_stop hnext hh] at h
        exact absurd h (by simp)

/-- **Nothing is lost or taken twice**: with `frame` giving back the symbols of an item, the
stream is the items in order and what is held back. -/
theorem items_append_rest {frame : π → List α}
    (hframe : ∀ {s p rest}, F.next s = .item p rest → s = frame p ++ rest) (s : List α) (st : σ) :
    ∃ tail, s = (parseAll F handle s st).items.flatMap frame ++ tail ∧
      ∀ rest, (parseAll F handle s st).status = .ok rest → tail = rest := by
  induction hn : s.length using Nat.strongRecOn generalizing s st with
  | ind n ih =>
    cases hnext : F.next s with
    | more =>
      rw [parseAll_more hnext]
      exact ⟨s, rfl, fun rest h => Except.ok.inj h⟩
    | fail r =>
      rw [parseAll_fail hnext]
      exact ⟨s, rfl, fun rest h => absurd h (by simp)⟩
    | item p rest' =>
      rcases hh : handle st p with ⟨st', _ | r⟩
      · obtain ⟨tail, htail, hok⟩ := ih rest'.length (hn ▸ F.item_lt hnext) rest' st' rfl
        rw [parseAll_item hnext hh]
        refine ⟨tail, ?_, hok⟩
        calc s = frame p ++ rest' := hframe hnext
          _ = frame p ++ ((parseAll F handle rest' st').items.flatMap frame ++ tail) := by
            rw [← htail]
          _ = _ := by simp [Outcome.cons]
      · rw [parseAll_stop hnext hh]
        exact ⟨rest', by rw [hframe hnext]; simp, fun rest h => absurd h (by simp)⟩

end Parse

end Resume
