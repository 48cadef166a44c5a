import Mathlib.Data.List.Basic

/-!
# Reading a message off the front of a stream

A reader takes something off the front of a stream, or fails. What makes it fit for a format
that is read forwards, without looking ahead, is that it is *local* (`Consume.Local`): it takes
off a prefix, and from any stream with that prefix it would have taken the same off it and
read the same. Local readers compose (`Consume.Local.andThen`). What a reader makes of a record,
success or failure, should not hang on what follows the record either: then the record settles
it (`Consume.Settled`).

A message is read by folding: `Consume.fold` reads one record after the other into a state
until the stream is empty. When the reader of a record is local and takes something off
(`Consume.Step`), two things follow, whatever the records are:

* `Consume.fold_append`: two messages one behind the other are one message, and reading it is
  reading the second into the state the first has left;
* `Consume.fold_insert` and `Consume.fold_filter`: a record that leaves every state alone may stand
  anywhere between two records, and such records may be dropped.
-/

namespace Consume

variable {α ε β γ σ τ : Type}

/-- What takes a `β` off the front of a stream, or fails. -/
abbrev Reader (α ε β : Type) := List α → Except ε (β × List α)

/-- The reader takes `u` off the front and reads `b`, whatever follows. -/
def Reads (p : Reader α ε β) (u : List α) (b : β) : Prop := ∀ t, p (u ++ t) = .ok (b, t)

/-- What the reader reads depends on what it takes off, and on nothing behind that. -/
def Local (p : Reader α ε β) : Prop :=
  ∀ ⦃s b rest⦄, p s = .ok (b, rest) → ∃ u, s = u ++ rest ∧ Reads p u b

/-! ### Readers one after the other -/

/-- Take nothing off. -/
def give (b : β) : Reader α ε β := fun s => .ok (b, s)

/-- Fail. -/
def fail (err : ε) : Reader α ε β := fun _ => .error err

/-- Read, and go on with what was read. -/
def andThen (p : Reader α ε β) (f : β → Reader α ε γ) : Reader α ε γ := fun s =>
  match p s with
  | .error err => .error err
  | .ok (b, rest) => f b rest

section Compose

variable {p : Reader α ε β} {f : β → Reader α ε γ} {g : β → γ}

theorem andThen_eq_ok {s rest : List α} {c : γ} :
    andThen p f s = .ok (c, rest) ↔ ∃ b mid, p s = .ok (b, mid) ∧ f b mid = .ok (c, rest) := by
  rw [andThen]
  rcases p s with err | ⟨b, mid⟩
  · simp
  · simp only [Except.ok.injEq, Prod.mk.injEq]
    exact ⟨fun h => ⟨b, mid, ⟨rfl, rfl⟩, h⟩, fun ⟨_, _, ⟨rfl, rfl⟩, h⟩ => h⟩

theorem Reads.andThen {u v : List α} {b : β} {c : γ} (hp : Reads p u b) (hf : Reads (f b) v c) :
    Reads (andThen p f) (u ++ v) c := by
  intro t
  rw [Consume.andThen, List.append_assoc, hp]
  exact hf t

theorem Reads.of_append_nil {u : List α} {b : β} (h : Reads p (u ++ []) b) : Reads p u b := by
  rwa [List.append_nil] at h

/-- A local reader never gives back more than it was given. -/
theorem Local.length_le (hp : Local p) {s rest : List α} {b : β} (h : p s = .ok (b, rest)) :
    rest.length ≤ s.length := by
  obtain ⟨u, rfl, -⟩ := hp h
  rw [List.length_append]
  exact Nat.le_add_left _ _

/-- **Local readers compose.** -/
theorem Local.andThen (hp : Local p) (hf : ∀ b, Local (f b)) : Local (andThen p f) := by
  intro s c rest h
  obtain ⟨b, mid, hb, hc⟩ := andThen_eq_ok.mp h
  obtain ⟨u, rfl, hu⟩ := hp hb
  obtain ⟨v, rfl, hv⟩ := hf b hc
  exact ⟨u ++ v, (List.append_assoc u v rest).symm, hu.andThen hv⟩

/-- A reader that fails is local. -/
theorem local_fail (err : ε) : Local (fail err : Reader α ε β) :=
  fun _ _ _ h => nomatch h

theorem reads_give (b : β) : Reads (give b : Reader α ε β) [] b := fun _ => rfl

/-- A reader that takes nothing off is local. -/
theorem local_give (b : β) : Local (give b : Reader α ε β) := by
  intro s c rest h
  obtain ⟨rfl, rfl⟩ := Prod.mk.inj (Except.ok.inj h)
  exact ⟨[], rfl, reads_give b⟩

/-- A choice between local readers that does not look at the stream is local. -/
theorem Local.ite {c : Prop} [Decidable c] {q : Reader α ε β} (hp : Local p) (hq : Local q) :
    Local (if c then p else q) := by
  split_ifs
  · exact hp
  · exact hq

/-- A stream that starts with `u` decides the reader: it takes `u` off, or it fails, whatever
follows. -/
def Settled (p : Reader α ε β) (u : List α) : Prop :=
  (∃ b, Reads p u b) ∨ ∃ err, ∀ t, p (u ++ t) = .error err

theorem settled_fail (err : ε) (u : List α) : Settled (fail err : Reader α ε β) u :=
  Or.inr ⟨err, fun _ => rfl⟩

theorem settled_give (b : β) : Settled (give b : Reader α ε β) [] := Or.inl ⟨b, reads_give b⟩

/-- What is read in front of what decides. -/
theorem Reads.settled {u v : List α} {b : β} (hp : Reads p u b) (hf : Settled (f b) v) :
    Settled (Consume.andThen p f) (u ++ v) := by
  rcases hf with ⟨c, hc⟩ | ⟨err, herr⟩
  · exact Or.inl ⟨c, hp.andThen hc⟩
  · refine Or.inr ⟨err, fun t => ?_⟩
    rw [Consume.andThen, List.append_assoc, hp]
    exact herr t

theorem Settled.of_append_nil {u : List α} (h : Settled p (u ++ [])) : Settled p u := by
  rwa [List.append_nil] at h

end Compose

/-! ### Messages -/

/-- A reader of records into a state: it is local, and it takes something off. -/
structure Step (α ε σ : Type) where
  read : σ → Reader α ε σ
  isLocal : ∀ m, Local (read m)
  progress : ∀ ⦃m s m' rest⦄, read m s = .ok (m', rest) → s ≠ [] → rest.length < s.length

section Fold

variable (step : Step α ε σ)

/-- Read records until the stream is empty, at most `fuel` of them. -/
def foldFuel : ℕ → List α → σ → Except ε σ
  | _, [], m => .ok m
  | 0, _ :: _, m => .ok m
  | fuel + 1, a :: s, m =>
    match step.read m (a :: s) with
    | .error err => .error err
    | .ok (m', rest) => foldFuel fuel rest m'

/-- **Read a message**: one record after the other, until the stream is empty. -/
def fold (s : List α) (m : σ) : Except ε σ := foldFuel step s.length s m

variable {step} {s t u rest : List α} {m m' : σ}

/-- Every record takes something off, so there is fuel for all of them. -/
theorem foldFuel_eq_fold {fuel : ℕ} (h : s.length ≤ fuel) : foldFuel step fuel s m = fold step s m := by
  induction hn : s.length using Nat.strongRecOn generalizing fuel s m with
  | ind n ih =>
    subst hn
    cases s with
    | nil => cases fuel <;> rfl
    | cons a s =>
      obtain ⟨fuel, rfl⟩ := Nat.exists_eq_succ_of_ne_zero (show fuel ≠ 0 by
        rw [List.length_cons] at h
        omega)
      rw [fold, List.length_cons, foldFuel, foldFuel]
      rcases hread : step.read m (a :: s) with err | ⟨m', rest⟩
      · rfl
      · have hlt := step.progress hread (List.cons_ne_nil a s)
        rw [List.length_cons] at hlt h
        simp only
        rw [ih rest.length (by rw [List.length_cons]; omega) (by omega) rfl,
          ih rest.length (by rw [List.length_cons]; omega) (by omega) rfl]

@[simp] theorem fold_nil : fold step [] m = .ok m := rfl

/-- The first record decides how a message starts. -/
theorem fold_of_ne_nil (h : s ≠ []) :
    fold step s m = match step.read m s with
      | .error err => .error err
      | .ok (m', rest) => fold step rest m' := by
  obtain ⟨a, s, rfl⟩ := List.exists_cons_of_ne_nil h
  rw [fold, List.length_cons, foldFuel]
  rcases hread : step.read m (a :: s) with err | ⟨m', rest⟩
  · rfl
  · have hlt := step.progress hread h
    rw [List.length_cons] at hlt
    exact foldFuel_eq_fold (by omega)

/-- A record that is read goes in front of what follows it. -/
theorem fold_reads (hu : u ≠ []) (h : Reads (step.read m) u m') :
    fold step (u ++ t) m = fold step t m' := by
  rw [fold_of_ne_nil (by simp [hu]), h t]

/-- **Two messages one behind the other**: the second is read into what the first has left. -/
theorem fold_append (h : fold step s m = .ok m') : fold step (s ++ t) m = fold step t m' := by
  induction hn : s.length using Nat.strongRecOn generalizing s m with
  | ind n ih =>
    subst hn
    rcases eq_or_ne s [] with rfl | hs
    · rw [fold_nil] at h
      rw [Except.ok.inj h, List.nil_append]
    rw [fold_of_ne_nil hs] at h
    rcases hread : step.read m s with err | ⟨mid, rest⟩
    · rw [hread] at h
      exact nomatch h
    · rw [hread] at h
      have hlt := step.progress hread hs
      -- the record ends where it ends, whatever comes after it
      obtain ⟨u, rfl, hu⟩ := step.isLocal m hread
      have hune : u ≠ [] := by
        rintro rfl
        exact Nat.lt_irrefl _ hlt
      rw [List.append_assoc, fold_reads hune hu]
      exact ih rest.length hlt h rfl

/-- **A record that leaves every state alone may stand between any two records.** -/
theorem fold_insert (h : fold step s m = .ok m') (hu : u ≠ [])
    (hskip : ∀ n, Reads (step.read n) u n) :
    fold step (s ++ (u ++ t)) m = fold step (s ++ t) m := by
  rw [fold_append h, fold_append h, fold_reads hu (hskip m')]

/-- **Records that leave every state alone may be dropped**, when each of the others decides the
reader. -/
theorem fold_filter {ι : Type} {enc : ι → List α} {known : ι → Bool} (hne : ∀ i, enc i ≠ [])
    (hknown : ∀ i n, known i = true → Settled (step.read n) (enc i))
    (hother : ∀ i n, known i = false → Reads (step.read n) (enc i) n) (is : List ι) (m : σ) :
    fold step (is.flatMap enc) m = fold step ((is.filter known).flatMap enc) m := by
  induction is generalizing m with
  | nil => rfl
  | cons i is ih =>
    rw [List.flatMap_cons]
    rcases hi : known i with _ | _
    · rw [List.filter_cons_of_neg (by simp [hi]), fold_reads (hne i) (hother i m hi), ih]
    · rw [List.filter_cons_of_pos hi, List.flatMap_cons]
      rcases hknown i m hi with ⟨m', hreads⟩ | ⟨err, herr⟩
      · rw [fold_reads (hne i) hreads, fold_reads (hne i) hreads, ih]
      · rw [fold_of_ne_nil (List.append_ne_nil_of_left_ne_nil (hne i) _),
          fold_of_ne_nil (List.append_ne_nil_of_left_ne_nil (hne i) _), herr, herr]

/-- One record, read on two sides: both fail alike, or what `f` shows of the first state is the
second, and `P` holds. -/
def Mirrors (f : σ → τ) (P : σ → Prop) :
    Except ε (σ × List α) → Except ε (τ × List α) → Prop
  | .error err, r => r = .error err
  | .ok (n, rest), r => P n ∧ r = .ok (f n, rest)

/-- **Two readers that mirror each other on every record do so on a message.** -/
theorem fold_map {other : Step α ε τ} {f : σ → τ} {P : σ → Prop}
    (hstep : ∀ n s, P n → Mirrors f P (step.read n s) (other.read (f n) s)) (hm : P m) :
    fold other s (f m) = (fold step s m).map f := by
  induction hn : s.length using Nat.strongRecOn generalizing s m with
  | ind n ih =>
    subst hn
    rcases eq_or_ne s [] with rfl | hs
    · rfl
    have hread := hstep m s hm
    rw [fold_of_ne_nil hs, fold_of_ne_nil hs]
    rcases hs' : step.read m s with err | ⟨mid, rest⟩
    · rw [hs'] at hread
      rw [show other.read (f m) s = .error err from hread]
      rfl
    · rw [hs'] at hread
      rw [hread.2]
      exact ih rest.length (step.progress hs' hs) hread.1 rfl

end Fold

end Consume
