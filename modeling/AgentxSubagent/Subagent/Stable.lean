import AgentxSubagent.Subagent.EventLoop

/-!
# Properties that every turn keeps

Many properties of what is stored are about one place at a time: the value there is of the right
type and range, or the key is not missing. Such a property `P` does not survive a turn by itself,
because UNDO writes back what RESERVE2 found some turns earlier. What survives is `P` together with
what the SETs in progress carry: values that passed RESERVE1, and stashes of contents that had `P`.

`AgentxSubagent.StableAt` is what `P` has to satisfy, one condition for each way a place is written
to, and `AgentxSubagent.Subagent.run_keeps` is the rule: a stable property that holds at startup
holds after every run.
-/

namespace AgentxSubagent

open Assign Runs

/-- **A property of places that every writer respects**: it only looks at what the getters return,
it holds of every accepted value where its object is kept, and it tolerates that UNDO makes up a
zero for a scalar that was missing. -/
structure StableAt (m : Modes) (P : Loc → Option Bytes → Prop) : Prop where
  alike : ∀ {l content content'}, ReadsAlike content content' → P l content → P l content'
  scalar : ∀ {s : Scalar} {v : Value}, (s.object m).syn.Accepts v → P (s.loc m) (some v.encode)
  cell : ∀ {c : PortColumn} {v : Value}, (c.object m).syn.Accepts v → ∀ inst,
    P (c.cellLoc m inst) (some v.encode)
  zero : ∀ s : Scalar, P (s.loc m) none → P (s.loc m) (some (s.object m).syn.zero.encode)

/-- The property holds at every place. -/
def Envs.All (P : Loc → Option Bytes → Prop) (envs : Envs) : Prop := ∀ l, P l (envs.stored l)

/-- **What a SET in progress carries.** One with an error before ACTION will not get that far. -/
def PendingSet.Carries (m : Modes) (P : Loc → Option Bytes → Prop) (p : PendingSet) : Prop :=
  match p.mode with
  | .reserve1 => pduError p.requests = false → ∀ r ∈ p.requests, r.Checked m
  | .reserve2 => pduError p.requests = false →
      ∃ before, Envs.All P before ∧ ∀ r ∈ p.requests, r.Stashed m before
  | .action => ∃ before, Envs.All P before ∧ ∀ r ∈ p.requests, r.Stashed m before
  | _ => True

/-- **The property, and what the SETs in progress carry.** -/
structure Subagent.Keeps (m : Modes) (P : Loc → Option Bytes → Prop) (u : Subagent) : Prop where
  all : u.agent.envs.All P
  pending : ∀ t p, u.pdus t = some p → p.Carries m P

section Writes

variable {m : Modes} {P : Loc → Option Bytes → Prop} (hP : StableAt m P) {before : Envs}
  {r : SetRequest} {p : Loc × Option Bytes}

include hP

/-- What ACTION writes for a request that passed RESERVE1 has the property. -/
theorem StableAt.actionWrite (hr : r.Stashed m before) (h : r.actionWrite m = some p) :
    P p.1 p.2 := by
  cases r with
  | scalar s r =>
    obtain ⟨hacc, -⟩ := hr
    obtain ⟨v, hv, hv'⟩ := Syn.accepts_of_reserve1 hacc
    rw [SetRequest.actionWrite, hv] at h
    obtain rfl := Option.some.inj h
    exact hP.scalar hv'
  | cell r =>
    obtain ⟨c, inst, u, hcell, hacc, -⟩ := hr
    obtain ⟨v, hv, hv'⟩ := Syn.accepts_of_reserve1 hacc
    rw [SetRequest.actionWrite, TableVarbind.write, hcell] at h
    simp only [Option.bind_eq_bind, Option.bind_some, hv] at h
    obtain rfl := Option.some.inj h
    exact hP.cell hv' inst

/-- **What UNDO writes has the property**, because what was stashed had it. -/
theorem StableAt.undoWrites (hbefore : before.All P) (hr : r.Stashed m before)
    (h : p ∈ r.undoWrites m) : P p.1 p.2 := by
  cases r with
  | scalar s r =>
    obtain ⟨-, v, hv, hstash⟩ := hr
    rw [SetRequest.undoWrites, hv] at h
    obtain rfl : p = (s.loc m, some v.encode) := by simpa using h
    have hold := hbefore (s.loc m)
    obtain ⟨data, hdata, hread⟩ | ⟨habs, rfl⟩ := hstash
    · rw [hdata] at hold
      exact hP.alike (readsAlike_encode hread) hold
    · rw [habs] at hold
      exact hP.zero s hold
  | cell r =>
    obtain ⟨l, data, content, -, hrest, hread⟩ := Reserved.restorations hr
    rw [SetRequest.undoWrites, hrest] at h
    obtain rfl : p = (l, content) := by simpa using h
    exact hP.alike hread (hbefore l)

end Writes

section Turns

variable {m : Modes} {P : Loc → Option Bytes → Prop} {pbDecode : Bytes → Option Envelope}
  {u u' : Subagent}

/-- A SET moves on, or is over. -/
theorem Subagent.Keeps.update (h : u.Keeps m P) {a : Agent} (ha : a.envs.All P) (t : ℕ)
    {q : Option PendingSet} (hq : ∀ p, q = some p → p.Carries m P) :
    Subagent.Keeps m P ⟨a, Function.update u.pdus t q⟩ where
  all := ha
  pending := by
    intro t' p hp
    simp only at hp
    by_cases ht : t' = t
    · subst ht
      rw [Function.update_self] at hp
      exact hq p hp
    · rw [Function.update_of_ne ht] at hp
      exact h.pending t' p hp

variable (hP : StableAt m P)

include hP

/-- A phase of a SET in progress. -/
theorem Subagent.step_phase_keeps {t : ℕ} {mode : SetMode} {f : ℕ → RequestFaults}
    {o : Option FrameRecord} (h : u.Keeps m P)
    (hstep : u.step m pbDecode (.phase t mode f) = some (o, u')) : u'.Keeps m P := by
  obtain ⟨-, p, hp, hadm, hagent, hpdus⟩ := Subagent.step_phase hstep
  have hcarries := h.pending t p hp
  obtain ⟨a', pdus'⟩ := u'
  simp only at hagent hpdus
  subst hagent hpdus
  cases mode with
  | reserve1 => exact absurd hadm (by simp [PendingSet.admits])
  | reserve2 =>
    obtain ⟨hmode, herr⟩ : p.mode = .reserve1 ∧ pduError p.requests = false := by
      simpa [PendingSet.admits] using hadm
    rw [PendingSet.Carries, hmode] at hcarries
    have ha : (forPdu m f .reserve2 p.requests u.agent).2 = u.agent :=
      (forPdu_pure f (by decide)).1
    refine h.update (by rw [ha]; exact h.all) t ?_
    rintro _ ⟨⟩ herr'
    exact ⟨u.agent.envs, h.all, forPdu_reserve2 (hcarries herr) herr'⟩
  | free =>
    have ha : (forPdu m f .free p.requests u.agent).2 = u.agent := (forPdu_pure f (by decide)).1
    exact h.update (by rw [ha]; exact h.all) t nofun
  | action =>
    obtain ⟨hmode, herr⟩ : p.mode = .reserve2 ∧ pduError p.requests = false := by
      simpa [PendingSet.admits] using hadm
    rw [PendingSet.Carries, hmode] at hcarries
    obtain ⟨before, hbefore, hrs⟩ := hcarries herr
    refine h.update ((forPdu_action_edits f fun r hr _ hp =>
      hP.actionWrite (hrs r hr) hp).preserves h.all) t ?_
    rintro _ ⟨⟩
    exact ⟨before, hbefore, forPdu_action_stashed f hrs⟩
  | commit =>
    have ha : (forPdu m f .commit p.requests u.agent).2 = u.agent := (forPdu_pure f (by decide)).1
    exact h.update (by rw [ha]; exact h.all) t nofun
  | undo =>
    have hmode : p.mode = .action := by simpa [PendingSet.admits] using hadm
    rw [PendingSet.Carries, hmode] at hcarries
    -- the contents may have changed since the stash was taken, but both had the property
    obtain ⟨before, hbefore, hrs⟩ := hcarries
    exact h.update ((forPdu_undo_edits f fun r hr _ hp =>
      hP.undoWrites hbefore (hrs r hr) hp).preserves h.all) t nofun

/-- **Every turn keeps a stable property.** -/
theorem Subagent.step_keeps {i : Input} {o : Option FrameRecord} (h : u.Keeps m P)
    (hstep : u.step m pbDecode i = some (o, u')) : u'.Keeps m P := by
  cases i with
  | reserve1 t vbs =>
    obtain ⟨-, hagent, hpdus⟩ := Subagent.step_reserve1 hstep
    obtain ⟨a', pdus'⟩ := u'
    simp only at hagent hpdus
    subst hagent hpdus
    refine h.update h.all t ?_
    rintro _ ⟨⟩ herr
    exact forPdu_reserve1 herr
  | phase t mode f => exact Subagent.step_phase_keeps hP h hstep
  | frame payload f =>
    obtain ⟨-, rfl⟩ := Prod.mk.inj (Option.some.inj hstep)
    refine ⟨?_, h.pending⟩
    obtain henvs | ⟨s, v, hacc, henvs⟩ := handleFrame_cases m f u.agent pbDecode payload
    · rw [henvs]
      exact h.all
    · intro l
      rw [henvs, Envs.stored_put]
      exact (Edits.update (hP.scalar hacc)).preserves h.all l
  | poll af =>
    obtain ⟨-, rfl⟩ := Prod.mk.inj (Option.some.inj hstep)
    refine ⟨?_, h.pending⟩
    show Envs.All P (u.agent.demoCheckTempAlarm m af).2.envs
    rw [Agent.envs_demoCheckTempAlarm]
    exact h.all

/-- **A stable property that holds at startup holds after every run.** -/
theorem Subagent.run_keeps {a : Agent} (ha : a.envs.All P) {is : List Input}
    {os : List (Option FrameRecord)}
    (h : run (fun u i => Subagent.step m pbDecode u i) ⟨a, fun _ => none⟩ is = some (os, u)) :
    u.agent.envs.All P := by
  have hstart : Subagent.Keeps m P ⟨a, fun _ => none⟩ := ⟨ha, nofun⟩
  exact (run_invariant (I := fun u => Subagent.Keeps m P u)
    (fun _ _ _ _ _ hu hstep => Subagent.step_keeps hP hu hstep) hstart h).all

end Turns

end AgentxSubagent
