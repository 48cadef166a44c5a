import AgentxSubagent.Agent.SetPdu
import AgentxSubagent.Ipc.Server
import AgentxSubagent.Lib.Runs

/-!
# The event loop

The subagent is one thread: the loop of `main()` waits for packets of the AgentX master,
for bytes on the IPC connections and for the timer of the alarm, and deals with one of them
at a time. The phases of a SET arrive as packets of their own, so between two of them the
loop may dispatch anything else: `AgentxSubagent.Subagent.step` is one such turn, and a run
is any sequence of turns, over any number of SETs in progress.

The master moves a SET from phase to phase as net-snmp prescribes
(`AgentxSubagent.PendingSet.admits`): after an error in RESERVE1 or RESERVE2 it can only be
freed, after ACTION it is committed or undone, and after an error there it can only be
undone. It may free or undo a SET without an error here too, because another subagent
reported one.

The IPC side is taken frame by frame. A call of `service_client` hands out any number of them;
`AgentxSubagent.serviceClient_is_run` says that it amounts to a run over these frames.
-/

namespace AgentxSubagent

open Resume Runs

/-! ### States and turns -/

/-- A SET in progress: the phase last carried out, and its requests. -/
structure PendingSet where
  mode : SetMode
  requests : List SetRequest

/-- The subagent: its SNMP side, and the SETs in progress by their transaction. -/
structure Subagent where
  agent : Agent
  pdus : ℕ → Option PendingSet

/-- What the loop is woken up for. -/
inductive Input
  /-- RESERVE1 of a new SET. -/
  | reserve1 (t : ℕ) (vbs : List SetVarbind)
  /-- A later phase of a SET. -/
  | phase (t : ℕ) (mode : SetMode) (f : ℕ → RequestFaults)
  /-- A complete frame of an IPC client. -/
  | frame (payload : Bytes) (f : FrameFaults)
  /-- The timer of the alarm. -/
  | poll (af : AlarmFaults)

/-- Which phase may follow. -/
def PendingSet.admits (p : PendingSet) : SetMode → Bool
  | .reserve1 => false
  | .reserve2 => decide (p.mode = .reserve1) && !pduError p.requests
  | .free => decide (p.mode = .reserve1) || decide (p.mode = .reserve2)
  | .action => decide (p.mode = .reserve2) && !pduError p.requests
  | .commit => decide (p.mode = .action) && !pduError p.requests
  | .undo => decide (p.mode = .action)

/-- Whether a SET goes on after a phase. -/
def SetMode.goesOn : SetMode → Bool
  | .reserve1 | .reserve2 | .action => true
  | .free | .commit | .undo => false

section Step

variable (m : Modes) (pbDecode : Bytes → Option Envelope)

/-- **One turn of the event loop**, with what the IPC server answered in it. A phase that the
master would not ask for has no turn. -/
def Subagent.step (s : Subagent) : Input → Option (Option FrameRecord × Subagent)
  | .reserve1 t vbs =>
    match s.pdus t with
    | some _ => none
    | none =>
      let done := forPdu m (fun _ => .none) .reserve1 (vbs.map .fresh) s.agent
      some (none, ⟨done.2, Function.update s.pdus t (some ⟨.reserve1, done.1⟩)⟩)
  | .phase t mode f =>
    match s.pdus t with
    | none => none
    | some p =>
      if p.admits mode then
        let done := forPdu m f mode p.requests s.agent
        some (none, ⟨done.2, Function.update s.pdus t
          (if mode.goesOn then some ⟨mode, done.1⟩ else none)⟩)
      else none
  | .frame payload f =>
    let done := handleFrame m pbDecode f s.agent payload
    some (done.1, { s with agent := done.2.1 })
  | .poll af => some (none, { s with agent := (s.agent.demoCheckTempAlarm m af).2 })

end Step

/-- A turn that has nothing to do with a SET. -/
def Input.isOther : Input → Bool
  | .frame _ _ | .poll _ => true
  | _ => false

section Turns

variable {m : Modes} {pbDecode : Bytes → Option Envelope} {s s' : Subagent}
  {o : Option FrameRecord}

/-- RESERVE1 of a new SET. -/
theorem Subagent.step_reserve1 {t : ℕ} {vbs : List SetVarbind}
    (h : s.step m pbDecode (.reserve1 t vbs) = some (o, s')) :
    o = none ∧ s'.agent = s.agent ∧ s'.pdus = Function.update s.pdus t
      (some ⟨.reserve1, (forPdu m (fun _ => .none) .reserve1 (vbs.map .fresh) s.agent).1⟩) := by
  rw [Subagent.step] at h
  rcases hp : s.pdus t with _ | p
  · rw [hp] at h
    obtain ⟨rfl, rfl⟩ := Prod.mk.inj (Option.some.inj h)
    exact ⟨rfl, (forPdu_pure _ (by decide)).1, rfl⟩
  · rw [hp] at h
    exact absurd h (by simp)

/-- A later phase of a SET. -/
theorem Subagent.step_phase {t : ℕ} {mode : SetMode} {f : ℕ → RequestFaults}
    (h : s.step m pbDecode (.phase t mode f) = some (o, s')) :
    o = none ∧ ∃ p, s.pdus t = some p ∧ p.admits mode = true ∧
      s'.agent = (forPdu m f mode p.requests s.agent).2 ∧
      s'.pdus = Function.update s.pdus t
        (if mode.goesOn then some ⟨mode, (forPdu m f mode p.requests s.agent).1⟩ else none) := by
  rw [Subagent.step] at h
  rcases hp : s.pdus t with _ | p
  · rw [hp] at h
    exact absurd h (by simp)
  · rw [hp] at h
    simp only at h
    split_ifs at h with hadm
    all_goals
      obtain ⟨rfl, rfl⟩ := Prod.mk.inj (Option.some.inj h)
      exact ⟨rfl, p, rfl, hadm, rfl, by simp_all⟩

/-- A turn that has nothing to do with a SET leaves the SETs in progress. -/
theorem Subagent.step_other {i : Input} (hi : i.isOther = true)
    (h : s.step m pbDecode i = some (o, s')) : s'.pdus = s.pdus := by
  cases i with
  | reserve1 => exact absurd hi (by simp [Input.isOther])
  | phase => exact absurd hi (by simp [Input.isOther])
  | frame payload f =>
    obtain ⟨-, rfl⟩ := Prod.mk.inj (Option.some.inj h)
    rfl
  | poll af =>
    obtain ⟨-, rfl⟩ := Prod.mk.inj (Option.some.inj h)
    rfl

/-- And so does a sequence of them. -/
theorem Subagent.run_other {is : List Input} (hi : ∀ i ∈ is, i.isOther = true)
    {os : List (Option FrameRecord)}
    (h : run (fun s i => Subagent.step m pbDecode s i) s is = some (os, s')) :
    s'.pdus = s.pdus :=
  run_invariant (I := fun u => u.pdus = s.pdus)
    (fun i hmem _ _ _ hu hstep => (Subagent.step_other (hi i hmem) hstep).trans hu) rfl h

end Turns

/-! ### A call of `service_client` -/

/-- `handle_frame` as `drain_frames` calls it. The state is the subagent and what has been
answered so far; `f i` is what fails for the `i`-th frame. -/
def frameHandler (m : Modes) (pbDecode : Bytes → Option Envelope) (f : ℕ → FrameFaults)
    (st : Subagent × List (Option FrameRecord)) (payload : Bytes) :
    (Subagent × List (Option FrameRecord)) × Bool :=
  let done := handleFrame m pbDecode (f st.2.length) st.1.agent payload
  (({ st.1 with agent := done.2.1 }, st.2 ++ [done.1]), done.2.2)

section Service

variable {m : Modes} {pbDecode : Bytes → Option Envelope} {f : ℕ → FrameFaults}

/-- Handing out payloads is a run over the frames they came in. -/
theorem foldl_frameHandler (ps : List Bytes) (s : Subagent) (os : List (Option FrameRecord)) :
    ∃ os', (ps.foldl (fun st p => (frameHandler m pbDecode f st p).1) (s, os)).2 = os ++ os' ∧
      run (fun s i => Subagent.step m pbDecode s i) s
          (ps.mapIdx fun i p => .frame p (f (os.length + i))) =
        some (os', (ps.foldl (fun st p => (frameHandler m pbDecode f st p).1) (s, os)).1) := by
  induction ps generalizing s os with
  | nil => exact ⟨[], (List.append_nil os).symm, rfl⟩
  | cons p ps ih =>
    rcases hd : handleFrame m pbDecode (f os.length) s.agent p with ⟨o, a, open'⟩
    have hnext : (frameHandler m pbDecode f (s, os) p).1 = ({ s with agent := a }, os ++ [o]) := by
      simp only [frameHandler, hd]
    have hstep : s.step m pbDecode (.frame p (f (os.length + 0))) =
        some (o, { s with agent := a }) := by
      simp only [Subagent.step, Nat.add_zero, hd]
    obtain ⟨os', hos, hrun⟩ := ih { s with agent := a } (os ++ [o])
    rw [List.foldl_cons, hnext, List.mapIdx_cons]
    refine ⟨o :: os', by rw [hos, List.append_assoc]; rfl, ?_⟩
    refine run_cons_eq_some.mpr ⟨o, os', _, hstep, ?_, rfl⟩
    rw [← hrun, List.length_append, List.length_singleton]
    simp only [Nat.add_assoc, Nat.add_comm 1]

/-- **A call of `service_client` is a run**: whatever its reads give, it leaves the subagent
where the turns for the frames it hands out, taken one by one, leave it. -/
theorem serviceClient_is_run {rs : List ReadResult} {c : IpcClient} {s : Subagent}
    {o : Outcome (Subagent × List (Option FrameRecord)) Bytes CloseReason IpcClient}
    (h : serviceClient (frameHandler m pbDecode f) rs c (s, []) = some o) :
    run (fun s i => Subagent.step m pbDecode s i) s (o.items.mapIdx fun i p => .frame p (f i)) =
      some (o.state.2, o.state.1) := by
  obtain ⟨os, hos, hrun⟩ :
      ∃ os, (o.items.foldl (fun st p => (frameHandler m pbDecode f st p).1) (s, [])).2 =
        [] ++ os ∧ _ :=
    foldl_frameHandler o.items s []
  simp only [List.nil_append, List.length_nil, Nat.zero_add] at hos hrun
  rw [hrun, serviceClient_state rs h, hos]

end Service

end AgentxSubagent
