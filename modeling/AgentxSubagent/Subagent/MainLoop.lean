import AgentxSubagent.Ipc.Lifecycle
import AgentxSubagent.Subagent.EventLoop

/-!
# The loop of `main()`

`main()` of `src/main.c` sleeps in `select()`, on the descriptors of net-snmp and on those of the
IPC server, and then calls in turn `snmp_read`, `ipc_server_dispatch` and `run_alarms`. One turn of
this loop does any number of things to the subagent: a packet of the master is a phase of a SET,
each slot that is ready is read until there is nothing left, and each of the reads may complete any
number of frames. `AgentxSubagent.Process.turn` is such a turn with all its calls.

The event loop of `AgentxSubagent.Subagent.step` takes these things one at a time and has neither
descriptors nor buffers. `AgentxSubagent.Delivers` connects the two: what a turn does to the
subagent is a run of the event loop, and the frames of this run are those that were passed to
`handle_frame`, for each connection in the order in which they were sent.

* `AgentxSubagent.delivers_dispatch`: a call of `ipc_server_dispatch` is such a run.
* `AgentxSubagent.Process.advances_loop`: so are the turns of the loop, and they keep the books of
  the server.
-/

namespace AgentxSubagent

open Descriptors Runs

/-! ### The process -/

/-- **The process in its loop**: the IPC server with the descriptors of the process, those of them
that net-snmp and LMDB have open, and the SETs in progress. -/
structure Process where
  server : IpcServer
  others : ℤ → Bool
  pdus : ℕ → Option PendingSet

/-- The subagent: the agent behind the server, and the SETs. -/
def Process.subagent (p : Process) : Subagent := ⟨p.server.agent, p.pdus⟩

/-- What net-snmp does when it is called: it calls the handlers for the packets of the master, and
opens and closes its sessions. -/
inductive NetEvent
  | reserve1 (t : ℕ) (vbs : List SetVarbind)
  | phase (t : ℕ) (mode : SetMode) (g : ℕ → RequestFaults)
  | opens (fd : ℤ)
  | closes (fd : ℤ)

/-- What `run_alarms` does: `temp_alarm_alarm_cb` is called, or an alarm of net-snmp. -/
inductive AlarmEvent
  | tempAlarm (af : AlarmFaults)
  | net (e : NetEvent)

/-- What `select()` answers, with what the calls after it meet; `set` are the numbers it finds
ready. -/
inductive Selected
  | ready (set : ℤ → Bool) (packets : List NetEvent) (accepts : List IpcServer.AcceptResult)
      (reads : Fin ipcMaxClients → List ReadResult) (alarms : List AlarmEvent)
  | timeout (resends : List NetEvent) (alarms : List AlarmEvent)
  | interrupted

/-- What a turn of the loop meets: what `snmp_select_info` gives, and what `select()` answers. -/
structure Wakeup where
  numfds : ℤ
  readfds : ℤ → Bool
  block : Bool
  selected : Selected

namespace Process

section Turn

variable (pb : PbCodec) (m : Modes) (f : ℕ → FrameFaults)

/-- A handler is called. -/
def call (p : Process) (i : Input) : Option (Unit × Process) :=
  (p.subagent.step m pb.pbDecode i).map fun r =>
    ((), { p with server := p.server.setAgent r.2.agent, pdus := r.2.pdus })

/-- One thing that net-snmp does. -/
def net (p : Process) : NetEvent → Option (Unit × Process)
  | .reserve1 t vbs => p.call pb m (.reserve1 t vbs)
  | .phase t mode g => p.call pb m (.phase t mode g)
  | .opens fd => (p.server.step pb m f (.otherOpens fd)).map fun r =>
      ((), { p with server := r.2, others := Function.update p.others fd true })
  | .closes fd => (p.server.step pb m f (.otherCloses fd)).map fun r =>
      ((), { p with server := r.2, others := Function.update p.others fd false })

/-- One alarm. -/
def alarm (p : Process) : AlarmEvent → Option (Unit × Process)
  | .tempAlarm af => p.call pb m (.poll af)
  | .net e => p.net pb m f e

/-- `snmp_read` or `snmp_timeout`. -/
def snmpRead (events : List NetEvent) (p : Process) : Option Process :=
  (run (fun p e => net pb m f p e) p events).map Prod.snd

/-- `run_alarms`. -/
def runAlarms (alarms : List AlarmEvent) (p : Process) : Option Process :=
  (run (fun p e => alarm pb m f p e) p alarms).map Prod.snd

/-- `ipc_server_dispatch`. -/
def ipcServerDispatch (d : IpcServer.Dispatch) (p : Process) : Option Process :=
  (p.server.step pb m f (.dispatch d)).map fun r => { p with server := r.2 }

/-- **One turn of the loop.** There is none after a `select()` that has failed, and none in which
the set has no room for a descriptor. `select()` looks at the numbers below the bound it is given,
and can time out unless `block` is set; when it is interrupted, nothing else is called. -/
def turn (p : Process) (w : Wakeup) : Option (Unit × Process) :=
  match p.server.fillFdset w.readfds (w.numfds - 1) with
  | none => none
  | some (fdset, maxFd) =>
    let done :=
      match w.selected with
      | .ready set packets accepts reads alarms =>
        let ready := fun fd => fdset fd && decide (fd < maxFd + 1) && set fd
        ((p.snmpRead pb m f packets).bind (ipcServerDispatch pb m f ⟨ready, accepts, reads⟩)).bind
          (runAlarms pb m f alarms)
      | .timeout resends alarms =>
        if w.block then none else (p.snmpRead pb m f resends).bind (runAlarms pb m f alarms)
      | .interrupted => some p
    done.map fun p' => ((), p')

end Turn

end Process

/-! ### Runs of the event loop -/

/-- The payload of a frame. -/
def Input.payload : Input → Option Bytes
  | .frame payload _ => some payload
  | _ => none

/-- The payloads of a log that are of a connection. -/
def payloadsOf (n : ℕ) (log : List (ℕ × Bytes)) : List Bytes :=
  log.filterMap fun e => if e.1 = n then some e.2 else none

/-- **A run of the event loop** leads from one subagent to another, and what has been passed to
`handle_frame` in between, for whichever connection, are its frames. -/
def Delivers (pb : PbCodec) (m : Modes) (s s' : Subagent) (handled handled' : ℕ → List Bytes) :
    Prop :=
  ∃ is os log, run (fun u i => Subagent.step m pb.pbDecode u i) s is = some (os, s') ∧
    is.filterMap Input.payload = log.map Prod.snd ∧
    ∀ n, handled' n = handled n ++ payloadsOf n log

section Delivers

variable {pb : PbCodec} {m : Modes} {s s' s'' : Subagent} {h h' h'' : ℕ → List Bytes}

theorem Delivers.refl (s : Subagent) (h : ℕ → List Bytes) : Delivers pb m s s h h :=
  ⟨[], [], [], rfl, rfl, fun _ => (List.append_nil _).symm⟩

theorem Delivers.trans (hd : Delivers pb m s s' h h') (hd' : Delivers pb m s' s'' h' h'') :
    Delivers pb m s s'' h h'' := by
  obtain ⟨is, os, log, hrun, hpayloads, hhandled⟩ := hd
  obtain ⟨is', os', log', hrun', hpayloads', hhandled'⟩ := hd'
  refine ⟨is ++ is', os ++ os', log ++ log', run_trans hrun hrun', ?_, fun n => ?_⟩
  · rw [List.filterMap_append, List.map_append, hpayloads, hpayloads']
  · rw [hhandled', hhandled, payloadsOf, payloadsOf, payloadsOf, List.filterMap_append,
      List.append_assoc]

/-- A turn without a frame. -/
theorem Delivers.of_step {i : Input} {o : Option FrameRecord}
    (hstep : s.step m pb.pbDecode i = some (o, s')) (hi : i.payload = none) (h : ℕ → List Bytes) :
    Delivers pb m s s' h h := by
  refine ⟨[i], [o], [], run_cons_eq_some.mpr ⟨o, [], s', hstep, rfl, rfl⟩, ?_, fun n => ?_⟩
  · simp [hi]
  · exact (List.append_nil _).symm

/-- What `handle_frame` makes of the agent. -/
theorem frameTurn_agent (pb : PbCodec) (m : Modes) (f : ℕ → FrameFaults) (a : Agent) (k : ℕ)
    (payload : Bytes) : (IpcServer.frameTurn pb m f (a, k) payload).1.1 =
      (handleFrame m pb.pbDecode (f k) a payload).2.1 := by
  rw [IpcServer.frameTurn, handleFrame]
  rcases pb.pbDecode payload with _ | req
  · rfl
  · simp only
    rcases answerBody m (f k) a req.body with _ | ⟨body, a'⟩ <;> rfl

variable (pb m) in
/-- **A frame** of a connection. -/
theorem Delivers.frame (f : ℕ → FrameFaults) (a : Agent) (k : ℕ) (pdus : ℕ → Option PendingSet)
    (h : ℕ → List Bytes) (n : ℕ) (payload : Bytes) :
    Delivers pb m ⟨a, pdus⟩ ⟨(IpcServer.frameTurn pb m f (a, k) payload).1.1, pdus⟩ h
      (Function.update h n (h n ++ [payload])) := by
  rw [frameTurn_agent]
  refine ⟨[.frame payload (f k)], [_], [(n, payload)],
    run_cons_eq_some.mpr ⟨_, [], _, rfl, rfl, rfl⟩, rfl, fun n' => ?_⟩
  by_cases hn : n' = n
  · subst hn
    simp [payloadsOf]
  · rw [Function.update_of_ne hn]
    simp [payloadsOf, Ne.symm hn]

end Delivers

/-! ### A call of `ipc_server_dispatch` -/

section Dispatch

variable {pb : PbCodec} {m : Modes} {f : ℕ → FrameFaults} {sv sv' : IpcServer}
  {i : Fin ipcMaxClients} {n : ℕ}

/-- What a call of the server does to the subagent. -/
def IpcServer.Delivers (pb : PbCodec) (m : Modes) (sv sv' : IpcServer) : Prop :=
  ∀ pdus, AgentxSubagent.Delivers pb m ⟨sv.agent, pdus⟩ ⟨sv'.agent, pdus⟩ sv.handled sv'.handled

theorem IpcServer.Delivers.of_eq (hagent : sv'.agent = sv.agent)
    (hhandled : sv'.handled = sv.handled) : sv.Delivers pb m sv' := by
  intro pdus
  rw [hagent, hhandled]
  exact .refl _ _

theorem IpcServer.Delivers.trans {sv₁ : IpcServer} (h : sv.Delivers pb m sv₁)
    (h' : sv₁.Delivers pb m sv') : sv.Delivers pb m sv' :=
  fun pdus => (h pdus).trans (h' pdus)

/-- The connection of a slot that stays in use is what it was. -/
theorem IpcServer.Serves.connection_eq {sv₁ : IpcServer} (h : sv.Serves i sv₁)
    (hi : (sv₁.clients i).inUse = true) : sv₁.connection i = sv.connection i := by
  obtain ⟨-, hfd, hfds⟩ := h.same hi
  rw [IpcServer.connection, IpcServer.connection, hfd, hfds]

variable (pb m f) in
/-- **`handle_frame`** on a client in use. -/
theorem delivers_handleFrame (hi : (sv.clients i).inUse = true) (hn : sv.connection i = some n)
    (payload : Bytes) : sv.Delivers pb m (sv.handleFrame pb m f i payload).2 := by
  intro pdus
  have hnote := IpcServer.note_eq hn payload
  have hframe := Delivers.frame pb m f sv.agent sv.frames pdus sv.handled n payload
  rw [IpcServer.handleFrame_eq pb m f hi, hnote]
  split_ifs
  · exact hframe
  · exact hframe

/-- A `memmove` does nothing to the subagent. -/
theorem delivers_shift (sv : IpcServer) (total : ℕ) : sv.Delivers pb m (sv.shift i total) :=
  .of_eq rfl rfl

variable (pb m f) in
/-- **`drain_frames`**. -/
theorem delivers_drainFrames (fuel : ℕ) : ∀ {sv : IpcServer}, (sv.clients i).inUse = true →
    sv.connection i = some n → sv.Delivers pb m (sv.drainFrames pb m f i fuel).2 := by
  induction fuel with
  | zero => exact fun _ _ => .of_eq rfl rfl
  | succ fuel ih =>
    intro sv hi hn
    rw [IpcServer.drainFrames]
    simp only
    split_ifs
    · exact .of_eq rfl rfl
    · exact .of_eq rfl rfl
    · exact .of_eq rfl rfl
    · exact .of_eq rfl rfl
    generalize ((sv.clients i).client.buf.drop 4).take (frameLen (sv.clients i).client.buf).toNat =
      payload
    have hframe := delivers_handleFrame pb m f hi hn payload
    rw [IpcServer.handleFrame_eq pb m f hi] at hframe ⊢
    have hserves := IpcServer.serves_note (i := i) sv payload
      (IpcServer.frameTurn pb m f (sv.agent, sv.frames) payload).1.1
    have hi₁ : ((sv.note i payload).clients i).inUse = true := by
      rwa [(IpcServer.note_fields sv i payload).1]
    -- the next frame is drained only if the connection stays open
    split_ifs at hframe ⊢
    · have hn₁ := (hserves.connection_eq hi₁).trans hn
      simp only at hframe ⊢
      refine hframe.trans ((delivers_shift _ _).trans (ih ?_ ?_))
      · exact (IpcServer.fd_setClient _ i).2.trans hi₁
      · exact (IpcServer.connection_setClient _ i).trans hn₁
    · exact hframe

variable (pb m f) in
/-- **`service_client`**. -/
theorem delivers_serviceClient (rs : List ReadResult) : ∀ {sv : IpcServer},
    (sv.clients i).inUse = true → sv.connection i = some n →
    sv.Delivers pb m (sv.serviceClient pb m f i rs) := by
  induction rs with
  | nil => exact fun _ _ => .of_eq rfl rfl
  | cons r rs ih =>
    intro sv hi hn
    rw [IpcServer.serviceClient]
    split_ifs
    · exact .of_eq rfl rfl
    rcases sv.read i r with chunk | _ | _ | _ | _
    · rcases chunk with _ | ⟨b, chunk⟩
      · exact .of_eq rfl rfl
      obtain ⟨hserves, hi₁⟩ := IpcServer.serves_fill hi (b :: chunk)
      have hn₁ := (hserves.connection_eq hi₁).trans hn
      have hfill : sv.Delivers pb m (sv.fill i (b :: chunk)) := by
        rw [IpcServer.fill, IpcServer.receive_eq hn]
        exact .of_eq rfl rfl
      simp only
      generalize sv.fill i (b :: chunk) = sv₁ at hi₁ hn₁ hfill ⊢
      have hdrain := delivers_drainFrames pb m f
        ((sv₁.clients i).client.len + 1) hi₁ hn₁
      have hstays := IpcServer.serves_drainFrames pb m f ((sv₁.clients i).client.len + 1) hi₁
      have huse := IpcServer.inUse_drainFrames pb m f ((sv₁.clients i).client.len + 1) hi₁
      rcases hd : sv₁.drainFrames pb m f i ((sv₁.clients i).client.len + 1) with ⟨_ | _, sv₂⟩
      all_goals rw [hd] at hdrain hstays huse
      · exact hfill.trans hdrain
      · exact (hfill.trans hdrain).trans (ih huse ((hstays.connection_eq huse).trans hn₁))
    · exact .of_eq rfl rfl
    · exact .of_eq rfl rfl
    · exact ih hi hn
    · exact .of_eq rfl rfl

/-- New clients are accepted. -/
theorem delivers_acceptNewClients {rs : List IpcServer.AcceptResult} : ∀ {sv sv' : IpcServer},
    IpcServer.acceptNewClients rs sv = some sv' → sv.Delivers pb m sv' := by
  induction rs with
  | nil =>
    intro sv sv' h
    obtain rfl := Option.some.inj h
    exact .of_eq rfl rfl
  | cons r rs ih =>
    intro sv sv' h
    cases r with
    | wouldBlock | failed =>
      obtain rfl := Option.some.inj h
      exact .of_eq rfl rfl
    | interrupted => exact ih h
    | connected fd =>
      rw [IpcServer.acceptNewClients] at h
      split_ifs at h
      rcases hslot : sv.findFreeSlot with _ | i
      · rw [hslot] at h
        have hclosed : sv.Delivers pb m { sv with fds := (sv.fds.accept fd).close fd } :=
          .of_eq rfl rfl
        exact hclosed.trans (ih h)
      · rw [hslot] at h
        have hopened : sv.Delivers pb m (sv.openClient i fd) := .of_eq rfl rfl
        exact hopened.trans (ih h)

/-- **`ipc_server_dispatch` is a run of the event loop**, over the frames of all the slots it
serves. -/
theorem delivers_dispatch (hinv : sv.Inv none) {d : IpcServer.Dispatch}
    (h : sv.dispatch pb m f d = some sv') : sv.Delivers pb m sv' := by
  have hloop : ∀ (is : List (Fin ipcMaxClients)) {sv : IpcServer}, sv.Inv none →
      sv.Delivers pb m (is.foldl (fun sv i =>
        if (sv.clients i).inUse && d.readfds (sv.clients i).fd then
          sv.serviceClient pb m f i (d.reads i) else sv) sv) := by
    intro is
    induction is with
    | nil => exact fun _ => .of_eq rfl rfl
    | cons i is ih =>
      intro sv hinv
      rw [List.foldl_cons]
      split_ifs with hready
      · have hi := (Bool.and_eq_true_iff.mp hready).1
        obtain ⟨n, hn, -⟩ := hinv.exists_connection hi
        exact (delivers_serviceClient pb m f _ hi hn).trans (ih (hinv.serviceClient pb m f _ hi))
      · exact ih hinv
  rw [IpcServer.dispatch] at h
  split_ifs at h
  · obtain rfl := Option.some.inj h
    exact .of_eq rfl rfl
  · obtain ⟨sv₁, haccept, rfl⟩ := Option.map_eq_some_iff.mp h
    exact (delivers_acceptNewClients haccept).trans (hloop _ (hinv.acceptNewClients haccept))
  · obtain ⟨sv₁, hsame, rfl⟩ := Option.map_eq_some_iff.mp h
    obtain rfl := Option.some.inj hsame
    exact hloop _ hinv

end Dispatch

/-! ### A turn of the loop -/

/-- **What the loop keeps**: the books of the server, and what net-snmp and LMDB have open. -/
structure Process.Inv (l : ℤ) (p : Process) : Prop where
  books : p.server.Inv none
  steady : p.server.Steady l p.others

/-- What has been done to a process kept its books, and did to the subagent what a run of the event
loop does. -/
structure Process.Advances (pb : PbCodec) (m : Modes) (l : ℤ) (p p' : Process) : Prop where
  inv : p'.Inv l
  delivers : Delivers pb m p.subagent p'.subagent p.server.handled p'.server.handled

namespace Process

section Advance

variable {pb : PbCodec} {m : Modes} {f : ℕ → FrameFaults} {l : ℤ} {p p' p₁ : Process} {u : Unit}

theorem Advances.refl (h : p.Inv l) : p.Advances pb m l p := ⟨h, .refl _ _⟩

theorem Advances.trans (h : p.Advances pb m l p₁) (h' : p₁.Advances pb m l p') :
    p.Advances pb m l p' :=
  ⟨h'.inv, h.delivers.trans h'.delivers⟩

/-- A run of steps that advance advances. -/
theorem Advances.run {ε : Type} {g : Process → ε → Option (Unit × Process)}
    (hg : ∀ p e u p', p.Inv l → g p e = some (u, p') → p.Advances pb m l p') (h : p.Inv l)
    {es : List ε} {us : List Unit} (hrun : Runs.run g p es = some (us, p')) :
    p.Advances pb m l p' :=
  run_invariant (I := fun q => p.Advances pb m l q)
    (fun e _ q u q' hq hstep => hq.trans (hg q e u q' hq.inv hstep)) (.refl h) hrun

/-- A handler does not touch the descriptors. -/
theorem advances_call (h : p.Inv l) {i : Input} (hi : i.payload = none)
    (hcall : p.call pb m i = some (u, p')) : p.Advances pb m l p' := by
  obtain ⟨⟨o, s⟩, hstep, heq⟩ := Option.map_eq_some_iff.mp hcall
  obtain rfl : _ = p' := congrArg Prod.snd heq
  obtain ⟨hlisten, hfree, hother, hnonneg⟩ := h.steady
  exact ⟨⟨h.books.setAgent s.agent, hlisten, hfree, hother, hnonneg⟩, .of_step hstep hi _⟩

/-- A call of the server that leaves the SETs. -/
theorem advances_server (h : p.Inv l) {e : IpcServer.Event} {sv : IpcServer}
    (hstep : p.server.step pb m f e = some (u, sv)) (hdelivers : p.server.Delivers pb m sv) :
    p.Advances pb m l ⟨sv, e.others p.others, p.pdus⟩ :=
  ⟨⟨h.books.step hstep, h.steady.step h.books hstep⟩, hdelivers p.pdus⟩

/-- **What net-snmp does**. -/
theorem advances_net (h : p.Inv l) {e : NetEvent} (hnet : p.net pb m f e = some (u, p')) :
    p.Advances pb m l p' := by
  cases e with
  | reserve1 t vbs => exact advances_call h rfl hnet
  | phase t mode g => exact advances_call h rfl hnet
  | opens fd =>
    obtain ⟨⟨u', sv⟩, hstep, heq⟩ := Option.map_eq_some_iff.mp hnet
    obtain rfl : _ = p' := congrArg Prod.snd heq
    refine advances_server h hstep ?_
    rw [IpcServer.step] at hstep
    split_ifs at hstep
    obtain rfl : _ = sv := congrArg Prod.snd (Option.some.inj hstep)
    exact .of_eq rfl rfl
  | closes fd =>
    obtain ⟨⟨u', sv⟩, hstep, heq⟩ := Option.map_eq_some_iff.mp hnet
    obtain rfl : _ = p' := congrArg Prod.snd heq
    refine advances_server h hstep ?_
    rw [IpcServer.step] at hstep
    split_ifs at hstep
    obtain rfl : _ = sv := congrArg Prod.snd (Option.some.inj hstep)
    exact .of_eq rfl rfl

/-- An alarm. -/
theorem advances_alarm (h : p.Inv l) {e : AlarmEvent} (halarm : p.alarm pb m f e = some (u, p')) :
    p.Advances pb m l p' := by
  cases e with
  | tempAlarm af => exact advances_call h rfl halarm
  | net e => exact advances_net h halarm

theorem advances_snmpRead (h : p.Inv l) {events : List NetEvent}
    (hread : p.snmpRead pb m f events = some p') : p.Advances pb m l p' := by
  obtain ⟨⟨us, p₁⟩, hrun, rfl⟩ := Option.map_eq_some_iff.mp hread
  exact .run (fun _ _ _ _ h hstep => advances_net h hstep) h hrun

theorem advances_runAlarms (h : p.Inv l) {alarms : List AlarmEvent}
    (halarms : p.runAlarms pb m f alarms = some p') : p.Advances pb m l p' := by
  obtain ⟨⟨us, p₁⟩, hrun, rfl⟩ := Option.map_eq_some_iff.mp halarms
  exact .run (fun _ _ _ _ h hstep => advances_alarm h hstep) h hrun

theorem advances_ipcServerDispatch (h : p.Inv l) {d : IpcServer.Dispatch}
    (hd : p.ipcServerDispatch pb m f d = some p') : p.Advances pb m l p' := by
  obtain ⟨⟨u, sv⟩, hstep, rfl⟩ := Option.map_eq_some_iff.mp hd
  obtain ⟨sv', hdispatch, heq⟩ := Option.map_eq_some_iff.mp hstep
  obtain rfl : sv' = sv := congrArg Prod.snd heq
  exact advances_server h hstep (delivers_dispatch h.books hdispatch)

/-- **A turn of the loop is a run of the event loop**, and keeps the books. -/
theorem advances_turn (h : p.Inv l) {w : Wakeup} (hturn : p.turn pb m f w = some (u, p')) :
    p.Advances pb m l p' := by
  rw [turn] at hturn
  rcases hfill : p.server.fillFdset w.readfds (w.numfds - 1) with _ | ⟨fdset, maxFd⟩
  · rw [hfill] at hturn
    exact absurd hturn (by simp)
  rw [hfill] at hturn
  obtain ⟨p₂, hdone, heq⟩ := Option.map_eq_some_iff.mp hturn
  obtain rfl : p₂ = p' := congrArg Prod.snd heq
  rcases hselected : w.selected with ⟨set, packets, accepts, reads, alarms⟩ | ⟨resends, alarms⟩ | _
  all_goals
    rw [hselected] at hdone
    simp only at hdone
  · obtain ⟨p₃, hdone, halarms⟩ := Option.bind_eq_some_iff.mp hdone
    obtain ⟨p₁, hread, hdispatch⟩ := Option.bind_eq_some_iff.mp hdone
    have hread := advances_snmpRead h hread
    have hdispatch := hread.trans (advances_ipcServerDispatch hread.inv hdispatch)
    exact hdispatch.trans (advances_runAlarms hdispatch.inv halarms)
  · split_ifs at hdone
    obtain ⟨p₁, hread, halarms⟩ := Option.bind_eq_some_iff.mp hdone
    have hread := advances_snmpRead h hread
    exact hread.trans (advances_runAlarms hread.inv halarms)
  · obtain rfl := Option.some.inj hdone
    exact .refl h

/-- **And so is the loop.** -/
theorem advances_loop (h : p.Inv l) {ws : List Wakeup} {us : List Unit}
    (hrun : Runs.run (fun p w => turn pb m f p w) p ws = some (us, p')) : p.Advances pb m l p' :=
  .run (fun _ _ _ _ h hstep => advances_turn h hstep) h hrun

end Advance

end Process

end AgentxSubagent
