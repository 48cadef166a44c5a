import AgentxSubagent.Ipc.Slots
import AgentxSubagent.Lib.Loops

/-!
# The system calls of a dispatch

`ipc_server_dispatch` of `src/ipc_server.c` down to its system calls. Four loops in it have no bound
of their own: `accept_new_clients` accepts until there is nobody left, `service_client` reads until
there is nothing left, `drain_frames` handles frames until the buffer holds less than one, and
`send_all` writes until everything is written, waiting with `poll()` whenever there is no room. What
makes them end is what the kernel answers, and that is up to the peers.

`AgentxSubagent.Conduct` is all the answers, for as many calls as may be made, and every loop runs
under a bound on its turns (`Loops.loop`); a turn makes a handful of system calls at most. The
functions keep the names they have in `AgentxSubagent.IpcServer`, where the answers are lists that
run out, and whether a response could be sent is given:

* `AgentxSubagent.Conduct.dispatch_eq`: where the call returns, it is the one there.

Whether it returns is the subject of `AgentxSubagent.dispatch_returns_iff`.
-/

namespace AgentxSubagent

open Loops

/-! ### What the kernel answers -/

/-- What `write()` answers. -/
inductive WriteResult
  | wrote (n : ℕ)
  | wouldBlock
  | interrupted
  | failed

/-- **A peer during one call**: what the reads and the writes on its connection answer, one after
the other. -/
structure Peer where
  reads : ℕ → ReadResult
  writes : ℕ → WriteResult

/-- **All there is outside of the server during one call**: what `accept()` answers, and the peer
of each slot. -/
structure Conduct where
  accepts : ℕ → IpcServer.AcceptResult
  peers : Fin ipcMaxClients → Peer

/-! ### The functions -/

/-- `send_all` on its way: `off`, and the number of calls of `write()` on the connection. -/
structure Sending where
  off : ℕ
  writes : ℕ

/-- `drain_frames` on its way: the server, and the number of calls of `write()`. -/
structure Draining where
  server : IpcServer
  writes : ℕ

/-- `service_client` on its way: the server, and the numbers of calls of `read()` and of
`write()`. -/
structure Servicing where
  server : IpcServer
  reads : ℕ
  writes : ℕ

/-- `accept_new_clients` on its way: the server, and the number of calls of `accept()`. -/
structure Accepting where
  server : IpcServer
  accepts : ℕ

namespace Peer

variable (p : Peer)

/-- A turn of the loop of `send_all`, for a buffer of `len` bytes; `write()` takes no more than
there are. -/
def sendTurn (len : ℕ) (s : Sending) : Turn Sending (Bool × ℕ) :=
  if s.off < len then
    match p.writes s.writes with
    | .wrote 0 => .leave (false, s.writes + 1)
    | .wrote n => .next ⟨s.off + min n (len - s.off), s.writes + 1⟩
    | .interrupted => .next ⟨s.off, s.writes + 1⟩
    -- `poll()` waits for a second; the loop goes on whatever it answers
    | .wouldBlock => .next ⟨s.off, s.writes + 1⟩
    | .failed => .leave (false, s.writes + 1)
  else .leave (true, s.writes)

/-- `send_all`, after `writes` calls of `write()`: whether all was sent, and the calls after it. -/
def sendAll (len bound writes : ℕ) : Option (Bool × ℕ) :=
  loop (fun s => some (p.sendTurn len s)) bound ⟨0, writes⟩

variable (pb : PbCodec) (m : Modes) (f : ℕ → FrameFaults) (i : Fin ipcMaxClients)

/-- `send_envelope`. -/
def sendEnvelope (env : Envelope) (bound : ℕ) (d : Draining) : Option Draining :=
  match AgentxSubagent.sendEnvelope pb env with
  | none => some ⟨d.server.closeClient i, d.writes⟩
  | some frame =>
    (p.sendAll frame.length bound d.writes).map fun r =>
      ⟨if r.1 then d.server else d.server.closeClient i, r.2⟩

/-- `handle_frame`; `f k` is what else fails for the `k`-th frame of the server. -/
def handleFrame (payload : Bytes) (bound : ℕ) (d : Draining) : Option (Bool × Draining) :=
  let faults := f d.server.frames
  let sv := d.server.note i payload
  match pb.pbDecode payload with
  | none => some (false, ⟨sv.closeClient i, d.writes⟩)
  | some req =>
    match answerBody m faults sv.agent req.body with
    | none => some (false, ⟨sv.closeClient i, d.writes⟩)
    | some (body, agent) =>
      (p.sendEnvelope pb i ⟨req.requestId, body⟩ bound ⟨sv.setAgent agent, d.writes⟩).map fun d =>
        ((d.server.clients i).inUse, d)

/-- A turn of the loop of `drain_frames`. -/
def drainTurn (bound : ℕ) (d : Draining) : Option (Turn Draining (Bool × Draining)) :=
  let sv := d.server
  let c := (sv.clients i).client
  if c.len < 4 then some (.leave (true, d))
  else
    let n := (frameLen c.buf).toNat
    if n = 0 then some (.leave (false, ⟨sv.closeClient i, d.writes⟩))
    else if n > ipcMaxFrameLen then some (.leave (false, ⟨sv.closeClient i, d.writes⟩))
    else
      let total := 4 + n
      if c.len < total then some (.leave (true, d))
      else
        (p.handleFrame pb m f i ((c.buf.drop 4).take n) bound d).map fun r =>
          if r.1 then .next ⟨r.2.server.shift i total, r.2.writes⟩ else .leave (false, r.2)

/-- `drain_frames`. -/
def drainFrames (bound : ℕ) (d : Draining) : Option (Bool × Draining) :=
  loop (p.drainTurn pb m f i bound) bound d

/-- A turn of the loop of `service_client`. A read of no bytes is an end of file. -/
def serviceTurn (bound : ℕ) (s : Servicing) : Option (Turn Servicing IpcServer) :=
  let sv := s.server
  if (sv.clients i).client.len ≥ ipcClientBufSize then some (.leave (sv.closeClient i))
  else
    match sv.read i (p.reads s.reads) with
    | .data [] => some (.leave (sv.closeClient i))
    | .data (b :: chunk) =>
      (p.drainFrames pb m f i bound ⟨sv.fill i (b :: chunk), s.writes⟩).map fun r =>
        if r.1 then .next ⟨r.2.server, s.reads + 1, r.2.writes⟩ else .leave r.2.server
    | .endOfFile => some (.leave (sv.closeClient i))
    | .wouldBlock => some (.leave sv)
    | .interrupted => some (.next ⟨sv, s.reads + 1, s.writes⟩)
    | .failed => some (.leave (sv.closeClient i))

/-- `service_client`. -/
def serviceClient (bound : ℕ) (sv : IpcServer) : Option IpcServer :=
  loop (p.serviceTurn pb m f i bound) bound ⟨sv, 0, 0⟩

end Peer

namespace Conduct

variable (c : Conduct)

/-- A turn of the loop of `accept_new_clients`. -/
def acceptTurn (s : Accepting) : Turn Accepting IpcServer :=
  let sv := s.server
  match c.accepts s.accepts with
  | .wouldBlock => .leave sv
  | .interrupted => .next ⟨sv, s.accepts + 1⟩
  | .failed => .leave sv
  | .connected fd =>
    match sv.findFreeSlot with
    | none => .next ⟨{ sv with fds := (sv.fds.accept fd).close fd }, s.accepts + 1⟩
    | some i => .next ⟨sv.openClient i fd, s.accepts + 1⟩

/-- `accept_new_clients`. -/
def acceptNewClients (bound : ℕ) (sv : IpcServer) : Option IpcServer :=
  loop (fun s => some (c.acceptTurn s)) bound ⟨sv, 0⟩

variable (pb : PbCodec) (m : Modes) (f : ℕ → FrameFaults) (readfds : ℤ → Bool)

/-- What `ipc_server_dispatch` does for one slot. -/
def serveSlot (bound : ℕ) (sv : IpcServer) (i : Fin ipcMaxClients) : Option IpcServer :=
  if (sv.clients i).inUse && readfds (sv.clients i).fd then
    (c.peers i).serviceClient pb m f i bound sv
  else some sv

/-- `ipc_server_dispatch`, where no loop may take more than `bound` turns. -/
def dispatch (bound : ℕ) (sv : IpcServer) : Option IpcServer :=
  if sv.listenFd < 0 then some sv
  else
    (if readfds sv.listenFd then c.acceptNewClients bound sv else some sv).bind fun sv =>
      (List.finRange ipcMaxClients).foldlM (c.serveSlot pb m f readfds bound) sv

/-- **The call returns**: there is a number of turns that no loop in it needs more of. -/
def Returns (sv : IpcServer) : Prop := ∃ bound sv', c.dispatch pb m f readfds bound sv = some sv'

end Conduct

/-! ### What is left of a client -/

namespace Peer

section Clients

variable {p : Peer} {pb : PbCodec} {m : Modes} {f : ℕ → FrameFaults} {i : Fin ipcMaxClients}
  {bound : ℕ}

/-- `send_envelope` leaves the server alone or closes the client. -/
theorem sendEnvelope_cases {env : Envelope} {d d' : Draining}
    (h : p.sendEnvelope pb i env bound d = some d') :
    d'.server = d.server ∨ d'.server = d.server.closeClient i := by
  rw [sendEnvelope] at h
  rcases hframe : AgentxSubagent.sendEnvelope pb env with _ | frame
  · rw [hframe] at h
    obtain rfl := Option.some.inj h
    exact Or.inr rfl
  · rw [hframe] at h
    obtain ⟨⟨sent, writes⟩, -, rfl⟩ := Option.map_eq_some_iff.mp h
    cases sent with
    | true => exact Or.inl rfl
    | false => exact Or.inr rfl

/-- `handle_frame` leaves the slots alone if the client is still there. -/
theorem clients_of_handleFrame {payload : Bytes} {d : Draining} {r : Bool × Draining}
    (h : p.handleFrame pb m f i payload bound d = some r) (hr : r.1 = true) :
    r.2.server.clients = d.server.clients := by
  have hnote := (IpcServer.note_fields d.server i payload).1
  simp only [handleFrame] at h
  rcases hdecode : pb.pbDecode payload with _ | req
  · rw [hdecode] at h
    obtain rfl := Option.some.inj h
    exact absurd hr (by simp)
  simp only [hdecode] at h
  rcases hanswer : answerBody m (f d.server.frames) (d.server.note i payload).agent req.body
    with _ | ⟨body, agent⟩
  · rw [hanswer] at h
    obtain rfl := Option.some.inj h
    exact absurd hr (by simp)
  · rw [hanswer] at h
    obtain ⟨d', hsend, rfl⟩ := Option.map_eq_some_iff.mp h
    obtain hsame | hclosed := sendEnvelope_cases hsend
    · rw [hsame]
      exact hnote
    · have hgone : (d'.server.clients i).inUse = false := by
        rw [hclosed]
        exact IpcServer.inUse_closeClient
      exact absurd (hgone.symm.trans hr) (by simp)

/-- What is in the buffer after the `memmove`. -/
theorem len_shift {sv sv' : IpcServer} (h : sv'.clients = sv.clients) (total : ℕ) :
    ((sv'.shift i total).clients i).client.len = (sv.clients i).client.len - total := by
  rw [IpcServer.shift, IpcServer.clients_setClient_self, h]
  rfl

end Clients

end Peer

/-! ### Calls that return -/

/-- The faults `f` with `u k` for whether the answer to the `k`-th frame cannot be sent. -/
def withUnsent (f : ℕ → FrameFaults) (u : ℕ → Bool) (k : ℕ) : FrameFaults :=
  { f k with unsent := u k }

/-- **A part of a call, from `sv` to `sv'`, does what `does` says**, once it is known which of its
answers cannot be sent; the frames before `sv` are not concerned. -/
structure Follows (f : ℕ → FrameFaults) (sv sv' : IpcServer) (does : (ℕ → FrameFaults) → Prop) :
    Prop where
  frames_le : sv.frames ≤ sv'.frames
  exists_unsent : ∀ u₀ : ℕ → Bool, ∃ u₁ : ℕ → Bool, (∀ k < sv.frames, u₁ k = u₀ k) ∧
    ∀ u, (∀ k < sv'.frames, u k = u₁ k) → does (withUnsent f u)

section Follows

variable {f : ℕ → FrameFaults} {sv sv₁ sv' : IpcServer}

/-- A part that does not depend on it. -/
theorem Follows.of_forall {does : (ℕ → FrameFaults) → Prop} (h : ∀ u, does (withUnsent f u))
    (hframes : sv.frames ≤ sv'.frames) : Follows f sv sv' does :=
  ⟨hframes, fun u₀ => ⟨u₀, fun _ _ => rfl, fun u _ => h u⟩⟩

/-- A part in which one answer is sent or not. -/
theorem Follows.of_next {does : (ℕ → FrameFaults) → Prop} (unsent : Bool)
    (h : ∀ u : ℕ → Bool, u sv.frames = unsent → does (withUnsent f u))
    (hframes : sv'.frames = sv.frames + 1) : Follows f sv sv' does := by
  refine ⟨by omega, fun u₀ => ⟨Function.update u₀ sv.frames unsent, fun k hk => ?_, fun u hu => ?_⟩⟩
  · exact Function.update_of_ne hk.ne _ _
  · refine h u ?_
    rw [hu _ (by omega), Function.update_self]

/-- **One part after the other.** -/
theorem Follows.trans {does₁ does₂ does : (ℕ → FrameFaults) → Prop} (h₁ : Follows f sv sv₁ does₁)
    (h₂ : Follows f sv₁ sv' does₂) (h : ∀ g, does₁ g → does₂ g → does g) :
    Follows f sv sv' does := by
  refine ⟨h₁.frames_le.trans h₂.frames_le, fun u₀ => ?_⟩
  obtain ⟨u₁, hu₁, hdoes₁⟩ := h₁.exists_unsent u₀
  obtain ⟨u₂, hu₂, hdoes₂⟩ := h₂.exists_unsent u₁
  refine ⟨u₂, fun k hk => ?_, fun u hu => ?_⟩
  · rw [hu₂ k (lt_of_lt_of_le hk h₁.frames_le), hu₁ k hk]
  · refine h _ (hdoes₁ u fun k hk => ?_) (hdoes₂ u hu)
    rw [hu k (lt_of_lt_of_le hk h₂.frames_le), hu₂ k hk]

/-- Only the number of frames matters of where the part ends. -/
theorem Follows.of_frames_eq {does : (ℕ → FrameFaults) → Prop} (h : Follows f sv sv' does)
    (sv₁ : IpcServer) (hframes : sv₁.frames = sv'.frames) : Follows f sv sv₁ does :=
  ⟨hframes ▸ h.frames_le, hframes ▸ h.exists_unsent⟩

theorem Follows.imp {does does' : (ℕ → FrameFaults) → Prop} (h : Follows f sv sv' does)
    (himp : ∀ g, does g → does' g) : Follows f sv sv' does' :=
  ⟨h.frames_le, fun u₀ => (h.exists_unsent u₀).imp fun _ hu =>
    ⟨hu.1, fun u hagree => himp _ (hu.2 u hagree)⟩⟩

end Follows

namespace Peer

section Agree

variable {p : Peer} {pb : PbCodec} {m : Modes} {f : ℕ → FrameFaults} {i : Fin ipcMaxClients}
  {bound : ℕ}

/-- An answer does not depend on whether it can be sent. -/
theorem answerBody_withUnsent (u : ℕ → Bool) (k : ℕ) (a : Agent) (body : Body) :
    answerBody m (withUnsent f u k) a body = answerBody m (f k) a body := by
  cases body <;> rfl

/-- **`handle_frame`**, with what became of the answer. -/
theorem handleFrame_follows {payload : Bytes} {d : Draining} {r : Bool × Draining}
    (h : p.handleFrame pb m f i payload bound d = some r) :
    Follows f d.server r.2.server fun g =>
      IpcServer.handleFrame pb m g i payload d.server = (r.1, r.2.server) := by
  have hframes := (IpcServer.note_fields d.server i payload).2.2.2
  simp only [handleFrame] at h
  rcases hdecode : pb.pbDecode payload with _ | req
  · simp only [hdecode, Option.some.injEq] at h
    subst h
    refine .of_next false (fun u _ => ?_) hframes
    simp only [IpcServer.handleFrame, hdecode]
  simp only [hdecode] at h
  rcases hanswer : answerBody m (f d.server.frames) (d.server.note i payload).agent req.body
    with _ | ⟨body, agent⟩
  · simp only [hanswer, Option.some.injEq] at h
    subst h
    refine .of_next false (fun u _ => ?_) hframes
    simp only [IpcServer.handleFrame, hdecode, answerBody_withUnsent, hanswer]
  · simp only [hanswer, sendEnvelope] at h
    rcases hframe : AgentxSubagent.sendEnvelope pb ⟨req.requestId, body⟩ with _ | frame
    · simp only [hframe, Option.map_some, Option.some.injEq] at h
      subst h
      refine .of_next false (fun u _ => ?_) hframes
      simp only [IpcServer.handleFrame, hdecode, answerBody_withUnsent, hanswer,
        IpcServer.sendEnvelope, hframe]
    · simp only [hframe, Option.map_map, Option.map_eq_some_iff] at h
      obtain ⟨⟨sent, writes⟩, -, rfl⟩ := h
      cases sent with
      | true =>
        refine .of_next false (fun u hu => ?_) hframes
        have hunsent : (withUnsent f u d.server.frames).unsent = false := hu
        simp only [IpcServer.handleFrame, hdecode, answerBody_withUnsent, hanswer,
          IpcServer.sendEnvelope, hframe, hunsent]
        rfl
      | false =>
        refine .of_next true (fun u hu => ?_) hframes
        have hunsent : (withUnsent f u d.server.frames).unsent = true := hu
        simp only [IpcServer.handleFrame, hdecode, answerBody_withUnsent, hanswer,
          IpcServer.sendEnvelope, hframe, hunsent]
        rfl

/-- **`drain_frames`**, which needs no more turns than there are bytes, and one. -/
theorem drainFrames_follows {n : ℕ} {d : Draining} {r : Bool × Draining}
    (h : loop (p.drainTurn pb m f i bound) n d = some r) :
    Follows f d.server r.2.server fun g => ∀ fuel ≥ (d.server.clients i).client.len,
      IpcServer.drainFrames pb m g i (fuel + 1) d.server = (r.1, r.2.server) := by
  induction n generalizing d with
  | zero => exact absurd h (by simp [loop])
  | succ n ih =>
    rw [loop] at h
    simp only [drainTurn] at h
    simp only [IpcServer.drainFrames]
    split_ifs at h ⊢ with h4 h0 hbig hlen
    · obtain rfl := Option.some.inj h
      exact .of_forall (fun _ _ _ => rfl) le_rfl
    · obtain rfl := Option.some.inj h
      exact .of_forall (fun _ _ _ => rfl) le_rfl
    · obtain rfl := Option.some.inj h
      exact .of_forall (fun _ _ _ => rfl) le_rfl
    · obtain rfl := Option.some.inj h
      exact .of_forall (fun _ _ _ => rfl) le_rfl
    · rcases hhandle : p.handleFrame pb m f i (((d.server.clients i).client.buf.drop 4).take
        (frameLen (d.server.clients i).client.buf).toNat) bound d with _ | ⟨_ | _, d₁⟩
      · simp [hhandle] at h
      · simp only [hhandle, Option.map_some, Bool.false_eq_true, if_false, Option.some.injEq] at h
        subst h
        refine (handleFrame_follows hhandle).imp fun g hg fuel _ => ?_
        rw [hg]
      · simp only [hhandle, Option.map_some, if_true] at h
        -- moving the rest of the buffer down does not count as a frame
        have hhead := (handleFrame_follows hhandle).of_frames_eq (d₁.server.shift i
          (4 + (frameLen (d.server.clients i).client.buf).toNat)) rfl
        refine hhead.trans (ih h) fun g hg hrest fuel hfuel => ?_
        rw [len_shift (clients_of_handleFrame hhandle rfl)] at hrest
        obtain ⟨fuel, rfl⟩ := Nat.exists_eq_succ_of_ne_zero (n := fuel) (by omega)
        rw [hg]
        exact hrest fuel (by omega)

theorem frames_fill (sv : IpcServer) (chunk : Bytes) : (sv.fill i chunk).frames = sv.frames := by
  rw [IpcServer.fill, IpcServer.receive]
  split
  · rfl
  · rfl

/-- **`service_client`** on the reads that `n` turns can make. -/
theorem serviceClient_follows {n : ℕ} {s : Servicing} {sv' : IpcServer}
    (h : loop (p.serviceTurn pb m f i bound) n s = some sv') :
    Follows f s.server sv' fun g => IpcServer.serviceClient pb m g i
      ((List.range' s.reads n).map p.reads) s.server = sv' := by
  induction n generalizing s with
  | zero => exact absurd h (by simp [loop])
  | succ n ih =>
    rw [loop] at h
    simp only [List.range'_succ, List.map_cons, IpcServer.serviceClient]
    simp only [serviceTurn] at h
    split_ifs at h ⊢ with hfull
    · obtain rfl := Option.some.inj h
      exact .of_forall (fun _ => rfl) le_rfl
    generalize s.server.read i (p.reads s.reads) = result at h ⊢
    rcases result with (_ | ⟨b, chunk⟩) | _ | _ | _ | _
    · obtain rfl := Option.some.inj h
      exact .of_forall (fun _ => rfl) le_rfl
    · simp only at h ⊢
      have hread : Follows f s.server (s.server.fill i (b :: chunk)) fun _ => True :=
        .of_forall (fun _ => trivial) (frames_fill ..).ge
      rcases hdrain : p.drainFrames pb m f i bound ⟨s.server.fill i (b :: chunk), s.writes⟩
        with _ | ⟨_ | _, d⟩
      · simp [hdrain] at h
      · simp only [hdrain, Option.map_some, Bool.false_eq_true, if_false, Option.some.injEq] at h
        subst h
        refine hread.trans (drainFrames_follows hdrain) fun g _ hg => ?_
        rw [hg _ le_rfl]
      · simp only [hdrain, Option.map_some, if_true] at h
        have hhead := hread.trans (drainFrames_follows hdrain) fun g _ hg => hg
        refine hhead.trans (ih h) fun g hg hrest => ?_
        rw [hg _ le_rfl]
        exact hrest
    · obtain rfl := Option.some.inj h
      exact .of_forall (fun _ => rfl) le_rfl
    · obtain rfl := Option.some.inj h
      exact .of_forall (fun _ => rfl) le_rfl
    · exact ih h
    · obtain rfl := Option.some.inj h
      exact .of_forall (fun _ => rfl) le_rfl

end Agree

end Peer

namespace Conduct

section Agree

variable {c : Conduct} {pb : PbCodec} {m : Modes} {f : ℕ → FrameFaults} {readfds : ℤ → Bool}
  {bound : ℕ}

/-- **`accept_new_clients`** on the calls that `n` turns can make, if the descriptors it is given
were not open. -/
theorem acceptNewClients_agrees {n : ℕ} {s : Accepting} {sv sv' : IpcServer}
    (h : loop (fun s => some (c.acceptTurn s)) n s = some sv)
    (h' : IpcServer.acceptNewClients ((List.range' s.accepts n).map c.accepts) s.server =
      some sv') : sv' = sv := by
  induction n generalizing s with
  | zero => exact absurd h (by simp [loop])
  | succ n ih =>
    rw [loop] at h
    simp only [acceptTurn] at h
    rw [List.range'_succ, List.map_cons] at h'
    generalize c.accepts s.accepts = result at h h'
    rcases result with fd | _ | _ | _
    · rw [IpcServer.acceptNewClients] at h'
      split_ifs at h'
      rcases hslot : s.server.findFreeSlot with _ | i
      · simp only [hslot] at h h'
        exact ih h h'
      · simp only [hslot] at h h'
        exact ih h h'
    · exact Option.some.inj (h'.symm.trans h)
    · exact ih h h'
    · exact Option.some.inj (h'.symm.trans h)

/-- **The loop of `ipc_server_dispatch`.** -/
theorem serveSlots_follows {is : List (Fin ipcMaxClients)} {sv sv' : IpcServer}
    (h : is.foldlM (c.serveSlot pb m f readfds bound) sv = some sv') :
    Follows f sv sv' fun g => is.foldl (fun sv i =>
      if (sv.clients i).inUse && readfds (sv.clients i).fd then
        IpcServer.serviceClient pb m g i ((List.range' 0 bound).map (c.peers i).reads) sv
      else sv) sv = sv' := by
  induction is generalizing sv with
  | nil =>
    obtain rfl := Option.some.inj h
    exact .of_forall (fun _ => rfl) le_rfl
  | cons i is ih =>
    rw [List.foldlM_cons] at h
    obtain ⟨sv₁, hslot, hrest⟩ := Option.bind_eq_some_iff.mp h
    have hhead : Follows f sv sv₁ fun g =>
        (if (sv.clients i).inUse && readfds (sv.clients i).fd then
          IpcServer.serviceClient pb m g i ((List.range' 0 bound).map (c.peers i).reads) sv
        else sv) = sv₁ := by
      rw [serveSlot] at hslot
      split_ifs at hslot ⊢
      · exact Peer.serviceClient_follows hslot
      · obtain rfl := Option.some.inj hslot
        exact .of_forall (fun _ => rfl) le_rfl
    refine hhead.trans (ih hrest) fun g hg hrest => ?_
    rw [List.foldl_cons, hg]
    exact hrest

/-- **Where the call returns, it is the call of the table of clients**: on the answers it can have
asked for, with some of the answers to requests not sent. -/
theorem dispatch_eq {sv sv' : IpcServer}
    (h : c.dispatch pb m f readfds bound sv = some sv')
    (hfds : IpcServer.acceptNewClients ((List.range' 0 bound).map c.accepts) sv ≠ none) :
    ∃ u, IpcServer.dispatch pb m (withUnsent f u) ⟨readfds, (List.range' 0 bound).map c.accepts,
      fun i => (List.range' 0 bound).map (c.peers i).reads⟩ sv = some sv' := by
  obtain ⟨sv₁, hsv₁⟩ := Option.ne_none_iff_exists'.mp hfds
  by_cases hlisten : sv.listenFd < 0
  · refine ⟨fun _ => false, ?_⟩
    rw [dispatch, if_pos hlisten] at h
    rw [IpcServer.dispatch, if_pos hlisten, h]
  · rw [dispatch, if_neg hlisten] at h
    obtain ⟨sv₂, haccept, hloop⟩ := Option.bind_eq_some_iff.mp h
    obtain ⟨u, -, hdoes⟩ := (serveSlots_follows hloop).exists_unsent fun _ => false
    have hslots := hdoes u fun _ _ => rfl
    refine ⟨u, ?_⟩
    have hsame : (if readfds sv.listenFd then
        IpcServer.acceptNewClients ((List.range' 0 bound).map c.accepts) sv else some sv) =
          some sv₂ := by
      split_ifs at haccept ⊢
      · rw [hsv₁, acceptNewClients_agrees haccept hsv₁]
      · exact haccept
    rw [IpcServer.dispatch, if_neg hlisten]
    simp only
    rw [hsame, Option.map_some, hslots]

end Agree

end Conduct

end AgentxSubagent
