import AgentxSubagent.Ipc.Client
import AgentxSubagent.Lib.Descriptors

/-!
# The table of clients

`ipc_server_dispatch` of `src/ipc_server.c` with all it calls, on the table of eight clients and
the descriptors of the process. A client can be closed in `drain_frames`, in `service_client`, in
`handle_frame` and in `send_envelope`, and the caller hears of it through a boolean or by looking
at `in_use`; the slot and the number of the descriptor are then used again. What must not happen is
that a descriptor is closed twice, forgotten or shared, or that a client is served bytes that
another one left in the buffer.

Connections are counted as they are accepted (`Descriptors.Table`), and what is read on a
connection and what is passed to `handle_frame` for it is recorded under its number. The buffer of
a slot is never cleared: a closed client only has its length set to zero, and so has a new one.

* `AgentxSubagent.IpcServer.Inv`: the books of the descriptors are kept, and for every slot in use
  the bytes read on its connection are the frames that were handled and then the valid bytes of the
  buffer.
* `AgentxSubagent.IpcServer.serviceClient_shows`: on a slot in use, `service_client` is the framing
  of `AgentxSubagent.serviceClient`.
* `AgentxSubagent.slots_neither_leaked_nor_shared`: what the invariant means for every state that
  can be reached.
-/

namespace AgentxSubagent

open Descriptors Runs

/-! ### The state -/

/-- `IPC_MAX_CLIENTS`. -/
def ipcMaxClients : ℕ := 8

/-- An `ipc_client_t`; `client` is its `buf` and `len`. -/
structure ClientSlot where
  fd : ℤ
  inUse : Bool
  client : IpcClient

/-- **The server with the process around it**: its clients, the descriptors of the process, what
has been read and what has been handled on each connection, and how many frames have been handled,
`strayFrames` of them for a slot whose descriptor was no connection. -/
structure IpcServer where
  listenFd : ℤ
  clients : Fin ipcMaxClients → ClientSlot
  fds : Table
  received : ℕ → Bytes
  handled : ℕ → List Bytes
  frames : ℕ
  strayFrames : ℕ
  agent : Agent

/-- Set the length to zero; the bytes stay in the buffer. -/
def IpcClient.reset (c : IpcClient) : IpcClient := ⟨c.buf, 0, c.size_eq, Nat.zero_le _⟩

/-- A `read()` into the free end of the buffer, of at most the room there is. -/
def IpcClient.fill (c : IpcClient) (chunk : Bytes) : IpcClient :=
  c.recv (chunk.take (ipcClientBufSize - c.len)) (by
    have hle := c.len_le
    rw [List.length_take]
    omega)

theorem IpcClient.valid_fill (c : IpcClient) (chunk : Bytes) :
    (c.fill chunk).valid = c.valid ++ chunk.take (ipcClientBufSize - c.len) :=
  c.valid_recv _ _

/-- The state `ipc_server_start` leaves: no client, and a listening socket that is no connection.
`calloc` clears the buffers. -/
def ipcServerStart (listenFd : ℤ) (others : ℤ → Bool) (agent : Agent) : IpcServer where
  listenFd := listenFd
  clients _ := ⟨-1, false, .fresh⟩
  fds :=
    { refers := fun fd => if fd = listenFd ∨ others fd then some .other else none
      accepted := 0
      closes := fun _ => 0
      stray := 0 }
  received _ := []
  handled _ := []
  frames := 0
  strayFrames := 0
  agent := agent

namespace IpcServer

/-- The connection the descriptor of a slot refers to. -/
def connection (sv : IpcServer) (i : Fin ipcMaxClients) : Option ℕ :=
  match sv.fds.refers (sv.clients i).fd with
  | some (.connection n) => some n
  | _ => none

/-- What a slot holds. -/
def hold (sv : IpcServer) (i : Fin ipcMaxClients) : Option ℤ :=
  if (sv.clients i).inUse then some (sv.clients i).fd else none

/-- Record that a payload is passed to `handle_frame` for a slot. -/
def note (sv : IpcServer) (i : Fin ipcMaxClients) (payload : Bytes) : IpcServer :=
  match sv.connection i with
  | some n =>
    { sv with
      handled := Function.update sv.handled n (sv.handled n ++ [payload])
      frames := sv.frames + 1 }
  | none => { sv with frames := sv.frames + 1, strayFrames := sv.strayFrames + 1 }

/-- The subagent behind the server has changed. -/
def setAgent (sv : IpcServer) (agent : Agent) : IpcServer := { sv with agent }

/-- Replace the buffer of a slot. -/
def setClient (sv : IpcServer) (i : Fin ipcMaxClients) (c : IpcClient) : IpcServer :=
  { sv with clients := Function.update sv.clients i { sv.clients i with client := c } }

/-- Record that bytes are read on the descriptor of a slot. -/
def receive (sv : IpcServer) (i : Fin ipcMaxClients) (got : Bytes) : IpcServer :=
  match sv.connection i with
  | some n => { sv with received := Function.update sv.received n (sv.received n ++ got) }
  | none => sv

/-- Bytes are read into the buffer of a slot. -/
def fill (sv : IpcServer) (i : Fin ipcMaxClients) (chunk : Bytes) : IpcServer :=
  let c := (sv.clients i).client
  (sv.receive i (chunk.take (ipcClientBufSize - c.len))).setClient i (c.fill chunk)

/-- The `memmove` of `drain_frames`. -/
def shift (sv : IpcServer) (i : Fin ipcMaxClients) (total : ℕ) : IpcServer :=
  sv.setClient i ((sv.clients i).client.shift total)

/-! ### The functions -/

/-- `close_client`. -/
def closeClient (sv : IpcServer) (i : Fin ipcMaxClients) : IpcServer :=
  let c := sv.clients i
  { sv with
    fds := sv.fds.close c.fd
    clients := Function.update sv.clients i ⟨-1, false, c.client.reset⟩ }

section Frames

variable (pb : PbCodec) (m : Modes) (f : ℕ → FrameFaults)

/-- `send_envelope`. -/
def sendEnvelope (unsent : Bool) (env : Envelope) (i : Fin ipcMaxClients) (sv : IpcServer) :
    IpcServer :=
  match AgentxSubagent.sendEnvelope pb env with
  | none => sv.closeClient i
  | some _ => if unsent then sv.closeClient i else sv

/-- `handle_frame`; `f k` is what fails for the `k`-th frame of the server. -/
def handleFrame (i : Fin ipcMaxClients) (payload : Bytes) (sv : IpcServer) : Bool × IpcServer :=
  let faults := f sv.frames
  let sv := sv.note i payload
  match pb.pbDecode payload with
  | none => (false, sv.closeClient i)
  | some req =>
    match answerBody m faults sv.agent req.body with
    | none => (false, sv.closeClient i)
    | some (body, agent) =>
      let sv := sendEnvelope pb faults.unsent ⟨req.requestId, body⟩ i (sv.setAgent agent)
      ((sv.clients i).inUse, sv)

/-- `drain_frames`; a frame takes at least five bytes off, so `fuel` above the length bounds the
turns. -/
def drainFrames (i : Fin ipcMaxClients) : ℕ → IpcServer → Bool × IpcServer
  | 0, sv => (true, sv)
  | fuel + 1, sv =>
    let c := (sv.clients i).client
    if c.len < 4 then (true, sv)
    else
      let n := (frameLen c.buf).toNat
      if n = 0 then (false, sv.closeClient i)
      else if n > ipcMaxFrameLen then (false, sv.closeClient i)
      else
        let total := 4 + n
        if c.len < total then (true, sv)
        else
          match handleFrame pb m f i ((c.buf.drop 4).take n) sv with
          | (false, sv') => (false, sv')
          | (true, sv') => drainFrames i fuel (sv'.shift i total)

/-- `read()` on the descriptor of a slot, where the peer and the kernel give `r`: it fails on a
descriptor that is no connection. -/
def read (i : Fin ipcMaxClients) (r : ReadResult) (sv : IpcServer) : ReadResult :=
  match sv.connection i with
  | some _ => r
  | none => .failed

/-- `service_client` on the results its reads give; it returns when they run out. A read of no
bytes is an end of file. -/
def serviceClient (i : Fin ipcMaxClients) : List ReadResult → IpcServer → IpcServer
  | [], sv => sv
  | r :: rs, sv =>
    if (sv.clients i).client.len ≥ ipcClientBufSize then sv.closeClient i
    else
      match sv.read i r with
      | .data [] => sv.closeClient i
      | .data (b :: chunk) =>
        let sv := sv.fill i (b :: chunk)
        match drainFrames pb m f i ((sv.clients i).client.len + 1) sv with
        | (false, sv') => sv'
        | (true, sv') => serviceClient i rs sv'
      | .endOfFile => sv.closeClient i
      | .wouldBlock => sv
      | .interrupted => serviceClient i rs sv
      | .failed => sv.closeClient i

end Frames

/-- `find_free_slot`. -/
def findFreeSlot (sv : IpcServer) : Option (Fin ipcMaxClients) :=
  (List.finRange ipcMaxClients).find? fun i => !(sv.clients i).inUse

/-- A new client in a slot: its descriptor is set, and its length is zero. -/
def openClient (sv : IpcServer) (i : Fin ipcMaxClients) (fd : ℤ) : IpcServer :=
  { sv with
    fds := sv.fds.accept fd
    clients := Function.update sv.clients i ⟨fd, true, (sv.clients i).client.reset⟩ }

/-- What `accept()` answers. -/
inductive AcceptResult
  | connected (fd : ℤ)
  | wouldBlock
  | interrupted
  | failed

/-- `accept_new_clients` on the results of its calls of `accept()`; it returns when they run out.
The kernel hands out a number that is not open, and there is no run in which it does not. -/
def acceptNewClients : List AcceptResult → IpcServer → Option IpcServer
  | [], sv => some sv
  | .wouldBlock :: _, sv => some sv
  | .interrupted :: rs, sv => acceptNewClients rs sv
  | .failed :: _, sv => some sv
  | .connected fd :: rs, sv =>
    if fd < 0 ∨ sv.fds.refers fd ≠ none then none
    else
      match sv.findFreeSlot with
      | none => acceptNewClients rs { sv with fds := (sv.fds.accept fd).close fd }
      | some i => acceptNewClients rs (sv.openClient i fd)

/-- What a call of `ipc_server_dispatch` meets: the descriptors that are ready, what `accept()`
answers, and what the reads on each slot give. -/
structure Dispatch where
  readfds : ℤ → Bool
  accepts : List AcceptResult
  reads : Fin ipcMaxClients → List ReadResult

/-- `ipc_server_dispatch`. -/
def dispatch (pb : PbCodec) (m : Modes) (f : ℕ → FrameFaults) (d : Dispatch) (sv : IpcServer) :
    Option IpcServer :=
  if sv.listenFd < 0 then some sv
  else
    (if d.readfds sv.listenFd then acceptNewClients d.accepts sv else some sv).map fun sv =>
      (List.finRange ipcMaxClients).foldl (fun sv i =>
        if (sv.clients i).inUse && d.readfds (sv.clients i).fd then
          serviceClient pb m f i (d.reads i) sv
        else sv) sv

/-- What happens to the process: a call of `ipc_server_dispatch`, or another part of it opens or
closes a descriptor of its own. -/
inductive Event
  | dispatch (d : Dispatch)
  | otherOpens (fd : ℤ)
  | otherCloses (fd : ℤ)

/-- One event. -/
def step (pb : PbCodec) (m : Modes) (f : ℕ → FrameFaults) (sv : IpcServer) :
    Event → Option (Unit × IpcServer)
  | .dispatch d => (dispatch pb m f d sv).map fun sv' => ((), sv')
  | .otherOpens fd =>
    if fd < 0 ∨ sv.fds.refers fd ≠ none then none
    else some ((), { sv with fds := sv.fds.setOther fd (some .other) })
  | .otherCloses fd =>
    if sv.fds.refers fd = some .other ∧ fd ≠ sv.listenFd then
      some ((), { sv with fds := sv.fds.setOther fd none })
    else none

/-! ### The invariant -/

/-- The frames that payloads were cut out of. -/
def frameStream (payloads : List Bytes) : Bytes := payloads.flatMap frameBytes

@[simp] theorem frameStream_concat (payloads : List Bytes) (p : Bytes) :
    frameStream (payloads ++ [p]) = frameStream payloads ++ frameBytes p := by
  simp [frameStream]

/-- What has been read on the connection of a slot is the frames that were handled, and then
`rest`. -/
def Leaves (sv : IpcServer) (i : Fin ipcMaxClients) (rest : Bytes) : Prop :=
  ∀ n, sv.connection i = some n → sv.received n = frameStream (sv.handled n) ++ rest

/-- **The invariant.** `but` is a slot whose buffer does not count, while a frame of it is being
handled. -/
structure Inv (but : Option (Fin ipcMaxClients)) (sv : IpcServer) : Prop where
  owned : Owned sv.fds sv.hold
  free : ∀ i, (sv.clients i).inUse = false → (sv.clients i).fd = -1 ∧ (sv.clients i).client.len = 0
  frames : ∀ n, frameStream (sv.handled n) <+: sv.received n
  fresh : ∀ n, sv.fds.accepted ≤ n → sv.received n = [] ∧ sv.handled n = []
  strayFrames : sv.strayFrames = 0
  leaves : ∀ i, (sv.clients i).inUse = true → some i ≠ but → sv.Leaves i (sv.clients i).client.valid

section Basics

variable {sv : IpcServer} {i j : Fin ipcMaxClients} {but : Option (Fin ipcMaxClients)}

theorem hold_of_inUse (h : (sv.clients i).inUse = true) : sv.hold i = some (sv.clients i).fd := by
  rw [hold, if_pos h]

theorem hold_of_not_inUse (h : (sv.clients i).inUse = false) : sv.hold i = none := by
  rw [hold, if_neg (by simp [h])]

theorem connection_eq_some {n : ℕ} :
    sv.connection i = some n ↔ sv.fds.refers (sv.clients i).fd = some (.connection n) := by
  rw [connection]
  rcases sv.fds.refers (sv.clients i).fd with _ | n' | _
  · simp
  · simp
  · simp

/-- A slot in use has a connection. -/
theorem Inv.exists_connection (h : sv.Inv but) (hi : (sv.clients i).inUse = true) :
    ∃ n, sv.connection i = some n ∧ n < sv.fds.accepted := by
  obtain ⟨n, hn⟩ := h.owned.held i _ (hold_of_inUse hi)
  exact ⟨n, connection_eq_some.mpr hn, (h.owned.known _ n hn).1⟩

/-- Two slots in use have different connections. -/
theorem Inv.connection_inj (h : sv.Inv but) (hi : (sv.clients i).inUse = true)
    (hj : (sv.clients j).inUse = true) {n : ℕ} (hn : sv.connection i = some n)
    (hn' : sv.connection j = some n) : i = j := by
  have hfd := h.owned.once _ _ n (connection_eq_some.mp hn) (connection_eq_some.mp hn')
  exact h.owned.distinct i j _ (hold_of_inUse hi) (hfd ▸ hold_of_inUse hj)

theorem Inv.weaken (h : sv.Inv none) (i : Fin ipcMaxClients) : sv.Inv (some i) :=
  ⟨h.owned, h.free, h.frames, h.fresh, h.strayFrames, fun j hj _ => h.leaves j hj (by simp)⟩

/-- The subagent behind the server does not matter. -/
theorem Inv.setAgent (h : sv.Inv but) (agent : Agent) : (sv.setAgent agent).Inv but :=
  ⟨h.owned, h.free, h.frames, h.fresh, h.strayFrames, h.leaves⟩

end Basics

/-! ### Closing a client -/

section Close

variable {sv : IpcServer} {i : Fin ipcMaxClients}

theorem clients_closeClient_self : (sv.closeClient i).clients i = ⟨-1, false,
    (sv.clients i).client.reset⟩ :=
  Function.update_self ..

theorem clients_closeClient_of_ne {j : Fin ipcMaxClients} (h : j ≠ i) :
    (sv.closeClient i).clients j = sv.clients j :=
  Function.update_of_ne h _ _

theorem hold_closeClient : (sv.closeClient i).hold = Function.update sv.hold i none := by
  funext j
  by_cases hji : j = i
  · subst hji
    rw [Function.update_self, hold_of_not_inUse (by rw [clients_closeClient_self])]
  · rw [Function.update_of_ne hji, hold, hold, clients_closeClient_of_ne hji]

/-- **Closing a client** that is in use keeps the invariant, whatever its buffer holds. -/
theorem Inv.closeClient (h : sv.Inv (some i)) (hi : (sv.clients i).inUse = true) :
    (sv.closeClient i).Inv none := by
  obtain ⟨n, hn⟩ := h.owned.held i _ (hold_of_inUse hi)
  have hclose := Table.close_of_connection hn
  have haccepted : (sv.closeClient i).fds.accepted = sv.fds.accepted := by
    show (sv.fds.close _).accepted = _
    rw [hclose]
  refine ⟨?_, ?_, h.frames, ?_, h.strayFrames, ?_⟩
  · rw [hold_closeClient]
    exact h.owned.close (hold_of_inUse hi)
  · intro j hj
    by_cases hji : j = i
    · subst hji
      rw [clients_closeClient_self]
      exact ⟨rfl, rfl⟩
    · rw [clients_closeClient_of_ne hji] at hj ⊢
      exact h.free j hj
  · rw [haccepted]
    exact h.fresh
  · intro j hj _ k hk
    have hji : j ≠ i := by
      rintro rfl
      rw [clients_closeClient_self] at hj
      exact absurd hj (by simp)
    rw [clients_closeClient_of_ne hji] at hj ⊢
    -- the descriptor of another slot still refers to what it did
    have hne : (sv.clients j).fd ≠ (sv.clients i).fd := by
      intro heq
      exact hji (h.owned.distinct j i _ (hold_of_inUse hj) (heq ▸ hold_of_inUse hi))
    refine h.leaves j hj (by simpa using hji) k (connection_eq_some.mpr ?_)
    have hrefers := connection_eq_some.mp hk
    rw [clients_closeClient_of_ne hji] at hrefers
    have hsame : (sv.closeClient i).fds.refers (sv.clients j).fd =
        sv.fds.refers (sv.clients j).fd := by
      show (sv.fds.close _).refers _ = _
      rw [hclose]
      exact Function.update_of_ne hne _ _
    exact hsame.symm.trans hrefers

theorem inUse_closeClient : ((sv.closeClient i).clients i).inUse = false := by
  rw [clients_closeClient_self]

end Close

/-! ### Reading and handling -/

section Handle

variable {sv : IpcServer} {i : Fin ipcMaxClients}

theorem clients_setClient_self (c : IpcClient) :
    (sv.setClient i c).clients i = { sv.clients i with client := c } :=
  Function.update_self ..

theorem clients_setClient_of_ne (c : IpcClient) {j : Fin ipcMaxClients} (h : j ≠ i) :
    (sv.setClient i c).clients j = sv.clients j :=
  Function.update_of_ne h _ _

/-- A new buffer changes neither the descriptor of a slot nor whether it is in use. -/
theorem fd_setClient (c : IpcClient) (j : Fin ipcMaxClients) :
    ((sv.setClient i c).clients j).fd = (sv.clients j).fd ∧
      ((sv.setClient i c).clients j).inUse = (sv.clients j).inUse := by
  by_cases hji : j = i
  · subst hji
    rw [clients_setClient_self]
    exact ⟨rfl, rfl⟩
  · rw [clients_setClient_of_ne c hji]
    exact ⟨rfl, rfl⟩

theorem hold_setClient (c : IpcClient) : (sv.setClient i c).hold = sv.hold := by
  funext j
  rw [hold, hold, (fd_setClient c j).1, (fd_setClient c j).2]

theorem connection_setClient (c : IpcClient) (j : Fin ipcMaxClients) :
    (sv.setClient i c).connection j = sv.connection j := by
  rw [connection, connection, (fd_setClient c j).1]
  rfl

/-- **A buffer that holds what is left** makes the invariant whole. -/
theorem Inv.setClient (h : sv.Inv (some i)) (hi : (sv.clients i).inUse = true) {c : IpcClient}
    (hleaves : sv.Leaves i c.valid) : (sv.setClient i c).Inv none := by
  refine ⟨?_, ?_, h.frames, h.fresh, h.strayFrames, ?_⟩
  · rw [hold_setClient]
    exact h.owned
  · intro j hj
    rw [(fd_setClient c j).2] at hj
    have hji : j ≠ i := by
      rintro rfl
      exact absurd (hi.symm.trans hj) (by simp)
    rw [clients_setClient_of_ne c hji]
    exact h.free j hj
  · intro j hj _ n hn
    rw [(fd_setClient c j).2] at hj
    rw [connection_setClient] at hn
    by_cases hji : j = i
    · subst hji
      rw [clients_setClient_self]
      exact hleaves n hn
    · rw [clients_setClient_of_ne c hji]
      exact h.leaves j hj (by simpa using hji) n hn

theorem receive_eq {n : ℕ} (hn : sv.connection i = some n) (got : Bytes) :
    sv.receive i got =
      { sv with received := Function.update sv.received n (sv.received n ++ got) } := by
  rw [receive, hn]

/-- **Bytes that are read** come behind those that are there. -/
theorem Inv.receive (h : sv.Inv none) (hi : (sv.clients i).inUse = true) (got : Bytes) :
    (sv.receive i got).Inv (some i) ∧
      (sv.receive i got).Leaves i ((sv.clients i).client.valid ++ got) := by
  obtain ⟨n, hn, hlt⟩ := h.exists_connection hi
  have hleaves := h.leaves i hi (by simp) n hn
  rw [receive_eq hn]
  refine ⟨⟨h.owned, h.free, ?_, ?_, h.strayFrames, ?_⟩, ?_⟩
  · intro k
    show _ <+: Function.update sv.received n _ k
    by_cases hk : k = n
    · subst hk
      rw [Function.update_self]
      exact (h.frames k).trans (List.prefix_append _ _)
    · rw [Function.update_of_ne hk]
      exact h.frames k
  · intro k hk
    have hkn : k ≠ n := by
      rintro rfl
      exact absurd hlt (Nat.not_lt.mpr hk)
    exact ⟨(Function.update_of_ne hkn _ _).trans (h.fresh k hk).1, (h.fresh k hk).2⟩
  · intro j hj hji k hk
    have hkn : k ≠ n := by
      rintro rfl
      exact hji (congrArg some (h.connection_inj hj hi hk hn))
    exact (Function.update_of_ne hkn _ _).trans (h.leaves j hj (by simp) k hk)
  · intro k hk
    obtain rfl := Option.some.inj (hn.symm.trans hk)
    show Function.update sv.received n _ n = _
    rw [Function.update_self, hleaves, List.append_assoc]

/-- **A read** keeps the invariant. -/
theorem Inv.fill (h : sv.Inv none) (hi : (sv.clients i).inUse = true) (chunk : Bytes) :
    (sv.fill i chunk).Inv none ∧ ((sv.fill i chunk).clients i).inUse = true := by
  obtain ⟨n, hn, -⟩ := h.exists_connection hi
  obtain ⟨hinv, hleaves⟩ := h.receive hi
    (chunk.take (ipcClientBufSize - (sv.clients i).client.len))
  rw [← IpcClient.valid_fill] at hleaves
  have hi' : ((sv.receive i (chunk.take (ipcClientBufSize -
      (sv.clients i).client.len))).clients i).inUse = true := by
    rw [receive_eq hn]
    exact hi
  exact ⟨hinv.setClient hi' hleaves, ((fd_setClient _ i).2).trans hi'⟩

theorem note_eq {n : ℕ} (hn : sv.connection i = some n) (p : Bytes) :
    sv.note i p = { sv with
      handled := Function.update sv.handled n (sv.handled n ++ [p])
      frames := sv.frames + 1 } := by
  rw [note, hn]

/-- **A payload is cut off the front** of what is left. -/
theorem Inv.note (h : sv.Inv none) (hi : (sv.clients i).inUse = true) {p rest : Bytes}
    (hvalid : (sv.clients i).client.valid = frameBytes p ++ rest) :
    (sv.note i p).Inv (some i) ∧ (sv.note i p).Leaves i rest := by
  obtain ⟨n, hn, hlt⟩ := h.exists_connection hi
  have hleaves := h.leaves i hi (by simp) n hn
  rw [hvalid, ← List.append_assoc] at hleaves
  rw [note_eq hn]
  refine ⟨⟨h.owned, h.free, ?_, ?_, h.strayFrames, ?_⟩, ?_⟩
  · intro k
    show frameStream (Function.update sv.handled n _ k) <+: _
    by_cases hk : k = n
    · subst hk
      rw [Function.update_self, frameStream_concat, hleaves]
      exact List.prefix_append _ _
    · rw [Function.update_of_ne hk]
      exact h.frames k
  · intro k hk
    have hkn : k ≠ n := by
      rintro rfl
      exact absurd hlt (Nat.not_lt.mpr hk)
    exact ⟨(h.fresh k hk).1, (Function.update_of_ne hkn _ _).trans (h.fresh k hk).2⟩
  · intro j hj hji k hk
    have hkn : k ≠ n := by
      rintro rfl
      exact hji (congrArg some (h.connection_inj hj hi hk hn))
    show _ = frameStream (Function.update sv.handled n _ k) ++ _
    rw [Function.update_of_ne hkn]
    exact h.leaves j hj (by simp) k hk
  · intro k hk
    obtain rfl := Option.some.inj (hn.symm.trans hk)
    show _ = frameStream (Function.update sv.handled n _ n) ++ _
    rw [Function.update_self, frameStream_concat]
    exact hleaves

variable (pb : PbCodec) (m : Modes) (f : ℕ → FrameFaults)

/-- `handle_frame` without the table: the subagent and the count of frames, and whether the
connection stays open. -/
def frameTurn (s : Agent × ℕ) (payload : Bytes) : (Agent × ℕ) × Bool :=
  match pb.pbDecode payload with
  | none => ((s.1, s.2 + 1), false)
  | some req =>
    match answerBody m (f s.2) s.1 req.body with
    | none => ((s.1, s.2 + 1), false)
    | some (body, agent) =>
      ((agent, s.2 + 1),
        (AgentxSubagent.sendEnvelope pb ⟨req.requestId, body⟩).isSome && !(f s.2).unsent)

/-- A payload that is noted leaves the slots, the descriptors and the subagent alone. -/
theorem note_fields (sv : IpcServer) (i : Fin ipcMaxClients) (p : Bytes) :
    (sv.note i p).clients = sv.clients ∧ (sv.note i p).fds = sv.fds ∧
      (sv.note i p).agent = sv.agent ∧ (sv.note i p).frames = sv.frames + 1 := by
  rw [note]
  split
  · exact ⟨rfl, rfl, rfl, rfl⟩
  · exact ⟨rfl, rfl, rfl, rfl⟩

/-- **What `handle_frame` does** to a client in use: it closes it and says so, or leaves it open
and says so. -/
theorem handleFrame_eq (hi : (sv.clients i).inUse = true) (p : Bytes) :
    handleFrame pb m f i p sv =
      if (frameTurn pb m f (sv.agent, sv.frames) p).2 then
        (true, (sv.note i p).setAgent (frameTurn pb m f (sv.agent, sv.frames) p).1.1)
      else
        (false, ((sv.note i p).setAgent
          (frameTurn pb m f (sv.agent, sv.frames) p).1.1).closeClient i) := by
  obtain ⟨hclients, -, hagent, -⟩ := note_fields sv i p
  have hi' : ((sv.note i p).clients i).inUse = true := by rwa [hclients]
  have hself : (sv.note i p).setAgent sv.agent = sv.note i p := by
    rw [← hagent]
    rfl
  rw [handleFrame, frameTurn]
  simp only [hagent]
  rcases pb.pbDecode p with _ | req
  · simp only [Bool.false_eq_true, if_false, hself]
  simp only
  rcases answerBody m (f sv.frames) sv.agent req.body with _ | ⟨body, agent⟩
  · simp only [Bool.false_eq_true, if_false, hself]
  simp only [sendEnvelope]
  rcases AgentxSubagent.sendEnvelope pb ⟨req.requestId, body⟩ with _ | bytes
  · -- the answer does not fit the buffer it is encoded into
    simp only [Option.isSome_none, Bool.false_and, Bool.false_eq_true, if_false,
      inUse_closeClient]
  · cases (f sv.frames).unsent with
    | true => simp [inUse_closeClient]
    | false => simp [show (((sv.note i p).setAgent agent).clients i).inUse = true from hi']

/-- `drain_frames` says whether the client is still in use. -/
theorem inUse_drainFrames (fuel : ℕ) : ∀ {sv : IpcServer}, (sv.clients i).inUse = true →
    ((drainFrames pb m f i fuel sv).2.clients i).inUse = (drainFrames pb m f i fuel sv).1 := by
  induction fuel with
  | zero => exact fun hi => hi
  | succ fuel ih =>
    intro sv hi
    rw [drainFrames]
    simp only
    split_ifs
    · exact hi
    · exact inUse_closeClient
    · exact inUse_closeClient
    · exact hi
    rw [handleFrame_eq pb m f hi]
    split_ifs
    · refine ih (((fd_setClient _ i).2).trans ?_)
      show ((sv.note i _).clients i).inUse = true
      rwa [(note_fields sv i _).1]
    · exact inUse_closeClient

/-- **`drain_frames` keeps the invariant.** -/
theorem Inv.drainFrames (fuel : ℕ) : ∀ {sv : IpcServer}, sv.Inv none →
    (sv.clients i).inUse = true → (drainFrames pb m f i fuel sv).2.Inv none := by
  induction fuel with
  | zero => exact fun h _ => h
  | succ fuel ih =>
    intro sv h hi
    have hclose := (h.weaken i).closeClient hi
    rw [IpcServer.drainFrames]
    simp only
    split_ifs with h4 h0 hbig hlen
    · exact h
    · exact hclose
    · exact hclose
    · exact h
    -- a whole frame is at the front
    have hvalid := (sv.clients i).client.valid_eq_frame (by omega) h0 (by omega) (by omega)
    obtain ⟨hnote, hleaves⟩ := h.note hi hvalid
    generalize ((sv.clients i).client.buf.drop 4).take (frameLen (sv.clients i).client.buf).toNat =
      p at hnote hleaves ⊢
    rw [handleFrame_eq pb m f hi]
    generalize (frameTurn pb m f (sv.agent, sv.frames) p).1.1 = agent
    obtain ⟨hclients, -⟩ := note_fields sv i p
    have hinv : ((sv.note i p).setAgent agent).Inv (some i) := hnote.setAgent agent
    have hi' : (((sv.note i p).setAgent agent).clients i).inUse = true := by
      show ((sv.note i p).clients i).inUse = true
      rwa [hclients]
    split_ifs
    · refine ih (hinv.setClient hi' ?_) (((fd_setClient _ i).2).trans hi')
      rw [IpcClient.valid_shift]
      show IpcServer.Leaves _ i (((sv.note i p).clients i).client.valid.drop _)
      rw [show ((sv.note i p).clients i).client = (sv.clients i).client by rw [hclients]]
      exact hleaves
    · exact hinv.closeClient hi'

/-- **`service_client` keeps the invariant.** -/
theorem Inv.serviceClient (rs : List ReadResult) :
    ∀ {sv : IpcServer}, sv.Inv none → (sv.clients i).inUse = true →
      (serviceClient pb m f i rs sv).Inv none := by
  induction rs with
  | nil => exact fun h _ => h
  | cons r rs ih =>
    intro sv h hi
    have hclose := (h.weaken i).closeClient hi
    rw [IpcServer.serviceClient]
    split_ifs
    · exact hclose
    split
    · exact hclose
    · next b chunk _ =>
      obtain ⟨hfill, hi'⟩ := h.fill hi (b :: chunk)
      have hdrain := hfill.drainFrames pb m f
        (((sv.fill i (b :: chunk)).clients i).client.len + 1) hi'
      have huse := inUse_drainFrames pb m f
        (((sv.fill i (b :: chunk)).clients i).client.len + 1) hi'
      simp only
      split
      · next hd => rwa [hd] at hdrain
      · next hd =>
        rw [hd] at hdrain huse
        exact ih hdrain huse
    · exact hclose
    · exact h
    · exact ih h hi
    · exact hclose

end Handle

/-! ### The framing of a slot -/

section Framing

open Resume

variable {pb : PbCodec} {m : Modes} {f : ℕ → FrameFaults} {i : Fin ipcMaxClients} {n : ℕ}

/-- The server is where an outcome of the framing says: its payloads were passed on for the
connection, and the slot holds the buffer or is free. -/
structure Shows (i : Fin ipcMaxClients) (n : ℕ) (payloads : List Bytes)
    (o : Outcome (Agent × ℕ) Bytes CloseReason IpcClient) (sv : IpcServer) : Prop where
  state : (sv.agent, sv.frames) = o.state
  handled : sv.handled n = payloads ++ o.items
  ok : ∀ c, o.status = .ok c →
    (sv.clients i).inUse = true ∧ (sv.clients i).client = c ∧ sv.connection i = some n
  error : ∀ r, o.status = .error r → (sv.clients i).inUse = false

/-- A client in use that nothing happens to. -/
theorem shows_same {sv : IpcServer} (hi : (sv.clients i).inUse = true)
    (hn : sv.connection i = some n) :
    sv.Shows i n (sv.handled n) ⟨(sv.agent, sv.frames), [], .ok (sv.clients i).client⟩ := by
  refine ⟨rfl, (List.append_nil _).symm, ?_, fun r hr => absurd hr (by simp)⟩
  rintro c ⟨⟩
  exact ⟨hi, rfl, hn⟩

/-- A client that is closed. -/
theorem shows_closeClient (sv : IpcServer) (r : CloseReason) :
    (sv.closeClient i).Shows i n (sv.handled n) ⟨(sv.agent, sv.frames), [], .error r⟩ :=
  ⟨rfl, (List.append_nil _).symm, fun c hc => absurd hc (by simp), fun _ _ => inUse_closeClient⟩

/-- **`drain_frames` on a slot is the framing of its buffer.** -/
theorem drainFrames_shows (fuel : ℕ) : ∀ {sv : IpcServer}, (sv.clients i).inUse = true →
    sv.connection i = some n →
    (drainFrames pb m f i fuel sv).2.Shows i n (sv.handled n)
      (AgentxSubagent.drainFrames (frameTurn pb m f) fuel (sv.clients i).client
        (sv.agent, sv.frames)) := by
  induction fuel with
  | zero => exact fun hi hn => shows_same hi hn
  | succ fuel ih =>
    intro sv hi hn
    rw [drainFrames, AgentxSubagent.drainFrames]
    simp only
    split_ifs with h4 h0 hbig hlen
    · exact shows_same hi hn
    · exact shows_closeClient sv _
    · exact shows_closeClient sv _
    · exact shows_same hi hn
    generalize ((sv.clients i).client.buf.drop 4).take (frameLen (sv.clients i).client.buf).toNat =
      p
    obtain ⟨hclients, hfds, -, hframes⟩ := note_fields sv i p
    have hhandled : (sv.note i p).handled n = sv.handled n ++ [p] := by
      rw [note_eq hn]
      exact Function.update_self ..
    rw [handleFrame_eq pb m f hi]
    have hcount : (frameTurn pb m f (sv.agent, sv.frames) p).1.2 = sv.frames + 1 := by
      rw [frameTurn]
      split
      · rfl
      · split <;> rfl
    rcases hturn : frameTurn pb m f (sv.agent, sv.frames) p with ⟨⟨agent, frames⟩, _ | _⟩
    · rw [hturn] at hcount
      obtain rfl : frames = sv.frames + 1 := hcount
      refine ⟨?_, hhandled, fun c hc => absurd hc (by simp), fun _ _ => inUse_closeClient⟩
      exact Prod.ext rfl hframes
    · rw [hturn] at hcount
      obtain rfl : frames = sv.frames + 1 := hcount
      simp only [if_true]
      -- the rest of the buffer is drained, with this payload passed on already
      obtain ⟨sv₁, hsv₁⟩ : ∃ sv₁, sv₁ = ((sv.note i p).setAgent agent).shift i
        (4 + (frameLen (sv.clients i).client.buf).toNat) := ⟨_, rfl⟩
      have hi₁ : (sv₁.clients i).inUse = true := by
        rw [hsv₁, shift, (fd_setClient _ i).2]
        show ((sv.note i p).clients i).inUse = true
        rwa [hclients]
      have hn₁ : sv₁.connection i = some n := by
        rw [hsv₁, shift, connection_setClient, connection_eq_some]
        show (sv.note i p).fds.refers ((sv.note i p).clients i).fd = _
        rw [hclients, hfds]
        exact connection_eq_some.mp hn
      have hclient : (sv₁.clients i).client =
          (sv.clients i).client.shift (4 + (frameLen (sv.clients i).client.buf).toNat) := by
        rw [hsv₁, shift, clients_setClient_self]
        show ((sv.note i p).clients i).client.shift _ = _
        rw [hclients]
      have hstate : (sv₁.agent, sv₁.frames) = (agent, sv.frames + 1) := by
        rw [hsv₁]
        exact Prod.ext rfl hframes
      have hhandled₁ : sv₁.handled n = sv.handled n ++ [p] := by
        rw [hsv₁]
        exact hhandled
      have hrest := ih hi₁ hn₁
      rw [hclient, hstate, hhandled₁] at hrest
      rw [← hsv₁]
      refine ⟨hrest.state, ?_, hrest.ok, hrest.error⟩
      rw [hrest.handled, List.append_assoc]
      rfl

/-- Bytes read into a slot that has room for them: only its buffer changes. -/
theorem fill_fields {sv : IpcServer} (hn : sv.connection i = some n) {chunk : Bytes}
    (hfit : (sv.clients i).client.len + chunk.length ≤ ipcClientBufSize) :
    ((sv.fill i chunk).clients i).inUse = (sv.clients i).inUse ∧
      (sv.fill i chunk).connection i = some n ∧
      ((sv.fill i chunk).clients i).client = (sv.clients i).client.recv chunk hfit ∧
      (sv.fill i chunk).agent = sv.agent ∧ (sv.fill i chunk).frames = sv.frames ∧
      (sv.fill i chunk).handled = sv.handled := by
  have htake : chunk.take (ipcClientBufSize - (sv.clients i).client.len) = chunk :=
    List.take_of_length_le (by omega)
  refine ⟨?_, ?_, ?_, ?_, ?_, ?_⟩
  · rw [fill, (fd_setClient _ i).2, receive_eq hn]
  · rw [fill, connection_setClient, receive_eq hn]
    exact hn
  · rw [fill, clients_setClient_self]
    simp only [IpcClient.fill, htake]
  all_goals
    rw [fill, receive_eq hn]
    rfl

/-- **`service_client` on a slot is the framing of the connection**: what it passes to
`handle_frame`, what it makes of the subagent, and whether the client is still there. -/
theorem serviceClient_shows (rs : List ReadResult) :
    ∀ {sv : IpcServer} {o : Outcome (Agent × ℕ) Bytes CloseReason IpcClient},
      (sv.clients i).inUse = true → sv.connection i = some n →
      AgentxSubagent.serviceClient (frameTurn pb m f) rs (sv.clients i).client
        (sv.agent, sv.frames) = some o →
      (serviceClient pb m f i rs sv).Shows i n (sv.handled n) o := by
  induction rs with
  | nil =>
    intro sv o hi hn ho
    obtain rfl := Option.some.inj ho
    exact shows_same hi hn
  | cons r rs ih =>
    intro sv o hi hn ho
    rw [serviceClient]
    by_cases hfull : (sv.clients i).client.len ≥ ipcClientBufSize
    · rw [AgentxSubagent.serviceClient.eq_def] at ho
      simp only [if_pos hfull] at ho
      obtain rfl := Option.some.inj ho
      rw [if_pos hfull]
      exact shows_closeClient sv _
    rw [if_neg hfull, read, hn]
    cases r with
    | interrupted =>
      simp only [AgentxSubagent.serviceClient, if_neg hfull] at ho
      exact ih hi hn ho
    | wouldBlock =>
      simp only [AgentxSubagent.serviceClient, if_neg hfull] at ho
      obtain rfl := Option.some.inj ho
      exact shows_same hi hn
    | endOfFile | failed =>
      simp only [AgentxSubagent.serviceClient, if_neg hfull] at ho
      obtain rfl := Option.some.inj ho
      exact shows_closeClient sv _
    | data chunk =>
      simp only [AgentxSubagent.serviceClient, if_neg hfull] at ho
      split_ifs at ho with hfit
      obtain ⟨b, rest, rfl⟩ := List.exists_cons_of_ne_nil hfit.1
      simp only
      obtain ⟨sv₁, hsv₁⟩ : ∃ sv₁, sv₁ = sv.fill i (b :: rest) := ⟨_, rfl⟩
      rw [← hsv₁]
      obtain ⟨hi₁, hn₁, hclient, hagent, hframes, hhandled⟩ := fill_fields hn hfit.2
      rw [← hsv₁] at hi₁ hn₁ hclient hagent hframes hhandled
      rw [hi] at hi₁
      have hdrain : (drainFrames pb m f i ((sv₁.clients i).client.len + 1) sv₁).2.Shows i n _ _ :=
        drainFrames_shows _ hi₁ hn₁
      have huse := inUse_drainFrames pb m f ((sv₁.clients i).client.len + 1) hi₁
      rw [hagent, hframes, hhandled, hclient] at hdrain
      rw [hclient] at huse
      rw [hclient]
      generalize AgentxSubagent.drainFrames (frameTurn pb m f)
        (((sv.clients i).client.recv (b :: rest) hfit.2).len + 1)
        ((sv.clients i).client.recv (b :: rest) hfit.2) (sv.agent, sv.frames) = d at hdrain ho
      rcases hr : drainFrames pb m f i
        (((sv.clients i).client.recv (b :: rest) hfit.2).len + 1) sv₁ with ⟨stays, sv₂⟩
      rw [hr] at hdrain huse
      -- what was read is drained; the next read is made only if the client is still there
      rcases hstatus : d.status with reason | c
      · simp only [hstatus] at ho
        obtain rfl := Option.some.inj ho
        have hstays : stays = false := huse.symm.trans (hdrain.error reason hstatus)
        subst hstays
        exact hdrain
      · simp only [hstatus, Option.map_eq_some_iff] at ho
        obtain ⟨o', ho', rfl⟩ := ho
        obtain ⟨hi₂, hc₂, hn₂⟩ := hdrain.ok c hstatus
        have hstays : stays = true := huse.symm.trans hi₂
        subst hstays
        have hstate₂ : (sv₂.agent, sv₂.frames) = d.state := hdrain.state
        have hrest := ih hi₂ hn₂ (by rw [hc₂, hstate₂]; exact ho')
        refine ⟨hrest.state, ?_, hrest.ok, hrest.error⟩
        rw [hrest.handled, hdrain.handled, List.append_assoc]
        rfl

end Framing

/-! ### New clients -/

section Accept

variable {sv : IpcServer}

/-- A slot that is found is free. -/
theorem findFreeSlot_eq_some {i : Fin ipcMaxClients} (h : sv.findFreeSlot = some i) :
    (sv.clients i).inUse = false := by
  simpa using List.find?_some h

theorem clients_openClient_self {i : Fin ipcMaxClients} (fd : ℤ) :
    (sv.openClient i fd).clients i = ⟨fd, true, (sv.clients i).client.reset⟩ :=
  Function.update_self ..

theorem clients_openClient_of_ne {i j : Fin ipcMaxClients} (fd : ℤ) (h : j ≠ i) :
    (sv.openClient i fd).clients j = sv.clients j :=
  Function.update_of_ne h _ _

theorem hold_openClient {i : Fin ipcMaxClients} (fd : ℤ) :
    (sv.openClient i fd).hold = Function.update sv.hold i (some fd) := by
  funext j
  by_cases hji : j = i
  · subst hji
    rw [Function.update_self, hold, clients_openClient_self]
    rfl
  · rw [Function.update_of_ne hji, hold, hold, clients_openClient_of_ne fd hji]

/-- **A new client in a free slot**: its buffer has no valid bytes, and nothing has been read on
its connection. -/
theorem Inv.openClient (h : sv.Inv none) {fd : ℤ} (hfd : sv.fds.refers fd = none)
    {i : Fin ipcMaxClients} (hi : (sv.clients i).inUse = false) :
    (sv.openClient i fd).Inv none := by
  refine ⟨?_, ?_, h.frames, fun n hn => h.fresh n (Nat.le_of_succ_le hn), h.strayFrames, ?_⟩
  · rw [hold_openClient]
    exact h.owned.accept hfd (hold_of_not_inUse hi)
  · intro j hj
    have hji : j ≠ i := by
      rintro rfl
      rw [clients_openClient_self] at hj
      exact absurd hj (by simp)
    rw [clients_openClient_of_ne fd hji] at hj ⊢
    exact h.free j hj
  · intro j hj _ n hn
    have hrefers := connection_eq_some.mp hn
    by_cases hji : j = i
    · subst hji
      rw [clients_openClient_self] at hrefers ⊢
      have hnew : (sv.openClient j fd).fds.refers fd = some (.connection sv.fds.accepted) :=
        Function.update_self ..
      obtain rfl : n = sv.fds.accepted := by simpa using hrefers.symm.trans hnew
      obtain ⟨hreceived, hhandled⟩ := h.fresh sv.fds.accepted le_rfl
      show sv.received _ = frameStream (sv.handled _) ++ _
      rw [hreceived, hhandled]
      rfl
    · rw [clients_openClient_of_ne fd hji] at hj hrefers ⊢
      have hne : (sv.clients j).fd ≠ fd := by
        intro heq
        exact h.owned.hold_ne hfd j (heq ▸ hold_of_inUse hj)
      have hsame : (sv.openClient i fd).fds.refers (sv.clients j).fd =
          sv.fds.refers (sv.clients j).fd := Function.update_of_ne hne _ _
      exact h.leaves j hj (by simp) n (connection_eq_some.mpr (hsame.symm.trans hrefers))

/-- Descriptors that change without touching a connection that is open do not matter. -/
theorem Inv.setFds (h : sv.Inv none) {fds : Table} (howned : Owned fds sv.hold)
    (haccepted : sv.fds.accepted ≤ fds.accepted)
    (hrefers : ∀ fd n, fds.refers fd = some (.connection n) →
      sv.fds.refers fd = some (.connection n)) : ({ sv with fds } : IpcServer).Inv none := by
  refine ⟨howned, h.free, h.frames, fun n hn => h.fresh n (haccepted.trans hn), h.strayFrames, ?_⟩
  intro j hj _ n hn
  exact h.leaves j hj (by simp) n (connection_eq_some.mpr (hrefers _ n (connection_eq_some.mp hn)))

/-- **A connection that is closed at once** because the table is full. -/
theorem Inv.acceptClose (h : sv.Inv none) {fd : ℤ} (hfd : sv.fds.refers fd = none) :
    ({ sv with fds := (sv.fds.accept fd).close fd } : IpcServer).Inv none := by
  have hnew : (sv.fds.accept fd).refers fd = some (.connection sv.fds.accepted) :=
    Function.update_self ..
  refine h.setFds (h.owned.accept_close hfd) ?_ ?_
  · rw [Table.close_of_connection hnew]
    exact Nat.le_succ _
  · intro fd' n hn
    rw [Table.close_of_connection hnew] at hn
    have hne : fd' ≠ fd := by
      rintro rfl
      exact absurd ((Function.update_self ..).symm.trans hn) (by simp)
    exact (Function.update_of_ne hne _ _).symm.trans ((Function.update_of_ne hne _ _).symm.trans hn)

/-- **`accept_new_clients` keeps the invariant.** -/
theorem Inv.acceptNewClients {rs : List AcceptResult} :
    ∀ {sv sv' : IpcServer}, sv.Inv none → acceptNewClients rs sv = some sv' → sv'.Inv none := by
  induction rs with
  | nil =>
    intro sv sv' h haccept
    obtain rfl := Option.some.inj haccept
    exact h
  | cons r rs ih =>
    intro sv sv' h haccept
    cases r with
    | wouldBlock | failed =>
      obtain rfl := Option.some.inj haccept
      exact h
    | interrupted => exact ih h haccept
    | connected fd =>
      rw [IpcServer.acceptNewClients] at haccept
      split_ifs at haccept with hbad
      have hfd : sv.fds.refers fd = none := by
        by_contra hne
        exact hbad (Or.inr hne)
      rcases hslot : sv.findFreeSlot with _ | i
      · rw [hslot] at haccept
        exact ih (h.acceptClose hfd) haccept
      · rw [hslot] at haccept
        exact ih (h.openClient hfd (findFreeSlot_eq_some hslot)) haccept

end Accept

/-! ### Runs -/

section Run

variable {pb : PbCodec} {m : Modes} {f : ℕ → FrameFaults} {sv sv' : IpcServer}

/-- The state after `ipc_server_start`. -/
theorem inv_ipcServerStart (listenFd : ℤ) (others : ℤ → Bool) (agent : Agent) :
    (ipcServerStart listenFd others agent).Inv none := by
  refine ⟨?_, fun _ _ => ⟨rfl, rfl⟩, fun _ => List.nil_prefix, fun _ _ => ⟨rfl, rfl⟩, rfl, ?_⟩
  · refine Owned.start (fun fd n => ?_) rfl (fun _ => rfl) rfl
    show (if _ then _ else _) ≠ _
    split_ifs <;> simp
  · intro i hi
    exact absurd hi (by simp [ipcServerStart])

/-- **`ipc_server_dispatch` keeps the invariant.** -/
theorem Inv.dispatch (h : sv.Inv none) {d : Dispatch} (hd : dispatch pb m f d sv = some sv') :
    sv'.Inv none := by
  have hloop : ∀ (is : List (Fin ipcMaxClients)) {sv : IpcServer}, sv.Inv none →
      (is.foldl (fun sv i => if (sv.clients i).inUse && d.readfds (sv.clients i).fd then
        IpcServer.serviceClient pb m f i (d.reads i) sv else sv) sv).Inv none := by
    intro is
    induction is with
    | nil => exact fun h => h
    | cons i is ih =>
      intro sv h
      rw [List.foldl_cons]
      split_ifs with hready
      · exact ih (h.serviceClient pb m f (d.reads i) (Bool.and_eq_true_iff.mp hready).1)
      · exact ih h
  rw [IpcServer.dispatch] at hd
  split_ifs at hd with hneg hlisten
  · obtain rfl := Option.some.inj hd
    exact h
  · obtain ⟨sv₁, haccept, rfl⟩ := Option.map_eq_some_iff.mp hd
    exact hloop _ (h.acceptNewClients haccept)
  · obtain ⟨sv₁, hsame, rfl⟩ := Option.map_eq_some_iff.mp hd
    obtain rfl := Option.some.inj hsame
    exact hloop _ h

/-- **Every event keeps the invariant.** -/
theorem Inv.step (h : sv.Inv none) {e : Event} {o : Unit} (he : sv.step pb m f e = some (o, sv')) :
    sv'.Inv none := by
  cases e with
  | dispatch d =>
    obtain ⟨sv₁, hd, heq⟩ := Option.map_eq_some_iff.mp he
    obtain rfl : sv₁ = sv' := congrArg Prod.snd heq
    exact h.dispatch hd
  | otherOpens fd =>
    rw [IpcServer.step] at he
    split_ifs at he with hbad
    obtain rfl : _ = sv' := congrArg Prod.snd (Option.some.inj he)
    have hfd : sv.fds.refers fd = none := by
      by_contra hne
      exact hbad (Or.inr hne)
    refine h.setFds (h.owned.setOther (by simp [hfd]) (by simp)) le_rfl fun fd' n hn => ?_
    have hne : fd' ≠ fd := by
      rintro rfl
      exact absurd ((Function.update_self ..).symm.trans hn) (by simp)
    exact (Function.update_of_ne hne _ _).symm.trans hn
  | otherCloses fd =>
    rw [IpcServer.step] at he
    split_ifs at he with hother
    obtain rfl : _ = sv' := congrArg Prod.snd (Option.some.inj he)
    refine h.setFds (h.owned.setOther (by simp [hother.1]) (by simp)) le_rfl fun fd' n hn => ?_
    have hne : fd' ≠ fd := by
      rintro rfl
      exact absurd ((Function.update_self ..).symm.trans hn) (by simp)
    exact (Function.update_of_ne hne _ _).symm.trans hn

end Run

/-- A payload is a run of bytes of the frames it is among. -/
theorem isInfix_frameStream {payloads : List Bytes} {p : Bytes} (h : p ∈ payloads) :
    p <:+: frameStream payloads := by
  induction payloads with
  | nil => exact absurd h List.not_mem_nil
  | cons q payloads ih =>
    have hcons : frameStream (q :: payloads) = frameBytes q ++ frameStream payloads := rfl
    rw [hcons]
    rcases List.mem_cons.mp h with rfl | h
    · have hframe : p <:+: frameBytes p := (List.suffix_append _ _).isInfix
      exact hframe.trans (List.prefix_append _ _).isInfix
    · exact (ih h).trans (List.suffix_append _ _).isInfix

end IpcServer

/-- **Client slots are neither leaked nor shared.** In every state that calls of
`ipc_server_dispatch` lead to from `ipc_server_start`, whatever `accept()` and the reads answer,
whatever is received and whatever fails in handling it, and whatever else the process opens and
closes in between:

* the descriptors of the slots in use are different and refer to connections, and a free slot has
  descriptor -1 and length 0;
* every connection that was accepted is held by exactly one slot and has not been closed, or no
  descriptor refers to it and it has been closed exactly once; at most eight are held, and `close`
  was never called on anything else;
* what was passed to `handle_frame` for a connection are, in order, the payloads of the frames at
  the front of the bytes read on that connection since it was accepted; so each is a run of
  consecutive bytes of them. -/
theorem slots_neither_leaked_nor_shared (pb : PbCodec) (m : Modes) (f : ℕ → FrameFaults)
    (listenFd : ℤ) (others : ℤ → Bool) (agent : Agent) (es : List IpcServer.Event)
    (os : List Unit) (sv : IpcServer)
    (hrun : run (fun sv e => IpcServer.step pb m f sv e) (ipcServerStart listenFd others agent) es =
      some (os, sv)) :
    (∀ i j, (sv.clients i).inUse = true → (sv.clients j).inUse = true →
      (sv.clients i).fd = (sv.clients j).fd → i = j) ∧
    (∀ i, (sv.clients i).inUse = true →
      ∃ n, sv.fds.refers (sv.clients i).fd = some (.connection n)) ∧
    (∀ i, (sv.clients i).inUse = false →
      (sv.clients i).fd = -1 ∧ (sv.clients i).client.len = 0) ∧
    (∀ n < sv.fds.accepted,
      (∃! i, (sv.clients i).inUse = true ∧
          sv.fds.refers (sv.clients i).fd = some (.connection n)) ∧ sv.fds.closes n = 0 ∨
        (∀ fd, sv.fds.refers fd ≠ some (.connection n)) ∧ sv.fds.closes n = 1) ∧
    ((Finset.range sv.fds.accepted).filter fun n => sv.fds.closes n = 0).card ≤ 8 ∧
    sv.fds.stray = 0 ∧
    (∀ n, IpcServer.frameStream (sv.handled n) <+: sv.received n ∧
      ∀ p ∈ sv.handled n, p <:+: sv.received n) ∧
    sv.strayFrames = 0 := by
  have hinv : sv.Inv none := by
    refine run_invariant (fun e _ sv o sv' h he => ?_)
      (IpcServer.inv_ipcServerStart listenFd others agent) hrun
    exact IpcServer.Inv.step h he
  refine ⟨?_, ?_, hinv.free, ?_, ?_, hinv.owned.stray, ?_, hinv.strayFrames⟩
  · intro i j hi hj hfd
    exact hinv.owned.distinct i j _ (IpcServer.hold_of_inUse hi)
      (hfd ▸ IpcServer.hold_of_inUse hj)
  · intro i hi
    exact hinv.owned.held i _ (IpcServer.hold_of_inUse hi)
  · intro n hn
    refine (hinv.owned.held_or_closed hn).imp_left fun ⟨hslot, hzero⟩ => ⟨?_, hzero⟩
    refine (existsUnique_congr fun i => ?_).mp hslot
    cases hi : (sv.clients i).inUse with
    | true => simp [IpcServer.hold_of_inUse hi]
    | false => simp [IpcServer.hold_of_not_inUse hi]
  · have hcard := hinv.owned.card_le
    rwa [Fintype.card_fin] at hcard
  · intro n
    refine ⟨hinv.frames n, fun p hp => ?_⟩
    exact (IpcServer.isInfix_frameStream hp).trans (hinv.frames n).isInfix

/-- A client that hangs up in the middle of a frame, and one that gets its descriptor and its slot
and sends a frame that does not decode. -/
def reuse : List IpcServer.Event :=
  [.dispatch ⟨fun _ => true, [.connected 5], fun _ => [.data [0, 0, 0, 2, 7], .endOfFile]⟩,
    .dispatch ⟨fun _ => true, [.connected 5], fun _ => [.data [0, 0, 0, 1, 255]]⟩]

/-- Both are closed once, and the second was served its own byte. -/
theorem slots_reused :
    ∃ os sv, run (fun sv e => IpcServer.step wireCodec .shipped (fun _ => .none) sv e)
        (ipcServerStart 3 (fun _ => false) ⟨fun _ => ∅, .clear, []⟩) reuse = some (os, sv) ∧
      sv.handled 1 = [[255]] ∧ [255] <:+: sv.received 1 ∧ sv.fds.closes 0 = 1 ∧
      sv.fds.closes 1 = 1 ∧ sv.fds.stray = 0 := by
  obtain ⟨os, sv, hrun, hhandled, haccepted, hfree⟩ : ∃ os sv,
      run (fun sv e => IpcServer.step wireCodec .shipped (fun _ => .none) sv e)
        (ipcServerStart 3 (fun _ => false) ⟨fun _ => ∅, .clear, []⟩) reuse = some (os, sv) ∧
      sv.handled 1 = [[255]] ∧ sv.fds.accepted = 2 ∧ ∀ i, (sv.clients i).inUse = false :=
    ⟨_, _, rfl, rfl, rfl, by decide⟩
  obtain ⟨-, -, -, hconn, -, hstray, hframes, -⟩ := slots_neither_leaked_nor_shared wireCodec
    .shipped (fun _ => .none) 3 (fun _ => false) ⟨fun _ => ∅, .clear, []⟩ reuse os sv hrun
  have hclosed : ∀ n < 2, sv.fds.closes n = 1 := by
    intro n hn
    obtain ⟨⟨i, ⟨hi, -⟩, -⟩, -⟩ | ⟨-, hone⟩ := hconn n (by omega)
    · exact absurd (hi.symm.trans (hfree i)) (by simp)
    · exact hone
  refine ⟨os, sv, hrun, hhandled, (hframes 1).2 _ ?_, hclosed 0 (by omega), hclosed 1 (by omega),
    hstray⟩
  rw [hhandled]
  exact List.mem_singleton_self _

end AgentxSubagent
