import AgentxSubagent.Ipc.Slots

/-!
# The life of a server

`ipc_server_start`, `ipc_server_fill_fdset` and `ipc_server_stop` of `src/ipc_server.c`, around the
calls of `ipc_server_dispatch`. Starting takes eight steps, and behind each that fails the earlier
ones are taken back by hand; stopping has to find everything that was accepted in between. What the
rest of the process has open is not the server's to close.

* `AgentxSubagent.IpcServer.Serves`: serving a slot leaves the other slots and their connections
  alone.
* `AgentxSubagent.server_leaves_nothing`: a server that does not start leaves the descriptors as
  they were and no socket of its own, and one that does leaves nothing when it is stopped, whatever
  happened in between.
* `AgentxSubagent.fdset_is_exact`: `select()` is asked about all the server has open and nothing
  else.
-/

namespace AgentxSubagent

open Descriptors Runs

/-! ### The process and the file system -/

/-- What a path names: nothing, a socket with its mode, or anything else. -/
inductive PathEntry
  | absent
  | other
  | socket (mode : ℕ)
  deriving DecidableEq

/-- The process around the server, and the file system. -/
structure Host where
  fds : Table
  entries : Bytes → PathEntry

/-- The size of `sun_path`. -/
def sunPathSize : ℕ := 108

/-- What fails in `ipc_server_start`: `socket` is the number the kernel gives, and `unlink` a
failure with another error than `ENOENT`; `unlinkAgain` is the `unlink` behind a later failure. -/
structure StartFaults where
  calloc : Bool
  socket : Option ℤ
  unlink : Bool
  bind : Bool
  listen : Bool
  getfl : Bool
  setfl : Bool
  chmod : Bool
  unlinkAgain : Bool

/-- An `ipc_server_t`: the path is kept for `ipc_server_stop`. -/
structure Listener where
  server : IpcServer
  sockPath : Bytes

namespace Host

/-- `socket()` returned the number `fd`. -/
def socket (h : Host) (fd : ℤ) : Host := { h with fds := h.fds.setOther fd (some .other) }

/-- `close()` of what is no connection; any other number is closed as it is. -/
def close (h : Host) (fd : ℤ) : Host :=
  { h with
    fds := if h.fds.refers fd = some .other then h.fds.setOther fd none else h.fds.close fd }

/-- `unlink()`. -/
def unlink (h : Host) (fails : Bool) (path : Bytes) : Host :=
  if fails then h else { h with entries := Function.update h.entries path .absent }

/-- `bind()` makes a socket at the path, of the mode the umask leaves. -/
def bind (h : Host) (path : Bytes) (mode : ℕ) : Host :=
  { h with entries := Function.update h.entries path (.socket mode) }

/-- `ipc_server_start`; `umask` is the mode `bind()` gives. -/
def ipcServerStart (f : StartFaults) (umask : ℕ) (agent : Agent) (h : Host) :
    Option Bytes → Option Listener × Host
  | none => (none, h)
  | some path =>
    if path.length ≥ sunPathSize then (none, h)
    else if f.calloc then (none, h)
    else
      match f.socket with
      | none => (none, h)
      | some fd =>
        let h := h.socket fd
        if f.unlink then (none, h.close fd)
        else
          let h := h.unlink false path
          if f.bind then (none, h.close fd)
          else
            let h := h.bind path umask
            if f.listen then (none, (h.close fd).unlink f.unlinkAgain path)
            else if f.getfl ∨ f.setfl then (none, (h.close fd).unlink f.unlinkAgain path)
            else if f.chmod then (none, (h.close fd).unlink f.unlinkAgain path)
            else
              let h := h.bind path 0o660
              (some ⟨{ AgentxSubagent.ipcServerStart fd (fun _ => false) agent with fds := h.fds },
                path⟩, h)

/-- `ipc_server_stop`, where `entries` is what the paths name by then. -/
def ipcServerStop (unlinkFails : Bool) (l : Listener) (entries : Bytes → PathEntry) : Host :=
  let sv := l.server
  let fds := (List.finRange ipcMaxClients).foldl
    (fun fds i => if (sv.clients i).inUse then fds.close (sv.clients i).fd else fds) sv.fds
  let h : Host := ⟨fds, entries⟩
  if sv.listenFd ≥ 0 then (h.close sv.listenFd).unlink unlinkFails l.sockPath else h

/-- **Nothing is left of a server**: every connection that was ever accepted has been closed once,
and nothing else was. -/
def Clean (h : Host) : Prop := Owned h.fds fun _ : Fin ipcMaxClients => none

end Host

/-! ### The sets of `select()` -/

/-- `FD_SETSIZE`. -/
def fdSetSize : ℤ := 1024

/-- `FD_SET`, which writes outside of the set for a number it has no room for. -/
def fdSet (fd : ℤ) (readfds : ℤ → Bool) : Option (ℤ → Bool) :=
  if 0 ≤ fd ∧ fd < fdSetSize then some (Function.update readfds fd true) else none

namespace IpcServer

/-- A descriptor goes into the set, and into the maximum. -/
def addFd (fd : ℤ) (p : (ℤ → Bool) × ℤ) : Option ((ℤ → Bool) × ℤ) :=
  (fdSet fd p.1).map fun readfds => (readfds, if fd > p.2 then fd else p.2)

/-- `ipc_server_fill_fdset`. -/
def fillFdset (sv : IpcServer) (readfds : ℤ → Bool) (maxfd : ℤ) : Option ((ℤ → Bool) × ℤ) :=
  if sv.listenFd < 0 then some (readfds, maxfd)
  else
    (addFd sv.listenFd (readfds, maxfd)).bind fun p =>
      (List.finRange ipcMaxClients).foldlM (fun p i =>
        if (sv.clients i).inUse then addFd (sv.clients i).fd p else some p) p

/-! ### Serving one slot -/

/-- **Only a slot is served**: it is still what it was, or its descriptor was closed, and the other
slots and their connections are left alone. -/
structure Serves (i : Fin ipcMaxClients) (sv sv' : IpcServer) : Prop where
  listenFd : sv'.listenFd = sv.listenFd
  slots : ∀ j ≠ i, sv'.clients j = sv.clients j
  connections : ∀ n, sv.connection i ≠ some n →
    sv'.received n = sv.received n ∧ sv'.handled n = sv.handled n
  slot : ((sv'.clients i).inUse = (sv.clients i).inUse ∧ (sv'.clients i).fd = (sv.clients i).fd ∧
      sv'.fds = sv.fds) ∨
    ((sv'.clients i).inUse = false ∧ sv'.fds = sv.fds.close (sv.clients i).fd)

section Serving

variable {sv sv₁ sv' : IpcServer} {i : Fin ipcMaxClients}

theorem Serves.refl (sv : IpcServer) : sv.Serves i sv :=
  ⟨rfl, fun _ _ => rfl, fun _ _ => ⟨rfl, rfl⟩, Or.inl ⟨rfl, rfl, rfl⟩⟩

/-- A slot that is still in use is what it was. -/
theorem Serves.same (h : sv.Serves i sv₁) (hi : (sv₁.clients i).inUse = true) :
    (sv.clients i).inUse = true ∧ (sv₁.clients i).fd = (sv.clients i).fd ∧ sv₁.fds = sv.fds := by
  obtain ⟨hinUse, hfd, hfds⟩ | ⟨hclosed, -⟩ := h.slot
  · exact ⟨hinUse ▸ hi, hfd, hfds⟩
  · exact absurd (hi.symm.trans hclosed) (by simp)

/-- And it can be served again. -/
theorem Serves.trans (h : sv.Serves i sv₁) (hi : (sv₁.clients i).inUse = true)
    (h' : sv₁.Serves i sv') : sv.Serves i sv' := by
  obtain ⟨hi₀, hfd, hfds⟩ := h.same hi
  have hconn : sv₁.connection i = sv.connection i := by
    rw [connection, connection, hfds, hfd]
  refine ⟨h'.listenFd.trans h.listenFd, fun j hj => (h'.slots j hj).trans (h.slots j hj), ?_, ?_⟩
  · rintro n hn
    obtain ⟨hreceived, hhandled⟩ := h.connections n hn
    obtain ⟨hreceived', hhandled'⟩ := h'.connections n (hconn ▸ hn)
    exact ⟨hreceived'.trans hreceived, hhandled'.trans hhandled⟩
  · have hslot := h'.slot
    rwa [hfds, hfd, hi, ← hi₀] at hslot

theorem serves_closeClient (sv : IpcServer) : sv.Serves i (sv.closeClient i) :=
  ⟨rfl, fun _ hj => clients_closeClient_of_ne hj, fun _ _ => ⟨rfl, rfl⟩,
    Or.inr ⟨inUse_closeClient, rfl⟩⟩

theorem serves_setClient (sv : IpcServer) (c : IpcClient) : sv.Serves i (sv.setClient i c) :=
  ⟨rfl, fun _ hj => clients_setClient_of_ne c hj, fun _ _ => ⟨rfl, rfl⟩,
    Or.inl ⟨(fd_setClient c i).2, (fd_setClient c i).1, rfl⟩⟩

/-- What is noted of a frame is noted for the connection of its slot. -/
theorem serves_note (sv : IpcServer) (payload : Bytes) (agent : Agent) :
    sv.Serves i ((sv.note i payload).setAgent agent) := by
  rw [note]
  rcases hconn : sv.connection i with _ | n
  · exact ⟨rfl, fun _ _ => rfl, fun _ _ => ⟨rfl, rfl⟩, Or.inl ⟨rfl, rfl, rfl⟩⟩
  · refine ⟨rfl, fun _ _ => rfl, fun k hk => ⟨rfl, ?_⟩, Or.inl ⟨rfl, rfl, rfl⟩⟩
    exact Function.update_of_ne (fun heq => hk (by rw [hconn, heq])) _ _

/-- And so are the bytes that are read. -/
theorem serves_receive (sv : IpcServer) (got : Bytes) :
    sv.Serves i (sv.receive i got) ∧ (sv.receive i got).clients = sv.clients := by
  rw [receive]
  rcases hconn : sv.connection i with _ | n
  · exact ⟨.refl sv, rfl⟩
  · refine ⟨⟨rfl, fun _ _ => rfl, fun k hk => ⟨?_, rfl⟩, Or.inl ⟨rfl, rfl, rfl⟩⟩, rfl⟩
    exact Function.update_of_ne (fun heq => hk (by rw [hconn, heq])) _ _

/-- A slot that is read for stays in use. -/
theorem serves_fill (hi : (sv.clients i).inUse = true) (chunk : Bytes) :
    sv.Serves i (sv.fill i chunk) ∧ ((sv.fill i chunk).clients i).inUse = true := by
  obtain ⟨hreceive, hclients⟩ := serves_receive (i := i) sv
    (chunk.take (ipcClientBufSize - (sv.clients i).client.len))
  rw [← hclients] at hi
  exact ⟨hreceive.trans hi (serves_setClient _ _), (fd_setClient _ i).2.trans hi⟩

variable (pb : PbCodec) (m : Modes) (f : ℕ → FrameFaults)

/-- **`drain_frames` serves its slot only.** -/
theorem serves_drainFrames (fuel : ℕ) : ∀ {sv : IpcServer}, (sv.clients i).inUse = true →
    sv.Serves i (drainFrames pb m f i fuel sv).2 := by
  induction fuel with
  | zero => exact fun _ => .refl _
  | succ fuel ih =>
    intro sv hi
    rw [drainFrames]
    simp only
    split_ifs
    · exact .refl sv
    · exact serves_closeClient sv
    · exact serves_closeClient sv
    · exact .refl sv
    generalize ((sv.clients i).client.buf.drop 4).take (frameLen (sv.clients i).client.buf).toNat =
      payload
    rw [handleFrame_eq pb m f hi]
    generalize (frameTurn pb m f (sv.agent, sv.frames) payload).1.1 = agent
    have hnote := serves_note (i := i) sv payload agent
    have hi' : (((sv.note i payload).setAgent agent).clients i).inUse = true := by
      show ((sv.note i payload).clients i).inUse = true
      rwa [(note_fields sv i payload).1]
    split_ifs
    · have hi'' : ((((sv.note i payload).setAgent agent).shift i
          (4 + (frameLen (sv.clients i).client.buf).toNat)).clients i).inUse = true :=
        (fd_setClient _ i).2.trans hi'
      exact hnote.trans hi' ((serves_setClient _ _).trans hi'' (ih hi''))
    · exact hnote.trans hi' (serves_closeClient _)

/-- **`service_client` serves its slot only.** -/
theorem serves_serviceClient (rs : List ReadResult) : ∀ {sv : IpcServer},
    (sv.clients i).inUse = true → sv.Serves i (serviceClient pb m f i rs sv) := by
  induction rs with
  | nil => exact fun _ => .refl _
  | cons r rs ih =>
    intro sv hi
    rw [serviceClient]
    split_ifs
    · exact serves_closeClient sv
    rcases sv.read i r with chunk | _ | _ | _ | _
    · rcases chunk with _ | ⟨b, chunk⟩
      · exact serves_closeClient sv
      obtain ⟨hfill, hinUse⟩ := serves_fill hi (b :: chunk)
      have hdrain := serves_drainFrames pb m f
        (((sv.fill i (b :: chunk)).clients i).client.len + 1) hinUse
      have huse := inUse_drainFrames pb m f
        (((sv.fill i (b :: chunk)).clients i).client.len + 1) hinUse
      simp only
      rcases hd : drainFrames pb m f i (((sv.fill i (b :: chunk)).clients i).client.len + 1)
        (sv.fill i (b :: chunk)) with ⟨_ | _, sv₁⟩
      all_goals rw [hd] at hdrain huse
      · exact hfill.trans hinUse hdrain
      · exact hfill.trans hinUse (hdrain.trans huse (ih huse))
    · exact serves_closeClient sv
    · exact .refl sv
    · exact ih hi
    · exact serves_closeClient sv

end Serving

/-! ### What the rest of the process has open -/

/-- The descriptors other parts of the process have open, after an event. -/
def Event.others (o : ℤ → Bool) : Event → ℤ → Bool
  | .dispatch _ => o
  | .otherOpens fd => Function.update o fd true
  | .otherCloses fd => Function.update o fd false

/-- **What a run keeps beside the books**: the listening socket is open under its number, what other
parts of the process have open is theirs, and no client has a negative descriptor. -/
structure Steady (l : ℤ) (o : ℤ → Bool) (sv : IpcServer) : Prop where
  listenFd : sv.listenFd = l
  free : o l = false
  other : ∀ fd, sv.fds.refers fd = some .other ↔ fd = l ∨ o fd = true
  nonneg : ∀ i, (sv.clients i).inUse = true → 0 ≤ (sv.clients i).fd

section Keep

variable {pb : PbCodec} {m : Modes} {f : ℕ → FrameFaults} {l : ℤ} {o : ℤ → Bool}
  {sv sv' : IpcServer} {i : Fin ipcMaxClients}

/-- Serving a slot closes nothing that is not a connection. -/
theorem Steady.serves (h : sv.Steady l o) (hinv : sv.Inv none) (hi : (sv.clients i).inUse = true)
    (hserves : sv.Serves i sv') : sv'.Steady l o := by
  obtain ⟨n, hn⟩ := hinv.owned.held i _ (hold_of_inUse hi)
  have hnonneg : ∀ j, j ≠ i → (sv'.clients j).inUse = true → 0 ≤ (sv'.clients j).fd := by
    intro j hj hjuse
    rw [hserves.slots j hj] at hjuse ⊢
    exact h.nonneg j hjuse
  obtain ⟨-, hfd, hfds⟩ | ⟨hclosed, hfds⟩ := hserves.slot
  · refine ⟨hserves.listenFd.trans h.listenFd, h.free, by rw [hfds]; exact h.other, fun j hjuse => ?_⟩
    by_cases hj : j = i
    · rw [hj, hfd]
      exact h.nonneg i hi
    · exact hnonneg j hj hjuse
  · refine ⟨hserves.listenFd.trans h.listenFd, h.free, fun fd => ?_, fun j hjuse => ?_⟩
    · rw [← h.other, hfds, Table.close_of_connection hn]
      show Function.update sv.fds.refers (sv.clients i).fd none fd = _ ↔ _
      by_cases hfd : fd = (sv.clients i).fd
      · rw [hfd, Function.update_self, hn]
        simp
      · rw [Function.update_of_ne hfd]
    · refine hnonneg j ?_ hjuse
      rintro rfl
      exact absurd (hjuse.symm.trans hclosed) (by simp)

/-- A number that was not open is neither the listening socket nor of another part. -/
theorem Steady.ne_of_unused (h : sv.Steady l o) {fd : ℤ} (hfd : sv.fds.refers fd = none) :
    fd ≠ l ∧ o fd = false := by
  have hno : ¬(fd = l ∨ o fd = true) := by
    rw [← h.other, hfd]
    simp
  rw [not_or, Bool.not_eq_true] at hno
  exact hno

/-- A connection that is closed at once. -/
theorem Steady.acceptClose (h : sv.Steady l o) {fd : ℤ} (hfd : sv.fds.refers fd = none) :
    ({ sv with fds := (sv.fds.accept fd).close fd } : IpcServer).Steady l o := by
  refine ⟨h.listenFd, h.free, fun fd' => ?_, h.nonneg⟩
  have hnew : (sv.fds.accept fd).refers fd = some (.connection sv.fds.accepted) :=
    Function.update_self ..
  rw [← h.other, Table.close_of_connection hnew]
  show Function.update (Function.update sv.fds.refers fd _) fd none fd' = _ ↔ _
  rw [Function.update_idem, ← hfd, Function.update_eq_self]

/-- A new client. -/
theorem Steady.openClient (h : sv.Steady l o) {fd : ℤ} (hpos : 0 ≤ fd)
    (hfd : sv.fds.refers fd = none) (i : Fin ipcMaxClients) :
    (sv.openClient i fd).Steady l o := by
  refine ⟨h.listenFd, h.free, fun fd' => ?_, fun j hj => ?_⟩
  · rw [← h.other]
    show Function.update sv.fds.refers fd _ fd' = _ ↔ _
    by_cases hfd' : fd' = fd
    · rw [hfd', Function.update_self, hfd]
      simp
    · rw [Function.update_of_ne hfd']
  · by_cases hji : j = i
    · rw [hji, clients_openClient_self]
      exact hpos
    · rw [clients_openClient_of_ne fd hji] at hj ⊢
      exact h.nonneg j hj

/-- Accepting connections opens and closes nothing else. -/
theorem Steady.acceptNewClients {rs : List AcceptResult} : ∀ {sv sv' : IpcServer},
    sv.Steady l o → acceptNewClients rs sv = some sv' → sv'.Steady l o := by
  induction rs with
  | nil =>
    rintro sv sv' h haccept
    obtain rfl := Option.some.inj haccept
    exact h
  | cons r rs ih =>
    rintro sv sv' h haccept
    cases r with
    | wouldBlock | failed =>
      obtain rfl := Option.some.inj haccept
      exact h
    | interrupted => exact ih h haccept
    | connected fd =>
      rw [IpcServer.acceptNewClients] at haccept
      split_ifs at haccept with hbad
      rw [not_or, not_lt, not_not] at hbad
      obtain ⟨hpos, hfd⟩ := hbad
      rcases hslot : sv.findFreeSlot with _ | i
      · rw [hslot] at haccept
        exact ih (h.acceptClose hfd) haccept
      · rw [hslot] at haccept
        exact ih (h.openClient hpos hfd i) haccept

/-- **Every event keeps it.** -/
theorem Steady.step (h : sv.Steady l o) (hinv : sv.Inv none) {e : Event} {u : Unit}
    (he : sv.step pb m f e = some (u, sv')) : sv'.Steady l (e.others o) := by
  cases e with
  | dispatch d =>
    have hloop : ∀ (is : List (Fin ipcMaxClients)) {sv : IpcServer}, sv.Steady l o →
        sv.Inv none → (is.foldl (fun sv i =>
          if (sv.clients i).inUse && d.readfds (sv.clients i).fd then
            serviceClient pb m f i (d.reads i) sv else sv) sv).Steady l o := by
      intro is
      induction is with
      | nil => exact fun h _ => h
      | cons i is ih =>
        rintro sv h hinv
        rw [List.foldl_cons]
        split_ifs with hready
        · have hi := (Bool.and_eq_true_iff.mp hready).1
          exact ih (h.serves hinv hi (serves_serviceClient pb m f _ hi))
            (hinv.serviceClient pb m f _ hi)
        · exact ih h hinv
    obtain ⟨sv₁, hd, heq⟩ := Option.map_eq_some_iff.mp he
    obtain rfl : sv₁ = sv' := congrArg Prod.snd heq
    rw [dispatch] at hd
    split_ifs at hd with hneg hlisten
    · obtain rfl := Option.some.inj hd
      exact h
    · obtain ⟨sv₂, haccept, rfl⟩ := Option.map_eq_some_iff.mp hd
      exact hloop _ (h.acceptNewClients haccept) (hinv.acceptNewClients haccept)
    · obtain ⟨sv₂, hsame, rfl⟩ := Option.map_eq_some_iff.mp hd
      obtain rfl := Option.some.inj hsame
      exact hloop _ h hinv
  | otherOpens fd =>
    rw [IpcServer.step] at he
    split_ifs at he with hbad
    obtain rfl : _ = sv' := congrArg Prod.snd (Option.some.inj he)
    rw [not_or, not_lt, not_not] at hbad
    obtain ⟨hl, ho⟩ := h.ne_of_unused hbad.2
    refine ⟨h.listenFd, (Function.update_of_ne hl.symm _ _).trans h.free, fun fd' => ?_, h.nonneg⟩
    show Function.update sv.fds.refers fd _ fd' = _ ↔ _ ∨ Function.update o fd true fd' = true
    by_cases hfd : fd' = fd
    · simp [hfd]
    · rw [Function.update_of_ne hfd, Function.update_of_ne hfd, h.other]
  | otherCloses fd =>
    rw [IpcServer.step] at he
    split_ifs at he with hother
    obtain rfl : _ = sv' := congrArg Prod.snd (Option.some.inj he)
    obtain ⟨-, hne⟩ := hother
    rw [h.listenFd] at hne
    refine ⟨h.listenFd, (Function.update_of_ne (Ne.symm hne) _ _).trans h.free, fun fd' => ?_,
      h.nonneg⟩
    show Function.update sv.fds.refers fd none fd' = _ ↔ _ ∨ Function.update o fd false fd' = true
    by_cases hfd : fd' = fd
    · simp [hfd, hne]
    · rw [Function.update_of_ne hfd, Function.update_of_ne hfd, h.other]

/-- **So does every run.** -/
theorem Steady.run {es : List Event} : ∀ {o : ℤ → Bool} {sv : IpcServer} {os : List Unit},
    sv.Steady l o → sv.Inv none → run (fun sv e => IpcServer.step pb m f sv e) sv es =
      some (os, sv') → sv'.Steady l (es.foldl Event.others o) ∧ sv'.Inv none := by
  induction es with
  | nil =>
    rintro o sv os h hinv hrun
    obtain ⟨-, rfl⟩ : [] = os ∧ sv = sv' := by simpa [Runs.run] using hrun
    exact ⟨h, hinv⟩
  | cons e es ih =>
    rintro o sv os h hinv hrun
    obtain ⟨u, os', sv₁, hstep, hrest, -⟩ := run_cons_eq_some.mp hrun
    exact ih (h.step hinv hstep) (hinv.step hstep) hrest

end Keep

end IpcServer

/-! ### Starting -/

section Start

variable {h : Host}

/-- A socket that is closed again leaves the descriptors as they were. -/
theorem Host.fds_close_socket {fd : ℤ} (hfd : h.fds.refers fd = none) :
    ((h.socket fd).close fd).fds = h.fds := by
  have hnew : (h.socket fd).fds.refers fd = some .other := Function.update_self ..
  rw [Host.close]
  simp only [if_pos hnew]
  show Table.mk (Function.update (Function.update h.fds.refers fd _) fd none) _ _ _ = h.fds
  rw [Function.update_idem, ← hfd, Function.update_eq_self]
  rfl

/-- **`ipc_server_start` in three cases**: nothing has happened; the socket was closed again, and
what was at the path is gone or only the last `unlink` has failed; the server is there. -/
theorem Host.ipcServerStart_cases (sf : StartFaults) (umask : ℕ) (path : Option Bytes)
    (agent : Agent) (hfd : ∀ fd, sf.socket = some fd → 0 ≤ fd ∧ h.fds.refers fd = none) :
    (∃ h', h.ipcServerStart sf umask agent path = (none, h') ∧ h'.fds = h.fds ∧
      ∀ p, h'.entries p = h.entries p ∨
        path = some p ∧ (h'.entries p = .absent ∨ sf.unlinkAgain = true)) ∨
    ∃ p fd, path = some p ∧ 0 ≤ fd ∧ h.fds.refers fd = none ∧
      h.ipcServerStart sf umask agent path =
        (some ⟨{ AgentxSubagent.ipcServerStart fd (fun _ => false) agent with
            fds := (h.socket fd).fds }, p⟩,
          ⟨(h.socket fd).fds, Function.update h.entries p (.socket 0o660)⟩) := by
  rcases path with _ | p
  · exact Or.inl ⟨h, rfl, rfl, fun p => Or.inl rfl⟩
  rw [Host.ipcServerStart]
  by_cases hlong : p.length ≥ sunPathSize
  · exact Or.inl ⟨h, if_pos hlong, rfl, fun p => Or.inl rfl⟩
  by_cases hcalloc : sf.calloc = true
  · exact Or.inl ⟨h, (if_neg hlong).trans (if_pos hcalloc), rfl, fun p => Or.inl rfl⟩
  rw [if_neg hlong, if_neg hcalloc]
  rcases hsocket : sf.socket with _ | fd
  · exact Or.inl ⟨h, rfl, rfl, fun p => Or.inl rfl⟩
  obtain ⟨hpos, hunused⟩ := hfd fd hsocket
  have hclose : ∀ entries, (Host.close ⟨(h.socket fd).fds, entries⟩ fd).fds = h.fds :=
    fun _ => Host.fds_close_socket hunused
  -- behind `bind`, the path is unlinked again
  have hundo : ∀ entry, ∃ h', (none, h') = ((none : Option Listener),
      (Host.close ⟨(h.socket fd).fds, Function.update h.entries p entry⟩ fd).unlink
        sf.unlinkAgain p) ∧ h'.fds = h.fds ∧ ∀ q, h'.entries q = h.entries q ∨
          some p = some q ∧ (h'.entries q = .absent ∨ sf.unlinkAgain = true) := by
    intro entry
    refine ⟨_, rfl, ?_, fun q => ?_⟩
    · rw [Host.unlink]
      split_ifs <;> exact hclose _
    · by_cases hq : q = p
      · subst hq
        cases hfails : sf.unlinkAgain with
        | true => exact Or.inr ⟨rfl, Or.inr rfl⟩
        | false => exact Or.inr ⟨rfl, Or.inl (Function.update_self ..)⟩
      · left
        rw [Host.unlink]
        split_ifs
        · exact Function.update_of_ne hq _ _
        · exact (Function.update_of_ne hq _ _).trans (Function.update_of_ne hq _ _)
  have hbound : ∀ entry, ((h.socket fd).unlink false p).bind p entry =
      ⟨(h.socket fd).fds, Function.update h.entries p (.socket entry)⟩ := by
    intro entry
    show Host.mk _ (Function.update (Function.update h.entries p _) p _) = _
    rw [Function.update_idem]
    rfl
  simp only [hbound]
  split_ifs with hunlink hbind hlisten hfcntl hchmod
  · exact Or.inl ⟨_, rfl, hclose _, fun _ => Or.inl rfl⟩
  · refine Or.inl ⟨_, rfl, hclose _, fun q => ?_⟩
    by_cases hq : q = p
    · subst hq
      exact Or.inr ⟨rfl, Or.inl (Function.update_self ..)⟩
    · exact Or.inl (Function.update_of_ne hq _ _)
  · obtain ⟨h', heq, hrest⟩ := hundo (.socket umask)
    exact Or.inl ⟨h', heq.symm, hrest⟩
  · obtain ⟨h', heq, hrest⟩ := hundo (.socket umask)
    exact Or.inl ⟨h', heq.symm, hrest⟩
  · obtain ⟨h', heq, hrest⟩ := hundo (.socket umask)
    exact Or.inl ⟨h', heq.symm, hrest⟩
  · refine Or.inr ⟨p, fd, rfl, hpos, hunused, ?_⟩
    show (some (Listener.mk _ p), Host.mk _ (Function.update (Function.update _ p _) p _)) = _
    rw [Function.update_idem]
    rfl

/-- A server that was started has the books of the process, and no client. -/
theorem Host.Clean.start (hclean : h.Clean) {fd : ℤ} (hunused : h.fds.refers fd = none)
    (agent : Agent) :
    let sv := { AgentxSubagent.ipcServerStart fd (fun _ => false) agent with
      fds := (h.socket fd).fds }
    IpcServer.Inv none sv ∧
      sv.Steady fd fun fd' => decide (h.fds.refers fd' = some .other) := by
  have howned : Owned (h.socket fd).fds fun _ : Fin ipcMaxClients => none :=
    hclean.setOther (by simp [hunused]) (by simp)
  have hno : ∀ i : Fin ipcMaxClients,
      ((AgentxSubagent.ipcServerStart fd (fun _ => false) agent).clients i).inUse ≠ true := by
    intro i
    exact Bool.false_ne_true
  constructor
  · exact ⟨howned, fun _ _ => ⟨rfl, rfl⟩, fun _ => List.nil_prefix, fun _ _ => ⟨rfl, rfl⟩, rfl,
      fun i hi => absurd hi (hno i)⟩
  · refine ⟨rfl, by simp [hunused], fun fd' => ?_, fun i hi => absurd hi (hno i)⟩
    show Function.update h.fds.refers fd _ fd' = _ ↔ _
    by_cases hfd : fd' = fd
    · simp [hfd]
    · simp [hfd]

end Start

/-! ### Stopping -/

section Stop

variable {l : Listener} {fd : ℤ} {o : ℤ → Bool}

/-- **`ipc_server_stop` leaves nothing**: every connection has been closed once, the listening
socket is closed, and what other parts of the process have open is still there. -/
theorem Host.clean_ipcServerStop (hinv : l.server.Inv none) (hsteady : l.server.Steady fd o)
    (hpos : 0 ≤ fd) (unlinkFails : Bool) (entries : Bytes → PathEntry) :
    (ipcServerStop unlinkFails l entries).Clean ∧
      (ipcServerStop unlinkFails l entries).fds.accepted = l.server.fds.accepted ∧
      (∀ fd', (ipcServerStop unlinkFails l entries).fds.refers fd' =
        if o fd' then some .other else none) ∧
      (ipcServerStop unlinkFails l entries).entries =
        if unlinkFails then entries else Function.update entries l.sockPath .absent := by
  obtain ⟨howned, haccepted, hother⟩ :=
    Owned.closeAll (List.nodup_finRange ipcMaxClients) hinv.owned
  have hholds : (fun fds i => (l.server.hold i).elim fds fds.close) =
      fun (fds : Table) i => if (l.server.clients i).inUse then fds.close (l.server.clients i).fd
        else fds := by
    funext fds i
    rw [IpcServer.hold]
    split_ifs <;> rfl
  rw [hholds] at howned haccepted hother
  simp only [List.mem_finRange, if_true] at howned
  -- the listening socket is closed at last
  obtain ⟨fds, hfds⟩ : ∃ fds, fds = (List.finRange ipcMaxClients).foldl (fun (fds : Table) i =>
    if (l.server.clients i).inUse then fds.close (l.server.clients i).fd else fds)
      l.server.fds := ⟨_, rfl⟩
  rw [← hfds] at howned haccepted hother
  have hlisten : fds.refers fd = some .other := by
    rw [hother, hsteady.other]
    exact Or.inl rfl
  have hstop : ipcServerStop unlinkFails l entries =
      (⟨fds.setOther fd none, entries⟩ : Host).unlink unlinkFails l.sockPath := by
    rw [ipcServerStop]
    simp only [← hfds, hsteady.listenFd]
    rw [if_pos hpos, Host.close]
    simp only [if_pos hlisten]
  have hunlink : ∀ (h : Host) (p : Bytes), (h.unlink unlinkFails p).fds = h.fds ∧
      (h.unlink unlinkFails p).entries =
        if unlinkFails then h.entries else Function.update h.entries p .absent := by
    intro h p
    rw [Host.unlink]
    split_ifs <;> exact ⟨rfl, rfl⟩
  obtain ⟨hsame, hentries⟩ := hunlink ⟨fds.setOther fd none, entries⟩ l.sockPath
  rw [Host.Clean, hstop, hsame, hentries]
  refine ⟨howned.setOther (by simp [hlisten]) (by simp), haccepted, fun fd' => ?_, rfl⟩
  have hconn : ∀ n, fds.refers fd' ≠ some (.connection n) := by
    rintro n hn
    obtain ⟨i, hi⟩ := howned.holder fd' n hn
    exact absurd hi (by simp)
  show Function.update fds.refers fd none fd' = _
  by_cases hfd : fd' = fd
  · rw [hfd, Function.update_self, hsteady.free]
    rfl
  · rw [Function.update_of_ne hfd]
    have hiff : fds.refers fd' = some .other ↔ o fd' = true := by
      rw [hother, hsteady.other]
      exact or_iff_right hfd
    split_ifs with ho
    · exact hiff.mpr ho
    · rcases hrefers : fds.refers fd' with _ | n | _
      · rfl
      · exact absurd hrefers (hconn n)
      · exact absurd (hiff.mp hrefers) ho

end Stop

/-- **A server leaves nothing behind.** In a process where nothing is left of earlier servers, and
whatever fails in `ipc_server_start`: if it does not start, the descriptors are what they were, and
so is everything at a path, except that what was at its own path may be gone, or still there where
the last `unlink` fails. If it starts, its socket is at its path with mode 660; and after any run of
dispatches, over which the rest of the process opens and closes what it likes, `ipc_server_stop`
leaves the process as it was in the beginning: every connection that was accepted has been closed
exactly once, a number is open only if another part of the process has it open, and nothing is left
at the path unless the `unlink` fails. -/
theorem server_leaves_nothing (pb : PbCodec) (m : Modes) (f : ℕ → FrameFaults) (sf : StartFaults)
    (umask : ℕ) (path : Option Bytes) (agent : Agent) (h : Host) (hclean : h.Clean)
    (hfd : ∀ fd, sf.socket = some fd → 0 ≤ fd ∧ h.fds.refers fd = none) :
    (∀ h', h.ipcServerStart sf umask agent path = (none, h') → h'.fds = h.fds ∧
      ∀ p, h'.entries p = h.entries p ∨
        path = some p ∧ (h'.entries p = .absent ∨ sf.unlinkAgain = true)) ∧
    ∀ l h', h.ipcServerStart sf umask agent path = (some l, h') →
      path = some l.sockPath ∧
      h'.entries = Function.update h.entries l.sockPath (.socket 0o660) ∧
      ∀ (es : List IpcServer.Event) (os : List Unit) (sv : IpcServer),
        run (fun sv e => IpcServer.step pb m f sv e) l.server es = some (os, sv) →
        ∀ (unlinkFails : Bool) (entries : Bytes → PathEntry),
          let stopped := Host.ipcServerStop unlinkFails ⟨sv, l.sockPath⟩ entries
          stopped.Clean ∧ (∀ n < sv.fds.accepted, stopped.fds.closes n = 1) ∧
            (∀ fd, stopped.fds.refers fd = if es.foldl IpcServer.Event.others
              (fun fd => decide (h.fds.refers fd = some .other)) fd then some .other else none) ∧
            stopped.entries =
              if unlinkFails then entries else Function.update entries l.sockPath .absent := by
  obtain ⟨h₁, hstart, hfds, hentries⟩ | ⟨p, fd, rfl, hpos, hunused, hstart⟩ :=
    Host.ipcServerStart_cases sf umask path agent hfd
  · constructor
    · rintro h' heq
      obtain rfl := congrArg Prod.snd (hstart.symm.trans heq)
      exact ⟨hfds, hentries⟩
    · rintro l h' heq
      exact absurd (congrArg Prod.fst (hstart.symm.trans heq)) (by simp)
  · constructor
    · rintro h' heq
      exact absurd (congrArg Prod.fst (hstart.symm.trans heq)) (by simp)
    · rintro l h' heq
      obtain ⟨hl, rfl⟩ := Prod.mk.inj (hstart.symm.trans heq)
      obtain rfl := Option.some.inj hl
      refine ⟨rfl, rfl, fun es os sv hrun unlinkFails entries => ?_⟩
      obtain ⟨hinv, hsteady⟩ := hclean.start hunused agent
      obtain ⟨hsteady', hinv'⟩ := hsteady.run hinv hrun
      obtain ⟨hgone, haccepted, hrefers, hleft⟩ :=
        Host.clean_ipcServerStop (l := ⟨sv, p⟩) hinv' hsteady' hpos unlinkFails entries
      refine ⟨hgone, fun n hn => ?_, hrefers, hleft⟩
      refine hgone.gone n (haccepted.symm ▸ hn) fun fd' hfd' => ?_
      obtain ⟨i, hi⟩ := hgone.holder fd' n hfd'
      exact absurd hi (by simp)

/-- A process that has nothing open, and no file. -/
def bareHost : Host := ⟨⟨fun _ => none, 0, fun _ => 0, 0⟩, fun _ => .absent⟩

/-- Nothing fails, and the socket gets number 3. -/
def startsAtThree : StartFaults := ⟨false, some 3, false, false, false, false, false, false, false⟩

theorem clean_bareHost : bareHost.Clean := Owned.start (by simp [bareHost]) rfl (fun _ => rfl) rfl

theorem fresh_startsAtThree :
    ∀ fd, startsAtThree.socket = some fd → 0 ≤ fd ∧ bareHost.fds.refers fd = none := by
  rintro _ ⟨⟩
  exact ⟨by decide, rfl⟩

/-- After two clients and a stop, both were closed once and nothing is open. -/
theorem server_leaves_nothing_reuse : ∃ (l : Listener) (sv : IpcServer),
    (bareHost.ipcServerStart startsAtThree 0o755 ⟨fun _ => ∅, .clear, []⟩
      (some (ascii "/run/ipc.sock"))).1 = some l ∧ sv.fds.accepted = 2 ∧
    let stopped := Host.ipcServerStop false ⟨sv, l.sockPath⟩
      (Function.update (fun _ => .absent) l.sockPath (.socket 0o660))
    stopped.fds.closes 0 = 1 ∧ stopped.fds.closes 1 = 1 ∧ stopped.fds.refers 3 = none := by
  obtain ⟨-, hstarts⟩ := server_leaves_nothing wireCodec .shipped (fun _ => .none) startsAtThree
    0o755 (some (ascii "/run/ipc.sock")) ⟨fun _ => ∅, .clear, []⟩ bareHost clean_bareHost
    fresh_startsAtThree
  obtain ⟨l, h', hstart, os, sv, hrun, haccepted⟩ : ∃ l h', bareHost.ipcServerStart startsAtThree
      0o755 ⟨fun _ => ∅, .clear, []⟩ (some (ascii "/run/ipc.sock")) = (some l, h') ∧
      ∃ os sv, run (fun sv e => IpcServer.step wireCodec .shipped (fun _ => .none) sv e) l.server
        reuse = some (os, sv) ∧ sv.fds.accepted = 2 := ⟨_, _, rfl, _, _, rfl, rfl⟩
  obtain ⟨-, -, hstop⟩ := hstarts l h' hstart
  obtain ⟨-, hclosed, hrefers, -⟩ := hstop reuse os sv hrun false
    (Function.update (fun _ => .absent) l.sockPath (.socket 0o660))
  exact ⟨l, sv, congrArg Prod.fst hstart, haccepted, hclosed 0 (by omega), hclosed 1 (by omega),
    hrefers 3⟩

/-! ### Asking `select()` -/

/-- There is room for a descriptor in a set. -/
def HasRoom (fd : ℤ) : Prop := 0 ≤ fd ∧ fd < fdSetSize

/-- What has been added to a set, and to the maximum. -/
structure AddsFds (P : ℤ → Prop) (p q : (ℤ → Bool) × ℤ) : Prop where
  set : ∀ fd, q.1 fd = true ↔ p.1 fd = true ∨ P fd
  le : p.2 ≤ q.2
  bound : ∀ fd, P fd → fd ≤ q.2
  max : q.2 = p.2 ∨ P q.2

/-- **Descriptors are added**: there is no room for one of them, or they are all there. -/
def AddsAll (P : ℤ → Prop) (p : (ℤ → Bool) × ℤ) (r : Option ((ℤ → Bool) × ℤ)) : Prop :=
  (r = none ∧ ∃ fd, P fd ∧ ¬HasRoom fd) ∨ ∃ q, r = some q ∧ (∀ fd, P fd → HasRoom fd) ∧ AddsFds P p q

section Select

variable {P Q : ℤ → Prop} {p : (ℤ → Bool) × ℤ} {r : Option ((ℤ → Bool) × ℤ)}

/-- Some descriptors after others. -/
theorem AddsAll.bind (h : AddsAll P p r) {next : (ℤ → Bool) × ℤ → Option ((ℤ → Bool) × ℤ)}
    (hnext : ∀ q, AddsAll Q q (next q)) : AddsAll (fun fd => P fd ∨ Q fd) p (r.bind next) := by
  obtain ⟨rfl, fd, hfd, hroom⟩ | ⟨q, rfl, hroom, hadds⟩ := h
  · exact Or.inl ⟨rfl, fd, Or.inl hfd, hroom⟩
  rw [Option.bind_some]
  obtain ⟨hnone, fd, hfd, hroom'⟩ | ⟨q', hq', hroom', hadds'⟩ := hnext q
  · exact Or.inl ⟨hnone, fd, Or.inr hfd, hroom'⟩
  refine Or.inr ⟨q', hq', fun fd => Or.rec (hroom fd) (hroom' fd), ?_, ?_, ?_, ?_⟩
  · intro fd
    rw [hadds'.set, hadds.set, or_assoc]
  · exact hadds.le.trans hadds'.le
  · rintro fd (hP | hQ)
    · exact (hadds.bound fd hP).trans hadds'.le
    · exact hadds'.bound fd hQ
  · obtain hsame | hQ := hadds'.max
    · rw [hsame]
      exact hadds.max.imp_right Or.inl
    · exact Or.inr (Or.inr hQ)

theorem addsAll_addFd (fd : ℤ) (p : (ℤ → Bool) × ℤ) :
    AddsAll (· = fd) p (IpcServer.addFd fd p) := by
  rw [IpcServer.addFd, fdSet]
  by_cases hroom : 0 ≤ fd ∧ fd < fdSetSize
  · rw [if_pos hroom]
    refine Or.inr ⟨_, rfl, fun fd' hfd' => hfd' ▸ hroom, fun fd' => ?_, ?_, ?_, ?_⟩
    · by_cases hfd : fd' = fd
      · simp [hfd]
      · simp [hfd]
    · show p.2 ≤ if fd > p.2 then fd else p.2
      split_ifs <;> omega
    · rintro fd' rfl
      show fd' ≤ if fd' > p.2 then fd' else p.2
      split_ifs <;> omega
    · show (if fd > p.2 then fd else p.2) = p.2 ∨ (if fd > p.2 then fd else p.2) = fd
      split_ifs
      · exact Or.inr rfl
      · exact Or.inl rfl
  · rw [if_neg hroom]
    exact Or.inl ⟨rfl, fd, rfl, hroom⟩

/-- The loop over the slots. -/
theorem addsAll_slots (sv : IpcServer) (is : List (Fin ipcMaxClients)) :
    ∀ p, AddsAll (fun fd => ∃ i ∈ is, sv.hold i = some fd) p (is.foldlM (fun p i =>
      if (sv.clients i).inUse then IpcServer.addFd (sv.clients i).fd p else some p) p) := by
  induction is with
  | nil =>
    intro p
    exact Or.inr ⟨p, rfl, by simp, by simp, le_rfl, by simp, Or.inl rfl⟩
  | cons i is ih =>
    intro p
    have hfirst : AddsAll (fun fd => sv.hold i = some fd) p
        (if (sv.clients i).inUse then IpcServer.addFd (sv.clients i).fd p else some p) := by
      rw [IpcServer.hold]
      split_ifs
      · simpa only [Option.some.injEq, eq_comm] using addsAll_addFd (sv.clients i).fd p
      · exact Or.inr ⟨p, rfl, by simp, by simp, le_rfl, by simp, Or.inl rfl⟩
    simp only [List.exists_mem_cons_iff, List.foldlM_cons]
    exact hfirst.bind ih

end Select

/-- **`select()` is asked about exactly what the server has open.** After any run from
`ipc_server_start`, `ipc_server_fill_fdset` adds to the set the listening socket and every open
connection, and no other number; the maximum it returns is the largest of these and the one it was
given. The set has room for them unless one of them is 1024 or more, and that is not checked. -/
theorem fdset_is_exact (pb : PbCodec) (m : Modes) (f : ℕ → FrameFaults) (sf : StartFaults)
    (umask : ℕ) (path : Option Bytes) (agent : Agent) (h h' : Host) (l : Listener)
    (hclean : h.Clean) (hfd : ∀ fd, sf.socket = some fd → 0 ≤ fd ∧ h.fds.refers fd = none)
    (hstart : h.ipcServerStart sf umask agent path = (some l, h')) (es : List IpcServer.Event)
    (os : List Unit) (sv : IpcServer)
    (hrun : run (fun sv e => IpcServer.step pb m f sv e) l.server es = some (os, sv))
    (readfds : ℤ → Bool) (maxfd : ℤ) :
    let opened := fun fd => fd = sv.listenFd ∨ ∃ n, sv.fds.refers fd = some (.connection n)
    (sv.fillFdset readfds maxfd = none ↔ ∃ fd, opened fd ∧ fdSetSize ≤ fd) ∧
      ∀ readfds' maxfd', sv.fillFdset readfds maxfd = some (readfds', maxfd') →
        (∀ fd, readfds' fd = true ↔ readfds fd = true ∨ opened fd) ∧
        maxfd ≤ maxfd' ∧ (∀ fd, opened fd → fd ≤ maxfd') ∧ (maxfd' = maxfd ∨ opened maxfd') := by
  obtain ⟨h₁, hfailed, -⟩ | ⟨p, fd, rfl, hpos, hunused, hstarted⟩ :=
    Host.ipcServerStart_cases sf umask path agent hfd
  · exact absurd (congrArg Prod.fst (hstart.symm.trans hfailed)) (by simp)
  obtain rfl := Option.some.inj (congrArg Prod.fst (hstart.symm.trans hstarted))
  obtain ⟨hinv₀, hsteady₀⟩ := hclean.start hunused agent
  obtain ⟨hsteady, hinv⟩ := hsteady₀.run hinv₀ hrun
  intro opened
  have hheld : ∀ fd', (∃ i ∈ List.finRange ipcMaxClients, sv.hold i = some fd') ↔
      ∃ n, sv.fds.refers fd' = some (.connection n) := by
    intro fd'
    constructor
    · rintro ⟨i, -, hi⟩
      exact hinv.owned.held i fd' hi
    · rintro ⟨n, hn⟩
      obtain ⟨i, hi⟩ := hinv.owned.holder fd' n hn
      exact ⟨i, List.mem_finRange i, hi⟩
  have hnonneg : ∀ fd', opened fd' → 0 ≤ fd' := by
    rintro fd' (hlisten | hconn)
    · rw [hlisten, hsteady.listenFd]
      exact hpos
    · obtain ⟨i, -, hi⟩ := (hheld fd').mpr hconn
      cases hi' : (sv.clients i).inUse with
      | true =>
        obtain rfl := Option.some.inj ((IpcServer.hold_of_inUse hi').symm.trans hi)
        exact hsteady.nonneg i hi'
      | false => exact absurd ((IpcServer.hold_of_not_inUse hi').symm.trans hi) (by simp)
  have hfill : sv.fillFdset readfds maxfd = (IpcServer.addFd sv.listenFd (readfds, maxfd)).bind
      fun p => (List.finRange ipcMaxClients).foldlM (fun p i =>
        if (sv.clients i).inUse then IpcServer.addFd (sv.clients i).fd p else some p) p := by
    rw [IpcServer.fillFdset, if_neg]
    rw [hsteady.listenFd]
    omega
  have hadds : AddsAll opened (readfds, maxfd) (sv.fillFdset readfds maxfd) := by
    rw [hfill]
    simpa only [hheld] using (addsAll_addFd sv.listenFd (readfds, maxfd)).bind
      (addsAll_slots sv (List.finRange ipcMaxClients))
  obtain ⟨hnone, fd', hopened, hroom⟩ | ⟨q, hq, hroom, hset⟩ := hadds
  · refine ⟨iff_of_true hnone ⟨fd', hopened, ?_⟩, fun s' m' hs' => ?_⟩
    · by_contra hlt
      exact hroom ⟨hnonneg fd' hopened, not_le.mp hlt⟩
    · exact absurd (hnone.symm.trans hs') (by simp)
  · constructor
    · rw [hq]
      refine iff_of_false (by simp) ?_
      rintro ⟨fd', hopened, hbig⟩
      exact absurd (hroom fd' hopened).2 (not_lt.mpr hbig)
    · rintro readfds' maxfd' hs'
      obtain rfl := Option.some.inj (hq.symm.trans hs')
      exact ⟨hset.set, hset.le, hset.bound, hset.max⟩

/-- After a third client in the place of the first two, `select()` is asked about numbers 3 and
5. -/
theorem fdset_is_exact_reuse : ∃ (sv : IpcServer) (readfds : ℤ → Bool) (maxfd : ℤ),
    sv.fillFdset (fun _ => false) (-1) = some (readfds, maxfd) ∧ sv.fds.accepted = 3 ∧
      (∀ fd, readfds fd = true ↔
        fd = sv.listenFd ∨ ∃ n, sv.fds.refers fd = some (.connection n)) ∧ readfds 5 = true := by
  obtain ⟨l, h', hstart, os, sv, hrun, haccepted, readfds, maxfd, hfill, hfive⟩ : ∃ l h',
      bareHost.ipcServerStart startsAtThree 0o755 ⟨fun _ => ∅, .clear, []⟩
        (some (ascii "/run/ipc.sock")) = (some l, h') ∧
      ∃ os sv, run (fun sv e => IpcServer.step wireCodec .shipped (fun _ => .none) sv e) l.server
        (reuse ++ [.dispatch ⟨fun _ => true, [.connected 5], fun _ => []⟩]) = some (os, sv) ∧
      sv.fds.accepted = 3 ∧ ∃ readfds maxfd, sv.fillFdset (fun _ => false) (-1) =
        some (readfds, maxfd) ∧ readfds 5 = true := ⟨_, _, rfl, _, _, rfl, rfl, _, _, rfl, rfl⟩
  obtain ⟨-, hset⟩ := fdset_is_exact wireCodec .shipped (fun _ => .none) startsAtThree 0o755
    (some (ascii "/run/ipc.sock")) ⟨fun _ => ∅, .clear, []⟩ bareHost h' l clean_bareHost
    fresh_startsAtThree hstart _ os sv hrun (fun _ => false) (-1)
  exact ⟨sv, readfds, maxfd, hfill, haccepted, by simpa using (hset readfds maxfd hfill).1, hfive⟩

end AgentxSubagent
