import AgentxSubagent.Ipc.Serving

/-!
# Calls that do not return

When a call of `ipc_server_dispatch` returns, whatever the state of the client table, the ready
descriptors and the answers of the kernel are. A peer that sends a request and does not read the
response is waited for without end, and so is one that never stops sending.

* `AgentxSubagent.Conduct.letsGo_of_returns`, `AgentxSubagent.Conduct.returns_of_letsGo`: the call
  returns exactly when nobody holds it up, slot by slot.
* `AgentxSubagent.Conduct.returns`: a simple condition that is enough, whatever is asked.
-/

namespace AgentxSubagent

open Loops Resume Supply

/-! ### The call -/

/-- `accept_new_clients` returns on this answer. -/
def IpcServer.AcceptResult.Ends : IpcServer.AcceptResult → Prop
  | .wouldBlock | .failed => True
  | .connected _ | .interrupted => False

namespace Conduct

variable (c : Conduct) (pb : PbCodec) (m : Modes) (f : ℕ → FrameFaults) (readfds : ℤ → Bool)

/-- What a call does before it comes to slot `i`. The slots are not independent: what is stored for
a request on one of them can be part of an answer on a later one. -/
def before (i : Fin ipcMaxClients) (bound : ℕ) (sv : IpcServer) : Option IpcServer :=
  (if readfds sv.listenFd then c.acceptNewClients bound sv else some sv).bind fun sv =>
    ((List.finRange ipcMaxClients).take i).foldlM (c.serveSlot pb m f readfds bound) sv

/-- **Nobody holds up the call**: if the listening socket is ready, `accept()` answers at some time
that there is nobody, or an error; and a peer in use whose descriptor is ready lets the server go,
in the state `sv₁` in which its turn comes. -/
structure LetsGo (sv : IpcServer) : Prop where
  accepts : readfds sv.listenFd = true → ∃ k, (c.accepts k).Ends
  peers : ∀ i sv₁, (∃ bound, c.before pb m f readfds i bound sv = some sv₁) →
    (sv₁.clients i).inUse = true → readfds (sv₁.clients i).fd = true →
    (c.peers i).LetsGo pb m f (sv₁.account i)

/-- **What a turn of `accept_new_clients` does**: it returns, or it makes another call. -/
theorem acceptTurn_cases (s : Accepting) :
    (c.accepts s.accepts).Ends ∧ c.acceptTurn s = .leave s.server ∨
      ¬(c.accepts s.accepts).Ends ∧ ∃ sv, c.acceptTurn s = .next ⟨sv, s.accepts + 1⟩ := by
  rw [acceptTurn]
  rcases c.accepts s.accepts with fd | _ | _ | _
  · simp only
    rcases s.server.findFreeSlot with _ | i
    · exact Or.inr ⟨id, _, rfl⟩
    · exact Or.inr ⟨id, _, rfl⟩
  · exact Or.inl ⟨trivial, rfl⟩
  · exact Or.inr ⟨id, _, rfl⟩
  · exact Or.inl ⟨trivial, rfl⟩

variable {c}

/-- **`accept_new_clients` returns** if `accept()` comes to an end. -/
theorem acceptNewClients_settles (h : ∃ k, (c.accepts k).Ends) (sv : IpcServer) :
    ∃ sv', Settles (fun n => c.acceptNewClients n sv) sv' := by
  obtain ⟨k, hk⟩ := h
  have hloop : ∃ sv', Settles (fun n => c.acceptNewClients n sv) sv' ∧ True := by
    refine settles_loop (fun s => k - s.accepts) (P := fun s => s.accepts ≤ k) (fun s hs => ?_)
      (Nat.zero_le k)
    refine ⟨_, settles_some _, ?_⟩
    obtain ⟨-, hturn⟩ | ⟨hgoes, sv', hturn⟩ := c.acceptTurn_cases s
    · rw [hturn]
      trivial
    · have hne : s.accepts ≠ k := by
        rintro rfl
        exact hgoes hk
      have hle : s.accepts + 1 ≤ k := by omega
      have hlt : k - (s.accepts + 1) < k - s.accepts := by omega
      rw [hturn]
      exact ⟨hle, hlt⟩
  obtain ⟨sv', hsettles, -⟩ := hloop
  exact ⟨sv', hsettles⟩

/-- And only then. -/
theorem ends_of_acceptNewClients {bound : ℕ} {sv sv' : IpcServer}
    (h : c.acceptNewClients bound sv = some sv') : ∃ k, (c.accepts k).Ends := by
  by_contra hendless
  push Not at hendless
  have hnone : c.acceptNewClients bound sv = none := by
    refine loop_eq_none (P := fun _ => True) (fun s _ t ht => ?_) bound trivial
    obtain rfl := Option.some.inj ht
    obtain ⟨hends, -⟩ | ⟨-, sv', hturn⟩ := c.acceptTurn_cases s
    · exact absurd hends (hendless _)
    · rw [hturn]
      trivial
  exact absurd (hnone.symm.trans h) (by simp)

section Returns

variable {pb m f readfds} {sv sv₁ : IpcServer} {i : Fin ipcMaxClients}

theorem grows_accept (c : Conduct) (readfds : ℤ → Bool) (sv : IpcServer) :
    Grows fun n => if readfds sv.listenFd then c.acceptNewClients n sv else some sv := by
  have hturn : ∀ s, Grows fun _ => some (c.acceptTurn s) := fun s => grows_const _
  exact (grows_loop hturn _).ite (grows_const _) _

theorem grows_serveSlot (sv : IpcServer) (i : Fin ipcMaxClients) :
    Grows fun n => c.serveSlot pb m f readfds n sv i :=
  ((c.peers i).grows_serviceClient pb m f i sv).ite (grows_const _) _

theorem exists_before_iff :
    (∃ bound, c.before pb m f readfds i bound sv = some sv₁) ↔
      ∃ sv₀, (∃ n, (if readfds sv.listenFd then c.acceptNewClients n sv else some sv) = some sv₀) ∧
        ∃ n, ((List.finRange ipcMaxClients).take i).foldlM (c.serveSlot pb m f readfds n) sv₀ =
          some sv₁ :=
  exists_bind_iff (grows_accept c readfds sv) fun sv => grows_foldlM grows_serveSlot _ sv

/-- **A call that returns was not held up.** -/
theorem letsGo_of_returns (hlisten : 0 ≤ sv.listenFd) (h : c.Returns pb m f readfds sv) :
    c.LetsGo pb m f readfds sv := by
  obtain ⟨bound, sv', hdispatch⟩ := h
  rw [dispatch, if_neg (Int.not_lt.mpr hlisten)] at hdispatch
  obtain ⟨sv₀, haccept, hslots⟩ := Option.bind_eq_some_iff.mp hdispatch
  have hturns := (exists_foldlM_iff grows_serveSlot (List.finRange ipcMaxClients) sv₀).mp
    ⟨bound, sv', hslots⟩
  refine ⟨fun hready => ?_, fun i sv₁ hbefore hi hfd => ?_⟩
  · rw [if_pos hready] at haccept
    exact ends_of_acceptNewClients haccept
  · obtain ⟨sv₀', ⟨n, hn⟩, hreach⟩ := exists_before_iff.mp hbefore
    obtain rfl := (grows_accept c readfds sv).unique haccept hn
    obtain ⟨n', sv₂, hserve⟩ := hturns i (by simp) sv₁ hreach
    rw [List.getElem_finRange, serveSlot] at hserve
    simp only [Fin.cast_mk, Fin.eta, hi, hfd, Bool.and_self, if_true] at hserve
    exact Peer.letsGo_of_serviceClient hi hserve

/-- **A call that nobody holds up returns.** -/
theorem returns_of_letsGo (hlisten : 0 ≤ sv.listenFd) (h : c.LetsGo pb m f readfds sv) :
    c.Returns pb m f readfds sv := by
  have haccept : ∃ sv₀, ∃ n,
      (if readfds sv.listenFd then c.acceptNewClients n sv else some sv) = some sv₀ := by
    by_cases hready : readfds sv.listenFd = true
    · obtain ⟨sv₀, hsettles⟩ := acceptNewClients_settles (h.accepts hready) sv
      simp only [if_pos hready]
      exact ⟨sv₀, hsettles.exists_eq⟩
    · exact ⟨sv, 0, if_neg hready⟩
  obtain ⟨sv₀, hsv₀⟩ := haccept
  have hslots : ∃ n sv',
      (List.finRange ipcMaxClients).foldlM (c.serveSlot pb m f readfds n) sv₀ = some sv' := by
    refine (exists_foldlM_iff grows_serveSlot _ sv₀).mpr fun k hk sv₁ hreach => ?_
    have hk' : k < ipcMaxClients := by simpa using hk
    have hturn := h.peers ⟨k, hk'⟩ sv₁ (exists_before_iff.mpr ⟨sv₀, hsv₀, hreach⟩)
    rw [List.getElem_finRange]
    simp only [Fin.cast_mk, serveSlot]
    by_cases hserved : ((sv₁.clients ⟨k, hk'⟩).inUse && readfds (sv₁.clients ⟨k, hk'⟩).fd) = true
    · obtain ⟨hi, hfd⟩ := Bool.and_eq_true_iff.mp hserved
      obtain ⟨sv₂, hsettles⟩ := Peer.settles_serviceClient hi (hturn hi hfd)
      obtain ⟨n, hn⟩ := hsettles.exists_eq
      exact ⟨n, sv₂, (if_pos hserved).trans hn⟩
    · exact ⟨0, sv₁, if_neg hserved⟩
  obtain ⟨n, sv', hn⟩ := hslots
  obtain ⟨bound, hbound⟩ := (exists_bind_iff (grows_accept c readfds sv)
    fun sv => grows_foldlM grows_serveSlot _ sv).mpr ⟨sv₀, hsv₀, n, hn⟩
  exact ⟨bound, sv', (if_neg (Int.not_lt.mpr hlisten)).trans hbound⟩

/-- The slots that are served leave the others alone. -/
theorem foldlM_others {is : List (Fin ipcMaxClients)} {bound : ℕ} {sv' : IpcServer} (hi : i ∉ is)
    (h : is.foldlM (c.serveSlot pb m f readfds bound) sv = some sv') :
    sv'.clients i = sv.clients i := by
  induction is generalizing sv with
  | nil =>
    obtain rfl := Option.some.inj h
    rfl
  | cons j is ih =>
    rw [List.foldlM_cons] at h
    obtain ⟨sv₁, hslot, hrest⟩ := Option.bind_eq_some_iff.mp h
    obtain ⟨hne, hi'⟩ := not_or.mp (List.mem_cons.not.mp hi)
    rw [ih hi' hrest]
    rw [serveSlot] at hslot
    split_ifs at hslot
    · exact Peer.serviceClient_others hslot hne
    · obtain rfl := Option.some.inj hslot
      rfl

/-- **When the turn of a slot comes**, it is as `accept_new_clients` has left it. -/
theorem clients_before {bound : ℕ} (h : c.before pb m f readfds i bound sv = some sv₁) :
    ∃ sv₀, (if readfds sv.listenFd then c.acceptNewClients bound sv else some sv) = some sv₀ ∧
      sv₁.clients i = sv₀.clients i := by
  obtain ⟨sv₀, haccept, hslots⟩ := Option.bind_eq_some_iff.mp h
  have hbefore : i ∉ (List.finRange ipcMaxClients).take i := by
    intro hmem
    obtain ⟨k, hk, heq⟩ := List.mem_take_iff_getElem.mp hmem
    rw [List.getElem_finRange] at heq
    have hval := congrArg Fin.val heq
    simp only [Fin.val_cast] at hval
    omega
  exact ⟨sv₀, haccept, foldlM_others hbefore hslots⟩

end Returns

end Conduct

/-! ### Peers that cannot hold up a call -/

/-- `service_client` returns on this answer. -/
def ReadResult.Ends : ReadResult → Prop
  | .data chunk => chunk = []
  | .endOfFile | .wouldBlock | .failed => True
  | .interrupted => False

/-- **A peer that cannot hold up the server**: it stops sending for a moment, or closes, and it
goes on reading what it is sent, unless the connection breaks. -/
structure Peer.Cooperates (p : Peer) : Prop where
  reads : ∃ k, (p.reads k).Ends
  writes : Live p.taken p.Fails 0

/-- **Nobody can hold up the server.** -/
structure Conduct.Cooperates (c : Conduct) : Prop where
  accepts : ∃ k, (c.accepts k).Ends
  peers : ∀ i, (c.peers i).Cooperates

section Cooperates

variable {pb : PbCodec} {m : Modes} {f : ℕ → FrameFaults} {p : Peer}
  {start : Account × Option Bytes}

/-- The connection is over with the read that ends it. -/
theorem Peer.heard_of_ends {k : ℕ} (h : (p.reads k).Ends) :
    (p.heard pb m f start (k + 1)).2 = none := by
  rcases hheard : p.heard pb m f start k with ⟨a, _ | rest⟩
  · rw [heard, hheard]
  rw [heard_succ hheard, Account.hear.eq_def]
  split_ifs
  · rfl
  revert h
  rcases p.reads k with (_ | ⟨b, chunk⟩) | _ | _ | _ | _
  · exact fun _ => rfl
  · exact fun h => absurd h (List.cons_ne_nil b chunk)
  · exact fun _ => rfl
  · exact fun _ => rfl
  · exact fun h => h.elim
  · exact fun _ => rfl

/-- A peer that keeps up to the end lets the server go. -/
theorem Peer.KeepsUp.letsGo {n : ℕ} (h : p.KeepsUp (p.heard pb m f start n).1)
    (hover : (p.heard pb m f start n).2 = none) : p.LetsGo pb m f start :=
  ⟨n, h.imp_right fun hall => ⟨hover, hall⟩⟩

theorem Peer.Cooperates.letsGo (h : p.Cooperates) : p.LetsGo pb m f start := by
  obtain ⟨k, hk⟩ := h.reads
  have hkeeps : p.KeepsUp (p.heard pb m f start (k + 1)).1 := serves_of_live h.writes _
  exact hkeeps.letsGo (heard_of_ends hk)

/-- **The call returns** if nobody can hold it up. -/
theorem Conduct.returns {c : Conduct} (h : c.Cooperates) (pb : PbCodec) (m : Modes)
    (f : ℕ → FrameFaults) (readfds : ℤ → Bool) (sv : IpcServer) : c.Returns pb m f readfds sv := by
  by_cases hlisten : sv.listenFd < 0
  · exact ⟨0, sv, if_pos hlisten⟩
  · exact returns_of_letsGo (Int.not_lt.mp hlisten)
      ⟨fun _ => h.accepts, fun i _ _ _ _ => (h.peers i).letsGo⟩

/-- A peer that takes nothing does not let the server go once it is owed something. -/
theorem Peer.not_letsGo (hdry : ∀ j, p.taken j = 0) (hok : ∀ j, ¬p.Fails j) {n d : ℕ}
    (howed : d ∈ (p.heard pb m f start n).1.answers) (hpos : 0 < d)
    (hopen : ∀ n' < n, (p.heard pb m f start n').2 ≠ none) : ¬p.LetsGo pb m f start := by
  rintro ⟨n', h⟩
  rcases Nat.lt_or_ge n' n with hlt | hle
  · obtain hbreaks | ⟨hover, -⟩ := h
    · exact not_breaksIn_of_forall hok hbreaks
    · exact hopen n' hlt hover
  · have hkeeps : p.KeepsUp (p.heard pb m f start n').1 := h.imp_right And.right
    have hserves := hkeeps.of_prefix (p.answers_heard_mono pb m f start hle)
    exact not_serves_of_dry hdry hok howed hpos hserves

end Cooperates

/-! ### One client -/

/-- A ping. -/
def pingEnvelope : Envelope := ⟨1, .pingRequest 0⟩

/-- A whole frame that is answered. -/
theorem Account.hear_frame {pb : PbCodec} {m : Modes} {f : ℕ → FrameFaults} {a a' : Account}
    {payload : Bytes} (hpos : 1 ≤ payload.length) (hsmall : payload.length ≤ 65536)
    (howe : a.owe pb m f payload = (a', true)) :
    a.hear pb m f [] (.data (frameBytes payload)) = (a', some []) := by
  have hlength := length_frameBytes payload
  have hsize : ipcClientBufSize = 131080 := rfl
  obtain ⟨b, chunk, hcons⟩ := List.exists_cons_of_length_pos (l := frameBytes payload) (by omega)
  have href : refHandle (Account.owe pb m f) a payload = (a', none) := by
    rw [refHandle, howe]
    rfl
  have hnil : ipcFraming.next [] = .more := rfl
  have hroom : ¬([] : Bytes).length ≥ ipcClientBufSize := by
    rw [List.length_nil]
    omega
  have hparse : a.parse pb m f (frameBytes payload) = ⟨a', [payload], .ok []⟩ := by
    rw [parse, parseAll_item (nextFrame_frameBytes hpos hsmall) href, parseAll_more hnil]
    rfl
  simp only [hear.eq_def, if_neg hroom, hcons]
  rw [← hcons, List.nil_append, List.take_of_length_le (by rw [List.length_nil]; omega), hparse]
  rfl

/-- The answer to a ping is owed. -/
theorem Account.owe_ping {pb : PbCodec} (hpb : pb.Lawful) (m : Modes) (f : ℕ → FrameFaults)
    (a : Account) :
    a.owe pb m f (pb.encodeToVec pingEnvelope) =
      (⟨a.agent, a.frames + 1, a.answers ++
        [(frameBytes (pb.pbEncode ⟨1, .pingResponse 0⟩)).length]⟩, true) := by
  have hconforms : pingEnvelope.Conforms := trivial
  have hanswer : (Envelope.mk 1 (.pingResponse 0)).Conforms := trivial
  simp only [owe, hpb.pbDecode_encodeToVec hconforms]
  simp only [pingEnvelope, answerBody, sendEnvelope_eq hpb hanswer]

/-- Nobody connects, and every connection is closed at once. -/
def quiet : Conduct := ⟨fun _ => .wouldBlock, fun _ => ⟨fun _ => .endOfFile, fun _ => .failed⟩⟩

/-- A conduct in which only the peer of slot `i` does anything. -/
def Conduct.only (i : Fin ipcMaxClients) (p : Peer) : Conduct :=
  { quiet with peers := Function.update quiet.peers i p }

/-- A server without a client. -/
def noClient : IpcServer := ipcServerStart 3 (fun _ => false) ⟨fun _ => ∅, .clear, []⟩

/-- A server whose only client is in slot `i`, on descriptor 5. -/
def oneClient (i : Fin ipcMaxClients) : IpcServer := noClient.openClient i 5

/-- `select()` found descriptor 5 readable. -/
def fiveReadable (fd : ℤ) : Bool := fd = 5

section OneClient

variable {pb : PbCodec} {m : Modes} {f : ℕ → FrameFaults} {p : Peer} {i : Fin ipcMaxClients}

theorem inUse_oneClient : ((oneClient i).clients i).inUse = true := by
  rw [oneClient, IpcServer.clients_openClient_self]

/-- Nothing is owed to the client yet, and its buffer is empty. -/
theorem account_oneClient (i : Fin ipcMaxClients) :
    (oneClient i).account i = (⟨(oneClient i).agent, 0, []⟩, some []) := by
  have hclient : (oneClient i).clients i = ⟨5, true, IpcClient.reset .fresh⟩ :=
    IpcServer.clients_openClient_self 5
  have hrefers : (noClient.fds.accept 5).refers 5 = some (.connection 0) :=
    Function.update_self (5 : ℤ) _ noClient.fds.refers
  have hconn : (oneClient i).connection i = some 0 := by
    rw [IpcServer.connection_eq_some, hclient]
    exact hrefers
  have hvalid : (IpcClient.reset .fresh).valid = [] := List.take_zero
  rw [IpcServer.account, hconn, hclient, hvalid]
  rfl

/-- **The first read of a ping**: the response is owed. -/
theorem Peer.heard_ping (hpb : pb.Lawful)
    (hread : p.reads 0 = .data (frameBytes (pb.encodeToVec pingEnvelope))) :
    p.heard pb m f ((oneClient i).account i) 1 = (⟨(oneClient i).agent, 1,
      [(frameBytes (pb.pbEncode ⟨1, .pingResponse 0⟩)).length]⟩, some []) := by
  have hconforms : pingEnvelope.Conforms := trivial
  obtain ⟨hpos, hsmall⟩ := hpb.encodeToVec_bounds hconforms
  have hstart : p.heard pb m f ((oneClient i).account i) 0 =
      (⟨(oneClient i).agent, 0, []⟩, some []) := account_oneClient i
  rw [heard_succ hstart, hread]
  exact Account.hear_frame hpos (hsmall.trans (by decide)) (Account.owe_ping hpb m f _)

/-- The other slots are not in use when their turn comes. -/
theorem Conduct.inUse_before {c : Conduct} {j : Fin ipcMaxClients} {sv₁ : IpcServer} {bound : ℕ}
    (hj : j ≠ i) (h : c.before pb m f fiveReadable j bound (oneClient i) = some sv₁) :
    (sv₁.clients j).inUse = false := by
  obtain ⟨sv₀, haccept, hslot⟩ := clients_before h
  -- descriptor 3 is not ready, so nobody is accepted
  obtain rfl := Option.some.inj haccept
  rw [hslot, oneClient, IpcServer.clients_openClient_of_ne 5 hj]
  rfl

end OneClient

/-- **When one call of `ipc_server_dispatch` returns**: exactly when there is no listening socket,
or nobody holds it up. If the listening socket is ready, `accept()` answers at some time that there
is nobody, or an error; and of every slot in use with a ready descriptor, when its turn comes, the
reads come to an end, or what they bring has the connection closed, and the calls of `write()` take
all the answers that are owed until then, or one of them fails under such an answer. -/
theorem dispatch_returns_iff (pb : PbCodec) (m : Modes) (f : ℕ → FrameFaults) (readfds : ℤ → Bool)
    (c : Conduct) (sv : IpcServer) :
    c.Returns pb m f readfds sv ↔ sv.listenFd < 0 ∨ c.LetsGo pb m f readfds sv := by
  by_cases hlisten : sv.listenFd < 0
  · exact iff_of_true ⟨0, sv, if_pos hlisten⟩ (Or.inl hlisten)
  · rw [or_iff_right hlisten]
    exact ⟨Conduct.letsGo_of_returns (Int.not_lt.mp hlisten),
      Conduct.returns_of_letsGo (Int.not_lt.mp hlisten)⟩

/-- A peer that sends a ping, takes the response after a while, and nothing ever again. -/
def slowPeer : Peer where
  reads k := if k = 0 then .data (frameBytes (wireCodec.encodeToVec pingEnvelope)) else .wouldBlock
  writes k := if k = 3 then .wrote 1028 else .wouldBlock

/-- It is waited for, and then the call returns. -/
theorem dispatch_returns_slow :
    (Conduct.only ⟨0, by decide⟩ slowPeer).LetsGo wireCodec .shipped (fun _ => .none) fiveReadable
        (oneClient ⟨0, by decide⟩) ∧
      (Conduct.only ⟨0, by decide⟩ slowPeer).Returns wireCodec .shipped (fun _ => .none)
        fiveReadable (oneClient ⟨0, by decide⟩) := by
  have hmeets : MeetsAll slowPeer.taken slowPeer.Fails
      [(frameBytes (wireCodec.pbEncode ⟨1, .pingResponse 0⟩)).length] 0 4 := by
    obtain ⟨-, hsmall⟩ := wireCodec_lawful.pbEncode_bounds
      (e := ⟨1, .pingResponse 0⟩) trivial
    have hlength := length_frameBytes (wireCodec.pbEncode ⟨1, .pingResponse 0⟩)
    have hfour : given slowPeer.taken 0 4 = 1028 := by decide
    have hwaits : ∀ x < 4, given slowPeer.taken 0 x = 0 ∧ ¬slowPeer.Fails (0 + x) := by
      intro x hx
      interval_cases x
      · exact ⟨rfl, id⟩
      · exact ⟨rfl, id⟩
      · exact ⟨rfl, id⟩
      · exact ⟨rfl, Nat.succ_ne_zero 1027⟩
    refine ⟨4, ⟨fun x hx => ⟨?_, (hwaits x hx).2⟩, ?_⟩, rfl⟩
    · rw [(hwaits x hx).1, hlength]
      omega
    · rw [hfour, hlength]
      omega
  have hpeer : slowPeer.LetsGo wireCodec .shipped (fun _ => .none)
      ((oneClient ⟨0, by decide⟩).account ⟨0, by decide⟩) := by
    refine ⟨2, Or.inr ?_⟩
    rw [Peer.heard_succ (Peer.heard_ping wireCodec_lawful rfl)]
    exact ⟨rfl, 4, hmeets⟩
  have hletsGo : (Conduct.only ⟨0, by decide⟩ slowPeer).LetsGo wireCodec .shipped (fun _ => .none)
      fiveReadable (oneClient ⟨0, by decide⟩) := by
    refine ⟨fun hready => absurd hready (by decide), fun i sv₁ hbefore hi _ => ?_⟩
    obtain ⟨bound, hbound⟩ := hbefore
    by_cases hi0 : i = ⟨0, by decide⟩
    · subst hi0
      obtain rfl := Option.some.inj hbound
      exact hpeer
    · exact absurd (hi.symm.trans (Conduct.inUse_before hi0 hbound)) (by simp)
  exact ⟨hletsGo, (dispatch_returns_iff wireCodec .shipped _ _ _ _).mpr (Or.inr hletsGo)⟩

/-- A peer that sends a ping and does not read the response. -/
def deafPeer : Peer where
  reads := slowPeer.reads
  writes _ := .wouldBlock

/-- A client connects, and the next call does not return. -/
theorem dispatch_held_up :
    IpcServer.dispatch wireCodec .shipped (fun _ => .none)
        ⟨fun fd => fd = 3, [.connected 5], fun _ => []⟩ noClient =
      some (oneClient ⟨0, by decide⟩) ∧
    ¬(Conduct.only ⟨0, by decide⟩ deafPeer).Returns wireCodec .shipped (fun _ => .none)
      fiveReadable (oneClient ⟨0, by decide⟩) := by
  refine ⟨rfl, fun hreturns => ?_⟩
  have hletsGo := (Conduct.letsGo_of_returns (by decide) hreturns).peers ⟨0, by decide⟩ _ ⟨0, rfl⟩
    inUse_oneClient rfl
  have hping := Peer.heard_ping (p := deafPeer) (m := .shipped) (f := fun _ => .none)
    (i := ⟨0, by decide⟩) wireCodec_lawful rfl
  have howed : (frameBytes (wireCodec.pbEncode ⟨1, .pingResponse 0⟩)).length ∈
      (deafPeer.heard wireCodec .shipped (fun _ => .none)
        ((oneClient ⟨0, by decide⟩).account ⟨0, by decide⟩) 1).1.answers := by
    rw [hping]
    exact List.mem_singleton_self _
  refine Peer.not_letsGo (fun _ => rfl) (fun _ => id) howed ?_ (fun n' hn' => ?_) hletsGo
  · rw [length_frameBytes]
    omega
  · obtain rfl := Nat.lt_one_iff.mp hn'
    show ((oneClient ⟨0, by decide⟩).account ⟨0, by decide⟩).2 ≠ none
    rw [account_oneClient]
    simp

end AgentxSubagent
