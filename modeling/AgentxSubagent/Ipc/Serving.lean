import AgentxSubagent.Ipc.Answers

/-!
# Serving a client

`service_client` with the loops in it, each followed beside what decides whether it ends: `send_all`
beside the bytes that are taken, `drain_frames` beside the reference parser, `service_client` beside
the account of its peer. For every loop one lemma says what a turn does, and the two directions
come from that: where the loop returns, and that it returns.

* `AgentxSubagent.Peer.letsGo_of_serviceClient`, `AgentxSubagent.Peer.settles_serviceClient`:
  `service_client` returns exactly when the peer lets it go.
* `AgentxSubagent.Peer.grows_serviceClient`: what it returns does not hang on the bound.
* `AgentxSubagent.Peer.serviceClient_others`: it leaves the other slots alone.
-/

namespace AgentxSubagent

open Loops Resume Supply

/-! ### Bounds -/

namespace Peer

section Grows

variable (p : Peer) (pb : PbCodec) (m : Modes) (f : ℕ → FrameFaults) (i : Fin ipcMaxClients)

theorem grows_sendAll (len k : ℕ) : Grows fun n => p.sendAll len n k := by
  have hturn : ∀ s, Grows fun _ => some (p.sendTurn len s) := fun s => grows_const _
  exact grows_loop hturn _

theorem grows_sendEnvelope (env : Envelope) (d : Draining) :
    Grows fun n => p.sendEnvelope pb i env n d := by
  simp only [sendEnvelope]
  rcases AgentxSubagent.sendEnvelope pb env with _ | frame
  · exact grows_const _
  · exact (p.grows_sendAll frame.length d.writes).map _

theorem grows_handleFrame (payload : Bytes) (d : Draining) :
    Grows fun n => p.handleFrame pb m f i payload n d := by
  simp only [handleFrame]
  rcases pb.pbDecode payload with _ | req
  · exact grows_const _
  simp only
  rcases answerBody m (f d.server.frames) (d.server.note i payload).agent req.body
    with _ | ⟨body, agent⟩
  · exact grows_const _
  · exact (p.grows_sendEnvelope pb i _ _).map _

theorem grows_drainFrames (d : Draining) : Grows fun n => p.drainFrames pb m f i n d := by
  refine grows_loop (fun d => ?_) d
  simp only [drainTurn]
  split_ifs
  · exact grows_const _
  · exact grows_const _
  · exact grows_const _
  · exact grows_const _
  · exact (p.grows_handleFrame pb m f i _ d).map _

theorem grows_serviceClient (sv : IpcServer) : Grows fun n => p.serviceClient pb m f i n sv := by
  refine grows_loop (fun s => ?_) _
  simp only [serviceTurn]
  split_ifs
  · exact grows_const _
  rcases s.server.read i (p.reads s.reads) with (_ | ⟨b, chunk⟩) | _ | _ | _ | _
  · exact grows_const _
  · exact (p.grows_drainFrames pb m f i _).map _
  · exact grows_const _
  · exact grows_const _
  · exact grows_const _
  · exact grows_const _

end Grows

section Send

variable {p : Peer} {len k j : ℕ}

/-- `send_all` after `j` calls of `write()` that neither took all nor failed. -/
def sending (p : Peer) (len k j : ℕ) : Sending :=
  ⟨min (given p.taken k j) len, k + j⟩

/-- **A turn of `send_all`**: it is done, it gives up, or it makes another call. -/
theorem sendTurn_min (p : Peer) (len off k : ℕ) :
    len ≤ off ∧ p.sendTurn len ⟨min off len, k⟩ = .leave (true, k) ∨
      off < len ∧ p.Fails k ∧ p.sendTurn len ⟨min off len, k⟩ = .leave (false, k + 1) ∨
      off < len ∧ ¬p.Fails k ∧
        p.sendTurn len ⟨min off len, k⟩ = .next ⟨min (off + p.taken k) len, k + 1⟩ := by
  simp only [sendTurn, taken, Fails]
  rcases Nat.lt_or_ge off len with hoff | hoff
  · right
    rw [Nat.min_eq_left hoff.le, if_pos hoff]
    rcases p.writes k with (_ | n) | _ | _ | _
    · exact Or.inl ⟨hoff, rfl, rfl⟩
    · have htook : off + min (n + 1) (len - off) = min (off + (n + 1)) len := by omega
      simp only [WriteResult.taken, htook]
      exact Or.inr ⟨hoff, Nat.succ_ne_zero n, trivial⟩
    · exact Or.inr ⟨hoff, id, by simp [WriteResult.taken, hoff.le]⟩
    · exact Or.inr ⟨hoff, id, by simp [WriteResult.taken, hoff.le]⟩
    · exact Or.inl ⟨hoff, trivial, rfl⟩
  · left
    rw [Nat.min_eq_right hoff]
    exact ⟨hoff, if_neg (lt_irrefl len)⟩

/-- The same, after `j` calls of `write()`. -/
theorem sendTurn_sending (p : Peer) (len k j : ℕ) :
    len ≤ given p.taken k j ∧ p.sendTurn len (p.sending len k j) = .leave (true, k + j) ∨
      given p.taken k j < len ∧ p.Fails (k + j) ∧
        p.sendTurn len (p.sending len k j) = .leave (false, k + j + 1) ∨
      given p.taken k j < len ∧ ¬p.Fails (k + j) ∧
        p.sendTurn len (p.sending len k j) = .next (p.sending len k (j + 1)) := by
  rw [sending, sending, given_succ]
  exact p.sendTurn_min len (given p.taken k j) (k + j)

/-- `send_all` comes to the turn at which the wait is over. -/
theorem settles_sendAll (h : Waits p.taken p.Fails len k j)
    {r : Bool × ℕ} (hlast : p.sendTurn len (p.sending len k j) = .leave r) :
    Settles (fun n => p.sendAll len n k) r := by
  have hloop : ∃ r', Settles (fun n => p.sendAll len n k) r' ∧ r' = r := by
    refine settles_loop (fun s => k + j - s.writes)
      (P := fun s => ∃ x ≤ j, s = p.sending len k x) (fun s hs => ?_) ⟨0, Nat.zero_le j, ?_⟩
    · obtain ⟨x, hx, rfl⟩ := hs
      refine ⟨_, settles_some _, ?_⟩
      obtain rfl | hlt := hx.eq_or_lt
      · rw [hlast]
        rfl
      obtain ⟨hshort, hgoes⟩ := h x hlt
      obtain ⟨henough, -⟩ | ⟨-, hfails, -⟩ | ⟨-, -, hturn⟩ := p.sendTurn_sending len k x
      · exact absurd hshort (Nat.not_lt.mpr henough)
      · exact absurd hfails hgoes
      · rw [hturn]
        refine ⟨⟨x + 1, hlt, rfl⟩, ?_⟩
        show k + j - (k + (x + 1)) < k + j - (k + x)
        omega
    · simp [sending, given]
  obtain ⟨r', hsettles, rfl⟩ := hloop
  exact hsettles

/-- **`send_all` sends all** of an answer that is taken. -/
theorem settles_sendAll_of_meets
    (h : Meets p.taken p.Fails len k j) :
    Settles (fun n => p.sendAll len n k) (true, k + j) := by
  refine settles_sendAll h.waits ?_
  obtain ⟨-, hturn⟩ | ⟨hshort, -⟩ | ⟨hshort, -⟩ := p.sendTurn_sending len k j
  · exact hturn
  · exact absurd hshort (Nat.not_lt.mpr h.enough)
  · exact absurd hshort (Nat.not_lt.mpr h.enough)

/-- **It gives up** where `write()` fails before that. -/
theorem settles_sendAll_of_breaks
    (h : Breaks p.taken p.Fails len k j) :
    Settles (fun n => p.sendAll len n k) (false, k + j + 1) := by
  refine settles_sendAll h.waits ?_
  obtain ⟨henough, -⟩ | ⟨-, -, hturn⟩ | ⟨-, hgoes, -⟩ := p.sendTurn_sending len k j
  · exact absurd h.short (Nat.not_lt.mpr henough)
  · exact hturn
  · exact absurd h.stops hgoes

/-- **Where `send_all` returns, the answer was taken, or `write()` failed.** -/
theorem of_sendAll {bound : ℕ} {r : Bool × ℕ} (h : p.sendAll len bound k = some r) :
    r.1 = true ∧ (∃ j, Meets p.taken p.Fails len k j ∧ r.2 = k + j) ∨
      r.1 = false ∧ ∃ j, Breaks p.taken p.Fails len k j := by
  have hloop : loop (fun s => some (p.sendTurn len s)) bound ⟨0, k⟩ = some r := h
  refine loop_meets (P := fun s => ∃ j, Waits p.taken p.Fails len k j ∧ s = p.sending len k j)
    (Q := fun r => r.1 = true ∧ (∃ j, Meets p.taken p.Fails len k j ∧ r.2 = k + j) ∨
      r.1 = false ∧ ∃ j, Breaks p.taken p.Fails len k j)
    (fun s hs t ht => ?_) ⟨0, waits_zero, ?_⟩ hloop
  · obtain ⟨j, hwaits, rfl⟩ := hs
    obtain rfl := Option.some.inj ht
    obtain ⟨henough, hturn⟩ | ⟨hshort, hfails, hturn⟩ | ⟨hshort, hgoes, hturn⟩ :=
      p.sendTurn_sending len k j
    · rw [hturn]
      exact Or.inl ⟨rfl, j, ⟨hwaits, henough⟩, rfl⟩
    · rw [hturn]
      exact Or.inr ⟨rfl, j, hwaits, hshort, hfails⟩
    · rw [hturn]
      exact ⟨j + 1, hwaits.succ hshort hgoes, rfl⟩
  · simp [sending, given]

end Send

end Peer

/-! ### Frames -/

/-- **What the tests of `drain_frames` find** at the front of the buffer is what the reference
parser does. -/
theorem IpcClient.nextFrame_valid (c : IpcClient) :
    nextFrame c.valid =
      if c.len < 4 then .more
      else if (frameLen c.buf).toNat = 0 then .fail .zeroPrefix
      else if (frameLen c.buf).toNat > ipcMaxFrameLen then .fail .oversizedPrefix
      else if c.len < 4 + (frameLen c.buf).toNat then .more
      else .item ((c.buf.drop 4).take (frameLen c.buf).toNat)
        (c.valid.drop (4 + (frameLen c.buf).toNat)) := by
  have hmax : ipcMaxFrameLen = 65536 := rfl
  rw [nextFrame, c.length_valid, hmax]
  by_cases h4 : c.len < 4
  · rw [if_pos h4, if_pos h4]
  rw [if_neg h4, if_neg h4, ← c.frameLen_toNat_valid (by omega)]
  simp only
  split_ifs with h0 hbig hlen
  · rfl
  · rfl
  · rfl
  · rw [c.payload_valid (by omega)]

/-- The server stands where the account does: the slot is in use and connected, and its buffer
holds back `rest`. -/
structure Stands (sv : IpcServer) (i : Fin ipcMaxClients) (a : Account) (rest : Bytes) : Prop where
  inUse : (sv.clients i).inUse = true
  connected : (sv.connection i).isSome = true
  agent : sv.agent = a.agent
  frames : sv.frames = a.frames
  valid : (sv.clients i).client.valid = rest

namespace Stands

variable {sv : IpcServer} {i : Fin ipcMaxClients} {a : Account} {rest : Bytes}

theorem len (h : Stands sv i a rest) : (sv.clients i).client.len = rest.length := by
  rw [← h.valid, IpcClient.length_valid]

/-- After a frame. -/
theorem note (h : Stands sv i a rest) (payload : Bytes) (a' : Account)
    (hframes : a'.frames = a.frames + 1) :
    Stands ((sv.note i payload).setAgent a'.agent) i a' rest := by
  obtain ⟨hclients, hfds, -, hcount⟩ := IpcServer.note_fields sv i payload
  refine ⟨?_, ?_, rfl, ?_, ?_⟩
  · show ((sv.note i payload).clients i).inUse = true
    rw [hclients]
    exact h.inUse
  · have hconnection : ((sv.note i payload).setAgent a'.agent).connection i = sv.connection i := by
      rw [IpcServer.connection, IpcServer.connection, IpcServer.setAgent, hclients, hfds]
    rw [hconnection]
    exact h.connected
  · show (sv.note i payload).frames = a'.frames
    rw [hcount, h.frames, hframes]
  · show ((sv.note i payload).clients i).client.valid = rest
    rw [hclients]
    exact h.valid

/-- With another buffer. -/
theorem setClient (h : Stands sv i a rest) (c : IpcClient) :
    Stands (sv.setClient i c) i a c.valid := by
  refine ⟨?_, ?_, h.agent, h.frames, ?_⟩
  · rw [(IpcServer.fd_setClient c i).2]
    exact h.inUse
  · rw [IpcServer.connection_setClient]
    exact h.connected
  · rw [IpcServer.clients_setClient_self]

/-- With bytes that were read. -/
theorem fill (h : Stands sv i a rest) (chunk : Bytes) :
    Stands (sv.fill i chunk) i a (rest ++ chunk.take (ipcClientBufSize - rest.length)) := by
  obtain ⟨n, hn⟩ := Option.isSome_iff_exists.mp h.connected
  have hread : ∀ got, Stands (sv.receive i got) i a rest := by
    intro got
    rw [IpcServer.receive_eq hn]
    exact ⟨h.inUse, h.connected, h.agent, h.frames, h.valid⟩
  have hfilled := (hread (chunk.take (ipcClientBufSize - (sv.clients i).client.len))).setClient
    ((sv.clients i).client.fill chunk)
  rw [IpcClient.valid_fill, h.valid] at hfilled
  rw [← h.len]
  exact hfilled

end Stands

namespace Peer

section Drain

variable {p : Peer} {pb : PbCodec} {m : Modes} {f : ℕ → FrameFaults} {i : Fin ipcMaxClients}
  {a : Account} {rest : Bytes} {d : Draining}

variable (p pb m f) in
/-- **What `handle_frame` does**: it closes the client, or it sends the answer that is owed. -/
theorem handleFrame_cases (h : Stands d.server i a rest) (payload : Bytes) :
    (∃ a' sv', a.owe pb m f payload = (a', false) ∧ a'.answers = a.answers ∧
        ∀ bound, p.handleFrame pb m f i payload bound d = some (false, ⟨sv', d.writes⟩)) ∨
      ∃ a' len sv₁ sv₂, a.owe pb m f payload = (a', true) ∧ a'.answers = a.answers ++ [len] ∧
        Stands sv₁ i a' rest ∧
        ∀ bound, p.handleFrame pb m f i payload bound d =
          (p.sendAll len bound d.writes).map fun r => (r.1, ⟨if r.1 then sv₁ else sv₂, r.2⟩) := by
  have hagent : (d.server.note i payload).agent = a.agent :=
    (IpcServer.note_fields d.server i payload).2.2.1.trans h.agent
  simp only [handleFrame, Account.owe, hagent, h.frames]
  rcases pb.pbDecode payload with _ | req
  · exact Or.inl ⟨_, _, rfl, rfl, fun _ => rfl⟩
  simp only
  rcases answerBody m (f a.frames) a.agent req.body with _ | ⟨body, agent⟩
  · exact Or.inl ⟨_, _, rfl, rfl, fun _ => rfl⟩
  simp only [sendEnvelope]
  rcases AgentxSubagent.sendEnvelope pb ⟨req.requestId, body⟩ with _ | frame
  · refine Or.inl ⟨⟨agent, a.frames + 1, a.answers⟩,
      ((d.server.note i payload).setAgent agent).closeClient i, rfl, rfl, fun _ => ?_⟩
    simp only [Option.map_some, IpcServer.inUse_closeClient]
  · have hstands := h.note payload ⟨agent, a.frames + 1, a.answers ++ [frame.length]⟩ rfl
    refine Or.inr ⟨_, _, _, ((d.server.note i payload).setAgent agent).closeClient i, rfl, rfl,
      hstands, fun bound => ?_⟩
    rw [Option.map_map]
    refine congrArg (fun g => (p.sendAll frame.length bound d.writes).map g) (funext fun r => ?_)
    rcases r with ⟨_ | _, writes⟩
    · simp [IpcServer.inUse_closeClient]
    · simp [hstands.inUse]

variable (p pb m f) in
/-- **What a turn of `drain_frames` does**, beside the reference parser: it is done, the client is
closed, or an answer is sent and the parse goes on. -/
theorem drainTurn_cases (h : Stands d.server i a rest) :
    (a.parse pb m f rest = ⟨a, [], .ok rest⟩ ∧
        ∀ bound, p.drainTurn pb m f i bound d = some (.leave (true, d))) ∨
      (∃ a' items reason sv', a.parse pb m f rest = ⟨a', items, .error reason⟩ ∧
        a'.answers = a.answers ∧
        ∀ bound, p.drainTurn pb m f i bound d = some (.leave (false, ⟨sv', d.writes⟩))) ∨
      ∃ a' payload rest' len sv₁ sv₂,
        a.parse pb m f rest = (a'.parse pb m f rest').cons payload ∧
        a'.answers = a.answers ++ [len] ∧ Stands sv₁ i a' rest' ∧ rest'.length < rest.length ∧
        ∀ bound, p.drainTurn pb m f i bound d = (p.sendAll len bound d.writes).map fun r =>
          if r.1 then .next ⟨sv₁, r.2⟩ else .leave (false, ⟨sv₂, r.2⟩) := by
  have hnext := (d.server.clients i).client.nextFrame_valid
  rw [h.valid] at hnext
  simp only [drainTurn]
  split_ifs at hnext ⊢ with h4 h0 hbig hlen
  · exact Or.inl ⟨parseAll_more hnext a, fun _ => rfl⟩
  · exact Or.inr (Or.inl ⟨a, [], _, _, parseAll_fail hnext a, rfl, fun _ => rfl⟩)
  · exact Or.inr (Or.inl ⟨a, [], _, _, parseAll_fail hnext a, rfl, fun _ => rfl⟩)
  · exact Or.inl ⟨parseAll_more hnext a, fun _ => rfl⟩
  · obtain ⟨a', sv', howe, hanswers, hturn⟩ | ⟨a', len, sv₁, sv₂, howe, hanswers, hstands, hturn⟩ :=
      p.handleFrame_cases pb m f h
        (((d.server.clients i).client.buf.drop 4).take
          (frameLen (d.server.clients i).client.buf).toNat)
    · have href : refHandle (Account.owe pb m f) a (((d.server.clients i).client.buf.drop 4).take
          (frameLen (d.server.clients i).client.buf).toNat) = (a', some .byHandler) := by
        rw [refHandle, howe]
        rfl
      refine Or.inr (Or.inl ⟨a', _, _, sv', parseAll_stop hnext href, hanswers, fun bound => ?_⟩)
      rw [hturn]
      rfl
    · have href : refHandle (Account.owe pb m f) a (((d.server.clients i).client.buf.drop 4).take
          (frameLen (d.server.clients i).client.buf).toNat) = (a', none) := by
        rw [refHandle, howe]
        rfl
      have hshift := hstands.setClient ((sv₁.clients i).client.shift
        (4 + (frameLen (d.server.clients i).client.buf).toNat))
      rw [IpcClient.valid_shift, hstands.valid] at hshift
      refine Or.inr (Or.inr ⟨a', _, _, len, _, sv₂, parseAll_item hnext href, hanswers, hshift,
        ipcFraming.item_lt hnext, fun bound => ?_⟩)
      rw [hturn, Option.map_map]
      refine congrArg (fun g => (p.sendAll len bound d.writes).map g) (funext fun r => ?_)
      rcases r with ⟨_ | _, writes⟩
      · rfl
      · rfl

/-- How `drain_frames` ends, for a buffer that parses to `o`: it was parsed to its end and the peer
has taken all, and then the client is there as long as the parse has not failed; or `write()` has
failed. -/
def Drained (p : Peer) (i : Fin ipcMaxClients) (o : Outcome Account Bytes CloseReason Bytes)
    (r : Bool × Draining) : Prop :=
  (r.1 = true ∧ (∃ rest', o.status = .ok rest' ∧ Stands r.2.server i o.state rest') ∧
      p.TookAll o.state r.2.writes) ∨
    r.1 = false ∧
      (p.FailsUnder o.state ∨ (∃ reason, o.status = .error reason) ∧ ∃ k, p.TookAll o.state k)

/-- **Where `drain_frames` returns**, the parse went on to its end and the answers were taken, or
`write()` failed under one of them. -/
theorem of_drainFrames (h : Stands d.server i a rest) (htook : p.TookAll a d.writes)
    {o : Outcome Account Bytes CloseReason Bytes} (ho : a.parse pb m f rest = o) {bound : ℕ}
    {r : Bool × Draining} (hr : p.drainFrames pb m f i bound d = some r) : p.Drained i o r := by
  refine loop_meets (P := fun d' : Draining => ∃ a' rest', Stands d'.server i a' rest' ∧
      p.TookAll a' d'.writes ∧ (a'.parse pb m f rest').state = o.state ∧
      (a'.parse pb m f rest').status = o.status)
    (Q := p.Drained i o) (fun d' hd' t ht => ?_) ⟨a, rest, h, htook, by rw [ho], by rw [ho]⟩ hr
  obtain ⟨a', rest', hstands, htook', hstate, hstatus⟩ := hd'
  obtain ⟨hparse, hturn⟩ | ⟨a₁, items, reason, sv', hparse, hanswers, hturn⟩ |
    ⟨a₁, payload, rest₁, len, sv₁, sv₂, hparse, hanswers, hstands₁, -, hturn⟩ :=
    p.drainTurn_cases pb m f hstands
  · rw [hparse] at hstate hstatus
    obtain rfl := Option.some.inj ((hturn bound).symm.trans ht)
    exact Or.inl ⟨rfl, ⟨rest', hstatus.symm, hstate ▸ hstands⟩, hstate ▸ htook'⟩
  · rw [hparse] at hstate hstatus
    obtain rfl := Option.some.inj ((hturn bound).symm.trans ht)
    have hall : p.TookAll o.state d'.writes := by
      rw [← hstate, TookAll, hanswers]
      exact htook'
    exact Or.inr ⟨rfl, Or.inr ⟨⟨reason, hstatus.symm⟩, _, hall⟩⟩
  · rw [hparse] at hstate hstatus
    obtain ⟨r', hsend, rfl⟩ := Option.map_eq_some_iff.mp ((hturn bound).symm.trans ht)
    obtain ⟨hsent, j, hmeets, hwrites⟩ | ⟨hsent, j, hbreaks⟩ := of_sendAll hsend
    · rw [if_pos hsent]
      refine ⟨a₁, rest₁, hstands₁, ?_, hstate, hstatus⟩
      rw [hwrites]
      exact htook'.meets hanswers hmeets
    · rw [if_neg (by simp [hsent])]
      have howed : a₁.answers <+: o.state.answers := hstate ▸ a₁.answers_parse pb m f rest₁
      exact Or.inr ⟨rfl, Or.inl ((htook'.breaks hanswers hbreaks).mono howed)⟩

/-- **`drain_frames` returns** if the peer keeps up with the answers to the frames in the buffer. -/
theorem settles_drainFrames (h : Stands d.server i a rest) (htook : p.TookAll a d.writes)
    (hkeeps : p.KeepsUp (a.parse pb m f rest).state) :
    ∃ r, Settles (fun n => p.drainFrames pb m f i n d) r := by
  have hloop : ∃ r, Settles (fun n => p.drainFrames pb m f i n d) r ∧ True := by
    refine settles_loop (fun d' => (d'.server.clients i).client.len)
      (P := fun d' : Draining => ∃ a' rest', Stands d'.server i a' rest' ∧
        p.TookAll a' d'.writes ∧ p.KeepsUp (a'.parse pb m f rest').state)
      (fun d' hd' => ?_) ⟨a, rest, h, htook, hkeeps⟩
    obtain ⟨a', rest', hstands, htook', hkeeps'⟩ := hd'
    obtain ⟨-, hturn⟩ | ⟨a₁, items, reason, sv', -, -, hturn⟩ |
      ⟨a₁, payload, rest₁, len, sv₁, sv₂, hparse, hanswers, hstands₁, hlt, hturn⟩ :=
      p.drainTurn_cases pb m f hstands
    · simp only [hturn]
      exact ⟨_, settles_some _, trivial⟩
    · simp only [hturn]
      exact ⟨_, settles_some _, trivial⟩
    · rw [hparse] at hkeeps'
      simp only [hturn]
      obtain ⟨j, hmeets | hbreaks⟩ :=
        hkeeps'.next htook' hanswers (a₁.answers_parse pb m f rest₁)
      · refine ⟨_, (settles_sendAll_of_meets hmeets).map _, ?_⟩
        refine ⟨⟨a₁, rest₁, hstands₁, htook'.meets hanswers hmeets, hkeeps'⟩, ?_⟩
        rw [hstands₁.len, hstands.len]
        exact hlt
      · exact ⟨_, (settles_sendAll_of_breaks hbreaks).map _, trivial⟩
  obtain ⟨r, hsettles, -⟩ := hloop
  exact ⟨r, hsettles⟩

end Drain

section Service

variable {p : Peer} {pb : PbCodec} {m : Modes} {f : ℕ → FrameFaults} {i : Fin ipcMaxClients}
  {a : Account} {rest : Bytes} {s : Servicing} {sv : IpcServer}

variable (p pb m f) in
/-- **What a turn of `service_client` does**, beside the account: it returns, it reads again, or it
drains the buffer. -/
theorem serviceTurn_cases (h : Stands s.server i a rest) :
    (a.hear pb m f rest (p.reads s.reads) = (a, none) ∧
        ∃ sv', ∀ bound, p.serviceTurn pb m f i bound s = some (.leave sv')) ∨
      (a.hear pb m f rest (p.reads s.reads) = (a, some rest) ∧
        ∀ bound, p.serviceTurn pb m f i bound s =
          some (.next ⟨s.server, s.reads + 1, s.writes⟩)) ∨
      ∃ filled sv₁ o, a.parse pb m f filled = o ∧
        a.hear pb m f rest (p.reads s.reads) = (o.state, o.status.toOption) ∧
        Stands sv₁ i a filled ∧
        ∀ bound, p.serviceTurn pb m f i bound s =
          (p.drainFrames pb m f i bound ⟨sv₁, s.writes⟩).map fun r =>
            if r.1 then .next ⟨r.2.server, s.reads + 1, r.2.writes⟩ else .leave r.2.server := by
  obtain ⟨n, hn⟩ := Option.isSome_iff_exists.mp h.connected
  simp only [serviceTurn, IpcServer.read, hn, h.len, Account.hear.eq_def]
  by_cases hfull : rest.length ≥ ipcClientBufSize
  · simp only [if_pos hfull]
    exact Or.inl ⟨trivial, _, fun _ => rfl⟩
  simp only [if_neg hfull]
  rcases p.reads s.reads with (_ | ⟨b, chunk⟩) | _ | _ | _ | _
  · exact Or.inl ⟨rfl, _, fun _ => rfl⟩
  · exact Or.inr (Or.inr ⟨_, _, _, rfl, rfl, h.fill (b :: chunk), fun _ => rfl⟩)
  · exact Or.inl ⟨rfl, _, fun _ => rfl⟩
  · exact Or.inl ⟨rfl, _, fun _ => rfl⟩
  · exact Or.inr (Or.inl ⟨rfl, fun _ => rfl⟩)
  · exact Or.inl ⟨rfl, _, fun _ => rfl⟩

/-- The server stands where its account does, before the first read. -/
theorem stands_account (hi : (sv.clients i).inUse = true)
    (hconn : (sv.connection i).isSome = true) :
    sv.account i = (⟨sv.agent, sv.frames, []⟩, some (sv.clients i).client.valid) ∧
      Stands sv i ⟨sv.agent, sv.frames, []⟩ (sv.clients i).client.valid :=
  ⟨by rw [IpcServer.account, if_pos hconn], hi, hconn, rfl, rfl, rfl⟩

/-- **Where `service_client` returns, the peer has let it go.** -/
theorem letsGo_of_serviceClient (hi : (sv.clients i).inUse = true) {bound : ℕ} {sv' : IpcServer}
    (h : p.serviceClient pb m f i bound sv = some sv') : p.LetsGo pb m f (sv.account i) := by
  rcases hconn : (sv.connection i).isSome with _ | _
  · refine ⟨0, Or.inr ⟨?_, 0, rfl⟩⟩
    simp [heard, IpcServer.account, hconn]
  obtain ⟨haccount, hstart⟩ := stands_account hi hconn
  generalize hgen : sv.account i = start at haccount ⊢
  refine loop_meets (P := fun s : Servicing => ∃ a rest,
      p.heard pb m f start s.reads = (a, some rest) ∧ Stands s.server i a rest ∧
        p.TookAll a s.writes)
    (Q := fun _ => p.LetsGo pb m f start) (fun s hs t ht => ?_) ?_ h
  swap
  · exact ⟨_, _, haccount, hstart, rfl⟩
  obtain ⟨a, rest, hheard, hstands, htook⟩ := hs
  have hsucc := heard_succ hheard
  obtain ⟨hhear, sv₁, hturn⟩ | ⟨hhear, hturn⟩ | ⟨filled, sv₁, o, ho, hhear, hstands₁, hturn⟩ :=
    p.serviceTurn_cases pb m f hstands
  · obtain rfl := Option.some.inj ((hturn bound).symm.trans ht)
    rw [hhear] at hsucc
    refine ⟨s.reads + 1, Or.inr ?_⟩
    rw [hsucc]
    exact ⟨rfl, _, htook⟩
  · obtain rfl := Option.some.inj ((hturn bound).symm.trans ht)
    exact ⟨a, rest, hsucc.trans hhear, hstands, htook⟩
  · obtain ⟨r, hdrain, rfl⟩ := Option.map_eq_some_iff.mp ((hturn bound).symm.trans ht)
    rw [hhear] at hsucc
    obtain ⟨hstays, ⟨rest', hstatus, hstands'⟩, htook'⟩ | ⟨hstays, hover⟩ :=
      of_drainFrames (d := ⟨sv₁, s.writes⟩) hstands₁ htook ho hdrain
    · rw [if_pos hstays]
      refine ⟨o.state, rest', ?_, hstands', htook'⟩
      rw [hsucc, hstatus]
      rfl
    · rw [if_neg (by simp [hstays])]
      refine ⟨s.reads + 1, ?_⟩
      rw [hsucc]
      obtain hbreaks | ⟨⟨reason, hstatus⟩, hall⟩ := hover
      · exact Or.inl hbreaks
      · rw [hstatus]
        exact Or.inr ⟨rfl, hall⟩

/-- **`service_client` returns** if the peer lets it go. -/
theorem settles_serviceClient (hi : (sv.clients i).inUse = true)
    (h : p.LetsGo pb m f (sv.account i)) :
    ∃ sv', Settles (fun n => p.serviceClient pb m f i n sv) sv' := by
  rcases hconn : (sv.connection i).isSome with _ | _
  · -- the first read fails on a descriptor that is no connection
    have hloop : ∃ sv', Settles (fun n => p.serviceClient pb m f i n sv) sv' ∧ True := by
      refine settles_loop (fun _ => 0) (P := fun s : Servicing => s.server = sv)
        (fun s hs => ?_) rfl
      have hnone : s.server.connection i = none := by
        rw [hs]
        exact Option.not_isSome_iff_eq_none.mp (by simp [hconn])
      simp only [serviceTurn, IpcServer.read, hnone]
      split_ifs
      · exact ⟨_, settles_some _, trivial⟩
      · exact ⟨_, settles_some _, trivial⟩
    obtain ⟨sv', hsettles, -⟩ := hloop
    exact ⟨sv', hsettles⟩
  obtain ⟨haccount, hstart⟩ := stands_account hi hconn
  generalize hgen : sv.account i = start at haccount h
  obtain ⟨n, hn⟩ := h
  have hloop : ∃ sv', Settles (fun n => p.serviceClient pb m f i n sv) sv' ∧ True := by
    refine settles_loop (fun s => n - s.reads) (P := fun s : Servicing => ∃ a rest,
      p.heard pb m f start s.reads = (a, some rest) ∧ Stands s.server i a rest ∧
        p.TookAll a s.writes) (fun s hs => ?_)
      ⟨_, _, haccount, hstart, rfl⟩
    obtain ⟨a, rest, hheard, hstands, htook⟩ := hs
    -- after `n` reads the connection would be over, or an answer broken off
    have hlt : s.reads < n := by
      by_contra hge
      have hle := Nat.le_of_not_lt hge
      obtain hbreaks | ⟨hover, -⟩ := hn
      · have hin := hbreaks.mono (p.answers_heard_mono pb m f start hle)
        rw [hheard] at hin
        exact htook.not_failsUnder hin
      · rw [← heard_of_none hover hle, hheard] at hover
        exact absurd hover (by simp)
    have hkeeps : p.KeepsUp (p.heard pb m f start n).1 := hn.imp_right And.right
    have hnext := hkeeps.of_prefix (p.answers_heard_mono pb m f start hlt)
    have hrank : n - (s.reads + 1) < n - s.reads := by omega
    have hsucc := heard_succ hheard
    obtain ⟨hhear, sv₁, hturn⟩ | ⟨hhear, hturn⟩ | ⟨filled, sv₁, o, ho, hhear, hstands₁, hturn⟩ :=
      p.serviceTurn_cases pb m f hstands
    · simp only [hturn]
      exact ⟨_, settles_some _, trivial⟩
    · simp only [hturn]
      exact ⟨_, settles_some _, ⟨a, rest, hsucc.trans hhear, hstands, htook⟩, hrank⟩
    · rw [hsucc, hhear, ← ho] at hnext
      rw [hhear] at hsucc
      obtain ⟨r, hdrain⟩ :=
        settles_drainFrames (d := ⟨sv₁, s.writes⟩) hstands₁ htook hnext
      simp only [hturn]
      refine ⟨_, hdrain.map _, ?_⟩
      obtain ⟨bound, hbound⟩ := hdrain.exists_eq
      obtain ⟨hstays, ⟨rest', hstatus, hstands'⟩, htook'⟩ | ⟨hstays, -⟩ :=
        of_drainFrames (d := ⟨sv₁, s.writes⟩) hstands₁ htook ho hbound
      · rw [if_pos hstays]
        refine ⟨⟨o.state, rest', ?_, hstands', htook'⟩, hrank⟩
        show p.heard pb m f start (s.reads + 1) = (o.state, some rest')
        rw [hsucc, hstatus]
        rfl
      · rw [if_neg (by simp [hstays])]
        trivial
  obtain ⟨sv', hsettles, -⟩ := hloop
  exact ⟨sv', hsettles⟩

end Service

/-! ### The other slots -/

section Others

variable {p : Peer} {pb : PbCodec} {m : Modes} {f : ℕ → FrameFaults} {i j : Fin ipcMaxClients}
  {bound : ℕ}

/-- `handle_frame` leaves the other slots alone. -/
theorem handleFrame_others {payload : Bytes} {d : Draining} {r : Bool × Draining}
    (h : p.handleFrame pb m f i payload bound d = some r) (hj : j ≠ i) :
    r.2.server.clients j = d.server.clients j := by
  have hnote : (d.server.note i payload).clients j = d.server.clients j := by
    rw [(IpcServer.note_fields d.server i payload).1]
  have hclose : ∀ sv : IpcServer, sv.clients j = d.server.clients j →
      (sv.closeClient i).clients j = d.server.clients j := by
    intro sv hsv
    rw [IpcServer.clients_closeClient_of_ne hj, hsv]
  simp only [handleFrame] at h
  rcases hdecode : pb.pbDecode payload with _ | req
  · rw [hdecode] at h
    obtain rfl := Option.some.inj h
    exact hclose _ hnote
  simp only [hdecode] at h
  rcases hanswer : answerBody m (f d.server.frames) (d.server.note i payload).agent req.body
    with _ | ⟨body, agent⟩
  · rw [hanswer] at h
    obtain rfl := Option.some.inj h
    exact hclose _ hnote
  · rw [hanswer] at h
    obtain ⟨d', hsend, rfl⟩ := Option.map_eq_some_iff.mp h
    obtain hsame | hclosed := sendEnvelope_cases hsend
    · rw [hsame]
      exact hnote
    · rw [hclosed]
      exact hclose _ hnote

/-- `drain_frames` does. -/
theorem drainFrames_others {d : Draining} {r : Bool × Draining}
    (h : p.drainFrames pb m f i bound d = some r) (hj : j ≠ i) :
    r.2.server.clients j = d.server.clients j := by
  refine loop_meets (P := fun d' : Draining => d'.server.clients j = d.server.clients j)
    (Q := fun r => r.2.server.clients j = d.server.clients j) (fun d' hd' t ht => ?_) rfl h
  have hclose : (d'.server.closeClient i).clients j = d.server.clients j := by
    rw [IpcServer.clients_closeClient_of_ne hj, hd']
  simp only [drainTurn] at ht
  split_ifs at ht
  · obtain rfl := Option.some.inj ht
    exact hd'
  · obtain rfl := Option.some.inj ht
    exact hclose
  · obtain rfl := Option.some.inj ht
    exact hclose
  · obtain rfl := Option.some.inj ht
    exact hd'
  · obtain ⟨r', hhandle, rfl⟩ := Option.map_eq_some_iff.mp ht
    have hothers := (handleFrame_others hhandle hj).trans hd'
    rcases r' with ⟨_ | _, d₁⟩
    · exact hothers
    · exact (IpcServer.clients_setClient_of_ne _ hj).trans hothers

/-- **Serving a slot leaves the others alone.** -/
theorem serviceClient_others {sv sv' : IpcServer} (h : p.serviceClient pb m f i bound sv = some sv')
    (hj : j ≠ i) : sv'.clients j = sv.clients j := by
  refine loop_meets (P := fun s : Servicing => s.server.clients j = sv.clients j)
    (Q := fun sv' => sv'.clients j = sv.clients j) (fun s hs t ht => ?_) rfl h
  have hclose : (s.server.closeClient i).clients j = sv.clients j := by
    rw [IpcServer.clients_closeClient_of_ne hj, hs]
  simp only [serviceTurn] at ht
  split_ifs at ht
  · obtain rfl := Option.some.inj ht
    exact hclose
  rcases hread : s.server.read i (p.reads s.reads) with (_ | ⟨b, chunk⟩) | _ | _ | _ | _
  · rw [hread] at ht
    obtain rfl := Option.some.inj ht
    exact hclose
  · simp only [hread] at ht
    obtain ⟨r', hdrain, rfl⟩ := Option.map_eq_some_iff.mp ht
    have hfill : (s.server.fill i (b :: chunk)).clients j = s.server.clients j := by
      rw [IpcServer.fill, IpcServer.clients_setClient_of_ne _ hj, IpcServer.receive]
      split
      · rfl
      · rfl
    have hothers := ((drainFrames_others hdrain hj).trans hfill).trans hs
    rcases r' with ⟨_ | _, d₁⟩
    · exact hothers
    · exact hothers
  · rw [hread] at ht
    obtain rfl := Option.some.inj ht
    exact hclose
  · rw [hread] at ht
    obtain rfl := Option.some.inj ht
    exact hs
  · rw [hread] at ht
    obtain rfl := Option.some.inj ht
    exact hs
  · rw [hread] at ht
    obtain rfl := Option.some.inj ht
    exact hclose

end Others

end Peer

end AgentxSubagent
