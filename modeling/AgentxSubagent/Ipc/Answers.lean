import AgentxSubagent.Ipc.SystemCalls
import AgentxSubagent.Lib.Supply

/-!
# What a client asks for

What a peer has coming to it for the bytes it sends, and what its connection takes of that: the
data that decide whether a call of `ipc_server_dispatch` returns. No loop of `src/ipc_server.c` is
in here; the frames are those of the reference parser `AgentxSubagent.ipcFraming`, and the answer
to a frame is what the switch of `handle_frame` makes of it.

* `AgentxSubagent.Peer.heard`: after `n` reads, the answers that are owed, and what is held back of
  the stream, or that the connection is over.
* `AgentxSubagent.Peer.LetsGo`: the peer comes to an end, and takes what it is sent until then.
-/

namespace AgentxSubagent

open Resume Supply

/-! ### What is owed -/

/-- **What is owed to a peer**: the lengths of the answers to its requests so far, in order; and
what the next answer depends on, the subagent and the number of frames the server has handled. -/
structure Account where
  agent : Agent
  frames : ℕ
  answers : List ℕ

section Account

variable (pb : PbCodec) (m : Modes) (f : ℕ → FrameFaults)

/-- One more frame: an answer of so many bytes is owed, or the connection is closed for it. `f k`
is what fails for the `k`-th frame of the server. -/
def Account.owe (a : Account) (payload : Bytes) : Account × Bool :=
  match pb.pbDecode payload with
  | none => ({ a with frames := a.frames + 1 }, false)
  | some req =>
    match answerBody m (f a.frames) a.agent req.body with
    | none => ({ a with frames := a.frames + 1 }, false)
    | some (body, agent) =>
      match sendEnvelope pb ⟨req.requestId, body⟩ with
      | none => (⟨agent, a.frames + 1, a.answers⟩, false)
      | some frame => (⟨agent, a.frames + 1, a.answers ++ [frame.length]⟩, true)

/-- The frames of a stream, one after the other. -/
abbrev Account.parse (a : Account) (s : Bytes) : Outcome Account Bytes CloseReason Bytes :=
  parseAll ipcFraming (refHandle (Account.owe pb m f)) s a

/-- One more `read()`, with `rest` held back of the stream: `none` is the end of the connection or
of the reading. The buffer holds so many bytes and no more. -/
def Account.hear (a : Account) (rest : Bytes) (r : ReadResult) : Account × Option Bytes :=
  if rest.length ≥ ipcClientBufSize then (a, none)
  else
    match r with
    | .data [] => (a, none)
    | .data (b :: chunk) =>
      let o := a.parse pb m f (rest ++ (b :: chunk).take (ipcClientBufSize - rest.length))
      (o.state, o.status.toOption)
    | .interrupted => (a, some rest)
    | .endOfFile | .wouldBlock | .failed => (a, none)

/-- **What the first reads come to**, for a peer to which `start` applies. -/
def Peer.heard (p : Peer) (start : Account × Option Bytes) : ℕ → Account × Option Bytes
  | 0 => start
  | n + 1 =>
    match p.heard start n with
    | (a, none) => (a, none)
    | (a, some rest) => a.hear pb m f rest (p.reads n)

end Account

/-- What applies to the peer of a slot: nothing is owed yet, and what is in the buffer is held back.
On a descriptor that is no connection there is nothing to read. -/
def IpcServer.account (sv : IpcServer) (i : Fin ipcMaxClients) : Account × Option Bytes :=
  (⟨sv.agent, sv.frames, []⟩,
    if (sv.connection i).isSome then some (sv.clients i).client.valid else none)

/-! ### What is taken -/

/-- The bytes that `write()` took. -/
def WriteResult.taken : WriteResult → ℕ
  | .wrote n => n
  | .wouldBlock | .interrupted | .failed => 0

/-- `send_all` gives up on this answer. -/
def WriteResult.Fails : WriteResult → Prop
  | .wrote n => n = 0
  | .failed => True
  | .wouldBlock | .interrupted => False

namespace Peer

variable (p : Peer)

/-- What the `j`-th call of `write()` took. -/
def taken (j : ℕ) : ℕ := (p.writes j).taken

/-- The `j`-th call of `write()` fails. -/
def Fails (j : ℕ) : Prop := (p.writes j).Fails

/-- **The peer has taken all** that it is owed, one answer after the other, and the next call of
`write()` is the `k`-th. -/
def TookAll (a : Account) (k : ℕ) : Prop := MeetsAll p.taken p.Fails a.answers 0 k

/-- **A call of `write()` fails** under one of the answers that are owed. -/
def FailsUnder (a : Account) : Prop := BreaksIn p.taken p.Fails a.answers 0

/-- The peer keeps up: none of the answers is waited for without end. -/
def KeepsUp (a : Account) : Prop := p.FailsUnder a ∨ ∃ k, p.TookAll a k

/-- **The peer lets the server go**: after some number of reads, the connection is over, or there is
nothing to read for now, and the calls of `write()` take all the answers that are owed until then;
or one of them fails under such an answer. -/
def LetsGo (pb : PbCodec) (m : Modes) (f : ℕ → FrameFaults) (start : Account × Option Bytes) :
    Prop :=
  ∃ n, p.FailsUnder (p.heard pb m f start n).1 ∨
    (p.heard pb m f start n).2 = none ∧ ∃ k, p.TookAll (p.heard pb m f start n).1 k

section Taken

variable {p} {a a' b : Account} {k len j : ℕ}

/-- One more answer is taken. -/
theorem TookAll.meets (h : p.TookAll a k) (ha' : a'.answers = a.answers ++ [len])
    (hlen : Meets p.taken p.Fails len k j) : p.TookAll a' (k + j) := by
  rw [TookAll, ha']
  exact meetsAll_append.mpr ⟨k, h, j, hlen, rfl⟩

/-- `write()` fails under the next one. -/
theorem TookAll.breaks (h : p.TookAll a k) (ha' : a'.answers = a.answers ++ [len])
    (hlen : Breaks p.taken p.Fails len k j) : p.FailsUnder a' := by
  rw [FailsUnder, ha']
  exact breaksIn_append.mpr (Or.inr ⟨k, h, Or.inl ⟨j, hlen⟩⟩)

theorem TookAll.not_failsUnder (h : p.TookAll a k) : ¬p.FailsUnder a := MeetsAll.not_breaksIn h

/-- The answers behind the one that failed do not matter any more. -/
theorem FailsUnder.mono (h : p.FailsUnder a) (hab : a.answers <+: b.answers) : p.FailsUnder b := by
  obtain ⟨more, hmore⟩ := hab
  rw [FailsUnder, ← hmore]
  exact breaksIn_append.mpr (Or.inl h)

/-- Where the peer keeps up, it did before. -/
theorem KeepsUp.of_prefix (h : p.KeepsUp b) (hab : a.answers <+: b.answers) : p.KeepsUp a := by
  obtain ⟨more, hmore⟩ := hab
  have hserves : Serves p.taken p.Fails (a.answers ++ more) 0 := hmore ▸ h
  exact hserves.of_append

/-- And the next answer is taken, or `write()` fails under it. -/
theorem KeepsUp.next (h : p.KeepsUp b) (htook : p.TookAll a k)
    (ha' : a'.answers = a.answers ++ [len]) (hab : a'.answers <+: b.answers) :
    ∃ j, Meets p.taken p.Fails len k j ∨ Breaks p.taken p.Fails len k j := by
  have hserves : Serves p.taken p.Fails (a.answers ++ [len]) 0 := ha' ▸ h.of_prefix hab
  exact (hserves.drop htook).exists_of_singleton

end Taken

end Peer

/-! ### What was heard stays -/

section Heard

variable {pb : PbCodec} {m : Modes} {f : ℕ → FrameFaults} {p : Peer} {a : Account}
  {start : Account × Option Bytes}

theorem Account.answers_owe (a : Account) (payload : Bytes) :
    a.answers <+: (a.owe pb m f payload).1.answers := by
  rw [owe]
  rcases pb.pbDecode payload with _ | req
  · exact List.prefix_rfl
  simp only
  rcases answerBody m (f a.frames) a.agent req.body with _ | ⟨body, agent⟩
  · exact List.prefix_rfl
  simp only
  rcases sendEnvelope pb ⟨req.requestId, body⟩ with _ | frame
  · exact List.prefix_rfl
  · exact List.prefix_append ..

variable (pb m f) in
/-- Answers are owed until they are sent. -/
theorem Account.answers_parse (a : Account) (s : Bytes) :
    a.answers <+: (a.parse pb m f s).state.answers :=
  parseAll_keeps (P := fun b : Account => a.answers <+: b.answers)
    (fun b payload h => h.trans (b.answers_owe payload)) List.prefix_rfl s

theorem Account.answers_hear (a : Account) (rest : Bytes) (r : ReadResult) :
    a.answers <+: (a.hear pb m f rest r).1.answers := by
  rw [hear.eq_def]
  split_ifs
  · exact List.prefix_rfl
  rcases r with (_ | ⟨b, chunk⟩) | _ | _ | _ | _
  · exact List.prefix_rfl
  · exact a.answers_parse pb m f _
  · exact List.prefix_rfl
  · exact List.prefix_rfl
  · exact List.prefix_rfl
  · exact List.prefix_rfl

/-- Where the connection is open, the next read is heard. -/
theorem Peer.heard_succ {n : ℕ} {rest : Bytes} (h : p.heard pb m f start n = (a, some rest)) :
    p.heard pb m f start (n + 1) = a.hear pb m f rest (p.reads n) := by
  rw [heard, h]

/-- Where it is over, it stays. -/
theorem Peer.heard_of_none {n n' : ℕ} (h : (p.heard pb m f start n).2 = none) (hn : n ≤ n') :
    p.heard pb m f start n' = p.heard pb m f start n := by
  induction n', hn using Nat.le_induction with
  | base => rfl
  | succ n' _ ih =>
    rcases hheard : p.heard pb m f start n with ⟨a, _ | rest⟩
    · rw [hheard] at ih
      rw [heard, ih]
    · rw [hheard] at h
      exact absurd h (by simp)

variable (p pb m f start) in
theorem Peer.answers_heard_mono {n n' : ℕ} (hn : n ≤ n') :
    (p.heard pb m f start n).1.answers <+: (p.heard pb m f start n').1.answers := by
  induction n', hn using Nat.le_induction with
  | base => exact List.prefix_rfl
  | succ n' _ ih =>
    refine ih.trans ?_
    rcases hheard : p.heard pb m f start n' with ⟨a, _ | rest⟩
    · rw [heard, hheard]
    · rw [heard_succ hheard]
      exact a.answers_hear rest _

end Heard

end AgentxSubagent
