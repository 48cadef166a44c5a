import AgentxSubagent.Ipc.Schema
import AgentxSubagent.Subagent.EventLoop

/-!
# A connection between the client and the server

The client of `rust-app/src/ipc/mod.rs` and the server of `src/ipc_server.c` on the two ends of
one socket. Each end has its own idea of a frame: the client reads a length prefix and then
that many bytes, with checks of its own, and the server collects bytes in a buffer. They meet
only in the bytes under way.

`AgentxSubagent.Connection.step` is one event on such a connection: the client starts a call,
the server reads some of what was sent to it, the client reads some of what was sent back, or
the subagent does something else altogether. A read takes any part of what is under way, so a
sequence of events is a sequence of calls under some fragmentation, in both directions, and
with other turns of the event loop in between.

A call goes through two phases (`AgentxSubagent.Connection.Phase`). First the bytes in the
server's buffer and those on their way to it are together the frame of the request; when the
last of them is read the server answers, and from then on what the client has read and what is
on its way are together the frame of the answer. `AgentxSubagent.Connection.Inv.step` is the
case analysis over the events, and `AgentxSubagent.calls_answered` the result: every call
returns what the server computed for its request.

That it returns at all is counted in bytes: while a call is waiting there is something to
read, and no call takes more than `AgentxSubagent.callBytes`.
-/

namespace AgentxSubagent

open LittleEndian Resume Runs

/-! ### The client -/

/-- `IpcError`, without what an I/O error and a decode error carry. -/
inductive IpcError
  | io
  | decode
  | frameTooLarge (len : UInt32)
  | connectionClosed
  | requestIdMismatch (expected got : UInt32)
  | unexpectedBody
  deriving DecidableEq

/-- `MAX_FRAME_LEN`. -/
def maxFrameLen : UInt32 := 64 * 1024

/-- `u32::to_be_bytes`. -/
def toBeBytes (v : UInt32) : Bytes := (leBytes 4 v.toNat).reverse

/-- `u32::from_be_bytes`. -/
def fromBeBytes (bs : Bytes) : UInt32 := UInt32.ofNat (beNat bs)

/-- `fresh_request_id` on the counter: the id, and the counter afterwards. -/
def freshRequestId (nextRequestId : UInt32) : UInt32 × UInt32 :=
  let id := nextRequestId
  let next := nextRequestId + 1
  if id = 0 then (next, next + 1) else (id, next)

/-- What a call returns when it succeeds. -/
inductive Reply
  | ping (nonce : UInt32)
  | writeConfig (resp : WriteConfigResponse)
  | readConfig (resp : ReadConfigResponse)
  | sendTrap (resp : SendTrapResponse)
  deriving DecidableEq

/-- The body a reply is taken from. -/
def Reply.body : Reply → Body
  | .ping nonce => .pingResponse nonce
  | .writeConfig resp => .writeConfigResponse resp
  | .readConfig resp => .readConfigResponse resp
  | .sendTrap resp => .sendTrapResponse resp

/-- The two halves of a method of the client: the body it sends, and what it makes of the body
it gets back. -/
structure Method where
  request : Body
  finish : Body → Except IpcError Reply

/-- `ping`. -/
def ping (nonce : UInt32) : Method where
  request := .pingRequest nonce
  finish
    | .pingResponse nonce => .ok (.ping nonce)
    | _ => .error .unexpectedBody

/-- `write_config`. -/
def writeConfig (key : String) (value : IpcValue) : Method where
  request := .writeConfigRequest ⟨utf8 key, some value.intoPb⟩
  finish
    | .writeConfigResponse r => .ok (.writeConfig r)
    | _ => .error .unexpectedBody

/-- `read_config`. -/
def readConfig (key : String) : Method where
  request := .readConfigRequest (utf8 key)
  finish
    | .readConfigResponse r => .ok (.readConfig r)
    | _ => .error .unexpectedBody

/-- `send_trap`. -/
def sendTrap (trapName : String) : Method where
  request := .sendTrapRequest (utf8 trapName)
  finish
    | .sendTrapResponse r => .ok (.sendTrap r)
    | _ => .error .unexpectedBody

/-- A call of one of the methods. -/
inductive Call
  | ping (nonce : UInt32)
  | writeConfig (key : String) (value : IpcValue)
  | readConfig (key : String)
  | sendTrap (trapName : String)
  deriving DecidableEq

/-- The method a call is of. -/
def Call.method : Call → Method
  | .ping nonce => AgentxSubagent.ping nonce
  | .writeConfig key value => AgentxSubagent.writeConfig key value
  | .readConfig key => AgentxSubagent.readConfig key
  | .sendTrap trapName => AgentxSubagent.sendTrap trapName

/-- A reply is of the variant that matches the call. -/
def Reply.Matches : Reply → Call → Prop
  | .ping _, .ping _ => True
  | .writeConfig _, .writeConfig _ _ => True
  | .readConfig _, .readConfig _ => True
  | .sendTrap _, .sendTrap _ => True
  | _, _ => False

section Codec

variable (pb : PbCodec)

/-- `write_frame`: what it writes to the stream. -/
def writeFrame (envelope : Envelope) : Except IpcError Bytes :=
  let payload := pb.encodeToVec envelope
  let len := if payload.length < 2 ^ 32 then UInt32.ofNat payload.length else 0xFFFFFFFF
  if len > maxFrameLen then .error (.frameTooLarge len) else .ok (toBeBytes len ++ payload)

/-- Where `read_frame` is blocked: in the `read_exact` of the length prefix or in that of the
payload, and what that has read so far. -/
inductive Reading
  | lenBuf (got : Bytes)
  | payload (len : ℕ) (got : Bytes)

/-- How many bytes the next `read()` asks for. -/
def Reading.wants : Reading → ℕ
  | .lenBuf got => 4 - got.length
  | .payload len got => len - got.length

/-- What a `read()` gave goes behind what there was. -/
def Reading.push (chunk : Bytes) : Reading → Reading
  | .lenBuf got => .lenBuf (got ++ chunk)
  | .payload len got => .payload len (got ++ chunk)

/-- The second half of `read_frame`. -/
def readPayload (len : ℕ) (got : Bytes) : Reading ⊕ Except IpcError Envelope :=
  if got.length < len then .inl (.payload len got)
  else
    match pb.decode got with
    | none => .inr (.error .decode)
    | some envelope => .inr (.ok envelope)

/-- `read_frame` as far as the bytes it has take it: it is blocked again, or it returns. -/
def readFrame : Reading → Reading ⊕ Except IpcError Envelope
  | .lenBuf got =>
    if got.length < 4 then .inl (.lenBuf got)
    else
      let len := fromBeBytes got
      if len > maxFrameLen then .inr (.error (.frameTooLarge len))
      else readPayload pb len.toNat []
  | .payload len got => readPayload pb len got

/-- The end of `roundtrip`, and of the method that called it. -/
def Method.finishRoundtrip (method : Method) (requestId : UInt32) (response : Envelope) :
    Except IpcError Reply :=
  if response.requestId ≠ requestId then
    .error (.requestIdMismatch requestId response.requestId)
  else method.finish response.body

/-! ### The server -/

/-- `IPC_SEND_BUF_SIZE`. -/
def ipcSendBufSize : ℕ := 1024

/-- `send_envelope`: what it writes to the socket, or `none` when the envelope does not fit the
buffer and the connection is closed. -/
def sendEnvelope (env : Envelope) : Option Bytes :=
  let payload := pb.pbEncode env
  if payload.length ≤ ipcSendBufSize then
    let len := UInt32.ofNat payload.length
    some ([((len >>> 24) &&& 0xFF).toUInt8, ((len >>> 16) &&& 0xFF).toUInt8,
      ((len >>> 8) &&& 0xFF).toUInt8, (len &&& 0xFF).toUInt8] ++ payload)
  else none

/-- The server's end: the subagent, what it has answered on this connection, and what of that
the client has not read yet. -/
structure Server where
  subagent : Subagent
  answered : List FrameRecord
  sent : Bytes

/-- `handle_frame` with `send_envelope` at its end; `f i` is what fails for the `i`-th frame of
the connection. -/
def serveFrame (m : Modes) (f : ℕ → FrameFaults) (sv : Server) (payload : Bytes) :
    Server × Bool :=
  let done := handleFrame m pb.pbDecode (f sv.answered.length) sv.subagent.agent payload
  let subagent := { sv.subagent with agent := done.2.1 }
  match done.1 with
  | none => ({ sv with subagent }, false)
  | some r =>
    let answered := sv.answered ++ [r]
    match sendEnvelope pb r.response with
    | none => ({ sv with subagent, answered }, false)
    | some bytes =>
      if r.sent then ({ sv with subagent, answered, sent := sv.sent ++ bytes }, true)
      else ({ sv with subagent, answered }, false)

/-- Serving a frame is the turn of the event loop for it. -/
theorem serveFrame_is_turn (m : Modes) (f : ℕ → FrameFaults) (sv : Server) (payload : Bytes) :
    ∃ o, sv.subagent.step m pb.pbDecode (.frame payload (f sv.answered.length)) =
      some (o, (serveFrame pb m f sv payload).1.subagent) := by
  refine ⟨_, congrArg some (Prod.ext rfl ?_)⟩
  simp only [serveFrame]
  split
  · rfl
  · split
    · rfl
    · split <;> rfl

/-! ### The connection -/

/-- A call that waits for its answer. -/
structure Waiting where
  requestId : UInt32
  call : Call
  reading : Reading

/-- Both ends of a connection: the counter of the client and its call in progress, the bytes on
their way to the server, the server's buffer (`none` once it has closed the connection) and the
server itself, with the bytes on their way back. The calls made, each with its request id, and
what they have returned are kept as they come. -/
structure Connection where
  nextRequestId : UInt32
  waiting : Option Waiting
  toServer : Bytes
  slot : Option IpcClient
  server : Server
  calls : List (UInt32 × Call)
  results : List (Except IpcError Reply)

/-- A connection just made: `connect` on one side, `accept_new_clients` on the other. -/
def Connection.connect (s : Subagent) : Connection :=
  ⟨1, none, [], some .fresh, ⟨s, [], []⟩, [], []⟩

/-- What can happen next. -/
inductive Event
  /-- The client calls a method. -/
  | call (c : Call)
  /-- The server finds the connection readable. -/
  | serviceClient (rs : List ReadResult) (f : ℕ → FrameFaults)
  /-- A turn of the event loop that has nothing to do with this connection. -/
  | turn (i : Input)
  /-- A `read()` of the client returns. -/
  | read (r : ReadResult)

/-- A call up to the point where it waits for its answer. -/
def Connection.startCall (st : Connection) (c : Call) : Connection :=
  let fresh := freshRequestId st.nextRequestId
  let st := { st with nextRequestId := fresh.2, calls := st.calls ++ [(fresh.1, c)] }
  match writeFrame pb ⟨fresh.1, c.method.request⟩ with
  | .error e => { st with results := st.results ++ [.error e] }
  | .ok bytes =>
    { st with toServer := st.toServer ++ bytes, waiting := some ⟨fresh.1, c, .lenBuf []⟩ }

/-- A call returns. -/
def Connection.finishCall (st : Connection) (r : Except IpcError Reply) : Connection :=
  { st with waiting := none, results := st.results ++ [r] }

/-- The waiting call goes on with what it has read. -/
def Connection.resume (st : Connection) (w : Waiting) (reading : Reading) : Connection :=
  match readFrame pb reading with
  | .inl reading => { st with waiting := some { w with reading } }
  | .inr (.error e) => st.finishCall (.error e)
  | .inr (.ok response) => st.finishCall (w.call.method.finishRoundtrip w.requestId response)

/-- **One event on a connection**, with the number of bytes read in it. The client makes one
call at a time; a read takes at least one byte, no more than it asked for and nothing that is
not there; and the client reads an end of file when the server has closed the connection. -/
def Connection.step (m : Modes) (st : Connection) : Event → Option (ℕ × Connection)
  | .call c =>
    match st.waiting with
    | some _ => none
    | none => some (0, st.startCall pb c)
  | .serviceClient rs f =>
    match st.slot with
    | none => none
    | some c =>
      if delivered rs <+: st.toServer then
        match serviceClient (serveFrame pb m f) rs c st.server with
        | none => none
        | some o =>
          some ((delivered rs).length,
            { st with
              toServer := st.toServer.drop (delivered rs).length
              slot := o.status.toOption
              server := o.state })
      else none
  | .turn i =>
    match st.server.subagent.step m pb.pbDecode i with
    | none => none
    | some (_, subagent) => some (0, { st with server := { st.server with subagent } })
  | .read r =>
    match st.waiting with
    | none => none
    | some w =>
      match r with
      | .data chunk =>
        if chunk ≠ [] ∧ chunk.length ≤ w.reading.wants ∧ chunk <+: st.server.sent then
          let server := { st.server with sent := st.server.sent.drop chunk.length }
          some (chunk.length, { st with server }.resume pb w (w.reading.push chunk))
        else none
      | .interrupted => some (0, st)
      | .endOfFile =>
        if st.slot.isNone ∧ st.server.sent = [] then
          some (0, st.finishCall (.error .connectionClosed))
        else none
      | .wouldBlock => some (0, st.finishCall (.error .io))
      | .failed => some (0, st.finishCall (.error .io))

end Codec

/-! ### What an event does -/

section Events

variable {m : Modes} {pb : PbCodec} {st st' : Connection} {n : ℕ}

/-- A call starts when none is in progress. -/
theorem Connection.step_call {c : Call} (h : st.step pb m (.call c) = some (n, st')) :
    st.waiting = none ∧ n = 0 ∧ st' = st.startCall pb c := by
  rw [Connection.step] at h
  rcases hw : st.waiting with _ | w
  · rw [hw] at h
    obtain ⟨rfl, rfl⟩ := Prod.mk.inj (Option.some.inj h)
    exact ⟨rfl, rfl, rfl⟩
  · rw [hw] at h
    exact absurd h (by simp)

/-- The server reads from an open connection what is under way. -/
theorem Connection.step_serviceClient {rs : List ReadResult} {f : ℕ → FrameFaults}
    (h : st.step pb m (.serviceClient rs f) = some (n, st')) :
    ∃ c o rest, st.slot = some c ∧ delivered rs ++ rest = st.toServer ∧
      serviceClient (serveFrame pb m f) rs c st.server = some o ∧ n = (delivered rs).length ∧
      st' = { st with toServer := rest, slot := o.status.toOption, server := o.state } := by
  rw [Connection.step] at h
  rcases hslot : st.slot with _ | c
  · rw [hslot] at h
    exact absurd h (by simp)
  simp only [hslot] at h
  split_ifs at h with hpre
  obtain ⟨rest, hrest⟩ := hpre
  rcases hserve : serviceClient (serveFrame pb m f) rs c st.server with _ | o
  · rw [hserve] at h
    exact absurd h (by simp)
  simp only [hserve] at h
  obtain ⟨rfl, rfl⟩ := Prod.mk.inj (Option.some.inj h)
  refine ⟨c, o, rest, rfl, hrest, hserve, rfl, ?_⟩
  rw [← hrest, List.drop_left]

/-- Any other turn leaves everything but the subagent. -/
theorem Connection.step_turn {i : Input} (h : st.step pb m (.turn i) = some (n, st')) :
    n = 0 ∧ ∃ subagent, st' = { st with server := { st.server with subagent } } := by
  rw [Connection.step] at h
  rcases hturn : st.server.subagent.step m pb.pbDecode i with _ | ⟨o, subagent⟩
  · rw [hturn] at h
    exact absurd h (by simp)
  · rw [hturn] at h
    obtain ⟨rfl, rfl⟩ := Prod.mk.inj (Option.some.inj h)
    exact ⟨rfl, subagent, rfl⟩

/-- A `read()` of the client gives some of what is under way, or it was interrupted, or it ends
the call with an error; and it finds the end of the file only on a closed connection. -/
theorem Connection.step_read {r : ReadResult} (h : st.step pb m (.read r) = some (n, st')) :
    ∃ w, st.waiting = some w ∧
      ((∃ chunk rest, r = .data chunk ∧ chunk ≠ [] ∧ chunk.length ≤ w.reading.wants ∧
          chunk ++ rest = st.server.sent ∧ n = chunk.length ∧
          st' = { st with server := { st.server with sent := rest } }.resume pb w
            (w.reading.push chunk)) ∨
        n = 0 ∧ (r = .interrupted ∧ st' = st ∨ ∃ e, st' = st.finishCall (.error e) ∧
          (r = .wouldBlock ∨ r = .failed ∨ r = .endOfFile ∧ st.slot = none))) := by
  rw [Connection.step] at h
  rcases hw : st.waiting with _ | w
  · rw [hw] at h
    exact absurd h (by simp)
  simp only [hw] at h
  refine ⟨w, rfl, ?_⟩
  cases r with
  | data chunk =>
    simp only at h
    split_ifs at h with hchunk
    obtain ⟨hne, hwants, rest, hrest⟩ := hchunk
    obtain ⟨rfl, rfl⟩ := Prod.mk.inj (Option.some.inj h)
    refine Or.inl ⟨chunk, rest, rfl, hne, hwants, hrest, rfl, ?_⟩
    rw [← hrest, List.drop_left]
  | interrupted =>
    obtain ⟨rfl, rfl⟩ := Prod.mk.inj (Option.some.inj h)
    exact Or.inr ⟨rfl, Or.inl ⟨rfl, rfl⟩⟩
  | endOfFile =>
    simp only at h
    split_ifs at h with hclosed
    obtain ⟨rfl, rfl⟩ := Prod.mk.inj (Option.some.inj h)
    have hslot : st.slot = none := Option.isNone_iff_eq_none.mp hclosed.1
    exact Or.inr ⟨rfl, Or.inr ⟨_, rfl, Or.inr (Or.inr ⟨rfl, hslot⟩)⟩⟩
  | wouldBlock =>
    obtain ⟨rfl, rfl⟩ := Prod.mk.inj (Option.some.inj h)
    exact Or.inr ⟨rfl, Or.inr ⟨_, rfl, Or.inl rfl⟩⟩
  | failed =>
    obtain ⟨rfl, rfl⟩ := Prod.mk.inj (Option.some.inj h)
    exact Or.inr ⟨rfl, Or.inr ⟨_, rfl, Or.inr (Or.inl rfl)⟩⟩

theorem Connection.calls_startCall (st : Connection) (c : Call) :
    (st.startCall pb c).calls = st.calls ++ [((freshRequestId st.nextRequestId).1, c)] := by
  simp only [Connection.startCall]
  split <;> rfl

theorem Connection.calls_resume (st : Connection) (w : Waiting) (reading : Reading) :
    (st.resume pb w reading).calls = st.calls := by
  simp only [Connection.resume]
  split <;> rfl

theorem Connection.server_resume (st : Connection) (w : Waiting) (reading : Reading) :
    (st.resume pb w reading).server = st.server := by
  simp only [Connection.resume]
  split <;> rfl

/-- What reads bytes is not a call. -/
theorem Connection.calls_of_read {e : Event} (hstep : st.step pb m e = some (n, st'))
    (hn : 0 < n) : st'.calls = st.calls := by
  cases e with
  | call c =>
    obtain ⟨-, rfl, -⟩ := Connection.step_call hstep
    exact absurd hn (Nat.lt_irrefl 0)
  | serviceClient rs f =>
    obtain ⟨c, o, rest, -, -, -, -, rfl⟩ := Connection.step_serviceClient hstep
    rfl
  | turn i =>
    obtain ⟨-, subagent, rfl⟩ := Connection.step_turn hstep
    rfl
  | read r =>
    obtain ⟨w, -, ⟨chunk, rest, -, -, -, -, -, rfl⟩ | ⟨rfl, -⟩⟩ := Connection.step_read hstep
    · exact Connection.calls_resume _ w _
    · exact absurd hn (Nat.lt_irrefl 0)

end Events

/-! ### Admissible events -/

/-- A text the server has room for. -/
def ShortText (s : String) : Prop := (utf8 s).length ≤ 63 ∧ 0 ∉ utf8 s

/-- A call the protocol has room for: keys and trap names of at most 63 bytes without NUL, byte
values of at most 256 bytes. -/
def Call.Admissible : Call → Prop
  | .ping _ => True
  | .writeConfig key (.bytes v) => ShortText key ∧ v.length ≤ 256
  | .writeConfig key _ => ShortText key
  | .readConfig key => ShortText key
  | .sendTrap trapName => ShortText trapName

/-- What is assumed of an event: calls are admissible, and the connection itself does not fail.
The server's reads neither fail nor find that the client is gone, and its writes succeed; the
client's reads do not fail. What goes wrong in the storage is left open, and so is whether the
client ever reads an end of file. -/
def Event.Admissible : Event → Prop
  | .call c => c.Admissible
  | .serviceClient rs f =>
    (∀ r ∈ rs, r ≠ .endOfFile ∧ r ≠ .failed) ∧ ∀ i, (f i).unsent = false
  | .turn _ => True
  | .read r => r ≠ .wouldBlock ∧ r ≠ .failed

theorem ShortText.text {s : String} (h : ShortText s) : Text 64 (utf8 s) :=
  ⟨Nat.lt_succ_of_le h.1, h.2, s, rfl⟩

/-- A value to store has one of the types of the schema. -/
theorem IpcValue.intoPb_typed (value : IpcValue) : value.intoPb.Typed := by
  cases value with
  | int32 => exact ⟨.int32, rfl⟩
  | uint32 => exact ⟨.uint32, rfl⟩
  | uint64 => exact ⟨.uint64, rfl⟩
  | bytes => exact ⟨.bytes, rfl⟩

/-- It conforms when it is not too long. -/
theorem IpcValue.intoPb_conforms {value : IpcValue} (h : value.intoPb.bytesVal.length ≤ 256) :
    value.intoPb.Conforms := ⟨value.intoPb_typed, h⟩

/-- What an admissible call sends conforms to the schema. -/
theorem Call.Admissible.conforms {c : Call} (h : c.Admissible) : c.method.request.Conforms := by
  cases c with
  | ping nonce => trivial
  | readConfig key => exact ShortText.text h
  | sendTrap trapName => exact ShortText.text h
  | writeConfig key value =>
    cases value with
    | bytes v =>
      refine ⟨h.1.text, ?_⟩
      rintro _ ⟨⟩
      exact IpcValue.intoPb_conforms h.2
    | _ =>
      refine ⟨ShortText.text h, ?_⟩
      rintro _ ⟨⟩
      exact IpcValue.intoPb_conforms (Nat.zero_le _)

/-- **A request id is never 0**, wherever the counter stands. -/
theorem freshRequestId_ne_zero (next : UInt32) : (freshRequestId next).1 ≠ 0 := by
  rw [freshRequestId]
  split_ifs with h
  · rw [h]
    decide
  · exact h

/-! ### Frames, in parts -/

section Frames

variable {p a b : Bytes}

theorem length_frameBytes (p : Bytes) : (frameBytes p).length = 4 + p.length := by
  rw [frameBytes, List.length_append, List.length_reverse, leBytes_length]

theorem beNat_header {n : ℕ} (h : n < 2 ^ 32) : beNat (leBytes 4 n).reverse = n := by
  rw [beNat, List.reverse_reverse, leNat_leBytes]
  exact Nat.mod_eq_of_lt h

/-- The first four bytes of a frame say how long it is. -/
theorem beNat_take_frameBytes (h : p.length ≤ 65536) (hab : a ++ b = frameBytes p)
    (ha : 4 ≤ a.length) : beNat (a.take 4) = p.length := by
  have htake : a.take 4 = (leBytes 4 p.length).reverse := by
    have hwhole : (a ++ b).take 4 = a.take 4 := List.take_append_of_le_length ha
    rw [← hwhole, hab, frameBytes]
    exact List.take_left' (by rw [List.length_reverse, leBytes_length])
  rw [htake, beNat_header (by omega)]

/-- A frame is read as such. -/
theorem nextFrame_frameBytes (h1 : 1 ≤ p.length) (h : p.length ≤ 65536) :
    ipcFraming.next (frameBytes p) = .item p [] := by
  have hlen := length_frameBytes p
  have hbe := beNat_take_frameBytes (b := []) h (List.append_nil _) (by omega)
  have hdrop : (frameBytes p).drop 4 = p :=
    List.drop_left' (by rw [List.length_reverse, leBytes_length])
  show nextFrame (frameBytes p) = .item p []
  rw [nextFrame_eq_item_iff, hbe, hdrop]
  exact ⟨h1, h, hlen.ge, (List.take_length ..).symm, (List.drop_eq_nil_of_le hlen.le).symm⟩

/-- A part of a frame is held back. -/
theorem nextFrame_part (h1 : 1 ≤ p.length) (h : p.length ≤ 65536) (hab : a ++ b = frameBytes p)
    (hb : b ≠ []) : nextFrame a = .more := by
  rw [nextFrame]
  by_cases ha : a.length < 4
  · rw [if_pos ha]
  have hlen := congrArg List.length hab
  have hpos := List.length_pos_iff.mpr hb
  rw [List.length_append, length_frameBytes] at hlen
  rw [if_neg ha]
  simp only [beNat_take_frameBytes h hab (Nat.le_of_not_lt ha)]
  rw [if_neg (by omega), if_neg (by omega), if_pos (by omega)]

end Frames

section Serve

variable {σ : Type} {handle : σ → Bytes → σ × Bool} {rs : List ReadResult} {c : IpcClient}
  {s s' : σ} {o : Outcome σ Bytes CloseReason IpcClient}

/-- An outcome seen as an open connection is one. -/
theorem status_of_seen {ps : List Bytes} {v : Bytes} (h : seen o = ⟨s, ps, .ok v⟩) :
    o.state = s ∧ ∃ c', o.status = .ok c' ∧ c'.valid = v := by
  obtain ⟨hstate, -, hstatus⟩ := Outcome.mk.inj h
  refine ⟨hstate, ?_⟩
  rcases ho : o.status with r | c'
  · rw [ho] at hstatus
    exact absurd hstatus (by simp [Except.map])
  · rw [ho] at hstatus
    exact ⟨c', rfl, Except.ok.inj hstatus⟩

/-- Reads that do not complete a frame only fill the buffer. -/
theorem serviceClient_part (hclean : ∀ r ∈ rs, r ≠ .endOfFile ∧ r ≠ .failed)
    (hmore : nextFrame c.valid = .more) (hpart : nextFrame (c.valid ++ delivered rs) = .more)
    (h : serviceClient handle rs c s = some o) :
    o.state = s ∧ ∃ c', o.status = .ok c' ∧ c'.valid = c.valid ++ delivered rs := by
  exact status_of_seen ((serviceClient_eq rs hclean hmore h).trans (parseAll_more hpart s))

/-- Reads that give nothing leave an empty buffer empty. -/
theorem serviceClient_nothing (hclean : ∀ r ∈ rs, r ≠ .endOfFile ∧ r ≠ .failed)
    (hvalid : c.valid = []) (hdel : delivered rs = [])
    (h : serviceClient handle rs c s = some o) :
    o.state = s ∧ ∃ c', o.status = .ok c' ∧ c'.valid = [] := by
  have hmore : nextFrame c.valid = .more := by
    rw [hvalid]
    rfl
  have hsame : c.valid ++ delivered rs = c.valid := by rw [hdel, List.append_nil]
  have hpart := serviceClient_part hclean hmore (by rw [hsame, hmore]) h
  rwa [hsame, hvalid] at hpart

/-- Reads that complete a frame have it handled, and leave the buffer empty. -/
theorem serviceClient_whole (hclean : ∀ r ∈ rs, r ≠ .endOfFile ∧ r ≠ .failed)
    (hmore : nextFrame c.valid = .more) {p : Bytes} (h1 : 1 ≤ p.length) (hp : p.length ≤ 65536)
    (hwhole : c.valid ++ delivered rs = frameBytes p) (hhandle : handle s p = (s', true))
    (h : serviceClient handle rs c s = some o) :
    o.state = s' ∧ ∃ c', o.status = .ok c' ∧ c'.valid = [] := by
  have href : refHandle handle s p = (s', none) := by
    rw [refHandle, hhandle]
    rfl
  have hnil : ipcFraming.next [] = .more := rfl
  have hseen : seen o = ⟨s', [p], .ok []⟩ := by
    rw [serviceClient_eq rs hclean hmore h, hwhole,
      parseAll_item (nextFrame_frameBytes h1 hp) href, parseAll_more hnil]
    rfl
  exact status_of_seen hseen

/-- When the handler of a frame closes the connection, it is closed. -/
theorem serviceClient_closed (hclean : ∀ r ∈ rs, r ≠ .endOfFile ∧ r ≠ .failed)
    (hmore : nextFrame c.valid = .more) {p : Bytes} (h1 : 1 ≤ p.length) (hp : p.length ≤ 65536)
    (hwhole : c.valid ++ delivered rs = frameBytes p) (hhandle : handle s p = (s', false))
    (h : serviceClient handle rs c s = some o) :
    o.state = s' ∧ o.status.toOption = none := by
  have href : refHandle handle s p = (s', some .byHandler) := by
    rw [refHandle, hhandle]
    rfl
  have hseen : seen o = ⟨s', [p], .error .byHandler⟩ := by
    rw [serviceClient_eq rs hclean hmore h, hwhole,
      parseAll_stop (nextFrame_frameBytes h1 hp) href]
  obtain ⟨hstate, -, hstatus⟩ := Outcome.mk.inj hseen
  refine ⟨hstate, ?_⟩
  rcases ho : o.status with r | c'
  · rfl
  · rw [ho] at hstatus
    exact absurd hstatus (by simp [Except.map])

end Serve

section Lawful

variable {pb : PbCodec} {e : Envelope}

/-- The length of what prost writes. -/
theorem PbCodec.Lawful.encodeToVec_bounds (hpb : pb.Lawful) (h : e.Conforms) :
    1 ≤ (pb.encodeToVec e).length ∧ (pb.encodeToVec e).length ≤ 1024 := by
  rw [hpb.length_encodeToVec h]
  exact e.length_wire h

/-- The length of what nanopb writes. -/
theorem PbCodec.Lawful.pbEncode_bounds (hpb : pb.Lawful) (h : e.Conforms) :
    1 ≤ (pb.pbEncode e).length ∧ (pb.pbEncode e).length ≤ 1024 := by
  rw [hpb.length_pbEncode h]
  exact e.length_wire h

/-- The client takes every frame the server does. -/
theorem not_gt_maxFrameLen {len : UInt32} (h : len.toNat ≤ 65536) : ¬len > maxFrameLen := by
  rw [gt_iff_lt, UInt32.lt_iff_toNat_lt, Nat.not_lt]
  exact le_trans h (by decide)

/-- The client writes a frame when the payload is not too large for one. -/
theorem writeFrame_eq_of_le (h : (pb.encodeToVec e).length ≤ 65536) :
    writeFrame pb e = .ok (frameBytes (pb.encodeToVec e)) := by
  have hnat : (UInt32.ofNat (pb.encodeToVec e).length).toNat = (pb.encodeToVec e).length :=
    UInt32.toNat_ofNat_of_lt (lt_of_le_of_lt h (by decide))
  have hlen := not_gt_maxFrameLen (hnat.trans_le h)
  have hlt : (pb.encodeToVec e).length < 2 ^ 32 := by omega
  simp only [writeFrame, if_pos hlt, if_neg hlen]
  rw [toBeBytes, hnat, frameBytes]

/-- So it does for an envelope of the schema. -/
theorem writeFrame_eq (hpb : pb.Lawful) (h : e.Conforms) :
    writeFrame pb e = .ok (frameBytes (pb.encodeToVec e)) :=
  writeFrame_eq_of_le (le_trans (hpb.encodeToVec_bounds h).2 (by decide))

/-- The server writes a frame, too, when the payload fits its buffer. -/
theorem sendEnvelope_of_le {payload : Bytes} (hpayload : pb.pbEncode e = payload)
    (hle : payload.length ≤ ipcSendBufSize) : sendEnvelope pb e = some (frameBytes payload) := by
  subst hpayload
  have hnat : (UInt32.ofNat (pb.pbEncode e).length).toNat = (pb.pbEncode e).length :=
    UInt32.toNat_ofNat_of_lt (lt_of_le_of_lt hle (by decide))
  have hhead : (putU32le (UInt32.ofNat (pb.pbEncode e).length)).reverse =
      (leBytes 4 (pb.pbEncode e).length).reverse := by
    rw [putU32le_eq, hnat]
  simp only [sendEnvelope, if_pos hle]
  rw [frameBytes, ← hhead]
  rfl

/-- So it does for an envelope of the schema. -/
theorem sendEnvelope_eq (hpb : pb.Lawful) (h : e.Conforms) :
    sendEnvelope pb e = some (frameBytes (pb.pbEncode e)) :=
  sendEnvelope_of_le rfl (hpb.pbEncode_bounds h).2

end Lawful

/-! ### What is exchanged -/

/-- Every call is answered by a body of the variant its method takes, and the connection stays
open. -/
theorem Call.exists_answer (m : Modes) (f : FrameFaults) (a : Agent) (c : Call) :
    ∃ (reply : Reply) (a' : Agent), answerBody m f a c.method.request = some (reply.body, a') ∧
      reply.Matches c ∧ c.method.finish reply.body = .ok reply := by
  cases c with
  | ping nonce => exact ⟨.ping nonce, a, rfl, trivial, rfl⟩
  | writeConfig key value => exact ⟨.writeConfig _, _, rfl, trivial, rfl⟩
  | readConfig key => exact ⟨.readConfig _, _, rfl, trivial, rfl⟩
  | sendTrap trapName => exact ⟨.sendTrap _, _, rfl, trivial, rfl⟩

theorem Reply.body_injective {r r' : Reply} (h : r.body = r'.body) : r = r' := by
  cases r <;> cases r' <;> simp_all [Reply.body]

/-- A call, its request id and the answer the server has computed for it. -/
structure Exchange (m : Modes) where
  requestId : UInt32
  call : Call
  reply : Reply
  id_ne : requestId ≠ 0
  admissible : call.Admissible
  answers : ∃ f a a', answerBody m f a call.method.request = some (reply.body, a')

namespace Exchange

variable {m : Modes} (x : Exchange m)

/-- The call as the client has made it. -/
def made : UInt32 × Call := (x.requestId, x.call)

/-- The envelope sent. -/
def request : Envelope := ⟨x.requestId, x.call.method.request⟩

/-- The envelope sent back. -/
def response : Envelope := ⟨x.requestId, x.reply.body⟩

/-- The exchange as the server has seen it. -/
def record : FrameRecord := ⟨x.request, x.response, true⟩

theorem matches_finish :
    x.reply.Matches x.call ∧ x.call.method.finish x.reply.body = .ok x.reply := by
  obtain ⟨f, a, a', hans⟩ := x.answers
  obtain ⟨reply, a'', hans', hmatches, hfinish⟩ := x.call.exists_answer m f a
  obtain ⟨hbody, -⟩ := Prod.mk.inj (Option.some.inj (hans'.symm.trans hans))
  rw [Reply.body_injective hbody] at hmatches hfinish
  exact ⟨hmatches, hfinish⟩

theorem conforms_response : x.response.Conforms := by
  obtain ⟨f, a, a', hans⟩ := x.answers
  exact answerBody_conforms x.admissible.conforms hans

end Exchange

/-- A payload that decodes to something the switch answers: one more record, and the frame of
the answer under way. -/
theorem serveFrame_answer {m : Modes} {pb : PbCodec} (hpb : pb.Lawful) {f : ℕ → FrameFaults}
    (hf : ∀ i, (f i).unsent = false) {sv : Server} {payload : Bytes} {req : Envelope}
    (hreq : pb.pbDecode payload = some req) {body : Body} {a' : Agent}
    (hans : answerBody m (f sv.answered.length) sv.subagent.agent req.body = some (body, a'))
    (hbody : body.Conforms) :
    serveFrame pb m f sv payload =
      (⟨{ sv.subagent with agent := a' },
        sv.answered ++ [⟨req, ⟨req.requestId, body⟩, true⟩],
        sv.sent ++ frameBytes (pb.pbEncode ⟨req.requestId, body⟩)⟩, true) := by
  have hframe : handleFrame m pb.pbDecode (f sv.answered.length) sv.subagent.agent payload =
      (some ⟨req, ⟨req.requestId, body⟩, true⟩, a', true) := by
    rw [handleFrame, hreq]
    simp only [hans, hf]
    rfl
  have hsend : sendEnvelope pb ⟨req.requestId, body⟩ =
      some (frameBytes (pb.pbEncode ⟨req.requestId, body⟩)) := sendEnvelope_eq hpb hbody
  rw [serveFrame, hframe]
  simp only [hsend]
  rfl

/-- **The server answers a request.** -/
theorem serveFrame_request {m : Modes} {pb : PbCodec} (hpb : pb.Lawful) {f : ℕ → FrameFaults}
    (hf : ∀ i, (f i).unsent = false) {id : UInt32} (hid : id ≠ 0) {c : Call} (hc : c.Admissible)
    (sv : Server) :
    ∃ (x : Exchange m) (subagent : Subagent), x.made = (id, c) ∧
      serveFrame pb m f sv (pb.encodeToVec ⟨id, c.method.request⟩) =
        (⟨subagent, sv.answered ++ [x.record], sv.sent ++ frameBytes (pb.pbEncode x.response)⟩,
          true) := by
  obtain ⟨reply, a', hans, -, -⟩ :=
    c.exists_answer m (f sv.answered.length) sv.subagent.agent
  let x : Exchange m := ⟨id, c, reply, hid, hc, _, _, _, hans⟩
  have hreq := hpb.pbDecode_encodeToVec (e := ⟨id, c.method.request⟩) hc.conforms
  refine ⟨x, { sv.subagent with agent := a' }, rfl, ?_⟩
  exact serveFrame_answer hpb hf hreq hans x.conforms_response

/-! ### The phases of a call -/

/-- The client is in the middle of reading the frame of `q`, and `rest` is what it has not read
of it. -/
def Reading.Awaits (q rest : Bytes) : Reading → Prop
  | .lenBuf got => got.length < 4 ∧ got ++ rest = frameBytes q
  | .payload len got => len = q.length ∧ got.length < len ∧ got ++ rest = q

section Steps

variable {m : Modes} {pb : PbCodec} {st st' : Connection} {n : ℕ}

/-- **The client reads**: it is still in the middle of the frame, or it has the envelope in it
and nothing is left. -/
theorem Reading.Awaits.readFrame {q chunk rest : Bytes} {reading : Reading} {e : Envelope}
    (h : reading.Awaits q (chunk ++ rest)) (h1 : 1 ≤ q.length) (hq : q.length ≤ 1024)
    (hdecode : pb.decode q = some e) (hwants : chunk.length ≤ reading.wants) :
    (∃ reading', AgentxSubagent.readFrame pb (reading.push chunk) = .inl reading' ∧
        reading'.Awaits q rest) ∨
      AgentxSubagent.readFrame pb (reading.push chunk) = .inr (.ok e) ∧ rest = [] := by
  cases reading with
  | lenBuf got =>
    obtain ⟨hgot, hframe⟩ := h
    have hwants : chunk.length ≤ 4 - got.length := hwants
    rw [← List.append_assoc] at hframe
    by_cases hshort : (got ++ chunk).length < 4
    · exact Or.inl ⟨.lenBuf (got ++ chunk), if_pos hshort, hshort, hframe⟩
    -- the length prefix is complete, and the payload is all there is left
    have hfour : (got ++ chunk).length = (leBytes 4 q.length).reverse.length := by
      rw [List.length_reverse, leBytes_length]
      rw [List.length_append] at hshort ⊢
      omega
    obtain ⟨hhead, hrest⟩ := List.append_inj (hframe.trans (frameBytes.eq_1 q)) hfour
    have hlen : (fromBeBytes (got ++ chunk)).toNat = q.length := by
      rw [fromBeBytes, hhead, beNat_header (by omega)]
      exact UInt32.toNat_ofNat_of_lt (lt_of_le_of_lt hq (by decide))
    have hmax := not_gt_maxFrameLen (hlen.trans_le (le_trans hq (by decide)))
    refine Or.inl ⟨.payload q.length [], ?_, rfl, h1, hrest⟩
    simp only [Reading.push, AgentxSubagent.readFrame, if_neg hshort, if_neg hmax, hlen]
    exact if_pos h1
  | payload len got =>
    obtain ⟨rfl, hgot, hbytes⟩ := h
    have hwants : chunk.length ≤ q.length - got.length := hwants
    rw [← List.append_assoc] at hbytes
    by_cases hshort : (got ++ chunk).length < q.length
    · exact Or.inl ⟨.payload q.length (got ++ chunk), if_pos hshort, rfl, hshort, hbytes⟩
    · have hall := congrArg List.length hbytes
      rw [List.length_append] at hall
      have hnil : rest = [] := List.length_eq_zero_iff.mp (by omega)
      rw [hnil, List.append_nil] at hbytes
      refine Or.inr ⟨?_, hnil⟩
      simp only [Reading.push, AgentxSubagent.readFrame, readPayload, if_neg hshort]
      rw [hbytes, hdecode]

/-- With nothing under way to the server its reads give nothing. -/
theorem Connection.step_serviceClient_nothing {c : IpcClient} (hslot : st.slot = some c)
    (hvalid : c.valid = []) (hto : st.toServer = []) {rs : List ReadResult} {f : ℕ → FrameFaults}
    (hrs : ∀ r ∈ rs, r ≠ .endOfFile ∧ r ≠ .failed)
    (hstep : st.step pb m (.serviceClient rs f) = some (n, st')) :
    ∃ c', n = 0 ∧ c'.valid = [] ∧ st' = { st with slot := some c' } := by
  obtain ⟨d, o, rest, hopen, hrest, hserve, rfl, rfl⟩ := Connection.step_serviceClient hstep
  obtain rfl := Option.some.inj (hopen.symm.trans hslot)
  obtain ⟨hdel, rfl⟩ := List.append_eq_nil_iff.mp (hrest.trans hto)
  obtain ⟨hstate, c', hstatus, hvalid'⟩ := serviceClient_nothing hrs hvalid hdel hserve
  refine ⟨c', by rw [hdel]; rfl, hvalid', ?_⟩
  rw [hstatus, hstate, hto]
  rfl

/-- With the rest of a frame under way to it, the server reads a part of that, or all of it;
then the frame is handled. -/
theorem Connection.step_serviceClient_frame {p : Bytes} (h1 : 1 ≤ p.length)
    (hp : p.length ≤ 65536) {c : IpcClient} (hslot : st.slot = some c)
    (hbytes : c.valid ++ st.toServer = frameBytes p) (hto : st.toServer ≠ [])
    {rs : List ReadResult} {f : ℕ → FrameFaults} (hrs : ∀ r ∈ rs, r ≠ .endOfFile ∧ r ≠ .failed)
    {sv : Server} (hhandle : serveFrame pb m f st.server p = (sv, true))
    (hstep : st.step pb m (.serviceClient rs f) = some (n, st')) :
    ∃ c' rest, n + rest.length = st.toServer.length ∧
      (rest ≠ [] ∧ c'.valid ++ rest = frameBytes p ∧
          st' = { st with toServer := rest, slot := some c' } ∨
        rest = [] ∧ c'.valid = [] ∧
          st' = { st with toServer := [], slot := some c', server := sv }) := by
  obtain ⟨d, o, rest, hopen, hrest, hserve, rfl, rfl⟩ := Connection.step_serviceClient hstep
  obtain rfl := Option.some.inj (hopen.symm.trans hslot)
  have hlen : (delivered rs).length + rest.length = st.toServer.length := by
    rw [← hrest, List.length_append]
  have hmore := nextFrame_part h1 hp hbytes hto
  rw [← hrest, ← List.append_assoc] at hbytes
  by_cases hlast : rest = []
  · -- the last byte of the frame
    rw [hlast, List.append_nil] at hbytes
    obtain ⟨hstate, c', hstatus, hvalid'⟩ :=
      serviceClient_whole hrs hmore h1 hp hbytes hhandle hserve
    refine ⟨c', rest, hlen, Or.inr ⟨hlast, hvalid', ?_⟩⟩
    rw [hstatus, hstate, hlast]
    rfl
  · have hpart := nextFrame_part h1 hp hbytes hlast
    obtain ⟨hstate, c', hstatus, hvalid'⟩ := serviceClient_part hrs hmore hpart hserve
    rw [← hvalid'] at hbytes
    refine ⟨c', rest, hlen, Or.inl ⟨hlast, hbytes, ?_⟩⟩
    rw [hstatus, hstate]
    rfl

/-- With nothing under way to the client, on an open connection, it reads nothing. -/
theorem Connection.step_read_nothing (hopen : st.slot ≠ none) (hsent : st.server.sent = [])
    {r : ReadResult} (hr : r ≠ .wouldBlock ∧ r ≠ .failed)
    (hstep : st.step pb m (.read r) = some (n, st')) : n = 0 ∧ st' = st := by
  obtain ⟨w, hw, ⟨chunk, rest, rfl, hne, hwants, hrest, rfl, rfl⟩ |
    ⟨rfl, ⟨rfl, rfl⟩ | ⟨e, -, rfl | rfl | ⟨-, hclosed⟩⟩⟩⟩ := Connection.step_read hstep
  · exact absurd (List.append_eq_nil_iff.mp (hrest.trans hsent)).1 hne
  · exact ⟨rfl, rfl⟩
  · exact absurd rfl hr.1
  · exact absurd rfl hr.2
  · exact absurd hclosed hopen

/-- With the rest of a frame under way to it, the client reads a part of that, or all of it;
then it has the envelope, and the call returns. -/
theorem Connection.step_read_frame {q : Bytes} (h1 : 1 ≤ q.length) (hq : q.length ≤ 1024)
    {response : Envelope} (hdecode : pb.decode q = some response) (hopen : st.slot ≠ none)
    {id : UInt32} {call : Call} {reading : Reading} (hwait : st.waiting = some ⟨id, call, reading⟩)
    (hreading : reading.Awaits q st.server.sent) {r : ReadResult}
    (hr : r ≠ .wouldBlock ∧ r ≠ .failed) (hstep : st.step pb m (.read r) = some (n, st')) :
    (∃ reading' rest, n + rest.length = st.server.sent.length ∧ reading'.Awaits q rest ∧
        st' = { st with
          server := { st.server with sent := rest }
          waiting := some ⟨id, call, reading'⟩ }) ∨
      n = st.server.sent.length ∧
        st' = { st with server := { st.server with sent := [] } }.finishCall
          (call.method.finishRoundtrip id response) := by
  obtain ⟨w, hw, ⟨chunk, rest, rfl, hne, hwants, hrest, rfl, rfl⟩ |
    ⟨rfl, ⟨rfl, rfl⟩ | ⟨e, -, rfl | rfl | ⟨-, hclosed⟩⟩⟩⟩ := Connection.step_read hstep
  all_goals obtain rfl := Option.some.inj (hw.symm.trans hwait)
  · have hlen : chunk.length + rest.length = st.server.sent.length := by
      rw [← hrest, List.length_append]
    rw [← hrest] at hreading
    obtain ⟨reading', hread, hawaits⟩ | ⟨hread, rfl⟩ := hreading.readFrame h1 hq hdecode hwants
    · rw [Connection.resume, hread]
      exact Or.inl ⟨reading', rest, hlen, hawaits, rfl⟩
    · rw [Connection.resume, hread]
      exact Or.inr ⟨hlen, rfl⟩
  · refine Or.inl ⟨reading, _, Nat.zero_add _, hreading, ?_⟩
    rw [← hwait]
  · exact absurd rfl hr.1
  · exact absurd rfl hr.2
  · exact absurd hclosed hopen

end Steps

/-- **Where a connection stands.** No call is in progress and nothing is under way; or what the
server has of the request and what is under way make up its frame; or the server has answered,
and what the client has of the answer and what is under way make up the frame of that. -/
inductive Connection.Phase {m : Modes} (pb : PbCodec) (st : Connection) (done : List (Exchange m)) :
    Prop
  | idle (c : IpcClient) (hslot : st.slot = some c) (hvalid : c.valid = [])
    (hwait : st.waiting = none) (hto : st.toServer = []) (hsent : st.server.sent = [])
    (hcalls : st.calls = done.map Exchange.made)
    (hans : st.server.answered = done.map Exchange.record)
  | requesting (c : IpcClient) (id : UInt32) (call : Call) (hid : id ≠ 0)
    (hcall : call.Admissible) (hslot : st.slot = some c)
    (hwait : st.waiting = some ⟨id, call, .lenBuf []⟩)
    (hbytes : c.valid ++ st.toServer = frameBytes (pb.encodeToVec ⟨id, call.method.request⟩))
    (hto : st.toServer ≠ []) (hsent : st.server.sent = [])
    (hcalls : st.calls = done.map Exchange.made ++ [(id, call)])
    (hans : st.server.answered = done.map Exchange.record)
  | answering (c : IpcClient) (x : Exchange m) (reading : Reading) (hslot : st.slot = some c)
    (hvalid : c.valid = []) (hwait : st.waiting = some ⟨x.requestId, x.call, reading⟩)
    (hto : st.toServer = [])
    (hreading : reading.Awaits (pb.pbEncode x.response) st.server.sent)
    (hcalls : st.calls = done.map Exchange.made ++ [x.made])
    (hans : st.server.answered = done.map Exchange.record ++ [x.record])

/-- The invariant of a connection: the calls that have returned are the exchanges done. -/
structure Connection.Inv {m : Modes} (pb : PbCodec) (st : Connection) (done : List (Exchange m)) :
    Prop where
  results : st.results = done.map fun x => .ok x.reply
  phase : st.Phase pb done

/-- The bytes one call can take, both ways: the largest frame a client may send, and the
largest the server can. -/
def callBytes : ℕ := (4 + 65536) + (4 + 1024)

/-- The bytes still to be read for the calls made so far, at most. -/
def Connection.remaining (st : Connection) : ℕ :=
  st.toServer.length + (4 + 1024) * (st.calls.length - st.server.answered.length) +
    st.server.sent.length

/-- An event that leads to a state of the invariant, and that reads no more bytes than there
are left. -/
def Connection.Leads (m : Modes) (pb : PbCodec) (st : Connection) (n : ℕ) (st' : Connection) :
    Prop :=
  (∃ done : List (Exchange m), st'.Inv pb done) ∧
    n + st'.remaining + callBytes * st.calls.length ≤ st.remaining + callBytes * st'.calls.length

section Phases

variable {m : Modes} {pb : PbCodec} {st st' : Connection} {done : List (Exchange m)} {n : ℕ}

/-- A new connection is idle. -/
theorem Connection.inv_connect (s : Subagent) :
    (Connection.connect s).Inv pb ([] : List (Exchange m)) where
  results := rfl
  phase := .idle .fresh rfl rfl rfl rfl rfl rfl rfl

/-- The calls and the answers of a connection: those of the exchanges done, and at most one
more. -/
theorem Connection.Phase.lists (hpb : pb.Lawful) (h : st.Phase pb done) :
    ∃ (more : List (UInt32 × Call)) (ans : List FrameRecord),
      st.calls = done.map Exchange.made ++ more ∧
      st.server.answered = done.map Exchange.record ++ ans ∧ st.slot ≠ none ∧
      (∀ c ∈ more, c.1 ≠ 0) ∧ ∀ r ∈ ans, (pb.pbEncode r.response).length ≤ 1024 := by
  rcases h with ⟨c, hslot, _, _, _, _, hcalls, hans⟩ |
    ⟨c, id, call, hid, _, hslot, _, _, _, _, hcalls, hans⟩ |
    ⟨c, x, _, hslot, _, _, _, _, hcalls, hans⟩
  · refine ⟨[], [], ?_, ?_, by simp [hslot], by simp, by simp⟩
    · rw [hcalls, List.append_nil]
    · rw [hans, List.append_nil]
  · refine ⟨[(id, call)], [], hcalls, ?_, by simp [hslot], by simpa using hid, by simp⟩
    rw [hans, List.append_nil]
  · refine ⟨[x.made], [x.record], hcalls, hans, by simp [hslot], ?_, ?_⟩
    · exact List.forall_mem_singleton.mpr x.id_ne
    · exact List.forall_mem_singleton.mpr (hpb.pbEncode_bounds x.conforms_response).2

/-- The client makes a call. -/
theorem Connection.Inv.call (hpb : pb.Lawful) (h : st.Inv pb done) {c : Call} (hc : c.Admissible)
    (hstep : st.step pb m (.call c) = some (n, st')) : st.Leads m pb n st' := by
  obtain ⟨hnone, rfl, rfl⟩ := Connection.step_call hstep
  rcases h.phase with ⟨buf, hslot, hvalid, hwait, hto, hsent, hcalls, hans⟩ |
    ⟨_, _, _, _, _, _, hwait⟩ | ⟨_, _, _, _, _, hwait⟩
  · have hne := freshRequestId_ne_zero st.nextRequestId
    generalize hid : (freshRequestId st.nextRequestId).1 = id at hne
    have hconf : (⟨id, c.method.request⟩ : Envelope).Conforms := hc.conforms
    have hlen := length_frameBytes (pb.encodeToVec ⟨id, c.method.request⟩)
    obtain ⟨-, hle⟩ := hpb.encodeToVec_bounds hconf
    simp only [Connection.startCall, hid, writeFrame_eq hpb hconf, hto, List.nil_append]
    refine ⟨⟨done, h.results, .requesting buf id c hne hc hslot rfl ?_ ?_ hsent ?_ hans⟩, ?_⟩
    · rw [hvalid, List.nil_append]
    · rw [← List.length_pos_iff, hlen]
      omega
    · rw [hcalls]
    · simp only [Connection.remaining, hto, hsent, hcalls, hans, hlen, callBytes,
        List.length_append, List.length_map, List.length_nil, List.length_singleton]
      omega
  · exact absurd (hnone.symm.trans hwait) (by simp)
  · exact absurd (hnone.symm.trans hwait) (by simp)

/-- The subagent does something else. -/
theorem Connection.Inv.turn (h : st.Inv pb done) {i : Input}
    (hstep : st.step pb m (.turn i) = some (n, st')) : st.Leads m pb n st' := by
  obtain ⟨rfl, subagent, rfl⟩ := Connection.step_turn hstep
  refine ⟨⟨done, h.results, ?_⟩, by simp [Connection.remaining]⟩
  rcases h.phase with ⟨c, hslot, hvalid, hwait, hto, hsent, hcalls, hans⟩ |
    ⟨c, id, call, hid, hcall, hslot, hwait, hbytes, hto, hsent, hcalls, hans⟩ |
    ⟨c, x, reading, hslot, hvalid, hwait, hto, hreading, hcalls, hans⟩
  · exact .idle c hslot hvalid hwait hto hsent hcalls hans
  · exact .requesting c id call hid hcall hslot hwait hbytes hto hsent hcalls hans
  · exact .answering c x reading hslot hvalid hwait hto hreading hcalls hans

/-- The server reads. -/
theorem Connection.Inv.serviceClient (hpb : pb.Lawful) (h : st.Inv pb done) {rs : List ReadResult}
    {f : ℕ → FrameFaults} (hrs : ∀ r ∈ rs, r ≠ .endOfFile ∧ r ≠ .failed)
    (hf : ∀ i, (f i).unsent = false)
    (hstep : st.step pb m (.serviceClient rs f) = some (n, st')) : st.Leads m pb n st' := by
  rcases h.phase with ⟨c, hslot, hvalid, hwait, hto, hsent, hcalls, hans⟩ |
    ⟨c, id, call, hid, hcall, hslot, hwait, hbytes, hto, hsent, hcalls, hans⟩ |
    ⟨c, x, reading, hslot, hvalid, hwait, hto, hreading, hcalls, hans⟩
  · obtain ⟨c', rfl, hvalid', rfl⟩ :=
      Connection.step_serviceClient_nothing hslot hvalid hto hrs hstep
    exact ⟨⟨done, h.results, .idle c' rfl hvalid' hwait hto hsent hcalls hans⟩,
      by simp [Connection.remaining]⟩
  · obtain ⟨h1, hle⟩ := hpb.encodeToVec_bounds (e := ⟨id, call.method.request⟩) hcall.conforms
    obtain ⟨x, subagent, hmade, hhandle⟩ := serveFrame_request hpb hf hid hcall st.server
    obtain ⟨c', rest, hlen, ⟨hrest, hbytes', rfl⟩ | ⟨rfl, hvalid', rfl⟩⟩ :=
      Connection.step_serviceClient_frame h1 (by omega) hslot hbytes hto hrs hhandle hstep
    · refine ⟨⟨done, h.results,
        .requesting c' id call hid hcall rfl hwait hbytes' hrest hsent hcalls hans⟩, ?_⟩
      simp only [Connection.remaining, ← hlen]
      omega
    · obtain ⟨rfl, rfl⟩ := Prod.mk.inj hmade
      have hframe := length_frameBytes (pb.pbEncode x.response)
      obtain ⟨-, hfits⟩ := hpb.pbEncode_bounds x.conforms_response
      refine ⟨⟨done, h.results, .answering c' x (.lenBuf []) rfl hvalid' hwait rfl ?_ hcalls ?_⟩,
        ?_⟩
      · exact ⟨by decide, by rw [hsent]; rfl⟩
      · rw [hans]
      · simp only [Connection.remaining, ← hlen, hsent, hcalls, hans, hframe,
          List.length_append, List.length_map, List.length_nil, List.length_singleton]
        omega
  · obtain ⟨c', rfl, hvalid', rfl⟩ :=
      Connection.step_serviceClient_nothing hslot hvalid hto hrs hstep
    exact ⟨⟨done, h.results, .answering c' x reading rfl hvalid' hwait hto hreading hcalls hans⟩,
      by simp [Connection.remaining]⟩

/-- The client reads. -/
theorem Connection.Inv.read (hpb : pb.Lawful) (h : st.Inv pb done) {r : ReadResult}
    (hr : r ≠ .wouldBlock ∧ r ≠ .failed) (hstep : st.step pb m (.read r) = some (n, st')) :
    st.Leads m pb n st' := by
  obtain ⟨w, hw, -⟩ := Connection.step_read hstep
  rcases h.phase with ⟨_, _, _, hwait, _⟩ |
    ⟨c, id, call, hid, hcall, hslot, hwait, hbytes, hto, hsent, hcalls, hans⟩ |
    ⟨c, x, reading, hslot, hvalid, hwait, hto, hreading, hcalls, hans⟩
  · exact absurd (hw.symm.trans hwait) (by simp)
  · obtain ⟨rfl, rfl⟩ := Connection.step_read_nothing (by simp [hslot]) hsent hr hstep
    exact ⟨⟨done, h⟩, by omega⟩
  · obtain ⟨h1, hfits⟩ := hpb.pbEncode_bounds x.conforms_response
    obtain ⟨reading', rest, hlen, hawaits, rfl⟩ | ⟨rfl, rfl⟩ :=
      Connection.step_read_frame h1 hfits (hpb.decode_pbEncode x.conforms_response)
        (by simp [hslot]) hwait hreading hr hstep
    · refine ⟨⟨done, h.results,
        .answering c x reading' hslot hvalid rfl hto hawaits hcalls hans⟩, ?_⟩
      simp only [Connection.remaining, ← hlen]
      omega
    · have hfinish : x.call.method.finishRoundtrip x.requestId x.response = .ok x.reply := by
        rw [Method.finishRoundtrip]
        exact (if_neg (not_not_intro rfl)).trans x.matches_finish.2
      rw [hfinish]
      refine ⟨⟨done ++ [x], ?_, .idle c hslot hvalid rfl hto rfl ?_ ?_⟩, ?_⟩
      · rw [Connection.finishCall, h.results, List.map_append]
        rfl
      · rw [Connection.finishCall, hcalls, List.map_append]
        rfl
      · rw [Connection.finishCall, hans, List.map_append]
        rfl
      · simp only [Connection.remaining, Connection.finishCall, List.length_nil]
        omega

/-- **One event keeps the invariant.** -/
theorem Connection.Inv.step (hpb : pb.Lawful) (h : st.Inv pb done) {e : Event}
    (he : e.Admissible) (hstep : st.step pb m e = some (n, st')) : st.Leads m pb n st' := by
  cases e with
  | call c => exact h.call hpb he hstep
  | serviceClient rs f => exact h.serviceClient hpb he.1 he.2 hstep
  | turn i => exact h.turn hstep
  | read r => exact h.read hpb he hstep

/-- **So does every sequence of events**, and the bytes read in it add up. -/
theorem Connection.Inv.run (hpb : pb.Lawful) {es : List Event} (hes : ∀ e ∈ es, e.Admissible)
    {ns : List ℕ} (h : st.Inv pb done)
    (hrun : Runs.run (fun st e => Connection.step pb m st e) st es = some (ns, st')) :
    st.Leads m pb ns.sum st' := by
  induction es generalizing st done ns with
  | nil =>
    obtain ⟨rfl, rfl⟩ := Prod.mk.inj (Option.some.inj hrun)
    exact ⟨⟨done, h⟩, by simp⟩
  | cons e es ih =>
    obtain ⟨k, ns', u, hstep, hrest, rfl⟩ := run_cons_eq_some.mp hrun
    obtain ⟨⟨done', h'⟩, hle⟩ := h.step hpb (hes e List.mem_cons_self) hstep
    obtain ⟨hinv, hle'⟩ := ih (fun e' he' => hes e' (List.mem_cons_of_mem e he')) h' hrest
    refine ⟨hinv, ?_⟩
    rw [List.sum_cons]
    omega

/-- In the middle of a frame the client asks for more, and there is more. -/
theorem Reading.Awaits.wants_pos {q rest : Bytes} {reading : Reading} (h : reading.Awaits q rest) :
    1 ≤ reading.wants ∧ rest ≠ [] := by
  cases reading with
  | lenBuf got =>
    obtain ⟨hgot, hframe⟩ := h
    refine ⟨Nat.sub_pos_of_lt hgot, ?_⟩
    rintro rfl
    have hlen := congrArg List.length hframe
    rw [List.append_nil, length_frameBytes] at hlen
    omega
  | payload len got =>
    obtain ⟨rfl, hgot, hbytes⟩ := h
    refine ⟨Nat.sub_pos_of_lt hgot, ?_⟩
    rintro rfl
    rw [List.append_nil] at hbytes
    exact absurd (congrArg List.length hbytes) (Nat.ne_of_lt hgot)

/-- The server can read all that is under way to it. -/
theorem Connection.exists_step_serviceClient {c : IpcClient} (hslot : st.slot = some c)
    (hmore : nextFrame c.valid = .more) (hto : st.toServer ≠ [])
    (hlen : st.toServer.length ≤ 4 + 65536) (f : ℕ → FrameFaults) :
    ∃ st', st.step pb m (.serviceClient [.data st.toServer] f) =
      some (st.toServer.length, st') := by
  obtain ⟨o, ho, -⟩ : ∃ o, AgentxSubagent.serviceClient (serveFrame pb m f)
      [.data st.toServer] c st.server = some o ∧ _ := by
    refine serviceClient_isSome _ st.server ?_ hmore
    intro chunk hchunk
    obtain rfl : chunk = st.toServer := by simpa using hchunk
    exact ⟨hto, hlen⟩
  have hdel : delivered [.data st.toServer] = st.toServer := List.append_nil _
  rw [Connection.step, hslot]
  simp only [ho, hdel, List.prefix_rfl, if_true]
  exact ⟨_, rfl⟩

/-- The client can read a byte of what is under way to it. -/
theorem Connection.exists_step_read {w : Waiting} (hwait : st.waiting = some w)
    (hwants : 1 ≤ w.reading.wants) (hsent : st.server.sent ≠ []) :
    ∃ b st', st.step pb m (.read (.data [b])) = some (1, st') := by
  obtain ⟨b, rest, hcons⟩ := List.exists_cons_of_ne_nil hsent
  have hread : [b] ≠ [] ∧ [b].length ≤ w.reading.wants ∧ [b] <+: st.server.sent :=
    ⟨List.cons_ne_nil b [], hwants, rest, hcons.symm⟩
  refine ⟨b, ?_⟩
  rw [Connection.step, hwait]
  simp only [if_pos hread]
  exact ⟨_, rfl⟩

/-- **While a call is waiting there is something to read.** -/
theorem Connection.Inv.exists_read (hpb : pb.Lawful) (h : st.Inv pb done)
    (hlt : st.results.length < st.calls.length) :
    ∃ e n st', e.Admissible ∧ st.step pb m e = some (n, st') ∧ 0 < n := by
  rcases h.phase with ⟨c, _, _, _, _, _, hcalls, _⟩ |
    ⟨c, id, call, hid, hcall, hslot, hwait, hbytes, hto, hsent, hcalls, hans⟩ |
    ⟨c, x, reading, hslot, hvalid, hwait, hto, hreading, hcalls, hans⟩
  · rw [h.results, hcalls, List.length_map, List.length_map] at hlt
    exact absurd hlt (Nat.lt_irrefl _)
  · obtain ⟨h1, hle⟩ := hpb.encodeToVec_bounds (e := ⟨id, call.method.request⟩) hcall.conforms
    have hmore := nextFrame_part h1 (by omega) hbytes hto
    have hlen := congrArg List.length hbytes
    rw [List.length_append, length_frameBytes] at hlen
    obtain ⟨st', hstep⟩ : ∃ st', st.step pb m _ = some (_, st') :=
      Connection.exists_step_serviceClient hslot hmore hto (by omega) fun _ => .none
    refine ⟨_, _, st', ?_, hstep, List.length_pos_iff.mpr hto⟩
    exact ⟨by simp, fun _ => rfl⟩
  · obtain ⟨hwants, hsent⟩ := hreading.wants_pos
    obtain ⟨b, st', hstep⟩ : ∃ b st', st.step pb m (.read (.data [b])) = some (1, st') :=
      Connection.exists_step_read hwait hwants hsent
    refine ⟨_, _, st', ?_, hstep, Nat.one_pos⟩
    exact ⟨by simp, by simp⟩

/-- **Reading on, every call returns.** -/
theorem Connection.Inv.exists_run (hpb : pb.Lawful) (h : st.Inv pb done) :
    ∃ es ns st', (∀ e ∈ es, Event.Admissible e) ∧
      Runs.run (fun st e => Connection.step pb m st e) st es = some (ns, st') ∧
      st'.calls = st.calls ∧ st.calls.length ≤ st'.results.length := by
  induction hrem : st.remaining using Nat.strongRecOn generalizing st done with
  | ind k ih =>
    by_cases hlt : st.results.length < st.calls.length
    · obtain ⟨e, n, u, he, hstep, hn⟩ := h.exists_read hpb hlt
      obtain ⟨⟨done', hinv⟩, hle⟩ := h.step hpb he hstep
      have hcalls := Connection.calls_of_read hstep hn
      rw [hcalls] at hle
      obtain ⟨es, ns, st', hes, hrun, hkept, hall⟩ := ih u.remaining (by omega) hinv rfl
      rw [hcalls] at hkept hall
      refine ⟨e :: es, n :: ns, st', List.forall_mem_cons.mpr ⟨he, hes⟩, ?_, hkept, hall⟩
      exact run_cons_eq_some.mpr ⟨n, ns, u, hstep, hrun, rfl⟩
    · exact ⟨[], [], st, by simp, rfl, rfl, Nat.le_of_not_lt hlt⟩

end Phases

/-! ### Every call is answered -/

/-- **Request/response agreement.** On a connection whose writes succeed and whose ends stay up,
for every sequence of admissible calls and every fragmentation in both directions, whatever else
the subagent does in between:

* the `i`-th call returns what the server has answered the `i`-th request, a body its switch
  computed for it, of the variant that matches the call and under the request's id. No call
  returns an error;
* no request has the id 0;
* every answer fits the buffer the server sends from, and it never closes the connection;
* calls return in order, and every call returns: as long as one has not there is something to
  read, and reading comes to an end. -/
theorem calls_answered {pb : PbCodec} (hpb : pb.Lawful) (m : Modes) (s : Subagent)
    (es : List Event) (hes : ∀ e ∈ es, e.Admissible) (ns : List ℕ) (st : Connection)
    (h : run (fun st e => Connection.step pb m st e) (.connect s) es = some (ns, st)) :
    (∀ (i : ℕ) (r : Except IpcError Reply), st.results[i]? = some r →
        ∃ (id : UInt32) (call : Call) (reply : Reply),
        r = .ok reply ∧ reply.Matches call ∧ st.calls[i]? = some (id, call) ∧
        st.server.answered[i]? =
          some ⟨⟨id, call.method.request⟩, ⟨id, reply.body⟩, true⟩ ∧
        ∃ f a a', answerBody m f a call.method.request = some (reply.body, a')) ∧
      (∀ c ∈ st.calls, c.1 ≠ 0) ∧
      (∀ r ∈ st.server.answered, (pb.pbEncode r.response).length ≤ 1024) ∧
      st.slot ≠ none ∧
      st.results.length ≤ st.calls.length ∧
      (st.results.length < st.calls.length →
        ∃ e n st', e.Admissible ∧ st.step pb m e = some (n, st') ∧ 0 < n) ∧
      ns.sum ≤ callBytes * st.calls.length := by
  have hstart : (Connection.connect s).Inv pb ([] : List (Exchange m)) := Connection.inv_connect s
  obtain ⟨⟨done, hinv⟩, hle⟩ := hstart.run hpb hes h
  obtain ⟨more, ans, hcalls, hans, hslot, hids, hfits⟩ := hinv.phase.lists hpb
  refine ⟨?_, ?_, ?_, hslot, ?_, hinv.exists_read hpb, ?_⟩
  · intro i r hr
    rw [hinv.results, List.getElem?_map] at hr
    obtain ⟨x, hx, rfl⟩ := Option.map_eq_some_iff.mp hr
    have hi : i < done.length := (List.getElem?_eq_some_iff.mp hx).1
    refine ⟨x.requestId, x.call, x.reply, rfl, x.matches_finish.1, ?_, ?_, x.answers⟩
    · rw [hcalls, List.getElem?_append_left (by rwa [List.length_map]), List.getElem?_map, hx]
      rfl
    · rw [hans, List.getElem?_append_left (by rwa [List.length_map]), List.getElem?_map, hx]
      rfl
  · rw [hcalls, List.forall_mem_append, List.forall_mem_map]
    exact ⟨fun x _ => x.id_ne, hids⟩
  · rw [hans, List.forall_mem_append, List.forall_mem_map]
    exact ⟨fun x _ => (hpb.pbEncode_bounds x.conforms_response).2, hfits⟩
  · rw [hcalls, hinv.results, List.length_append, List.length_map, List.length_map]
    omega
  · have hzero : (Connection.connect s).remaining = 0 ∧ (Connection.connect s).calls.length = 0 :=
      ⟨rfl, rfl⟩
    rw [hzero.1, hzero.2] at hle
    omega

/-- A `ping` that returns its nonce, with the wire format in the place of both libraries. -/
theorem calls_answered_ping :
    ∃ es ns st, (∀ e ∈ es, Event.Admissible e) ∧
      run (fun st e => Connection.step wireCodec .shipped st e)
        (.connect ⟨⟨fun _ => ∅, .clear, []⟩, fun _ => none⟩) es = some (ns, st) ∧
      st.calls = [(1, .ping 7)] ∧ st.results = [.ok (.ping 7)] := by
  let start := Connection.connect ⟨⟨fun _ => ∅, .clear, []⟩, fun _ => none⟩
  have hstart : start.Inv wireCodec ([] : List (Exchange .shipped)) := Connection.inv_connect _
  have hcall : start.step wireCodec .shipped (.call (.ping 7)) =
      some (0, start.startCall wireCodec (.ping 7)) := rfl
  obtain ⟨⟨done, hinv⟩, -⟩ := hstart.call wireCodec_lawful (c := .ping 7) trivial hcall
  obtain ⟨es, ns, st, hes, hrun, hcalls, hall⟩ := hinv.exists_run wireCodec_lawful
  have hadm : ∀ e ∈ Event.call (.ping 7) :: es, e.Admissible :=
    List.forall_mem_cons.mpr ⟨trivial, hes⟩
  have hwhole : run (fun st e => Connection.step wireCodec .shipped st e) start
      (.call (.ping 7) :: es) = some (0 :: ns, st) :=
    run_cons_eq_some.mpr ⟨0, ns, _, hcall, hrun, rfl⟩
  obtain ⟨hresults, -, -, -, hle, -⟩ :=
    calls_answered wireCodec_lawful .shipped _ _ hadm _ st hwhole
  rw [Connection.calls_startCall] at hcalls hall
  have hone : st.calls = [(1, .ping 7)] := hcalls
  refine ⟨_, _, st, hadm, hwhole, hone, ?_⟩
  obtain ⟨r, hr⟩ : ∃ r, st.results = [r] := by
    refine List.length_eq_one_iff.mp (Nat.le_antisymm ?_ hall)
    rwa [hone] at hle
  obtain ⟨id, call, reply, rfl, -, hmade, -, f, a, a', hans⟩ := hresults 0 r (by rw [hr]; rfl)
  rw [hone] at hmade
  obtain ⟨-, rfl⟩ := Prod.mk.inj (Option.some.inj hmade)
  obtain ⟨hbody, -⟩ := Prod.mk.inj (Option.some.inj hans)
  rw [hr, ← Reply.body_injective (r := .ping 7) hbody]

end AgentxSubagent
