import AgentxSubagent.Nanopb.Kinds

/-!
# The messages of the IPC protocol in C

`src/generated_pb/agentx_ipc.pb.h` and `agentx_ipc.pb.c`: the structs the server keeps its messages
in, and their descriptors. A `has_` flag and the field it belongs to are an option, and
`which_body` with the union behind it is a sum.

For every message there are two facts, `…_writes` and `…_merges`: what it is encoded as, a list of
wire-format fields, and that this is decoded by merging it into what the struct has already.
Together they make the main results, which hold of every envelope the struct can hold, with
any numbers in its enumerations and with or without a body:

* `AgentxSubagent.AgentxIpcV1.envelopeMsg_writes` and `Envelope.length_records`: `pb_encode` writes
  the records of an envelope, which are never more than 1024 bytes;
* `AgentxSubagent.AgentxIpcV1.envelopeMsg_merges`: behind the bytes of another envelope they are
  decoded to the two merged, kind by kind in the `oneof`;
* `AgentxSubagent.AgentxIpcV1.pbDecode_records`: `pb_decode` gives the envelope back.
-/

namespace AgentxSubagent.AgentxIpcV1

open Nanopb Wire

/-! ### The structs -/

/-- `agentx_ipc_v1_Value`. -/
@[ext] structure Value where
  type : UInt32
  int32Val : Int32
  uint32Val : UInt32
  uint64Val : UInt64
  bytesVal : PbBytes 256
  deriving DecidableEq

/-- `agentx_ipc_v1_WriteConfigRequest`. -/
@[ext] structure WriteConfigRequest where
  key : CString 64
  value : Option Value
  deriving DecidableEq

/-- `agentx_ipc_v1_WriteConfigResponse` and `agentx_ipc_v1_SendTrapResponse`. -/
@[ext] structure StatusResponse where
  status : UInt32
  message : CString 128
  deriving DecidableEq

/-- `agentx_ipc_v1_ReadConfigRequest` and `agentx_ipc_v1_SendTrapRequest`: the key, the name of the
trap. -/
@[ext] structure NameRequest where
  name : CString 64
  deriving DecidableEq

/-- `agentx_ipc_v1_ReadConfigResponse`. -/
@[ext] structure ReadConfigResponse where
  status : UInt32
  value : Option Value
  message : CString 128
  deriving DecidableEq

/-- `agentx_ipc_v1_PingRequest` and `agentx_ipc_v1_PingResponse`. -/
@[ext] structure Ping where
  nonce : UInt32
  deriving DecidableEq

/-- `which_body` and the union `body`. -/
inductive Body
  | unset
  | writeConfigRequest (req : WriteConfigRequest)
  | writeConfigResponse (resp : StatusResponse)
  | readConfigRequest (req : NameRequest)
  | readConfigResponse (resp : ReadConfigResponse)
  | sendTrapRequest (req : NameRequest)
  | sendTrapResponse (resp : StatusResponse)
  | pingRequest (req : Ping)
  | pingResponse (resp : Ping)
  deriving DecidableEq

/-- `agentx_ipc_v1_Envelope`. -/
@[ext] structure Envelope where
  requestId : UInt32
  body : Body
  deriving DecidableEq

/-! ### Where the fields are -/

def Value.typeSlot : Slot Value UInt32 := ⟨type, fun v m => { m with type := v }, fun _ => rfl⟩
def Value.int32Slot : Slot Value Int32 :=
  ⟨int32Val, fun v m => { m with int32Val := v }, fun _ => rfl⟩
def Value.uint32Slot : Slot Value UInt32 :=
  ⟨uint32Val, fun v m => { m with uint32Val := v }, fun _ => rfl⟩
def Value.uint64Slot : Slot Value UInt64 :=
  ⟨uint64Val, fun v m => { m with uint64Val := v }, fun _ => rfl⟩
def Value.bytesSlot : Slot Value (PbBytes 256) :=
  ⟨bytesVal, fun v m => { m with bytesVal := v }, fun _ => rfl⟩

def WriteConfigRequest.keySlot : Slot WriteConfigRequest (CString 64) :=
  ⟨key, fun v m => { m with key := v }, fun _ => rfl⟩
def WriteConfigRequest.valueSlot : Slot WriteConfigRequest (Option Value) :=
  ⟨value, fun v m => { m with value := v }, fun _ => rfl⟩

def StatusResponse.statusSlot : Slot StatusResponse UInt32 :=
  ⟨status, fun v m => { m with status := v }, fun _ => rfl⟩
def StatusResponse.messageSlot : Slot StatusResponse (CString 128) :=
  ⟨message, fun v m => { m with message := v }, fun _ => rfl⟩

def NameRequest.nameSlot : Slot NameRequest (CString 64) :=
  ⟨name, fun v m => { m with name := v }, fun _ => rfl⟩

def ReadConfigResponse.statusSlot : Slot ReadConfigResponse UInt32 :=
  ⟨status, fun v m => { m with status := v }, fun _ => rfl⟩
def ReadConfigResponse.valueSlot : Slot ReadConfigResponse (Option Value) :=
  ⟨value, fun v m => { m with value := v }, fun _ => rfl⟩
def ReadConfigResponse.messageSlot : Slot ReadConfigResponse (CString 128) :=
  ⟨message, fun v m => { m with message := v }, fun _ => rfl⟩

def Ping.nonceSlot : Slot Ping UInt32 := ⟨nonce, fun v m => { m with nonce := v }, fun _ => rfl⟩

def Envelope.requestIdSlot : Slot Envelope UInt32 :=
  ⟨requestId, fun v m => { m with requestId := v }, fun _ => rfl⟩

def Body.writeConfigRequest? : Body → Option WriteConfigRequest
  | .writeConfigRequest req => some req
  | _ => none

def Body.writeConfigResponse? : Body → Option StatusResponse
  | .writeConfigResponse resp => some resp
  | _ => none

def Body.readConfigRequest? : Body → Option NameRequest
  | .readConfigRequest req => some req
  | _ => none

def Body.readConfigResponse? : Body → Option ReadConfigResponse
  | .readConfigResponse resp => some resp
  | _ => none

def Body.sendTrapRequest? : Body → Option NameRequest
  | .sendTrapRequest req => some req
  | _ => none

def Body.sendTrapResponse? : Body → Option StatusResponse
  | .sendTrapResponse resp => some resp
  | _ => none

def Body.pingRequest? : Body → Option Ping
  | .pingRequest req => some req
  | _ => none

def Body.pingResponse? : Body → Option Ping
  | .pingResponse resp => some resp
  | _ => none

/-! ### The descriptors -/

/-- `agentx_ipc_v1_Value_msg`. -/
def valueMsg : PbMsgdesc Value where
  fields := [varintField uint32Kind 1 Value.typeSlot, varintField int32Kind 2 Value.int32Slot,
    varintField uint32Kind 3 Value.uint32Slot, varintField uint64Kind 4 Value.uint64Slot,
    bytesField 256 5 Value.bytesSlot]
  initZero := ⟨0, 0, 0, 0, .empty 256⟩
  sorted := by decide
  tag_bounds := by decide
  nonempty := List.cons_ne_nil _ _

/-- `agentx_ipc_v1_WriteConfigRequest_msg`. -/
def writeConfigRequestMsg : PbMsgdesc WriteConfigRequest where
  fields := [stringField 64 1 WriteConfigRequest.keySlot,
    optionalField valueMsg 2 WriteConfigRequest.valueSlot]
  initZero := ⟨.empty 64 (by decide), none⟩
  sorted := by decide
  tag_bounds := by decide
  nonempty := List.cons_ne_nil _ _

/-- `agentx_ipc_v1_WriteConfigResponse_msg` and `agentx_ipc_v1_SendTrapResponse_msg`. -/
def statusResponseMsg : PbMsgdesc StatusResponse where
  fields := [varintField uint32Kind 1 StatusResponse.statusSlot,
    stringField 128 2 StatusResponse.messageSlot]
  initZero := ⟨0, .empty 128 (by decide)⟩
  sorted := by decide
  tag_bounds := by decide
  nonempty := List.cons_ne_nil _ _

/-- `agentx_ipc_v1_ReadConfigRequest_msg` and `agentx_ipc_v1_SendTrapRequest_msg`. -/
def nameRequestMsg : PbMsgdesc NameRequest where
  fields := [stringField 64 1 NameRequest.nameSlot]
  initZero := ⟨.empty 64 (by decide)⟩
  sorted := by decide
  tag_bounds := by decide
  nonempty := List.cons_ne_nil _ _

/-- `agentx_ipc_v1_ReadConfigResponse_msg`. -/
def readConfigResponseMsg : PbMsgdesc ReadConfigResponse where
  fields := [varintField uint32Kind 1 ReadConfigResponse.statusSlot,
    optionalField valueMsg 2 ReadConfigResponse.valueSlot,
    stringField 128 3 ReadConfigResponse.messageSlot]
  initZero := ⟨0, none, .empty 128 (by decide)⟩
  sorted := by decide
  tag_bounds := by decide
  nonempty := List.cons_ne_nil _ _

/-- `agentx_ipc_v1_PingRequest_msg` and `agentx_ipc_v1_PingResponse_msg`. -/
def pingMsg : PbMsgdesc Ping where
  fields := [varintField uint32Kind 1 Ping.nonceSlot]
  initZero := ⟨0⟩
  sorted := by decide
  tag_bounds := by decide
  nonempty := List.cons_ne_nil _ _

/-- A message of `oneof body`. -/
def bodyField {τ : Type} (desc : PbMsgdesc τ) (tag : ℕ) (get : Body → Option τ) (put : τ → Body) :
    PbField Envelope :=
  oneofField desc tag (fun m => get m.body) fun v m => { m with body := put v }

/-- `agentx_ipc_v1_Envelope_msg`. -/
def envelopeMsg : PbMsgdesc Envelope where
  fields := [varintField uint32Kind 1 Envelope.requestIdSlot,
    bodyField writeConfigRequestMsg 10 Body.writeConfigRequest? .writeConfigRequest,
    bodyField statusResponseMsg 11 Body.writeConfigResponse? .writeConfigResponse,
    bodyField nameRequestMsg 12 Body.readConfigRequest? .readConfigRequest,
    bodyField readConfigResponseMsg 13 Body.readConfigResponse? .readConfigResponse,
    bodyField nameRequestMsg 14 Body.sendTrapRequest? .sendTrapRequest,
    bodyField statusResponseMsg 15 Body.sendTrapResponse? .sendTrapResponse,
    bodyField pingMsg 16 Body.pingRequest? .pingRequest,
    bodyField pingMsg 17 Body.pingResponse? .pingResponse]
  initZero := ⟨0, .unset⟩
  sorted := by decide
  tag_bounds := by decide
  nonempty := List.cons_ne_nil _ _

/-! ### The records -/

/-- The fields of a value on the wire. -/
def Value.records (v : Value) : List Field :=
  uintField 1 (uint32Kind.extend v.type).toNat ++
    (uintField 2 (int32Kind.extend v.int32Val).toNat ++
      (uintField 3 (uint32Kind.extend v.uint32Val).toNat ++
        (uintField 4 (uint64Kind.extend v.uint64Val).toNat ++ Wire.bytesField 5 v.bytesVal.bytes)))

def WriteConfigRequest.records (req : WriteConfigRequest) : List Field :=
  Wire.bytesField 1 req.key.text ++ submessageRecords Value.records 2 req.value

def StatusResponse.records (resp : StatusResponse) : List Field :=
  uintField 1 (uint32Kind.extend resp.status).toNat ++ Wire.bytesField 2 resp.message.text

def NameRequest.records (req : NameRequest) : List Field := Wire.bytesField 1 req.name.text

def ReadConfigResponse.records (resp : ReadConfigResponse) : List Field :=
  uintField 1 (uint32Kind.extend resp.status).toNat ++
    (submessageRecords Value.records 2 resp.value ++ Wire.bytesField 3 resp.message.text)

def Ping.records (ping : Ping) : List Field := uintField 1 (uint32Kind.extend ping.nonce).toNat

/-- The field of the body that is set. -/
def Body.records : Body → List Field
  | .unset => []
  | .writeConfigRequest req => messageField 10 req.records
  | .writeConfigResponse resp => messageField 11 resp.records
  | .readConfigRequest req => messageField 12 req.records
  | .readConfigResponse resp => messageField 13 resp.records
  | .sendTrapRequest req => messageField 14 req.records
  | .sendTrapResponse resp => messageField 15 resp.records
  | .pingRequest req => messageField 16 req.records
  | .pingResponse resp => messageField 17 resp.records

def Envelope.records (e : Envelope) : List Field :=
  uintField 1 (uint32Kind.extend e.requestId).toNat ++ e.body.records

/-! ### How long they get -/

section Length

theorem length_uint32_le {k : ℕ} (hk : k < 1024) (v : UInt32) :
    (wire (uintField k (uint32Kind.extend v).toNat)).length ≤ 7 := by
  have hlt : (uint32Kind.extend v).toNat < 128 ^ 5 := by
    have hv := v.toNat_lt
    change v.toUInt64.toNat < _
    rw [UInt32.toNat_toUInt64]
    omega
  exact length_uintField_le hk (by omega) hlt

theorem length_uint64_le {k : ℕ} (hk : k < 1024) (v : UInt64) :
    (wire (uintField k v.toNat)).length ≤ 12 := by
  have hlt : v.toNat < 128 ^ 10 := lt_trans v.toNat_lt (by norm_num)
  exact length_uintField_le hk (by omega) hlt

theorem length_string_le {k n : ℕ} (hk : k < 1024) (hn : n ≤ 16384) (s : CString n) :
    (wire (Wire.bytesField k s.text)).length ≤ 3 + n := by
  have hlt := s.length_lt
  have hle := length_bytesField_le hk s.text (by omega)
  omega

theorem Value.length_records (v : Value) : (wire v.records).length ≤ 298 := by
  have htype := length_uint32_le (k := 1) (by omega) v.type
  have hint := length_uint64_le (k := 2) (by omega) (int32Kind.extend v.int32Val)
  have huint := length_uint32_le (k := 3) (by omega) v.uint32Val
  have hbig := length_uint64_le (k := 4) (by omega) (uint64Kind.extend v.uint64Val)
  have hle := v.bytesVal.length_le
  have hbytes := length_bytesField_le (k := 5) (by omega) v.bytesVal.bytes (by omega)
  simp only [records, wire_append, List.length_append]
  omega

theorem length_optionalValue (k : ℕ) (hk : k < 1024) (value : Option Value) :
    (wire (submessageRecords Value.records k value)).length ≤ 302 := by
  cases value with
  | none => exact Nat.zero_le _
  | some v =>
    have hv := v.length_records
    have hle := length_wire_bytes_le hk (wire v.records) (by omega)
    rw [submessageRecords, messageField]
    omega

theorem WriteConfigRequest.length_records (req : WriteConfigRequest) :
    (wire req.records).length ≤ 400 := by
  have hkey := length_string_le (k := 1) (by omega) (by omega) req.key
  have hvalue := length_optionalValue 2 (by omega) req.value
  simp only [records, wire_append, List.length_append]
  omega

theorem StatusResponse.length_records (resp : StatusResponse) : (wire resp.records).length ≤ 138 := by
  have hstatus := length_uint32_le (k := 1) (by omega) resp.status
  have hmessage := length_string_le (k := 2) (by omega) (by omega) resp.message
  simp only [records, wire_append, List.length_append]
  omega

theorem NameRequest.length_records (req : NameRequest) : (wire req.records).length ≤ 67 :=
  length_string_le (by omega) (by omega) req.name

theorem ReadConfigResponse.length_records (resp : ReadConfigResponse) :
    (wire resp.records).length ≤ 440 := by
  have hstatus := length_uint32_le (k := 1) (by omega) resp.status
  have hvalue := length_optionalValue 2 (by omega) resp.value
  have hmessage := length_string_le (k := 3) (by omega) (by omega) resp.message
  simp only [records, wire_append, List.length_append]
  omega

theorem Ping.length_records (ping : Ping) : (wire ping.records).length ≤ 7 :=
  length_uint32_le (by omega) ping.nonce

theorem length_message {k : ℕ} (hk : k < 1024) {fs : List Field} (h : (wire fs).length ≤ 440) :
    (wire (messageField k fs)).length ≤ 444 := by
  have hle := length_wire_bytes_le hk (wire fs) (by omega)
  rw [messageField]
  omega

theorem Body.length_records (body : Body) : (wire body.records).length ≤ 444 := by
  cases body with
  | unset => exact Nat.zero_le _
  | writeConfigRequest req => exact length_message (by omega) (le_trans req.length_records (by omega))
  | writeConfigResponse resp | sendTrapResponse resp =>
    exact length_message (by omega) (le_trans resp.length_records (by omega))
  | readConfigRequest req | sendTrapRequest req =>
    exact length_message (by omega) (le_trans req.length_records (by omega))
  | readConfigResponse resp => exact length_message (by omega) resp.length_records
  | pingRequest ping | pingResponse ping =>
    exact length_message (by omega) (le_trans ping.length_records (by omega))

/-- **Every envelope fits the buffer it is sent from.** -/
theorem Envelope.length_records (e : Envelope) : (wire e.records).length ≤ 1024 := by
  have hid := length_uint32_le (k := 1) (by omega) e.requestId
  have hbody := e.body.length_records
  simp only [records, wire_append, List.length_append]
  omega

end Length

/-! ### What is written -/

section Writes

open PbMsgdesc

theorem valueMsg_writes : valueMsg.Writes Value.records := fun m =>
  encodeFields_cons (encode_varintField (by omega) m uint32Kind Value.typeSlot) <|
  encodeFields_cons (encode_varintField (by omega) m int32Kind Value.int32Slot) <|
  encodeFields_cons (encode_varintField (by omega) m uint32Kind Value.uint32Slot) <|
  encodeFields_cons (encode_varintField (by omega) m uint64Kind Value.uint64Slot) <|
  encodeFields_one (encode_bytesField (by omega) m (by omega) Value.bytesSlot)

/-- A value in another message. -/
theorem encode_valueField {σ : Type} (m : σ) (slot : Slot σ (Option Value)) :
    (optionalField valueMsg 2 slot).encode m =
      pbWrite (wire (submessageRecords Value.records 2 (slot.get m))) :=
  encode_submessageField (by omega) m valueMsg_writes
    (fun v => lt_of_le_of_lt v.length_records (by omega)) slot.get _

theorem writeConfigRequestMsg_writes : writeConfigRequestMsg.Writes WriteConfigRequest.records :=
  fun m =>
    encodeFields_cons
      (encode_stringField (by omega) m (by omega) WriteConfigRequest.keySlot) <|
    encodeFields_one (encode_valueField m WriteConfigRequest.valueSlot)

theorem statusResponseMsg_writes : statusResponseMsg.Writes StatusResponse.records := fun m =>
  encodeFields_cons (encode_varintField (by omega) m uint32Kind StatusResponse.statusSlot) <|
  encodeFields_one (encode_stringField (by omega) m (by omega) StatusResponse.messageSlot)

theorem nameRequestMsg_writes : nameRequestMsg.Writes NameRequest.records := fun m =>
  encodeFields_one (encode_stringField (by omega) m (by omega) NameRequest.nameSlot)

theorem readConfigResponseMsg_writes : readConfigResponseMsg.Writes ReadConfigResponse.records :=
  fun m =>
    encodeFields_cons
      (encode_varintField (by omega) m uint32Kind ReadConfigResponse.statusSlot) <|
    encodeFields_cons (encode_valueField m ReadConfigResponse.valueSlot) <|
    encodeFields_one
      (encode_stringField (by omega) m (by omega) ReadConfigResponse.messageSlot)

theorem pingMsg_writes : pingMsg.Writes Ping.records := fun m =>
  encodeFields_one (encode_varintField (by omega) m uint32Kind Ping.nonceSlot)

/-- What a message of the `oneof` writes: itself, if it is the one. -/
theorem encode_bodyField {τ : Type} {desc : PbMsgdesc τ} {records : τ → List Field} {tag n : ℕ}
    (htag : tag < 2 ^ 16) (hdesc : desc.Writes records)
    (hlen : ∀ v, (wire (records v)).length ≤ n) (hn : n < 2 ^ 64) (get : Body → Option τ)
    (put : τ → Body) (m : Envelope) :
    (bodyField desc tag get put).encode m =
      pbWrite (wire (submessageRecords records tag (get m.body))) :=
  encode_submessageField htag m hdesc (fun v => lt_of_le_of_lt (hlen v) hn) _ _

/-- Of the eight messages of the `oneof` at most one is written. -/
theorem Body.records_eq (body : Body) :
    submessageRecords WriteConfigRequest.records 10 body.writeConfigRequest? ++
      (submessageRecords StatusResponse.records 11 body.writeConfigResponse? ++
      (submessageRecords NameRequest.records 12 body.readConfigRequest? ++
      (submessageRecords ReadConfigResponse.records 13 body.readConfigResponse? ++
      (submessageRecords NameRequest.records 14 body.sendTrapRequest? ++
      (submessageRecords StatusResponse.records 15 body.sendTrapResponse? ++
      (submessageRecords Ping.records 16 body.pingRequest? ++
        submessageRecords Ping.records 17 body.pingResponse?)))))) = body.records := by
  cases body <;> rfl

/-- **What `pb_encode` writes for an envelope.** -/
theorem envelopeMsg_writes : envelopeMsg.Writes Envelope.records := by
  intro m
  rw [Envelope.records, ← m.body.records_eq]
  exact
    encodeFields_cons (encode_varintField (by omega) m uint32Kind Envelope.requestIdSlot) <|
    encodeFields_cons (encode_bodyField (by omega) writeConfigRequestMsg_writes
      WriteConfigRequest.length_records (by omega) _ _ m) <|
    encodeFields_cons (encode_bodyField (by omega) statusResponseMsg_writes
      StatusResponse.length_records (by omega) _ _ m) <|
    encodeFields_cons (encode_bodyField (by omega) nameRequestMsg_writes
      NameRequest.length_records (by omega) _ _ m) <|
    encodeFields_cons (encode_bodyField (by omega) readConfigResponseMsg_writes
      ReadConfigResponse.length_records (by omega) _ _ m) <|
    encodeFields_cons (encode_bodyField (by omega) nameRequestMsg_writes
      NameRequest.length_records (by omega) _ _ m) <|
    encodeFields_cons (encode_bodyField (by omega) statusResponseMsg_writes
      StatusResponse.length_records (by omega) _ _ m) <|
    encodeFields_cons (encode_bodyField (by omega) pingMsg_writes Ping.length_records
      (by omega) _ _ m) <|
    encodeFields_one (encode_bodyField (by omega) pingMsg_writes Ping.length_records
      (by omega) _ _ m)

end Writes

/-! ### What is read back -/

section Merges

open PbMsgdesc

/-- A value on top of another: what it leaves out stays. -/
def Value.merge (m v : Value) : Value where
  type := if v.type = 0 then m.type else v.type
  int32Val := if v.int32Val = 0 then m.int32Val else v.int32Val
  uint32Val := if v.uint32Val = 0 then m.uint32Val else v.uint32Val
  uint64Val := if v.uint64Val = 0 then m.uint64Val else v.uint64Val
  bytesVal := if v.bytesVal.bytes = [] then m.bytesVal else v.bytesVal

def WriteConfigRequest.merge (m req : WriteConfigRequest) : WriteConfigRequest where
  key := if req.key.text = [] then m.key else req.key
  value := mergeOption Value.merge valueMsg.initZero m.value req.value

def StatusResponse.merge (m resp : StatusResponse) : StatusResponse where
  status := if resp.status = 0 then m.status else resp.status
  message := if resp.message.text = [] then m.message else resp.message

def NameRequest.merge (m req : NameRequest) : NameRequest where
  name := if req.name.text = [] then m.name else req.name

def ReadConfigResponse.merge (m resp : ReadConfigResponse) : ReadConfigResponse where
  status := if resp.status = 0 then m.status else resp.status
  value := mergeOption Value.merge valueMsg.initZero m.value resp.value
  message := if resp.message.text = [] then m.message else resp.message

def Ping.merge (m ping : Ping) : Ping where
  nonce := if ping.nonce = 0 then m.nonce else ping.nonce

/-- A body on top of another. A message of the kind that is there is merged into it, a message of
another kind takes its place. -/
def Body.merge (m : Body) : Body → Body
  | .unset => m
  | .writeConfigRequest req =>
    .writeConfigRequest ((m.writeConfigRequest?.getD writeConfigRequestMsg.initZero).merge req)
  | .writeConfigResponse resp =>
    .writeConfigResponse ((m.writeConfigResponse?.getD statusResponseMsg.initZero).merge resp)
  | .readConfigRequest req =>
    .readConfigRequest ((m.readConfigRequest?.getD nameRequestMsg.initZero).merge req)
  | .readConfigResponse resp =>
    .readConfigResponse ((m.readConfigResponse?.getD readConfigResponseMsg.initZero).merge resp)
  | .sendTrapRequest req =>
    .sendTrapRequest ((m.sendTrapRequest?.getD nameRequestMsg.initZero).merge req)
  | .sendTrapResponse resp =>
    .sendTrapResponse ((m.sendTrapResponse?.getD statusResponseMsg.initZero).merge resp)
  | .pingRequest req => .pingRequest ((m.pingRequest?.getD pingMsg.initZero).merge req)
  | .pingResponse resp => .pingResponse ((m.pingResponse?.getD pingMsg.initZero).merge resp)

def Envelope.merge (m e : Envelope) : Envelope where
  requestId := if e.requestId = 0 then m.requestId else e.requestId
  body := m.body.merge e.body

theorem valueMsg_merges : valueMsg.Merges Value.records Value.merge := by
  intro m v t
  simp only [Value.records, wire_append, List.append_assoc]
  rw [decodeInner_varint uint32Kind Value.typeSlot rfl,
    decodeInner_varint int32Kind Value.int32Slot rfl,
    decodeInner_varint uint32Kind Value.uint32Slot rfl,
    decodeInner_varint uint64Kind Value.uint64Slot rfl,
    decodeInner_bytes (by omega) Value.bytesSlot rfl]
  rfl

/-- A value in another message. -/
theorem decodeInner_value {σ : Type} {desc : PbMsgdesc σ} {m : σ} (slot : Slot σ (Option Value))
    (hfind : desc.fields.find? (·.tag = 2) = some (optionalField valueMsg 2 slot))
    (value : Option Value) (t : List UInt8) :
    desc.decodeInner (wire (submessageRecords Value.records 2 value) ++ t) m =
      desc.decodeInner t
        (slot.set (mergeOption Value.merge valueMsg.initZero (slot.get m) value) m) :=
  decodeInner_optional valueMsg_merges slot hfind value
    (fun v _ => lt_of_le_of_lt v.length_records (by omega)) t

theorem writeConfigRequestMsg_merges :
    writeConfigRequestMsg.Merges WriteConfigRequest.records WriteConfigRequest.merge := by
  intro m req t
  simp only [WriteConfigRequest.records, wire_append, List.append_assoc]
  rw [decodeInner_cString (by omega) WriteConfigRequest.keySlot rfl,
    decodeInner_value WriteConfigRequest.valueSlot rfl]
  rfl

theorem statusResponseMsg_merges :
    statusResponseMsg.Merges StatusResponse.records StatusResponse.merge := by
  intro m resp t
  simp only [StatusResponse.records, wire_append, List.append_assoc]
  rw [decodeInner_varint uint32Kind StatusResponse.statusSlot rfl,
    decodeInner_cString (by omega) StatusResponse.messageSlot rfl]
  rfl

theorem nameRequestMsg_merges : nameRequestMsg.Merges NameRequest.records NameRequest.merge := by
  intro m req t
  exact decodeInner_cString (by omega) NameRequest.nameSlot rfl req.name t

theorem readConfigResponseMsg_merges :
    readConfigResponseMsg.Merges ReadConfigResponse.records ReadConfigResponse.merge := by
  intro m resp t
  simp only [ReadConfigResponse.records, wire_append, List.append_assoc]
  rw [decodeInner_varint uint32Kind ReadConfigResponse.statusSlot rfl,
    decodeInner_value ReadConfigResponse.valueSlot rfl,
    decodeInner_cString (by omega) ReadConfigResponse.messageSlot rfl]
  rfl

theorem pingMsg_merges : pingMsg.Merges Ping.records Ping.merge := by
  intro m ping t
  exact decodeInner_varint uint32Kind Ping.nonceSlot rfl ping.nonce t

/-- A message of the `oneof` is decoded on top of the body, if that is of its kind. -/
theorem decodeInner_bodyField {τ : Type} {desc : PbMsgdesc τ} {records : τ → List Field}
    {merge : τ → τ → τ} {tag n : ℕ} (hdesc : desc.Merges records merge) {get : Body → Option τ}
    {put : τ → Body}
    (hfind : envelopeMsg.fields.find? (·.tag = tag) = some (bodyField desc tag get put))
    (m : Envelope) {v : τ} (hlen : (wire (records v)).length ≤ n) (hn : n < 2 ^ 32)
    (t : List UInt8) :
    envelopeMsg.decodeInner (wire (messageField tag (records v)) ++ t) m =
      envelopeMsg.decodeInner t { m with body := put (merge ((get m.body).getD desc.initZero) v) } :=
  decodeInner_submessage hfind (lt_of_le_of_lt hlen hn) (hdesc.decodeInner_wire _ v) t

theorem Body.decode_records (m : Envelope) (body : Body) (t : List UInt8) :
    envelopeMsg.decodeInner (wire body.records ++ t) m =
      envelopeMsg.decodeInner t { m with body := m.body.merge body } := by
  cases body with
  | unset => rfl
  | writeConfigRequest req =>
    exact decodeInner_bodyField writeConfigRequestMsg_merges rfl m req.length_records (by omega) t
  | writeConfigResponse resp | sendTrapResponse resp =>
    exact decodeInner_bodyField statusResponseMsg_merges rfl m resp.length_records (by omega) t
  | readConfigRequest req | sendTrapRequest req =>
    exact decodeInner_bodyField nameRequestMsg_merges rfl m req.length_records (by omega) t
  | readConfigResponse resp =>
    exact decodeInner_bodyField readConfigResponseMsg_merges rfl m resp.length_records
      (by omega) t
  | pingRequest ping | pingResponse ping =>
    exact decodeInner_bodyField pingMsg_merges rfl m ping.length_records (by omega) t

/-- **An envelope is decoded by merging it into what is there.** -/
theorem envelopeMsg_merges : envelopeMsg.Merges Envelope.records Envelope.merge := by
  intro m e t
  simp only [Envelope.records, wire_append, List.append_assoc]
  rw [decodeInner_varint uint32Kind Envelope.requestIdSlot rfl, Body.decode_records]
  rfl

end Merges

/-! ### On top of nothing -/

section Zero

open PbMsgdesc

/-- What was left out because it is the default is read as the default. -/
theorem ite_default {α : Type} [DecidableEq α] (zero v : α) : (if v = zero then zero else v) = v := by
  split_ifs with h
  · exact h.symm
  · rfl

theorem bytes_default (v : PbBytes 256) : (if v.bytes = [] then .empty 256 else v) = v := by
  split_ifs with h
  · exact PbBytes.ext h.symm
  · rfl

theorem text_default {n : ℕ} (hn : 0 < n) (v : CString n) :
    (if v.text = [] then .empty n hn else v) = v := by
  split_ifs with h
  · exact CString.ext h.symm
  · rfl

/-- No bytes in front of the NUL are the default too. -/
theorem ofRead_default {n : ℕ} {bs : List UInt8} (h : bs.length < n) (hn : 0 < n) :
    (if bs = [] then .empty n hn else CString.ofRead bs h) = CString.ofRead bs h := by
  split_ifs with hnil
  · subst hnil
    rfl
  · rfl

@[simp] theorem Value.merge_initZero (v : Value) : valueMsg.initZero.merge v = v := by
  ext : 1
  · exact ite_default 0 v.type
  · exact ite_default 0 v.int32Val
  · exact ite_default 0 v.uint32Val
  · exact ite_default 0 v.uint64Val
  · exact bytes_default v.bytesVal

@[simp] theorem mergeOption_none (value : Option Value) :
    mergeOption Value.merge valueMsg.initZero none value = value := by
  cases value with
  | none => rfl
  | some v => exact congrArg some v.merge_initZero

@[simp] theorem WriteConfigRequest.merge_initZero (req : WriteConfigRequest) :
    writeConfigRequestMsg.initZero.merge req = req := by
  ext : 1
  · exact text_default (by omega) req.key
  · exact mergeOption_none req.value

@[simp] theorem StatusResponse.merge_initZero (resp : StatusResponse) :
    statusResponseMsg.initZero.merge resp = resp := by
  ext : 1
  · exact ite_default 0 resp.status
  · exact text_default (by omega) resp.message

@[simp] theorem NameRequest.merge_initZero (req : NameRequest) :
    nameRequestMsg.initZero.merge req = req := by
  ext : 1
  exact text_default (by omega) req.name

@[simp] theorem ReadConfigResponse.merge_initZero (resp : ReadConfigResponse) :
    readConfigResponseMsg.initZero.merge resp = resp := by
  ext : 1
  · exact ite_default 0 resp.status
  · exact mergeOption_none resp.value
  · exact text_default (by omega) resp.message

@[simp] theorem Ping.merge_initZero (ping : Ping) : pingMsg.initZero.merge ping = ping := by
  ext : 1
  exact ite_default 0 ping.nonce

theorem Body.merge_unset (body : Body) : Body.unset.merge body = body := by
  cases body with
  | unset => rfl
  | writeConfigRequest req => exact congrArg _ req.merge_initZero
  | writeConfigResponse resp | sendTrapResponse resp => exact congrArg _ resp.merge_initZero
  | readConfigRequest req | sendTrapRequest req => exact congrArg _ req.merge_initZero
  | readConfigResponse resp => exact congrArg _ resp.merge_initZero
  | pingRequest ping | pingResponse ping => exact congrArg _ ping.merge_initZero

theorem Envelope.merge_initZero (e : Envelope) : envelopeMsg.initZero.merge e = e := by
  ext : 1
  · exact ite_default 0 e.requestId
  · exact e.body.merge_unset

/-- **`pb_decode` gives back what `pb_encode` wrote.** -/
theorem pbDecode_records (e : Envelope) : envelopeMsg.pbDecode (wire e.records) = .ok e := by
  rw [PbMsgdesc.pbDecode, envelopeMsg_merges.decodeInner_wire, Envelope.merge_initZero]

end Zero

/-! ### Encoded and decoded -/

/-- **A message and the buffer it is encoded into.** What the sizing stream counts is never more
than 1024 bytes and decides about every buffer: one of that size or more holds the envelope,
and `pb_decode` gives it back; a smaller one is full. -/
theorem pbEncode_roundtrip (e : Envelope) :
    ∃ size ≤ 1024,
      envelopeMsg.pbEncode e .sizing = .ok { PbOstream.sizing with bytesWritten := size } ∧
      ∀ bufsize,
        if size ≤ bufsize then
          ∃ bs, envelopeMsg.pbEncode e (pbOstreamFromBuffer bufsize) = .ok ⟨true, bs, bufsize, size⟩ ∧
            bs.length = size ∧ envelopeMsg.pbDecode bs = .ok e
        else envelopeMsg.pbEncode e (pbOstreamFromBuffer bufsize) = .error .streamFull := by
  refine ⟨(wire e.records).length, e.length_records, ?_, fun bufsize => ?_⟩
  · rw [envelopeMsg_writes, pbWrite_sizing]
  · rw [envelopeMsg_writes]
    split_ifs with hfits
    · exact ⟨wire e.records, pbWrite_buffer hfits, rfl, pbDecode_records e⟩
    · exact pbWrite_full (Nat.lt_of_not_le hfits)

/-- What an envelope is sent as. -/
theorem pbEncode_records (e : Envelope) :
    envelopeMsg.pbEncode e (pbOstreamFromBuffer 1024) =
      .ok ⟨true, wire e.records, 1024, (wire e.records).length⟩ := by
  rw [envelopeMsg_writes, pbWrite_buffer e.length_records]

/-- Envelopes one behind the other, on top of what there is. -/
theorem decodeInner_flatMap (es : List Envelope) (m : Envelope) :
    envelopeMsg.decodeInner (es.flatMap fun e => wire e.records) m =
      .ok (es.foldl Envelope.merge m) := by
  induction es generalizing m with
  | nil => rfl
  | cons e es ih => rw [List.flatMap_cons, envelopeMsg_merges, ih, List.foldl_cons]

/-- **Envelopes one behind the other in one frame are decoded to one envelope**, the later ones
merged into the earlier ones: a number or a text that is not the default replaces the one
before, a body is merged into one of its kind and replaces one of another kind. -/
theorem pbDecode_flatMap (es : List Envelope) {bss : List (List UInt8)}
    (h : List.Forall₂ (fun e bs => ∃ bufsize stream, envelopeMsg.pbEncode e
      (pbOstreamFromBuffer bufsize) = .ok stream ∧ stream.state = bs) es bss) :
    envelopeMsg.pbDecode bss.flatten = .ok (es.foldl Envelope.merge envelopeMsg.initZero) := by
  have hbytes : bss.flatten = es.flatMap fun e => wire e.records := by
    induction h with
    | nil => rfl
    | @cons e bs es bss hbs _ ih =>
      obtain ⟨bufsize, stream, hwrite, rfl⟩ := hbs
      rw [envelopeMsg_writes] at hwrite
      rw [List.flatten_cons, List.flatMap_cons, ih, state_of_pbWrite hwrite]
  rw [PbMsgdesc.pbDecode, hbytes, decodeInner_flatMap]

/-- The key of a request and its value, one behind the other, are one request. -/
theorem pbDecode_flatMap_request :
    envelopeMsg.pbDecode
      [wire (Envelope.mk 1 (.writeConfigRequest ⟨⟨[97], by decide, by decide⟩, none⟩)).records,
        wire (Envelope.mk 0
          (.writeConfigRequest ⟨.empty 64 (by decide), some ⟨1, 5, 0, 0, .empty 256⟩⟩)).records].flatten =
      .ok ⟨1, .writeConfigRequest ⟨⟨[97], by decide, by decide⟩, some ⟨1, 5, 0, 0, .empty 256⟩⟩⟩ :=
  pbDecode_flatMap [⟨1, .writeConfigRequest ⟨⟨[97], by decide, by decide⟩, none⟩⟩,
      ⟨0, .writeConfigRequest ⟨.empty 64 (by decide), some ⟨1, 5, 0, 0, .empty 256⟩⟩⟩]
    (.cons ⟨1024, _, pbEncode_records _, rfl⟩ (.cons ⟨1024, _, pbEncode_records _, rfl⟩ .nil))

end AgentxSubagent.AgentxIpcV1
