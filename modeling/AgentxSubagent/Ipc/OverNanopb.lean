import AgentxSubagent.Ipc.LongRequests
import AgentxSubagent.Nanopb.Messages

/-!
# The server over nanopb

So far the decoder and the encoder of the server were parameters, with `PbCodec.Lawful` and
`PbCodec.Bounded` for what is asked of them. Here they are the functions of nanopb on the structs
of the generated header, and what was asked is proved:

* `AgentxSubagent.nanopbDecode_wire`: of the wire format of any envelope nanopb decodes what the
  structs hold of it, or fails when it overflows one of them;
* `AgentxSubagent.nanopbEncode_eq`: an envelope that fits the structs is encoded as its wire
  format;
* `AgentxSubagent.nanopb_lawful` and `AgentxSubagent.nanopb_bounded`: with any prost that keeps to
  the schema, the two agree.

The server reads the structs and the model an `AgentxSubagent.Envelope`;
`AgentxSubagent.Envelope.ofStruct` is what the one says about the other. A status off the wire can
be any number, and the server looks at none of those it is sent.
-/

namespace AgentxSubagent

open Nanopb Wire

/-! ### Structs and envelopes -/

/-- A C string of size `n` out of any bytes. -/
def cutString (n : ℕ) (hn : 0 < n) (bs : Bytes) : CString n where
  text := (cString bs).take (n - 1)
  length_lt := lt_of_le_of_lt (List.length_take_le _ _) (Nat.sub_lt hn Nat.one_pos)
  no_nul := fun hmem => absurd (List.mem_takeWhile_imp (List.mem_of_mem_take hmem)) (by simp)

/-- What a status field says. -/
def Status.ofStruct (n : UInt32) : Status := (Status.ofNumber n.toNat).getD .unspecified

def PbValue.ofStruct (v : AgentxIpcV1.Value) : PbValue :=
  ⟨v.type.toInt32.toInt, v.int32Val, v.uint32Val, v.uint64Val, v.bytesVal.bytes⟩

def PbValue.toStruct (v : PbValue) : AgentxIpcV1.Value :=
  ⟨(Int32.ofInt v.type).toUInt32, v.int32Val, v.uint32Val, v.uint64Val,
    ⟨v.bytesVal.take 256, List.length_take_le _ _⟩⟩

def Body.ofStruct : AgentxIpcV1.Body → Body
  | .unset => .empty
  | .writeConfigRequest req => .writeConfigRequest ⟨req.key.text, req.value.map PbValue.ofStruct⟩
  | .writeConfigResponse resp => .writeConfigResponse ⟨.ofStruct resp.status, resp.message.text⟩
  | .readConfigRequest req => .readConfigRequest req.name.text
  | .readConfigResponse resp =>
    .readConfigResponse
      ⟨.ofStruct resp.status, resp.value.map PbValue.ofStruct, resp.message.text⟩
  | .sendTrapRequest req => .sendTrapRequest req.name.text
  | .sendTrapResponse resp => .sendTrapResponse ⟨.ofStruct resp.status, resp.message.text⟩
  | .pingRequest req => .pingRequest req.nonce
  | .pingResponse resp => .pingResponse resp.nonce

def Envelope.ofStruct (e : AgentxIpcV1.Envelope) : Envelope := ⟨e.requestId, .ofStruct e.body⟩

/-- The struct of a status and a message. -/
def statusStruct (status : Status) (message : Bytes) : AgentxIpcV1.StatusResponse :=
  ⟨UInt32.ofNat status.number, cutString 128 (Nat.succ_pos _) message⟩

/-- The struct of a key or of the name of a trap. -/
def nameStruct (name : Bytes) : AgentxIpcV1.NameRequest := ⟨cutString 64 (Nat.succ_pos _) name⟩

def Body.toStruct : Body → AgentxIpcV1.Body
  | .empty => .unset
  | .writeConfigRequest req =>
    .writeConfigRequest ⟨cutString 64 (Nat.succ_pos _) req.key, req.value.map PbValue.toStruct⟩
  | .writeConfigResponse resp => .writeConfigResponse (statusStruct resp.status resp.message)
  | .readConfigRequest key => .readConfigRequest (nameStruct key)
  | .readConfigResponse resp =>
    .readConfigResponse ⟨UInt32.ofNat resp.status.number, resp.value.map PbValue.toStruct,
      cutString 128 (Nat.succ_pos _) resp.message⟩
  | .sendTrapRequest trapName => .sendTrapRequest (nameStruct trapName)
  | .sendTrapResponse resp => .sendTrapResponse (statusStruct resp.status resp.message)
  | .pingRequest nonce => .pingRequest ⟨nonce⟩
  | .pingResponse nonce => .pingResponse ⟨nonce⟩

def Envelope.toStruct (e : Envelope) : AgentxIpcV1.Envelope := ⟨e.requestId, e.body.toStruct⟩

/-! ### The server's decoder and encoder -/

/-- `pb_decode` of a frame, as `handle_frame` calls it. -/
def nanopbDecode (payload : Bytes) : Option Envelope :=
  match AgentxIpcV1.envelopeMsg.pbDecode payload with
  | .error _ => none
  | .ok e => some (.ofStruct e)

/-- What is read is a struct. -/
theorem nanopbDecode_eq_some {payload : Bytes} {e : Envelope} :
    nanopbDecode payload = some e ↔
      ∃ s, AgentxIpcV1.envelopeMsg.pbDecode payload = .ok s ∧ e = .ofStruct s := by
  rw [nanopbDecode]
  rcases AgentxIpcV1.envelopeMsg.pbDecode payload with err | s
  · simp
  · simp [eq_comm]

/-- `pb_encode` into the buffer of `send_envelope`: the bytes written to it. -/
def nanopbEncode (e : Envelope) : Option Bytes :=
  match AgentxIpcV1.envelopeMsg.pbEncode e.toStruct (pbOstreamFromBuffer ipcSendBufSize) with
  | .error _ => none
  | .ok stream => some stream.state

/-- prost on the side of the client, nanopb on the side of the server. -/
def nanopbCodec (encodeToVec : Envelope → Bytes) (decode : Bytes → Option Envelope) : PbCodec where
  encodeToVec := encodeToVec
  decode := decode
  pbEncode := fun e => (nanopbEncode e).getD []
  pbDecode := nanopbDecode

/-! ### What fits the structs -/

/-- A text that a `char` array of size `n` holds as it is. -/
def CText (n : ℕ) (bs : Bytes) : Prop := bs.length < n ∧ 0 ∉ bs

/-- A value that the struct holds as it is. -/
structure PbValue.Fits (v : PbValue) : Prop where
  type_nonneg : 0 ≤ v.type
  type_lt : v.type < 2 ^ 31
  length_le : v.bytesVal.length ≤ 256

/-- A body that the structs hold as it is. -/
def Body.Fits : Body → Prop
  | .empty => True
  | .writeConfigRequest req => CText 64 req.key ∧ ∀ v ∈ req.value, v.Fits
  | .writeConfigResponse resp => CText 128 resp.message
  | .readConfigRequest key => CText 64 key
  | .readConfigResponse resp => CText 128 resp.message ∧ ∀ v ∈ resp.value, v.Fits
  | .sendTrapRequest trapName => CText 64 trapName
  | .sendTrapResponse resp => CText 128 resp.message
  | .pingRequest _ => True
  | .pingResponse _ => True

section Fits

variable {n : ℕ} {bs : Bytes} {v : PbValue}

theorem CText.cut_text (h : CText n bs) (hn : 0 < n) : (cutString n hn bs).text = bs := by
  change (cString bs).take (n - 1) = bs
  rw [cString_of_notMem h.2, List.take_of_length_le (Nat.le_sub_one_of_lt h.1)]

theorem Text.cText (h : Text n bs) : CText n bs := ⟨h.length_lt, h.no_nul⟩

theorem PbValue.Typed.fits (h : v.Typed) (hlen : v.bytesVal.length ≤ 256) : v.Fits := by
  obtain ⟨ty, hty⟩ := h
  have hbounds : 0 ≤ ty.number ∧ ty.number < 2 ^ 31 := by cases ty <;> decide
  exact ⟨hty ▸ hbounds.1, hty ▸ hbounds.2, hlen⟩

theorem Body.Conforms.fits {body : Body} (h : body.Conforms) : body.Fits := by
  have hvalue : ∀ {value : Option PbValue}, (∀ v ∈ value, v.Conforms) → ∀ v ∈ value, v.Fits :=
    fun hconf v hv => PbValue.Typed.fits (hconf v hv).type_eq (hconf v hv).length_le
  cases body with
  | empty => exact h.elim
  | writeConfigRequest req => exact ⟨h.1.cText, hvalue h.2⟩
  | readConfigResponse resp => exact ⟨h.1.cText, hvalue h.2⟩
  | writeConfigResponse resp | sendTrapResponse resp => exact Text.cText h
  | readConfigRequest bs | sendTrapRequest bs => exact Text.cText h
  | pingRequest nonce | pingResponse nonce => trivial

/-- The number of an enumeration, off the wire and on it. -/
theorem PbValue.Fits.type_toStruct (h : v.Fits) : v.toStruct.type.toInt32.toInt = v.type := by
  have hle := h.type_nonneg
  have hlt := h.type_lt
  rw [toStruct, Int32.toInt32_toUInt32, Int32.toInt_ofInt, Int32.size, Int.bmod_def]
  norm_num at *
  omega

theorem PbValue.Fits.toNat_type (h : v.Fits) :
    (uint32Kind.extend v.toStruct.type).toNat = int64Bits v.type := by
  have hle := h.type_nonneg
  have hlt := h.type_lt
  have hnat : v.toStruct.type.toNat = v.type.toNat := by
    have hint := h.type_toStruct
    rw [← Int32.toInt_toBitVec, UInt32.toBitVec_toInt32, BitVec.toInt_eq_toNat_bmod,
      UInt32.toNat_toBitVec, Int.bmod_def] at hint
    have hbound := v.toStruct.type.toNat_lt
    norm_num at *
    omega
  change v.toStruct.type.toUInt64.toNat = _
  rw [UInt32.toNat_toUInt64, hnat, int64Bits, Int.emod_eq_of_lt hle (by omega)]

theorem PbValue.Fits.ofStruct_toStruct (h : v.Fits) : ofStruct v.toStruct = v := by
  rw [ofStruct, h.type_toStruct]
  simp only [toStruct, List.take_of_length_le h.length_le]

/-- The records of the struct are the fields of the value. -/
theorem PbValue.Fits.records_toStruct (h : v.Fits) : v.toStruct.records = v.fields := by
  rw [AgentxIpcV1.Value.records, PbValue.fields, h.toNat_type]
  simp only [toStruct, List.take_of_length_le h.length_le]
  rw [show (int32Kind.extend v.int32Val).toNat = int64Bits v.int32Val.toInt from
    toNat_extendInt32 _]
  rfl

theorem ofStruct_map_toStruct {value : Option PbValue} (h : ∀ v ∈ value, v.Fits) :
    (value.map PbValue.toStruct).map PbValue.ofStruct = value := by
  cases value with
  | none => rfl
  | some v => exact congrArg some (h v rfl).ofStruct_toStruct

theorem valueRecords_eq {k : ℕ} {value : Option PbValue} (h : ∀ v ∈ value, v.Fits) :
    submessageRecords AgentxIpcV1.Value.records k (value.map PbValue.toStruct) =
      valueField k value := by
  cases value with
  | none => rfl
  | some v => exact congrArg (messageField k) (h v rfl).records_toStruct

theorem Status.toNat_number (status : Status) :
    (uint32Kind.extend (UInt32.ofNat status.number)).toNat = status.number := by
  cases status <;> rfl

theorem Status.ofStruct_number (status : Status) :
    ofStruct (UInt32.ofNat status.number) = status := by
  cases status <;> rfl

theorem statusStruct_records (status : Status) (h : CText 128 bs) :
    (statusStruct status bs).records = statusFields status bs := by
  rw [AgentxIpcV1.StatusResponse.records, statusFields]
  simp only [statusStruct, h.cut_text, Status.toNat_number]

theorem nameStruct_records (h : CText 64 bs) : (nameStruct bs).records = Wire.bytesField 1 bs := by
  rw [AgentxIpcV1.NameRequest.records, nameStruct, h.cut_text]

/-- **A body that fits the structs is what they say**, -/
theorem Body.Fits.ofStruct_toStruct {body : Body} (h : body.Fits) : ofStruct body.toStruct = body := by
  cases body with
  | empty => rfl
  | writeConfigRequest req =>
    simp only [toStruct, ofStruct, h.1.cut_text, ofStruct_map_toStruct h.2]
  | readConfigResponse resp =>
    simp only [toStruct, ofStruct, h.1.cut_text, ofStruct_map_toStruct h.2,
      Status.ofStruct_number]
  | writeConfigResponse resp | sendTrapResponse resp =>
    simp only [toStruct, ofStruct, statusStruct, CText.cut_text h, Status.ofStruct_number]
  | readConfigRequest bs | sendTrapRequest bs =>
    simp only [toStruct, ofStruct, nameStruct, CText.cut_text h]
  | pingRequest nonce | pingResponse nonce => rfl

/-- and their records are its fields. -/
theorem Body.Fits.records_toStruct {body : Body} (h : body.Fits) : body.toStruct.records = body.fields := by
  cases body with
  | empty => rfl
  | writeConfigRequest req =>
    simp only [toStruct, AgentxIpcV1.Body.records, AgentxIpcV1.WriteConfigRequest.records,
      h.1.cut_text, valueRecords_eq h.2]
    rfl
  | readConfigResponse resp =>
    simp only [toStruct, AgentxIpcV1.Body.records, AgentxIpcV1.ReadConfigResponse.records,
      h.1.cut_text, valueRecords_eq h.2, Status.toNat_number]
    rfl
  | writeConfigResponse resp | sendTrapResponse resp =>
    exact congrArg (messageField _) (statusStruct_records _ h)
  | readConfigRequest bs | sendTrapRequest bs =>
    exact congrArg (messageField _) (nameStruct_records h)
  | pingRequest nonce | pingResponse nonce => rfl

end Fits

/-! ### What the server writes -/

/-- `pb_encode` never fails in `send_envelope`, whatever the envelope. -/
theorem nanopbEncode_eq_records (e : Envelope) :
    nanopbEncode e = some (wire e.toStruct.records) := by
  have hfits : (wire e.toStruct.records).length ≤ ipcSendBufSize := e.toStruct.length_records
  rw [nanopbEncode, AgentxIpcV1.envelopeMsg_writes, pbWrite_buffer hfits]

/-- **What fits the structs is written as the wire format says.** -/
theorem nanopbEncode_eq {e : Envelope} (h : e.body.Fits) : nanopbEncode e = some e.wire := by
  rw [nanopbEncode_eq_records, AgentxIpcV1.Envelope.records, Envelope.wire, Envelope.toStruct,
    h.records_toStruct]
  rfl

/-! ### What the server reads -/

section Decode

variable {id : UInt32} {τ : Type} {desc : PbMsgdesc τ} {tag : ℕ} {fs : List Field}
  {get : AgentxIpcV1.Body → Option τ} {put : τ → AgentxIpcV1.Body}

open AgentxIpcV1 PbMsgdesc

/-- The `request_id` in front. -/
theorem decodeInner_requestId (id : UInt32) (t : Bytes) :
    envelopeMsg.decodeInner (wire (uintField 1 id.toNat) ++ t) envelopeMsg.initZero =
      envelopeMsg.decodeInner t ⟨id, .unset⟩ := by
  have hvarint : envelopeMsg.decodeInner (wire (uintField 1 id.toUInt64.toNat) ++ t)
      envelopeMsg.initZero = _ :=
    decodeInner_varint uint32Kind Envelope.requestIdSlot rfl id t
  rw [UInt32.toNat_toUInt64] at hvarint
  exact hvarint.trans (congrArg (fun v => envelopeMsg.decodeInner t ⟨v, .unset⟩) (ite_default 0 id))

/-- A body that is decoded. -/
theorem nanopbDecode_message
    (hfind : envelopeMsg.fields.find? (·.tag = tag) = some (bodyField desc tag get put))
    (hunset : get .unset = none) {v : τ} (hlen : (wire fs).length < 2 ^ 32)
    (hdecode : ∀ t, desc.decodeInner (wire fs ++ t) desc.initZero = desc.decodeInner t v) :
    nanopbDecode (wire (uintField 1 id.toNat ++ messageField tag fs)) =
      some ⟨id, .ofStruct (put v)⟩ := by
  have hbody : desc.decodeInner (wire fs) ((get .unset).getD desc.initZero) = .ok v := by
    have hnil := hdecode []
    rw [List.append_nil, decodeInner_nil] at hnil
    rwa [hunset]
  have hmessage : envelopeMsg.decodeInner (wire (messageField tag fs) ++ []) ⟨id, .unset⟩ = _ :=
    decodeInner_submessage hfind hlen hbody []
  rw [List.append_nil] at hmessage
  rw [nanopbDecode, pbDecode, wire_append, decodeInner_requestId, hmessage]
  rfl

/-- A message overflows when it starts with something that cannot be decoded. That is short, unless
the message is absurdly long. -/
def Overflows (n : ℕ) (desc : PbMsgdesc τ) (fs : List Field) : Prop :=
  ∃ u rest, wire fs = u ++ rest ∧ desc.FailsOn desc.initZero u ∧
    ((wire fs).length < 128 ^ 10 → u.length ≤ n)

/-- A body that overflows. -/
theorem nanopbDecode_overflow
    (hfind : envelopeMsg.fields.find? (·.tag = tag) = some (bodyField desc tag get put))
    (hunset : get .unset = none) {n : ℕ} (hn : n ≤ 2 ^ 31) (h : Overflows n desc fs) :
    nanopbDecode (wire (uintField 1 id.toNat ++ messageField tag fs)) = none := by
  obtain ⟨u, rest, hfs, hu, hsmall⟩ := h
  have hle : u.length ≤ (wire fs).length := by
    rw [hfs, List.length_append]
    exact Nat.le_add_right _ _
  have hmessage : envelopeMsg.FailsOn ⟨id, .unset⟩
      (varint (8 * tag + pbWtString) ++ (varint (wire fs).length ++ u)) :=
    failsOn_submessage hfind (by rwa [hunset]) hle fun hlen => le_trans (hsmall hlen) hn
  obtain ⟨err, herr⟩ := hmessage.after (decodeInner_requestId id) rest
  have hwire : wire (uintField 1 id.toNat ++ messageField tag fs) =
      wire (uintField 1 id.toNat) ++
        (varint (8 * tag + pbWtString) ++ (varint (wire fs).length ++ u)) ++ rest := by
    rw [wire_append, messageField, wire_cons, wire_nil, List.append_nil, Field.wire]
    simp only [List.append_assoc]
    rw [← hfs]
    rfl
  rw [nanopbDecode, pbDecode, hwire, herr]

/-! ### Its texts and its values -/

variable {bs : Bytes} {m : τ}

/-- The bytes of a field that is not empty. -/
theorem wire_bytesField {k : ℕ} (h : bs ≠ []) :
    wire (Wire.bytesField k bs) = varint (8 * k + pbWtString) ++ varint bs.length ++ bs := by
  rw [Wire.bytesField, if_neg h, wire_cons, wire_nil, List.append_nil, List.append_assoc]
  rfl

/-- The head of a run of bytes is short, if its length is not absurd. -/
theorem length_head_le {k : ℕ} (hk : k < 128) {n : ℕ} (hn : n < 128 ^ 10) :
    (varint (8 * k + pbWtString) ++ varint n).length ≤ 20 := by
  have htag : (varint (8 * k + pbWtString)).length ≤ 2 := by
    refine length_varint_le two_pos ?_
    rw [pbWtString]
    omega
  have hlen : (varint n).length ≤ 10 := length_varint_le (by omega) hn
  rw [List.length_append]
  omega

/-- A run of bytes that overflows, behind what is decoded. -/
theorem overflows_bytes {gs rest : List Field} {k n : ℕ} (hk : k < 128) (hbs : bs ≠ [])
    (hgs : ∀ t, desc.decodeInner (wire gs ++ t) desc.initZero = desc.decodeInner t m)
    (hn : (wire gs).length ≤ n)
    (hfail : desc.FailsOn m (varint (8 * k + pbWtString) ++ varint bs.length)) :
    Overflows (n + 20) desc (gs ++ (Wire.bytesField k bs ++ rest)) := by
  have hwire : wire (gs ++ (Wire.bytesField k bs ++ rest)) =
      wire gs ++ (varint (8 * k + pbWtString) ++ varint bs.length) ++ (bs ++ wire rest) := by
    rw [wire_append, wire_append, wire_bytesField hbs]
    simp only [List.append_assoc]
  refine ⟨_, _, hwire, FailsOn.after hgs hfail, fun hlen => ?_⟩
  rw [hwire] at hlen
  simp only [List.length_append] at hlen
  have hle := length_head_le hk (show bs.length < 128 ^ 10 by omega)
  rw [List.length_append]
  omega

/-- A message that overflows, behind what is decoded, in a message. -/
theorem overflows_message {σ : Type} {outer : PbMsgdesc σ} {gs rest : List Field} {k n n' : ℕ}
    (hk : k < 128) {m : σ} {slot : Slot σ (Option τ)}
    (hfind : outer.fields.find? (·.tag = k) = some (optionalField desc k slot))
    (hnone : slot.get m = none)
    (hgs : ∀ t, outer.decodeInner (wire gs ++ t) outer.initZero = outer.decodeInner t m)
    (hn : (wire gs).length ≤ n) (hn' : n' ≤ 2 ^ 31) (h : Overflows n' desc fs) :
    Overflows (n + 20 + n') outer (gs ++ (messageField k fs ++ rest)) := by
  obtain ⟨u, x, hfs, hu, hsmall⟩ := h
  have hlen : (wire fs).length = u.length + x.length := by rw [hfs, List.length_append]
  have hfail : outer.FailsOn m
      (varint (8 * k + pbWtString) ++ (varint (wire fs).length ++ u)) :=
    failsOn_submessage hfind (by rwa [hnone]) (by omega) fun h => le_trans (hsmall h) hn'
  have hwire : wire (gs ++ (messageField k fs ++ rest)) =
      wire gs ++ (varint (8 * k + pbWtString) ++ (varint (wire fs).length ++ u)) ++
        (x ++ wire rest) := by
    rw [wire_append, wire_append, messageField, wire_cons, wire_nil, List.append_nil, Field.wire]
    simp only [List.append_assoc]
    rw [hfs]
    simp only [List.append_assoc]
    rfl
  refine ⟨_, _, hwire, FailsOn.after hgs hfail, fun hwhole => ?_⟩
  rw [hwire] at hwhole
  simp only [List.length_append] at hwhole ⊢
  have hle := length_head_le hk (show (wire fs).length < 128 ^ 10 by omega)
  have hle' := hsmall (by omega)
  rw [List.length_append] at hle
  omega

theorem name_find : nameRequestMsg.fields.find? (·.tag = 1) =
    some (stringField 64 1 NameRequest.nameSlot) := rfl

/-- A name too long for its array. -/
theorem overflows_name (h : 64 ≤ bs.length) :
    Overflows 20 nameRequestMsg (Wire.bytesField 1 bs) := by
  have hbs : bs ≠ [] := List.ne_nil_of_length_pos (by omega)
  have hover : Overflows (0 + 20) nameRequestMsg ([] ++ (Wire.bytesField 1 bs ++ [])) :=
    overflows_bytes (by omega) hbs (fun _ => rfl) (Nat.le_refl 0)
      (failsOn_string (by omega) name_find h)
  rwa [List.append_nil] at hover

theorem decode_name (h : bs.length < 64) (t : Bytes) :
    nameRequestMsg.decodeInner (wire (Wire.bytesField 1 bs) ++ t) nameRequestMsg.initZero =
      nameRequestMsg.decodeInner t ⟨.ofRead bs h⟩ := by
  rw [decodeInner_string (by omega) NameRequest.nameSlot rfl h]
  exact congrArg (fun v => nameRequestMsg.decodeInner t ⟨v⟩) (ofRead_default h (by omega))

/-- The status in front of a message. -/
theorem decode_status (status : Status) (t : Bytes) :
    statusResponseMsg.decodeInner (wire (uintField 1 status.number) ++ t)
        statusResponseMsg.initZero =
      statusResponseMsg.decodeInner t ⟨UInt32.ofNat status.number, .empty 128 (by decide)⟩ := by
  have hvarint : statusResponseMsg.decodeInner (wire (uintField 1
      (uint32Kind.extend (UInt32.ofNat status.number)).toNat) ++ t) statusResponseMsg.initZero = _ :=
    decodeInner_varint uint32Kind StatusResponse.statusSlot rfl _ t
  rw [Status.toNat_number] at hvarint
  exact hvarint.trans (congrArg (fun n => statusResponseMsg.decodeInner t ⟨n, .empty 128 _⟩)
    (ite_default 0 (UInt32.ofNat status.number)))

theorem length_status_le (status : Status) : (wire (uintField 1 status.number)).length ≤ 3 :=
  length_uintField_le (by omega) (by omega) status.number_lt

theorem length_statusFields_lt (status : Status) (h : bs.length < 128) :
    (wire (statusFields status bs)).length < 2 ^ 32 := by
  have hle := length_status_le status
  have hlen := length_bytesField_le (k := 2) (by omega) bs (by omega)
  rw [statusFields, wire_append, List.length_append]
  omega

theorem overflows_status (status : Status) (h : 128 ≤ bs.length) :
    Overflows 23 statusResponseMsg (statusFields status bs) := by
  have hbs : bs ≠ [] := List.ne_nil_of_length_pos (by omega)
  have hfind : statusResponseMsg.fields.find? (·.tag = 2) =
      some (stringField 128 2 StatusResponse.messageSlot) := rfl
  have hover : Overflows (3 + 20) statusResponseMsg
      (uintField 1 status.number ++ (Wire.bytesField 2 bs ++ [])) :=
    overflows_bytes (by omega) hbs (decode_status status) (length_status_le status)
      (failsOn_string (by omega) hfind h)
  rwa [List.append_nil] at hover

theorem decode_statusFields (status : Status) (h : bs.length < 128) (t : Bytes) :
    statusResponseMsg.decodeInner (wire (statusFields status bs) ++ t) statusResponseMsg.initZero =
      statusResponseMsg.decodeInner t ⟨UInt32.ofNat status.number, .ofRead bs h⟩ := by
  rw [statusFields, wire_append, List.append_assoc, decode_status,
    decodeInner_string (by omega) StatusResponse.messageSlot rfl h]
  exact congrArg (fun v => statusResponseMsg.decodeInner t ⟨UInt32.ofNat status.number, v⟩)
    (ofRead_default h (by omega))

/-- A value with more bytes than its array has room for. -/
theorem overflows_value {v : PbValue} (htyped : v.Typed) (h : 256 < v.bytesVal.length) :
    Overflows 318 valueMsg v.fields := by
  have hbs : v.bytesVal ≠ [] := List.ne_nil_of_length_pos (by omega)
  -- the numbers in front are those of the same value without its bytes
  have hfits : PbValue.Fits { v with bytesVal := [] } := PbValue.Typed.fits htyped (Nat.zero_le _)
  have hfields : v.fields =
      PbValue.fields { v with bytesVal := [] } ++ (Wire.bytesField 5 v.bytesVal ++ []) := by
    simp only [PbValue.fields, Wire.bytesField, if_true, List.append_nil, List.append_assoc]
  rw [hfields, ← hfits.records_toStruct]
  have hfind : valueMsg.fields.find? (·.tag = 5) = some (Nanopb.bytesField 256 5 Value.bytesSlot) :=
    rfl
  exact overflows_bytes (by omega) hbs
    (valueMsg_merges.decodeInner_initZero (Value.merge_initZero _)) (Value.length_records _)
    (failsOn_bytes hfind h)

/-- The key in front of a value. -/
theorem decode_key (h : bs.length < 64) (t : Bytes) :
    writeConfigRequestMsg.decodeInner (wire (Wire.bytesField 1 bs) ++ t)
        writeConfigRequestMsg.initZero =
      writeConfigRequestMsg.decodeInner t ⟨.ofRead bs h, none⟩ := by
  rw [decodeInner_string (by omega) WriteConfigRequest.keySlot rfl h]
  exact congrArg (fun v => writeConfigRequestMsg.decodeInner t ⟨v, none⟩)
    (ofRead_default h (by omega))

theorem length_key_le (h : bs.length < 64) : (wire (Wire.bytesField 1 bs)).length ≤ 67 := by
  have hle := length_bytesField_le (k := 1) (by omega) bs (by omega)
  omega

theorem decode_writeConfigRequest {req : AgentxSubagent.WriteConfigRequest}
    (hkey : req.key.length < 64) (hvalue : ∀ v ∈ req.value, v.Fits) (t : Bytes) :
    writeConfigRequestMsg.decodeInner (wire req.fields ++ t) writeConfigRequestMsg.initZero =
      writeConfigRequestMsg.decodeInner t
        ⟨.ofRead req.key hkey, req.value.map PbValue.toStruct⟩ := by
  rw [AgentxSubagent.WriteConfigRequest.fields, wire_append, List.append_assoc, decode_key hkey,
    ← valueRecords_eq hvalue, decodeInner_value WriteConfigRequest.valueSlot rfl]
  exact congrArg (fun v => writeConfigRequestMsg.decodeInner t ⟨.ofRead req.key hkey, v⟩)
    (mergeOption_none _)

theorem length_writeConfigRequest {req : AgentxSubagent.WriteConfigRequest}
    (hkey : req.key.length < 64) (hvalue : ∀ v ∈ req.value, v.Fits) :
    (wire req.fields).length < 2 ^ 32 := by
  have hle := length_key_le hkey
  have hlen := length_optionalValue 2 (by omega) (req.value.map PbValue.toStruct)
  rw [valueRecords_eq hvalue] at hlen
  rw [AgentxSubagent.WriteConfigRequest.fields, wire_append, List.length_append]
  omega

theorem overflows_writeConfigRequest {req : AgentxSubagent.WriteConfigRequest}
    (htyped : ∀ v ∈ req.value, v.Typed)
    (h : 64 ≤ req.key.length ∨ ∃ v ∈ req.value, 256 < v.bytesVal.length) :
    Overflows 405 writeConfigRequestMsg req.fields := by
  rcases Nat.lt_or_ge req.key.length 64 with hkey | hkey
  · obtain ⟨v, hv, hlong⟩ := h.resolve_left (Nat.not_le.mpr hkey)
    have hfind : writeConfigRequestMsg.fields.find? (·.tag = 2) =
        some (optionalField valueMsg 2 WriteConfigRequest.valueSlot) := rfl
    have hover : Overflows (67 + 20 + 318) writeConfigRequestMsg
        (Wire.bytesField 1 req.key ++ (messageField 2 v.fields ++ [])) :=
      overflows_message (by omega) hfind rfl (decode_key hkey) (length_key_le hkey) (by omega)
        (overflows_value (htyped v hv) hlong)
    rw [AgentxSubagent.WriteConfigRequest.fields, show req.value = some v from hv]
    rwa [List.append_nil] at hover
  · have hbs : req.key ≠ [] := List.ne_nil_of_length_pos (by omega)
    have hfind : writeConfigRequestMsg.fields.find? (·.tag = 1) =
        some (stringField 64 1 WriteConfigRequest.keySlot) := rfl
    have hover : Overflows (0 + 20) writeConfigRequestMsg
        ([] ++ (Wire.bytesField 1 req.key ++ valueField 2 req.value)) :=
      overflows_bytes (by omega) hbs (fun _ => rfl) (Nat.le_refl 0)
        (failsOn_string (by omega) hfind hkey)
    obtain ⟨u, rest, hfs, hu, hsmall⟩ := hover
    exact ⟨u, rest, hfs, hu, fun hlen => le_trans (hsmall hlen) (by omega)⟩

/-- The status and the value in front of a message. -/
theorem decode_readStatus (status : Status) (t : Bytes) :
    readConfigResponseMsg.decodeInner (wire (uintField 1 status.number) ++ t)
        readConfigResponseMsg.initZero =
      readConfigResponseMsg.decodeInner t
        ⟨UInt32.ofNat status.number, none, .empty 128 (by decide)⟩ := by
  have hvarint : readConfigResponseMsg.decodeInner (wire (uintField 1
      (uint32Kind.extend (UInt32.ofNat status.number)).toNat) ++ t)
      readConfigResponseMsg.initZero = _ :=
    decodeInner_varint uint32Kind ReadConfigResponse.statusSlot rfl _ t
  rw [Status.toNat_number] at hvarint
  exact hvarint.trans (congrArg
    (fun n => readConfigResponseMsg.decodeInner t ⟨n, none, .empty 128 _⟩)
    (ite_default 0 (UInt32.ofNat status.number)))

theorem decode_readValue (status : Status) {value : Option PbValue} (h : ∀ v ∈ value, v.Fits)
    (t : Bytes) :
    readConfigResponseMsg.decodeInner
        (wire (uintField 1 status.number ++ valueField 2 value) ++ t) readConfigResponseMsg.initZero =
      readConfigResponseMsg.decodeInner t
        ⟨UInt32.ofNat status.number, value.map PbValue.toStruct, .empty 128 (by decide)⟩ := by
  rw [wire_append, List.append_assoc, decode_readStatus, ← valueRecords_eq h,
    decodeInner_value ReadConfigResponse.valueSlot rfl]
  exact congrArg (fun v => readConfigResponseMsg.decodeInner t
    ⟨UInt32.ofNat status.number, v, .empty 128 _⟩) (mergeOption_none _)

theorem length_readValue_le (status : Status) {value : Option PbValue} (h : ∀ v ∈ value, v.Fits) :
    (wire (uintField 1 status.number ++ valueField 2 value)).length ≤ 305 := by
  have hle := length_status_le status
  have hlen := length_optionalValue 2 (by omega) (value.map PbValue.toStruct)
  rw [valueRecords_eq h] at hlen
  rw [wire_append, List.length_append]
  omega

theorem decode_readConfigResponse {resp : AgentxSubagent.ReadConfigResponse}
    (hmessage : resp.message.length < 128) (hvalue : ∀ v ∈ resp.value, v.Fits) (t : Bytes) :
    readConfigResponseMsg.decodeInner (wire resp.fields ++ t) readConfigResponseMsg.initZero =
      readConfigResponseMsg.decodeInner t ⟨UInt32.ofNat resp.status.number,
        resp.value.map PbValue.toStruct, .ofRead resp.message hmessage⟩ := by
  rw [AgentxSubagent.ReadConfigResponse.fields, ← List.append_assoc, wire_append,
    List.append_assoc, decode_readValue resp.status hvalue,
    decodeInner_string (by omega) ReadConfigResponse.messageSlot rfl hmessage]
  exact congrArg (fun v => readConfigResponseMsg.decodeInner t
    ⟨UInt32.ofNat resp.status.number, resp.value.map PbValue.toStruct, v⟩)
    (ofRead_default hmessage (by omega))

theorem length_readConfigResponse {resp : AgentxSubagent.ReadConfigResponse}
    (hmessage : resp.message.length < 128) (hvalue : ∀ v ∈ resp.value, v.Fits) :
    (wire resp.fields).length < 2 ^ 32 := by
  have hle := length_readValue_le resp.status hvalue
  have hlen := length_bytesField_le (k := 3) (by omega) resp.message (by omega)
  rw [AgentxSubagent.ReadConfigResponse.fields, ← List.append_assoc, wire_append,
    List.length_append]
  omega

theorem overflows_readConfigResponse {resp : AgentxSubagent.ReadConfigResponse}
    (htyped : ∀ v ∈ resp.value, v.Typed)
    (h : 128 ≤ resp.message.length ∨ ∃ v ∈ resp.value, 256 < v.bytesVal.length) :
    Overflows 341 readConfigResponseMsg resp.fields := by
  by_cases hlong : ∃ v ∈ resp.value, 256 < v.bytesVal.length
  · obtain ⟨v, hv, hlong⟩ := hlong
    have hfind : readConfigResponseMsg.fields.find? (·.tag = 2) =
        some (optionalField valueMsg 2 ReadConfigResponse.valueSlot) := rfl
    rw [AgentxSubagent.ReadConfigResponse.fields, show resp.value = some v from hv]
    exact overflows_message (by omega) hfind rfl (decode_readStatus resp.status)
      (length_status_le resp.status) (by omega) (overflows_value (htyped v hv) hlong)
  · have hvalue : ∀ v ∈ resp.value, v.Fits := fun v hv =>
      (htyped v hv).fits (Nat.le_of_not_lt fun hlt => hlong ⟨v, hv, hlt⟩)
    have hmessage := h.resolve_right hlong
    have hbs : resp.message ≠ [] := List.ne_nil_of_length_pos (by omega)
    have hfind : readConfigResponseMsg.fields.find? (·.tag = 3) =
        some (stringField 128 3 ReadConfigResponse.messageSlot) := rfl
    have hover : Overflows (305 + 20) readConfigResponseMsg
        ((uintField 1 resp.status.number ++ valueField 2 resp.value) ++
          (Wire.bytesField 3 resp.message ++ [])) :=
      overflows_bytes (by omega) hbs (decode_readValue resp.status hvalue)
        (length_readValue_le resp.status hvalue) (failsOn_string (by omega) hfind hmessage)
    rw [List.append_nil, List.append_assoc] at hover
    obtain ⟨u, rest, hfs, hu, hsmall⟩ := hover
    exact ⟨u, rest, hfs, hu, fun hlen => le_trans (hsmall hlen) (by omega)⟩

end Decode

/-! ### Any envelope -/

section Wire

variable {e : Envelope}

/-- The values of a body fit when they are not held back. -/
theorem holdValue_eq {value : Option PbValue} (h : ∀ v ∈ value, v.Typed) :
    ((∀ v ∈ value, v.Fits) ∧ holdValue value = some value) ∨
      ((∃ v ∈ value, 256 < v.bytesVal.length) ∧ holdValue value = none) := by
  cases value with
  | none => exact Or.inl ⟨by simp, rfl⟩
  | some v =>
    rcases Nat.lt_or_ge 256 v.bytesVal.length with hlt | hle
    · exact Or.inr ⟨⟨v, rfl, hlt⟩, if_neg (Nat.not_le.mpr hlt)⟩
    · refine Or.inl ⟨?_, if_pos hle⟩
      rintro _ ⟨⟩
      exact (h v rfl).fits hle

theorem holdString_of_lt {n : ℕ} {bs : Bytes} (h : bs.length < n) :
    holdString n bs = some (CString.ofRead bs h).text := if_pos h

theorem holdString_of_le {n : ℕ} {bs : Bytes} (h : n ≤ bs.length) : holdString n bs = none :=
  if_neg (Nat.not_lt.mpr h)

/-- **What nanopb makes of the wire format of an envelope**: what the structs hold of it, and
nothing when it overflows one of them. The values in it are of the types of the schema; the
texts and the bytes are any, of any length. -/
theorem nanopbDecode_wire (hset : e.body ≠ .empty) (htyped : ∀ v ∈ e.body.value, v.Typed) :
    nanopbDecode e.wire = e.body.hold.map (Envelope.mk e.requestId) := by
  obtain ⟨id, body⟩ := e
  rw [Envelope.wire]
  cases body with
  | empty => exact absurd rfl hset
  | writeConfigRequest req =>
    have hvalues := holdValue_eq (show ∀ v ∈ req.value, v.Typed from htyped)
    rcases Nat.lt_or_ge req.key.length 64 with hkey | hkey
    · obtain ⟨hfits, hhold⟩ | ⟨hlong, hhold⟩ := hvalues
      · refine (nanopbDecode_message rfl rfl (length_writeConfigRequest hkey hfits)
          (decode_writeConfigRequest hkey hfits)).trans ?_
        simp only [Body.hold, holdString_of_lt hkey, hhold, Option.bind_some, Option.map_some,
          Body.ofStruct, ofStruct_map_toStruct hfits]
      · refine (nanopbDecode_overflow rfl rfl (by omega)
          (overflows_writeConfigRequest htyped (Or.inr hlong))).trans ?_
        simp only [Body.hold, hhold, Option.map_none, Option.bind_fun_none]
    · refine (nanopbDecode_overflow rfl rfl (by omega)
        (overflows_writeConfigRequest htyped (Or.inl hkey))).trans ?_
      simp only [Body.hold, holdString_of_le hkey, Option.bind_none, Option.map_none]
  | readConfigResponse resp =>
    have hvalues := holdValue_eq (show ∀ v ∈ resp.value, v.Typed from htyped)
    rcases Nat.lt_or_ge resp.message.length 128 with hmessage | hmessage
    · obtain ⟨hfits, hhold⟩ | ⟨hlong, hhold⟩ := hvalues
      · refine (nanopbDecode_message rfl rfl (length_readConfigResponse hmessage hfits)
          (decode_readConfigResponse hmessage hfits)).trans ?_
        simp only [Body.hold, holdString_of_lt hmessage, hhold, Option.bind_some, Option.map_some,
          Body.ofStruct, ofStruct_map_toStruct hfits, Status.ofStruct_number]
      · refine (nanopbDecode_overflow rfl rfl (by omega)
          (overflows_readConfigResponse htyped (Or.inr hlong))).trans ?_
        simp only [Body.hold, hhold, Option.map_none, Option.bind_fun_none]
    · refine (nanopbDecode_overflow rfl rfl (by omega)
        (overflows_readConfigResponse htyped (Or.inl hmessage))).trans ?_
      simp only [Body.hold, holdString_of_le hmessage, Option.bind_none, Option.map_none]
  | writeConfigResponse resp | sendTrapResponse resp =>
    rcases Nat.lt_or_ge resp.message.length 128 with hmessage | hmessage
    · have hlen := length_statusFields_lt resp.status hmessage
      refine (nanopbDecode_message rfl rfl hlen (decode_statusFields _ hmessage)).trans ?_
      simp only [Body.hold, holdString_of_lt hmessage, Option.map_some, Body.ofStruct,
        Status.ofStruct_number]
    · refine (nanopbDecode_overflow rfl rfl (by omega) (overflows_status _ hmessage)).trans ?_
      simp only [Body.hold, holdString_of_le hmessage, Option.map_none]
  | readConfigRequest bs | sendTrapRequest bs =>
    rcases Nat.lt_or_ge bs.length 64 with hname | hname
    · have hlen := length_key_le hname
      refine (nanopbDecode_message rfl rfl (by omega) (decode_name hname)).trans ?_
      simp only [Body.hold, holdString_of_lt hname, Option.map_some, Body.ofStruct]
    · refine (nanopbDecode_overflow rfl rfl (by omega) (overflows_name hname)).trans ?_
      simp only [Body.hold, holdString_of_le hname, Option.map_none]
  | pingRequest nonce | pingResponse nonce =>
    have hlen := AgentxIpcV1.Ping.length_records ⟨nonce⟩
    refine (nanopbDecode_message rfl rfl (lt_of_le_of_lt hlen (by omega))
      (AgentxIpcV1.pingMsg_merges.decodeInner_initZero
        (AgentxIpcV1.Ping.merge_initZero ⟨nonce⟩))).trans ?_
    rfl

/-- A conforming envelope comes through. -/
theorem nanopbDecode_wire_of_conforms (h : e.Conforms) : nanopbDecode e.wire = some e := by
  obtain ⟨id, body⟩ := e
  have hset : body ≠ .empty := by
    rintro rfl
    exact h
  have htyped : ∀ v ∈ body.value, v.Typed := by
    cases body with
    | empty => exact h.elim
    | writeConfigRequest req => exact fun v hv => (h.2 v hv).type_eq
    | readConfigResponse resp => exact fun v hv => (h.2 v hv).type_eq
    | _ => simp [Body.value]
  rw [nanopbDecode_wire hset htyped]
  exact congrArg (Option.map _) (Body.Conforms.hold h)

/-- What the server writes, it would read. -/
theorem nanopbDecode_nanopbEncode (e : AgentxIpcV1.Envelope) :
    nanopbDecode (wire e.records) = some (.ofStruct e) := by
  rw [nanopbDecode, AgentxIpcV1.pbDecode_records]

end Wire

/-! ### What the server answers -/

section Answers

variable {m : Modes} {key bs cs : Bytes}

/-- A text off the wire quoted in a message. -/
theorem CText.cText_quoted (hkey : CText 64 key) (hb : Plain bs) (hc : Plain cs) :
    CText 128 (snprintf128 (bs ++ key ++ cs)) := by
  refine ⟨lt_of_le_of_lt (List.length_take_le _ _) (by omega), fun hmem => ?_⟩
  have hwhole := List.mem_of_mem_take hmem
  simp only [List.mem_append] at hwhole
  rcases hwhole with (hzero | hzero) | hzero
  · exact hb.not_mem_zero hzero
  · exact hkey.2 hzero
  · exact hc.not_mem_zero hzero

theorem Scalar.text_name (s : Scalar) : Text 64 s.name :=
  ⟨by cases s <;> decide, s.plain_name.not_mem_zero, s.plain_name.utf8⟩

/-- The answer to a write request, whatever the bytes of its key. -/
theorem cText_handleWriteConfig (f : Fault) {req : WriteConfigRequest} (hkey : CText 64 req.key)
    (envs : Envs) : CText 128 (handleWriteConfig m f req envs).1.message := by
  obtain ⟨hnone, -⟩ | ⟨s, hs, -⟩ := findConfigObject_cases m req.key
  · rw [handleWriteConfig, hnone]
    exact hkey.cText_quoted (by decide) (by decide)
  · exact (text_handleWriteConfig f (hs ▸ s.text_name) envs).cText

/-- The answer to a read request. -/
theorem handleReadConfig_fits (rf : ReadFault) (hkey : CText 64 key) (envs : Envs) :
    (Body.readConfigResponse (handleReadConfig m rf key envs)).Fits := by
  obtain ⟨hnone, -⟩ | ⟨s, hs, -⟩ := findConfigObject_cases m key
  · rw [handleReadConfig, hnone]
    exact ⟨hkey.cText_quoted (by decide) (by decide), by simp⟩
  · exact (handleReadConfig_conforms rf (hs ▸ s.text_name) envs).fits

/-- The answer to a trap request. -/
theorem cText_handleSendTrap (af : AlarmFaults) (hname : CText 64 key) (a : Agent) :
    CText 128 (handleSendTrap m af key a).1.message := by
  simp only [handleSendTrap]
  split_ifs
  · exact hname.cText_quoted (by decide) (by decide)
  · exact text_nil.cText
  · exact (Plain.text_snprintf128 (by decide)).cText

/-- **What the server answers to what it decoded fits its structs.** -/
theorem answerBody_fits {f : FrameFaults} {a a' : Agent} {body : AgentxIpcV1.Body} {body' : Body}
    (hans : answerBody m f a (.ofStruct body) = some (body', a')) : body'.Fits := by
  have hresponse : CText 128 unexpectedResponse := (Plain.text_snprintf128 (by decide)).cText
  cases body with
  | unset | pingResponse => exact absurd hans (by simp [answerBody, Body.ofStruct])
  | writeConfigRequest req =>
    obtain ⟨rfl, -⟩ := Prod.mk.inj (Option.some.inj hans)
    exact cText_handleWriteConfig f.write ⟨req.key.length_lt, req.key.no_nul⟩ a.envs
  | readConfigRequest req =>
    obtain ⟨rfl, -⟩ := Prod.mk.inj (Option.some.inj hans)
    exact handleReadConfig_fits f.read ⟨req.name.length_lt, req.name.no_nul⟩ a.envs
  | sendTrapRequest req =>
    obtain ⟨rfl, -⟩ := Prod.mk.inj (Option.some.inj hans)
    exact cText_handleSendTrap f.alarm ⟨req.name.length_lt, req.name.no_nul⟩ a
  | pingRequest req =>
    obtain ⟨rfl, -⟩ := Prod.mk.inj (Option.some.inj hans)
    trivial
  | writeConfigResponse | sendTrapResponse =>
    obtain ⟨rfl, -⟩ := Prod.mk.inj (Option.some.inj hans)
    exact hresponse
  | readConfigResponse =>
    obtain ⟨rfl, -⟩ := Prod.mk.inj (Option.some.inj hans)
    exact ⟨hresponse, by simp⟩

/-- What fits is read back from what is written. -/
theorem nanopbDecode_wire_of_fits {e : Envelope} (h : e.body.Fits) :
    nanopbDecode e.wire = some e := by
  obtain ⟨id, body⟩ := e
  have hstruct := nanopbDecode_nanopbEncode (Envelope.toStruct ⟨id, body⟩)
  have hwire : wire (Envelope.toStruct ⟨id, body⟩).records = Envelope.wire ⟨id, body⟩ := by
    rw [AgentxIpcV1.Envelope.records, Envelope.toStruct, h.records_toStruct]
    rfl
  rw [hwire] at hstruct
  rw [hstruct]
  exact congrArg (fun b => some (Envelope.mk id b)) h.ofStruct_toStruct

/-- The length of the wire format of what fits. -/
theorem length_wire_of_fits {e : Envelope} (h : e.body.Fits) : e.wire.length ≤ ipcSendBufSize := by
  have hle := e.toStruct.length_records
  rw [AgentxIpcV1.Envelope.records, Envelope.toStruct, h.records_toStruct] at hle
  exact hle

/-- The frame of what fits. -/
theorem sendEnvelope_of_fits {encodeToVec : Envelope → Bytes} {decode : Bytes → Option Envelope}
    {e : Envelope} (h : e.body.Fits) :
    sendEnvelope (nanopbCodec encodeToVec decode) e = some (frameBytes e.wire) := by
  have hle : e.wire.length ≤ ipcSendBufSize := length_wire_of_fits h
  have hencode : (nanopbCodec encodeToVec decode).pbEncode e = e.wire := by
    change (nanopbEncode e).getD [] = _
    rw [nanopbEncode_eq h]
    rfl
  exact sendEnvelope_of_le hencode hle

/-- **Whatever bytes a frame has, its answer is sent**: it fits the buffer of `send_envelope`, what
is written to the socket is its length and its wire format, that is decoded to it, and it has
the request id of the request. -/
theorem answer_is_sent (encodeToVec : Envelope → Bytes) (decode : Bytes → Option Envelope)
    (f : FrameFaults) (a : Agent) (payload : Bytes) {r : FrameRecord} {a' : Agent} {stays : Bool}
    (h : handleFrame m nanopbDecode f a payload = (some r, a', stays)) :
    sendEnvelope (nanopbCodec encodeToVec decode) r.response = some (frameBytes r.response.wire) ∧
      r.response.wire.length ≤ ipcSendBufSize ∧
      nanopbDecode r.response.wire = some r.response ∧
      r.response.requestId = r.request.requestId := by
  rw [handleFrame] at h
  rcases hdecode : nanopbDecode payload with _ | req
  · simp [hdecode] at h
  rcases hans : answerBody m f a req.body with _ | ⟨body, a₁⟩
  · simp [hdecode, hans] at h
  simp only [hdecode, hans, Prod.mk.injEq, Option.some.injEq] at h
  obtain ⟨rfl, -, -⟩ := h
  have hfits : body.Fits := by
    obtain ⟨s, -, rfl⟩ := nanopbDecode_eq_some.mp hdecode
    exact answerBody_fits hans
  exact ⟨sendEnvelope_of_fits hfits, length_wire_of_fits hfits, nanopbDecode_wire_of_fits hfits, rfl⟩

/-- A ping of any subagent. -/
theorem answer_is_sent_ping :
    let response := Envelope.mk 1 (.pingResponse 7)
    sendEnvelope (nanopbCodec Envelope.wire Envelope.ofWire) response =
        some (frameBytes response.wire) ∧
      response.wire.length ≤ ipcSendBufSize ∧ nanopbDecode response.wire = some response ∧
      response.requestId = 1 := by
  have hframe : handleFrame .shipped nanopbDecode .none ⟨fun _ => ∅, .clear, []⟩
      (Envelope.mk 1 (.pingRequest 7)).wire =
        (some ⟨⟨1, .pingRequest 7⟩, ⟨1, .pingResponse 7⟩, true⟩, ⟨fun _ => ∅, .clear, []⟩, true) := by
    rw [handleFrame, nanopbDecode_wire_of_conforms (e := ⟨1, .pingRequest 7⟩) trivial]
    rfl
  exact answer_is_sent _ _ _ _ _ hframe

end Answers

/-! ### What was asked of nanopb -/

/-- **nanopb keeps what was asked of it**, with any prost that writes the wire format of a
conforming envelope and reads it. -/
theorem nanopb_lawful {encodeToVec : Envelope → Bytes} {decode : Bytes → Option Envelope}
    (henc : ∀ {e : Envelope}, e.Conforms → encodeToVec e = e.wire)
    (hdec : ∀ {e : Envelope}, e.Conforms → decode e.wire = some e) :
    (nanopbCodec encodeToVec decode).Lawful where
  pbDecode_encodeToVec := by
    intro e h
    change nanopbDecode (encodeToVec e) = some e
    rw [henc h, nanopbDecode_wire_of_conforms h]
  decode_pbEncode := by
    intro e h
    change decode ((nanopbEncode e).getD []) = some e
    rw [nanopbEncode_eq (Body.Conforms.fits h)]
    exact hdec h
  length_encodeToVec := fun h => congrArg List.length (henc h)
  length_pbEncode := by
    intro e h
    change ((nanopbEncode e).getD []).length = _
    rw [nanopbEncode_eq (Body.Conforms.fits h)]
    rfl

/-- **And what was asked of it for the requests that do not fit.** -/
theorem nanopb_bounded {encodeToVec : Envelope → Bytes} {decode : Bytes → Option Envelope}
    (henc : ∀ (id : UInt32) (c : Call), encodeToVec ⟨id, c.method.request⟩ =
      (Envelope.mk id c.method.request).wire) : (nanopbCodec encodeToVec decode).Bounded where
  length_encodeToVec := fun id c => congrArg List.length (henc id c)
  pbDecode_encodeToVec := by
    intro id c
    have hset : c.method.request ≠ .empty := by
      cases c <;> simp [Call.method, ping, writeConfig, readConfig, sendTrap]
    have htyped : ∀ v ∈ c.method.request.value, v.Typed := by
      cases c with
      | writeConfig key value =>
        rintro _ ⟨⟩
        exact value.intoPb_typed
      | _ => simp [Call.method, ping, readConfig, sendTrap, Body.value]
    change nanopbDecode (encodeToVec _) = _
    rw [henc, nanopbDecode_wire hset htyped]

/-- **The server over nanopb is what was asked for**, whatever prost does outside of the schema. -/
theorem nanopb_keeps_schema {encodeToVec : Envelope → Bytes} {decode : Bytes → Option Envelope}
    (henc : ∀ {e : Envelope}, e.Conforms → encodeToVec e = e.wire)
    (hdec : ∀ {e : Envelope}, e.Conforms → decode e.wire = some e)
    (hcalls : ∀ (id : UInt32) (c : Call), encodeToVec ⟨id, c.method.request⟩ =
      (Envelope.mk id c.method.request).wire) :
    (nanopbCodec encodeToVec decode).Lawful ∧ (nanopbCodec encodeToVec decode).Bounded :=
  ⟨nanopb_lawful henc hdec, nanopb_bounded hcalls⟩

theorem nanopb_keeps_schema_wire :
    (nanopbCodec Envelope.wire Envelope.ofWire).Lawful ∧
      (nanopbCodec Envelope.wire Envelope.ofWire).Bounded :=
  nanopb_keeps_schema (fun _ => rfl) Envelope.ofWire_wire_of_conforms fun _ _ => rfl

end AgentxSubagent
