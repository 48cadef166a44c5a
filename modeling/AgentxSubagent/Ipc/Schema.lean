import AgentxSubagent.Ipc.Server
import AgentxSubagent.Lib.Utf8
import AgentxSubagent.Lib.Wire

/-!
# The messages of the IPC protocol on the wire

`proto/agentx_ipc.proto` and the sizes of `proto/agentx_ipc.options`. The client encodes and
decodes its messages with prost, which is not part of the repository, the server with nanopb,
which is, under `third_party/nanopb`; its code is the subject of the `Nanopb` modules. What both
are generated from is the schema, and this file says what it fixes:

* `AgentxSubagent.Envelope.wire`: the bytes of an envelope, field by field;
* `AgentxSubagent.Envelope.Conforms`: the envelopes both sides can hold. A text is a C string
  of bounded size on one side and UTF-8 on the other;
* `AgentxSubagent.PbCodec.Lawful`: what is asked of the two libraries. Each reads back the
  conforming envelopes the other has written, and what is written is as long as the schema
  makes it.

`AgentxSubagent.wireCodec_lawful` shows that the schema can be met, with a reader written
against it; and `AgentxSubagent.Envelope.length_wire` bounds every conforming envelope by the
buffer the server sends from. `AgentxSubagent.answerBody_conforms` is where the handlers
come in: what they answer to a conforming request conforms.
-/

namespace AgentxSubagent

open Decimal Wire

/-! ### Conforming messages -/

/-- The bytes of a `str`. -/
def utf8 (s : String) : Bytes := s.toList.flatMap String.utf8EncodeChar

/-- What a `string` field of size `maxSize` holds: with its NUL it fits the C array, there is no
NUL before that, and it is UTF-8. -/
structure Text (maxSize : ℕ) (bs : Bytes) : Prop where
  length_lt : bs.length < maxSize
  no_nul : 0 ∉ bs
  utf8 : ∃ s, bs = utf8 s

/-- A `Value` both sides can hold. -/
structure PbValue.Conforms (v : PbValue) : Prop where
  type_eq : ∃ ty : ValueType, v.type = ty.number
  length_le : v.bytesVal.length ≤ 256

/-- A body both sides can hold; it is set. -/
def Body.Conforms : Body → Prop
  | .empty => False
  | .writeConfigRequest req => Text 64 req.key ∧ ∀ v ∈ req.value, v.Conforms
  | .writeConfigResponse resp => Text 128 resp.message
  | .readConfigRequest key => Text 64 key
  | .readConfigResponse resp => Text 128 resp.message ∧ ∀ v ∈ resp.value, v.Conforms
  | .sendTrapRequest trapName => Text 64 trapName
  | .sendTrapResponse resp => Text 128 resp.message
  | .pingRequest _ => True
  | .pingResponse _ => True

/-- An envelope both sides can hold. -/
def Envelope.Conforms (e : Envelope) : Prop := e.body.Conforms

/-! ### The fields -/

/-- The number of a status on the wire. -/
def Status.number : Status → ℕ
  | .unspecified => 0
  | .ok => 1
  | .notFound => 2
  | .typeMismatch => 3
  | .invalid => 4
  | .readOnly => 5
  | .storageError => 6

/-- The number an `int32` or an enumeration is sent as: it is extended to 64 bits with its
sign. -/
def int64Bits (v : ℤ) : ℕ := (v % 2 ^ 64).toNat

/-- `message Value`. -/
def PbValue.fields (v : PbValue) : List Field :=
  uintField 1 (int64Bits v.type) ++ (uintField 2 (int64Bits v.int32Val.toInt) ++
    (uintField 3 v.uint32Val.toNat ++ (uintField 4 v.uint64Val.toNat ++ bytesField 5 v.bytesVal)))

/-- A `Value` under a number, if there is one. -/
def valueField (k : ℕ) : Option PbValue → List Field
  | none => []
  | some v => messageField k v.fields

/-- `message WriteConfigRequest`. -/
def WriteConfigRequest.fields (req : WriteConfigRequest) : List Field :=
  bytesField 1 req.key ++ valueField 2 req.value

/-- `message WriteConfigResponse` and `message SendTrapResponse`. -/
def statusFields (status : Status) (message : Bytes) : List Field :=
  uintField 1 status.number ++ bytesField 2 message

/-- `message ReadConfigResponse`. -/
def ReadConfigResponse.fields (resp : ReadConfigResponse) : List Field :=
  uintField 1 resp.status.number ++ (valueField 2 resp.value ++ bytesField 3 resp.message)

/-- `oneof body`. -/
def Body.fields : Body → List Field
  | .empty => []
  | .writeConfigRequest req => messageField 10 req.fields
  | .writeConfigResponse resp => messageField 11 (statusFields resp.status resp.message)
  | .readConfigRequest key => messageField 12 (bytesField 1 key)
  | .readConfigResponse resp => messageField 13 resp.fields
  | .sendTrapRequest trapName => messageField 14 (bytesField 1 trapName)
  | .sendTrapResponse resp => messageField 15 (statusFields resp.status resp.message)
  | .pingRequest nonce => messageField 16 (uintField 1 nonce.toNat)
  | .pingResponse nonce => messageField 17 (uintField 1 nonce.toNat)

/-- **The bytes of an envelope.** -/
def Envelope.wire (e : Envelope) : Bytes :=
  Wire.wire (uintField 1 e.requestId.toNat ++ e.body.fields)

/-! ### How long an envelope gets -/

theorem int64Bits_lt (v : ℤ) : int64Bits v < 128 ^ 10 := by
  have hlt := Int.emod_lt_of_pos v (show (0 : ℤ) < 2 ^ 64 by norm_num)
  have hnonneg := Int.emod_nonneg v (show (2 : ℤ) ^ 64 ≠ 0 by norm_num)
  rw [int64Bits]
  norm_num at *
  omega

theorem PbValue.length_fields_le {v : PbValue} (h : v.Conforms) :
    (Wire.wire v.fields).length ≤ 303 := by
  have htype := length_uintField_le (k := 1) (by omega) (by omega) (int64Bits_lt v.type)
  have hint := length_uintField_le (k := 2) (by omega) (by omega) (int64Bits_lt v.int32Val.toInt)
  have huint := length_uintField_le (k := 3) (w := 5) (by omega) (by omega)
    (lt_trans v.uint32Val.toNat_lt (by norm_num))
  have hbig := length_uintField_le (k := 4) (w := 10) (by omega) (by omega)
    (lt_trans v.uint64Val.toNat_lt (by norm_num))
  have hle := h.length_le
  have hbytes := length_bytesField_le (k := 5) (by omega) v.bytesVal (by omega)
  simp only [PbValue.fields, wire_append, List.length_append]
  omega

theorem length_valueField_le {k : ℕ} (hk : k < 1024) {value : Option PbValue}
    (h : ∀ v ∈ value, v.Conforms) : (Wire.wire (valueField k value)).length ≤ 307 := by
  cases value with
  | none => exact Nat.zero_le _
  | some v =>
    have hv := PbValue.length_fields_le (h v rfl)
    have hlen := length_wire_bytes_le hk (Wire.wire v.fields) (by omega)
    rw [valueField, messageField]
    omega

theorem Status.number_lt (status : Status) : status.number < 128 ^ 1 := by
  cases status <;> decide

theorem length_statusFields_le (status : Status) {message : Bytes} (h : Text 128 message) :
    (Wire.wire (statusFields status message)).length ≤ 134 := by
  have hstatus := length_uintField_le (k := 1) (by omega) (by omega) status.number_lt
  have hlt := h.length_lt
  have hmsg := length_bytesField_le (k := 2) (by omega) message (by omega)
  simp only [statusFields, wire_append, List.length_append]
  omega

/-- A message inside an envelope adds its tag and its length. -/
theorem length_messageField {k : ℕ} (hk : k < 1024) {fs : List Field} {n : ℕ}
    (h : (Wire.wire fs).length ≤ n) (hn : n < 16384) :
    1 ≤ (Wire.wire (messageField k fs)).length ∧
      (Wire.wire (messageField k fs)).length ≤ 4 + n := by
  have hle := length_wire_bytes_le hk (Wire.wire fs) (by omega)
  have hpos := Field.length_wire_pos ⟨k, .bytes (Wire.wire fs)⟩
  rw [messageField]
  refine ⟨?_, by omega⟩
  rw [wire_cons, List.length_append]
  omega

theorem Body.length_fields {body : Body} (h : body.Conforms) :
    1 ≤ (Wire.wire body.fields).length ∧ (Wire.wire body.fields).length ≤ 4 + 441 := by
  have huint : ∀ nonce : UInt32, (Wire.wire (uintField 1 nonce.toNat)).length ≤ 441 := fun nonce =>
    le_trans (length_uintField_le (w := 5) (by omega) (by omega)
      (lt_trans nonce.toNat_lt (by norm_num))) (by omega)
  have htext : ∀ {bs : Bytes}, Text 64 bs → (Wire.wire (bytesField 1 bs)).length ≤ 67 := by
    intro bs hbs
    have hlt := hbs.length_lt
    have hle := length_bytesField_le (k := 1) (by omega) bs (by omega)
    omega
  cases body with
  | empty => exact h.elim
  | writeConfigRequest req =>
    have hkey := htext h.1
    have hvalue := length_valueField_le (k := 2) (by omega) h.2
    refine length_messageField (by omega) ?_ (by omega)
    rw [WriteConfigRequest.fields, wire_append, List.length_append]
    omega
  | readConfigResponse resp =>
    have hstatus := length_uintField_le (k := 1) (by omega) (by omega) resp.status.number_lt
    have hvalue := length_valueField_le (k := 2) (by omega) h.2
    have hlt := h.1.length_lt
    have hmsg := length_bytesField_le (k := 3) (by omega) resp.message (by omega)
    refine length_messageField (by omega) ?_ (by omega)
    simp only [ReadConfigResponse.fields, wire_append, List.length_append]
    omega
  | writeConfigResponse resp | sendTrapResponse resp =>
    have hfields := length_statusFields_le resp.status h
    exact length_messageField (by omega) (by omega) (by omega)
  | readConfigRequest bs | sendTrapRequest bs =>
    have hfields := htext h
    exact length_messageField (by omega) (by omega) (by omega)
  | pingRequest nonce | pingResponse nonce =>
    exact length_messageField (by omega) (huint nonce) (by omega)

/-- **Every conforming envelope fits the buffer of the server**, and it is not empty. -/
theorem Envelope.length_wire {e : Envelope} (h : e.Conforms) :
    1 ≤ e.wire.length ∧ e.wire.length ≤ 1024 := by
  have hid := length_uintField_le (k := 1) (w := 5) (by omega) (by omega)
    (lt_trans e.requestId.toNat_lt (by norm_num))
  have hbody := Body.length_fields h
  rw [Envelope.wire, wire_append, List.length_append]
  omega

/-! ### Reading an envelope -/

/-- The status of a number, if it has one. -/
def Status.ofNumber : ℕ → Option Status
  | 0 => some .unspecified
  | 1 => some .ok
  | 2 => some .notFound
  | 3 => some .typeMismatch
  | 4 => some .invalid
  | 5 => some .readOnly
  | 6 => some .storageError
  | _ => none

/-- A `Value` from its fields. -/
def PbValue.ofFields (fs : List Field) : PbValue where
  type := (Int32.ofNat (lastUint 1 fs)).toInt
  int32Val := Int32.ofNat (lastUint 2 fs)
  uint32Val := UInt32.ofNat (lastUint 3 fs)
  uint64Val := UInt64.ofNat (lastUint 4 fs)
  bytesVal := (lastBytes 5 fs).getD []

/-- The `Value` under a number, if there is one; its bytes have to be a message. -/
def valueOf (k : ℕ) (fs : List Field) : Option (Option PbValue) :=
  match lastBytes k fs with
  | none => some none
  | some bs => (unwire bs).map fun fs => some (PbValue.ofFields fs)

/-- The text or the bytes under a number. -/
def bytesOf (k : ℕ) (fs : List Field) : Bytes := (lastBytes k fs).getD []

/-- The number under a number. -/
def uint32Of (k : ℕ) (fs : List Field) : UInt32 := UInt32.ofNat (lastUint k fs)

/-- The status under the number 1. -/
def statusOf (fs : List Field) : Option Status := Status.ofNumber (lastUint 1 fs)

/-- A body from its number in the `oneof` and the fields of its message. -/
def Body.ofFields (fs : List Field) : ℕ → Option Body
  | 10 => (valueOf 2 fs).map fun value => .writeConfigRequest ⟨bytesOf 1 fs, value⟩
  | 11 => (statusOf fs).map fun status => .writeConfigResponse ⟨status, bytesOf 2 fs⟩
  | 12 => some (.readConfigRequest (bytesOf 1 fs))
  | 13 =>
    (statusOf fs).bind fun status =>
      (valueOf 2 fs).map fun value => .readConfigResponse ⟨status, value, bytesOf 3 fs⟩
  | 14 => some (.sendTrapRequest (bytesOf 1 fs))
  | 15 => (statusOf fs).map fun status => .sendTrapResponse ⟨status, bytesOf 2 fs⟩
  | 16 => some (.pingRequest (uint32Of 1 fs))
  | 17 => some (.pingResponse (uint32Of 1 fs))
  | _ => none

/-- The body of an envelope: the field of the `oneof` that was sent last. -/
def bodyOf (fs : List Field) : Option Body :=
  match (fs.filter fun f => 10 ≤ f.number ∧ f.number ≤ 17).getLast? with
  | none => some .empty
  | some ⟨_, .uint _⟩ => none
  | some ⟨k, .bytes bs⟩ => (unwire bs).bind fun fs => Body.ofFields fs k

/-- An envelope from its bytes. -/
def Envelope.ofWire (s : Bytes) : Option Envelope :=
  (unwire s).bind fun fs => (bodyOf fs).map fun body => ⟨uint32Of 1 fs, body⟩

/-- The 64 bits of an `int32` give it back. -/
theorem ofNat_int64Bits {v : ℤ} (hle : -2 ^ 31 ≤ v) (hlt : v < 2 ^ 31) :
    (Int32.ofNat (int64Bits v)).toInt = v := by
  have hnonneg := Int.emod_nonneg v (show (2 : ℤ) ^ 64 ≠ 0 by norm_num)
  rw [int64Bits, Int32.toInt_ofNat', Int.toNat_of_nonneg hnonneg, Int.bmod_def]
  norm_num at *
  omega

theorem ValueType.number_bounds (ty : ValueType) : -2 ^ 31 ≤ ty.number ∧ ty.number < 2 ^ 31 := by
  cases ty <;> decide

/-- A `Value` of one of the types of the schema. -/
def PbValue.Typed (v : PbValue) : Prop := ∃ ty : ValueType, v.type = ty.number

theorem PbValue.ofFields_fields {v : PbValue} (h : v.Typed) : ofFields v.fields = v := by
  have htype : (Int32.ofNat (int64Bits v.type)).toInt = v.type := by
    obtain ⟨ty, hty⟩ := h
    rw [hty]
    exact ofNat_int64Bits ty.number_bounds.1 ty.number_bounds.2
  have hint : Int32.ofNat (int64Bits v.int32Val.toInt) = v.int32Val :=
    Int32.toInt_inj.mp (ofNat_int64Bits v.int32Val.le_toInt v.int32Val.toInt_lt)
  simp [PbValue.ofFields, PbValue.fields, lastUint, lastBytes, htype, hint]

@[simp] theorem uints_valueField (j k : ℕ) (value : Option PbValue) :
    uints k (valueField j value) = [] := by
  cases value <;> rfl

@[simp] theorem runs_valueField_ne {j k : ℕ} (h : j ≠ k) (value : Option PbValue) :
    runs k (valueField j value) = [] := by
  cases value with
  | none => rfl
  | some v => exact runs_messageField_ne _ h

/-- A `Value` is read back from among other fields. -/
theorem valueOf_eq {k : ℕ} {fs : List Field} {value : Option PbValue}
    (hruns : runs k fs = runs k (valueField k value)) (h : ∀ v ∈ value, v.Typed) :
    valueOf k fs = some value := by
  rw [valueOf, lastBytes, hruns]
  cases value with
  | none => rfl
  | some v =>
    simp [valueField, unwire_wire, PbValue.ofFields_fields (h v rfl)]

theorem Status.ofNumber_number (status : Status) : Status.ofNumber status.number = some status := by
  cases status <;> rfl

/-- The field of a body is the one found in an envelope. -/
theorem bodyOf_messageField {n k : ℕ} (hk : 10 ≤ k ∧ k ≤ 17) (fs : List Field) :
    bodyOf (uintField 1 n ++ messageField k fs) = Body.ofFields fs k := by
  have hid : (uintField 1 n).filter (fun f => 10 ≤ f.number ∧ f.number ≤ 17) = [] := by
    rw [uintField]
    split_ifs <;> rfl
  rw [bodyOf, List.filter_append, hid]
  simp [messageField, hk, unwire_wire]

/-- The `Value` in a body, if there is one. -/
def Body.value : Body → Option PbValue
  | .writeConfigRequest req => req.value
  | .readConfigResponse resp => resp.value
  | _ => none

/-- **An envelope is read back from its bytes**, however long its texts are. -/
theorem Envelope.ofWire_wire {e : Envelope} (hset : e.body ≠ .empty)
    (h : ∀ v ∈ e.body.value, v.Typed) : Envelope.ofWire e.wire = some e := by
  obtain ⟨id, body⟩ := e
  have hid : uint32Of 1 (uintField 1 id.toNat ++ body.fields) = id := by
    cases body <;> simp [uint32Of, lastUint, Body.fields]
  rw [Envelope.ofWire, Envelope.wire, unwire_wire, Option.bind_some, hid]
  suffices hbody : bodyOf (uintField 1 id.toNat ++ body.fields) = some body by rw [hbody]; rfl
  cases body with
  | empty => exact absurd rfl hset
  | writeConfigRequest req =>
    have hvalue : valueOf 2 req.fields = some req.value :=
      valueOf_eq (by simp [WriteConfigRequest.fields]) h
    rw [Body.fields, bodyOf_messageField (by decide), Body.ofFields, hvalue]
    simp [bytesOf, lastBytes, WriteConfigRequest.fields]
  | readConfigResponse resp =>
    have hvalue : valueOf 2 resp.fields = some resp.value :=
      valueOf_eq (by simp [ReadConfigResponse.fields]) h
    rw [Body.fields, bodyOf_messageField (by decide), Body.ofFields, hvalue]
    simp [bytesOf, lastBytes, statusOf, lastUint, ReadConfigResponse.fields,
      Status.ofNumber_number]
  | writeConfigResponse resp | sendTrapResponse resp =>
    rw [Body.fields, bodyOf_messageField (by decide), Body.ofFields]
    simp [bytesOf, lastBytes, statusOf, lastUint, statusFields, Status.ofNumber_number]
  | readConfigRequest bs | sendTrapRequest bs =>
    rw [Body.fields, bodyOf_messageField (by decide), Body.ofFields]
    simp [bytesOf, lastBytes]
  | pingRequest nonce | pingResponse nonce =>
    rw [Body.fields, bodyOf_messageField (by decide), Body.ofFields]
    simp [uint32Of, lastUint]

theorem Envelope.ofWire_wire_of_conforms {e : Envelope} (h : e.Conforms) :
    Envelope.ofWire e.wire = some e := by
  obtain ⟨id, body⟩ := e
  cases body with
  | empty => exact h.elim
  | writeConfigRequest req =>
    exact Envelope.ofWire_wire (by simp) fun v hv => (h.2 v hv).type_eq
  | readConfigResponse resp =>
    exact Envelope.ofWire_wire (by simp) fun v hv => (h.2 v hv).type_eq
  | _ => exact Envelope.ofWire_wire (by simp) (by simp [Body.value])

/-! ### The two libraries -/

/-- What encodes and decodes: `encode_to_vec` and `decode` of prost, `pb_encode` (into as much
room as it takes) and `pb_decode` of nanopb. -/
structure PbCodec where
  encodeToVec : Envelope → Bytes
  decode : Bytes → Option Envelope
  pbEncode : Envelope → Bytes
  pbDecode : Bytes → Option Envelope

/-- **What is asked of prost and nanopb**: on the envelopes of the schema each decodes what the
other has encoded, and an encoding is as long as the wire format makes it. -/
structure PbCodec.Lawful (pb : PbCodec) : Prop where
  pbDecode_encodeToVec : ∀ {e : Envelope}, e.Conforms → pb.pbDecode (pb.encodeToVec e) = some e
  decode_pbEncode : ∀ {e : Envelope}, e.Conforms → pb.decode (pb.pbEncode e) = some e
  length_encodeToVec : ∀ {e : Envelope}, e.Conforms → (pb.encodeToVec e).length = e.wire.length
  length_pbEncode : ∀ {e : Envelope}, e.Conforms → (pb.pbEncode e).length = e.wire.length

/-- The wire format itself, on both sides. -/
def wireCodec : PbCodec := ⟨Envelope.wire, Envelope.ofWire, Envelope.wire, Envelope.ofWire⟩

/-- **The schema can be met.** -/
theorem wireCodec_lawful : wireCodec.Lawful where
  pbDecode_encodeToVec := Envelope.ofWire_wire_of_conforms
  decode_pbEncode := Envelope.ofWire_wire_of_conforms
  length_encodeToVec := fun _ => rfl
  length_pbEncode := fun _ => rfl

/-! ### Texts -/

/-- ASCII without NUL: what the server's own words are made of. -/
def Plain (bs : Bytes) : Prop := ∀ b ∈ bs, 0 < b.toNat ∧ b.toNat < 128

instance (bs : Bytes) : Decidable (Plain bs) :=
  decidable_of_iff (bs.all fun b => decide (0 < b.toNat) && decide (b.toNat < 128))
    (by simp [Plain])

section Text

variable {bs cs : Bytes}

theorem plain_append : Plain (bs ++ cs) ↔ Plain bs ∧ Plain cs := List.forall_mem_append

theorem Plain.take (hb : Plain bs) (n : ℕ) : Plain (bs.take n) :=
  fun b hmem => hb b (List.mem_of_mem_take hmem)

theorem Plain.not_mem_zero (hb : Plain bs) : (0 : UInt8) ∉ bs :=
  fun hmem => Nat.lt_irrefl 0 (hb 0 hmem).1

/-- ASCII is UTF-8. -/
theorem Plain.utf8 (hb : Plain bs) : ∃ s, bs = utf8 s := by
  induction bs with
  | nil => exact ⟨"", rfl⟩
  | cons b bs ih =>
    obtain ⟨s, hs⟩ := ih fun c hc => hb c (List.mem_cons_of_mem b hc)
    obtain ⟨-, hlt⟩ := hb b List.mem_cons_self
    refine ⟨String.ofList (Char.ofNat b.toNat :: s.toList), ?_⟩
    rw [AgentxSubagent.utf8, String.toList_ofList, List.flatMap_cons, Utf8.encodeChar_ofNat hlt, hs]
    rfl

theorem utf8_append (s t : String) : utf8 (s ++ t) = utf8 s ++ utf8 t := by
  rw [utf8, String.toList_append, List.flatMap_append]
  rfl

theorem plain_decimal (n : ℕ) : Plain (decimal n) := by
  intro b hb
  obtain ⟨hge, hle⟩ := isDigit_iff.mp (isDigit_of_mem_decimal hb)
  omega

theorem plain_decimalInt (v : ℤ) : Plain (decimalInt v) := by
  rw [decimalInt]
  split_ifs
  · exact List.forall_mem_cons.mpr ⟨by decide, plain_decimal _⟩
  · exact plain_decimal _

/-- What the server prints into a message is a text of its size. -/
theorem Plain.text_snprintf128 (hb : Plain bs) : Text 128 (snprintf128 bs) where
  length_lt := lt_of_le_of_lt (List.length_take_le _ _) (by decide)
  no_nul := (hb.take 127).not_mem_zero
  utf8 := (hb.take 127).utf8

/-- A text of the client's quoted in a message: it is not cut, so it stays UTF-8. -/
theorem Text.text_quoted {key : Bytes} (hkey : Text 64 key) (hb : Plain bs) (hc : Plain cs)
    (hlen : bs.length + cs.length ≤ 64) : Text 128 (snprintf128 (bs ++ key ++ cs)) := by
  have hkeylen := hkey.length_lt
  have hwhole : snprintf128 (bs ++ key ++ cs) = bs ++ key ++ cs := by
    refine List.take_of_length_le ?_
    simp only [List.length_append]
    omega
  rw [hwhole]
  refine ⟨?_, ?_, ?_⟩
  · simp only [List.length_append]
    omega
  · simp only [List.mem_append, not_or]
    exact ⟨⟨hb.not_mem_zero, hkey.no_nul⟩, hc.not_mem_zero⟩
  · obtain ⟨s, hs⟩ := hb.utf8
    obtain ⟨t, ht⟩ := hkey.utf8
    obtain ⟨u, hu⟩ := hc.utf8
    exact ⟨s ++ t ++ u, by rw [utf8_append, utf8_append, hs, ht, hu]⟩

end Text

/-! ### What the handlers answer -/

section Answers

variable {m : Modes}

theorem Scalar.plain_name (s : Scalar) : Plain s.name := by
  cases s <;> decide

/-- An entry of the allowlist has a plain name. -/
theorem plain_of_findConfigObject {key : Bytes} {obj : ConfigObject}
    (h : findConfigObject m key = some obj) : Plain obj.name := by
  obtain ⟨hnone, -⟩ | ⟨s, -, hsome⟩ := findConfigObject_cases m key
  · rw [hnone] at h
    exact absurd h (by simp)
  · obtain rfl := Option.some.inj (hsome.symm.trans h)
    rw [(Prod.mk.inj (s.configObject_agrees m).loc).2]
    exact s.plain_name

theorem plain_storageStrerror (rc : StorageErr) : Plain (storageStrerror rc) := by
  cases rc <;> decide

/-- The message about a storage error. -/
theorem text_storageError (rc : StorageErr) :
    Text 128 (snprintf128 (ascii "storage error: " ++ storageStrerror rc)) :=
  (plain_append.mpr ⟨by decide, plain_storageStrerror rc⟩).text_snprintf128

theorem text_nil : Text 128 [] := (show Plain [] by decide).text_snprintf128

theorem text_writeAnswer (r : Except StorageErr Unit) : Text 128 (writeAnswer r).message := by
  rcases r with rc | -
  · exact text_storageError rc
  · exact text_nil

theorem text_outOfRange {obj : ConfigObject} (hobj : Plain obj.name) {what value : Bytes}
    (hwhat : Plain what) (hvalue : Plain value) : Text 128 (outOfRange obj what value) := by
  refine Plain.text_snprintf128 ?_
  simp only [plain_append, hobj, hwhat, hvalue, plain_decimalInt, and_true]
  decide

/-- The message of an answer to a write request. -/
theorem text_handleWriteConfig (f : Fault) {req : WriteConfigRequest} (hkey : Text 64 req.key)
    (envs : Envs) : Text 128 (handleWriteConfig m f req envs).1.message := by
  rw [handleWriteConfig]
  rcases hfind : findConfigObject m req.key with _ | obj
  · exact hkey.text_quoted (by decide) (by decide) (by decide)
  have hobj := plain_of_findConfigObject hfind
  rcases req.value with _ | value
  · exact Plain.text_snprintf128 (by decide)
  simp only
  by_cases htype : value.type ≠ obj.type.number
  · rw [if_pos htype]
    refine Plain.text_snprintf128 ?_
    simp only [plain_append, hobj, plain_decimalInt, and_true]
    decide
  rw [if_neg htype]
  cases obj.type with
  | int32 =>
    simp only
    split_ifs
    · exact text_outOfRange hobj (by decide) (plain_decimalInt _)
    · exact text_writeAnswer _
  | uint32 =>
    simp only
    split_ifs
    · exact text_outOfRange hobj (by decide) (plain_decimal _)
    · exact text_writeAnswer _
  | bytes =>
    simp only
    split_ifs
    · exact text_outOfRange hobj (by decide) (plain_decimal _)
    · exact text_writeAnswer _
  | unspecified | uint64 =>
    refine Plain.text_snprintf128 ?_
    simp only [plain_append, hobj, and_true]
    decide

/-- A value returned by `storage_get_bytes` fits the caller's buffer. -/
theorem length_le_of_storageGetBytes {f : Fault} {key : Bytes} {len : ℕ} {e : MdbEnv} {v : Bytes}
    (h : (storageGetBytes f key len e).1.1 = .ok v) : v.length ≤ len := by
  rw [storageGetBytes, withReadTxn] at h
  rcases hbegin : beginReadTxn f e with rc | ⟨txn, e'⟩
  · simp [hbegin] at h
  simp only [hbegin, txnGetBytesImpl] at h
  rcases hraw : txnGetRaw f txn key with rc | data
  · simp [hraw] at h
  simp only [hraw] at h
  rcases hdecode : decodeHeader data .bytes with rc | payload
  · simp [hdecode] at h
  simp only [hdecode] at h
  split_ifs at h with hbig
  obtain rfl := Except.ok.inj h
  exact Nat.le_of_not_lt hbig

/-- An answer to a read request conforms when the value in it does. -/
theorem readAnswer_conforms {value : PbValue} (h : value.Conforms) (r : Except StorageErr Unit) :
    (Body.readConfigResponse (readAnswer value r)).Conforms := by
  rcases r with rc | -
  · exact ⟨text_storageError rc, by simp [readAnswer]⟩
  · refine ⟨text_nil, ?_⟩
    rintro v ⟨⟩
    exact h

/-- The answer to a read request. -/
theorem handleReadConfig_conforms (rf : ReadFault) {key : Bytes} (hkey : Text 64 key)
    (envs : Envs) : (Body.readConfigResponse (handleReadConfig m rf key envs)).Conforms := by
  rw [handleReadConfig]
  rcases findConfigObject m key with _ | obj
  · exact ⟨hkey.text_quoted (by decide) (by decide) (by decide), by simp⟩
  simp only
  cases obj.type with
  | int32 =>
    simp only
    rcases (storageGetInt rf.fault obj.name (.idle (envs obj.env))).1 with rc | v
    · exact readAnswer_conforms ⟨⟨.int32, rfl⟩, by simp [PbValue.initZero]⟩ _
    · exact readAnswer_conforms ⟨⟨.int32, rfl⟩, by simp [PbValue.initZero]⟩ _
  | uint32 =>
    simp only
    rcases (storageGetUint rf.fault obj.name (.idle (envs obj.env))).1 with rc | v
    · exact readAnswer_conforms ⟨⟨.uint32, rfl⟩, by simp [PbValue.initZero]⟩ _
    · exact readAnswer_conforms ⟨⟨.uint32, rfl⟩, by simp [PbValue.initZero]⟩ _
  | bytes =>
    simp only
    rcases hget : (storageGetBytes rf.fault obj.name 256 (.idle (envs obj.env))).1.1 with rc | v
    · exact readAnswer_conforms ⟨⟨.bytes, rfl⟩, by simp [PbValue.initZero]⟩ _
    · exact readAnswer_conforms ⟨⟨.bytes, rfl⟩, length_le_of_storageGetBytes hget⟩ _
  | unspecified | uint64 => exact ⟨text_nil, by simp⟩

/-- The answer to a trap request. -/
theorem text_handleSendTrap (af : AlarmFaults) {trapName : Bytes} (h : Text 64 trapName)
    (a : Agent) : Text 128 (handleSendTrap m af trapName a).1.message := by
  simp only [handleSendTrap]
  split_ifs
  · exact h.text_quoted (by decide) (by decide) (by decide)
  · exact text_nil
  · exact Plain.text_snprintf128 (by decide)

/-- **What is answered to a conforming request conforms.** -/
theorem answerBody_conforms {f : FrameFaults} {a a' : Agent} {body body' : Body}
    (h : body.Conforms) (hans : answerBody m f a body = some (body', a')) : body'.Conforms := by
  have hresponse : Text 128 unexpectedResponse := Plain.text_snprintf128 (by decide)
  cases body with
  | empty | pingResponse => exact absurd hans (by simp [answerBody])
  | writeConfigRequest req =>
    obtain ⟨rfl, -⟩ := Prod.mk.inj (Option.some.inj hans)
    exact text_handleWriteConfig f.write h.1 a.envs
  | readConfigRequest key =>
    obtain ⟨rfl, -⟩ := Prod.mk.inj (Option.some.inj hans)
    exact handleReadConfig_conforms f.read h a.envs
  | sendTrapRequest trapName =>
    obtain ⟨rfl, -⟩ := Prod.mk.inj (Option.some.inj hans)
    exact text_handleSendTrap f.alarm h a
  | pingRequest nonce =>
    obtain ⟨rfl, -⟩ := Prod.mk.inj (Option.some.inj hans)
    trivial
  | writeConfigResponse | sendTrapResponse =>
    obtain ⟨rfl, -⟩ := Prod.mk.inj (Option.some.inj hans)
    exact hresponse
  | readConfigResponse =>
    obtain ⟨rfl, -⟩ := Prod.mk.inj (Option.some.inj hans)
    exact ⟨hresponse, by simp⟩

end Answers

end AgentxSubagent
