import AgentxSubagent.Agent.Trap
import AgentxSubagent.Ipc.Framing
import AgentxSubagent.Lib.Decimal

/-!
# The requests of the IPC server

The request handling of `src/ipc_server.c`: the allowlist of configuration objects, the three
handlers of configuration and trap requests, and `handle_frame`, which decodes one frame and
answers it. The decoder itself is nanopb's; it is a parameter here, any function from byte
strings to envelopes that may fail.

* `AgentxSubagent.handleWriteConfig_cases`: a write request is answered `STATUS_OK` exactly
  when it stored an accepted value in the environment of its scalar, and is otherwise
  answered something else and changes nothing.
* `AgentxSubagent.handleFrame_cases`: a frame leaves what is stored, or stores an accepted
  value where its scalar is kept.
* `AgentxSubagent.handleFrame_okWrite`: which writes are acknowledged can be told from the
  frame.
-/

namespace AgentxSubagent

open Decimal

/-! ### Messages -/

/-- `ValueType`. -/
inductive ValueType
  | unspecified
  | int32
  | uint32
  | uint64
  | bytes
  deriving DecidableEq

/-- The number of a value type on the wire. -/
def ValueType.number : ValueType → ℤ
  | .unspecified => 0
  | .int32 => 1
  | .uint32 => 2
  | .uint64 => 3
  | .bytes => 4

/-- `Status`. -/
inductive Status
  | unspecified
  | ok
  | notFound
  | typeMismatch
  | invalid
  | readOnly
  | storageError
  deriving DecidableEq

/-- A `Value` message. An enumeration field holds whatever number came over the wire. -/
structure PbValue where
  type : ℤ
  int32Val : Int32
  uint32Val : UInt32
  uint64Val : UInt64
  bytesVal : Bytes
  deriving DecidableEq

/-- `agentx_ipc_v1_Value_init_zero`. -/
def PbValue.initZero : PbValue := ⟨0, 0, 0, 0, []⟩

/-- `IpcValue` of `rust-app/src/ipc/mod.rs`: the values a client can ask to store. -/
inductive IpcValue
  | int32 (v : Int32)
  | uint32 (v : UInt32)
  | uint64 (v : UInt64)
  | bytes (v : Bytes)
  deriving DecidableEq

/-- `IpcValue::into_pb`. -/
def IpcValue.intoPb : IpcValue → PbValue
  | .int32 v => { PbValue.initZero with type := ValueType.number .int32, int32Val := v }
  | .uint32 v => { PbValue.initZero with type := ValueType.number .uint32, uint32Val := v }
  | .uint64 v => { PbValue.initZero with type := ValueType.number .uint64, uint64Val := v }
  | .bytes v => { PbValue.initZero with type := ValueType.number .bytes, bytesVal := v }

/-- `WriteConfigRequest`. -/
structure WriteConfigRequest where
  key : Bytes
  value : Option PbValue
  deriving DecidableEq

/-- `WriteConfigResponse`. -/
structure WriteConfigResponse where
  status : Status
  message : Bytes
  deriving DecidableEq

/-- `ReadConfigResponse`. -/
structure ReadConfigResponse where
  status : Status
  value : Option PbValue
  message : Bytes
  deriving DecidableEq

/-- `SendTrapResponse`. -/
structure SendTrapResponse where
  status : Status
  message : Bytes
  deriving DecidableEq

/-- The `body` of an envelope. -/
inductive Body
  | empty
  | writeConfigRequest (req : WriteConfigRequest)
  | writeConfigResponse (resp : WriteConfigResponse)
  | readConfigRequest (key : Bytes)
  | readConfigResponse (resp : ReadConfigResponse)
  | sendTrapRequest (trapName : Bytes)
  | sendTrapResponse (resp : SendTrapResponse)
  | pingRequest (nonce : UInt32)
  | pingResponse (nonce : UInt32)
  deriving DecidableEq

/-- `Envelope`. -/
structure Envelope where
  requestId : UInt32
  body : Body
  deriving DecidableEq

/-- `snprintf` into a `message` of 128 bytes. -/
def snprintf128 (text : Bytes) : Bytes := text.take 127

/-- `%d` and `%lld`. -/
def decimalInt (v : ℤ) : Bytes := if v < 0 then 45 :: decimal v.natAbs else decimal v.natAbs

/-! ### The allowlist -/

/-- `config_object_t`. -/
structure ConfigObject where
  name : Bytes
  type : ValueType
  env : EnvId
  min : ℤ
  max : ℤ

/-- The entry of a scalar in `g_config_objects`. -/
def Scalar.configObject (m : Modes) : Scalar → ConfigObject
  | .deviceName => ⟨ascii "deviceName", .bytes, m.deviceName.env, 0, 63⟩
  | .tempThresholdMilliC =>
    ⟨ascii "tempThresholdMilliC", .int32, m.tempThresholdMilliC.env, -40000, 125000⟩
  | .adminStatusExt => ⟨ascii "adminStatusExt", .int32, m.adminStatusExt.env, 1, 3⟩
  | .sampleIntervalSec => ⟨ascii "sampleIntervalSec", .uint32, m.sampleIntervalSec.env, 1, 86400⟩

/-- `g_config_objects`. -/
def gConfigObjects (m : Modes) : List ConfigObject :=
  [Scalar.configObject m .deviceName, Scalar.configObject m .tempThresholdMilliC,
    Scalar.configObject m .adminStatusExt, Scalar.configObject m .sampleIntervalSec]

/-- `find_config_object`. -/
def findConfigObject (m : Modes) (key : Bytes) : Option ConfigObject :=
  (gConfigObjects m).find? fun obj => obj.name = key

/-- `storage_rc_to_status` on an error code. -/
def storageRcToStatus : StorageErr → Status
  | .notFound => .notFound
  | .typeMismatch => .typeMismatch
  | .inval => .invalid
  | .tooBig => .invalid
  | .full => .storageError
  | .busy => .storageError
  | .io => .storageError
  | .readOnly => .storageError

/-! ### Request handling -/

/-- The answer to a write that was attempted: `STATUS_OK` without a message, or the storage
error. -/
def writeAnswer : Except StorageErr Unit → WriteConfigResponse
  | .ok _ => ⟨.ok, []⟩
  | .error rc => ⟨storageRcToStatus rc, snprintf128 (ascii "storage error: " ++ storageStrerror rc)⟩

/-- The message for a number out of range. -/
def outOfRange (obj : ConfigObject) (what value : Bytes) : Bytes :=
  snprintf128 (ascii "'" ++ obj.name ++ ascii "' " ++ what ++ ascii " " ++ value ++
    ascii " out of range [" ++ decimalInt obj.min ++ ascii ", " ++ decimalInt obj.max ++ ascii "]")

/-- `handle_write_config`; `f` is what fails in the storage. -/
def handleWriteConfig (m : Modes) (f : Fault) (req : WriteConfigRequest) (envs : Envs) :
    WriteConfigResponse × Envs :=
  match findConfigObject m req.key with
  | none => (⟨.invalid, snprintf128 (ascii "unknown config key '" ++ req.key ++ ascii "'")⟩, envs)
  | some obj =>
    match req.value with
    | none => (⟨.invalid, snprintf128 (ascii "missing value")⟩, envs)
    | some value =>
      if value.type ≠ obj.type.number then
        (⟨.typeMismatch, snprintf128 (ascii "'" ++ obj.name ++ ascii "' expects value type " ++
          decimalInt obj.type.number ++ ascii ", got " ++ decimalInt value.type)⟩, envs)
      else
        match obj.type with
        | .int32 =>
          let v := value.int32Val
          if v.toInt < obj.min ∨ v.toInt > obj.max then
            (⟨.invalid, outOfRange obj (ascii "value") (decimalInt v.toInt)⟩, envs)
          else
            let r := envs.setValue f obj.env obj.name (.int32 v)
            (writeAnswer r.1, r.2)
        | .uint32 =>
          let v := value.uint32Val
          if (v.toNat : ℤ) < obj.min ∨ (v.toNat : ℤ) > obj.max then
            (⟨.invalid, outOfRange obj (ascii "value") (decimal v.toNat)⟩, envs)
          else
            let r := envs.setValue f obj.env obj.name (.uint32 v)
            (writeAnswer r.1, r.2)
        | .bytes =>
          let len := value.bytesVal.length
          if (len : ℤ) < obj.min ∨ (len : ℤ) > obj.max then
            (⟨.invalid, outOfRange obj (ascii "length") (decimal len)⟩, envs)
          else
            let r := envs.setValue f obj.env obj.name (.bytes value.bytesVal)
            (writeAnswer r.1, r.2)
        | _ =>
          (⟨.typeMismatch, snprintf128 (ascii "'" ++ obj.name ++
            ascii "' has no supported value type")⟩, envs)

/-- The answer to a read that was attempted. -/
def readAnswer (value : PbValue) : Except StorageErr Unit → ReadConfigResponse
  | .ok _ => ⟨.ok, some value, []⟩
  | .error rc =>
    ⟨storageRcToStatus rc, none, snprintf128 (ascii "storage error: " ++ storageStrerror rc)⟩

/-- `handle_read_config`; `rf` is what fails in the storage. -/
def handleReadConfig (m : Modes) (rf : ReadFault) (key : Bytes) (envs : Envs) :
    ReadConfigResponse :=
  match findConfigObject m key with
  | none => ⟨.invalid, none, snprintf128 (ascii "unknown config key '" ++ key ++ ascii "'")⟩
  | some obj =>
    let value := { PbValue.initZero with type := obj.type.number }
    match obj.type with
    | .int32 =>
      match (storageGetInt rf.fault obj.name (.idle (envs obj.env))).1 with
      | .ok v => readAnswer { value with int32Val := v } (.ok ())
      | .error rc => readAnswer value (.error rc)
    | .uint32 =>
      match (storageGetUint rf.fault obj.name (.idle (envs obj.env))).1 with
      | .ok v => readAnswer { value with uint32Val := v } (.ok ())
      | .error rc => readAnswer value (.error rc)
    | .bytes =>
      match (storageGetBytes rf.fault obj.name 256 (.idle (envs obj.env))).1.1 with
      | .ok v => readAnswer { value with bytesVal := v } (.ok ())
      | .error rc => readAnswer value (.error rc)
    | _ => ⟨.typeMismatch, none, []⟩

/-- `handle_send_trap`; `af` is what fails in the storage and in the allocations. -/
def handleSendTrap (m : Modes) (af : AlarmFaults) (trapName : Bytes) (a : Agent) :
    SendTrapResponse × Agent :=
  if trapName ≠ ascii "demoTempAlarm" then
    (⟨.invalid, snprintf128 (ascii "unsupported trap name '" ++ trapName ++ ascii "'")⟩, a)
  else
    let sent := a.demoSendTempAlarm m af
    if sent.1 = 0 then (⟨.ok, []⟩, sent.2)
    else (⟨.storageError, snprintf128 (ascii "failed to emit demoTempAlarm")⟩, sent.2)

/-! ### One frame -/

/-- What fails while one frame is handled: a storage write, a storage read, what a trap needs,
and sending the answer. -/
structure FrameFaults where
  write : Fault
  read : ReadFault
  alarm : AlarmFaults
  unsent : Bool

/-- Nothing fails. -/
def FrameFaults.none : FrameFaults := ⟨.none, .none, .none, false⟩

/-- What one frame led to: the envelope it decoded to and the answer, and whether that could
be sent. -/
structure FrameRecord where
  request : Envelope
  response : Envelope
  sent : Bool

/-- The message answered to a response-shaped body. -/
def unexpectedResponse : Bytes := snprintf128 (ascii "unexpected response envelope from client")

/-- The switch of `handle_frame` over the body of a request: the body of the answer, or `none`
when the connection is closed. -/
def answerBody (m : Modes) (f : FrameFaults) (a : Agent) : Body → Option (Body × Agent)
  | .pingRequest nonce => some (.pingResponse nonce, a)
  | .writeConfigRequest req =>
    let r := handleWriteConfig m f.write req a.envs
    some (.writeConfigResponse r.1, { a with envs := r.2 })
  | .readConfigRequest key =>
    some (.readConfigResponse (handleReadConfig m f.read key a.envs), a)
  | .sendTrapRequest trapName =>
    let r := handleSendTrap m f.alarm trapName a
    some (.sendTrapResponse r.1, r.2)
  | .writeConfigResponse _ => some (.writeConfigResponse ⟨.invalid, unexpectedResponse⟩, a)
  | .readConfigResponse _ => some (.readConfigResponse ⟨.invalid, none, unexpectedResponse⟩, a)
  | .sendTrapResponse _ => some (.sendTrapResponse ⟨.invalid, unexpectedResponse⟩, a)
  | .pingResponse _ => none
  | .empty => none

/-- `handle_frame`: what was answered, the subagent afterwards, and whether the connection is
still open. -/
def handleFrame (m : Modes) (pbDecode : Bytes → Option Envelope) (f : FrameFaults) (a : Agent)
    (payload : Bytes) : Option FrameRecord × Agent × Bool :=
  match pbDecode payload with
  | none => (none, a, false)
  | some req =>
    match answerBody m f a req.body with
    | none => (none, a, false)
    | some (body, a') => (some ⟨req, ⟨req.requestId, body⟩, !f.unsent⟩, a', !f.unsent)

/-! ### What a write request does -/

/-- The typed value a `Value` message stands for. -/
def PbValue.toValue (value : PbValue) : Option Value :=
  if value.type = ValueType.number .int32 then some (.int32 value.int32Val)
  else if value.type = ValueType.number .uint32 then some (.uint32 value.uint32Val)
  else if value.type = ValueType.number .uint64 then some (.uint64 value.uint64Val)
  else if value.type = ValueType.number .bytes then some (.bytes value.bytesVal)
  else none

/-- The value a write request asks to store for a scalar: it names the scalar, and the scalar
accepts it. -/
def WriteConfigRequest.stores (m : Modes) (s : Scalar) (req : WriteConfigRequest) : Option Value :=
  if req.key = s.name then
    (req.value.bind PbValue.toValue).filter fun v => (s.object m).syn.Accepts v
  else none

theorem WriteConfigRequest.stores_eq_some {m : Modes} {s : Scalar} {req : WriteConfigRequest}
    {v : Value} :
    req.stores m s = some v ↔
      req.key = s.name ∧ req.value.bind PbValue.toValue = some v ∧ (s.object m).syn.Accepts v := by
  rw [WriteConfigRequest.stores]
  split_ifs with hkey
  · simp [hkey, Option.filter_eq_some_iff]
  · simp [hkey]

/-- A scalar is found under its name. -/
theorem findConfigObject_name (m : Modes) (s : Scalar) :
    findConfigObject m s.name = some (s.configObject m) := by
  cases s <;> rfl

/-- The allowlist has the scalars, under their names, and nothing else. -/
theorem findConfigObject_cases (m : Modes) (key : Bytes) :
    (findConfigObject m key = none ∧ ∀ s : Scalar, key ≠ s.name) ∨
      ∃ s : Scalar, key = s.name ∧ findConfigObject m key = some (s.configObject m) := by
  rcases hfind : findConfigObject m key with _ | obj
  · refine Or.inl ⟨rfl, ?_⟩
    rintro s rfl
    rw [findConfigObject_name] at hfind
    exact absurd hfind (by simp)
  · right
    have hname : obj.name = key := by simpa using List.find?_some hfind
    have hmem : obj ∈ gConfigObjects m := List.mem_of_find?_eq_some hfind
    simp only [gConfigObjects, List.mem_cons, List.not_mem_nil, or_false] at hmem
    rcases hmem with rfl | rfl | rfl | rfl
    · exact ⟨.deviceName, hname.symm, rfl⟩
    · exact ⟨.tempThresholdMilliC, hname.symm, rfl⟩
    · exact ⟨.adminStatusExt, hname.symm, rfl⟩
    · exact ⟨.sampleIntervalSec, hname.symm, rfl⟩

/-- **The two outcomes of a write request.** It is answered something else than `STATUS_OK` and
changes nothing: then there is nothing it asks to store, or storing it fails. Or it is answered
`STATUS_OK` and stores a value its scalar accepts where the scalar is kept. -/
def WriteOutcome (m : Modes) (f : Fault) (req : WriteConfigRequest) (envs : Envs)
    (r : WriteConfigResponse × Envs) : Prop :=
  (r.1.status ≠ .ok ∧ r.2 = envs ∧ ∀ s v, req.stores m s = some v → ¬f.Spares v) ∨
    ∃ s v, req.stores m s = some v ∧ f.Spares v ∧ r = (⟨.ok, []⟩, envs.put (s.loc m) v.encode)

section Outcome

variable {m : Modes} {f : Fault} {req : WriteConfigRequest} {envs : Envs} {s : Scalar}

/-- A request refused because its scalar does not accept its value. -/
theorem writeOutcome_refused (hkey : req.key = s.name)
    (hval : ∀ v, req.value.bind PbValue.toValue = some v → ¬(s.object m).syn.Accepts v)
    {resp : WriteConfigResponse} (hresp : resp.status ≠ .ok) :
    WriteOutcome m f req envs (resp, envs) := by
  refine Or.inl ⟨hresp, rfl, fun t v hv => ?_⟩
  obtain ⟨hkey', hval', hacc⟩ := WriteConfigRequest.stores_eq_some.mp hv
  obtain rfl : s = t := Scalar.name_inj (hkey.symm.trans hkey')
  exact absurd hacc (hval v hval')

/-- A write of an accepted value that is attempted has one of the two outcomes. -/
theorem writeOutcome_setValue (hkey : req.key = s.name) {v : Value}
    (hval : req.value.bind PbValue.toValue = some v) (hacc : (s.object m).syn.Accepts v) :
    WriteOutcome m f req envs (writeAnswer (envs.setValue f (s.loc m).1 (s.loc m).2 v).1,
      (envs.setValue f (s.loc m).1 (s.loc m).2 v).2) := by
  have hiff := envs.setValue_ok_iff f (s.loc m).1 s.validKey_name v
  obtain ⟨rc, hset⟩ | ⟨-, hset⟩ := envs.setValue_cases f (s.loc m).1 (s.loc m).2 v
  · rw [hset]
    refine Or.inl ⟨by cases rc <;> simp [writeAnswer, storageRcToStatus], rfl, fun t w hw => ?_⟩
    obtain ⟨-, hval', -⟩ := WriteConfigRequest.stores_eq_some.mp hw
    obtain rfl : v = w := Option.some.inj (hval.symm.trans hval')
    exact fun hspare => absurd (hset ▸ hiff.mpr hspare) (by simp)
  · rw [hset]
    have hstores := WriteConfigRequest.stores_eq_some.mpr ⟨hkey, hval, hacc⟩
    have hok : (envs.setValue f (s.loc m).1 s.name v).1 = .ok () := congrArg Prod.fst hset
    exact Or.inr ⟨s, v, hstores, hiff.mp hok, rfl⟩

/-- A check in front of the write: whatever it refuses, the scalar does not accept, and what it
lets through the scalar does. -/
theorem writeOutcome_checked (hkey : req.key = s.name) {v : Value}
    (hval : req.value.bind PbValue.toValue = some v) {refused : Prop} [Decidable refused]
    (hacc : (s.object m).syn.Accepts v ↔ ¬refused) {resp : WriteConfigResponse}
    (hresp : resp.status ≠ .ok) :
    WriteOutcome m f req envs (if refused then (resp, envs)
      else (writeAnswer (envs.setValue f (s.loc m).1 (s.loc m).2 v).1,
        (envs.setValue f (s.loc m).1 (s.loc m).2 v).2)) := by
  split_ifs with hrefused
  · refine writeOutcome_refused hkey (fun w hw hacc' => ?_) hresp
    obtain rfl : v = w := Option.some.inj (hval.symm.trans hw)
    exact hacc.mp hacc' hrefused
  · exact writeOutcome_setValue hkey hval (hacc.mpr hrefused)

end Outcome

/-- An entry of the allowlist is right for a scalar: it names its key and its environment, and
the scalar's SYNTAX accepts exactly what has the type of the entry and passes its bounds. -/
structure ConfigObject.Agrees (obj : ConfigObject) (m : Modes) (s : Scalar) : Prop where
  loc : (obj.env, obj.name) = s.loc m
  int32 : ∀ v : Int32, (s.object m).syn.Accepts (.int32 v) ↔
    obj.type = .int32 ∧ ¬(v.toInt < obj.min ∨ v.toInt > obj.max)
  uint32 : ∀ v : UInt32, (s.object m).syn.Accepts (.uint32 v) ↔
    obj.type = .uint32 ∧ ¬((v.toNat : ℤ) < obj.min ∨ (v.toNat : ℤ) > obj.max)
  uint64 : ∀ v : UInt64, ¬(s.object m).syn.Accepts (.uint64 v)
  bytes : ∀ v : Bytes, (s.object m).syn.Accepts (.bytes v) ↔
    obj.type = .bytes ∧ ¬((v.length : ℤ) < obj.min ∨ (v.length : ℤ) > obj.max)

/-- **The allowlist agrees with the MIB.** -/
theorem Scalar.configObject_agrees (m : Modes) (s : Scalar) : (s.configObject m).Agrees m s := by
  cases s with
  | deviceName =>
    constructor
    · rfl
    all_goals simp [Scalar.object, Scalar.configObject, Syn.Accepts, InSome]
  | tempThresholdMilliC =>
    constructor
    · rfl
    all_goals simp [Scalar.object, Scalar.configObject, Syn.Accepts, InSome]
  | adminStatusExt =>
    constructor
    · rfl
    · intro v
      have hlabel : v ∈ [(1 : Int32), 2, 3] ↔ 1 ≤ v.toInt ∧ v.toInt ≤ 3 := label_iff_between
      simp only [Scalar.object, Scalar.configObject, Syn.Accepts, InSome, hlabel]
      simp
    all_goals simp [Scalar.object, Scalar.configObject, Syn.Accepts]
  | sampleIntervalSec =>
    constructor
    · rfl
    case uint32 =>
      intro v
      simp [Scalar.object, Scalar.configObject, Syn.Accepts, InSome]
      omega
    all_goals simp [Scalar.object, Scalar.configObject, Syn.Accepts]

/-- A `Value` message has the type of the value it stands for. -/
theorem PbValue.toValue_cases {value : PbValue} {v : Value} (h : value.toValue = some v) :
    (value.type = ValueType.number .int32 ∧ v = .int32 value.int32Val) ∨
      (value.type = ValueType.number .uint32 ∧ v = .uint32 value.uint32Val) ∨
      (value.type = ValueType.number .uint64 ∧ v = .uint64 value.uint64Val) ∨
      value.type = ValueType.number .bytes ∧ v = .bytes value.bytesVal := by
  rw [PbValue.toValue] at h
  split_ifs at h with h1 h2 h3 h4
  all_goals obtain rfl := Option.some.inj h
  · exact Or.inl ⟨h1, rfl⟩
  · exact Or.inr (Or.inl ⟨h2, rfl⟩)
  · exact Or.inr (Or.inr (Or.inl ⟨h3, rfl⟩))
  · exact Or.inr (Or.inr (Or.inr ⟨h4, rfl⟩))

/-- An accepted value has the type of the scalar's entry. -/
theorem ConfigObject.Agrees.type_eq {obj : ConfigObject} {m : Modes} {s : Scalar}
    (h : obj.Agrees m s) {value : PbValue} {v : Value} (hv : value.toValue = some v)
    (hacc : (s.object m).syn.Accepts v) :
    value.type = obj.type.number ∧ obj.type ≠ .unspecified ∧ obj.type ≠ .uint64 := by
  obtain ⟨htype, rfl⟩ | ⟨htype, rfl⟩ | ⟨htype, rfl⟩ | ⟨htype, rfl⟩ := PbValue.toValue_cases hv
  · rw [((h.int32 _).mp hacc).1]
    exact ⟨htype, by simp, by simp⟩
  · rw [((h.uint32 _).mp hacc).1]
    exact ⟨htype, by simp, by simp⟩
  · exact absurd hacc (h.uint64 _)
  · rw [((h.bytes _).mp hacc).1]
    exact ⟨htype, by simp, by simp⟩

/-- **What a write request can do.** -/
theorem handleWriteConfig_cases (m : Modes) (f : Fault) (req : WriteConfigRequest) (envs : Envs) :
    WriteOutcome m f req envs (handleWriteConfig m f req envs) := by
  unfold handleWriteConfig
  obtain ⟨hfind, hkey⟩ | ⟨s, hkey, hfind⟩ := findConfigObject_cases m req.key
  · rw [hfind]
    refine Or.inl ⟨by simp, rfl, fun s v hv => ?_⟩
    exact absurd (WriteConfigRequest.stores_eq_some.mp hv).1 (hkey s)
  -- from here on only the agreement of the entry with the MIB counts
  have hagrees := s.configObject_agrees m
  rw [hfind]
  generalize s.configObject m = obj at hagrees
  obtain ⟨henv, hobj⟩ := Prod.mk.inj hagrees.loc
  rcases hval : req.value with _ | value
  · exact writeOutcome_refused hkey (by simp [hval]) (by simp)
  have hbind : req.value.bind PbValue.toValue = value.toValue := by rw [hval]; rfl
  simp only
  by_cases htype : value.type = obj.type.number
  swap
  · rw [if_pos htype]
    refine writeOutcome_refused hkey (fun v hv hacc => ?_) (by simp)
    exact htype (hagrees.type_eq (hbind.symm.trans hv) hacc).1
  rw [if_neg (not_not_intro htype)]
  cases hty : obj.type with
  | int32 =>
    have hto : req.value.bind PbValue.toValue = some (.int32 value.int32Val) := by
      simp [hbind, PbValue.toValue, htype, hty]
    simp only [henv, hobj]
    exact writeOutcome_checked hkey hto ((hagrees.int32 _).trans (and_iff_right hty)) (by simp)
  | uint32 =>
    have hto : req.value.bind PbValue.toValue = some (.uint32 value.uint32Val) := by
      simp [hbind, PbValue.toValue, htype, hty, ValueType.number]
    simp only [henv, hobj]
    exact writeOutcome_checked hkey hto ((hagrees.uint32 _).trans (and_iff_right hty)) (by simp)
  | bytes =>
    have hto : req.value.bind PbValue.toValue = some (.bytes value.bytesVal) := by
      simp [hbind, PbValue.toValue, htype, hty, ValueType.number]
    simp only [henv, hobj]
    exact writeOutcome_checked hkey hto ((hagrees.bytes _).trans (and_iff_right hty)) (by simp)
  | unspecified =>
    refine writeOutcome_refused hkey (fun v hv hacc => ?_) (by simp)
    exact (hagrees.type_eq (hbind.symm.trans hv) hacc).2.1 hty
  | uint64 =>
    refine writeOutcome_refused hkey (fun v hv hacc => ?_) (by simp)
    exact (hagrees.type_eq (hbind.symm.trans hv) hacc).2.2 hty

/-! ### What a frame does -/

/-- The value of a write to a scalar that was answered `STATUS_OK`. -/
def FrameRecord.okWrite (s : Scalar) (r : FrameRecord) : Option Value :=
  match r.request.body, r.response.body with
  | .writeConfigRequest req, .writeConfigResponse resp =>
    if req.key = s.name ∧ resp.status = .ok ∧ r.sent then req.value.bind PbValue.toValue else none
  | _, _ => none

/-- The value a frame gets acknowledged for a scalar, told from the frame alone: it decodes to a
write request for the scalar with a value the scalar accepts, and neither storing it nor
sending the answer fails. -/
def frameAcks (m : Modes) (pbDecode : Bytes → Option Envelope) (f : FrameFaults) (s : Scalar)
    (payload : Bytes) : Option Value :=
  match pbDecode payload with
  | some ⟨_, .writeConfigRequest req⟩ =>
    (req.stores m s).filter fun v => f.write.Spares v ∧ f.unsent = false
  | _ => none

section Frame

variable {m : Modes} {f : FrameFaults} {a a' : Agent} {body body' : Body}

/-- A request other than a write request leaves what is stored. -/
theorem answerBody_other (h : answerBody m f a body = some (body', a'))
    (hbody : ∀ req, body ≠ .writeConfigRequest req) : a'.envs = a.envs := by
  cases body with
  | writeConfigRequest req => exact absurd rfl (hbody req)
  | sendTrapRequest trapName =>
    simp only [answerBody, Option.some.injEq, Prod.mk.injEq] at h
    obtain ⟨-, rfl⟩ := h
    simp only [handleSendTrap]
    split_ifs
    · rfl
    · exact a.envs_demoSendTempAlarm m f.alarm
    · exact a.envs_demoSendTempAlarm m f.alarm
  | empty | pingResponse => exact absurd h (by simp [answerBody])
  | _ =>
    simp only [answerBody, Option.some.injEq, Prod.mk.injEq] at h
    obtain ⟨-, rfl⟩ := h
    rfl

variable (m f a) (pbDecode : Bytes → Option Envelope) (payload : Bytes)

/-- **What a frame can do**: leave what is stored, or store a value its scalar accepts where
the scalar is kept. -/
theorem handleFrame_cases :
    (handleFrame m pbDecode f a payload).2.1.envs = a.envs ∨
      ∃ s v, (Scalar.object m s).syn.Accepts v ∧
        (handleFrame m pbDecode f a payload).2.1.envs = a.envs.put (s.loc m) v.encode := by
  rw [handleFrame]
  rcases pbDecode payload with _ | ⟨id, body⟩
  · exact Or.inl rfl
  rcases hans : answerBody m f a body with _ | ⟨body', a'⟩
  · exact Or.inl (by simp [hans])
  simp only [hans]
  by_cases hbody : ∀ req, body ≠ .writeConfigRequest req
  · exact Or.inl (answerBody_other hans hbody)
  · push Not at hbody
    obtain ⟨req, rfl⟩ := hbody
    simp only [answerBody, Option.some.injEq, Prod.mk.injEq] at hans
    obtain ⟨-, rfl⟩ := hans
    obtain ⟨-, henvs, -⟩ | ⟨s, v, hstores, -, hres⟩ := handleWriteConfig_cases m f.write req a.envs
    · exact Or.inl henvs
    · refine Or.inr ⟨s, v, (WriteConfigRequest.stores_eq_some.mp hstores).2.2, ?_⟩
      rw [hres]

/-- **Which writes are acknowledged** can be told from the frame: an answer `STATUS_OK` to a
write request says that the value was stored, and every value that could be stored is
answered so. -/
theorem handleFrame_okWrite (s : Scalar) :
    (handleFrame m pbDecode f a payload).1.bind (FrameRecord.okWrite s) =
      frameAcks m pbDecode f s payload := by
  rw [handleFrame, frameAcks]
  rcases pbDecode payload with _ | ⟨id, body⟩
  · rfl
  cases body with
  | writeConfigRequest req =>
    simp only [answerBody, Option.bind_some, FrameRecord.okWrite]
    obtain ⟨hstatus, -, hnot⟩ | ⟨t, v, hstores, hspare, hres⟩ :=
      handleWriteConfig_cases m f.write req a.envs
    · rw [if_neg fun h => hstatus h.2.1]
      symm
      rw [Option.filter_eq_none_iff]
      intro v hv
      simp [hnot s v hv]
    · obtain ⟨hkey, hval, hacc⟩ := WriteConfigRequest.stores_eq_some.mp hstores
      by_cases hst : s = t
      · subst hst
        rw [hstores, hres, hval]
        cases f.unsent <;> simp [hkey, hspare, Option.filter]
      · -- another scalar's write is none of this one's
        have hne : req.key ≠ s.name := fun h => hst (Scalar.name_inj (h.symm.trans hkey))
        rw [if_neg fun h => hne h.1, WriteConfigRequest.stores, if_neg hne]
        rfl
  | empty | pingResponse => rfl
  | _ => rfl

end Frame

end AgentxSubagent
