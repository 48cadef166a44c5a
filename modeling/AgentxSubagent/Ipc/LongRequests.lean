import AgentxSubagent.Ipc.Client
import Mathlib.Data.List.TakeWhile

/-!
# Requests the server has no room for

The client takes any `&str` for a key or a trap name and any bytes for a value, as long as the
frame is not too large. The server decodes into C structs of the sizes of
`proto/agentx_ipc.options`. Three things can come of a text on the way:

* it fits, and is what the client meant;
* it is too long for its array. nanopb then fails to decode the envelope, which to
  `handle_frame` is a malformed one, and the connection is closed;
* it has a NUL in it. It is decoded all right, but to C it ends there, so the server hears
  another call than the one made (`AgentxSubagent.Call.heard`).

`AgentxSubagent.Connection.Answers` is what a call should come to: it returns a response of its
kind; a key or a trap name nobody knows, a value of another type than its object or a byte string
too long for it is refused with a status and nothing is stored; and the connection is left as it
was found. `AgentxSubagent.config_request_answered_iff` says for which calls it does
(`AgentxSubagent.Call.Answerable`).

The proof follows one call through the connection (`AgentxSubagent.Connection.Serving`), as
`AgentxSubagent.Connection.Phase` does for a sequence of admissible ones.
-/

namespace AgentxSubagent

open Runs Wire

/-! ### What the server's structs hold -/

/-- A string as C reads it. -/
def cString (bs : Bytes) : Bytes := bs.takeWhile (· ≠ 0)

/-- A `string` field with `max_size`: the array has room for a NUL behind the text, and the
text ends at its first NUL. -/
def holdString (maxSize : ℕ) (bs : Bytes) : Option Bytes :=
  if bs.length < maxSize then some (cString bs) else none

/-- A `Value`, if there is one; its `bytes_val` has a `max_size`. -/
def holdValue : Option PbValue → Option (Option PbValue)
  | none => some none
  | some v => if v.bytesVal.length ≤ 256 then some (some v) else none

/-- A body in the structs nanopb generates, or `none` when it overflows one of them. -/
def Body.hold : Body → Option Body
  | .empty => some .empty
  | .writeConfigRequest req =>
    (holdString 64 req.key).bind fun key =>
      (holdValue req.value).map fun value => .writeConfigRequest ⟨key, value⟩
  | .writeConfigResponse resp =>
    (holdString 128 resp.message).map fun message => .writeConfigResponse ⟨resp.status, message⟩
  | .readConfigRequest key => (holdString 64 key).map .readConfigRequest
  | .readConfigResponse resp =>
    (holdString 128 resp.message).bind fun message =>
      (holdValue resp.value).map fun value => .readConfigResponse ⟨resp.status, value, message⟩
  | .sendTrapRequest trapName => (holdString 64 trapName).map .sendTrapRequest
  | .sendTrapResponse resp =>
    (holdString 128 resp.message).map fun message => .sendTrapResponse ⟨resp.status, message⟩
  | .pingRequest nonce => some (.pingRequest nonce)
  | .pingResponse nonce => some (.pingResponse nonce)

/-- **What is asked of prost and nanopb beyond the conforming envelopes.** prost encodes whatever
the client sends, as long as the wire format makes it. nanopb decodes that into its structs, and
fails when it overflows one of them. -/
structure PbCodec.Bounded (pb : PbCodec) : Prop where
  length_encodeToVec : ∀ (id : UInt32) (c : Call),
    (pb.encodeToVec ⟨id, c.method.request⟩).length = (Envelope.mk id c.method.request).wire.length
  pbDecode_encodeToVec : ∀ (id : UInt32) (c : Call),
    pb.pbDecode (pb.encodeToVec ⟨id, c.method.request⟩) = c.method.request.hold.map (Envelope.mk id)

section Hold

variable {bs : Bytes} {maxSize : ℕ}

/-- A text without a NUL is read as it is. -/
theorem cString_of_notMem (h : 0 ∉ bs) : cString bs = bs := by
  refine List.takeWhile_eq_self_iff.mpr fun b hb => decide_eq_true ?_
  rintro rfl
  exact h hb

theorem Text.holdString (h : Text maxSize bs) : holdString maxSize bs = some bs := by
  rw [AgentxSubagent.holdString, if_pos h.length_lt, cString_of_notMem h.no_nul]

theorem holdValue_of_conforms {value : Option PbValue} (h : ∀ v ∈ value, v.Conforms) :
    holdValue value = some value := by
  cases value with
  | none => rfl
  | some v => exact if_pos (h v rfl).length_le

/-- A conforming body is held as it is. -/
theorem Body.Conforms.hold {body : Body} (h : body.Conforms) : body.hold = some body := by
  cases body with
  | empty => exact h.elim
  | writeConfigRequest req =>
    simp only [Body.hold, h.1.holdString, holdValue_of_conforms h.2, Option.bind_some,
      Option.map_some]
  | readConfigResponse resp =>
    simp only [Body.hold, h.1.holdString, holdValue_of_conforms h.2, Option.bind_some,
      Option.map_some]
  | writeConfigResponse resp | sendTrapResponse resp =>
    simp only [Body.hold, Text.holdString h, Option.map_some]
  | readConfigRequest bs | sendTrapRequest bs =>
    simp only [Body.hold, Text.holdString h, Option.map_some]
  | pingRequest nonce | pingResponse nonce => rfl

end Hold

/-- The wire format on both sides, with the server's structs behind it. -/
def boundedCodec : PbCodec where
  encodeToVec := Envelope.wire
  decode := Envelope.ofWire
  pbEncode := Envelope.wire
  pbDecode s := (Envelope.ofWire s).bind fun e => e.body.hold.map (Envelope.mk e.requestId)

theorem boundedCodec_lawful : boundedCodec.Lawful where
  pbDecode_encodeToVec := by
    intro e h
    show (Envelope.ofWire e.wire).bind _ = some e
    rw [Envelope.ofWire_wire_of_conforms h, Option.bind_some, Body.Conforms.hold h]
    rfl
  decode_pbEncode := Envelope.ofWire_wire_of_conforms
  length_encodeToVec := fun _ => rfl
  length_pbEncode := fun _ => rfl

theorem boundedCodec_bounded : boundedCodec.Bounded where
  length_encodeToVec := fun _ _ => rfl
  pbDecode_encodeToVec := by
    intro id c
    have hset : c.method.request ≠ .empty := by
      cases c <;> simp [Call.method, ping, writeConfig, readConfig, sendTrap]
    have htyped : ∀ v ∈ c.method.request.value, v.Typed := by
      cases c with
      | writeConfig key value =>
        rintro _ ⟨⟩
        exact value.intoPb_typed
      | _ => simp [Call.method, ping, readConfig, sendTrap, Body.value]
    show (Envelope.ofWire (Envelope.mk id c.method.request).wire).bind _ = _
    rw [Envelope.ofWire_wire (e := ⟨id, c.method.request⟩) hset htyped, Option.bind_some]

/-! ### The call the server hears -/

/-- A `str` up to its first NUL. -/
def cutNul (s : String) : String := String.ofList (s.toList.takeWhile (· ≠ Char.ofNat 0))

theorem utf8_cutNul (s : String) : utf8 (cutNul s) = cString (utf8 s) := by
  rw [utf8, cutNul, String.toList_ofList, cString, utf8, Utf8.takeWhile_flatMap_encodeChar]

/-- **The call the server hears** when the client makes one. -/
def Call.heard : Call → Call
  | .ping nonce => .ping nonce
  | .writeConfig key value => .writeConfig (cutNul key) value
  | .readConfig key => .readConfig (cutNul key)
  | .sendTrap trapName => .sendTrap (cutNul trapName)

/-- The request of a call does not overflow the server's structs. -/
def Call.Fits : Call → Prop
  | .ping _ => True
  | .writeConfig key value => (utf8 key).length < 64 ∧ value.intoPb.bytesVal.length ≤ 256
  | .readConfig key => (utf8 key).length < 64
  | .sendTrap trapName => (utf8 trapName).length < 64

section Heard

variable {s : String} {c : Call}

theorem shortText_cutNul (h : (utf8 s).length < 64) : ShortText (cutNul s) := by
  rw [ShortText, utf8_cutNul]
  refine ⟨?_, ?_⟩
  · exact le_trans (List.takeWhile_sublist _).length_le (Nat.le_of_lt_succ h)
  · intro hzero
    exact absurd (List.mem_takeWhile_imp hzero) (by simp)

/-- What is heard of a call that fits is a call the protocol has room for. -/
theorem Call.Fits.admissible (h : c.Fits) : c.heard.Admissible := by
  cases c with
  | ping nonce => trivial
  | readConfig key => exact shortText_cutNul h
  | sendTrap trapName => exact shortText_cutNul h
  | writeConfig key value =>
    cases value with
    | bytes v => exact ⟨shortText_cutNul h.1, h.2⟩
    | _ => exact shortText_cutNul h.1

/-- A text that fits is held up to its first NUL. -/
theorem holdString_utf8 (h : (utf8 s).length < 64) :
    holdString 64 (utf8 s) = some (utf8 (cutNul s)) := by
  rw [holdString, if_pos h, utf8_cutNul]

theorem holdString_overflow (h : ¬(utf8 s).length < 64) : holdString 64 (utf8 s) = none := if_neg h

/-- What the structs hold of a request that fits is the request of the call heard. -/
theorem Call.Fits.hold (h : c.Fits) : c.method.request.hold = some c.heard.method.request := by
  cases c with
  | ping nonce => rfl
  | readConfig key => exact congrArg (Option.map _) (holdString_utf8 h)
  | sendTrap trapName => exact congrArg (Option.map _) (holdString_utf8 h)
  | writeConfig key value =>
    have hvalue : holdValue (some value.intoPb) = some (some value.intoPb) := if_pos h.2
    simp only [Call.method, Call.heard, AgentxSubagent.writeConfig, Body.hold,
      holdString_utf8 h.1, hvalue, Option.bind_some, Option.map_some]

/-- A request that does not fit is not decoded. -/
theorem Call.hold_of_not_fits (h : ¬c.Fits) : c.method.request.hold = none := by
  cases c with
  | ping nonce => exact absurd trivial h
  | readConfig key => exact congrArg (Option.map _) (holdString_overflow h)
  | sendTrap trapName => exact congrArg (Option.map _) (holdString_overflow h)
  | writeConfig key value =>
    by_cases hkey : (utf8 key).length < 64
    · have hvalue : holdValue (some value.intoPb) = none := if_neg fun hle => h ⟨hkey, hle⟩
      simp only [Call.method, AgentxSubagent.writeConfig, Body.hold, hvalue, Option.map_none,
        Option.bind_fun_none]
    · simp only [Call.method, AgentxSubagent.writeConfig, Body.hold, holdString_overflow hkey,
        Option.bind_none]

theorem Reply.matches_heard {reply : Reply} : reply.Matches c.heard ↔ reply.Matches c := by
  cases c <;> cases reply <;> rfl

/-- A reply of the right variant is what the method returns. -/
theorem Reply.Matches.finish {reply : Reply} (h : reply.Matches c) :
    c.method.finish reply.body = .ok reply := by
  cases c <;> cases reply <;> first | rfl | exact h.elim

end Heard

/-! ### Refusals -/

/-- The status a call is to be refused with, if it is: an unknown key or trap name, a value that
is not of the type of its object, or a byte string longer than the maximum of its object. -/
def Call.refusal (m : Modes) : Call → Option Status
  | .ping _ => none
  | .writeConfig key value =>
    match findConfigObject m (utf8 key) with
    | none => some .invalid
    | some obj =>
      if value.intoPb.type ≠ obj.type.number then some .typeMismatch
      else
        match value with
        | .bytes v => if obj.max < (v.length : ℤ) then some .invalid else none
        | _ => none
  | .readConfig key =>
    match findConfigObject m (utf8 key) with
    | none => some .invalid
    | some _ => none
  | .sendTrap trapName =>
    if utf8 trapName = ascii "demoTempAlarm" then none else some .invalid

/-- The status in a reply. -/
def Reply.status : Reply → Option Status
  | .ping _ => none
  | .writeConfig resp => some resp.status
  | .readConfig resp => some resp.status
  | .sendTrap resp => some resp.status

/-- A value of the type of an object, and out of its range. -/
def ConfigObject.OutOfRange (obj : ConfigObject) : IpcValue → Prop
  | .int32 v => obj.type = .int32 ∧ (v.toInt < obj.min ∨ obj.max < v.toInt)
  | .uint32 v => obj.type = .uint32 ∧ ((v.toNat : ℤ) < obj.min ∨ obj.max < (v.toNat : ℤ))
  | .uint64 _ => False
  | .bytes v => obj.type = .bytes ∧ ((v.length : ℤ) < obj.min ∨ obj.max < (v.length : ℤ))

/-- A text that is not a name, but that C reads as the name. -/
def Aliases (s : String) (name : Bytes) : Prop := 0 ∈ utf8 s ∧ cString (utf8 s) = name

/-- **The calls that are answered as they should be**: the request fits the server's structs,
and its key or trap name is not mistaken for another. A write under a mistaken key is still
refused as it should be when the object it ends up at has the type of the value and not the
range. -/
def Call.Answerable (m : Modes) : Call → Prop
  | .ping _ => True
  | .writeConfig key value =>
    (utf8 key).length < 64 ∧ value.intoPb.bytesVal.length ≤ 256 ∧
      ∀ s : Scalar, Aliases key s.name → (s.configObject m).OutOfRange value
  | .readConfig key => (utf8 key).length < 64 ∧ ∀ s : Scalar, ¬Aliases key s.name
  | .sendTrap trapName =>
    (utf8 trapName).length < 64 ∧ ¬Aliases trapName (ascii "demoTempAlarm")

theorem Call.Answerable.fits {m : Modes} {c : Call} (h : c.Answerable m) : c.Fits := by
  cases c with
  | ping nonce => trivial
  | readConfig key => exact h.1
  | sendTrap trapName => exact h.1
  | writeConfig key value => exact ⟨h.1, h.2.1⟩

/-! ### What is answered -/

section Answered

variable {m : Modes} {s : String}

/-- A name of the server's own is read as it is. -/
theorem cString_of_plain {name : Bytes} (hname : Plain name) (h : utf8 s = name) :
    cString (utf8 s) = name := by
  rw [cString_of_notMem (h ▸ hname.not_mem_zero), h]

/-- What C reads as a name is the name, or is mistaken for it. -/
theorem eq_or_aliases {name : Bytes} (h : cString (utf8 s) = name) :
    utf8 s = name ∨ Aliases s name := by
  by_cases hzero : 0 ∈ utf8 s
  · exact Or.inr ⟨hzero, h⟩
  · exact Or.inl ((cString_of_notMem hzero).symm.trans h)

/-- A mistaken key is not a key. -/
theorem Aliases.findConfigObject {t : Scalar} (h : Aliases s t.name) :
    findConfigObject m (utf8 s) = none := by
  obtain ⟨hnone, -⟩ | ⟨t', hkey, -⟩ := findConfigObject_cases m (utf8 s)
  · exact hnone
  · exact absurd (hkey ▸ h.1) t'.plain_name.not_mem_zero

/-- An unknown key is unknown to C as well, or it is mistaken. -/
theorem findConfigObject_heard (hfind : findConfigObject m (utf8 s) = none) :
    findConfigObject m (cString (utf8 s)) = none ∨
      ∃ t : Scalar, Aliases s t.name ∧
        findConfigObject m (cString (utf8 s)) = some (t.configObject m) := by
  obtain ⟨hnone, -⟩ | ⟨t, hkey, hsome⟩ := findConfigObject_cases m (cString (utf8 s))
  · exact Or.inl hnone
  obtain hsame | hmistaken := eq_or_aliases hkey
  · rw [hsame, findConfigObject_name] at hfind
    exact absurd hfind (by simp)
  · exact Or.inr ⟨t, hmistaken, hsome⟩

/-- The outcomes of a write of a client under the key of a scalar, when nothing can be stored:
the value is not of the object's type, or it is out of range. -/
theorem handleWriteConfig_refuses {f : Fault} {key : Bytes} {obj : ConfigObject}
    (hfind : findConfigObject m key = some obj) (envs : Envs) {value : IpcValue} :
    (obj.OutOfRange value → ∃ message,
        handleWriteConfig m f ⟨key, some value.intoPb⟩ envs = (⟨.invalid, message⟩, envs)) ∧
      (value.intoPb.type ≠ obj.type.number → ∃ message,
        handleWriteConfig m f ⟨key, some value.intoPb⟩ envs =
          (⟨.typeMismatch, message⟩, envs)) := by
  simp only [handleWriteConfig, hfind]
  refine ⟨fun hrange => ?_, fun htype => ⟨_, if_pos htype⟩⟩
  cases value with
  | int32 v | uint32 v | bytes v =>
    obtain ⟨htype, hout⟩ := hrange
    simp only [htype, IpcValue.intoPb, ne_eq, not_true_eq_false, if_false, gt_iff_lt, if_pos hout]
    exact ⟨_, rfl⟩
  | uint64 v => exact hrange.elim

theorem ValueType.number_injective {ty ty' : ValueType} (h : ty.number = ty'.number) :
    ty = ty' := by
  revert h
  cases ty <;> cases ty' <;> decide

/-- With nothing failing, a value of the object's type and in its range is stored: only what is
out of range is answered `STATUS_INVALID`. -/
theorem handleWriteConfig_accepts {key : Bytes} {obj : ConfigObject} (hname : ValidKey obj.name)
    (hfind : findConfigObject m key = some obj) (envs : Envs) {value : IpcValue}
    (hvalue : ¬obj.OutOfRange value) :
    (handleWriteConfig m .none ⟨key, some value.intoPb⟩ envs).1.status ≠ .invalid := by
  have hstored : ∀ v, (writeAnswer (envs.setValue .none obj.env obj.name v).1).status = .ok := by
    intro v
    rw [(envs.setValue_ok_iff .none obj.env hname v).mpr (Fault.none_spares v)]
    rfl
  by_cases htype : value.intoPb.type = obj.type.number
  swap
  · obtain ⟨message, hres⟩ := (handleWriteConfig_refuses hfind envs).2 htype
    rw [hres]
    simp
  simp only [handleWriteConfig, hfind, htype, ne_eq, not_true_eq_false, if_false]
  cases value with
  | int32 v =>
    obtain hty : ValueType.int32 = obj.type := ValueType.number_injective htype
    have hin : ¬(v.toInt < obj.min ∨ v.toInt > obj.max) := fun hout => hvalue ⟨hty.symm, hout⟩
    simp [← hty, IpcValue.intoPb, hin, hstored]
  | uint32 v =>
    obtain hty : ValueType.uint32 = obj.type := ValueType.number_injective htype
    have hin : ¬((v.toNat : ℤ) < obj.min ∨ (v.toNat : ℤ) > obj.max) :=
      fun hout => hvalue ⟨hty.symm, hout⟩
    simp [← hty, IpcValue.intoPb, hin, hstored]
  | bytes v =>
    obtain hty : ValueType.bytes = obj.type := ValueType.number_injective htype
    have hin : ¬((v.length : ℤ) < obj.min ∨ (v.length : ℤ) > obj.max) :=
      fun hout => hvalue ⟨hty.symm, hout⟩
    simp [← hty, IpcValue.intoPb, hin, hstored]
  | uint64 v =>
    obtain hty : ValueType.uint64 = obj.type := ValueType.number_injective htype
    simp [← hty]

/-- A storage that cannot be read. -/
def ReadFault.unreadable : ReadFault :=
  ⟨⟨some .other, Option.none, Option.none, false⟩, by decide, by decide⟩

/-- A read under a known key is answered with what the storage says. -/
theorem handleReadConfig_unreadable {key : Bytes} {t : Scalar} (hkey : key = t.name)
    (envs : Envs) : (handleReadConfig m .unreadable key envs).status = .storageError := by
  rw [handleReadConfig, hkey, findConfigObject_name]
  cases t <;> rfl

/-- A trap name that is known is never answered `STATUS_INVALID`. -/
theorem handleSendTrap_known (af : AlarmFaults) (a : Agent) :
    (handleSendTrap m af (ascii "demoTempAlarm") a).1.status ≠ .invalid := by
  rw [handleSendTrap, if_neg (not_not_intro rfl)]
  simp only
  split_ifs <;> simp

end Answered

section Refused

variable {m : Modes} {c : Call} {status : Status}

/-- The answer to a write that is to be refused. -/
theorem Call.Answerable.refused_write {key : String} {value : IpcValue}
    (h : (Call.writeConfig key value).Answerable m)
    (href : (Call.writeConfig key value).refusal m = some status) (f : Fault) (envs : Envs) :
    ∃ message, handleWriteConfig m f ⟨cString (utf8 key), some value.intoPb⟩ envs =
      (⟨status, message⟩, envs) := by
  obtain ⟨-, -, halias⟩ := h
  simp only [Call.refusal] at href
  obtain ⟨hfind, -⟩ | ⟨t, hkey, hfind⟩ := findConfigObject_cases m (utf8 key)
  · rw [hfind] at href
    obtain rfl := Option.some.inj href
    obtain hfind' | ⟨t, hmistaken, hfind'⟩ := findConfigObject_heard hfind
    · simp only [handleWriteConfig, hfind']
      exact ⟨_, rfl⟩
    · -- the key is mistaken for that of an object, and the value is out of its range
      exact (handleWriteConfig_refuses hfind' envs).1 (halias t hmistaken)
  · rw [cString_of_plain t.plain_name hkey, ← hkey]
    simp only [hfind] at href
    by_cases htype : value.intoPb.type = (t.configObject m).type.number
    swap
    · rw [if_pos htype] at href
      obtain rfl := Option.some.inj href
      exact (handleWriteConfig_refuses hfind envs).2 htype
    rw [if_neg (not_not_intro htype)] at href
    cases value with
    | bytes v =>
      have htype : ValueType.number .bytes = (t.configObject m).type.number := htype
      simp only at href
      split_ifs at href with hlong
      obtain rfl := Option.some.inj href
      refine (handleWriteConfig_refuses hfind envs).1 ⟨?_, Or.inr hlong⟩
      exact (ValueType.number_injective htype).symm
    | _ => exact absurd href (by simp)

/-- The answer to a read that is to be refused. -/
theorem Call.Answerable.refused_read {key : String} (h : (Call.readConfig key).Answerable m)
    (href : (Call.readConfig key).refusal m = some status) (rf : ReadFault) (envs : Envs) :
    (handleReadConfig m rf (cString (utf8 key)) envs).status = status := by
  obtain ⟨-, halias⟩ := h
  simp only [Call.refusal] at href
  rcases hfind : findConfigObject m (utf8 key) with _ | obj
  · rw [hfind] at href
    obtain rfl := Option.some.inj href
    obtain hfind' | ⟨t, hmistaken, -⟩ := findConfigObject_heard hfind
    · rw [handleReadConfig, hfind']
    · exact absurd hmistaken (halias t)
  · rw [hfind] at href
    exact absurd href (by simp)

/-- The answer to a trap that is to be refused. -/
theorem Call.Answerable.refused_trap {trapName : String}
    (h : (Call.sendTrap trapName).Answerable m)
    (href : (Call.sendTrap trapName).refusal m = some status) (af : AlarmFaults) (a : Agent) :
    (handleSendTrap m af (cString (utf8 trapName)) a).1.status = status := by
  obtain ⟨-, halias⟩ := h
  simp only [Call.refusal] at href
  split_ifs at href with hname
  obtain rfl := Option.some.inj href
  have hne : cString (utf8 trapName) ≠ ascii "demoTempAlarm" := by
    intro heq
    obtain hsame | hmistaken := eq_or_aliases heq
    · exact hname hsame
    · exact halias hmistaken
  rw [handleSendTrap, if_pos hne]

/-- **An answerable call that is to be refused is refused**, with the right status, and nothing
is stored. -/
theorem Call.Answerable.refused (h : c.Answerable m) (href : c.refusal m = some status)
    {f : FrameFaults} {a a' : Agent} {reply : Reply}
    (hans : answerBody m f a c.heard.method.request = some (reply.body, a')) :
    reply.status = some status ∧ a'.envs = a.envs := by
  cases c with
  | ping nonce => exact absurd href (by simp [Call.refusal])
  | writeConfig key value =>
    obtain ⟨message, hres⟩ := h.refused_write href f.write a.envs
    rw [← utf8_cutNul] at hres
    obtain ⟨hbody, rfl⟩ := Prod.mk.inj (Option.some.inj hans)
    rw [← Reply.body_injective (r := .writeConfig _) hbody, hres]
    exact ⟨rfl, rfl⟩
  | readConfig key =>
    have hstatus := h.refused_read href f.read a.envs
    rw [← utf8_cutNul] at hstatus
    obtain ⟨hbody, rfl⟩ := Prod.mk.inj (Option.some.inj hans)
    rw [← Reply.body_injective (r := .readConfig _) hbody]
    exact ⟨congrArg some hstatus, rfl⟩
  | sendTrap trapName =>
    have hstatus := h.refused_trap href f.alarm a
    rw [← utf8_cutNul] at hstatus
    have henvs := answerBody_other hans (by simp [Call.heard, Call.method, AgentxSubagent.sendTrap])
    obtain ⟨hbody, -⟩ := Prod.mk.inj (Option.some.inj hans)
    rw [← Reply.body_injective (r := .sendTrap _) hbody]
    exact ⟨congrArg some hstatus, henvs⟩

/-- **A call that fits and is not answerable is mistaken for another**: it is to be refused, and
it can be answered something else. -/
theorem Call.exists_mistaken (hfits : c.Fits) (h : ¬c.Answerable m) (a : Agent) :
    ∃ (status : Status) (f : FrameFaults) (reply : Reply) (a' : Agent), f.unsent = false ∧
      c.refusal m = some status ∧
      answerBody m f a c.heard.method.request = some (reply.body, a') ∧ reply.Matches c ∧
      reply.status ≠ some status := by
  cases c with
  | ping nonce => exact absurd trivial h
  | writeConfig key value =>
    obtain ⟨t, hmistaken, hvalue⟩ :
        ∃ t : Scalar, Aliases key t.name ∧ ¬(t.configObject m).OutOfRange value := by
      by_contra hno
      push Not at hno
      exact h ⟨hfits.1, hfits.2, hno⟩
    have hname : ValidKey (t.configObject m).name := by
      rw [(Prod.mk.inj (t.configObject_agrees m).loc).2]
      exact t.validKey_name
    have hfind : findConfigObject m (utf8 (cutNul key)) = some (t.configObject m) := by
      rw [utf8_cutNul, hmistaken.2, findConfigObject_name]
    have hstatus := handleWriteConfig_accepts hname hfind a.envs hvalue
    generalize hres : handleWriteConfig m .none _ a.envs = r at hstatus
    refine ⟨.invalid, .none, .writeConfig r.1, { a with envs := r.2 }, rfl, ?_, ?_, trivial, ?_⟩
    · rw [Call.refusal, hmistaken.findConfigObject]
    · rw [← hres]
      rfl
    · exact fun heq => hstatus (Option.some.inj heq)
  | readConfig key =>
    obtain ⟨t, hmistaken⟩ : ∃ t : Scalar, Aliases key t.name := by
      by_contra hno
      push Not at hno
      exact h ⟨hfits, hno⟩
    have hkey : utf8 (cutNul key) = t.name := (utf8_cutNul key).trans hmistaken.2
    -- the read gets as far as the storage, and is answered what fails there
    have hstatus := handleReadConfig_unreadable (m := m) hkey a.envs
    refine ⟨.invalid, { FrameFaults.none with read := .unreadable }, .readConfig _, _, rfl, ?_,
      rfl, trivial, ?_⟩
    · rw [Call.refusal, hmistaken.findConfigObject]
    · show some (handleReadConfig m .unreadable (utf8 (cutNul key)) a.envs).status ≠ _
      rw [hstatus]
      simp
  | sendTrap trapName =>
    have hmistaken : Aliases trapName (ascii "demoTempAlarm") := by
      by_contra hno
      exact h ⟨hfits, hno⟩
    have hne : utf8 trapName ≠ ascii "demoTempAlarm" := by
      intro heq
      exact absurd (heq ▸ hmistaken.1) (by decide)
    have hstatus := handleSendTrap_known (m := m) .none a
    rw [← hmistaken.2, ← utf8_cutNul] at hstatus
    generalize hres : handleSendTrap m .none _ a = r at hstatus
    refine ⟨.invalid, .none, .sendTrap r.1, r.2, rfl, if_neg hne, ?_, trivial, ?_⟩
    · rw [← hres]
      rfl
    · exact fun heq => hstatus (Option.some.inj heq)

end Refused

/-! ### One call on a connection -/

/-- A connection that is open and has no call in progress, with nothing under way. -/
structure Connection.Idle (st : Connection) : Prop where
  slot : ∃ k, st.slot = some k ∧ k.valid = []
  waiting : st.waiting = none
  toServer : st.toServer = []
  sent : st.server.sent = []

/-- What can happen on a connection that does not fail until the next call. -/
def Event.Quiet (e : Event) : Prop := e.Admissible ∧ ∀ c, e ≠ .call c

theorem Event.quiet_serviceClient (chunk : Bytes) {f : ℕ → FrameFaults}
    (hf : ∀ i, (f i).unsent = false) : (Event.serviceClient [.data chunk] f).Quiet :=
  ⟨⟨by simp, hf⟩, by simp⟩

theorem Event.quiet_read {r : ReadResult} (hr : r ≠ .wouldBlock ∧ r ≠ .failed) :
    (Event.read r).Quiet := ⟨hr, by simp⟩

/-- **What a call should come to.** However the bytes are cut up, whatever the subagent does in
between and whatever fails in the storage:

* the call has not returned and there is something to read, or it has returned a response of its
  kind, with the status of its refusal if it is to be refused, and the connection is idle again;
* if it is to be refused, nothing the connection does changes what is stored;
* no more is read than one call takes, so it does return. -/
def Connection.Answers (pb : PbCodec) (m : Modes) (st : Connection) (c : Call) : Prop :=
  ∀ (es : List Event) (ns : List ℕ) (st' : Connection), (∀ e ∈ es, Event.Quiet e) →
    run (fun st e => Connection.step pb m st e) (st.startCall pb c) es = some (ns, st') →
    (st'.results = st.results ∧
          (∃ e n u, Event.Quiet e ∧ st'.step pb m e = some (n, u) ∧ 0 < n) ∨
        ∃ reply, st'.results = st.results ++ [.ok reply] ∧ reply.Matches c ∧
          (∀ status, c.refusal m = some status → reply.status = some status) ∧ st'.Idle) ∧
      (c.refusal m ≠ none → ∀ e n u, Event.Quiet e → (∀ i, e ≠ .turn i) →
        st'.step pb m e = some (n, u) →
        u.server.subagent.agent.envs = st'.server.subagent.agent.envs) ∧
      ns.sum ≤ callBytes

/-- The request of a call is under way, in part or as a whole. -/
structure Connection.Requesting (pb : PbCodec) (id : UInt32) (c : Call) (st : Connection) :
    Prop where
  slot : ∃ k, st.slot = some k ∧
    k.valid ++ st.toServer = frameBytes (pb.encodeToVec ⟨id, c.method.request⟩)
  waiting : st.waiting = some ⟨id, c, .lenBuf []⟩
  toServer : st.toServer ≠ []
  sent : st.server.sent = []

/-- Where a connection stands in a call, and how many bytes there are left to read: the request
is under way; or an answer is, which is as it should be; or the call has returned. What the
answer should be is `P`. -/
inductive Connection.Serving (m : Modes) (pb : PbCodec) (id : UInt32) (c : Call)
    (results : List (Except IpcError Reply)) (P : Reply → Prop) (st : Connection) : ℕ → Prop
  | requesting (hreq : st.Requesting pb id c) (hresults : st.results = results)
    (hP : ∀ {f a reply a'}, answerBody m f a c.heard.method.request = some (reply.body, a') →
      P reply) :
    Serving m pb id c results P st (st.toServer.length + (4 + 1024))
  | answering (k : IpcClient) (reply : Reply) (reading : Reading) (hslot : st.slot = some k)
    (hvalid : k.valid = []) (hwait : st.waiting = some ⟨id, c, reading⟩) (hto : st.toServer = [])
    (hreading : reading.Awaits (pb.pbEncode ⟨id, reply.body⟩) st.server.sent)
    (hconforms : reply.body.Conforms) (hmatches : reply.Matches c) (hP : P reply)
    (hresults : st.results = results) :
    Serving m pb id c results P st st.server.sent.length
  | returned (reply : Reply) (hidle : st.Idle) (hmatches : reply.Matches c) (hP : P reply)
    (hresults : st.results = results ++ [.ok reply]) :
    Serving m pb id c results P st 0

section Serving

variable {m : Modes} {pb : PbCodec} {st st' : Connection} {n left : ℕ} {id : UInt32} {c : Call}
  {results : List (Except IpcError Reply)} {P : Reply → Prop}

/-- A request is not empty. -/
theorem PbCodec.Bounded.length_pos (hnano : pb.Bounded) (id : UInt32) (c : Call) :
    1 ≤ (pb.encodeToVec ⟨id, c.method.request⟩).length := by
  have hmessage : ∀ (k : ℕ) (fs : List Field), 1 ≤ (Wire.wire (messageField k fs)).length := by
    intro k fs
    rw [messageField, wire_cons, List.length_append]
    exact le_trans (Field.length_wire_pos _) (Nat.le_add_right _ _)
  rw [hnano.length_encodeToVec, Envelope.wire, wire_append, List.length_append]
  refine le_trans ?_ (Nat.le_add_left _ _)
  cases c with
  | ping nonce => exact hmessage _ _
  | writeConfig key value => exact hmessage _ _
  | readConfig key => exact hmessage _ _
  | sendTrap trapName => exact hmessage _ _

/-- What the server makes of a request that fits: the call it hears, answered. -/
theorem serveFrame_heard (hpb : pb.Lawful) (hnano : pb.Bounded) (hfits : c.Fits)
    {f : ℕ → FrameFaults} (hf : ∀ i, (f i).unsent = false) {sv : Server} {reply : Reply}
    {a' : Agent} (hans : answerBody m (f sv.answered.length) sv.subagent.agent
      c.heard.method.request = some (reply.body, a')) (id : UInt32) :
    reply.body.Conforms ∧
      serveFrame pb m f sv (pb.encodeToVec ⟨id, c.method.request⟩) =
        (⟨{ sv.subagent with agent := a' },
          sv.answered ++ [⟨⟨id, c.heard.method.request⟩, ⟨id, reply.body⟩, true⟩],
          sv.sent ++ frameBytes (pb.pbEncode ⟨id, reply.body⟩)⟩, true) := by
  have hreq : pb.pbDecode (pb.encodeToVec ⟨id, c.method.request⟩) =
      some ⟨id, c.heard.method.request⟩ := by
    rw [hnano.pbDecode_encodeToVec, hfits.hold]
    rfl
  have hconforms := answerBody_conforms hfits.admissible.conforms hans
  exact ⟨hconforms, serveFrame_answer hpb hf hreq hans hconforms⟩

/-- What the server makes of one that does not: nothing. -/
theorem serveFrame_overflow (hnano : pb.Bounded) (hfits : ¬c.Fits) (f : ℕ → FrameFaults)
    (sv : Server) :
    serveFrame pb m f sv (pb.encodeToVec ⟨id, c.method.request⟩) = (sv, false) := by
  have hreq : pb.pbDecode (pb.encodeToVec ⟨id, c.method.request⟩) = none := by
    rw [hnano.pbDecode_encodeToVec, Call.hold_of_not_fits hfits]
    rfl
  rw [serveFrame, handleFrame, hreq]

/-- The server reads. -/
theorem Connection.Serving.serviceClient (hpb : pb.Lawful) (hnano : pb.Bounded) (hfits : c.Fits)
    (hframe : (pb.encodeToVec ⟨id, c.method.request⟩).length ≤ 65536)
    (h : st.Serving m pb id c results P left) {rs : List ReadResult} {f : ℕ → FrameFaults}
    (hrs : ∀ r ∈ rs, r ≠ .endOfFile ∧ r ≠ .failed) (hf : ∀ i, (f i).unsent = false)
    (hstep : st.step pb m (.serviceClient rs f) = some (n, st')) :
    ∃ left', st'.Serving m pb id c results P left' ∧ n + left' ≤ left := by
  rcases h with ⟨⟨⟨k, hslot, hbytes⟩, hwait, hto, hsent⟩, hresults, hP⟩ |
    ⟨k, reply, reading, hslot, hvalid, hwait, hto, hreading, hconforms, hmatches, hP, hresults⟩ |
    ⟨reply, ⟨⟨k, hslot, hvalid⟩, hwait, hto, hsent⟩, hmatches, hP, hresults⟩
  · obtain ⟨reply, a', hans, hmatches, -⟩ :=
      c.heard.exists_answer m (f st.server.answered.length) st.server.subagent.agent
    obtain ⟨hconforms, hhandle⟩ := serveFrame_heard hpb hnano hfits hf hans id
    obtain ⟨k', rest, hlen, ⟨hrest, hbytes', rfl⟩ | ⟨rfl, hvalid', rfl⟩⟩ :=
      Connection.step_serviceClient_frame (hnano.length_pos id c) hframe hslot hbytes hto hrs
        hhandle hstep
    -- part of the request is still under way, or the answer to it is
    · refine ⟨_, .requesting ⟨⟨k', rfl, hbytes'⟩, hwait, hrest, hsent⟩ hresults hP, ?_⟩
      simp only [← hlen]
      omega
    · obtain ⟨-, hfits⟩ := hpb.pbEncode_bounds (e := ⟨id, reply.body⟩) hconforms
      have hframe' := length_frameBytes (pb.pbEncode ⟨id, reply.body⟩)
      refine ⟨_, .answering k' reply (.lenBuf []) rfl hvalid' hwait rfl ⟨by decide, ?_⟩ hconforms
        (Reply.matches_heard.mp hmatches) (hP hans) hresults, ?_⟩
      · rw [hsent]
        rfl
      · simp only [hsent, List.nil_append, hframe', ← hlen]
        omega
  · obtain ⟨k', rfl, hvalid', rfl⟩ :=
      Connection.step_serviceClient_nothing hslot hvalid hto hrs hstep
    exact ⟨_, .answering k' reply reading rfl hvalid' hwait hto hreading hconforms hmatches hP
      hresults, Nat.le_of_eq (Nat.zero_add _)⟩
  · obtain ⟨k', rfl, hvalid', rfl⟩ :=
      Connection.step_serviceClient_nothing hslot hvalid hto hrs hstep
    exact ⟨0, .returned reply ⟨⟨k', rfl, hvalid'⟩, hwait, hto, hsent⟩ hmatches hP hresults,
      Nat.le_refl 0⟩

/-- The client reads. -/
theorem Connection.Serving.read (hpb : pb.Lawful) (h : st.Serving m pb id c results P left)
    {r : ReadResult} (hr : r ≠ .wouldBlock ∧ r ≠ .failed)
    (hstep : st.step pb m (.read r) = some (n, st')) :
    ∃ left', st'.Serving m pb id c results P left' ∧ n + left' ≤ left := by
  rcases h with ⟨⟨⟨k, hslot, hbytes⟩, hwait, hto, hsent⟩, hresults, hP⟩ |
    ⟨k, reply, reading, hslot, hvalid, hwait, hto, hreading, hconforms, hmatches, hP, hresults⟩ |
    ⟨reply, hidle, hmatches, hP, hresults⟩
  · obtain ⟨rfl, rfl⟩ := Connection.step_read_nothing (by simp [hslot]) hsent hr hstep
    exact ⟨_, .requesting ⟨⟨k, hslot, hbytes⟩, hwait, hto, hsent⟩ hresults hP,
      Nat.le_of_eq (Nat.zero_add _)⟩
  · obtain ⟨h1, hle⟩ := hpb.pbEncode_bounds (e := ⟨id, reply.body⟩) hconforms
    have hdecode := hpb.decode_pbEncode (e := ⟨id, reply.body⟩) hconforms
    obtain ⟨reading', rest, hlen, hawaits, rfl⟩ | ⟨rfl, rfl⟩ :=
      Connection.step_read_frame h1 hle hdecode (by simp [hslot]) hwait hreading hr hstep
    · exact ⟨_, .answering k reply reading' hslot hvalid rfl hto hawaits hconforms hmatches hP
        hresults, Nat.le_of_eq hlen⟩
    · have hfinish : c.method.finishRoundtrip id ⟨id, reply.body⟩ = .ok reply := by
        rw [Method.finishRoundtrip]
        exact (if_neg (not_not_intro rfl)).trans hmatches.finish
      rw [hfinish]
      refine ⟨0, .returned reply ⟨⟨k, hslot, hvalid⟩, rfl, hto, rfl⟩ hmatches hP ?_,
        Nat.le_refl _⟩
      rw [Connection.finishCall, hresults]
  · obtain ⟨w, hw, -⟩ := Connection.step_read hstep
    exact absurd (hw.symm.trans hidle.waiting) (by simp)

/-- The subagent does something else. -/
theorem Connection.Serving.turn (h : st.Serving m pb id c results P left) {i : Input}
    (hstep : st.step pb m (.turn i) = some (n, st')) :
    ∃ left', st'.Serving m pb id c results P left' ∧ n + left' ≤ left := by
  obtain ⟨rfl, subagent, rfl⟩ := Connection.step_turn hstep
  rcases h with ⟨⟨⟨k, hslot, hbytes⟩, hwait, hto, hsent⟩, hresults, hP⟩ |
    ⟨k, reply, reading, hslot, hvalid, hwait, hto, hreading, hconforms, hmatches, hP, hresults⟩ |
    ⟨reply, ⟨hslot, hwait, hto, hsent⟩, hmatches, hP, hresults⟩
  · exact ⟨_, .requesting ⟨⟨k, hslot, hbytes⟩, hwait, hto, hsent⟩ hresults hP,
      Nat.le_of_eq (Nat.zero_add _)⟩
  · exact ⟨_, .answering k reply reading hslot hvalid hwait hto hreading hconforms hmatches hP
      hresults, Nat.le_of_eq (Nat.zero_add _)⟩
  · exact ⟨0, .returned reply ⟨hslot, hwait, hto, hsent⟩ hmatches hP hresults, Nat.le_refl 0⟩

/-- **One event on a connection that serves a call.** -/
theorem Connection.Serving.step (hpb : pb.Lawful) (hnano : pb.Bounded) (hfits : c.Fits)
    (hframe : (pb.encodeToVec ⟨id, c.method.request⟩).length ≤ 65536)
    (h : st.Serving m pb id c results P left) {e : Event} (he : e.Quiet)
    (hstep : st.step pb m e = some (n, st')) :
    ∃ left', st'.Serving m pb id c results P left' ∧ n + left' ≤ left := by
  cases e with
  | call d => exact absurd rfl (he.2 d)
  | serviceClient rs f => exact h.serviceClient hpb hnano hfits hframe he.1.1 he.1.2 hstep
  | turn i => exact h.turn hstep
  | read r => exact h.read hpb he.1 hstep

/-- **Every sequence of events on it.** -/
theorem Connection.Serving.run (hpb : pb.Lawful) (hnano : pb.Bounded) (hfits : c.Fits)
    (hframe : (pb.encodeToVec ⟨id, c.method.request⟩).length ≤ 65536) {es : List Event}
    (hes : ∀ e ∈ es, Event.Quiet e) {ns : List ℕ} (h : st.Serving m pb id c results P left)
    (hrun : Runs.run (fun st e => Connection.step pb m st e) st es = some (ns, st')) :
    ∃ left', st'.Serving m pb id c results P left' ∧ ns.sum + left' ≤ left := by
  induction es generalizing st left ns with
  | nil =>
    obtain ⟨rfl, rfl⟩ := Prod.mk.inj (Option.some.inj hrun)
    exact ⟨left, h, Nat.le_of_eq (Nat.zero_add left)⟩
  | cons e es ih =>
    obtain ⟨k, ns', u, hstep, hrest, rfl⟩ := run_cons_eq_some.mp hrun
    obtain ⟨left', h', hle⟩ := h.step hpb hnano hfits hframe (hes e List.mem_cons_self) hstep
    obtain ⟨left'', h'', hle'⟩ := ih (fun e' he' => hes e' (List.mem_cons_of_mem e he')) h' hrest
    refine ⟨left'', h'', ?_⟩
    rw [List.sum_cons]
    omega

/-- The server can read all of a request at once. -/
theorem Connection.Requesting.exists_step (hnano : pb.Bounded)
    (hframe : (pb.encodeToVec ⟨id, c.method.request⟩).length ≤ 65536)
    (h : st.Requesting pb id c) (f : ℕ → FrameFaults) :
    ∃ u, st.step pb m (.serviceClient [.data st.toServer] f) = some (st.toServer.length, u) := by
  obtain ⟨⟨k, hslot, hbytes⟩, -, hto, -⟩ := h
  have hmore := nextFrame_part (hnano.length_pos id c) hframe hbytes hto
  have hlen := congrArg List.length hbytes
  rw [List.length_append, length_frameBytes] at hlen
  exact Connection.exists_step_serviceClient hslot hmore hto (by omega) f

/-- **A call that is being served returns or has returned**: as long as it has not there is
something to read. -/
theorem Connection.Serving.outcome (hnano : pb.Bounded)
    (hframe : (pb.encodeToVec ⟨id, c.method.request⟩).length ≤ 65536)
    (h : st.Serving m pb id c results P left) :
    st.results = results ∧ (∃ e n u, Event.Quiet e ∧ st.step pb m e = some (n, u) ∧ 0 < n) ∨
      ∃ reply, st.results = results ++ [.ok reply] ∧ reply.Matches c ∧ P reply ∧ st.Idle := by
  rcases h with ⟨hreq, hresults, hP⟩ |
    ⟨k, reply, reading, hslot, hvalid, hwait, hto, hreading, hconforms, hmatches, hP, hresults⟩ |
    ⟨reply, hidle, hmatches, hP, hresults⟩
  · obtain ⟨u, hstep⟩ : ∃ u, st.step pb m _ = some (_, u) :=
      hreq.exists_step hnano hframe fun _ => .none
    refine Or.inl ⟨hresults, _, _, u, Event.quiet_serviceClient _ fun _ => rfl, hstep, ?_⟩
    exact List.length_pos_iff.mpr hreq.toServer
  · obtain ⟨hwants, hsent⟩ := hreading.wants_pos
    obtain ⟨b, u, hstep⟩ : ∃ b u, st.step pb m (.read (.data [b])) = some (1, u) :=
      Connection.exists_step_read hwait hwants hsent
    exact Or.inl ⟨hresults, _, _, u, Event.quiet_read (by simp), hstep, Nat.one_pos⟩
  · exact Or.inr ⟨reply, hresults, hmatches, hP, hidle⟩

/-- Reading on, it returns. -/
theorem Connection.Serving.exists_return (hpb : pb.Lawful) (hnano : pb.Bounded) (hfits : c.Fits)
    (hframe : (pb.encodeToVec ⟨id, c.method.request⟩).length ≤ 65536)
    (h : st.Serving m pb id c results P left) :
    ∃ es ns st' reply, (∀ e ∈ es, Event.Quiet e) ∧
      Runs.run (fun st e => Connection.step pb m st e) st es = some (ns, st') ∧
      st'.results = results ++ [.ok reply] ∧ P reply := by
  -- the bytes left to read are fewer after every read
  induction left using Nat.strongRecOn generalizing st with
  | ind k ih =>
    obtain ⟨-, e, n, u, he, hstep, hn⟩ | ⟨reply, hresults, -, hP, -⟩ := h.outcome hnano hframe
    · obtain ⟨left', h', hle⟩ := h.step hpb hnano hfits hframe he hstep
      obtain ⟨es, ns, st', reply, hes, hrun, hdone⟩ := ih left' (by omega) h'
      refine ⟨e :: es, n :: ns, st', reply, List.forall_mem_cons.mpr ⟨he, hes⟩, ?_, hdone⟩
      exact run_cons_eq_some.mpr ⟨n, ns, u, hstep, hrun, rfl⟩
    · exact ⟨[], [], st, reply, by simp, rfl, hresults, hP⟩

/-- **What a call can store**: only the frame of its request is ever handled, and only what that
stores is stored. -/
theorem Connection.Serving.envs_eq (hpb : pb.Lawful) (hnano : pb.Bounded) (hfits : c.Fits)
    (hframe : (pb.encodeToVec ⟨id, c.method.request⟩).length ≤ 65536)
    (hkeeps : ∀ {f a a'} {reply : Reply},
      answerBody m f a c.heard.method.request = some (reply.body, a') → a'.envs = a.envs)
    (h : st.Serving m pb id c results P left) {e : Event} (he : e.Quiet)
    (hturn : ∀ i, e ≠ .turn i) (hstep : st.step pb m e = some (n, st')) :
    st'.server.subagent.agent.envs = st.server.subagent.agent.envs := by
  cases e with
  | call d => exact absurd rfl (he.2 d)
  | turn i => exact absurd rfl (hturn i)
  | read r =>
    obtain ⟨w, -, ⟨chunk, rest, -, -, -, -, -, rfl⟩ | ⟨-, ⟨-, rfl⟩ | ⟨d, rfl, -⟩⟩⟩ :=
      Connection.step_read hstep
    · rw [Connection.server_resume]
    · rfl
    · rfl
  | serviceClient rs f =>
    obtain ⟨⟨hrs, hf⟩, -⟩ := he
    rcases h with ⟨⟨⟨k, hslot, hbytes⟩, hwait, hto, hsent⟩, hresults, hP⟩ |
      ⟨k, reply, reading, hslot, hvalid, hwait, hto, hreading, hconforms, hmatches, hP, hresults⟩ |
      ⟨reply, ⟨⟨k, hslot, hvalid⟩, hwait, hto, hsent⟩, hmatches, hP, hresults⟩
    · obtain ⟨reply, a', hans, -, -⟩ :=
        c.heard.exists_answer m (f st.server.answered.length) st.server.subagent.agent
      obtain ⟨-, hhandle⟩ := serveFrame_heard hpb hnano hfits hf hans id
      obtain ⟨k', rest, -, ⟨-, -, rfl⟩ | ⟨-, -, rfl⟩⟩ :=
        Connection.step_serviceClient_frame (hnano.length_pos id c) hframe hslot hbytes hto hrs
          hhandle hstep
      · rfl
      · exact hkeeps hans
    · obtain ⟨k', -, -, rfl⟩ := Connection.step_serviceClient_nothing hslot hvalid hto hrs hstep
      rfl
    · obtain ⟨k', -, -, rfl⟩ := Connection.step_serviceClient_nothing hslot hvalid hto hrs hstep
      rfl

/-- **A request that does not fit is not answered**: the server closes the connection, and that
is what the client is told. -/
theorem Connection.Requesting.closes (hnano : pb.Bounded)
    (hframe : (pb.encodeToVec ⟨id, c.method.request⟩).length ≤ 65536) (hfits : ¬c.Fits)
    (h : st.Requesting pb id c) :
    ∃ es ns st', (∀ e ∈ es, Event.Quiet e) ∧
      Runs.run (fun st e => Connection.step pb m st e) st es = some (ns, st') ∧
      st'.results = st.results ++ [.error .connectionClosed] ∧ st'.slot = none := by
  obtain ⟨u, hstep⟩ : ∃ u, st.step pb m _ = some (_, u) := h.exists_step hnano hframe fun _ => .none
  obtain ⟨⟨k, hslot, hbytes⟩, hwait, hto, hsent⟩ := h
  have h1 := hnano.length_pos id c
  have hmore := nextFrame_part h1 hframe hbytes hto
  have hdel : delivered [.data st.toServer] = st.toServer := List.append_nil _
  obtain ⟨k', o, rest, hopen, hrest, hserve, -, rfl⟩ := Connection.step_serviceClient hstep
  obtain rfl := Option.some.inj (hopen.symm.trans hslot)
  rw [← hdel] at hbytes
  obtain ⟨hstate, hstatus⟩ := serviceClient_closed (by simp) hmore h1 hframe hbytes
    (serveFrame_overflow hnano hfits _ _) hserve
  -- the client finds the end of the file where it waits for a length
  have hread : Connection.step pb m { st with
      toServer := rest, slot := o.status.toOption, server := o.state } (.read .endOfFile) =
      some (0, { st with toServer := rest, slot := none }.finishCall
        (.error .connectionClosed)) := by
    simp only [Connection.step, hwait, hstate, hstatus, hsent, Option.isNone_none, and_self,
      if_true]
  refine ⟨[.serviceClient [.data st.toServer] fun _ => .none, .read .endOfFile], _, _, ?_,
    run_cons_eq_some.mpr ⟨_, _, _, hstep, run_cons_eq_some.mpr ⟨_, _, _, hread, rfl, rfl⟩, rfl⟩,
    rfl, rfl⟩
  rw [List.forall_mem_cons, List.forall_mem_singleton]
  exact ⟨Event.quiet_serviceClient _ fun _ => rfl, Event.quiet_read (by simp)⟩

/-- The server answers a request that fits as its handlers do. -/
theorem Connection.Requesting.exists_serving (hpb : pb.Lawful) (hnano : pb.Bounded)
    (hframe : (pb.encodeToVec ⟨id, c.method.request⟩).length ≤ 65536) (hfits : c.Fits)
    (h : st.Requesting pb id c) {f : FrameFaults} (hf : f.unsent = false) {reply : Reply}
    {a' : Agent} (hans : answerBody m f st.server.subagent.agent c.heard.method.request =
      some (reply.body, a')) (hmatches : reply.Matches c) :
    ∃ e n u left, Event.Quiet e ∧ st.step pb m e = some (n, u) ∧
      u.Serving m pb id c st.results (· = reply) left := by
  obtain ⟨u, hstep⟩ : ∃ u, st.step pb m _ = some (_, u) := h.exists_step hnano hframe fun _ => f
  obtain ⟨⟨k, hslot, hbytes⟩, hwait, hto, hsent⟩ := h
  obtain ⟨hconforms, hhandle⟩ := serveFrame_heard hpb hnano hfits (fun _ => hf) hans id
  obtain ⟨k', rest, hlen, ⟨hrest, -, -⟩ | ⟨-, hvalid', rfl⟩⟩ :=
    Connection.step_serviceClient_frame (hnano.length_pos id c) hframe hslot hbytes hto (by simp)
      hhandle hstep
  · exact absurd (List.length_eq_zero_iff.mp (by omega)) hrest
  · refine ⟨_, _, _, _, Event.quiet_serviceClient _ fun _ => hf, hstep,
      .answering k' reply (.lenBuf []) rfl hvalid' hwait rfl ⟨by decide, ?_⟩ hconforms hmatches rfl
        rfl⟩
    rw [hsent]
    rfl

/-- A call on an idle connection is sent. -/
theorem Connection.Idle.requesting (hidle : st.Idle)
    (hframe : (pb.encodeToVec
      ⟨(freshRequestId st.nextRequestId).1, c.method.request⟩).length ≤ 65536) :
    (st.startCall pb c).Requesting pb (freshRequestId st.nextRequestId).1 c ∧
      (st.startCall pb c).results = st.results ∧
      (st.startCall pb c).server = st.server ∧
      (st.startCall pb c).toServer.length ≤ 4 + 65536 := by
  obtain ⟨⟨k, hslot, hvalid⟩, -, hto, hsent⟩ := hidle
  generalize hid : (freshRequestId st.nextRequestId).1 = id at hframe
  have hlen := length_frameBytes (pb.encodeToVec ⟨id, c.method.request⟩)
  have hstart : st.startCall pb c = { st with
      nextRequestId := (freshRequestId st.nextRequestId).2
      calls := st.calls ++ [(id, c)]
      toServer := frameBytes (pb.encodeToVec ⟨id, c.method.request⟩)
      waiting := some ⟨id, c, .lenBuf []⟩ } := by
    simp only [Connection.startCall, hid, writeFrame_eq_of_le hframe, hto, List.nil_append]
  rw [hstart]
  refine ⟨⟨⟨k, hslot, ?_⟩, rfl, ?_, hsent⟩, rfl, rfl, ?_⟩
  · rw [hvalid, List.nil_append]
  · rw [← List.length_pos_iff, hlen]
    omega
  · rw [hlen]
    omega

/-- A connection on which every call so far was admissible is idle between its calls. -/
theorem Connection.Inv.idle {done : List (Exchange m)} (h : st.Inv pb done)
    (hnone : st.waiting = none) : st.Idle := by
  rcases h.phase with ⟨k, hslot, hvalid, hwait, hto, hsent, -, -⟩ | ⟨_, _, _, _, _, _, hwait⟩ |
    ⟨_, _, _, _, _, hwait⟩
  · exact ⟨⟨k, hslot, hvalid⟩, hwait, hto, hsent⟩
  · exact absurd (hnone.symm.trans hwait) (by simp)
  · exact absurd (hnone.symm.trans hwait) (by simp)

end Serving

/-! ### Which calls are answered -/

section Which

variable {m : Modes} {pb : PbCodec} {st : Connection} {c : Call}

/-- **An answerable call is answered.** -/
theorem Connection.Idle.answers (hpb : pb.Lawful) (hnano : pb.Bounded) (hidle : st.Idle)
    (hframe : (pb.encodeToVec
      ⟨(freshRequestId st.nextRequestId).1, c.method.request⟩).length ≤ 65536)
    (hc : c.Answerable m) : st.Answers pb m c := by
  intro es ns st' hes hrun
  obtain ⟨hreq, hresults, -, hlen⟩ := hidle.requesting hframe
  -- `P` is that the answer has the status of the refusal
  have hstart : (st.startCall pb c).Serving m pb (freshRequestId st.nextRequestId).1 c st.results
      (fun reply => ∀ status, c.refusal m = some status → reply.status = some status) _ :=
    .requesting hreq hresults fun hans status href => (hc.refused href hans).1
  obtain ⟨left, hserving, hle⟩ := hstart.run hpb hnano hc.fits hframe hes hrun
  refine ⟨?_, ?_, ?_⟩
  · obtain hpending | hreturned := hserving.outcome hnano hframe
    · exact Or.inl hpending
    · exact Or.inr hreturned
  · intro hrefused e n u he hturn hstep
    obtain ⟨status, href⟩ := Option.ne_none_iff_exists'.mp hrefused
    exact hserving.envs_eq hpb hnano hc.fits hframe (fun hans => (hc.refused href hans).2) he hturn
      hstep
  · rw [callBytes]
    omega

/-- A call that does not fit is not answered. -/
theorem Connection.Idle.not_answers_of_overflow (hnano : pb.Bounded) (hidle : st.Idle)
    (hframe : (pb.encodeToVec
      ⟨(freshRequestId st.nextRequestId).1, c.method.request⟩).length ≤ 65536)
    (hfits : ¬c.Fits) : ¬st.Answers pb m c := by
  intro h
  obtain ⟨hreq, hresults, -, -⟩ := hidle.requesting hframe
  obtain ⟨es, ns, st', hes, hrun, hclosed, -⟩ := hreq.closes (m := m) hnano hframe hfits
  rw [hresults] at hclosed
  obtain ⟨⟨hsame, -⟩ | ⟨reply, hok, -⟩, -⟩ := h es ns st' hes hrun
  · simp [hclosed] at hsame
  · simp [hclosed] at hok

/-- A call that is mistaken for another is not answered as it should be. -/
theorem Connection.Idle.not_answers_of_mistaken (hpb : pb.Lawful) (hnano : pb.Bounded)
    (hidle : st.Idle)
    (hframe : (pb.encodeToVec
      ⟨(freshRequestId st.nextRequestId).1, c.method.request⟩).length ≤ 65536)
    (hfits : c.Fits) (hc : ¬c.Answerable m) : ¬st.Answers pb m c := by
  intro h
  obtain ⟨hreq, hresults, hserver, -⟩ := hidle.requesting hframe
  obtain ⟨status, f, reply, a', hf, href, hans, hmatches, hne⟩ :=
    c.exists_mistaken hfits hc (st.startCall pb c).server.subagent.agent
  obtain ⟨e, n, u, left, he, hstep, hserving⟩ :=
    hreq.exists_serving hpb hnano hframe hfits hf hans hmatches
  rw [hresults] at hserving
  obtain ⟨es, ns, st', reply', hes, hrun, hreturned, rfl⟩ :=
    hserving.exists_return hpb hnano hfits hframe
  have hwhole := run_cons_eq_some.mpr ⟨n, ns, u, hstep, hrun, rfl⟩
  obtain ⟨⟨hsame, -⟩ | ⟨reply, hok, -, hstatus, -⟩, -⟩ :=
    h (e :: es) _ st' (List.forall_mem_cons.mpr ⟨he, hes⟩) hwhole
  · simp [hreturned] at hsame
  · obtain rfl : reply' = reply := by simpa [hreturned] using hok
    exact hne (hstatus status href)

end Which

/-- **Which requests are answered with a status.** On a connection that is idle, for every call
whose request is not too large for a frame: the call returns a response of its kind, refuses what
it should refuse without storing anything and leaves the connection usable, if and only if its
key or trap name has less than 64 bytes, its byte string at most 256, and its key or trap name
does not have a known one in front of a NUL (or, for a write, the object of that name refuses the
value for its range). -/
theorem config_request_answered_iff {pb : PbCodec} (hpb : pb.Lawful) (hnano : pb.Bounded)
    (m : Modes) (st : Connection) (hidle : st.Idle) (c : Call)
    (hframe : (pb.encodeToVec
      ⟨(freshRequestId st.nextRequestId).1, c.method.request⟩).length ≤ 65536) :
    st.Answers pb m c ↔ c.Answerable m := by
  constructor
  · intro h
    by_contra hc
    by_cases hfits : c.Fits
    · exact hidle.not_answers_of_mistaken hpb hnano hframe hfits hc h
    · exact hidle.not_answers_of_overflow hnano hframe hfits h
  · exact hidle.answers hpb hnano hframe

/-- A name of 200 bytes for the device, on a new connection: longer than the object allows, and
not longer than a `Value` does. -/
theorem config_request_answered_longName :
    (Connection.connect ⟨⟨fun _ => ∅, .clear, []⟩, fun _ => none⟩).Answers boundedCodec .shipped
      (.writeConfig "deviceName" (.bytes (List.replicate 200 120))) := by
  have hlen : (List.replicate 200 (120 : UInt8)).length ≤ 256 :=
    List.length_replicate.trans_le (by decide)
  have hadm : (Call.writeConfig "deviceName" (.bytes (List.replicate 200 120))).Admissible :=
    ⟨⟨by decide, by decide⟩, hlen⟩
  have hinv : (Connection.connect ⟨⟨fun _ => ∅, .clear, []⟩, fun _ => none⟩).Inv boundedCodec
      ([] : List (Exchange .shipped)) := Connection.inv_connect _
  refine (config_request_answered_iff boundedCodec_lawful boundedCodec_bounded .shipped _
    (hinv.idle rfl) _ ?_).mpr ⟨by decide, hlen, ?_⟩
  · have hle := (boundedCodec_lawful.encodeToVec_bounds (e := ⟨1, _⟩) hadm.conforms).2
    exact le_trans hle (by decide)
  · intro s hs
    exact absurd hs.1 (by decide)

/-- A key of 64 bytes that nobody knows: the request is a small frame, and it should be refused
as invalid. It is not answered; the connection is closed, and the call returns that. -/
theorem config_request_unanswered_longKey :
    (boundedCodec.encodeToVec
        ⟨1, (Call.readConfig (String.ofList (List.replicate 64 'a'))).method.request⟩).length ≤
      65536 ∧
    (Call.readConfig (String.ofList (List.replicate 64 'a'))).refusal .shipped = some .invalid ∧
    ¬(Connection.connect ⟨⟨fun _ => ∅, .clear, []⟩, fun _ => none⟩).Answers boundedCodec .shipped
      (.readConfig (String.ofList (List.replicate 64 'a'))) ∧
    ∃ es ns st', (∀ e ∈ es, Event.Quiet e) ∧
      run (fun st e => Connection.step boundedCodec .shipped st e)
        ((Connection.connect ⟨⟨fun _ => ∅, .clear, []⟩, fun _ => none⟩).startCall boundedCodec
          (.readConfig (String.ofList (List.replicate 64 'a')))) es = some (ns, st') ∧
      st'.results = [.error .connectionClosed] ∧ st'.slot = none := by
  have hinv : (Connection.connect ⟨⟨fun _ => ∅, .clear, []⟩, fun _ => none⟩).Inv boundedCodec
      ([] : List (Exchange .shipped)) := Connection.inv_connect _
  have hidle := hinv.idle rfl
  have hlen : (utf8 (String.ofList (List.replicate 64 'a'))).length = 64 := by decide
  have hfits : ¬(Call.readConfig (String.ofList (List.replicate 64 'a'))).Fits :=
    fun hlt => absurd (hlen ▸ hlt) (Nat.lt_irrefl 64)
  have hframe : (boundedCodec.encodeToVec ⟨1, (Call.readConfig
      (String.ofList (List.replicate 64 'a'))).method.request⟩).length ≤ 65536 := by
    have hid := length_uintField_le (k := 1) (w := 1) (n := 1) (by omega) (by omega) (by omega)
    have hkey := length_bytesField_le (k := 1) (by omega) _ (hlen.trans_lt (by decide : 64 < 16384))
    have hbody := length_messageField (k := 12) (by omega) hkey (by omega)
    show (Wire.wire (uintField 1 1 ++ messageField 12 (bytesField 1 _))).length ≤ 65536
    rw [wire_append, List.length_append]
    omega
  obtain ⟨hreq, hresults, -, -⟩ := hidle.requesting hframe
  refine ⟨hframe, by decide, hidle.not_answers_of_overflow boundedCodec_bounded hframe hfits, ?_⟩
  obtain ⟨es, ns, st', hes, hrun, hclosed, hslot⟩ :=
    hreq.closes (m := .shipped) boundedCodec_bounded hframe hfits
  rw [hresults] at hclosed
  exact ⟨es, ns, st', hes, hrun, hclosed, hslot⟩

end AgentxSubagent
