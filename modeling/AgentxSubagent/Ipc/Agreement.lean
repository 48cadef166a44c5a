import AgentxSubagent.Agent.ScalarSet
import AgentxSubagent.Ipc.Server

/-!
# IPC writes and SNMP SETs

An object of the allowlist can be written in two ways: by a SET, whose checks the generator
derives from the MIB, and by a `WriteConfigRequest`, whose checks stand in `g_config_objects` by
hand. The ranges, the types and the environments are written down twice, and in different
integer types. `AgentxSubagent.ipc_writes_agree_with_sets` says that the two agree on every
value.

Both sides are compared with the SYNTAX of the object. `AgentxSubagent.Syn.reserve1_toAsn_iff`
is the half of the SET; the half of the request is
`AgentxSubagent.handleWriteConfig_cases`.
-/

namespace AgentxSubagent

namespace IpcValue

/-- The varbind of the corresponding ASN.1 type. There is no writable object of type
`Counter64`. -/
def toAsn : IpcValue → AsnValue
  | .int32 v => .integer v.toInt
  | .uint32 v => .unsigned v.toNat
  | .uint64 _ => .other
  | .bytes v => .octetStr v

/-- The value as it is stored. -/
def toValue : IpcValue → Value
  | .int32 v => .int32 v
  | .uint32 v => .uint32 v
  | .uint64 v => .uint64 v
  | .bytes v => .bytes v

/-- The message of a value stands for it. -/
theorem toValue_intoPb (v : IpcValue) : v.intoPb.toValue = some v.toValue := by
  cases v <;> rfl

end IpcValue

namespace Syn

/-- **RESERVE1 lets exactly the values through that the SYNTAX accepts.** -/
theorem reserve1_toAsn_iff (syn : Syn) (v : IpcValue) :
    syn.reserve1 v.toAsn = none ↔ syn.Accepts v.toValue := by
  match syn, v with
  | .octetString sizes, .bytes v =>
    simp only [IpcValue.toAsn, IpcValue.toValue, reserve1, Accepts]
    split_ifs with h
    · exact iff_of_true rfl h
    · exact iff_of_false (by simp) h
  | .integer32 enums ranges, .int32 v =>
    have hmem : v.toInt ∈ enums.map Int32.toInt ↔ v ∈ enums :=
      List.mem_map_of_injective fun _ _ h => Int32.toInt_inj.mp h
    simp only [IpcValue.toAsn, IpcValue.toValue, reserve1, Accepts, hmem]
    split_ifs with henum hrange
    · refine iff_of_false (by simp) ?_
      rintro ⟨hnil | hin, -⟩
      · exact henum.1 hnil
      · exact henum.2 hin
    · refine iff_of_true rfl ⟨?_, hrange⟩
      by_contra hcon
      exact henum (not_or.mp hcon)
    · exact iff_of_false (by simp) fun h => hrange h.2
  | .unsigned32 ranges, .uint32 v =>
    simp only [IpcValue.toAsn, IpcValue.toValue, reserve1, Accepts]
    split_ifs with h
    · exact iff_of_true rfl h
    · exact iff_of_false (by simp) h
  | .octetString _, .int32 _ | .octetString _, .uint32 _ | .octetString _, .uint64 _
  | .integer32 _ _, .bytes _ | .integer32 _ _, .uint32 _ | .integer32 _ _, .uint64 _
  | .unsigned32 _, .bytes _ | .unsigned32 _, .int32 _ | .unsigned32 _, .uint64 _ =>
    exact iff_of_false (by simp [reserve1, IpcValue.toAsn]) id

/-- ACTION stores an accepted value as it is. -/
theorem newValue_toAsn {syn : Syn} {v : IpcValue} (h : syn.Accepts v.toValue) :
    syn.newValue v.toAsn = some v.toValue := by
  match syn, v with
  | .octetString _, .bytes v => rfl
  | .integer32 _ _, .int32 v =>
    exact congrArg (fun x => some (Value.int32 x)) (Int32.ofInt_toInt v)
  | .unsigned32 _, .uint32 v =>
    refine congrArg (fun x => some (Value.uint32 x)) (UInt32.toNat_inj.mp ?_)
    have hlt := v.toNat_lt
    rw [UInt32.ofInt, UInt32.toNat_ofNat']
    omega

end Syn

/-- What a write request for a scalar does when nothing fails: it stores an accepted value, and
refuses any other. -/
theorem handleWriteConfig_none (m : Modes) (s : Scalar) (v : IpcValue) (envs : Envs) :
    ((s.object m).syn.Accepts v.toValue ∧
        handleWriteConfig m .none ⟨s.name, some v.intoPb⟩ envs =
          (⟨.ok, []⟩, envs.put (s.loc m) v.toValue.encode)) ∨
      ¬(s.object m).syn.Accepts v.toValue ∧
        (handleWriteConfig m .none ⟨s.name, some v.intoPb⟩ envs).1.status ≠ .ok ∧
        (handleWriteConfig m .none ⟨s.name, some v.intoPb⟩ envs).2 = envs := by
  obtain ⟨hstatus, henvs, hnot⟩ | ⟨t, w, hstores, -, hres⟩ :=
    handleWriteConfig_cases m .none ⟨s.name, some v.intoPb⟩ envs
  · refine Or.inr ⟨fun hacc => ?_, hstatus, henvs⟩
    have hstores : WriteConfigRequest.stores m s ⟨s.name, some v.intoPb⟩ = some v.toValue :=
      WriteConfigRequest.stores_eq_some.mpr ⟨rfl, v.toValue_intoPb, hacc⟩
    exact hnot s v.toValue hstores (Fault.none_spares _)
  · obtain ⟨hkey, hval, hacc⟩ := WriteConfigRequest.stores_eq_some.mp hstores
    obtain rfl : s = t := Scalar.name_inj hkey
    obtain rfl : v.toValue = w := Option.some.inj (v.toValue_intoPb.symm.trans hval)
    exact Or.inl ⟨hacc, hres⟩

/-- RESERVE1 as the template has it. -/
theorem Scalar.handle_reserve1 (m : Modes) (s : Scalar) (f : CallFaults) (a : Agent)
    (vb : AsnValue) :
    s.handle m f .reserve1 a (.fresh vb) =
      match (s.object m).syn.reserve1 vb with
      | some e => ((ScalarRequest.fresh vb).setError e, a)
      | none => (.fresh vb, a) := by
  obtain ⟨stored, -, hh⟩ := s.handle_eq m f
  rw [hh]
  rfl

/-- **IPC writes and SETs accept the same values and store the same bytes.** For every object of
the allowlist and every typed value, with no write failing: the request is answered `STATUS_OK` if
and only if RESERVE1 of the object's handler sets no error for the corresponding varbind; when it
is accepted, the request and ACTION leave the same contents; when it is refused, neither the
request nor RESERVE1 changes anything. -/
theorem ipc_writes_agree_with_sets (m : Modes) (obj : ConfigObject) (hobj : obj ∈ gConfigObjects m) :
    ∃ s : Scalar, s.name = obj.name ∧ ∀ (v : IpcValue) (a : Agent) (f : CallFaults),
      ((handleWriteConfig m .none ⟨obj.name, some v.intoPb⟩ a.envs).1.status = .ok ↔
        (s.handle m f .reserve1 a (.fresh v.toAsn)).1.status = none) ∧
      ((handleWriteConfig m .none ⟨obj.name, some v.intoPb⟩ a.envs).1.status = .ok →
        ∀ r : ScalarRequest, r.requestvb = v.toAsn → f.write = .none →
          (s.handle m f .action a r).1.status = r.status ∧
          (s.handle m f .action a r).2.envs =
            (handleWriteConfig m .none ⟨obj.name, some v.intoPb⟩ a.envs).2) ∧
      ((handleWriteConfig m .none ⟨obj.name, some v.intoPb⟩ a.envs).1.status ≠ .ok →
        (handleWriteConfig m .none ⟨obj.name, some v.intoPb⟩ a.envs).2 = a.envs ∧
        (s.handle m f .reserve1 a (.fresh v.toAsn)).2.envs = a.envs) := by
  obtain ⟨s, hname⟩ : ∃ s : Scalar, s.name = obj.name := by
    simp only [gConfigObjects, List.mem_cons, List.not_mem_nil, or_false] at hobj
    rcases hobj with rfl | rfl | rfl | rfl
    exacts [⟨.deviceName, rfl⟩, ⟨.tempThresholdMilliC, rfl⟩, ⟨.adminStatusExt, rfl⟩,
      ⟨.sampleIntervalSec, rfl⟩]
  refine ⟨s, hname, fun v a f => ?_⟩
  rw [← hname]
  have hsyn := (s.object m).syn.reserve1_toAsn_iff v
  obtain ⟨stored, hstored, hh⟩ := s.handle_eq m f
  have hreserve := Scalar.handle_reserve1 m s f a v.toAsn
  obtain ⟨hacc, hres⟩ | ⟨hacc, hstatus, henvs⟩ := handleWriteConfig_none m s v a.envs
  · rw [hres, hreserve, hsyn.mpr hacc]
    refine ⟨iff_of_true rfl rfl, fun _ r hr hf => ?_, fun hcon => absurd rfl hcon⟩
    have hset := a.envs.setValue_spared .none (s.object m).mode.env s.validKey_name
      (Fault.none_spares v.toValue)
    rw [hh]
    simp only [dbscalar, hr, Syn.newValue_toAsn hacc, hf, Scalar.object_name, hset]
    exact ⟨trivial, hstored _⟩
  · refine ⟨iff_of_false hstatus ?_, fun hcon => absurd hcon hstatus, fun _ => ⟨henvs, ?_⟩⟩
    · rw [hreserve]
      rcases he : (s.object m).syn.reserve1 v.toAsn with _ | e
      · exact absurd (hsyn.mp he) hacc
      · simp [ScalarRequest.setError]
    · rw [hreserve]
      split <;> rfl

/-- `sampleIntervalSec` takes 86400 seconds from a client as from a manager. -/
theorem ipc_writes_agree_interval :
    ∃ s : Scalar, s.name = ascii "sampleIntervalSec" ∧
      (handleWriteConfig .shipped .none ⟨ascii "sampleIntervalSec",
        some (IpcValue.uint32 86400).intoPb⟩ (fun _ => ∅)).1.status = .ok ∧
      (s.handle .shipped .none .reserve1 ⟨fun _ => ∅, .clear, []⟩
        (.fresh (.unsigned 86400))).1.status = none := by
  obtain ⟨s, hname, h⟩ := ipc_writes_agree_with_sets .shipped
    (Scalar.configObject .shipped .sampleIntervalSec) (by simp [gConfigObjects])
  obtain ⟨hiff, -⟩ := h (.uint32 86400) ⟨fun _ => ∅, .clear, []⟩ .none
  have hok : (handleWriteConfig .shipped .none ⟨ascii "sampleIntervalSec",
      some (IpcValue.uint32 86400).intoPb⟩ (fun _ => ∅)).1.status = .ok := by decide
  exact ⟨s, hname, hok, hiff.mp hok⟩

end AgentxSubagent
