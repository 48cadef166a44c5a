import AgentxSubagent.Storage.Envs
import AgentxSubagent.Table.Instance

/-!
# The writable objects of the MIB

The four read-write scalars and the three read-write columns of `portConfigTable`, with what
the templates `mib2c/mib2c.dbscalar.conf` and `mib2c/mib2c.dbtable.conf` make of their
clauses. The two templates emit the same text for the parts that depend on the SYNTAX of an
object: the check of MODE_SET_RESERVE1, the size of the buffers, the conversion in
MODE_SET_ACTION. `AgentxSubagent.Syn` is that SYNTAX, and those parts are functions of it.

* `AgentxSubagent.Syn.accepts_of_reserve1`: a varbind that passes RESERVE1 is converted to a
  value of the object's storage type that satisfies its constraint.
* `AgentxSubagent.Syn.denotes_of_reserve1`: and if the SYNTAX is constrained at all, the
  conversion cuts nothing off.

`include/storage_mode.h` picks an environment for each object at compile time. The choice is
a parameter here, `AgentxSubagent.Modes`, and everything is proved for every choice.
-/

namespace AgentxSubagent

/-! ### Values and errors of SNMP -/

/-- The value of a varbind, by its ASN.1 type. `val.integer` is a `long`, also for
`ASN_UNSIGNED`. -/
inductive AsnValue
  | octetStr (s : Bytes)
  | integer (v : ℤ)
  | unsigned (v : ℤ)
  | other
  deriving DecidableEq

/-- The errors the SET handlers report. -/
inductive SnmpErr
  | genErr
  | noCreation
  | wrongType
  | wrongLength
  | wrongValue
  | notWritable
  | resourceUnavailable
  | commitFailed
  | undoFailed
  deriving DecidableEq, Repr

/-- A stored value is the value of a varbind. -/
def AsnValue.Denotes : AsnValue → Value → Prop
  | .octetStr s, .bytes b => b = s
  | .integer n, .int32 v => v.toInt = n
  | .unsigned n, .uint32 v => (v.toNat : ℤ) = n
  | _, _ => False

/-! ### SYNTAX clauses -/

/-- The SYNTAX of a writable object: the alternatives of its SIZE clause, or its
enumeration and the alternatives of its range; an empty list is a clause that is not
there. -/
inductive Syn
  | octetString (sizes : List (ℕ × ℕ))
  | integer32 (enums : List Int32) (ranges : List (Int32 × Int32))
  | unsigned32 (ranges : List (UInt32 × UInt32))

/-- A number lies in one of the alternatives; without any, everything does. -/
def InSome (alts : List (ℤ × ℤ)) (v : ℤ) : Prop := alts = [] ∨ ∃ r ∈ alts, r.1 ≤ v ∧ v ≤ r.2

instance (alts : List (ℤ × ℤ)) (v : ℤ) : Decidable (InSome alts v) :=
  inferInstanceAs (Decidable (_ ∨ _))

namespace Syn

/-- The type an object of this SYNTAX is stored with. -/
def type : Syn → StorageType
  | .octetString _ => .bytes
  | .integer32 _ _ => .int32
  | .unsigned32 _ => .uint32

/-- `$buflen`: one byte more than the longest string, or 256 without a SIZE clause. -/
def buflen : Syn → ℕ
  | .octetString [] => 256
  | .octetString sizes => (sizes.map Prod.snd).foldl max 0 + 1
  | _ => 0

/-- MODE_SET_RESERVE1 on the value of a varbind: the error set, if any. -/
def reserve1 : Syn → AsnValue → Option SnmpErr
  | .octetString sizes, .octetStr s =>
    if InSome (sizes.map fun r => (r.1, r.2)) s.length then none else some .wrongLength
  | .integer32 enums ranges, .integer v =>
    if enums ≠ [] ∧ v ∉ enums.map Int32.toInt then some .wrongValue
    else if InSome (ranges.map fun r => (r.1.toInt, r.2.toInt)) v then none
    else some .wrongValue
  | .unsigned32 ranges, .unsigned v =>
    if InSome (ranges.map fun r => ((r.1.toNat : ℤ), (r.2.toNat : ℤ))) v then none
    else some .wrongValue
  | _, _ => some .wrongType

/-- The value MODE_SET_ACTION stores, cut to 32 bits; `none` for a varbind of another type,
whose value is never looked at. -/
def newValue : Syn → AsnValue → Option Value
  | .octetString _, .octetStr s => some (.bytes s)
  | .integer32 _ _, .integer v => some (.int32 (.ofInt v))
  | .unsigned32 _, .unsigned v => some (.uint32 (.ofInt v))
  | _, _ => none

/-- A stash with nothing in it: zero, or the empty string. -/
def zero : Syn → Value
  | .octetString _ => .bytes []
  | .integer32 _ _ => .int32 0
  | .unsigned32 _ => .uint32 0

/-- **A value of the object's storage type that satisfies its constraint.** -/
def Accepts : Syn → Value → Prop
  | .octetString sizes, .bytes s => InSome (sizes.map fun r => (r.1, r.2)) s.length
  | .integer32 enums ranges, .int32 v =>
    (enums = [] ∨ v ∈ enums) ∧ InSome (ranges.map fun r => (r.1.toInt, r.2.toInt)) v.toInt
  | .unsigned32 ranges, .uint32 v =>
    InSome (ranges.map fun r => ((r.1.toNat : ℤ), (r.2.toNat : ℤ))) v.toNat
  | _, _ => False

instance (syn : Syn) (v : Value) : Decidable (syn.Accepts v) :=
  match syn, v with
  | .octetString _, .bytes _ => inferInstanceAs (Decidable (InSome _ _))
  | .integer32 _ _, .int32 _ => inferInstanceAs (Decidable ((_ ∨ _) ∧ InSome _ _))
  | .unsigned32 _, .uint32 _ => inferInstanceAs (Decidable (InSome _ _))
  | .octetString _, .int32 _ | .octetString _, .uint32 _ | .octetString _, .uint64 _
  | .octetString _, .oid _ | .integer32 _ _, .bytes _ | .integer32 _ _, .uint32 _
  | .integer32 _ _, .uint64 _ | .integer32 _ _, .oid _ | .unsigned32 _, .bytes _
  | .unsigned32 _, .int32 _ | .unsigned32 _, .uint64 _ | .unsigned32 _, .oid _ =>
    inferInstanceAs (Decidable False)

/-- The SYNTAX has an enumeration, a range or a size. -/
def Constrained : Syn → Prop
  | .octetString sizes => sizes ≠ []
  | .integer32 enums ranges => enums ≠ [] ∨ ranges ≠ []
  | .unsigned32 ranges => ranges ≠ []

/-- A value the SYNTAX accepts has its storage type. -/
theorem Accepts.storageType {syn : Syn} {v : Value} (h : syn.Accepts v) :
    v.storageType = syn.type := by
  cases syn <;> cases v <;> first | rfl | exact h.elim

end Syn

/-- A number between two 32-bit signed bounds survives the cut. -/
theorem toInt_ofInt_of_between {lo hi : Int32} {v : ℤ} (h : lo.toInt ≤ v ∧ v ≤ hi.toInt) :
    (Int32.ofInt v).toInt = v :=
  Int32.toInt_ofInt_of_le (le_trans lo.le_toInt h.1) (lt_of_le_of_lt h.2 hi.toInt_lt)

/-- A number between two 32-bit unsigned bounds survives the cut. -/
theorem toNat_ofInt_of_between {lo hi : UInt32} {v : ℤ}
    (h : (lo.toNat : ℤ) ≤ v ∧ v ≤ (hi.toNat : ℤ)) : ((UInt32.ofInt v).toNat : ℤ) = v := by
  have hhi := hi.toNat_lt
  rw [UInt32.ofInt, UInt32.toNat_ofNat']
  omega

namespace Syn

/-- A number the switch over the labels lets through is a label. -/
theorem mem_of_not_refused {enums : List Int32} {v : ℤ}
    (h : ¬(enums ≠ [] ∧ v ∉ enums.map Int32.toInt)) (hne : enums ≠ []) :
    v ∈ enums.map Int32.toInt := by
  by_contra hv
  exact h ⟨hne, hv⟩

/-- **RESERVE1 does not let a value through that would be cut**, as far as the SYNTAX is
constrained. -/
theorem denotes_of_reserve1 {syn : Syn} (hsyn : syn.Constrained) {a : AsnValue}
    (h : syn.reserve1 a = none) : ∃ v, syn.newValue a = some v ∧ a.Denotes v := by
  match syn, a with
  | .octetString _, .octetStr s => exact ⟨.bytes s, rfl, rfl⟩
  | .integer32 enums ranges, .integer v =>
    refine ⟨.int32 (.ofInt v), rfl, ?_⟩
    simp only [reserve1] at h
    split_ifs at h with henum hrange
    by_cases he : enums = []
    · have hne : ranges ≠ [] := hsyn.resolve_left (not_not_intro he)
      obtain hnil | ⟨r, hr, hv⟩ := hrange
      · exact absurd (List.map_eq_nil_iff.mp hnil) hne
      · obtain ⟨b, -, rfl⟩ := List.mem_map.mp hr
        exact toInt_ofInt_of_between hv
    · obtain ⟨x, -, rfl⟩ := List.mem_map.mp (mem_of_not_refused henum he)
      exact congrArg Int32.toInt (Int32.ofInt_toInt x)
  | .unsigned32 ranges, .unsigned v =>
    refine ⟨.uint32 (.ofInt v), rfl, ?_⟩
    simp only [reserve1] at h
    split_ifs at h with hrange
    obtain hnil | ⟨r, hr, hv⟩ := hrange
    · exact absurd (List.map_eq_nil_iff.mp hnil) hsyn
    · obtain ⟨b, -, rfl⟩ := List.mem_map.mp hr
      exact toNat_ofInt_of_between hv

/-- **What passes RESERVE1 is stored as a value the SYNTAX accepts.** -/
theorem accepts_of_reserve1 {syn : Syn} {a : AsnValue} (h : syn.reserve1 a = none) :
    ∃ v, syn.newValue a = some v ∧ syn.Accepts v := by
  match syn, a with
  | .octetString sizes, .octetStr s =>
    refine ⟨.bytes s, rfl, ?_⟩
    simp only [reserve1] at h
    split_ifs at h with hlen
    exact hlen
  | .integer32 enums ranges, .integer v =>
    refine ⟨.int32 (.ofInt v), rfl, ?_⟩
    simp only [reserve1] at h
    split_ifs at h with henum hrange
    constructor
    · rcases eq_or_ne enums [] with he | he
      · exact Or.inl he
      · obtain ⟨x, hx, rfl⟩ := List.mem_map.mp (mem_of_not_refused henum he)
        rw [Int32.ofInt_toInt]
        exact Or.inr hx
    · obtain hnil | ⟨r, hr, hv⟩ := hrange
      · exact Or.inl hnil
      · obtain ⟨b, hb, rfl⟩ := List.mem_map.mp hr
        refine Or.inr ⟨_, hr, ?_⟩
        rw [toInt_ofInt_of_between hv]
        exact hv
  | .unsigned32 ranges, .unsigned v =>
    refine ⟨.uint32 (.ofInt v), rfl, ?_⟩
    simp only [reserve1] at h
    split_ifs at h with hrange
    obtain hnil | ⟨r, hr, hv⟩ := hrange
    · exact Or.inl hnil
    · obtain ⟨b, hb, rfl⟩ := List.mem_map.mp hr
      refine Or.inr ⟨_, hr, ?_⟩
      rw [toNat_ofInt_of_between hv]
      exact hv

end Syn

/-! ### Storage modes -/

/-- `STORAGE_MODE_PERSISTENT` and `STORAGE_MODE_VOLATILE`. -/
inductive StorageMode
  | persistent
  | volatile
  deriving DecidableEq

/-- The environment a mode selects. -/
def StorageMode.env : StorageMode → EnvId
  | .persistent => .config
  | .volatile => .cache

/-- The `STORAGE_MODE_*` settings of `storage_mode.h`. -/
structure Modes where
  deviceName : StorageMode
  tempThresholdMilliC : StorageMode
  adminStatusExt : StorageMode
  sampleIntervalSec : StorageMode
  portDescr : StorageMode
  portAdminStatus : StorageMode
  portAlarmThresholdMilliC : StorageMode

/-- The settings the repository ships. -/
def Modes.shipped : Modes where
  deviceName := .persistent
  tempThresholdMilliC := .volatile
  adminStatusExt := .persistent
  sampleIntervalSec := .persistent
  portDescr := .persistent
  portAdminStatus := .persistent
  portAlarmThresholdMilliC := .volatile

/-! ### The objects -/

/-- A writable object: its name, which is also its key or the front of its cells' keys, its
SYNTAX, its storage mode and its DEFVAL. -/
structure MibObject where
  name : Bytes
  syn : Syn
  mode : StorageMode
  defval : Value

/-- The read-write scalars. -/
inductive Scalar
  | deviceName
  | tempThresholdMilliC
  | adminStatusExt
  | sampleIntervalSec
  deriving DecidableEq

/-- The name of a scalar, which is its key. -/
def Scalar.name : Scalar → Bytes
  | .deviceName => ascii "deviceName"
  | .tempThresholdMilliC => ascii "tempThresholdMilliC"
  | .adminStatusExt => ascii "adminStatusExt"
  | .sampleIntervalSec => ascii "sampleIntervalSec"

/-- The scalars as the MIB declares them. -/
def Scalar.object (m : Modes) : Scalar → MibObject
  | .deviceName =>
    ⟨Scalar.name .deviceName, .octetString [(0, 63)], m.deviceName, .bytes (ascii "agentx-demo")⟩
  | .tempThresholdMilliC =>
    ⟨Scalar.name .tempThresholdMilliC, .integer32 [] [(-40000, 125000)], m.tempThresholdMilliC,
      .int32 70000⟩
  | .adminStatusExt =>
    ⟨Scalar.name .adminStatusExt, .integer32 [1, 2, 3] [], m.adminStatusExt, .int32 1⟩
  | .sampleIntervalSec =>
    ⟨Scalar.name .sampleIntervalSec, .unsigned32 [(1, 86400)], m.sampleIntervalSec, .uint32 60⟩

/-- The accessible columns of `portConfigTable`. -/
inductive PortColumn
  | portDescr
  | portAdminStatus
  | portAlarmThresholdMilliC
  deriving DecidableEq

/-- The name of a column, in front of the keys of its cells. -/
def PortColumn.name : PortColumn → Bytes
  | .portDescr => ascii "portDescr"
  | .portAdminStatus => ascii "portAdminStatus"
  | .portAlarmThresholdMilliC => ascii "portAlarmThresholdMilliC"

/-- The columns as the MIB declares them. -/
def PortColumn.object (m : Modes) : PortColumn → MibObject
  | .portDescr =>
    ⟨PortColumn.name .portDescr, .octetString [(0, 63)], m.portDescr, .bytes (ascii "port")⟩
  | .portAdminStatus =>
    ⟨PortColumn.name .portAdminStatus, .integer32 [1, 2, 3] [], m.portAdminStatus, .int32 1⟩
  | .portAlarmThresholdMilliC =>
    ⟨PortColumn.name .portAlarmThresholdMilliC, .integer32 [] [(-40000, 125000)],
      m.portAlarmThresholdMilliC, .int32 80000⟩

/-- `COLUMN_PORTDESCR` to `COLUMN_PORTALARMTHRESHOLDMILLIC`: the column of a column number,
or the `default` of the handlers' switches. -/
def PortColumn.ofColnum : ℕ → Option PortColumn
  | 2 => some .portDescr
  | 3 => some .portAdminStatus
  | 4 => some .portAlarmThresholdMilliC
  | _ => none

/-- Where a scalar is stored. -/
def Scalar.loc (m : Modes) (s : Scalar) : Loc := ((s.object m).mode.env, s.name)

/-- Where a cell is stored. -/
def PortColumn.cellLoc (m : Modes) (c : PortColumn) (inst : TableInstance) : Loc :=
  ((c.object m).mode.env, cellKey c.name inst)

@[simp] theorem Scalar.object_name (m : Modes) (s : Scalar) : (s.object m).name = s.name := by
  cases s <;> rfl

@[simp] theorem PortColumn.object_name (m : Modes) (c : PortColumn) :
    (c.object m).name = c.name := by
  cases c <;> rfl

theorem Scalar.validKey_name (s : Scalar) : ValidKey s.name := by
  cases s <;> decide

theorem Scalar.dot_notMem_name (s : Scalar) : (46 : UInt8) ∉ s.name := by
  cases s <;> decide

theorem PortColumn.dot_notMem_name (c : PortColumn) : (46 : UInt8) ∉ c.name := by
  cases c <;> decide

theorem Scalar.name_inj {s t : Scalar} (h : s.name = t.name) : s = t := by
  revert h
  cases s <;> cases t <;> decide

theorem PortColumn.name_inj {c d : PortColumn} (h : c.name = d.name) : c = d := by
  revert h
  cases c <;> cases d <;> decide

/-- Every column has an enumeration, a range or a size. -/
theorem PortColumn.constrained (m : Modes) (c : PortColumn) : (c.object m).syn.Constrained := by
  cases c <;> simp [PortColumn.object, Syn.Constrained]

/-- **Every DEFVAL passes the check of its own object.** -/
theorem Scalar.accepts_defval (m : Modes) (s : Scalar) :
    (s.object m).syn.Accepts (s.object m).defval := by
  cases s <;> simp only [Scalar.object] <;> decide

theorem PortColumn.accepts_defval (m : Modes) (c : PortColumn) :
    (c.object m).syn.Accepts (c.object m).defval := by
  cases c <;> simp only [PortColumn.object] <;> decide

/-- The labels of the enumerations are a range. -/
theorem label_iff_between {v : Int32} : v ∈ [(1 : Int32), 2, 3] ↔ 1 ≤ v.toInt ∧ v.toInt ≤ 3 := by
  constructor
  · intro h
    simp only [List.mem_cons, List.not_mem_nil, or_false] at h
    rcases h with rfl | rfl | rfl <;> decide
  · rintro ⟨hlo, hhi⟩
    obtain h | h | h : v.toInt = 1 ∨ v.toInt = 2 ∨ v.toInt = 3 := by omega
    · rw [show v = 1 from Int32.toInt_inj.mp h]
      decide
    · rw [show v = 2 from Int32.toInt_inj.mp h]
      decide
    · rw [show v = 3 from Int32.toInt_inj.mp h]
      decide

/-- No two scalars share a place. -/
theorem Scalar.loc_inj {m : Modes} {s t : Scalar} (h : s.loc m = t.loc m) : s = t :=
  Scalar.name_inj (Prod.ext_iff.mp h).2

/-- No two cells share a place. -/
theorem PortColumn.cellLoc_inj {m : Modes} {c d : PortColumn} {i j : TableInstance}
    (h : c.cellLoc m i = d.cellLoc m j) : c = d ∧ i = j := by
  obtain ⟨hname, hinst⟩ := cellKey_inj c.dot_notMem_name d.dot_notMem_name (Prod.ext_iff.mp h).2
  exact ⟨PortColumn.name_inj hname, hinst⟩

/-- **A scalar and a cell never share a place**: the key of a cell has a dot. -/
theorem Scalar.loc_ne_cellLoc (m : Modes) (s : Scalar) (c : PortColumn) (inst : TableInstance) :
    s.loc m ≠ c.cellLoc m inst := by
  intro h
  have hkey : s.name = cellKey c.name inst := (Prod.ext_iff.mp h).2
  refine s.dot_notMem_name ?_
  rw [hkey, cellKey]
  simp

end AgentxSubagent
