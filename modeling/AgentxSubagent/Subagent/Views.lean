import AgentxSubagent.Subagent.System

/-!
# What the readers see

Managers read through the GET handlers, IPC clients with `ReadConfigRequest`, and the Rust programs
open the environments themselves. Each of them has its own idea of the type of an object, and of
the room a value takes. In every state the system gets to (`AgentxSubagent.System.Reachable`) they
get along:

* `AgentxSubagent.views_agree`: SNMP, IPC and Rust see the same configuration.
* `AgentxSubagent.every_get_served`: no GET of any object ends in `genErr`.
* `AgentxSubagent.sample_visible`: while the telemetry app sleeps, its sample is what SNMP shows.
* `AgentxSubagent.sample_interval`: the interval it reads is the one SNMP shows, and never zero.
-/

namespace AgentxSubagent

open Assign Runs

/-! ### The readers of the configuration -/

/-- The type a writable scalar is answered with. `ASN_UNSIGNED` is `ASN_GAUGE`. -/
def Scalar.asnType : Scalar → AsnType
  | .deviceName => .octetStr
  | .tempThresholdMilliC => .integer
  | .adminStatusExt => .integer
  | .sampleIntervalSec => .gauge

/-- `handle_deviceName` to `handle_sampleIntervalSec` in MODE_GET; `rf` is what fails in the read. -/
def Scalar.handleGet (m : Modes) (rf : ReadFault) (envs : Envs) (s : Scalar) : GetReply :=
  match envs.getAs rf.fault (s.object m).mode.env (s.object m).syn.type s.name
      (s.object m).syn.buflen with
  | .error .notFound => .noSuchInstance
  | .error _ => .genErr
  | .ok v => .value s.asnType v

/-- `DEFAULT_SAMPLE_INTERVAL_SEC`. -/
def defaultSampleIntervalSec : UInt64 := 60

/-- `read_sample_interval_sec`: `opened` is whether `ConfigStore::open` succeeds, and `fails` whether
the read does not. -/
def readSampleIntervalSec (opened fails : Bool) (config : Lmdb) : UInt64 :=
  if opened then
    match tryGet fails (ascii "sampleIntervalSec") config with
    | .ok (some (.uint32 v)) => v.toUInt64
    | .ok (some (.int32 v)) => if v > 0 then v.toInt64.toUInt64 else defaultSampleIntervalSec
    | _ => defaultSampleIntervalSec
  else defaultSampleIntervalSec

/-! ### Stored values -/

section Stored

variable {m : Modes} {envs : Envs} {s : Scalar} {v : Value}

/-- A value its SYNTAX accepts fits the buffer of its handler. -/
theorem Scalar.fits (h : (s.object m).syn.Accepts v) : (s.object m).syn.Fits v := by
  refine ⟨h.storageType.symm, fun n hn => ?_⟩
  rw [s.accepts_iff m] at h
  cases s with
  | deviceName =>
    cases v with
    | bytes b =>
      obtain rfl := Option.some.inj hn
      exact Nat.le_succ_of_le h
    | _ => exact h.elim
  | _ => cases v <;> first | exact h.elim | exact absurd hn (by simp [Value.units])

/-- And one of a column. -/
theorem PortColumn.fits {c : PortColumn} (h : (c.object m).syn.Accepts v) :
    (c.object m).syn.Fits v := by
  refine ⟨h.storageType.symm, fun n hn => ?_⟩
  rw [c.accepts_iff m] at h
  cases c with
  | portDescr =>
    cases v with
    | bytes b =>
      obtain rfl := Option.some.inj hn
      exact Nat.le_succ_of_le h
    | _ => exact h.elim
  | _ => cases v <;> first | exact h.elim | exact absurd hn (by simp [Value.units])

/-- What fits is read. -/
theorem Syn.Fits.readAs {syn : Syn} (h : syn.Fits v) :
    (readAs syn.type syn.buflen v.encode).1 = .ok v := by
  rw [h.1]
  exact readAs_eq_ok_iff.mpr ⟨holdsValue_encode v, h.2⟩

/-- **A GET of a writable scalar** answers what is stored. -/
theorem Scalar.handleGet_of_stored (h : (s.object m).syn.Accepts v)
    (hstored : envs.stored (s.loc m) = some v.encode) :
    s.handleGet m .none envs = .value s.asnType v := by
  rw [Scalar.handleGet, show ReadFault.none.fault = .none from rfl,
    Envs.getAs_none s.validKey_name, show envs.stored ((s.object m).mode.env, s.name) = _ from hstored]
  simp only [(Scalar.fits h).readAs]

/-- **A `ReadConfigRequest`** answers what is stored. -/
theorem handleReadConfig_of_stored (h : (s.object m).syn.Accepts v)
    (hstored : envs.stored (s.loc m) = some v.encode) :
    ∃ value, handleReadConfig m .none s.name envs = ⟨.ok, some value, []⟩ ∧
      value.toValue = some v := by
  have hroom : ∀ n, v.units = some n → n ≤ 256 := by
    intro n hn
    refine ((Scalar.fits h).2 n hn).trans ?_
    cases s <;> simp [Scalar.object, Syn.buflen]
  have hget : envs.getAs .none (s.object m).mode.env (s.object m).syn.type s.name 256 = .ok v := by
    rw [Envs.getAs_none s.validKey_name,
      show envs.stored ((s.object m).mode.env, s.name) = _ from hstored, ← h.storageType]
    exact readAs_eq_ok_iff.mpr ⟨holdsValue_encode v, hroom⟩
  have hmap : ∀ {α : Type} {r : Except StorageErr α} {f : α → Value} {x : α},
      Function.Injective f → r.map f = .ok (f x) → r = .ok x := by
    intro α r f x hf hr
    rcases r with rc | y
    · exact absurd hr (by simp [Except.map])
    · exact congrArg Except.ok (hf (Except.ok.inj hr))
  rw [handleReadConfig, findConfigObject_name]
  cases s with
  | deviceName =>
    cases v with
    | bytes b =>
      have hb : (storageGetBytes .none (ascii "deviceName") 256
          (.idle (envs m.deviceName.env))).1.1 = .ok b :=
        hmap (fun _ _ heq => Value.bytes.inj heq) hget
      simp only [Scalar.configObject, ReadFault.none, hb, readAnswer]
      exact ⟨_, rfl, rfl⟩
    | _ => exact h.elim
  | tempThresholdMilliC =>
    cases v with
    | int32 n =>
      have hn : (storageGetInt .none (ascii "tempThresholdMilliC")
          (.idle (envs m.tempThresholdMilliC.env))).1 = .ok n :=
        hmap (fun _ _ heq => Value.int32.inj heq) hget
      simp only [Scalar.configObject, ReadFault.none, hn, readAnswer]
      exact ⟨_, rfl, rfl⟩
    | _ => exact h.elim
  | adminStatusExt =>
    cases v with
    | int32 n =>
      have hn : (storageGetInt .none (ascii "adminStatusExt")
          (.idle (envs m.adminStatusExt.env))).1 = .ok n :=
        hmap (fun _ _ heq => Value.int32.inj heq) hget
      simp only [Scalar.configObject, ReadFault.none, hn, readAnswer]
      exact ⟨_, rfl, rfl⟩
    | _ => exact h.elim
  | sampleIntervalSec =>
    cases v with
    | uint32 n =>
      have hn : (storageGetUint .none (ascii "sampleIntervalSec")
          (.idle (envs m.sampleIntervalSec.env))).1 = .ok n :=
        hmap (fun _ _ heq => Value.uint32.inj heq) hget
      simp only [Scalar.configObject, ReadFault.none, hn, readAnswer]
      exact ⟨_, rfl, rfl⟩
    | _ => exact h.elim

/-- **A Rust reader** gets what is stored. -/
theorem tryGet_of_stored {key : Bytes} {db : Lmdb} (hkey : ValidKey key)
    (hstored : db[key]? = some v.encode) : tryGet false key db = .ok (some v) := by
  have hraw : getRaw false key db = .ok (some v.encode) := by
    rw [getRaw, if_neg (by simp [Nat.ne_of_gt hkey.1]), hstored]
  rw [tryGet, hraw]
  simp only [Value.decode_encode]
  rfl

theorem getTyped_of_stored {key : Bytes} {db : Lmdb} (hkey : ValidKey key)
    (hstored : db[key]? = some v.encode) : getTyped false key v.storageType db = .ok v := by
  have hraw : getRaw false key db = .ok (some v.encode) := by
    rw [getRaw, if_neg (by simp [Nat.ne_of_gt hkey.1]), hstored]
  rw [getTyped, getValue, hraw]
  simp only [Value.decode_encode, Except.mapError]
  exact if_neg (by simp)

end Stored

/-! ### What is stored in a reachable state -/

namespace System

variable {m : Modes} {sys : System} {content : Option Bytes}

/-- A value that is there for the subagent and of the system's making is one its SYNTAX accepts. -/
theorem Inv.accepted (h : sys.Inv m) {l : Loc} {data : Bytes} {allowed : Value → Prop}
    (hstored : sys.envs.stored l = some data) (hholds : Holds allowed data) :
    ∃ v, sys.envs.stored l = some v.encode ∧ allowed v := by
  obtain ⟨v, rfl, -, -⟩ := (h.sound l).typed data hstored
  obtain ⟨w, ⟨cap, hread⟩, hw⟩ := hholds
  obtain rfl := readsAlike_encode_iff.mp (readsAlike_encode hread)
  exact ⟨v, hstored, hw⟩

/-- Every writable scalar has a value of its range. -/
theorem Inv.scalar (h : sys.Inv m) (s : Scalar) :
    ∃ v, sys.envs.stored (s.loc m) = some v.encode ∧ (s.object m).syn.Accepts v := by
  obtain ⟨hallowed, hpresent⟩ := h.subagent.valid (s.loc m)
  obtain ⟨data, hdata⟩ := Option.ne_none_iff_exists'.mp (hpresent s rfl)
  obtain ⟨v, hv, hrange⟩ := h.accepted hdata ((hallowed data hdata).1 s rfl)
  exact ⟨v, hv, (s.accepts_iff m v).mpr hrange⟩

/-- A cell of `portConfigTable` is missing or has one. -/
theorem Inv.portCell (h : sys.Inv m) (c : PortColumn) (r : UInt32) :
    sys.envs.stored (c.cellLoc m [r]) = none ∨
      ∃ v, sys.envs.stored (c.cellLoc m [r]) = some v.encode ∧ (c.object m).syn.Accepts v := by
  rcases hdata : sys.envs.stored (c.cellLoc m [r]) with _ | data
  · exact Or.inl rfl
  · have hholds := ((h.subagent.valid (c.cellLoc m [r])).1 data hdata).2 c r rfl
    obtain ⟨v, hv, hrange⟩ := h.accepted hdata hholds
    exact Or.inr ⟨v, hdata ▸ hv, (c.accepts_iff m v).mpr hrange⟩

/-- Every read-only scalar has a value its handler answers with. -/
theorem Inv.readOnly (h : sys.Inv m) {o : ReadOnlyScalar} (ho : o ∈ ReadOnlyScalar.all) :
    ∃ v, sys.envs.stored o.loc = some v.encode ∧ o.syn.Fits v := by
  obtain ⟨data, hdata⟩ := Option.ne_none_iff_exists'.mp ((h.sound o.loc).present o ho rfl)
  obtain ⟨v, rfl, hfits, -⟩ := (h.sound o.loc).typed data hdata
  exact ⟨v, hdata, hfits o ho rfl⟩

/-- A cell of `sensorTable` is missing or has one. -/
theorem Inv.sensorCell (h : sys.Inv m) {c : TableColumn} (hc : c ∈ sensorTable.columns)
    (r : UInt32) : sys.envs.stored (c.loc [r]) = none ∨
      ∃ v, sys.envs.stored (c.loc [r]) = some v.encode ∧ c.syn.Fits v := by
  rcases hdata : sys.envs.stored (c.loc [r]) with _ | data
  · exact Or.inl rfl
  · obtain ⟨v, rfl, -, hfits⟩ := (h.sound (c.loc [r])).typed data hdata
    exact Or.inr ⟨v, rfl, hfits c hc r rfl⟩

end System

/-- A GET of a cell that is missing or has a value its handler answers with. -/
theorem GeneratedTable.get_served {t : GeneratedTable} (ix : IndexCodec) {envs : Envs}
    {c : TableColumn} (hc : c ∈ t.columns) (r : UInt32) {P : Value → Prop}
    (hP : ∀ v, P v → c.syn.Fits v)
    (h : envs.stored (c.loc [r]) = none ∨ ∃ v, envs.stored (c.loc [r]) = some v.encode ∧ P v) :
    t.get ix envs c.colnum [r.toNat] = .noSuchInstance ∨
      ∃ v, t.get ix envs c.colnum [r.toNat] = .value c.asnType v ∧ P v := by
  obtain habs | ⟨v, hv, hPv⟩ := h
  · left
    rw [get_eq hc, show envs.stored (c.env, cellKey c.name [r]) = none from habs]
    rfl
  · obtain ⟨htype, hfits⟩ := hP v hPv
    exact Or.inr ⟨v, GeneratedTable.get_of_stored ix hc r htype hfits hv, hPv⟩

/-! ### The views -/

/-- **SNMP, IPC and Rust see the same configuration.** In every state the system gets to, and for
every writable scalar, there is one value, of its type and range, that a GET answers, that a
`ReadConfigRequest` answers, and that a Rust reader gets from `try_get` and from the getter of its
type. -/
theorem views_agree (m : Modes) (pbDecode : Bytes → Option Envelope) (checks : Bool) (sys : System)
    (h : sys.Reachable m pbDecode checks) (s : Scalar) :
    ∃ v value, s.InRange v ∧
      s.handleGet m .none sys.envs = .value s.asnType v ∧
      handleReadConfig m .none s.name sys.envs = ⟨.ok, some value, []⟩ ∧ value.toValue = some v ∧
      tryGet false s.name (sys.envs (s.object m).mode.env) = .ok (some v) ∧
      getTyped false s.name (s.object m).syn.type (sys.envs (s.object m).mode.env) = .ok v := by
  obtain ⟨v, hstored, haccepts⟩ := h.inv.scalar s
  obtain ⟨value, hread, hvalue⟩ := handleReadConfig_of_stored haccepts hstored
  refine ⟨v, value, (s.accepts_iff m v).mp haccepts, Scalar.handleGet_of_stored haccepts hstored,
    hread, hvalue, tryGet_of_stored s.validKey_name hstored, ?_⟩
  rw [← haccepts.storageType]
  exact getTyped_of_stored s.validKey_name hstored

/-- A sample put between the turns of a SET of `adminStatusExt`. -/
def busyEvents : List System.Event :=
  [.telemetry (.start false), .telemetry (.sample 42000 (some 1700000000)),
    .telemetry (.transaction false), .subagent (.reserve1 0 [.scalar .adminStatusExt (.integer 2)]),
    .telemetry (.transaction false), .telemetry (.transaction false),
    .subagent (.phase 0 .reserve2 fun _ => .none), .telemetry (.transaction false),
    .telemetry (.transaction false), .subagent (.phase 0 .action fun _ => .none),
    .telemetry (.transaction false), .telemetry (.transaction false)]

/-- What a run leads to after a startup from nothing. -/
theorem reachable_of_run (es : List System.Event) {os : List (Option FrameRecord)} {sys : System}
    (hrun : run (fun sys e => System.step .shipped (fun _ => none) true sys e)
      ⟨⟨firstBoot, fun _ => none⟩, .stopped⟩ es = some (os, sys)) :
    sys.Reachable .shipped (fun _ => none) true := by
  have hnothing : ∀ l, System.Legacy .shipped l (Envs.stored (fun _ => ∅) l) := by
    intro l
    have hnone : Envs.stored (fun _ => ∅) l = none := by simp [Envs.stored]
    rw [hnone]
    exact ⟨by simp [AllowedAt], by simp [TypedAt]⟩
  exact ⟨.none, .none, fun _ => ∅, .stopped, firstBoot, es, os, fun _ => rfl, fun _ => rfl, hnothing,
    trivial, Prod.ext rfl rfl, hrun⟩

/-- They lead somewhere. -/
theorem exists_reachable_busy : ∃ sys : System, sys.Reachable .shipped (fun _ => none) true ∧
    sys.telemetry = .asleep (some ⟨42000, 1700000000, 1⟩) := by
  obtain ⟨os, sys, hrun, hasleep⟩ : ∃ os sys,
      run (fun sys e => System.step .shipped (fun _ => none) true sys e)
        ⟨⟨firstBoot, fun _ => none⟩, .stopped⟩ busyEvents = some (os, sys) ∧
      sys.telemetry = .asleep (some ⟨42000, 1700000000, 1⟩) := ⟨_, _, rfl, rfl⟩
  exact ⟨sys, reachable_of_run busyEvents hrun, hasleep⟩

/-- In a busy state, `deviceName` is the same everywhere. -/
theorem views_agree_busy : ∃ (sys : System) (v : Value) (value : PbValue),
    sys.telemetry = .asleep (some ⟨42000, 1700000000, 1⟩) ∧
      Scalar.deviceName.handleGet .shipped .none sys.envs = .value .octetStr v ∧
      handleReadConfig .shipped .none Scalar.deviceName.name sys.envs = ⟨.ok, some value, []⟩ ∧
      value.toValue = some v := by
  obtain ⟨sys, h, hasleep⟩ := exists_reachable_busy
  obtain ⟨v, value, -, hsnmp, hipc, hvalue, -⟩ :=
    views_agree .shipped (fun _ => none) true sys h .deviceName
  exact ⟨sys, v, value, hasleep, hsnmp, hipc, hvalue⟩

/-- **No GET of any object ends in `genErr`.** In every state the system gets to, a GET of a scalar
answers a value, of the range of the scalar if it is writable and of its type and within its buffer
if not; and a GET of any cell of either table answers such a value or `noSuchInstance`. -/
theorem every_get_served (m : Modes) (pbDecode : Bytes → Option Envelope) (checks : Bool)
    (ix : IndexCodec) (sys : System) (h : sys.Reachable m pbDecode checks) :
    (∀ s : Scalar, ∃ v, s.handleGet m .none sys.envs = .value s.asnType v ∧ s.InRange v) ∧
    (∀ o ∈ ReadOnlyScalar.all, ∃ v, o.handleGet .none sys.envs = .value o.asnType v ∧
      o.syn.Fits v) ∧
    (∀ (c : PortColumn) (r : UInt32),
      (portConfigTable m).get ix sys.envs c.colnum [r.toNat] = .noSuchInstance ∨
        ∃ v, (portConfigTable m).get ix sys.envs c.colnum [r.toNat] = .value c.asnType v ∧
          c.InRange v) ∧
    ∀ c ∈ sensorTable.columns, ∀ r : UInt32,
      sensorTable.get ix sys.envs c.colnum [r.toNat] = .noSuchInstance ∨
        ∃ v, sensorTable.get ix sys.envs c.colnum [r.toNat] = .value c.asnType v ∧
          c.syn.Fits v := by
  refine ⟨fun s => ?_, fun o ho => ?_, fun c r => ?_, fun c hc r => ?_⟩
  · obtain ⟨v, hstored, haccepts⟩ := h.inv.scalar s
    exact ⟨v, Scalar.handleGet_of_stored haccepts hstored, (s.accepts_iff m v).mp haccepts⟩
  · obtain ⟨v, hstored, hfits⟩ := h.inv.readOnly ho
    exact ⟨v, ReadOnlyScalar.handleGet_of_stored (ReadOnlyScalar.name_mem ho).2.1 hfits.1 hfits.2
      hstored, hfits⟩
  · have hc : c.tableColumn m ∈ (portConfigTable m).columns := by
      cases c <;> simp [portConfigTable]
    simp only [← c.accepts_iff m]
    exact GeneratedTable.get_served ix hc r (fun _ => PortColumn.fits) (h.inv.portCell c r)
  · exact GeneratedTable.get_served ix hc r (fun _ hfits => hfits) (h.inv.sensorCell hc r)

/-- In a busy state, `statusText` is answered. -/
theorem every_get_served_busy : ∃ (sys : System) (v : Value),
    sys.telemetry = .asleep (some ⟨42000, 1700000000, 1⟩) ∧
      ReadOnlyScalar.statusText.handleGet .none sys.envs = .value .octetStr v := by
  obtain ⟨sys, h, hasleep⟩ := exists_reachable_busy
  obtain ⟨-, hro, -⟩ := every_get_served .shipped (fun _ => none) true .unsigned32 sys h
  obtain ⟨v, hv, -⟩ := hro .statusText (by simp [ReadOnlyScalar.all])
  exact ⟨sys, v, hasleep, hv⟩

/-- What the telemetry app has put completely: the scalars of a sample, and its rows up to a
number. -/
def Telemetry.shows : Telemetry → Option (Sample × ℕ)
  | .asleep (some s) => some (s, sensors.length)
  | .rows s idx _ => some (s, idx)
  | _ => none

/-- It is in the cache. -/
theorem Telemetry.Inv.shows {t : Telemetry} {db : Lmdb} (h : Telemetry.Inv (t, db)) {s : Sample}
    {k : ℕ} (hshows : t.shows = some (s, k)) : ∃ done rest, sensors = done ++ rest ∧
      k = done.length ∧ Telemetry.Shown db (s.scalars ++ s.cells 0 done) := by
  cases t with
  | asleep last =>
    rcases last with _ | s'
    · exact absurd hshows (by simp [Telemetry.shows])
    · obtain ⟨rfl, rfl⟩ := Prod.mk.inj (Option.some.inj hshows)
      exact ⟨sensors, [], (List.append_nil _).symm, rfl, h⟩
  | rows s' idx names =>
    obtain ⟨rfl, rfl⟩ := Prod.mk.inj (Option.some.inj hshows)
    obtain ⟨done, hdone, hidx, hshown⟩ := h
    exact ⟨done, names, hdone, hidx, hshown⟩
  | _ => exact absurd hshows (by simp [Telemetry.shows])

/-- The cells of the row of a sensor are among those of its sample. -/
theorem Sample.mem_cells (s : Sample) {done : List Bytes} {i : ℕ} {name : Bytes}
    (hname : done[i]? = some name) {c : Bytes × Value}
    (hc : c ∈ (sensorRow [.ofNat (i + 1)] name (sensorTemp s.temp i) s.count.toUInt32).cells) :
    (cellKey c.1 [.ofNat (i + 1)], c.2) ∈ s.cells 0 done := by
  obtain ⟨hi, rfl⟩ := List.getElem?_eq_some_iff.mp hname
  rw [← List.take_append_drop i done, Sample.cells, sensorEntries_append,
    List.drop_eq_getElem_cons hi, sensorEntries, List.length_take, Nat.zero_add,
    Nat.min_eq_left (Nat.le_of_lt hi)]
  exact List.mem_append_right _ (List.mem_append_left _ (List.mem_map.mpr ⟨c, hc, rfl⟩))

/-- **Managers see the sample the telemetry app has put.** In every state the system gets to,
whatever the subagent is in the middle of, a GET of each scalar of the app answers the sample once
the four are put, and a GET of a cell answers it once its row is put: all three rows while the app
sleeps. -/
theorem sample_visible (m : Modes) (pbDecode : Bytes → Option Envelope) (checks : Bool)
    (ix : IndexCodec) (sys : System) (h : sys.Reachable m pbDecode checks) (s : Sample) (k : ℕ)
    (hshows : sys.telemetry.shows = some (s, k)) :
    ReadOnlyScalar.cpuTempMilliC.handleGet .none sys.envs = .value .integer (.int32 s.temp) ∧
    ReadOnlyScalar.sampleCount.handleGet .none sys.envs =
      .value .counter (.uint32 s.count.toUInt32) ∧
    ReadOnlyScalar.lastUpdateEpoch.handleGet .none sys.envs =
      .value .gauge (.uint32 (epochU32 s.now)) ∧
    ReadOnlyScalar.statusText.handleGet .none sys.envs =
      .value .octetStr (.bytes (statusText s.temp s.count)) ∧
    ∀ i < k, ∃ name, sensors[i]? = some name ∧
      sensorTable.get ix sys.envs 2 [i + 1] = .value .octetStr (.bytes name) ∧
      sensorTable.get ix sys.envs 3 [i + 1] = .value .integer (.int32 (sensorTemp s.temp i)) ∧
      sensorTable.get ix sys.envs 4 [i + 1] = .value .counter (.uint32 s.count.toUInt32) := by
  obtain ⟨done, rest, hdone, rfl, hshown⟩ := h.inv.telemetry.shows hshows
  have hentries : ∀ e ∈ s.scalars ++ s.cells 0 done, e ∈ s.entries := by
    intro e he
    rw [Telemetry.entries_eq, hdone, Sample.cells, sensorEntries_append, ← List.append_assoc]
    exact List.mem_append_left _ he
  have hscalar : ∀ {o : ReadOnlyScalar} {v : Value}, o ∈ ReadOnlyScalar.all →
      (o.name, v) ∈ s.scalars → o.handleGet .none sys.envs = .value o.asnType v := by
    intro o v ho hmem
    have hput := List.mem_append_left (s.cells 0 done) hmem
    obtain ⟨htype, hfits⟩ := (s.fits (hentries _ hput)).1 o ho rfl
    exact ReadOnlyScalar.handleGet_of_stored (ReadOnlyScalar.name_mem ho).2.1 htype hfits
      (hshown _ hput)
  refine ⟨hscalar (o := .cpuTempMilliC) ?_ ?_, hscalar (o := .sampleCount) ?_ ?_,
    hscalar (o := .lastUpdateEpoch) ?_ ?_, hscalar (o := .statusText) ?_ ?_, fun i hi => ?_⟩
  any_goals simp [ReadOnlyScalar.all, Sample.scalars, scalarPuts, ReadOnlyScalar.cpuTempMilliC,
    ReadOnlyScalar.sampleCount, ReadOnlyScalar.lastUpdateEpoch, ReadOnlyScalar.statusText]
  -- the row of sensor `i`
  have hname : done[i]? = some done[i] := List.getElem?_eq_getElem hi
  have hlen : i < 3 := by
    have hsensors := congrArg List.length hdone
    rw [List.length_append, show sensors.length = 3 from rfl] at hsensors
    omega
  have hindex : (UInt32.ofNat (i + 1)).toNat = i + 1 := by
    rw [UInt32.toNat_ofNat']
    omega
  have hcell : ∀ {c : TableColumn} {v : Value}, c ∈ sensorTable.columns → (c.name, v) ∈
      (sensorRow [.ofNat (i + 1)] done[i] (sensorTemp s.temp i) s.count.toUInt32).cells →
      sensorTable.get ix sys.envs c.colnum [i + 1] = .value c.asnType v := by
    intro c v hc hmem
    have hput := List.mem_append_right s.scalars (s.mem_cells hname hmem)
    obtain ⟨htype, hfits⟩ := (s.fits (hentries _ hput)).2 c hc _ rfl
    have hstored : sys.envs.stored (c.loc [.ofNat (i + 1)]) = some v.encode := by
      rw [TableColumn.loc, (sensorTable_column hc).1]
      exact hshown _ hput
    have hget := GeneratedTable.get_of_stored ix hc (.ofNat (i + 1)) htype hfits hstored
    rwa [hindex] at hget
  refine ⟨done[i], ?_, ?_, ?_, ?_⟩
  · rw [hdone, List.getElem?_append_left hi]
    exact hname
  · exact hcell (c := ⟨2, ascii "sensorName", .octetString [(0, 31)], .octetStr, .cache⟩)
      (by simp [sensorTable]) (by simp [sensorRow])
  · exact hcell (c := ⟨3, ascii "sensorTempMilliC", .integer32 [] [], .integer, .cache⟩)
      (by simp [sensorTable]) (by simp [sensorRow])
  · exact hcell (c := ⟨4, ascii "sensorSampleCount", .unsigned32 [], .counter, .cache⟩)
      (by simp [sensorTable]) (by simp [sensorRow])

/-- In a busy state the sample of 42 degrees is answered, and for the second sensor 43.5. -/
theorem sample_visible_busy : ∃ sys : System,
    ReadOnlyScalar.cpuTempMilliC.handleGet .none sys.envs = .value .integer (.int32 42000) ∧
      sensorTable.get .unsigned32 sys.envs 3 [2] = .value .integer (.int32 43500) := by
  obtain ⟨sys, h, hasleep⟩ := exists_reachable_busy
  obtain ⟨hcpu, -, -, -, hrows⟩ := sample_visible .shipped (fun _ => none) true .unsigned32 sys h
    ⟨42000, 1700000000, 1⟩ 3 (by rw [hasleep]; rfl)
  obtain ⟨name, -, -, htemp, -⟩ := hrows 1 (by decide)
  exact ⟨sys, hcpu, htemp⟩

/-- **The interval the telemetry app reads.** With `sampleIntervalSec` kept in `config.lmdb`, what
it reads is in every state the system gets to within a day and never zero, whatever fails in
reading it; and if nothing fails, it is what a GET answers. -/
theorem sample_interval (m : Modes) (hmode : m.sampleIntervalSec = .persistent)
    (pbDecode : Bytes → Option Envelope) (checks : Bool) (sys : System)
    (h : sys.Reachable m pbDecode checks) :
    (∀ opened fails, 1 ≤ (readSampleIntervalSec opened fails (sys.envs .config)).toNat ∧
      (readSampleIntervalSec opened fails (sys.envs .config)).toNat ≤ 86400) ∧
    ∃ v : UInt32, Scalar.sampleIntervalSec.handleGet m .none sys.envs = .value .gauge (.uint32 v) ∧
      readSampleIntervalSec true false (sys.envs .config) = v.toUInt64 := by
  obtain ⟨v, hstored, haccepts⟩ := h.inv.scalar .sampleIntervalSec
  have hrange := (Scalar.sampleIntervalSec.accepts_iff m v).mp haccepts
  cases v with
  | uint32 v =>
    have hread : readSampleIntervalSec true false (sys.envs .config) = v.toUInt64 := by
      have hconfig : (sys.envs .config)[Scalar.sampleIntervalSec.name]? =
          some (Value.uint32 v).encode := by
        simpa [Scalar.loc, Scalar.object, hmode, Envs.stored, StorageMode.env] using hstored
      have htry : tryGet false (ascii "sampleIntervalSec") (sys.envs .config) =
          .ok (some (.uint32 v)) :=
        tryGet_of_stored Scalar.sampleIntervalSec.validKey_name hconfig
      rw [readSampleIntervalSec, if_pos rfl, htry]
    have hdefault : (1 : ℕ) ≤ defaultSampleIntervalSec.toNat ∧
        defaultSampleIntervalSec.toNat ≤ 86400 := by decide
    refine ⟨fun opened fails => ?_, v, Scalar.handleGet_of_stored haccepts hstored, hread⟩
    cases opened with
    | false => exact hdefault
    | true =>
      cases fails with
      | true => exact hdefault
      | false =>
        rw [hread, UInt32.toNat_toUInt64]
        exact hrange
  | _ => exact hrange.elim

/-- In a busy state the interval is the seeded one. -/
theorem sample_interval_busy : ∃ (sys : System) (v : UInt32),
    Scalar.sampleIntervalSec.handleGet .shipped .none sys.envs = .value .gauge (.uint32 v) ∧
      readSampleIntervalSec true false (sys.envs .config) = v.toUInt64 := by
  obtain ⟨sys, h, -⟩ := exists_reachable_busy
  obtain ⟨-, v, hget, hread⟩ := sample_interval .shipped rfl (fun _ => none) true sys h
  exact ⟨sys, v, hget, hread⟩

end AgentxSubagent
