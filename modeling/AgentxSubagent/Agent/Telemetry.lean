import AgentxSubagent.Agent.SensorRows
import AgentxSubagent.Table.CellKeys

/-!
# What the telemetry application writes

`run_once` of `rust-app/src/bin/telemetry.rs` writes thirteen keys: the four read-only scalars, and
three rows of `sensorTable`. The names and the types are picked by hand there, and the handlers of
`src/generated/demo_status.c` and `src/generated/demo_status_table.c` read them with the types and
the buffers that the MIB gives. Nothing but these two lists has to agree, and it is all that is
needed: a value that was put with the type and within the buffer of its reader is answered.

The values are the interesting part where they are cut to 32 bits. The count wraps, the time
saturates, and the temperatures are added in `i32`; a build with overflow checks panics there and
does not finish, which is `AgentxSubagent.RunOutcome.panicked`.

* `AgentxSubagent.runOnce_completed`: a call that completes has put the thirteen values;
* `AgentxSubagent.telemetry_readable`: every GET then answers with them.
-/

namespace AgentxSubagent

open Assign Decimal

/-! ### `run_once` -/

/-- How a call of `run_once` ends: with `Ok`, with `Err`, or not at all. -/
inductive RunOutcome
  | completed
  | failed
  | panicked
  deriving DecidableEq

/-- `SENSORS`. -/
def sensors : List Bytes := [ascii "cpu-package", ascii "board-inlet", ascii "nvme0"]

/-- An `i32` as `format!` shows it. -/
def formatI32 (v : Int32) : Bytes :=
  if v.toInt < 0 then 45 :: decimal v.toInt.natAbs else decimal v.toInt.natAbs

/-- `format!("ok temp={temp_milli_c}mC count={sample_count}")`. -/
def statusText (temp : Int32) (count : UInt64) : Bytes :=
  ascii "ok temp=" ++ formatI32 temp ++ ascii "mC count=" ++ decimal count.toNat

/-- `u32::try_from(now).unwrap_or(u32::MAX)`. -/
def epochU32 (now : UInt64) : UInt32 :=
  if now.toNat < 2 ^ 32 then now.toUInt32 else 0xFFFFFFFF

/-- `temp_milli_c + (idx as i32) * 1_500`, as a build without overflow checks computes it. -/
def sensorTemp (temp : Int32) (idx : ℕ) : Int32 := temp + .ofNat idx * 1500

/-- The scalars of `run_once`, in the order in which they are put. -/
def scalarPuts (temp : Int32) (now count : UInt64) : List (Bytes × Value) :=
  [(ascii "cpuTempMilliC", .int32 temp), (ascii "sampleCount", .uint32 count.toUInt32),
    (ascii "lastUpdateEpoch", .uint32 (epochU32 now)),
    (ascii "statusText", .bytes (statusText temp count))]

/-- The calls of `put_int32`, `put_uint32` and `put_bytes`, in order; the first that fails ends the
function. -/
def putScalars (fails : ℕ → Bool) : ℕ → List (Bytes × Value) → Lmdb →
    Except StorageError Unit × Lmdb
  | _, [], db => (.ok (), db)
  | i, (key, v) :: puts, db =>
    match cachePut (fails i) key v db with
    | (.error err, db') => (.error err, db')
    | (.ok _, db') => putScalars fails (i + 1) puts db'

/-- The loop over `SENSORS`, from index `idx` on. -/
def putSensorRows (checks : Bool) (fails : ℕ → Bool) (temp : Int32) (count : UInt64) :
    ℕ → List Bytes → Lmdb → RunOutcome × Lmdb
  | _, [], db => (.completed, db)
  | idx, name :: names, db =>
    if checks ∧ (sensorTemp temp idx).toInt ≠ temp.toInt + idx * 1500 then (.panicked, db)
    else
      let row := sensorRow [.ofNat (idx + 1)] name (sensorTemp temp idx) count.toUInt32
      match putRow (fails idx) row.inst row.cells db with
      | (.error _, db') => (.failed, db')
      | (.ok _, db') => putSensorRows checks fails temp count (idx + 1) names db'

/-- What fails in `run_once`: the calls of `put` and of `put_row`. -/
structure RunFaults where
  put : ℕ → Bool
  row : ℕ → Bool

/-- `run_once`, once the temperature is sampled. `now` is what the clock says, and `none` is a
clock before the epoch; `checks` is whether the build checks for overflows. -/
def runOnce (checks : Bool) (f : RunFaults) (temp : Int32) (now : Option UInt64) (count : UInt64)
    (db : Lmdb) : RunOutcome × Lmdb :=
  match now with
  | none => (.failed, db)
  | some now =>
    match putScalars f.put 0 (scalarPuts temp now count) db with
    | (.error _, db') => (.failed, db')
    | (.ok _, db') => putSensorRows checks f.row temp count 0 sensors db'

/-! ### What has been put -/

/-- The cells of the rows from index `idx` on, with their keys. -/
def sensorEntries (temp : Int32) (count : UInt64) : ℕ → List Bytes → List (Bytes × Value)
  | _, [] => []
  | idx, name :: names =>
    ((sensorRow [.ofNat (idx + 1)] name (sensorTemp temp idx) count.toUInt32).cells.map
      fun c => (cellKey c.1 [.ofNat (idx + 1)], c.2)) ++ sensorEntries temp count (idx + 1) names

/-- **The thirteen keys of `run_once` and their values.** -/
def telemetryEntries (temp : Int32) (now count : UInt64) : List (Bytes × Value) :=
  scalarPuts temp now count ++ sensorEntries temp count 0 sensors

/-- The contents after values were put. -/
def putAll (entries : List (Bytes × Value)) (db : Lmdb) : Lmdb :=
  (entries.map fun e => (e.1, e.2.encode)).foldl (fun db e => db.insert e.1 e.2) db

theorem putAll_append (entries entries' : List (Bytes × Value)) (db : Lmdb) :
    putAll (entries ++ entries') db = putAll entries' (putAll entries db) := by
  rw [putAll, List.map_append, List.foldl_append]
  rfl

section Puts

variable {checks : Bool} {f : RunFaults} {temp : Int32} {now count : UInt64} {db db' : Lmdb}

/-- Calls of `put` that succeed have put their values. -/
theorem putScalars_ok {fails : ℕ → Bool} {puts : List (Bytes × Value)} :
    ∀ {i : ℕ} {db : Lmdb}, putScalars fails i puts db = (.ok (), db') → db' = putAll puts db := by
  induction puts with
  | nil =>
    rintro i db h
    exact (congrArg Prod.snd h).symm
  | cons p puts ih =>
    rintro i db h
    rw [putScalars, cachePut] at h
    split_ifs at h
    · exact absurd (congrArg Prod.fst h) (by simp)
    · exact ih h

/-- Rows that are all put have put their cells. -/
theorem putSensorRows_completed {fails : ℕ → Bool} {names : List Bytes} :
    ∀ {idx : ℕ} {db : Lmdb},
      putSensorRows checks fails temp count idx names db = (.completed, db') →
      db' = putAll (sensorEntries temp count idx names) db := by
  induction names with
  | nil =>
    rintro idx db h
    exact (congrArg Prod.snd h).symm
  | cons name names ih =>
    rintro idx db h
    rw [putSensorRows] at h
    split_ifs at h
    · exact absurd (congrArg Prod.fst h) (by simp)
    obtain ⟨err, hrow⟩ | ⟨-, hrow⟩ := putRow_cases (fails idx)
      [.ofNat (idx + 1)] (sensorRow [.ofNat (idx + 1)] name (sensorTemp temp idx)
        count.toUInt32).cells db
    · simp only [sensorRow] at h hrow
      rw [hrow] at h
      exact absurd (congrArg Prod.fst h) (by simp)
    · simp only [sensorRow] at h hrow
      rw [hrow] at h
      rw [ih h, sensorEntries, putAll_append]
      rfl

/-- **A call of `run_once` that completes has put its thirteen values.** -/
theorem runOnce_completed (h : runOnce checks f temp (some now) count db = (.completed, db')) :
    db' = putAll (telemetryEntries temp now count) db := by
  rw [runOnce] at h
  rcases hput : putScalars f.put 0 (scalarPuts temp now count) db with ⟨err | _, db₁⟩
  · rw [hput] at h
    exact absurd (congrArg Prod.fst h) (by simp)
  · rw [hput] at h
    rw [putSensorRows_completed h, putScalars_ok hput, telemetryEntries, putAll_append]

/-- The temperature of a sensor, in wrapping arithmetic. -/
theorem toInt_sensorTemp (temp : Int32) (idx : ℕ) :
    (sensorTemp temp idx).toInt = (temp.toInt + idx * 1500).bmod (2 ^ 32) := by
  rw [sensorTemp, Int32.toInt_add, Int32.toInt_mul, Int32.toInt_ofNat']
  have hsize : (Int32.size : ℕ) = 2 ^ 32 := rfl
  rw [hsize, show (1500 : Int32).toInt = 1500 from rfl, Int.bmod_mul_bmod, Int.add_bmod_bmod]

/-- It overflows upwards only. -/
theorem toInt_sensorTemp_eq_iff (temp : Int32) {idx : ℕ} (hidx : idx < 3) :
    (sensorTemp temp idx).toInt = temp.toInt + idx * 1500 ↔ temp.toInt + idx * 1500 < 2 ^ 31 := by
  rw [toInt_sensorTemp]
  have hlo := temp.le_toInt
  have hhi := temp.toInt_lt
  rw [Int.bmod_def]
  omega

/-- Rows are all put exactly when no sum overflows, or overflows are not checked. -/
theorem putSensorRows_completed_iff {names : List Bytes} :
    ∀ {idx : ℕ} {db : Lmdb}, idx + names.length ≤ 3 →
      ((putSensorRows checks (fun _ => false) temp count idx names db).1 = .completed ↔
        ∀ j, idx ≤ j → j < idx + names.length → checks = false ∨
          temp.toInt + j * 1500 < 2 ^ 31) := by
  induction names with
  | nil =>
    intro idx db _
    refine iff_of_true rfl fun j hj hj' => ?_
    rw [List.length_nil] at hj'
    omega
  | cons name names ih =>
    intro idx db hlen
    rw [List.length_cons] at hlen ⊢
    rw [putSensorRows]
    have hfirst := toInt_sensorTemp_eq_iff temp (show idx < 3 by omega)
    split_ifs with hover
    · -- this sum overflows
      refine iff_of_false (by simp) fun hall => ?_
      obtain hno | hlt := hall idx (Nat.le_refl idx) (by omega)
      · exact absurd hover.1 (by simp [hno])
      · exact hover.2 (hfirst.mpr hlt)
    · have hok := putRow_sensorRow (.ofNat (idx + 1)) name (sensorTemp temp idx) count.toUInt32 db
      rcases hrow : putRow false [.ofNat (idx + 1)] (sensorRow [.ofNat (idx + 1)] name
          (sensorTemp temp idx) count.toUInt32).cells db with ⟨err | _, db₁⟩
      · rw [hrow] at hok
        exact absurd hok (by simp)
      simp only [sensorRow] at hrow ⊢
      rw [hrow]
      refine (ih (by omega)).trans ⟨fun hall j hj hj' => ?_, fun hall j hj hj' => ?_⟩
      · obtain rfl | hlt := Nat.eq_or_lt_of_le hj
        · by_cases hchecks : checks = false
          · exact Or.inl hchecks
          · refine Or.inr (hfirst.mp ?_)
            by_contra hne
            exact hover ⟨by simpa using hchecks, hne⟩
        · exact hall j hlt (by omega)
      · exact hall j (by omega) (by omega)

/-- **When `run_once` completes**, if no write fails. -/
theorem runOnce_completed_iff :
    (runOnce checks ⟨fun _ => false, fun _ => false⟩ temp (some now) count db).1 = .completed ↔
      checks = false ∨ temp.toInt + 3000 < 2 ^ 31 := by
  obtain ⟨db₁, hput⟩ : ∃ db₁, putScalars (fun _ => false) 0 (scalarPuts temp now count) db =
      (.ok (), db₁) := ⟨_, rfl⟩
  rw [runOnce, hput]
  refine (putSensorRows_completed_iff (by decide)).trans ⟨fun hall => hall 2 ?_ ?_, ?_⟩
  · decide
  · decide
  · rintro (hno | hlt) j - hj
    · exact Or.inl hno
    · have hj3 : j < 3 := hj
      refine Or.inr ?_
      omega

end Puts

/-! ### The readers -/

/-- The encoding of a value holds it. -/
theorem holdsValue_encode (v : Value) : HoldsValue v.encode v.storageType v :=
  ⟨0, 0, 0, v.payload, rfl, cValue_payload v⟩

/-- A read-only scalar as the template `mib2c/mib2c.dbscalar.conf` sees it: it is always in
`cache.lmdb`. -/
structure ReadOnlyScalar where
  name : Bytes
  syn : Syn
  asnType : AsnType

namespace ReadOnlyScalar

def cpuTempMilliC : ReadOnlyScalar := ⟨ascii "cpuTempMilliC", .integer32 [] [], .integer⟩

def sampleCount : ReadOnlyScalar := ⟨ascii "sampleCount", .unsigned32 [], .counter⟩

def lastUpdateEpoch : ReadOnlyScalar := ⟨ascii "lastUpdateEpoch", .unsigned32 [], .gauge⟩

def statusText : ReadOnlyScalar := ⟨ascii "statusText", .octetString [(0, 127)], .octetStr⟩

/-- `handle_$i` in MODE_GET; `rf` is what fails in its read. -/
def handleGet (rf : ReadFault) (envs : Envs) (s : ReadOnlyScalar) : GetReply :=
  match envs.getAs rf.fault .cache s.syn.type s.name s.syn.buflen with
  | .error .notFound => .noSuchInstance
  | .error _ => .genErr
  | .ok v => .value s.asnType v

/-- **A value of the type and within the buffer is answered.** -/
theorem handleGet_of_stored {s : ReadOnlyScalar} {envs : Envs} {v : Value}
    (hkey : ValidKey s.name) (htype : s.syn.type = v.storageType)
    (hfits : ∀ n, v.units = some n → n ≤ s.syn.buflen)
    (hstored : envs.stored (.cache, s.name) = some v.encode) :
    s.handleGet .none envs = .value s.asnType v := by
  have hread : (readAs s.syn.type s.syn.buflen v.encode).1 = .ok v := by
    rw [htype]
    exact readAs_eq_ok_iff.mpr ⟨holdsValue_encode v, hfits⟩
  rw [handleGet, show ReadFault.none.fault = .none from rfl, Envs.getAs_none hkey, hstored]
  simp only [hread]

end ReadOnlyScalar

/-- The same for a cell. -/
theorem GeneratedTable.get_of_stored {t : GeneratedTable} (ix : IndexCodec) {envs : Envs}
    {c : TableColumn} (hc : c ∈ t.columns) (r : UInt32) {v : Value}
    (htype : c.syn.type = v.storageType) (hfits : ∀ n, v.units = some n → n ≤ c.syn.buflen)
    (hstored : envs.stored (c.loc [r]) = some v.encode) :
    t.get ix envs c.colnum [r.toNat] = .value c.asnType v := by
  have hread : (readAs c.syn.type c.syn.buflen v.encode).1 = .ok v := by
    rw [htype]
    exact readAs_eq_ok_iff.mpr ⟨holdsValue_encode v, hfits⟩
  rw [get_eq hc, show envs.stored (c.env, cellKey c.name [r]) = some v.encode from hstored,
    cellReply, hread]

/-! ### What is read back -/

/-- The thirteen keys are different. -/
theorem nodup_telemetryEntries (temp : Int32) (now count : UInt64) :
    ((telemetryEntries temp now count).map Prod.fst).Nodup := by
  have hkeys : (telemetryEntries temp now count).map Prod.fst =
      (telemetryEntries 0 0 0).map Prod.fst := by
    simp only [telemetryEntries, scalarPuts, sensors, sensorEntries, sensorRow, List.map_append,
      List.map_cons, List.map_nil]
  rw [hkeys]
  decide +kernel

/-- **What has been put is there.** -/
theorem stored_putAll {entries : List (Bytes × Value)} (hnodup : (entries.map Prod.fst).Nodup)
    {key : Bytes} {v : Value} (hmem : (key, v) ∈ entries) (envs : Envs) :
    Envs.stored (Function.update envs .cache (putAll entries (envs .cache))) (.cache, key) =
      some v.encode := by
  have hget := congrFun (getElem?_foldl_insert (entries.map fun e => (e.1, e.2.encode))
    (envs .cache)) key
  have hstored : Envs.stored (Function.update envs .cache (putAll entries (envs .cache)))
      (.cache, key) = (putAll entries (envs .cache))[key]? := by
    simp [Envs.stored]
  rw [hstored, putAll, hget]
  refine assign_of_nodup ?_ ?_ _
  · rwa [List.map_map, List.map_map]
  · rw [List.map_map]
    exact List.mem_map.mpr ⟨(key, v), hmem, rfl⟩

/-- The status text fits its buffer. -/
theorem length_statusText_le (temp : Int32) (count : UInt64) :
    (statusText temp count).length ≤ 48 := by
  have hlo := temp.le_toInt
  have hhi := temp.toInt_lt
  have htemp : (decimal temp.toInt.natAbs).length ≤ 10 :=
    length_decimal_le (by decide) (by omega)
  have hcount : (decimal count.toNat).length ≤ 20 :=
    length_decimal_le (by decide) (lt_trans count.toNat_lt (by decide))
  have hformat : (formatI32 temp).length ≤ 11 := by
    rw [formatI32]
    split_ifs
    · rw [List.length_cons]
      omega
    · omega
  have hok : (ascii "ok temp=").length = 8 := by decide
  have hmc : (ascii "mC count=").length = 9 := by decide
  rw [statusText, List.length_append, List.length_append, List.length_append]
  omega

/-- `lastUpdateEpoch` saturates. -/
theorem toNat_epochU32 (now : UInt64) : (epochU32 now).toNat = min now.toNat (2 ^ 32 - 1) := by
  rw [epochU32]
  split_ifs with hlt
  · rw [UInt64.toNat_toUInt32, Nat.mod_eq_of_lt hlt]
    omega
  · have hmax : (0xFFFFFFFF : UInt32).toNat = 2 ^ 32 - 1 := rfl
    rw [hmax]
    omega

/-- The cells of a row are among what is put. -/
theorem mem_telemetryEntries_row (temp : Int32) (now count : UInt64) {n : ℕ} (h1 : 1 ≤ n)
    (h3 : n ≤ 3) : ∀ c ∈ (sensorRow [.ofNat n] (sensors.getD (n - 1) []) (sensorTemp temp (n - 1))
      count.toUInt32).cells, (cellKey c.1 [.ofNat n], c.2) ∈ telemetryEntries temp now count := by
  intro c hc
  refine List.mem_append_right _ ?_
  have hcell : ∀ {names : List Bytes} {idx k : ℕ}, k < names.length →
      c ∈ (sensorRow [.ofNat (idx + k + 1)] (names.getD k []) (sensorTemp temp (idx + k))
        count.toUInt32).cells →
      (cellKey c.1 [.ofNat (idx + k + 1)], c.2) ∈ sensorEntries temp count idx names := by
    intro names
    induction names with
    | nil => exact fun hk => absurd hk (Nat.not_lt_zero _)
    | cons name names ih =>
      intro idx k hk hin
      rw [sensorEntries]
      cases k with
      | zero => exact List.mem_append_left _ (List.mem_map.mpr ⟨c, hin, rfl⟩)
      | succ k =>
        have hshift : idx + (k + 1) = idx + 1 + k := by omega
        rw [hshift] at hin ⊢
        exact List.mem_append_right _ (ih (Nat.lt_of_succ_lt_succ hk) hin)
  obtain ⟨k, rfl⟩ : ∃ k, n = 0 + k + 1 := ⟨n - 1, by omega⟩
  rw [Nat.add_sub_cancel] at hc
  refine hcell ?_ (by simpa using hc)
  rw [show sensors.length = 3 from rfl]
  omega

/-- A GET of a cell of the rows written answers what the row has for its column. -/
theorem sensorTable_get_telemetry (temp : Int32) (now count : UInt64) (ix : IndexCodec)
    (envs : Envs) {n : ℕ} (h1 : 1 ≤ n) (h3 : n ≤ 3) {name : Bytes}
    (hname : sensors[n - 1]? = some name) {c : TableColumn} (hc : c ∈ sensorTable.columns)
    {v : Value} (hcell : (c.name, v) ∈
      (sensorRow [.ofNat n] name (sensorTemp temp (n - 1)) count.toUInt32).cells)
    (htype : c.syn.type = v.storageType) (hfits : ∀ u, v.units = some u → u ≤ c.syn.buflen) :
    sensorTable.get ix (Function.update envs .cache (putAll (telemetryEntries temp now count)
      (envs .cache))) c.colnum [n] = .value c.asnType v := by
  have hn : (UInt32.ofNat n).toNat = n := by
    rw [UInt32.toNat_ofNat']
    omega
  have hloc : c.loc [.ofNat n] = (EnvId.cache, cellKey c.name [.ofNat n]) := by
    rw [TableColumn.loc, (sensorTable_column hc).1]
  have hrow := mem_telemetryEntries_row temp now count h1 h3
  rw [List.getD_eq_getElem?_getD, hname, Option.getD_some] at hrow
  have hstored := stored_putAll (nodup_telemetryEntries temp now count) (hrow _ hcell) envs
  have hval := GeneratedTable.get_of_stored ix hc (.ofNat n) htype hfits (hloc ▸ hstored)
  rwa [hn] at hval

/-- **Whatever the telemetry application writes, the handlers can read.** For every temperature,
every count and every time, whatever the cache held before, and whether or not the build checks for
overflows: once `run_once` completes, a GET of every read-only scalar and of every cell of rows 1
to 3 of `sensorTable` answers with the value that was written. And if no write fails, `run_once`
completes, except that a build that checks for overflows stops where the sum for a sensor
overflows. -/
theorem telemetry_readable (checks : Bool) (f : RunFaults) (temp : Int32) (now count : UInt64)
    (ix : IndexCodec) (envs : Envs) (cache : Lmdb)
    (hrun : runOnce checks f temp (some now) count (envs .cache) = (.completed, cache)) :
    ReadOnlyScalar.cpuTempMilliC.handleGet .none (Function.update envs .cache cache) =
      .value .integer (.int32 temp) ∧
    (∃ c : UInt32, c.toNat = count.toNat % 2 ^ 32 ∧
      ReadOnlyScalar.sampleCount.handleGet .none (Function.update envs .cache cache) =
        .value .counter (.uint32 c)) ∧
    (∃ e : UInt32, e.toNat = min now.toNat (2 ^ 32 - 1) ∧
      ReadOnlyScalar.lastUpdateEpoch.handleGet .none (Function.update envs .cache cache) =
        .value .gauge (.uint32 e)) ∧
    ReadOnlyScalar.statusText.handleGet .none (Function.update envs .cache cache) =
      .value .octetStr (.bytes (statusText temp count)) ∧
    (∀ n, 1 ≤ n → n ≤ 3 →
      (∃ name, sensors[n - 1]? = some name ∧
        sensorTable.get ix (Function.update envs .cache cache) 2 [n] =
          .value .octetStr (.bytes name)) ∧
      (∃ t : Int32, t.toInt = (temp.toInt + 1500 * ((n : ℤ) - 1)).bmod (2 ^ 32) ∧
        sensorTable.get ix (Function.update envs .cache cache) 3 [n] =
          .value .integer (.int32 t)) ∧
      ∃ c : UInt32, c.toNat = count.toNat % 2 ^ 32 ∧
        sensorTable.get ix (Function.update envs .cache cache) 4 [n] =
          .value .counter (.uint32 c)) ∧
    ∀ db, (runOnce checks ⟨fun _ => false, fun _ => false⟩ temp (some now) count db).1 =
      .completed ↔ checks = false ∨ temp.toInt + 3000 < 2 ^ 31 := by
  obtain rfl := runOnce_completed hrun
  have hstored : ∀ {key : Bytes} {v : Value}, (key, v) ∈ telemetryEntries temp now count →
      Envs.stored (Function.update envs .cache (putAll (telemetryEntries temp now count)
        (envs .cache))) (.cache, key) = some v.encode :=
    fun hmem => stored_putAll (nodup_telemetryEntries temp now count) hmem envs
  have hcount : count.toUInt32.toNat = count.toNat % 2 ^ 32 := UInt64.toNat_toUInt32 count
  have hnumber : ∀ {v : Value} {cap : ℕ}, v.units = none → ∀ n, v.units = some n → n ≤ cap := by
    rintro v cap hnone n hn
    exact absurd (hnone.symm.trans hn) (by simp)
  refine ⟨?_, ⟨_, hcount, ?_⟩, ⟨_, toNat_epochU32 now, ?_⟩, ?_, ?_, fun db => runOnce_completed_iff⟩
  · refine ReadOnlyScalar.handleGet_of_stored (by decide) rfl (hnumber rfl) (hstored ?_)
    simp [telemetryEntries, scalarPuts, ReadOnlyScalar.cpuTempMilliC]
  · refine ReadOnlyScalar.handleGet_of_stored (by decide) rfl (hnumber rfl) (hstored ?_)
    simp [telemetryEntries, scalarPuts, ReadOnlyScalar.sampleCount]
  · refine ReadOnlyScalar.handleGet_of_stored (by decide) rfl (hnumber rfl) (hstored ?_)
    simp [telemetryEntries, scalarPuts, ReadOnlyScalar.lastUpdateEpoch]
  · refine ReadOnlyScalar.handleGet_of_stored (by decide) rfl ?_ (hstored ?_)
    · rintro n ⟨⟩
      exact (length_statusText_le temp count).trans (by decide)
    · simp [telemetryEntries, scalarPuts, ReadOnlyScalar.statusText]
  · intro n h1 h3
    obtain ⟨name, hname, hlen⟩ : ∃ name, sensors[n - 1]? = some name ∧ name.length ≤ 32 := by
      have hi : n - 1 < sensors.length := by
        rw [show sensors.length = 3 from rfl]
        omega
      exact ⟨sensors[n - 1], List.getElem?_eq_getElem hi,
        (by decide : ∀ s ∈ sensors, s.length ≤ 32) _ (List.getElem_mem hi)⟩
    have hget := @sensorTable_get_telemetry temp now count ix envs n h1 h3 name hname
    refine ⟨⟨name, hname, ?_⟩, ⟨sensorTemp temp (n - 1), ?_, ?_⟩, ⟨_, hcount, ?_⟩⟩
    · refine hget (c := ⟨2, ascii "sensorName", .octetString [(0, 31)], .octetStr, .cache⟩)
        (by simp [sensorTable]) (by simp [sensorRow]) rfl ?_
      rintro u ⟨⟩
      exact hlen
    · rw [toInt_sensorTemp]
      congr 1
      rw [Nat.cast_sub h1]
      ring
    · exact hget (c := ⟨3, ascii "sensorTempMilliC", .integer32 [] [], .integer, .cache⟩)
        (by simp [sensorTable]) (by simp [sensorRow]) rfl (hnumber rfl)
    · exact hget (c := ⟨4, ascii "sensorSampleCount", .unsigned32 [], .counter, .cache⟩)
        (by simp [sensorTable]) (by simp [sensorRow]) rfl (hnumber rfl)

/-- The hottest sample there is, after 2^32 + 7 samples and in the far future: the second sensor
wraps to a negative temperature, the count to 7, and the time is at its ceiling. -/
theorem telemetry_readable_wrapped :
    ∃ cache, runOnce false ⟨fun _ => false, fun _ => false⟩ 2147483647 (some 1099511627776)
        4294967303 ∅ = (.completed, cache) ∧
      ReadOnlyScalar.sampleCount.handleGet .none (Function.update (fun _ => ∅) .cache cache) =
        .value .counter (.uint32 7) ∧
      ReadOnlyScalar.lastUpdateEpoch.handleGet .none (Function.update (fun _ => ∅) .cache cache) =
        .value .gauge (.uint32 4294967295) ∧
      sensorTable.get .unsigned32 (Function.update (fun _ => ∅) .cache cache) 3 [2] =
        .value .integer (.int32 (-2147482149)) := by
  obtain ⟨cache, hrun⟩ : ∃ cache, runOnce false ⟨fun _ => false, fun _ => false⟩ 2147483647
      (some 1099511627776) 4294967303 ∅ = (.completed, cache) :=
    ⟨_, Prod.ext (runOnce_completed_iff.mpr (Or.inl rfl)) rfl⟩
  obtain ⟨-, ⟨c, hc, hcount⟩, ⟨e, he, hepoch⟩, -, hrows, -⟩ := telemetry_readable false
    ⟨fun _ => false, fun _ => false⟩ 2147483647 1099511627776 4294967303 .unsigned32 (fun _ => ∅)
    cache hrun
  obtain ⟨-, ⟨t, ht, htemp⟩, -⟩ := hrows 2 (by decide) (by decide)
  refine ⟨cache, hrun, ?_, ?_, ?_⟩
  · rw [hcount, UInt32.toNat_inj.mp (show c.toNat = (7 : UInt32).toNat from hc.trans (by decide))]
  · rw [hepoch, UInt32.toNat_inj.mp
      (show e.toNat = (4294967295 : UInt32).toNat from he.trans (by decide))]
  · rw [htemp,
      Int32.toInt.inj (show t.toInt = (-2147482149 : Int32).toInt from ht.trans (by decide))]

end AgentxSubagent
