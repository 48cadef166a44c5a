import AgentxSubagent.Agent.TableSet
import AgentxSubagent.Table.Rowset

/-!
# GET of table cells

What `mib2c/mib2c.dbtable.conf` emits for reading a table: the iterator callbacks that tell
net-snmp which rows there are, and MODE_GET of the handler. Both work on the list of accessible
columns, so a table of the generator is that list here (`AgentxSubagent.GeneratedTable`), and
`portConfigTable` and `sensorTable` are two of them.

The rows are found by scanning keys, and a cell is read by building its key again from the
request. In between, an instance is turned into index varbinds and back by net-snmp. That codec
is not part of the repository; what the code relies on is `AgentxSubagent.IndexCodec`, for a
table with one `Unsigned32` index.

* `AgentxSubagent.dataPoints_eq`: a pass of the iterator yields the rows of `table_rowset_load`
  that the codec takes, in their order;
* `AgentxSubagent.get_eq`: a GET answers what the key of the cell holds;
* `AgentxSubagent.table_view_is_key_space` puts the two together.
-/

namespace AgentxSubagent

/-! ### Generated tables -/

/-- `$c.type`: the ASN.1 type a column is answered with. `ASN_UNSIGNED` is `ASN_GAUGE`. -/
inductive AsnType
  | octetStr
  | integer
  | counter
  | gauge
  | timeticks
  deriving DecidableEq

/-- An accessible column, as the template sees it; `env` is `TABLE_ENV_$c`. -/
structure TableColumn where
  colnum : ℕ
  name : Bytes
  syn : Syn
  asnType : AsnType
  env : EnvId

/-- A table of the generator: its accessible columns in order. Columns of one table have
different numbers, and a descriptor has at most 64 characters. -/
structure GeneratedTable where
  columns : List TableColumn
  columns_ne : columns ≠ []
  colnum_nodup : (columns.map TableColumn.colnum).Nodup
  name_length : ∀ c ∈ columns, 1 ≤ c.name.length ∧ c.name.length ≤ 64

/-- `COLUMN_PORTDESCR` to `COLUMN_PORTALARMTHRESHOLDMILLIC`. -/
def PortColumn.colnum : PortColumn → ℕ
  | .portDescr => 2
  | .portAdminStatus => 3
  | .portAlarmThresholdMilliC => 4

/-- The type a column of `portConfigTable` is answered with. -/
def PortColumn.asnType : PortColumn → AsnType
  | .portDescr => .octetStr
  | .portAdminStatus => .integer
  | .portAlarmThresholdMilliC => .integer

/-- A column of `portConfigTable`. -/
def PortColumn.tableColumn (m : Modes) (c : PortColumn) : TableColumn :=
  ⟨c.colnum, c.name, (c.object m).syn, c.asnType, (c.object m).mode.env⟩

/-- `portConfigTable`. -/
def portConfigTable (m : Modes) : GeneratedTable where
  columns := [.portDescr, .portAdminStatus, .portAlarmThresholdMilliC].map
    (PortColumn.tableColumn m)
  columns_ne := by simp
  colnum_nodup := by
    change [2, 3, 4].Nodup
    decide
  name_length := by
    intro c hc
    obtain ⟨p, -, rfl⟩ := List.mem_map.mp hc
    change 1 ≤ p.name.length ∧ p.name.length ≤ 64
    cases p <;> decide

/-- `sensorTable`: read-only, so always in `cache.lmdb`. -/
def sensorTable : GeneratedTable where
  columns :=
    [⟨2, ascii "sensorName", .octetString [(0, 31)], .octetStr, .cache⟩,
      ⟨3, ascii "sensorTempMilliC", .integer32 [] [], .integer, .cache⟩,
      ⟨4, ascii "sensorSampleCount", .unsigned32 [], .counter, .cache⟩]
  columns_ne := by simp
  colnum_nodup := by decide
  name_length := by
    simp only [List.forall_mem_cons]
    exact ⟨by decide, by decide, by decide, by simp⟩

/-- `$i_column_refs`; `envs i` is what the scan of column `i` finds. -/
def GeneratedTable.columnRefs (t : GeneratedTable) (envs : ℕ → Envs) : List TableColumnRef :=
  t.columns.mapIdx fun i c => ⟨.idle (envs i c.env), c.name⟩

/-! ### The iterator -/

/-- **What the code relies on of net-snmp's index codec**, for a table with one `Unsigned32`
index: `parse_oid_indexes` takes exactly the instances of one sub-identifier, and
`build_oid_noalloc` gives the sub-identifiers back. -/
structure IndexCodec where
  Index : Type
  parseOidIndexes : List ℕ → Option Index
  buildOidNoalloc : Index → Option (List ℕ)
  build_of_parse : ∀ {subids : List ℕ} {p : Index}, parseOidIndexes subids = some p →
    buildOidNoalloc p = some subids
  parse_isSome_iff : ∀ {subids : List ℕ}, (∀ x ∈ subids, x < 2 ^ 32) →
    ((parseOidIndexes subids).isSome = true ↔ subids.length = 1)

/-- A codec that keeps the one sub-identifier. -/
def IndexCodec.unsigned32 : IndexCodec where
  Index := ℕ
  parseOidIndexes
    | [x] => some x
    | _ => none
  buildOidNoalloc x := some [x]
  build_of_parse := by
    intro subids p h
    match subids, h with
    | [x], h => exact congrArg (fun y => some [y]) (Option.some.inj h).symm
  parse_isSome_iff := by
    intro subids _
    match subids with
    | [] => simp
    | [x] => simp
    | _ :: _ :: _ => simp

/-- `struct $i_loop`. -/
structure LoopContext where
  rows : TableRowset
  next : ℕ

section Iterator

variable (ix : IndexCodec)

/-- `table_instance_to_indexes`. -/
def tableInstanceToIndexes (inst : TableInstance) : Option ix.Index :=
  if inst.length = 0 ∨ inst.length > tableRowSubidMax then none
  else ix.parseOidIndexes (inst.map UInt32.toNat)

/-- The loop of `$i_get_next_data_point`, with `n` rows left from index `next` on: the index
varbinds of the first row the codec takes, and the index after it. -/
def nextDataPointLoop (rows : List TableInstance) : ℕ → ℕ → Option ix.Index × ℕ
  | 0, next => (none, next)
  | n + 1, next =>
    match tableInstanceToIndexes ix (rows.getD next []) with
    | none => nextDataPointLoop rows n (next + 1)
    | some p => (some p, next + 1)

/-- `$i_get_next_data_point`: the index varbinds, or `NULL`, and the loop context. -/
def getNextDataPoint : Option LoopContext → Option ix.Index × Option LoopContext
  | none => (none, none)
  | some loop =>
    let found := nextDataPointLoop ix loop.rows.rows (loop.rows.rows.length - loop.next) loop.next
    (found.1, some { loop with next := found.2 })

/-- What fails in `$i_get_first_data_point`: the allocation and the scans of
`table_rowset_load`, and the allocation of the loop context. -/
structure FirstFaults where
  nomem : Bool
  scan : ℕ → ScanFault
  calloc : Bool

/-- Nothing fails. -/
def FirstFaults.none : FirstFaults := ⟨false, fun _ => .none, false⟩

/-- `$i_get_first_data_point`. -/
def getFirstDataPoint (f : FirstFaults) (columns : List TableColumnRef) :
    Option ix.Index × Option LoopContext :=
  match tableRowsetLoad f.nomem f.scan columns with
  | .error _ => (none, none)
  | .ok rows => if f.calloc then (none, none) else getNextDataPoint ix (some ⟨rows, 0⟩)

/-- Calls of `$i_get_next_data_point` until one returns `NULL`, at most `n` of them, after a call
that returned `point`. -/
def dataPointLoop : ℕ → Option ix.Index × Option LoopContext → List ix.Index
  | 0, _ => []
  | n + 1, point =>
    match point.1 with
    | none => []
    | some p => p :: dataPointLoop n (getNextDataPoint ix point.2)

/-- **A pass of the iterator**: `$i_get_first_data_point`, and then `$i_get_next_data_point` until
there is no more. There cannot be more calls than rows. -/
def dataPoints (f : FirstFaults) (columns : List TableColumnRef) : List ix.Index :=
  let first := getFirstDataPoint ix f columns
  dataPointLoop ix ((first.2.elim 0 fun loop => loop.rows.rows.length) + 1) first

end Iterator

/-! ### The handler -/

/-- What a request is answered with. -/
inductive GetReply
  | value (type : AsnType) (v : Value)
  | noSuchInstance
  | noSuchObject
  | genErr
  deriving DecidableEq

/-- A request of MODE_GET: the table info and the iterator context that net-snmp attached. -/
structure GetRequest where
  tableInfo : Option TableInfo
  iteratorContext : Bool

/-- The block of MODE_GET for a column; `rf` is what fails in its read. -/
def getCell (rf : ReadFault) (envs : Envs) (c : TableColumn) (inst : TableInstance) : GetReply :=
  match tableCellKey c.name inst (storageKeyMax + 1) with
  | .error _ => .genErr
  | .ok key =>
    match envs.getAs rf.fault c.env c.syn.type key c.syn.buflen with
    | .error .notFound => .noSuchInstance
    | .error _ => .genErr
    | .ok v => .value c.asnType v

namespace GeneratedTable

variable (t : GeneratedTable)

/-- MODE_GET for one request. -/
def handleGetRequest (rf : ReadFault) (envs : Envs) (r : GetRequest) : GetReply :=
  match r.tableInfo with
  | none => .genErr
  | some info =>
    if !r.iteratorContext then .noSuchInstance
    else
      match tableInstanceFromIndexes info with
      | none => .genErr
      | some inst =>
        match t.columns.find? fun c => c.colnum = info.colnum with
        | none => .noSuchObject
        | some c => getCell rf envs c inst

/-- `handle_$i` in MODE_GET: a request reads at most one cell, in a transaction of its own, and
`envs i` is what that of the `i`-th request finds. -/
def handleGet (rf : ℕ → ReadFault) (envs : ℕ → Envs) (requests : List GetRequest) :
    List GetReply :=
  requests.mapIdx fun i r => t.handleGetRequest (rf i) (envs i) r

/-- A request as net-snmp makes it of a column number and the sub-identifiers behind it: the
indexes are parsed, and the iterator context is set exactly when a row with these indexes was
yielded. -/
def request (ix : IndexCodec) (points : List ix.Index) (colnum : ℕ) (subids : List ℕ) :
    GetRequest :=
  match ix.parseOidIndexes subids with
  | none => ⟨none, false⟩
  | some p =>
    ⟨some ⟨colnum, ix.buildOidNoalloc p⟩,
      points.any fun q => ix.buildOidNoalloc q = ix.buildOidNoalloc p⟩

/-- **A GET of one cell**, nothing failing: the pass of the iterator, and then the handler. -/
def get (ix : IndexCodec) (envs : Envs) (colnum : ℕ) (subids : List ℕ) : GetReply :=
  t.handleGetRequest .none envs
    (request ix (dataPoints ix .none (t.columnRefs fun _ => envs)) colnum subids)

end GeneratedTable

/-! ### A pass yields the rows -/

section Pass

variable {ix : IndexCodec}

/-- The loop returns the first row the codec takes, of those left. -/
theorem nextDataPointLoop_eq (rows : List TableInstance) : ∀ n next, next + n = rows.length →
    ((nextDataPointLoop ix rows n next).1 = none ∧
        (rows.drop next).filterMap (tableInstanceToIndexes ix) = []) ∨
      ∃ p, (nextDataPointLoop ix rows n next).1 = some p ∧
        next < (nextDataPointLoop ix rows n next).2 ∧
        (nextDataPointLoop ix rows n next).2 ≤ rows.length ∧
        (rows.drop next).filterMap (tableInstanceToIndexes ix) =
          p :: (rows.drop (nextDataPointLoop ix rows n next).2).filterMap
            (tableInstanceToIndexes ix) := by
  intro n
  induction n with
  | zero =>
    intro next hlen
    left
    rw [List.drop_eq_nil_of_le (by omega)]
    exact ⟨rfl, rfl⟩
  | succ n ih =>
    intro next hlen
    have hlt : next < rows.length := by omega
    have hdrop : rows.drop next = rows.getD next [] :: rows.drop (next + 1) := by
      rw [List.getD_eq_getElem _ _ hlt]
      exact List.drop_eq_getElem_cons hlt
    rw [nextDataPointLoop, hdrop, List.filterMap_cons]
    rcases hp : tableInstanceToIndexes ix (rows.getD next []) with _ | p
    · -- the row is skipped
      simp only
      obtain hnone | ⟨q, hq, hnext, hle, hrest⟩ := ih (next + 1) (by omega)
      · exact Or.inl hnone
      · exact Or.inr ⟨q, hq, by omega, hle, hrest⟩
    · exact Or.inr ⟨p, rfl, Nat.lt_succ_self next, hlt, rfl⟩

/-- Calls until there is no more yield the rows left that the codec takes; more calls than rows
are not needed. -/
theorem dataPointLoop_eq (rs : TableRowset) : ∀ n next, next ≤ rs.rows.length →
    rs.rows.length - next < n →
    dataPointLoop ix n (getNextDataPoint ix (some ⟨rs, next⟩)) =
      (rs.rows.drop next).filterMap (tableInstanceToIndexes ix) := by
  intro n
  induction n with
  | zero =>
    intro next _ hn
    omega
  | succ n ih =>
    intro next hle hn
    rw [dataPointLoop, getNextDataPoint]
    obtain ⟨hnone, hrest⟩ | ⟨p, hp, hnext, hle', hrest⟩ : _ ∨ ∃ p : ix.Index, _ :=
      nextDataPointLoop_eq rs.rows (rs.rows.length - next) next (by omega)
    · rw [hrest, hnone]
    · rw [hrest, hp]
      refine congrArg (p :: ·) (ih _ hle' ?_)
      change rs.rows.length - (nextDataPointLoop ix rs.rows (rs.rows.length - next) next).2 < n
      omega

/-- **A pass yields the rows of `table_rowset_load`** that the codec takes, in their order. -/
theorem dataPoints_eq {f : FirstFaults} (hcalloc : f.calloc = false)
    {columns : List TableColumnRef} {rs : TableRowset}
    (h : tableRowsetLoad f.nomem f.scan columns = .ok rs) :
    dataPoints ix f columns = rs.rows.filterMap (tableInstanceToIndexes ix) := by
  have hfirst : getFirstDataPoint ix f columns = getNextDataPoint ix (some ⟨rs, 0⟩) := by
    rw [getFirstDataPoint, h]
    simp only [hcalloc, Bool.false_eq_true, if_false]
  rw [dataPoints, hfirst]
  exact dataPointLoop_eq rs _ 0 (Nat.zero_le _) (Nat.lt_succ_self _)

/-- The codec takes an instance of one sub-identifier, and gives it back. -/
theorem toIndexes_singleton (ix : IndexCodec) (r : UInt32) :
    ∃ p, tableInstanceToIndexes ix [r] = some p ∧ ix.parseOidIndexes [r.toNat] = some p ∧
      ix.buildOidNoalloc p = some [r.toNat] := by
  have hsome : (ix.parseOidIndexes [r.toNat]).isSome = true :=
    (ix.parse_isSome_iff (by simpa using r.toNat_lt)).mpr rfl
  obtain ⟨p, hp⟩ := Option.isSome_iff_exists.mp hsome
  refine ⟨p, ?_, hp, ix.build_of_parse hp⟩
  rw [tableInstanceToIndexes, if_neg (by simp [tableRowSubidMax])]
  exact hp

/-- It takes no other. -/
theorem toIndexes_eq_some {inst : TableInstance} {p : ix.Index}
    (h : tableInstanceToIndexes ix inst = some p) : ∃ r, inst = [r] := by
  rw [tableInstanceToIndexes] at h
  split_ifs at h
  have hlen : (inst.map UInt32.toNat).length = 1 := by
    refine (ix.parse_isSome_iff ?_).mp (by rw [h]; rfl)
    intro x hx
    obtain ⟨r, -, rfl⟩ := List.mem_map.mp hx
    exact r.toNat_lt
  rw [List.length_map] at hlen
  exact List.length_eq_one_iff.mp hlen

/-- The one sub-identifier of an instance. -/
def singleSubid : TableInstance → Option UInt32
  | [r] => some r
  | _ => none

theorem singleSubid_eq_some {inst : TableInstance} {r : UInt32} :
    singleSubid inst = some r ↔ inst = [r] := by
  match inst with
  | [] => simp [singleSubid]
  | [x] => simp [singleSubid]
  | _ :: _ :: _ => simp [singleSubid]

/-- What the codec makes of an instance. -/
theorem map_build_toIndexes (inst : TableInstance) :
    (tableInstanceToIndexes ix inst).map ix.buildOidNoalloc =
      (singleSubid inst).map fun r => some [r.toNat] := by
  rcases hs : singleSubid inst with _ | r
  · rcases hp : tableInstanceToIndexes ix inst with _ | p
    · rfl
    · obtain ⟨r, rfl⟩ := toIndexes_eq_some hp
      exact absurd hs (by simp [singleSubid])
  · obtain rfl := singleSubid_eq_some.mp hs
    obtain ⟨p, hp, -, hbuild⟩ := toIndexes_singleton ix r
    rw [hp, Option.map_some, Option.map_some, hbuild]

/-- **What a pass yields**: the rows of one sub-identifier, in increasing order. -/
theorem exists_subids_dataPoints {columns : List TableColumnRef} {rs : TableRowset}
    (h : tableRowsetLoad false (fun _ => .none) columns = .ok rs)
    (hsorted : rs.rows.Pairwise fun a b => tableInstanceCompare a b = .lt) :
    ∃ subids : List UInt32, subids.Pairwise (· < ·) ∧ (∀ r, r ∈ subids ↔ [r] ∈ rs.rows) ∧
      (dataPoints ix .none columns).map ix.buildOidNoalloc =
        subids.map fun r => some [r.toNat] := by
  refine ⟨rs.rows.filterMap singleSubid, ?_, fun r => ?_, ?_⟩
  · refine List.Pairwise.filterMap singleSubid (fun a b hab r hr s hs => ?_) hsorted
    obtain rfl := singleSubid_eq_some.mp hr
    obtain rfl := singleSubid_eq_some.mp hs
    by_contra hge
    by_cases hrs : r = s
    · subst hrs
      exact absurd hab (by simp [tableInstanceCompare, tableInstanceCompareLoop])
    · exact absurd hab (by simp [tableInstanceCompare, tableInstanceCompareLoop, hrs, hge])
  · rw [List.mem_filterMap]
    constructor
    · rintro ⟨inst, hinst, hr⟩
      rwa [← singleSubid_eq_some.mp hr]
    · exact fun hr => ⟨[r], hr, rfl⟩
  · rw [dataPoints_eq rfl h, List.map_filterMap, List.map_filterMap]
    simp only [map_build_toIndexes]

/-- A row is yielded exactly when it is loaded. -/
theorem mem_dataPoints_iff {columns : List TableColumnRef} {rs : TableRowset} {r : UInt32}
    (h : tableRowsetLoad false (fun _ => .none) columns = .ok rs)
    (hsorted : rs.rows.Pairwise fun a b => tableInstanceCompare a b = .lt) :
    some [r.toNat] ∈ (dataPoints ix .none columns).map ix.buildOidNoalloc ↔ [r] ∈ rs.rows := by
  obtain ⟨subids, -, hmem, hpoints⟩ : ∃ subids : List UInt32, _ ∧ _ ∧
      (dataPoints ix .none columns).map ix.buildOidNoalloc =
        subids.map fun r => some [r.toNat] := exists_subids_dataPoints h hsorted
  rw [hpoints, ← hmem, List.mem_map]
  constructor
  · rintro ⟨s, hs, heq⟩
    obtain rfl : s = r := by simpa [UInt32.toNat_inj] using heq
    exact hs
  · exact fun hr => ⟨r, hr, rfl⟩

/-- **A row that is yielded has a cell**, whatever may fail in the pass. -/
theorem dataPoints_sound {f : FirstFaults} {columns : List TableColumnRef} {p : ix.Index}
    (h : p ∈ dataPoints ix f columns) :
    ∃ r : UInt32, ix.buildOidNoalloc p = some [r.toNat] ∧
      ∃ col ∈ columns, cellKey col.column [r] ∈ col.env.committed := by
  have hnone : ∀ n, dataPointLoop ix n (none, none) = [] := by
    rintro (_ | n) <;> rfl
  rcases hload : tableRowsetLoad f.nomem f.scan columns with rc | rs
  · rw [dataPoints, getFirstDataPoint, hload, hnone] at h
    exact absurd h (by simp)
  · rcases hcalloc : f.calloc with _ | _
    · rw [dataPoints_eq hcalloc hload] at h
      obtain ⟨inst, hinst, hp⟩ := List.mem_filterMap.mp h
      obtain ⟨r, rfl⟩ := toIndexes_eq_some hp
      obtain ⟨q, hq, -, hbuild⟩ := toIndexes_singleton ix r
      obtain rfl := Option.some.inj (hp.symm.trans hq)
      exact ⟨r, hbuild, tableRowsetLoad_sound hload hinst⟩
    · rw [dataPoints, getFirstDataPoint, hload] at h
      simp only [hcalloc, if_true, hnone] at h
      exact absurd h (by simp)

end Pass

/-! ### What a GET answers -/

/-- The key of a cell with one sub-identifier is built. -/
theorem GeneratedTable.tableCellKey_name (t : GeneratedTable) {c : TableColumn}
    (hc : c ∈ t.columns) (r : UInt32) :
    tableCellKey c.name [r] (storageKeyMax + 1) = .ok (cellKey c.name [r]) ∧
      ValidKey (cellKey c.name [r]) := by
  obtain ⟨h1, h64⟩ := t.name_length c hc
  exact tableCellKey_single h1 h64 r

/-- The instance of one sub-identifier is built back. -/
theorem tableInstanceFromIndexes_single {info : TableInfo} {r : UInt32}
    (h : info.indexes = some [r.toNat]) : tableInstanceFromIndexes info = some [r] := by
  have hle : ¬r.toNat > 0xFFFFFFFF := by
    have hlt := r.toNat_lt
    omega
  rw [tableInstanceFromIndexes, h]
  simp [tableRowSubidMax, hle]

/-- A column is found by its number. -/
theorem GeneratedTable.find_colnum (t : GeneratedTable) {c : TableColumn} (hc : c ∈ t.columns) :
    (t.columns.find? fun d => d.colnum = c.colnum) = some c := by
  obtain ⟨d, hd⟩ : ∃ d, (t.columns.find? fun d => d.colnum = c.colnum) = some d := by
    rw [← Option.isSome_iff_exists, List.find?_isSome]
    exact ⟨c, hc, by simp⟩
  have hnum : d.colnum = c.colnum := by simpa using List.find?_some hd
  rw [hd, List.inj_on_of_nodup_map t.colnum_nodup (List.mem_of_find?_eq_some hd) hc hnum]

section Get

variable {t : GeneratedTable} {ix : IndexCodec} {envs : Envs}

/-- **The rows of a table**: the scan of some column finds a cell. -/
theorem GeneratedTable.rows_spec (t : GeneratedTable) (envs : ℕ → Envs) :
    ∃ rs, tableRowsetLoad false (fun _ => .none) (t.columnRefs envs) = .ok rs ∧
      rs.rows.Pairwise (fun a b => tableInstanceCompare a b = .lt) ∧
      ∀ inst, inst ∈ rs.rows ↔ inst ≠ [] ∧ inst.length ≤ 128 ∧
        ∃ i c, t.columns[i]? = some c ∧
          (envs i).stored (c.env, cellKey c.name inst) ≠ none := by
  have hcol : ∀ col, col ∈ t.columnRefs envs ↔
      ∃ i c, t.columns[i]? = some c ∧ col = ⟨.idle (envs i c.env), c.name⟩ := by
    intro col
    rw [GeneratedTable.columnRefs, List.mem_mapIdx]
    constructor
    · rintro ⟨i, hi, rfl⟩
      exact ⟨i, t.columns[i], List.getElem?_eq_getElem hi, rfl⟩
    · rintro ⟨i, c, hc, rfl⟩
      obtain ⟨hi, rfl⟩ := List.getElem?_eq_some_iff.mp hc
      exact ⟨i, hi, rfl⟩
  have hne : t.columnRefs envs ≠ [] := by
    simpa [GeneratedTable.columnRefs] using t.columns_ne
  obtain ⟨rs, hload, hsorted, hmem⟩ := tableRowsetLoad_rows hne (by
    intro col h
    obtain ⟨i, c, hc, rfl⟩ := (hcol col).mp h
    obtain ⟨h1, h64⟩ := t.name_length c (List.mem_of_getElem? hc)
    exact ⟨h1, h64.trans (by decide)⟩)
  refine ⟨rs, hload, hsorted, fun inst => ?_⟩
  rw [hmem]
  refine and_congr_right fun _ => and_congr_right fun _ => ?_
  constructor
  · rintro ⟨col, h, hkey⟩
    obtain ⟨i, c, hc, rfl⟩ := (hcol col).mp h
    exact ⟨i, c, hc, Envs.stored_ne_none_iff.mpr hkey⟩
  · rintro ⟨i, c, hc, hkey⟩
    exact ⟨_, (hcol _).mpr ⟨i, c, hc, rfl⟩, Envs.stored_ne_none_iff.mp hkey⟩

/-- What is answered for a cell, from what is stored for it. -/
def cellReply (c : TableColumn) : Option Bytes → GetReply
  | none => .noSuchInstance
  | some data =>
    match (readAs c.syn.type c.syn.buflen data).1 with
    | .ok v => .value c.asnType v
    | .error _ => .genErr

/-- **The handler answers what the key of the cell holds**, once the row has been yielded. -/
theorem handleGetRequest_cell {c : TableColumn} (hc : c ∈ t.columns) {info : TableInfo}
    {r : UInt32} (hcol : info.colnum = c.colnum) (hindex : info.indexes = some [r.toNat]) :
    t.handleGetRequest .none envs ⟨some info, true⟩ =
      cellReply c (envs.stored (c.env, cellKey c.name [r])) := by
  obtain ⟨hkey, hvalid⟩ := t.tableCellKey_name hc r
  simp only [GeneratedTable.handleGetRequest, Bool.not_true, Bool.false_eq_true, if_false,
    tableInstanceFromIndexes_single hindex, hcol, t.find_colnum hc, getCell, hkey]
  rw [show ReadFault.none.fault = .none from rfl, Envs.getAs_none hvalid]
  rcases envs.stored (c.env, cellKey c.name [r]) with _ | data
  · rfl
  · simp only [cellReply]
    rcases hread : (readAs c.syn.type c.syn.buflen data).1 with rc | v
    · have hne : rc ≠ .notFound := by
        rintro rfl
        exact readAs_ne_notFound _ _ _ hread
      cases rc <;> first | exact absurd rfl hne | rfl
    · rfl

/-- A request for a row has the iterator context exactly when the row was yielded. -/
theorem request_single (ix : IndexCodec) (points : List ix.Index) (colnum : ℕ) (r : UInt32) :
    ∃ info : TableInfo, info.colnum = colnum ∧ info.indexes = some [r.toNat] ∧
      GeneratedTable.request ix points colnum [r.toNat] =
        ⟨some info, decide (some [r.toNat] ∈ points.map ix.buildOidNoalloc)⟩ := by
  obtain ⟨p, -, hparse, hbuild⟩ := toIndexes_singleton ix r
  refine ⟨⟨colnum, ix.buildOidNoalloc p⟩, rfl, hbuild, ?_⟩
  rw [GeneratedTable.request, hparse]
  simp only [hbuild]
  refine congrArg (GetRequest.mk _) ?_
  rw [Bool.eq_iff_iff, decide_eq_true_iff, List.any_eq_true, List.mem_map]
  simp

/-- **A GET answers what the key of the cell holds.** -/
theorem get_eq {c : TableColumn} (hc : c ∈ t.columns) (r : UInt32) :
    t.get ix envs c.colnum [r.toNat] =
      cellReply c (envs.stored (c.env, cellKey c.name [r])) := by
  obtain ⟨rs, hload, hsorted, hmem⟩ := t.rows_spec fun _ => envs
  obtain ⟨info, hcol, hindex, hreq⟩ :=
    request_single ix (dataPoints ix .none (t.columnRefs fun _ => envs)) c.colnum r
  rw [GeneratedTable.get, hreq]
  by_cases hrow : [r] ∈ rs.rows
  · rw [decide_eq_true ((mem_dataPoints_iff hload hsorted).mpr hrow)]
    exact handleGetRequest_cell hc hcol hindex
  · -- a row that is not yielded has no cell
    have habs : envs.stored (c.env, cellKey c.name [r]) = none := by
      by_contra hne
      obtain ⟨i, hi⟩ := List.mem_iff_getElem?.mp hc
      exact hrow ((hmem [r]).mpr ⟨by simp, by simp, i, c, hi, hne⟩)
    rw [decide_eq_false fun h => hrow ((mem_dataPoints_iff hload hsorted).mp h), habs]
    rfl

/-- **A stored value**: the header of a type, and a payload its getter takes for the value. -/
def HoldsValue (data : Bytes) (ty : StorageType) (v : Value) : Prop :=
  ∃ a b c p, data = ty.tag :: a :: b :: c :: p ∧ cValue p ty = some v

/-- A getter returns the value that is stored, if the caller has room for it. -/
theorem readAs_eq_ok_iff {ty : StorageType} {cap : ℕ} {data : Bytes} {v : Value} :
    (readAs ty cap data).1 = .ok v ↔ HoldsValue data ty v ∧ ∀ n, v.units = some n → n ≤ cap := by
  have hdeliver : (v.deliver cap).1 = .ok v ↔ ∀ n, v.units = some n → n ≤ cap := by
    rw [Value.deliver]
    rcases v.units with _ | n
    · simp
    · simp only [Option.some.injEq, forall_eq']
      split_ifs with hn
      · exact iff_of_false (by simp) (by omega)
      · exact iff_of_true rfl (by omega)
  constructor
  · intro h
    obtain ⟨a, b, c, p, rfl, hv⟩ := readAs_eq_ok h
    rw [readAs_cons hv, hdeliver] at h
    exact ⟨⟨a, b, c, p, rfl, hv⟩, h⟩
  · rintro ⟨⟨a, b, c, p, rfl, hv⟩, hfits⟩
    rw [readAs_cons hv, hdeliver]
    exact hfits

/-- **The SNMP view of a table is the key space.** For every content of both environments, nothing
failing, every column `c` of a table with one `Unsigned32` index and every index `r`: a GET answers
a value if and only if the environment of the column holds that value under the key of the cell,
with the storage type of the column and, for a string, a length within the buffer; it answers
`noSuchInstance` if and only if the key is absent; and otherwise it answers `genErr`. And a pass of
the iterator yields exactly the rows of `table_rowset_load` with one sub-identifier, each once and
in increasing order. -/
theorem table_view_is_key_space (t : GeneratedTable) (ix : IndexCodec) (envs : Envs) :
    (∀ c ∈ t.columns, ∀ r : UInt32,
      (∀ v, t.get ix envs c.colnum [r.toNat] = .value c.asnType v ↔
        ∃ data, envs.stored (c.env, cellKey c.name [r]) = some data ∧
          HoldsValue data c.syn.type v ∧ ∀ n, v.units = some n → n ≤ c.syn.buflen) ∧
      (t.get ix envs c.colnum [r.toNat] = .noSuchInstance ↔
        envs.stored (c.env, cellKey c.name [r]) = none) ∧
      ((∃ v, t.get ix envs c.colnum [r.toNat] = .value c.asnType v) ∨
        t.get ix envs c.colnum [r.toNat] = .noSuchInstance ∨
        t.get ix envs c.colnum [r.toNat] = .genErr)) ∧
    ∃ rs, tableRowsetLoad false (fun _ => .none) (t.columnRefs fun _ => envs) = .ok rs ∧
      ∃ subids : List UInt32, subids.Pairwise (· < ·) ∧ (∀ r, r ∈ subids ↔ [r] ∈ rs.rows) ∧
        (dataPoints ix .none (t.columnRefs fun _ => envs)).map ix.buildOidNoalloc =
          subids.map fun r => some [r.toNat] := by
  refine ⟨fun c hc r => ?_, ?_⟩
  · rw [get_eq hc]
    simp only [← readAs_eq_ok_iff]
    rcases envs.stored (c.env, cellKey c.name [r]) with _ | data
    · exact ⟨by simp [cellReply], by simp [cellReply], Or.inr (Or.inl rfl)⟩
    · simp only [cellReply, Option.some.injEq, exists_eq_left', reduceCtorEq, iff_false]
      rcases (readAs c.syn.type c.syn.buflen data).1 with rc | v
      · exact ⟨by simp, by simp, Or.inr (Or.inr rfl)⟩
      · exact ⟨by simp, by simp, Or.inl ⟨v, rfl⟩⟩
  · obtain ⟨rs, hload, hsorted, -⟩ := t.rows_spec fun _ => envs
    exact ⟨rs, hload, exists_subids_dataPoints hload hsorted⟩

end Get

/-- Row 1 has a description, and row 7 nothing but a threshold in the other environment. -/
def sparseEnvs : Envs := fun
  | .config => (∅ : Lmdb).insert (ascii "portDescr.1") (Value.bytes (ascii "uplink")).encode
  | .cache => (∅ : Lmdb).insert (ascii "portAlarmThresholdMilliC.7") (Value.int32 90000).encode

/-- The description of row 1 is answered, and that of row 7 is a hole. -/
theorem table_view_sparse :
    (portConfigTable .shipped).get .unsigned32 sparseEnvs 2 [1] =
        .value .octetStr (.bytes (ascii "uplink")) ∧
      (portConfigTable .shipped).get .unsigned32 sparseEnvs 2 [7] = .noSuchInstance := by
  obtain ⟨hview, -⟩ := table_view_is_key_space (portConfigTable .shipped) .unsigned32 sparseEnvs
  have hc : PortColumn.tableColumn .shipped .portDescr ∈ (portConfigTable .shipped).columns := by
    simp [portConfigTable]
  refine ⟨((hview _ hc 1).1 _).mpr
    ⟨(Value.bytes (ascii "uplink")).encode, by decide, ⟨0, 0, 0, ascii "uplink", rfl, rfl⟩, ?_⟩,
    (hview _ hc 7).2.1.mpr (by decide)⟩
  rintro n hn
  obtain rfl := Option.some.inj hn
  decide

end AgentxSubagent
