import AgentxSubagent.Agent.TableGet
import AgentxSubagent.Table.RustTable

/-!
# Rows that are written while they are read

`sensorTable` is filled by another process: the telemetry application writes a row with
`CacheStore::put_row`, all its cells in one transaction. The subagent reads it piece by piece. Each
column is scanned in a snapshot of its own, and each cell is read in another one, so commits can
fall between any two of them.

A `AgentxSubagent.History` is the sequence of all commits, and a snapshot is a point of it. What a
commit can do to a row is said once, in `AgentxSubagent.Commit.row_cases`: nothing, or every cell
of it is written.

* Rows only grow: with no partial row at the start there is never one, and what has been yielded
  stays (`AgentxSubagent.no_holes_in_yielded_rows`).
* But the cells of a row are not read together: `AgentxSubagent.row_untorn_iff` says that they come
  from one version of the row, whatever is written, exactly when no commit writes the row between
  the first and the last of them.
-/

namespace AgentxSubagent

open Assign

/-! ### Histories -/

/-- A call of `put_row` on the cache. -/
structure PutRow where
  fails : Bool
  inst : TableInstance
  cells : List (Bytes × Value)

/-- The call writes all columns of `sensorTable`. -/
def PutRow.Whole (p : PutRow) : Prop := ∀ c ∈ sensorTable.columns, ∃ v, (c.name, v) ∈ p.cells

/-- Where a cell of a column is stored. -/
def TableColumn.loc (c : TableColumn) (inst : TableInstance) : Loc := (c.env, cellKey c.name inst)

/-- A commit, to either environment and by any process. -/
inductive Commit
  | putRow (p : PutRow)
  | other (edit : Envs → Envs)

/-- The contents after a commit. -/
def Commit.apply (envs : Envs) : Commit → Envs
  | .putRow p => Function.update envs .cache
      (AgentxSubagent.putRow p.fails p.inst p.cells (envs .cache)).2
  | .other edit => edit envs

/-- **The only commits to cells of `sensorTable`** are calls of `put_row` that write all its
columns. -/
def Commit.Allowed : Commit → Prop
  | .putRow p => p.Whole
  | .other edit => ∀ envs, ∀ c ∈ sensorTable.columns, ∀ inst,
      (edit envs).stored (c.loc inst) = envs.stored (c.loc inst)

/-- The row a commit writes. -/
def Commit.row : Commit → Option TableInstance
  | .putRow p => some p.inst
  | .other _ => none

/-- **The commits of a run**, in their order. -/
structure History where
  initial : Envs
  commit : ℕ → Commit
  allowed : ∀ n, (commit n).Allowed

/-- The contents after the first `n` commits: what a snapshot taken there finds. -/
def History.contents (h : History) : ℕ → Envs
  | 0 => h.initial
  | n + 1 => (h.commit n).apply (h.contents n)

/-! ### What a commit can do to a row -/

/-- The columns of `sensorTable` are in the cache, and their names have no dot. -/
theorem sensorTable_column {c : TableColumn} (hc : c ∈ sensorTable.columns) :
    c.env = .cache ∧ (46 : UInt8) ∉ c.name := by
  revert c
  simp only [sensorTable, List.forall_mem_cons, true_and]
  exact ⟨by decide, by decide, by decide, by simp⟩

/-- Insertions into the cache are assignments. -/
theorem stored_foldl_insert (envs : Envs) (entries : List (Bytes × Bytes)) :
    Envs.stored (Function.update envs .cache
      (entries.foldl (fun db e => db.insert e.1 e.2) (envs .cache))) =
      assign envs.stored (entries.map fun e => ((.cache, e.1), some e.2)) := by
  induction entries generalizing envs with
  | nil => simp
  | cons e entries ih =>
    have hput := ih (envs.put (.cache, e.1) e.2)
    rw [Envs.stored_put] at hput
    simpa [Envs.put] using hput

section Commits

variable (envs : Envs) {p : PutRow}

/-- **What a call of `put_row` does to a row**: nothing if it fails or the row is another one, and
otherwise every cell of the row holds a value of the call. -/
theorem stored_putRow (hp : p.Whole) (inst : TableInstance) :
    (((putRow p.fails p.inst p.cells (envs .cache)).1 ≠ .ok () ∨ p.inst ≠ inst) ∧
      ∀ c ∈ sensorTable.columns,
        ((Commit.putRow p).apply envs).stored (c.loc inst) = envs.stored (c.loc inst)) ∨
      p.inst = inst ∧ ∀ c ∈ sensorTable.columns, ∃ v, (c.name, v) ∈ p.cells ∧
        ((Commit.putRow p).apply envs).stored (c.loc inst) = some v.encode := by
  obtain ⟨err, hsame⟩ | ⟨hdots, hput⟩ := putRow_cases p.fails p.inst p.cells (envs .cache)
  · left
    refine ⟨Or.inl (by simp [hsame]), fun c _ => ?_⟩
    rw [Commit.apply, hsame, Function.update_eq_self]
  · have hstored : ((Commit.putRow p).apply envs).stored = assign envs.stored
        ((p.cells.map fun c => (cellKey c.1 p.inst, c.2.encode)).map
          fun e => ((.cache, e.1), some e.2)) := by
      rw [Commit.apply, hput, stored_foldl_insert]
    -- a cell written to the place of a column is one of that column and row
    have hmem : ∀ c ∈ sensorTable.columns, ∀ cell ∈ p.cells,
        (EnvId.cache, cellKey cell.1 p.inst) = c.loc inst → cell.1 = c.name ∧ p.inst = inst := by
      intro c hc cell hcell heq
      exact cellKey_inj (hdots cell hcell) (sensorTable_column hc).2 (Prod.ext_iff.mp heq).2
    by_cases hinst : p.inst = inst
    · refine Or.inr ⟨hinst, fun c hc => ?_⟩
      obtain ⟨v, hv⟩ := hp c hc
      have hnamed : c.loc inst ∈ ((p.cells.map fun c => (cellKey c.1 p.inst, c.2.encode)).map
          fun e => (((.cache, e.1) : Loc), some e.2)).map Prod.fst := by
        simp only [List.map_map, List.mem_map]
        refine ⟨(c.name, v), hv, ?_⟩
        simp [TableColumn.loc, (sensorTable_column hc).1, hinst]
      obtain ⟨content, hin, hval⟩ := exists_assign_eq hnamed envs.stored
      simp only [List.map_map, List.mem_map] at hin
      obtain ⟨cell, hcell, heq⟩ := hin
      obtain ⟨hloc, rfl⟩ := Prod.mk.inj heq
      obtain ⟨hname, -⟩ := hmem c hc cell hcell hloc
      refine ⟨cell.2, ?_, by rw [hstored, hval]⟩
      rw [← hname]
      exact hcell
    · refine Or.inl ⟨Or.inr hinst, fun c hc => ?_⟩
      rw [hstored]
      refine assign_of_not_mem fun hin => ?_
      simp only [List.map_map, List.mem_map] at hin
      obtain ⟨cell, hcell, heq⟩ := hin
      exact hinst (hmem c hc cell hcell heq).2

/-- **A commit leaves a row alone, or it writes every cell of it.** -/
theorem Commit.row_cases {k : Commit} (hk : k.Allowed) (inst : TableInstance) :
    (∀ c ∈ sensorTable.columns, (k.apply envs).stored (c.loc inst) = envs.stored (c.loc inst)) ∨
      ∃ p, k = .putRow p ∧ p.inst = inst ∧ ∀ c ∈ sensorTable.columns, ∃ v, (c.name, v) ∈ p.cells ∧
        (k.apply envs).stored (c.loc inst) = some v.encode := by
  cases k with
  | other edit => exact Or.inl fun c hc => hk envs c hc inst
  | putRow p =>
    obtain ⟨-, hsame⟩ | ⟨hinst, hwrite⟩ := stored_putRow envs hk inst
    · exact Or.inl hsame
    · exact Or.inr ⟨p, rfl, hinst, hwrite⟩

end Commits

/-! ### Rows only grow -/

/-- **The row is there as a whole.** -/
def WholeRow (envs : Envs) (inst : TableInstance) : Prop :=
  ∀ c ∈ sensorTable.columns, envs.stored (c.loc inst) ≠ none

/-- **No row is there in part.** -/
def NoPartialRow (envs : Envs) : Prop :=
  ∀ inst, ∀ c ∈ sensorTable.columns, envs.stored (c.loc inst) ≠ none → WholeRow envs inst

namespace History

variable (h : History)

/-- A commit makes no partial row. -/
theorem noPartialRow (hinit : NoPartialRow h.initial) (n : ℕ) : NoPartialRow (h.contents n) := by
  induction n with
  | zero => exact hinit
  | succ n ih =>
    intro inst c hc hstored d hd
    rw [contents] at hstored ⊢
    obtain hsame | ⟨p, -, -, hwrite⟩ := Commit.row_cases (h.contents n) (h.allowed n) inst
    · rw [hsame c hc] at hstored
      rw [hsame d hd]
      exact ih inst c hc hstored d hd
    · obtain ⟨v, -, hv⟩ := hwrite d hd
      rw [hv]
      exact Option.some_ne_none _

variable {h}

/-- A row stays. -/
theorem wholeRow_mono {inst : TableInstance} {m n : ℕ} (hmn : m ≤ n)
    (hrow : WholeRow (h.contents m) inst) : WholeRow (h.contents n) inst := by
  induction n, hmn using Nat.le_induction with
  | base => exact hrow
  | succ n _ ih =>
    intro c hc
    rw [contents]
    obtain hsame | ⟨p, -, -, hwrite⟩ := Commit.row_cases (h.contents n) (h.allowed n) inst
    · rw [hsame c hc]
      exact ih c hc
    · obtain ⟨v, -, hv⟩ := hwrite c hc
      rw [hv]
      exact Option.some_ne_none _

/-- What a snapshot finds in a cell was in the initial row, or some `put_row` before the snapshot
wrote it there. -/
def FromRow (h : History) (c : TableColumn) (inst : TableInstance) (n : ℕ) (data : Bytes) : Prop :=
  h.initial.stored (c.loc inst) = some data ∨
    ∃ k < n, ∃ p v, h.commit k = .putRow p ∧ p.inst = inst ∧ (c.name, v) ∈ p.cells ∧
      data = v.encode

theorem fromRow_of_stored {c : TableColumn} (hc : c ∈ sensorTable.columns) {inst : TableInstance}
    {data : Bytes} {n : ℕ} (hdata : (h.contents n).stored (c.loc inst) = some data) :
    h.FromRow c inst n data := by
  induction n with
  | zero => exact Or.inl hdata
  | succ n ih =>
    rw [contents] at hdata
    obtain hsame | ⟨p, hp, hinst, hwrite⟩ := Commit.row_cases (h.contents n) (h.allowed n) inst
    · rw [hsame c hc] at hdata
      refine (ih hdata).imp_right ?_
      rintro ⟨k, hk, hwritten⟩
      exact ⟨k, hk.trans (Nat.lt_succ_self n), hwritten⟩
    · obtain ⟨v, hmem, hv⟩ := hwrite c hc
      have hval := Option.some.inj (hdata.symm.trans hv)
      exact Or.inr ⟨n, Nat.lt_succ_self n, p, v, hp, hinst, hmem, hval⟩

end History

/-! ### The rows of the telemetry application -/

/-- The call of `put_row` in `run_once`, for a row. -/
def sensorRow (inst : TableInstance) (name : Bytes) (temp : Int32) (count : UInt32) : PutRow :=
  ⟨false, inst, [(ascii "sensorName", .bytes name), (ascii "sensorTempMilliC", .int32 temp),
    (ascii "sensorSampleCount", .uint32 count)]⟩

theorem sensorRow_whole (inst : TableInstance) (name : Bytes) (temp : Int32) (count : UInt32) :
    (sensorRow inst name temp count).Whole := by
  simp only [PutRow.Whole, sensorTable, List.forall_mem_cons]
  exact ⟨⟨.bytes name, by simp [sensorRow]⟩, ⟨.int32 temp, by simp [sensorRow]⟩,
    ⟨.uint32 count, by simp [sensorRow]⟩, by simp⟩

/-- It succeeds for every row of one sub-identifier. -/
theorem putRow_sensorRow (r : UInt32) (name : Bytes) (temp : Int32) (count : UInt32) (db : Lmdb) :
    (putRow false [r] (sensorRow [r] name temp count).cells db).1 = .ok () := by
  refine putRow_ok (fun cell hcell => ?_) db
  obtain ⟨c, hc, hname⟩ : ∃ c ∈ sensorTable.columns, c.name = cell.1 := by
    simp only [sensorRow, List.mem_cons, List.not_mem_nil, or_false] at hcell
    obtain rfl | rfl | rfl := hcell
    all_goals simp [sensorTable]
  obtain ⟨h1, -⟩ := sensorTable.name_length c hc
  obtain ⟨-, -, hlen⟩ := sensorTable.tableCellKey_name hc r
  rw [← hname]
  exact Table.cellKey_eq_ok_iff.mpr
    ⟨List.length_pos_iff.mp h1, (sensorTable_column hc).2, by simp, rfl, hlen⟩

/-- A history of calls of `put_row`, with pauses. -/
def History.ofPuts (initial : Envs) (puts : ℕ → Option PutRow)
    (hputs : ∀ n p, puts n = some p → p.Whole) : History where
  initial := initial
  commit n := (puts n).elim (.other id) .putRow
  allowed n := by
    rcases hn : puts n with _ | p
    · exact fun _ _ _ _ => rfl
    · exact hputs n p hn

/-! ### Requests -/

/-- A varbind of a request: the column number and the sub-identifiers of its name, and the point of
the history at which its cell is read. -/
structure CellRead where
  colnum : ℕ
  subids : List ℕ
  time : ℕ

/-- **A GET of `sensorTable`**: the points of the history at which the columns are scanned, and the
varbinds. -/
structure SensorGet where
  scanTime : ℕ → ℕ
  reads : List CellRead

namespace SensorGet

/-- The snapshots a request takes, in their order. -/
def times (g : SensorGet) : List ℕ :=
  (List.range sensorTable.columns.length).map g.scanTime ++ g.reads.map CellRead.time

variable (ix : IndexCodec) (h : History) (g : SensorGet)

/-- The rows the iterator yields. -/
def points : List ix.Index :=
  dataPoints ix .none (sensorTable.columnRefs fun i => h.contents (g.scanTime i))

/-- What the varbinds are answered. -/
def replies : List GetReply :=
  sensorTable.handleGet (fun _ => .none)
    (fun i => h.contents ((g.reads.map CellRead.time).getD i 0))
    (g.reads.map fun rd => GeneratedTable.request ix (g.points ix h) rd.colnum rd.subids)

variable {ix h g}

/-- A varbind is answered from the snapshot of its own read. -/
theorem getElem?_replies {j : ℕ} {rd : CellRead} (hj : g.reads[j]? = some rd) :
    (g.replies ix h)[j]? = some (sensorTable.handleGetRequest .none (h.contents rd.time)
      (GeneratedTable.request ix (g.points ix h) rd.colnum rd.subids)) := by
  rw [replies, GeneratedTable.handleGet, List.getElem?_mapIdx, List.getElem?_map, hj]
  simp [hj]

/-- **A row that is there as a whole in a scan is yielded.** -/
theorem mem_points {r : UInt32} (hrow : ∀ i < sensorTable.columns.length,
    WholeRow (h.contents (g.scanTime i)) [r]) :
    some [r.toNat] ∈ (g.points ix h).map ix.buildOidNoalloc := by
  obtain ⟨rs, hload, hsorted, hmem⟩ :=
    sensorTable.rows_spec fun i => h.contents (g.scanTime i)
  refine (mem_dataPoints_iff hload hsorted).mpr ((hmem [r]).mpr ⟨by simp, by simp, ?_⟩)
  have hpos : 0 < sensorTable.columns.length := by decide
  exact ⟨0, _, List.getElem?_eq_getElem hpos, hrow 0 hpos _ (List.getElem_mem hpos)⟩

/-- **A row that is yielded was there as a whole** in one of the scans. -/
theorem wholeRow_of_mem_points (hinit : NoPartialRow h.initial) {p : ix.Index}
    (hp : p ∈ g.points ix h) :
    ∃ r : UInt32, ix.buildOidNoalloc p = some [r.toNat] ∧
      ∃ i < sensorTable.columns.length, WholeRow (h.contents (g.scanTime i)) [r] := by
  obtain ⟨r, hbuild, col, hcol, hkey⟩ := dataPoints_sound hp
  obtain ⟨i, hi, rfl⟩ := List.mem_mapIdx.mp hcol
  refine ⟨r, hbuild, i, hi, ?_⟩
  exact h.noPartialRow hinit _ [r] _ (List.getElem_mem hi) (Envs.stored_ne_none_iff.mpr hkey)

/-- A scan is among the snapshots. -/
theorem scanTime_mem_times {i : ℕ} (hi : i < sensorTable.columns.length) :
    g.scanTime i ∈ g.times :=
  List.mem_append_left _ (List.mem_map_of_mem (List.mem_range.mpr hi))

/-- A read is among the snapshots. -/
theorem time_mem_times {rd : CellRead} (hrd : rd ∈ g.reads) : rd.time ∈ g.times :=
  List.mem_append_right _ (List.mem_map_of_mem hrd)

/-- **No read is older than a scan** of the same request or of one before it, and no scan is older
than one of an earlier request. -/
theorem scanTime_le {gets : List SensorGet} (hmono : (gets.flatMap times).Pairwise (· ≤ ·))
    {k k' : ℕ} {g' : SensorGet} (hg : gets[k]? = some g) (hg' : gets[k']? = some g') (hk : k ≤ k')
    {i : ℕ} (hi : i < sensorTable.columns.length) :
    (∀ rd ∈ g'.reads, g.scanTime i ≤ rd.time) ∧
      (k < k' → ∀ i' < sensorTable.columns.length, g.scanTime i ≤ g'.scanTime i') := by
  obtain ⟨hwithin, hacross⟩ := List.pairwise_flatMap.mp hmono
  have hlater : k < k' → ∀ t ∈ g'.times, g.scanTime i ≤ t := by
    intro hlt t ht
    obtain ⟨hkl, rfl⟩ := List.getElem?_eq_some_iff.mp hg
    obtain ⟨hkl', rfl⟩ := List.getElem?_eq_some_iff.mp hg'
    exact List.pairwise_iff_getElem.mp hacross k k' hkl hkl' hlt _ (scanTime_mem_times hi) t ht
  refine ⟨fun rd hrd => ?_, fun hlt i' hi' => hlater hlt _ (scanTime_mem_times hi')⟩
  obtain hlt | rfl := Nat.lt_or_eq_of_le hk
  · exact hlater hlt _ (time_mem_times hrd)
  · obtain rfl := Option.some.inj (hg.symm.trans hg')
    have hpair := hwithin g (List.mem_of_getElem? hg)
    exact (List.pairwise_append.mp hpair).2.2 _
      (List.mem_map_of_mem (List.mem_range.mpr hi)) _ (List.mem_map_of_mem hrd)

end SensorGet

/-- **A new row never shows a hole.** In every history in which cells of `sensorTable` are only
committed to by calls of `put_row` that write whole rows, with no partial row at the start, and for
every sequence of requests whose snapshots never go back: once a request yields a row, every later
request yields it too, and every read of a cell of it, in this request or a later one, finds a value
that was there initially or that a `put_row` of the row wrote; the varbind is answered from that
value, and never `noSuchInstance`. -/
theorem no_holes_in_yielded_rows (ix : IndexCodec) (h : History) (hinit : NoPartialRow h.initial)
    (gets : List SensorGet) (hmono : (gets.flatMap SensorGet.times).Pairwise (· ≤ ·))
    {k : ℕ} {g : SensorGet} (hg : gets[k]? = some g) {p : ix.Index} (hp : p ∈ g.points ix h) :
    ∃ r : UInt32, ix.buildOidNoalloc p = some [r.toNat] ∧
      ∀ (k' : ℕ) (g' : SensorGet), k ≤ k' → gets[k']? = some g' →
        ix.buildOidNoalloc p ∈ (g'.points ix h).map ix.buildOidNoalloc ∧
        ∀ (j : ℕ) (rd : CellRead) (c : TableColumn), g'.reads[j]? = some rd →
          c ∈ sensorTable.columns → rd.colnum = c.colnum → rd.subids = [r.toNat] →
          ∃ data, (h.contents rd.time).stored (c.loc [r]) = some data ∧
            h.FromRow c [r] rd.time data ∧
            (g'.replies ix h)[j]? = some (cellReply c (some data)) ∧
            cellReply c (some data) ≠ .noSuchInstance := by
  obtain ⟨r, hbuild, i, hi, hrow⟩ := SensorGet.wholeRow_of_mem_points hinit hp
  refine ⟨r, hbuild, fun k' g' hk hg' => ?_⟩
  obtain ⟨hreads, hscans⟩ := SensorGet.scanTime_le hmono hg hg' hk hi
  have hyield : some [r.toNat] ∈ (g'.points ix h).map ix.buildOidNoalloc := by
    obtain hlt | rfl := Nat.lt_or_eq_of_le hk
    · exact SensorGet.mem_points fun i' hi' => History.wholeRow_mono (hscans hlt i' hi') hrow
    · obtain rfl := Option.some.inj (hg.symm.trans hg')
      exact hbuild ▸ List.mem_map_of_mem hp
  refine ⟨hbuild ▸ hyield, fun j rd c hj hc hcol hsub => ?_⟩
  have hcell := History.wholeRow_mono (hreads rd (List.mem_of_getElem? hj)) hrow c hc
  obtain ⟨data, hdata⟩ := Option.ne_none_iff_exists'.mp hcell
  refine ⟨data, hdata, History.fromRow_of_stored hc hdata, ?_, ?_⟩
  · obtain ⟨info, hnum, hindex, hreq⟩ :=
      request_single ix (g'.points ix h) rd.colnum r
    rw [SensorGet.getElem?_replies hj, hsub, hreq, decide_eq_true hyield,
      handleGetRequest_cell hc (hnum.trans hcol) hindex, ← hdata]
    rfl
  · rw [cellReply]
    split <;> simp

/-- The first sample. -/
def firstSample : History :=
  .ofPuts (fun _ => ∅) (fun n => if n = 0 then some (sensorRow [1] (ascii "cpu") 40000 1) else none)
    (by
      rintro n p hp
      split_ifs at hp
      obtain rfl := Option.some.inj hp
      exact sensorRow_whole _ _ _ _)

/-- A request right after it. -/
def firstGet : SensorGet := ⟨fun _ => 1, [⟨3, [1], 1⟩, ⟨4, [1], 2⟩]⟩

/-- The row is yielded, and no varbind is answered `noSuchInstance`. -/
theorem no_holes_first_sample :
    (firstGet.replies .unsigned32 firstSample)[1]? ≠ some .noSuchInstance := by
  have hinit : NoPartialRow firstSample.initial := by
    rintro inst c - hstored
    exact absurd rfl hstored
  have hrow : WholeRow (firstSample.contents 1) [1] := by
    simp only [WholeRow, sensorTable, List.forall_mem_cons]
    exact ⟨by decide, by decide, by decide, by simp⟩
  have hyield : some [(1 : UInt32).toNat] ∈ (firstGet.points .unsigned32 firstSample).map
      IndexCodec.unsigned32.buildOidNoalloc := SensorGet.mem_points fun _ _ => hrow
  obtain ⟨p, hp, hbuild⟩ := List.mem_map.mp hyield
  have hget : [firstGet][0]? = some firstGet := rfl
  obtain ⟨r, hr, hlater⟩ := no_holes_in_yielded_rows .unsigned32 firstSample hinit [firstGet]
    (by decide) hget hp
  obtain rfl : 1 = r := UInt32.toNat_inj.mp (by simpa using hbuild.symm.trans hr)
  obtain ⟨-, hreads⟩ := hlater 0 firstGet le_rfl hget
  have hc : (⟨4, ascii "sensorSampleCount", .unsigned32 [], .counter, .cache⟩ : TableColumn) ∈
      sensorTable.columns := by
    simp [sensorTable]
  obtain ⟨data, -, -, hreply, hne⟩ := hreads 1 ⟨4, [1], 2⟩ _ rfl hc rfl rfl
  rw [hreply]
  exact fun h => hne (Option.some.inj h)

/-! ### Torn reads -/

/-- The requests for some columns of a row that was yielded. -/
def rowRequests (r : UInt32) (cols : List TableColumn) : List GetRequest :=
  cols.map fun c => ⟨some ⟨c.colnum, some [r.toNat]⟩, true⟩

/-- **The row is not read torn**: what `handle_sensorTable` answers, with the `i`-th cell read at
the point `times i`, is what it would answer if all cells were read at one point. -/
def Untorn (h : History) (r : UInt32) (cols : List TableColumn) (times : ℕ → ℕ) : Prop :=
  ∃ n, sensorTable.handleGet (fun _ => .none) (fun i => h.contents (times i)) (rowRequests r cols) =
    sensorTable.handleGet (fun _ => .none) (fun _ => h.contents n) (rowRequests r cols)

section Torn

variable {r : UInt32} {cols : List TableColumn}

/-- The answers, cell by cell. -/
theorem getElem?_handleGet (hcols : ∀ c ∈ cols, c ∈ sensorTable.columns) (envs : ℕ → Envs) (j : ℕ) :
    (sensorTable.handleGet (fun _ => .none) envs (rowRequests r cols))[j]? =
      cols[j]?.map fun c => cellReply c ((envs j).stored (c.loc [r])) := by
  rw [GeneratedTable.handleGet, rowRequests, List.getElem?_mapIdx, List.getElem?_map,
    Option.map_map]
  rcases hj : cols[j]? with _ | c
  · rfl
  · exact congrArg some (handleGetRequest_cell (hcols c (List.mem_of_getElem? hj)) rfl rfl)

/-- A row that no commit writes reads the same. -/
theorem History.stored_eq_of_forall_ne {h : History} {inst : TableInstance} {m n : ℕ} (hmn : m ≤ n)
    (hrow : ∀ k, m ≤ k → k < n → (h.commit k).row ≠ some inst) {c : TableColumn}
    (hc : c ∈ sensorTable.columns) :
    (h.contents n).stored (c.loc inst) = (h.contents m).stored (c.loc inst) := by
  induction n, hmn using Nat.le_induction with
  | base => rfl
  | succ n hmn ih =>
    rw [History.contents]
    obtain hsame | ⟨p, hp, hinst, -⟩ := Commit.row_cases (h.contents n) (h.allowed n) inst
    · rw [hsame c hc]
      exact ih fun k hk hkn => hrow k hk (hkn.trans (Nat.lt_succ_self n))
    · refine absurd ?_ (hrow n hmn (Nat.lt_succ_self n))
      rw [hp, Commit.row, hinst]

/-- A row with a mark in each cell. -/
def markedRow (mark : Bool) (inst : TableInstance) : PutRow :=
  sensorRow inst (if mark then [1] else []) (if mark then 1 else 0) (if mark then 1 else 0)

/-- What the marks are answered. -/
def markedReply (mark : Bool) (c : TableColumn) : GetReply :=
  match c.syn with
  | .octetString _ => .value c.asnType (.bytes (if mark then [1] else []))
  | .integer32 _ _ => .value c.asnType (.int32 (if mark then 1 else 0))
  | .unsigned32 _ => .value c.asnType (.uint32 (if mark then 1 else 0))

theorem markedReply_inj {mark mark' : Bool} {c : TableColumn}
    (h : markedReply mark c = markedReply mark' c) : mark = mark' := by
  rw [markedReply, markedReply] at h
  cases mark <;> cases mark' <;> cases hsyn : c.syn <;> simp_all

theorem cellReply_markedRow {mark : Bool} {inst : TableInstance} {c : TableColumn}
    (hc : c ∈ sensorTable.columns) {v : Value} (hv : (c.name, v) ∈ (markedRow mark inst).cells) :
    cellReply c (some v.encode) = markedReply mark c := by
  have hcells : ∀ d ∈ sensorTable.columns, ∀ cell ∈ (markedRow mark inst).cells,
      cell.1 = d.name → cellReply d (some cell.2.encode) = markedReply mark d := by
    simp only [sensorTable, markedRow, sensorRow, List.forall_mem_cons]
    cases mark
    all_goals decide
  exact hcells c hc (c.name, v) hv rfl

/-- A call that writes a marked row leaves it there. -/
theorem cellReply_apply_markedRow (mark : Bool) (envs : Envs) {c : TableColumn}
    (hc : c ∈ sensorTable.columns) :
    cellReply c (((Commit.putRow (markedRow mark [r])).apply envs).stored (c.loc [r])) =
      markedReply mark c := by
  obtain ⟨hnot, -⟩ | ⟨-, hwrite⟩ := stored_putRow envs (sensorRow_whole [r] _ _ _) [r]
  · obtain hfail | hother := hnot
    · exact absurd (putRow_sensorRow r _ _ _ _) hfail
    · exact absurd rfl hother
  · obtain ⟨v, hv, hstored⟩ := hwrite c hc
    rw [markedRow, hstored]
    exact cellReply_markedRow hc hv

/-- The history that commits rows in a given order, marked from the `N`-th commit on. -/
def markedHistory (r : UInt32) (rows : ℕ → Option TableInstance) (N : ℕ) : History :=
  .ofPuts ((Commit.putRow (markedRow false [r])).apply fun _ => ∅)
    (fun n => (rows n).map (markedRow (decide (N ≤ n)))) (by
      rintro n p hp
      obtain ⟨inst, -, rfl⟩ := Option.map_eq_some_iff.mp hp
      exact sensorRow_whole _ _ _ _)

theorem row_markedHistory (rows : ℕ → Option TableInstance) (N n : ℕ) :
    ((markedHistory r rows N).commit n).row = rows n := by
  simp only [markedHistory, History.ofPuts]
  rcases rows n with _ | inst <;> rfl

/-- **At every point the row is marked in all cells or in none**, depending on the side of the
`N`-th commit. -/
theorem cellReply_markedHistory {rows : ℕ → Option TableInstance} {N : ℕ} (hN : rows N = some [r])
    {c : TableColumn} (hc : c ∈ sensorTable.columns) (n : ℕ) :
    cellReply c (((markedHistory r rows N).contents n).stored (c.loc [r])) =
      markedReply (decide (N < n)) c := by
  induction n with
  | zero => exact cellReply_apply_markedRow false _ hc
  | succ n ih =>
    by_cases hrow : rows n = some [r]
    · have hcommit : (markedHistory r rows N).commit n =
          .putRow (markedRow (decide (N ≤ n)) [r]) := by
        simp only [markedHistory, History.ofPuts, hrow, Option.map_some, Option.elim_some]
      rw [History.contents, hcommit, cellReply_apply_markedRow _ _ hc]
      simp only [Nat.lt_succ_iff]
    · -- another row: the mark stays, and this is not the `N`-th commit
      have hne : N ≠ n := by
        rintro rfl
        exact hrow hN
      rw [History.stored_eq_of_forall_ne (Nat.le_succ n) (fun k hk hkn => ?_) hc, ih]
      · simp only [Nat.lt_succ_iff, Nat.lt_iff_le_and_ne, hne, ne_eq, not_false_eq_true, and_true]
      · obtain rfl : k = n := Nat.le_antisymm (Nat.lt_succ_iff.mp hkn) hk
        rwa [row_markedHistory]

end Torn

/-- **When the cells of a row come from one version of it.** Let `rows` say which row each commit
writes, if any, and let the cells of columns `cols` of row `r` be read one after the other, at
points of the history that never go back. Then the row is not read torn, whatever it held and
whatever is written, if and only if no commit writes the row between the first read and the last. -/
theorem row_untorn_iff (r : UInt32) (cols : List TableColumn)
    (hcols : ∀ c ∈ cols, c ∈ sensorTable.columns) (times : ℕ → ℕ) (hmono : Monotone times)
    (rows : ℕ → Option TableInstance) :
    (∀ h : History, (∀ n, (h.commit n).row = rows n) → Untorn h r cols times) ↔
      ∀ n, times 0 ≤ n → n < times (cols.length - 1) → rows n ≠ some [r] := by
  constructor
  · -- marks from an offending commit on show in the last cell, and not in the first
    intro huntorn N hfirst hlast hN
    obtain ⟨n, heq⟩ := huntorn (markedHistory r rows N) (row_markedHistory rows N)
    have hcell : ∀ j (c : TableColumn), cols[j]? = some c →
        decide (N < times j) = decide (N < n) := by
      intro j c hj
      have hc := hcols c (List.mem_of_getElem? hj)
      have hreply := congrArg (fun replies => replies[j]?) heq
      simp only [getElem?_handleGet hcols, hj, Option.map_some, Option.some.injEq,
        cellReply_markedHistory hN hc] at hreply
      exact markedReply_inj hreply
    have hpos : cols.length - 1 ≠ 0 := by
      intro h0
      rw [h0] at hlast
      omega
    have hlen : cols.length - 1 < cols.length := by omega
    have h0 := hcell 0 _ (List.getElem?_eq_getElem (by omega))
    have h1 := hcell (cols.length - 1) _ (List.getElem?_eq_getElem hlen)
    rw [decide_eq_true hlast] at h1
    rw [← h1, decide_eq_true_iff] at h0
    omega
  · -- without one, every cell is as it was at the first read
    rintro hquiet h hrows
    refine ⟨times 0, List.ext_getElem? fun j => ?_⟩
    rw [getElem?_handleGet hcols, getElem?_handleGet hcols]
    rcases hj : cols[j]? with _ | c
    · rfl
    · obtain ⟨hjlt, -⟩ := List.getElem?_eq_some_iff.mp hj
      have hlast : times j ≤ times (cols.length - 1) := hmono (by omega)
      rw [Option.map_some, Option.map_some, History.stored_eq_of_forall_ne
        (hmono (Nat.zero_le j)) (fun k hk hkj => ?_) (hcols c (List.mem_of_getElem? hj))]
      rw [hrows]
      exact hquiet k hk (hkj.trans_le hlast)

/-- Row 2 is written over and over. -/
def busyHistory : History :=
  .ofPuts (fun _ => ∅) (fun n => some (sensorRow [2] (ascii "board") 41500 n.toUInt32)) (by
    rintro n p hp
    obtain rfl := Option.some.inj hp
    exact sensorRow_whole _ _ _ _)

/-- That tears no read of row 1. -/
theorem row_untorn_busy : Untorn busyHistory 1 sensorTable.columns id :=
  (row_untorn_iff 1 sensorTable.columns (fun _ hc => hc) id monotone_id fun _ => some [2]).mpr
    (by simp) busyHistory fun _ => rfl

/-- Row 1 is written anew. -/
def resampleHistory : History :=
  .ofPuts ((Commit.putRow (sensorRow [1] (ascii "cpu") 40000 1)).apply fun _ => ∅)
    (fun n => if n = 0 then some (sensorRow [1] (ascii "cpu") 50000 2) else none) (by
      rintro n p hp
      split_ifs at hp
      obtain rfl := Option.some.inj hp
      exact sensorRow_whole _ _ _ _)

/-- **A row can be read torn.** The temperature is read before the commit and the count behind it:
the replies are the temperature of the first sample and the count of the second, and at no point of
the history would they be that. -/
theorem row_read_torn :
    (resampleHistory.commit 0).row = some [1] ∧
      sensorTable.handleGet (fun _ => .none) (fun i => resampleHistory.contents i)
          (rowRequests 1 (sensorTable.columns.drop 1)) =
        [.value .integer (.int32 40000), .value .counter (.uint32 2)] ∧
      ¬Untorn resampleHistory 1 (sensorTable.columns.drop 1) id := by
  refine ⟨rfl, by decide, fun ⟨n, heq⟩ => ?_⟩
  rcases n with _ | n
  · exact absurd heq (by decide)
  · have hlast : ∀ n, resampleHistory.contents (n + 1) = resampleHistory.contents 1 := by
      intro n
      induction n with
      | zero => rfl
      | succ n ih => exact ih
    rw [hlast] at heq
    exact absurd heq (by decide)

end AgentxSubagent
