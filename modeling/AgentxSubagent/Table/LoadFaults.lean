import AgentxSubagent.Storage.Retry
import AgentxSubagent.Table.Rowset

/-!
# Row discovery when something fails

`table_rowset_load` once more, with everything it shares with its caller: pointers that may be
`NULL`, the place `*out`, and the iterators it opens and closes. Anything on the way can fail. The
loop over the keys of a column has four exits and one variable for the code, so a scan that was cut
short could come out as one that is finished.

What can fail, in the order in which a load comes to it, is `AgentxSubagent.loadFailures`: a list of
codes that does not know where the load stops.

* `AgentxSubagent.load_complete_or_fails`: without a failure the result is the sorted union over all
  columns, otherwise it is the code of the first one and `*out` is not written; either way every
  iterator that was opened has been closed once.

`AgentxSubagent.tableRowsetLoadPtr_eq` says that this is the load of
`AgentxSubagent.tableRowsetLoad`.
-/

namespace AgentxSubagent

/-! ### The load with its iterators -/

/-- `table_column_ref_t` as a caller passes it. -/
structure ColumnRef where
  env : Option MdbEnv
  column : Option Bytes

/-- A column whose pointers are not `NULL`. -/
def TableColumnRef.ptr (col : TableColumnRef) : ColumnRef := ⟨some col.env, some col.column⟩

/-- What happens to the iterator of a column. -/
inductive IterEvent
  | opened (col : ℕ)
  | next (col : ℕ)
  | closed (col : ℕ)
  deriving DecidableEq

/-- What a scan leaves: the code, the rowset it added to, and what happened to the iterators. -/
structure Scanned where
  rc : Except StorageErr Unit
  rs : TableRowset
  log : List IterEvent

/-- The loop of `rowset_load_column` for column number `c`, about to ask for key number `i`. -/
def rowsetLoadLoopPtr (f : ScanFault) (c prefixLen : ℕ) :
    ℕ → ℕ → StorageIter → TableRowset → List IterEvent → Scanned
  | 0, _, _, rs, log => ⟨.error .io, rs, log⟩
  | fuel + 1, i, it, rs, log =>
    let log := log ++ [.next c]
    match storageIterNext (f.atNext i) it with
    | (.error .notFound, _) => ⟨.ok (), rs, log⟩
    | (.error rc, _) => ⟨.error rc, rs, log⟩
    | (.ok key, it) =>
      match tableInstanceParse (key.drop prefixLen) with
      | .error _ =>
        rowsetLoadLoopPtr f c prefixLen fuel (i + 1) it { rs with skipped := rs.skipped + 1 } log
      | .ok inst =>
        match rowsetPush (f.atGrow i) rs inst with
        | .error rc => ⟨.error rc, rs, log⟩
        | .ok rs => rowsetLoadLoopPtr f c prefixLen fuel (i + 1) it rs log

/-- `rowset_load_column`. An iterator that cannot be opened leaves nothing to close. -/
def rowsetLoadColumnPtr (f : ScanFault) (c : ℕ) (rs : TableRowset) (col : ColumnRef)
    (log : List IterEvent) : Scanned :=
  match col.env, col.column with
  | some env, some column =>
    if column.length = 0 then ⟨.error .inval, rs, log⟩
    else
      let pfx := column ++ [46]
      if pfx.length ≥ storageKeyMax + 2 then ⟨.error .tooBig, rs, log⟩
      else
        match storageIterOpen f.toIterFault env pfx with
        | .error rc => ⟨.error rc, rs, log⟩
        | .ok it =>
          let r := rowsetLoadLoopPtr f c pfx.length (it.cursor.keys.length + 1) 0 it rs
            (log ++ [.opened c])
          { r with log := r.log ++ [.closed c] }
  | _, _ => ⟨.error .inval, rs, log⟩

/-- The loop of `table_rowset_load` over the columns, from column number `i` on. -/
def rowsetLoadColumnsPtr (f : ℕ → ScanFault) :
    ℕ → List ColumnRef → TableRowset → List IterEvent → Scanned
  | _, [], rs, log => ⟨.ok (), rs, log⟩
  | i, col :: cols, rs, log =>
    let r := rowsetLoadColumnPtr (f i) i rs col log
    match r.rc with
    | .error _ => r
    | .ok _ => rowsetLoadColumnsPtr f (i + 1) cols r.rs r.log

/-- What `table_rowset_load` leaves: the code, what `*out` holds, and what happened to the
iterators. -/
structure Loaded where
  rc : Except StorageErr Unit
  out : Option (Option TableRowset)
  log : List IterEvent

/-- `table_rowset_load`; `columns` and `out` may be `NULL`, and `*out` may hold anything. -/
def tableRowsetLoadPtr (nomem : Bool) (f : ℕ → ScanFault) (columns : Option (List ColumnRef))
    (out : Option (Option TableRowset)) : Loaded :=
  match columns, out with
  | some columns, some _ =>
    if columns.length = 0 then ⟨.error .inval, out, []⟩
    else if nomem then ⟨.error .io, out, []⟩
    else
      let r := rowsetLoadColumnsPtr f 0 columns ⟨[], 0, 0⟩ []
      match r.rc with
      | .error rc => ⟨.error rc, out, r.log⟩
      | .ok _ => ⟨.ok (), some (some (rowsetFinish r.rs)), r.log⟩
  | _, _ => ⟨.error .inval, out, []⟩

/-! ### What can fail -/

/-- The sizes the array of rows goes through. -/
def rowsetCapacity : ℕ → ℕ
  | 0 => 0
  | n + 1 => if rowsetCapacity n = 0 then 16 else rowsetCapacity n * 2

/-- A push at this count makes the array grow. -/
def GrowthStep (count : ℕ) : Prop := ∃ n ≤ count, count = rowsetCapacity n

instance (count : ℕ) : Decidable (GrowthStep count) :=
  inferInstanceAs (Decidable (∃ n ≤ count, _))

/-- The failures a scan comes to, with `keys` ahead of it from key number `i` on and `count` rows
collected so far. -/
def scanFailures (f : ScanFault) (prefixLen : ℕ) : ℕ → ℕ → List Bytes → List StorageErr
  | i, _, [] => ((f.atNext i).map mapMdbRc).toList
  | i, count, key :: keys =>
    ((f.atNext i).map mapMdbRc).toList ++
      match tableInstanceParse (key.drop prefixLen) with
      | .error _ => scanFailures f prefixLen (i + 1) count keys
      | .ok _ =>
        (if GrowthStep count ∧ f.atGrow i then [.io] else []) ++
          scanFailures f prefixLen (i + 1) (count + 1) keys

/-- The rows a column contributes. -/
def ColumnRef.rows (col : ColumnRef) : List TableInstance :=
  match col.env, col.column with
  | some env, some column => rowsOf (column.length + 1) (columnKeys ⟨env, column⟩)
  | _, _ => []

/-- The keys of a column that are skipped. -/
def ColumnRef.skipped (col : ColumnRef) : ℕ :=
  match col.env, col.column with
  | some env, some column => skippedOf (column.length + 1) (columnKeys ⟨env, column⟩)
  | _, _ => 0

/-- The failures the load of a column comes to, with `count` rows collected so far. -/
def columnFailures (f : ScanFault) (count : ℕ) (col : ColumnRef) : List StorageErr :=
  match col.env, col.column with
  | some env, some column =>
    (if column.length = 0 then [.inval] else []) ++
      (if column.length > storageKeyMax then [.tooBig] else []) ++
      (match storageIterOpen f.toIterFault env (column ++ [46]) with
        | .error rc => [rc]
        | .ok _ => []) ++
      scanFailures f (column.length + 1) 0 count (columnKeys ⟨env, column⟩)
  | _, _ => [.inval]

/-- The failures the loads of the columns come to, from column number `i` on. -/
def columnsFailures (f : ℕ → ScanFault) : ℕ → ℕ → List ColumnRef → List StorageErr
  | _, _, [] => []
  | i, count, col :: cols =>
    columnFailures (f i) count col ++ columnsFailures f (i + 1) (count + col.rows.length) cols

/-- **Everything that can fail in a load**, in the order in which the load comes to it. -/
def loadFailures (nomem : Bool) (f : ℕ → ScanFault) (columns : Option (List ColumnRef))
    (out : Option (Option TableRowset)) : List StorageErr :=
  match columns, out with
  | some columns, some _ =>
    (if columns.length = 0 then [.inval] else []) ++ (if nomem then [.io] else []) ++
      columnsFailures f 0 0 columns
  | _, _ => [.inval]

/-- The column an event is about. -/
def IterEvent.col : IterEvent → ℕ
  | .opened c => c
  | .next c => c
  | .closed c => c

/-- An iterator is opened, asked for keys `n` times, and closed. -/
def iterEvents (c n : ℕ) : List IterEvent :=
  .opened c :: List.replicate n (.next c) ++ [.closed c]

/-- **Every iterator that was opened has been closed once**: the events of a column are none at
all, or those of one iterator from its opening to its closing. -/
def Released (log : List IterEvent) : Prop :=
  ∀ c, log.filter (fun ev => ev.col = c) = [] ∨
    ∃ n, log.filter (fun ev => ev.col = c) = iterEvents c n

/-! ### The array of rows -/

theorem rowsetCapacity_strictMono : StrictMono rowsetCapacity := by
  refine strictMono_nat_of_lt_succ fun n => ?_
  rw [rowsetCapacity]
  split_ifs with h
  · omega
  · omega

/-- The array has the least of its sizes that holds the rows. -/
def TableRowset.Tight (rs : TableRowset) : Prop :=
  ∃ n, rs.capacity = rowsetCapacity n ∧ rs.rows.length ≤ rowsetCapacity n ∧
    ∀ m < n, rowsetCapacity m < rs.rows.length

/-- **The array is full at the growth steps**, and only there. -/
theorem TableRowset.Tight.full_iff {rs : TableRowset} (h : rs.Tight) :
    rs.rows.length = rs.capacity ↔ GrowthStep rs.rows.length := by
  obtain ⟨n, hcap, hle, hlt⟩ := h
  constructor
  · intro heq
    refine ⟨n, ?_, heq.trans hcap⟩
    rw [heq, hcap]
    exact rowsetCapacity_strictMono.le_apply
  · rintro ⟨m, -, hm⟩
    rw [hcap, hm]
    -- no smaller size holds the rows, and no larger one was needed
    rcases lt_trichotomy m n with hmn | rfl | hmn
    · exact absurd (hlt m hmn) (by omega)
    · rfl
    · exact absurd (rowsetCapacity_strictMono hmn) (by omega)

/-- **What a push does**: it fails at a growth step whose allocation fails, and appends the row
otherwise. -/
theorem TableRowset.Tight.rowsetPush_cases {rs : TableRowset} (h : rs.Tight) (growFails : Bool)
    (inst : TableInstance) :
    (GrowthStep rs.rows.length ∧ growFails = true ∧ rowsetPush growFails rs inst = .error .io) ∨
      ¬(GrowthStep rs.rows.length ∧ growFails = true) ∧
        ∃ rs', rowsetPush growFails rs inst = .ok rs' ∧ rs'.rows = rs.rows ++ [inst] ∧
          rs'.skipped = rs.skipped ∧ rs'.Tight := by
  by_cases hfull : rs.rows.length = rs.capacity
  · have hstep := h.full_iff.mp hfull
    rw [rowsetPush, if_pos hfull]
    rcases growFails with _ | _
    · refine Or.inr ⟨by simp, _, rfl, rfl, rfl, ?_⟩
      obtain ⟨n, hcap, -, -⟩ := h
      have hgrow := rowsetCapacity_strictMono (Nat.lt_add_one n)
      refine ⟨n + 1, by simp only [rowsetCapacity, hcap], ?_, fun m hm => ?_⟩
      · rw [List.length_append, List.length_singleton]
        omega
      · have hmn := rowsetCapacity_strictMono.monotone (Nat.le_of_lt_succ hm)
        rw [List.length_append, List.length_singleton]
        omega
    · exact Or.inl ⟨hstep, rfl, rfl⟩
  · rw [rowsetPush, if_neg hfull]
    refine Or.inr ⟨fun hg => hfull (h.full_iff.mpr hg.1), _, rfl, rfl, rfl, ?_⟩
    obtain ⟨n, hcap, hle, hlt⟩ := h
    refine ⟨n, hcap, ?_, fun m hm => ?_⟩
    · rw [List.length_append, List.length_singleton]
      omega
    · have := hlt m hm
      rw [List.length_append, List.length_singleton]
      omega

/-! ### One column -/

/-- **What a scan leaves**, where `failures` is what it comes to and `rows` and `skipped` are what
it would add to the rowset. -/
structure Scanned.Meets (r : Scanned) (failures : List StorageErr) (rs : TableRowset)
    (rows : List TableInstance) (skipped : ℕ) : Prop where
  fails : ∀ rc, failures.head? = some rc → r.rc = .error rc
  ends : failures = [] → r.rc = .ok () ∧ r.rs.rows = rs.rows ++ rows ∧
    r.rs.skipped = rs.skipped + skipped ∧ r.rs.Tight

theorem Scanned.Meets.of_failure {rc : StorageErr} {failures : List StorageErr}
    {rs rs' : TableRowset} {log : List IterEvent} {rows : List TableInstance} {skipped : ℕ}
    (h : failures.head? = some rc) :
    (⟨.error rc, rs', log⟩ : Scanned).Meets failures rs rows skipped := by
  refine ⟨fun rc' h' => ?_, fun hnil => ?_⟩
  · rw [Option.some.inj (h.symm.trans h')]
  · rw [hnil] at h
    exact absurd h (by simp)

/-- What a scan leaves does not depend on how its rows are divided. -/
theorem Scanned.Meets.congr {r : Scanned} {failures : List StorageErr} {rs rs' : TableRowset}
    {rows rows' : List TableInstance} {skipped skipped' : ℕ} (h : r.Meets failures rs rows skipped)
    (hrows : rs.rows ++ rows = rs'.rows ++ rows')
    (hskip : rs.skipped + skipped = rs'.skipped + skipped') :
    r.Meets failures rs' rows' skipped' :=
  ⟨h.fails, fun hnil => by
    obtain ⟨hrc, hr, hs, htight⟩ := h.ends hnil
    exact ⟨hrc, hr.trans hrows, hs.trans hskip, htight⟩⟩

/-- A key that is returned does not end the iteration. -/
theorem exhausted_of_storageIterNext_ok {fault : Option MdbErr} {it it' : StorageIter} {k : Bytes}
    (h : storageIterNext fault it = (.ok k, it')) : it'.exhausted = false := by
  rw [storageIterNext] at h
  split_ifs at h with hex
  · exact absurd (congrArg Prod.fst h) (by simp)
  · rcases hget : mdbCursorGet fault it.cursor it.op with ⟨err | key, c⟩
    · rw [hget] at h
      exact absurd (congrArg Prod.fst h) (by simp)
    · rw [hget] at h
      simp only at h
      split_ifs at h
      · exact absurd (congrArg Prod.fst h) (by simp)
      · rw [← (Prod.mk.inj h).2]
        exact Bool.eq_false_iff.mpr hex

section Column

variable {f : ScanFault} {c prefixLen : ℕ}

/-- A scan whose cursor call fails ends with the code of the failure. -/
theorem rowsetLoadLoopPtr_failed {it : StorageIter} {i : ℕ} {err : MdbErr}
    (hex : it.exhausted = false) (hf : f.atNext i = some err) (herr : err ≠ .notFound) (fuel : ℕ)
    (rs : TableRowset) (log : List IterEvent) :
    rowsetLoadLoopPtr f c prefixLen (fuel + 1) i it rs log =
      ⟨.error (mapMdbRc err), rs, log ++ [.next c]⟩ := by
  have hrc : mapMdbRc err ≠ .notFound := fun h => herr (mapMdbRc_eq_notFound_iff.mp h)
  rw [rowsetLoadLoopPtr, hf, storageIterNext_failed hex herr]
  simp only

variable (c prefixLen) in
/-- **The loop over the keys**, with `keys` pending: it meets the failures of the scan, and only
asks its iterator for keys. -/
theorem rowsetLoadLoopPtr_meets (hreal : ∀ i, f.atNext i ≠ some .notFound) :
    ∀ (keys : List Bytes) (fuel i : ℕ) (it : StorageIter) (rs : TableRowset)
      (log : List IterEvent), it.exhausted = false → it.pending = keys → keys.length < fuel →
      rs.Tight →
      (rowsetLoadLoopPtr f c prefixLen fuel i it rs log).Meets
          (scanFailures f prefixLen i rs.rows.length keys) rs (rowsOf prefixLen keys)
          (skippedOf prefixLen keys) ∧
        ∃ n, (rowsetLoadLoopPtr f c prefixLen fuel i it rs log).log =
          log ++ List.replicate n (.next c) := by
  intro keys
  induction keys with
  | nil =>
    intro fuel i it rs log hex hpend hfuel htight
    obtain ⟨fuel, rfl⟩ := Nat.exists_eq_succ_of_ne_zero (Nat.ne_zero_of_lt hfuel)
    rcases hf : f.atNext i with _ | err
    · obtain ⟨it', hnext, -⟩ := storageIterNext_of_pending_nil hpend
      rw [rowsetLoadLoopPtr, hf, hnext, scanFailures, hf]
      exact ⟨⟨by simp, fun _ => ⟨rfl, by simp [rowsOf], by simp [skippedOf], htight⟩⟩, 1, rfl⟩
    · have herr : err ≠ .notFound := fun h => hreal i (h ▸ hf)
      rw [rowsetLoadLoopPtr_failed hex hf herr, scanFailures, hf]
      exact ⟨.of_failure rfl, 1, rfl⟩
  | cons key keys ih =>
    intro fuel i it rs log hex hpend hfuel htight
    obtain ⟨fuel, rfl⟩ := Nat.exists_eq_succ_of_ne_zero (Nat.ne_zero_of_lt hfuel)
    rcases hf : f.atNext i with _ | err
    · obtain ⟨it', hnext, hpend'⟩ := storageIterNext_of_pending_cons hpend
      have hex' := exhausted_of_storageIterNext_ok hnext
      have hfuel' : keys.length < fuel := by
        rw [List.length_cons] at hfuel
        omega
      rw [rowsetLoadLoopPtr, hf, hnext, scanFailures, hf]
      simp only [Option.map_none, Option.toList_none, List.nil_append]
      -- the key is skipped, or it is a row, whose push may fail
      cases hparse : tableInstanceParse (key.drop prefixLen) with
      | error rc =>
        obtain ⟨hmeets, n, hlog⟩ := ih fuel (i + 1) it' { rs with skipped := rs.skipped + 1 }
          (log ++ [.next c]) hex' hpend' hfuel' htight
        refine ⟨hmeets.congr ?_ ?_, n + 1, ?_⟩
        · rw [rowsOf_cons_of_error hparse]
        · rw [skippedOf_cons_of_error hparse]
          exact Nat.succ_add_eq_add_succ ..
        · rw [hlog, List.append_assoc, List.replicate_succ, List.singleton_append]
      | ok inst =>
        obtain ⟨hstep, hgrow, hpush⟩ | ⟨hgrow, rs', hpush, hrows, hskip, htight'⟩ :=
          htight.rowsetPush_cases (f.atGrow i) inst
        · simp only [hpush, if_pos (And.intro hstep hgrow)]
          exact ⟨.of_failure rfl, 1, rfl⟩
        · obtain ⟨hmeets, n, hlog⟩ := ih fuel (i + 1) it' rs' (log ++ [.next c]) hex' hpend' hfuel'
            htight'
          simp only [hpush, if_neg hgrow, List.nil_append]
          rw [hrows, List.length_append, List.length_singleton] at hmeets
          refine ⟨hmeets.congr ?_ ?_, n + 1, ?_⟩
          · rw [hrows, rowsOf_cons_of_ok hparse, List.append_assoc, List.singleton_append]
          · rw [hskip, skippedOf_cons_of_ok hparse]
          · rw [hlog, List.append_assoc, List.replicate_succ, List.singleton_append]
    · have herr : err ≠ .notFound := fun h => hreal i (h ▸ hf)
      rw [rowsetLoadLoopPtr_failed hex hf herr, scanFailures, hf]
      exact ⟨.of_failure rfl, 1, rfl⟩

/-- **The load of one column** meets its failures, and its iterator is closed again if there was
one. -/
theorem rowsetLoadColumnPtr_meets (hreal : ∀ i, f.atNext i ≠ some .notFound) {rs : TableRowset}
    (htight : rs.Tight) (col : ColumnRef) (log : List IterEvent) :
    (rowsetLoadColumnPtr f c rs col log).Meets (columnFailures f rs.rows.length col) rs col.rows
        col.skipped ∧
      ((rowsetLoadColumnPtr f c rs col log).log = log ∨
        ∃ n, (rowsetLoadColumnPtr f c rs col log).log = log ++ iterEvents c n) := by
  obtain ⟨_ | env, _ | column⟩ := col
  · exact ⟨.of_failure rfl, Or.inl rfl⟩
  · exact ⟨.of_failure rfl, Or.inl rfl⟩
  · exact ⟨.of_failure rfl, Or.inl rfl⟩
  simp only [rowsetLoadColumnPtr, columnFailures, ColumnRef.rows, ColumnRef.skipped,
    List.length_append, List.length_singleton]
  by_cases hzero : column.length = 0
  · rw [if_pos hzero, if_pos hzero]
    exact ⟨.of_failure rfl, Or.inl rfl⟩
  rw [if_neg hzero, if_neg hzero, List.nil_append]
  by_cases hbig : column.length > storageKeyMax
  · rw [if_pos hbig, if_pos (by omega)]
    exact ⟨.of_failure rfl, Or.inl rfl⟩
  rw [if_neg hbig, if_neg (by omega), List.nil_append]
  rcases hopen : storageIterOpen f.toIterFault env (column ++ [46]) with rc | it
  · exact ⟨.of_failure rfl, Or.inl rfl⟩
  · have hpend : it.pending = columnKeys ⟨env, column⟩ := pending_of_storageIterOpen_ok hopen
    obtain rfl := storageIterOpen_eq_ok hopen
    have hfuel : (columnKeys ⟨env, column⟩).length < env.committed.keys.length + 1 :=
      Nat.lt_succ_of_le (List.length_filter_le ..)
    obtain ⟨hmeets, n, hlog⟩ := rowsetLoadLoopPtr_meets c (column.length + 1) hreal
      _ _ 0 _ rs (log ++ [.opened c]) rfl hpend hfuel htight
    refine ⟨⟨hmeets.fails, hmeets.ends⟩, Or.inr ⟨n, ?_⟩⟩
    refine (congrArg (· ++ [IterEvent.closed c]) hlog).trans ?_
    simp [iterEvents]

end Column

/-! ### All columns -/

theorem col_of_mem_iterEvents {c n : ℕ} {ev : IterEvent} (h : ev ∈ iterEvents c n) :
    ev.col = c := by
  simp only [iterEvents, List.cons_append, List.mem_cons, List.mem_append, List.mem_replicate,
    List.not_mem_nil, or_false] at h
  obtain rfl | ⟨-, rfl⟩ | rfl := h
  · rfl
  · rfl
  · rfl

/-- The events of one more iterator, after all those of the columns before it. -/
theorem Released.append {log : List IterEvent} (h : Released log) {c : ℕ}
    (hlt : ∀ ev ∈ log, ev.col < c) (n : ℕ) : Released (log ++ iterEvents c n) := by
  intro c'
  rw [List.filter_append]
  by_cases hc : c' = c
  · subst hc
    have hold : log.filter (fun ev => ev.col = c') = [] :=
      List.filter_eq_nil_iff.mpr fun ev hev => by simpa using (hlt ev hev).ne
    have hnew : (iterEvents c' n).filter (fun ev => ev.col = c') = iterEvents c' n :=
      List.filter_eq_self.mpr fun ev hev => by simpa using col_of_mem_iterEvents hev
    rw [hold, hnew]
    exact Or.inr ⟨n, rfl⟩
  · have hnew : (iterEvents c n).filter (fun ev => ev.col = c') = [] :=
      List.filter_eq_nil_iff.mpr fun ev hev => by
        rw [col_of_mem_iterEvents hev]
        simpa using Ne.symm hc
    rw [hnew, List.append_nil]
    exact h c'

section Columns

variable {f : ℕ → ScanFault}

/-- **The loads of the columns**, one after the other: they meet the failures of all of them, and
leave no iterator open. -/
theorem rowsetLoadColumnsPtr_meets (hreal : ∀ i j, (f i).atNext j ≠ some .notFound)
    (columns : List ColumnRef) : ∀ (i : ℕ) (rs : TableRowset) (log : List IterEvent), rs.Tight →
    Released log → (∀ ev ∈ log, ev.col < i) →
    (rowsetLoadColumnsPtr f i columns rs log).Meets (columnsFailures f i rs.rows.length columns) rs
        (columns.flatMap ColumnRef.rows) (columns.map ColumnRef.skipped).sum ∧
      Released (rowsetLoadColumnsPtr f i columns rs log).log := by
  induction columns with
  | nil =>
    intro i rs log htight hlog _
    refine ⟨⟨by simp [columnsFailures], fun _ => ⟨rfl, ?_, rfl, htight⟩⟩, hlog⟩
    exact (List.append_nil rs.rows).symm
  | cons col columns ih =>
    intro i rs log htight hlog hlt
    obtain ⟨hmeets, hevents⟩ := rowsetLoadColumnPtr_meets (c := i) (hreal i) htight col log
    have hlog' : Released (rowsetLoadColumnPtr (f i) i rs col log).log ∧
        ∀ ev ∈ (rowsetLoadColumnPtr (f i) i rs col log).log, ev.col < i + 1 := by
      obtain h | ⟨n, h⟩ := hevents
      · rw [h]
        exact ⟨hlog, fun ev hev => Nat.lt_succ_of_lt (hlt ev hev)⟩
      · rw [h]
        refine ⟨hlog.append hlt n, fun ev hev => ?_⟩
        obtain hev | hev := List.mem_append.mp hev
        · exact Nat.lt_succ_of_lt (hlt ev hev)
        · rw [col_of_mem_iterEvents hev]
          exact Nat.lt_succ_self i
    rw [rowsetLoadColumnsPtr, columnsFailures]
    generalize rowsetLoadColumnPtr (f i) i rs col log = r at hmeets hlog' ⊢
    -- the first failure of this column is the first of all, and without one the others go on
    rcases hfail : columnFailures (f i) rs.rows.length col with _ | ⟨rc, failures⟩
    · obtain ⟨hrc, hrows, hskip, htight'⟩ := hmeets.ends hfail
      obtain ⟨hrest, hrel⟩ := ih (i + 1) r.rs r.log htight' hlog'.1 hlog'.2
      rw [hrows, List.length_append] at hrest
      simp only [hrc, List.nil_append]
      refine ⟨hrest.congr ?_ ?_, hrel⟩
      · rw [hrows, List.append_assoc, List.flatMap_cons]
      · rw [hskip, Nat.add_assoc, List.map_cons, List.sum_cons]
    · have hrc := hmeets.fails rc (by rw [hfail]; rfl)
      simp only [hrc]
      exact ⟨⟨fun rc' h => by rw [hrc, Option.some.inj h], fun h => absurd h (by simp)⟩, hlog'.1⟩

end Columns

/-! ### The load -/

/-- **The complete sorted union over the columns.** -/
structure CompleteRows (columns : List ColumnRef) (rs : TableRowset) : Prop where
  sorted : rs.rows.Pairwise fun a b => tableInstanceCompare a b = .lt
  mem_iff : ∀ inst, inst ∈ rs.rows ↔ ∃ col ∈ columns, ∃ env column text,
    col.env = some env ∧ col.column = some column ∧ column ++ 46 :: text ∈ env.committed ∧
      Denotes text inst

theorem mem_rows_iff {col : ColumnRef} {inst : TableInstance} :
    inst ∈ col.rows ↔ ∃ env column text, col.env = some env ∧ col.column = some column ∧
      column ++ 46 :: text ∈ env.committed ∧ Denotes text inst := by
  obtain ⟨_ | env, _ | column⟩ := col
  · simp [ColumnRef.rows]
  · simp [ColumnRef.rows]
  · simp [ColumnRef.rows]
  · refine (@mem_rowsOf_columnKeys ⟨env, column⟩ inst).trans ?_
    simp

/-- **Row discovery is complete or fails.** For every list of columns, whatever the environments
hold and wherever a failure is placed: when the load comes to no failure, it returns `STORAGE_OK`
and `*out` is the complete sorted union over all columns; otherwise it returns the code of the
first one and leaves `*out` as it was. Either way every iterator that was opened has been closed
once. That a cursor reports `MDB_NOTFOUND` is not a failure, but how it reports the end. -/
theorem load_complete_or_fails (nomem : Bool) (f : ℕ → ScanFault)
    (columns : Option (List ColumnRef)) (out : Option (Option TableRowset))
    (hreal : ∀ i j, (f i).atNext j ≠ some .notFound) :
    ((loadFailures nomem f columns out = [] ∧ ∃ cols rs, columns = some cols ∧
          (tableRowsetLoadPtr nomem f columns out).rc = .ok () ∧
          (tableRowsetLoadPtr nomem f columns out).out = some (some rs) ∧ CompleteRows cols rs) ∨
        ∃ rc, (loadFailures nomem f columns out).head? = some rc ∧
          (tableRowsetLoadPtr nomem f columns out).rc = .error rc ∧
          (tableRowsetLoadPtr nomem f columns out).out = out) ∧
      Released (tableRowsetLoadPtr nomem f columns out).log := by
  have hnil : Released [] := fun _ => Or.inl rfl
  obtain _ | cols := columns
  · exact ⟨Or.inr ⟨.inval, rfl, rfl, rfl⟩, hnil⟩
  obtain _ | prev := out
  · exact ⟨Or.inr ⟨.inval, rfl, rfl, rfl⟩, hnil⟩
  simp only [tableRowsetLoadPtr, loadFailures]
  by_cases hlen : cols.length = 0
  · rw [if_pos hlen, if_pos hlen]
    exact ⟨Or.inr ⟨.inval, rfl, rfl, rfl⟩, hnil⟩
  rw [if_neg hlen, if_neg hlen, List.nil_append]
  rcases nomem with _ | _
  · have htight : (⟨[], 0, 0⟩ : TableRowset).Tight := ⟨0, rfl, le_rfl, by simp⟩
    obtain ⟨hmeets, hlog⟩ := rowsetLoadColumnsPtr_meets hreal cols 0 _ [] htight hnil (by simp)
    rw [List.length_nil] at hmeets
    simp only [Bool.false_eq_true, if_false, List.nil_append]
    generalize rowsetLoadColumnsPtr f 0 cols ⟨[], 0, 0⟩ [] = r at hmeets hlog ⊢
    rcases hfail : columnsFailures f 0 0 cols with _ | ⟨rc, failures⟩
    · obtain ⟨hrc, hrows, -, -⟩ := hmeets.ends hfail
      rw [hrc]
      refine ⟨Or.inl ⟨rfl, cols, rowsetFinish r.rs, rfl, rfl, rfl, ?_⟩, hlog⟩
      refine ⟨(rowsetFinish_spec _).1, fun inst => ?_⟩
      rw [(rowsetFinish_spec _).2.1, hrows, List.nil_append, List.mem_flatMap]
      simp only [mem_rows_iff]
    · have hrc := hmeets.fails rc (by rw [hfail]; rfl)
      rw [hrc]
      exact ⟨Or.inr ⟨rc, rfl, rfl, rfl⟩, hlog⟩
  · exact ⟨Or.inr ⟨.io, rfl, rfl, rfl⟩, hnil⟩

/-- The columns of `AgentxSubagent.sampleColumns`, as pointers. -/
def samplePtrs : List ColumnRef := sampleColumns.map TableColumnRef.ptr

/-- The cursor of the second column fails at its second call. -/
def secondColumnFails : ℕ → ScanFault
  | 1 => { ScanFault.none with atNext := fun j => if j = 1 then some .other else none }
  | _ => .none

/-- The rows of the first column and the first row of the second are there by then, and the load
still fails. -/
theorem load_fails_second_column :
    (tableRowsetLoadPtr false secondColumnFails (some samplePtrs) (some none)).rc = .error .io ∧
      (tableRowsetLoadPtr false secondColumnFails (some samplePtrs) (some none)).out = some none ∧
      Released (tableRowsetLoadPtr false secondColumnFails (some samplePtrs) (some none)).log := by
  have hreal : ∀ i j, (secondColumnFails i).atNext j ≠ some .notFound := by
    intro i j
    match i with
    | 0 => simp [secondColumnFails]
    | 1 =>
      simp only [secondColumnFails]
      split_ifs <;> simp
    | i + 2 => simp [secondColumnFails]
  have hfail : loadFailures false secondColumnFails (some samplePtrs) (some none) = [.io] := by
    decide
  obtain ⟨⟨hnone, -⟩ | ⟨rc, hrc, hres, hout⟩, hlog⟩ :=
    load_complete_or_fails false secondColumnFails (some samplePtrs) (some none) hreal
  · rw [hfail] at hnone
    exact absurd hnone (by simp)
  · rw [hfail] at hrc
    obtain rfl := Option.some.inj hrc
    exact ⟨hres, hout, hlog⟩

/-! ### The load without its iterators -/

/-- The rowset a scan leaves, or the code it fails with. -/
def Scanned.result (r : Scanned) : Except StorageErr TableRowset := r.rc.map fun _ => r.rs

theorem rowsetLoadLoopPtr_result (f : ScanFault) (c prefixLen : ℕ) :
    ∀ (fuel i : ℕ) (it : StorageIter) (rs : TableRowset) (log : List IterEvent),
      (rowsetLoadLoopPtr f c prefixLen fuel i it rs log).result =
        rowsetLoadLoop f prefixLen fuel i it rs := by
  intro fuel
  induction fuel with
  | zero => exact fun _ _ _ _ => rfl
  | succ fuel ih =>
    intro i it rs log
    rw [rowsetLoadLoopPtr, rowsetLoadLoop]
    rcases storageIterNext (f.atNext i) it with ⟨rc | key, it'⟩
    · cases rc <;> rfl
    · simp only
      cases tableInstanceParse (key.drop prefixLen) with
      | error rc => exact ih ..
      | ok inst =>
        simp only
        cases rowsetPush (f.atGrow i) rs inst with
        | error rc => rfl
        | ok rs' => exact ih ..

theorem rowsetLoadColumnPtr_result (f : ScanFault) (c : ℕ) (rs : TableRowset)
    (col : TableColumnRef) (log : List IterEvent) :
    (rowsetLoadColumnPtr f c rs col.ptr log).result = rowsetLoadColumn f rs col := by
  simp only [rowsetLoadColumnPtr, rowsetLoadColumn, TableColumnRef.ptr]
  split_ifs
  · rfl
  · rfl
  · rcases storageIterOpen f.toIterFault col.env (col.column ++ [46]) with rc | it
    · rfl
    · exact rowsetLoadLoopPtr_result ..

theorem rowsetLoadColumnsPtr_result (f : ℕ → ScanFault) (columns : List TableColumnRef) :
    ∀ (i : ℕ) (rs : TableRowset) (log : List IterEvent),
      (rowsetLoadColumnsPtr f i (columns.map TableColumnRef.ptr) rs log).result =
        rowsetLoadColumns f i columns rs := by
  induction columns with
  | nil => exact fun _ _ _ => rfl
  | cons col columns ih =>
    intro i rs log
    have hcol := rowsetLoadColumnPtr_result (f i) i rs col log
    rw [List.map_cons, rowsetLoadColumnsPtr, rowsetLoadColumns, ← hcol]
    generalize rowsetLoadColumnPtr (f i) i rs col.ptr log = r
    obtain ⟨rc | u, rs', log'⟩ := r
    · rfl
    · exact ih ..

/-- **Seen from its result, the load is `AgentxSubagent.tableRowsetLoad`.** -/
theorem tableRowsetLoadPtr_eq (nomem : Bool) (f : ℕ → ScanFault) (columns : List TableColumnRef)
    (prev : Option TableRowset) :
    ((tableRowsetLoadPtr nomem f (some (columns.map TableColumnRef.ptr)) (some prev)).rc,
        (tableRowsetLoadPtr nomem f (some (columns.map TableColumnRef.ptr)) (some prev)).out) =
      match tableRowsetLoad nomem f columns with
      | .error rc => (.error rc, some prev)
      | .ok rs => (.ok (), some (some rs)) := by
  simp only [tableRowsetLoadPtr, tableRowsetLoad, List.length_map]
  split_ifs
  · rfl
  · rfl
  · rw [← rowsetLoadColumnsPtr_result f columns 0 ⟨[], 0, 0⟩ []]
    generalize rowsetLoadColumnsPtr f 0 (columns.map TableColumnRef.ptr) ⟨[], 0, 0⟩ [] = r
    obtain ⟨rc | u, rs', log'⟩ := r
    · rfl
    · rfl

end AgentxSubagent
