import AgentxSubagent.Lib.SortedSet
import AgentxSubagent.Storage.Iter
import AgentxSubagent.Table.Instance

/-!
# Row discovery

The second half of `src/table_rows.c`: `table_rowset_load` scans the keys of each column,
parses what follows the column's name and the dot, collects the instances in a growing
array, sorts it and compacts it in place.

`AgentxSubagent.tableRowsetLoad_spec` says what comes out when nothing fails: the rows are
the union over the columns, strictly increasing, and the count of skipped keys is exact.
`AgentxSubagent.columnRows` and `AgentxSubagent.columnSkipped` say what one column
contributes.
-/

namespace AgentxSubagent

/-! ### The rowset -/

/-- `table_rowset_t`: the rows in use of an array with room for `capacity`, and the count of
keys skipped. -/
structure TableRowset where
  rows : List TableInstance
  capacity : ℕ
  skipped : ℕ

/-- `table_column_ref_t`. -/
structure TableColumnRef where
  env : MdbEnv
  column : Bytes

/-- Which of the calls of one column's scan fail: those of the iterator, or the allocation
for the key of a given number. -/
structure ScanFault extends IterFault where
  atGrow : ℕ → Bool

/-- Nothing fails. -/
def ScanFault.none : ScanFault := ⟨.none, fun _ => false⟩

@[simp] theorem ScanFault.atNext_none (i : ℕ) : ScanFault.none.atNext i = Option.none := rfl

@[simp] theorem ScanFault.atGrow_none (i : ℕ) : ScanFault.none.atGrow i = false := rfl

/-- `rowset_push`. -/
def rowsetPush (growFails : Bool) (rs : TableRowset) (inst : TableInstance) :
    Except StorageErr TableRowset :=
  if rs.rows.length = rs.capacity then
    let next := if rs.capacity = 0 then 16 else rs.capacity * 2
    if growFails then .error .io
    else .ok { rs with rows := rs.rows ++ [inst], capacity := next }
  else .ok { rs with rows := rs.rows ++ [inst] }

/-- The loop of `rowset_load_column`, about to ask for key number `i`. A turn that does not
end the loop takes a key off the snapshot, so the keys of the snapshot bound the turns. -/
def rowsetLoadLoop (f : ScanFault) (prefixLen : ℕ) :
    ℕ → ℕ → StorageIter → TableRowset → Except StorageErr TableRowset
  | 0, _, _, _ => .error .io
  | fuel + 1, i, it, rs =>
    match storageIterNext (f.atNext i) it with
    | (.error .notFound, _) => .ok rs
    | (.error rc, _) => .error rc
    | (.ok key, it) =>
      match tableInstanceParse (key.drop prefixLen) with
      | .error _ => rowsetLoadLoop f prefixLen fuel (i + 1) it { rs with skipped := rs.skipped + 1 }
      | .ok inst =>
        match rowsetPush (f.atGrow i) rs inst with
        | .error rc => .error rc
        | .ok rs => rowsetLoadLoop f prefixLen fuel (i + 1) it rs

/-- `rowset_load_column`. -/
def rowsetLoadColumn (f : ScanFault) (rs : TableRowset) (col : TableColumnRef) :
    Except StorageErr TableRowset :=
  if col.column.length = 0 then .error .inval
  else
    let pfx := col.column ++ [46]
    if pfx.length ≥ storageKeyMax + 2 then .error .tooBig
    else
      match storageIterOpen f.toIterFault col.env pfx with
      | .error rc => .error rc
      | .ok it => rowsetLoadLoop f pfx.length (it.cursor.keys.length + 1) 0 it rs

/-- The loop of `table_rowset_load` over the columns. -/
def rowsetLoadColumns (f : ℕ → ScanFault) :
    ℕ → List TableColumnRef → TableRowset → Except StorageErr TableRowset
  | _, [], rs => .ok rs
  | i, col :: cols, rs =>
    match rowsetLoadColumn (f i) rs col with
    | .error rc => .error rc
    | .ok rs => rowsetLoadColumns f (i + 1) cols rs

/-- `qsort` with `compare_instances`. -/
def qsort (rows : List TableInstance) : List TableInstance :=
  SortedSet.sort tableInstanceCompare rows

/-- The compaction loop of `table_rowset_load`, with `n` entries left to read from index `i`
on and the first `unique` entries kept. -/
def dedupLoop : ℕ → ℕ → ℕ → List TableInstance → List TableInstance × ℕ
  | 0, _, unique, rows => (rows, unique)
  | n + 1, i, unique, rows =>
    if tableInstanceCompare (rows.getD i []) (rows.getD (unique - 1) []) ≠ .eq then
      dedupLoop n (i + 1) (unique + 1) (rows.set unique (rows.getD i []))
    else dedupLoop n (i + 1) unique rows

/-- Sorting and compacting, at the end of `table_rowset_load`. -/
def rowsetFinish (rs : TableRowset) : TableRowset :=
  if rs.rows.length > 1 then
    let sorted := qsort rs.rows
    let r := dedupLoop (sorted.length - 1) 1 1 sorted
    { rs with rows := r.1.take r.2 }
  else rs

/-- `table_rowset_load`: `nomem` is a failure of its own allocation, `f i` are the failures
in the scan of column `i`. -/
def tableRowsetLoad (nomem : Bool) (f : ℕ → ScanFault) (columns : List TableColumnRef) :
    Except StorageErr TableRowset :=
  if columns.length = 0 then .error .inval
  else if nomem then .error .io
  else
    match rowsetLoadColumns f 0 columns ⟨[], 0, 0⟩ with
    | .error rc => .error rc
    | .ok rs => .ok (rowsetFinish rs)

/-! ### Sorting and compacting -/

/-- Whatever algorithm `qsort` uses, its result is this one: there is one sorted
permutation. -/
theorem qsort_unique {rows sorted : List TableInstance} (hperm : sorted.Perm rows)
    (hsorted : sorted.Pairwise (SortedSet.LE tableInstanceCompare)) : sorted = qsort rows :=
  SortedSet.sort_unique hperm hsorted

/-- **The compaction in place** appends to the entries kept those that the adjacent ones do
not repeat. The entries still to be read are never overwritten, as `unique` stays behind the
reading index. -/
theorem dedupLoop_take (n : ℕ) : ∀ (i unique : ℕ) (rows : List TableInstance),
    1 ≤ unique → unique ≤ i → rows.length = i + n →
    (dedupLoop n i unique rows).1.take (dedupLoop n i unique rows).2 =
      rows.take unique ++ SortedSet.dedupFrom (fun a b => tableInstanceCompare a b == .eq)
        (rows.getD (unique - 1) []) (rows.drop i) := by
  induction n with
  | zero =>
    intro i unique rows _ _ hlen
    rw [dedupLoop, List.drop_eq_nil_of_le (by omega)]
    simp [SortedSet.dedupFrom]
  | succ n ih =>
    intro i unique rows h1 hi hlen
    have hlt : i < rows.length := by omega
    have hdrop : rows.drop i = rows.getD i [] :: rows.drop (i + 1) := by
      rw [List.getD_eq_getElem _ _ hlt]
      exact List.drop_eq_getElem_cons hlt
    rw [dedupLoop, hdrop, SortedSet.dedupFrom]
    -- a repeated entry is passed over, any other is moved down to the entries kept
    by_cases hsame : tableInstanceCompare (rows.getD i []) (rows.getD (unique - 1) []) = .eq
    · rw [if_neg (not_not_intro hsame), if_pos (by simpa using hsame),
        ih (i + 1) unique rows h1 (by omega) (by omega)]
    · have hset : (rows.set unique (rows.getD i [])).getD unique [] = rows.getD i [] := by
        rw [List.getD_eq_getElem _ _ (by rw [List.length_set]; omega), List.getElem_set_self]
      have htake : (rows.set unique (rows.getD i [])).take (unique + 1) =
          rows.take unique ++ [rows.getD i []] := by
        rw [List.take_add_one, List.take_set_of_le le_rfl,
          List.getElem?_set_self (by omega)]
        rfl
      rw [if_pos hsame, if_neg (by simpa using hsame),
        ih (i + 1) (unique + 1) _ (by omega) (by omega) (by rw [List.length_set]; omega), htake,
        Nat.add_sub_cancel, hset, List.drop_set_of_lt (by omega)]
      simp

/-- **What is left at the end** is the strictly increasing list of the rows collected. -/
theorem rowsetFinish_spec (rs : TableRowset) :
    (rowsetFinish rs).rows.Pairwise (fun a b => tableInstanceCompare a b = .lt) ∧
      (∀ inst, inst ∈ (rowsetFinish rs).rows ↔ inst ∈ rs.rows) ∧
      (rowsetFinish rs).skipped = rs.skipped := by
  by_cases hlen : rs.rows.length > 1
  · have hqlen : (qsort rs.rows).length = rs.rows.length :=
      (SortedSet.sort_perm tableInstanceCompare rs.rows).length_eq
    have hrows : (rowsetFinish rs).rows =
        SortedSet.dedup (fun a b => tableInstanceCompare a b == .eq) (qsort rs.rows) := by
      rw [rowsetFinish, if_pos hlen]
      simp only
      rw [dedupLoop_take _ 1 1 _ le_rfl le_rfl (by omega)]
      rcases hq : qsort rs.rows with _ | ⟨x, xs⟩
      · rw [hq, List.length_nil] at hqlen
        omega
      · simp [SortedSet.dedup]
    refine ⟨?_, fun inst => ?_, by rw [rowsetFinish, if_pos hlen]⟩
    · rw [hrows]
      exact SortedSet.dedup_sorted (SortedSet.sort_sorted tableInstanceCompare rs.rows)
    · rw [hrows, SortedSet.mem_dedup]
      exact (SortedSet.sort_perm tableInstanceCompare rs.rows).mem_iff
  · rw [rowsetFinish, if_neg hlen]
    refine ⟨?_, fun _ => Iff.rfl, rfl⟩
    match rs.rows, hlen with
    | [], _ => exact List.Pairwise.nil
    | [x], _ => exact List.pairwise_singleton _ x
    | _ :: _ :: _, hlen => exact absurd (by simp) hlen

/-! ### What a column contributes -/

/-- **A text denotes an instance**: it is the canonical dotted decimal of 1 to 128
sub-identifiers. -/
def Denotes (text : Bytes) (inst : TableInstance) : Prop :=
  inst ≠ [] ∧ inst.length ≤ 128 ∧ text = instanceText inst

/-- Whether a text denotes an instance is decided by the parser. -/
instance (text : Bytes) : Decidable (∃ inst, Denotes text inst) :=
  match h : tableInstanceParse text with
  | .ok inst => .isTrue ⟨inst, tableInstanceParse_eq_ok_iff.mp h⟩
  | .error _ => .isFalse fun ⟨inst, hd⟩ => by
    rw [tableInstanceParse_eq_ok_iff.mpr hd] at h
    exact absurd h (by simp)

/-- The rows the keys of a scan give. -/
def rowsOf (prefixLen : ℕ) (keys : List Bytes) : List TableInstance :=
  keys.filterMap fun key => (tableInstanceParse (key.drop prefixLen)).toOption

/-- The keys of a scan that give no row. -/
def skippedOf (prefixLen : ℕ) (keys : List Bytes) : ℕ :=
  keys.countP fun key : Bytes => decide (¬∃ inst, Denotes (key.drop prefixLen) inst)

section Keys

variable {prefixLen : ℕ} {key : Bytes} {keys : List Bytes}

theorem rowsOf_cons_of_ok {inst : TableInstance}
    (h : tableInstanceParse (key.drop prefixLen) = .ok inst) :
    rowsOf prefixLen (key :: keys) = inst :: rowsOf prefixLen keys := by
  simp [rowsOf, h, Except.toOption]

theorem rowsOf_cons_of_error {rc : StorageErr}
    (h : tableInstanceParse (key.drop prefixLen) = .error rc) :
    rowsOf prefixLen (key :: keys) = rowsOf prefixLen keys := by
  simp [rowsOf, h, Except.toOption]

theorem skippedOf_cons_of_ok {inst : TableInstance}
    (h : tableInstanceParse (key.drop prefixLen) = .ok inst) :
    skippedOf prefixLen (key :: keys) = skippedOf prefixLen keys := by
  have hyes : ∃ inst, Denotes (key.drop prefixLen) inst :=
    ⟨inst, tableInstanceParse_eq_ok_iff.mp h⟩
  simp [skippedOf, hyes]

theorem skippedOf_cons_of_error {rc : StorageErr}
    (h : tableInstanceParse (key.drop prefixLen) = .error rc) :
    skippedOf prefixLen (key :: keys) = skippedOf prefixLen keys + 1 := by
  have hno : ¬∃ inst, Denotes (key.drop prefixLen) inst := by
    rintro ⟨inst, hd⟩
    rw [tableInstanceParse_eq_ok_iff.mpr hd] at h
    exact absurd h (by simp)
  rw [skippedOf, List.countP_cons, if_pos (decide_eq_true hno)]
  rfl

end Keys

/-- A push in which nothing fails appends the row. -/
theorem rowsetPush_ok (rs : TableRowset) (inst : TableInstance) :
    ∃ cap, rowsetPush false rs inst = .ok ⟨rs.rows ++ [inst], cap, rs.skipped⟩ := by
  by_cases hfull : rs.rows.length = rs.capacity
  · exact ⟨_, by rw [rowsetPush, if_pos hfull]; rfl⟩
  · exact ⟨_, by rw [rowsetPush, if_neg hfull]⟩

/-- **The loop over the keys**, with `keys` pending: their rows are appended, the others
counted. -/
theorem rowsetLoadLoop_ok (prefixLen : ℕ) : ∀ (keys : List Bytes) (fuel i : ℕ) (it : StorageIter)
    (rs : TableRowset), it.pending = keys → keys.length < fuel →
    ∃ cap, rowsetLoadLoop .none prefixLen fuel i it rs =
      .ok ⟨rs.rows ++ rowsOf prefixLen keys, cap, rs.skipped + skippedOf prefixLen keys⟩ := by
  intro keys
  induction keys with
  | nil =>
    intro fuel i it rs hpend hfuel
    obtain ⟨fuel, rfl⟩ := Nat.exists_eq_succ_of_ne_zero (Nat.ne_zero_of_lt hfuel)
    obtain ⟨it', hnext, -⟩ := storageIterNext_of_pending_nil hpend
    refine ⟨rs.capacity, ?_⟩
    rw [rowsetLoadLoop, ScanFault.atNext_none, hnext]
    simp [rowsOf, skippedOf]
  | cons key keys ih =>
    intro fuel i it rs hpend hfuel
    obtain ⟨fuel, rfl⟩ := Nat.exists_eq_succ_of_ne_zero (Nat.ne_zero_of_lt hfuel)
    obtain ⟨it', hnext, hpend'⟩ := storageIterNext_of_pending_cons hpend
    have hfuel' : keys.length < fuel := by
      rw [List.length_cons] at hfuel
      omega
    rw [rowsetLoadLoop, ScanFault.atNext_none, hnext]
    simp only [ScanFault.atGrow_none]
    -- the parser decides whether the key is a row or is counted as skipped
    cases hparse : tableInstanceParse (key.drop prefixLen) with
    | error rc =>
      obtain ⟨cap, hloop⟩ := ih fuel (i + 1) it' { rs with skipped := rs.skipped + 1 } hpend' hfuel'
      refine ⟨cap, hloop.trans ?_⟩
      rw [rowsOf_cons_of_error hparse, skippedOf_cons_of_error hparse, Nat.succ_add_eq_add_succ]
    | ok inst =>
      obtain ⟨cap, hpush⟩ := rowsetPush_ok rs inst
      obtain ⟨cap', hloop⟩ := ih fuel (i + 1) it' ⟨rs.rows ++ [inst], cap, rs.skipped⟩ hpend' hfuel'
      refine ⟨cap', ?_⟩
      simp only [hpush]
      refine hloop.trans ?_
      rw [rowsOf_cons_of_ok hparse, skippedOf_cons_of_ok hparse, List.append_assoc,
        List.singleton_append]

/-- The keys a column's scan meets. -/
def columnKeys (col : TableColumnRef) : List Bytes :=
  col.env.committed.keys.filter fun key => decide (col.column ++ [46] <+: key)

/-- **The scan of one column**: its rows are appended, its other keys counted. -/
theorem rowsetLoadColumn_ok {col : TableColumnRef} (h1 : 1 ≤ col.column.length)
    (h254 : col.column.length ≤ 254) (rs : TableRowset) :
    ∃ cap, rowsetLoadColumn .none rs col =
      .ok ⟨rs.rows ++ rowsOf (col.column.length + 1) (columnKeys col), cap,
        rs.skipped + skippedOf (col.column.length + 1) (columnKeys col)⟩ := by
  have hlen : (col.column ++ [46]).length = col.column.length + 1 := by simp
  obtain ⟨it, hopen, hkeys, hpend⟩ :=
    pending_of_storageIterOpen col.env (by omega : (col.column ++ [46]).length ≤ 255)
  have hle : it.pending.length ≤ it.cursor.keys.length := by
    rw [hpend, hkeys]
    exact List.length_filter_le ..
  obtain ⟨cap, hloop⟩ := rowsetLoadLoop_ok (col.column.length + 1) it.pending
    (it.cursor.keys.length + 1) 0 it rs rfl (by omega)
  refine ⟨cap, ?_⟩
  rw [rowsetLoadColumn, if_neg (by omega)]
  simp only [hlen,
    if_neg (by rw [storageKeyMax]; omega : ¬col.column.length + 1 ≥ storageKeyMax + 2)]
  have hopen' :
      storageIterOpen ScanFault.none.toIterFault col.env (col.column ++ [46]) = .ok it := hopen
  rw [hopen']
  rw [hpend] at hloop
  exact hloop

/-- **The scan of all columns**, one after the other. -/
theorem rowsetLoadColumns_ok (columns : List TableColumnRef) : ∀ (i : ℕ) (rs : TableRowset),
    (∀ col ∈ columns, 1 ≤ col.column.length ∧ col.column.length ≤ 254) →
    ∃ cap, rowsetLoadColumns (fun _ => .none) i columns rs =
      .ok ⟨rs.rows ++ columns.flatMap fun col => rowsOf (col.column.length + 1) (columnKeys col),
        cap,
        rs.skipped + (columns.map fun col =>
          skippedOf (col.column.length + 1) (columnKeys col)).sum⟩ := by
  induction columns with
  | nil =>
    intro i rs _
    exact ⟨rs.capacity, by simp [rowsetLoadColumns]⟩
  | cons col columns ih =>
    intro i rs hcols
    obtain ⟨h1, h254⟩ := hcols col (List.mem_cons_self ..)
    obtain ⟨cap, hcol⟩ := rowsetLoadColumn_ok h1 h254 rs
    obtain ⟨cap', hrest⟩ := ih (i + 1) ⟨rs.rows ++ rowsOf (col.column.length + 1) (columnKeys col),
      cap, rs.skipped + skippedOf (col.column.length + 1) (columnKeys col)⟩
      fun c hc => hcols c (List.mem_cons_of_mem col hc)
    refine ⟨cap', ?_⟩
    rw [rowsetLoadColumns, hcol]
    refine hrest.trans ?_
    simp [Nat.add_assoc]

/-! ### Scans that fail -/

/-- What the loop over the keys adds is a row of a pending key, whatever may fail. -/
theorem rowsetLoadLoop_sound {f : ScanFault} {prefixLen : ℕ} : ∀ (fuel i : ℕ) (it : StorageIter)
    (rs rs' : TableRowset), rowsetLoadLoop f prefixLen fuel i it rs = .ok rs' →
    ∀ inst ∈ rs'.rows, inst ∈ rs.rows ∨ inst ∈ rowsOf prefixLen it.pending := by
  intro fuel
  induction fuel with
  | zero =>
    intro i it rs rs' h
    exact absurd h (by simp [rowsetLoadLoop])
  | succ fuel ih =>
    intro i it rs rs' h inst hinst
    rw [rowsetLoadLoop] at h
    rcases hnext : storageIterNext (f.atNext i) it with ⟨rc | key, it'⟩
    · rw [hnext] at h
      -- the end of the range ends the loop, any other error the scan
      cases rc with
      | notFound => exact Or.inl (Except.ok.inj h ▸ hinst)
      | _ => exact absurd h (by simp)
    · rw [hnext] at h
      rw [pending_of_storageIterNext_ok hnext, rowsOf, List.filterMap_cons]
      simp only at h
      cases hparse : tableInstanceParse (key.drop prefixLen) with
      | error rc =>
        rw [hparse] at h
        exact ih (i + 1) it' _ rs' h inst hinst
      | ok row =>
        rw [hparse] at h
        simp only at h
        rcases hpush : rowsetPush (f.atGrow i) rs row with rc | rs''
        · rw [hpush] at h
          exact absurd h (by simp)
        · rw [hpush] at h
          have hrows : rs''.rows = rs.rows ++ [row] := by
            rw [rowsetPush] at hpush
            split_ifs at hpush
            all_goals exact (Except.ok.inj hpush) ▸ rfl
          obtain hmem | hmem := ih (i + 1) it' rs'' rs' h inst hinst
          · rw [hrows, List.mem_append, List.mem_singleton] at hmem
            obtain hmem | rfl := hmem
            · exact Or.inl hmem
            · exact Or.inr List.mem_cons_self
          · exact Or.inr (List.mem_cons_of_mem row hmem)

/-- What the scans of the columns add is a row of one of them, whatever may fail. -/
theorem rowsetLoadColumns_sound {f : ℕ → ScanFault} (columns : List TableColumnRef) :
    ∀ (i : ℕ) (rs rs' : TableRowset), rowsetLoadColumns f i columns rs = .ok rs' →
    ∀ inst ∈ rs'.rows, inst ∈ rs.rows ∨
      ∃ col ∈ columns, inst ∈ rowsOf (col.column.length + 1) (columnKeys col) := by
  induction columns with
  | nil =>
    intro i rs rs' h inst hinst
    exact Or.inl (Except.ok.inj h ▸ hinst)
  | cons col columns ih =>
    intro i rs rs' h inst hinst
    rw [rowsetLoadColumns] at h
    rcases hcol : rowsetLoadColumn (f i) rs col with rc | rs''
    · rw [hcol] at h
      exact absurd h (by simp)
    · rw [hcol] at h
      obtain hmem | ⟨col', hcol', hmem⟩ := ih (i + 1) rs'' rs' h inst hinst
      · rw [rowsetLoadColumn] at hcol
        simp only at hcol
        split_ifs at hcol
        rcases hopen : storageIterOpen (f i).toIterFault col.env (col.column ++ [46]) with rc | it
        · rw [hopen] at hcol
          exact absurd hcol (by simp)
        · rw [hopen] at hcol
          have hstep := rowsetLoadLoop_sound _ _ _ _ _ hcol inst hmem
          rw [pending_of_storageIterOpen_ok hopen, List.length_append] at hstep
          exact hstep.imp_right fun hin => ⟨col, List.mem_cons_self, hin⟩
      · exact Or.inr ⟨col', List.mem_cons_of_mem col hcol', hmem⟩

/-! ### The union -/

/-- A row of a column, seen from its keys. -/
theorem mem_rowsOf_columnKeys {col : TableColumnRef} {inst : TableInstance} :
    inst ∈ rowsOf (col.column.length + 1) (columnKeys col) ↔
      ∃ text, col.column ++ 46 :: text ∈ col.env.committed ∧ Denotes text inst := by
  have hparse : ∀ text, (tableInstanceParse text).toOption = some inst ↔ Denotes text inst := by
    intro text
    rw [Denotes, ← tableInstanceParse_eq_ok_iff]
    cases tableInstanceParse text <;> simp [Except.toOption]
  simp only [rowsOf, columnKeys, List.mem_filterMap, List.mem_filter, hparse,
    Std.ExtTreeMap.mem_keys, decide_eq_true_eq]
  constructor
  · rintro ⟨key, ⟨hmem, text, rfl⟩, hden⟩
    refine ⟨text, by simpa using hmem, ?_⟩
    rwa [List.drop_left' (by simp)] at hden
  · rintro ⟨text, hmem, hden⟩
    refine ⟨col.column ++ 46 :: text, ⟨hmem, text, by simp⟩, ?_⟩
    rwa [show col.column ++ 46 :: text = (col.column ++ [46]) ++ text by simp,
      List.drop_left' (by simp)]

/-- **A key a column's scan skips**: it starts with the column's name and a dot, and the rest
denotes no instance. -/
def Malformed (column key : Bytes) : Prop :=
  column ++ [46] <+: key ∧ ¬∃ inst, Denotes (key.drop (column.length + 1)) inst

instance (column key : Bytes) : Decidable (Malformed column key) :=
  inferInstanceAs (Decidable (_ ∧ ¬_))

/-- The keys a column's scan counts are the malformed ones. -/
theorem skippedOf_columnKeys (col : TableColumnRef) :
    skippedOf (col.column.length + 1) (columnKeys col) =
      col.env.committed.keys.countP fun key => decide (Malformed col.column key) := by
  rw [skippedOf, columnKeys, List.countP_filter]
  refine List.countP_congr fun key _ => ?_
  rw [Bool.and_eq_true, decide_eq_true_iff, decide_eq_true_iff, decide_eq_true_iff, and_comm]
  rfl

section Load

variable {columns : List TableColumnRef}

/-- A load in which nothing fails sorts and compacts what the scans collect. -/
theorem tableRowsetLoad_eq (hne : columns ≠ [])
    (hcols : ∀ col ∈ columns, 1 ≤ col.column.length ∧ col.column.length ≤ 254) :
    ∃ cap, tableRowsetLoad false (fun _ => .none) columns =
      .ok (rowsetFinish ⟨columns.flatMap fun col =>
        rowsOf (col.column.length + 1) (columnKeys col), cap, (columns.map fun col =>
          skippedOf (col.column.length + 1) (columnKeys col)).sum⟩) := by
  obtain ⟨cap, hload⟩ := rowsetLoadColumns_ok columns 0 ⟨[], 0, 0⟩ hcols
  refine ⟨cap, ?_⟩
  rw [tableRowsetLoad, if_neg fun h => hne (List.length_eq_zero_iff.mp h), hload]
  simp

/-- **A row of a load, whatever may fail in it**, has 1 to 128 sub-identifiers, and some column has
its cell key. -/
theorem tableRowsetLoad_parsed {nomem : Bool} {f : ℕ → ScanFault} {rs : TableRowset}
    (h : tableRowsetLoad nomem f columns = .ok rs) {inst : TableInstance} (hinst : inst ∈ rs.rows) :
    inst ≠ [] ∧ inst.length ≤ 128 ∧
      ∃ col ∈ columns, cellKey col.column inst ∈ col.env.committed := by
  rw [tableRowsetLoad] at h
  split_ifs at h
  rcases hload : rowsetLoadColumns f 0 columns ⟨[], 0, 0⟩ with rc | rs'
  · rw [hload] at h
    exact absurd h (by simp)
  · rw [hload] at h
    obtain rfl := Except.ok.inj h
    rw [(rowsetFinish_spec _).2.1] at hinst
    obtain hnil | ⟨col, hcol, hmem⟩ := rowsetLoadColumns_sound columns 0 _ _ hload inst hinst
    · exact absurd hnil (by simp)
    · obtain ⟨text, htext, hne, hlen, rfl⟩ := mem_rowsOf_columnKeys.mp hmem
      exact ⟨hne, hlen, col, hcol, htext⟩

/-- So it is an instance of which some column has the cell key. -/
theorem tableRowsetLoad_sound {nomem : Bool} {f : ℕ → ScanFault} {rs : TableRowset}
    (h : tableRowsetLoad nomem f columns = .ok rs) {inst : TableInstance} (hinst : inst ∈ rs.rows) :
    ∃ col ∈ columns, cellKey col.column inst ∈ col.env.committed :=
  (tableRowsetLoad_parsed h hinst).2.2

/-- **The rows of a load**: strictly increasing, and the instances of which some column has the
cell key. -/
theorem tableRowsetLoad_rows (hne : columns ≠ [])
    (hcols : ∀ col ∈ columns, 1 ≤ col.column.length ∧ col.column.length ≤ 254) :
    ∃ rs, tableRowsetLoad false (fun _ => .none) columns = .ok rs ∧
      rs.rows.Pairwise (fun a b => tableInstanceCompare a b = .lt) ∧
      ∀ inst, inst ∈ rs.rows ↔ inst ≠ [] ∧ inst.length ≤ 128 ∧
        ∃ col ∈ columns, cellKey col.column inst ∈ col.env.committed := by
  obtain ⟨cap, hload⟩ := tableRowsetLoad_eq hne hcols
  refine ⟨_, hload, (rowsetFinish_spec _).1, fun inst => ?_⟩
  rw [(rowsetFinish_spec _).2.1]
  simp only [List.mem_flatMap, mem_rowsOf_columnKeys]
  constructor
  · rintro ⟨col, hcol, text, hmem, hinst, hlen, rfl⟩
    exact ⟨hinst, hlen, col, hcol, hmem⟩
  · rintro ⟨hinst, hlen, col, hcol, hmem⟩
    exact ⟨col, hcol, instanceText inst, hmem, hinst, hlen, rfl⟩

end Load

/-- **Row discovery computes the union.** For every non-empty list of columns with names of
1 to 254 bytes, when nothing fails, the rows are strictly increasing, they are the instances
some column has a key of, and the count of skipped keys is the number of keys under a
column's name whose rest denotes no instance. -/
theorem tableRowsetLoad_spec (columns : List TableColumnRef) (hne : columns ≠ [])
    (hcols : ∀ col ∈ columns, 1 ≤ col.column.length ∧ col.column.length ≤ 254) :
    ∃ rs, tableRowsetLoad false (fun _ => .none) columns = .ok rs ∧
      rs.rows.Pairwise (fun a b => tableInstanceCompare a b = .lt) ∧
      (∀ inst, inst ∈ rs.rows ↔ ∃ col ∈ columns, ∃ text,
        col.column ++ 46 :: text ∈ col.env.committed ∧ Denotes text inst) ∧
      rs.skipped = (columns.map fun col =>
        col.env.committed.keys.countP fun key => decide (Malformed col.column key)).sum := by
  obtain ⟨cap, hload⟩ := tableRowsetLoad_eq hne hcols
  refine ⟨_, hload, (rowsetFinish_spec _).1, fun inst => ?_, ?_⟩
  · rw [(rowsetFinish_spec _).2.1]
    simp only [List.mem_flatMap, mem_rowsOf_columnKeys]
  · rw [(rowsetFinish_spec _).2.2]
    simp only [skippedOf_columnKeys]

/-- Keys of two columns in two environments, with a scalar, a longer name and a leading zero
mixed in. -/
def sampleColumns : List TableColumnRef :=
  [⟨.idle (((((∅ : Lmdb).insert (ascii "p.10") []).insert (ascii "p.2") []).insert
      (ascii "p.007") []).insert (ascii "p") [] |>.insert (ascii "pq.5") []), ascii "p"⟩,
    ⟨.idle ((∅ : Lmdb).insert (ascii "q.2") []), ascii "q"⟩]

theorem tableRowsetLoad_sample :
    ∃ rs, tableRowsetLoad false (fun _ => .none) sampleColumns = .ok rs ∧
      rs.rows.Pairwise (fun a b => tableInstanceCompare a b = .lt) ∧
      (∀ inst, inst ∈ rs.rows ↔ ∃ col ∈ sampleColumns, ∃ text,
        col.column ++ 46 :: text ∈ col.env.committed ∧ Denotes text inst) ∧
      rs.skipped = 1 := by
  obtain ⟨rs, hload, hsorted, hmem, hskip⟩ :=
    tableRowsetLoad_spec sampleColumns (by decide) (by decide)
  exact ⟨rs, hload, hsorted, hmem, hskip.trans (by decide)⟩

/-- An empty list of columns is refused, whatever is stored. -/
theorem tableRowsetLoad_empty :
    ¬∃ rs, tableRowsetLoad false (fun _ => .none) [] = .ok rs := by
  rintro ⟨rs, h⟩
  exact absurd h (by simp [tableRowsetLoad])

end AgentxSubagent
