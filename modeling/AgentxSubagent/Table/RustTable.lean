import AgentxSubagent.Lib.Assign
import AgentxSubagent.Table.Rowset

/-!
# The rows as Rust sees them

`CacheStore::table_rows` of `rust-app/src/storage/table.rs`, with the parser of its own that
it uses: cut at the dots, check each part, convert it.

`AgentxSubagent.parseInstance_eq_some_iff` characterises that parser the way
`AgentxSubagent.tableInstanceParse_eq_ok_iff` does the C one; the two differ in the bound of
128 sub-identifiers only, and a key of at most 255 bytes has no room for more
(`AgentxSubagent.length_le_of_key`). So the two languages list the same rows
(`AgentxSubagent.table_rows_agree`).

The second half is how a row gets there and goes away: `CacheStore::put_row` and
`CacheStore::delete_row` build the keys of all cells before they open their one transaction, so a
call stores all of them or none (`AgentxSubagent.putRow_cases`).
-/

namespace AgentxSubagent

open Assign Decimal

/-! ### The parser -/

/-- `str::parse::<u32>`: an optional plus sign and digits, with a value of 32 bits. -/
def parseU32 (s : Bytes) : Option UInt32 :=
  let ds := if s.head? = some 43 then s.tail else s
  if ds = [] ∨ ¬ds.all isDigit then none
  else if valueFrom 0 ds ≤ 0xFFFFFFFF then some (valueFrom 0 ds).toUInt32
  else none

/-- The loop of `parse_instance` over the parts, with `out` pushed so far. -/
def parseParts : List Bytes → List UInt32 → Option (List UInt32)
  | [], out => some out
  | part :: parts, out =>
    if part = [] ∨ ¬part.all isDigit then none
    else if part.length > 1 ∧ part.head? = some 48 then none
    else
      match parseU32 part with
      | none => none
      | some v => parseParts parts (out ++ [v])

/-- `parse_instance`. -/
def parseInstance (dotted : Bytes) : Option (List UInt32) :=
  if dotted = [] then none else parseParts (dotted.splitOn 46) []

/-- `str::strip_prefix`. -/
def stripPrefix (front s : Bytes) : Option Bytes :=
  if front <+: s then some (s.drop front.length) else none

/-- `instance_of`. -/
def instanceOf (column key : Bytes) : Option (List UInt32) := do
  let rest ← stripPrefix column key
  let rest ← stripPrefix [46] rest
  parseInstance rest

/-- Digits are parsed to the number they denote, as long as it has 32 bits: no sign can stand in
front of them. -/
theorem parseU32_digits {part : Bytes} (hne : part ≠ []) (hall : ∀ b ∈ part, isDigit b = true) :
    parseU32 part =
      if valueFrom 0 part ≤ 0xFFFFFFFF then some (valueFrom 0 part).toUInt32 else none := by
  have hplus : part.head? ≠ some 43 := by
    intro hhead
    exact absurd (hall 43 (List.mem_of_mem_head? hhead)) (by decide)
  have hdig : ¬(part = [] ∨ ¬part.all isDigit) := by
    rw [not_or, not_not]
    exact ⟨hne, List.all_eq_true.mpr hall⟩
  rw [parseU32]
  simp only [if_neg hplus]
  rw [if_neg hdig]

/-- A part passes the checks as a value exactly when it is the numeral of the value. -/
theorem parseParts_cons {part : Bytes} {parts : List Bytes} {out r : List UInt32} :
    parseParts (part :: parts) out = some r ↔
      ∃ v : UInt32, part = decimal v.toNat ∧ parseParts parts (out ++ [v]) = some r := by
  rw [parseParts]
  constructor
  · intro h
    split_ifs at h with hdig hzero
    rw [not_or, not_not] at hdig
    have hall : ∀ b ∈ part, isDigit b = true := List.all_eq_true.mp hdig.2
    have hcan : Canonical part := ⟨hdig.1, hall, fun hlen hhead => hzero ⟨hlen, hhead⟩⟩
    rw [parseU32_digits hdig.1 hall] at h
    split_ifs at h with hval
    refine ⟨(valueFrom 0 part).toUInt32, ?_, h⟩
    have hback : (valueFrom 0 part).toUInt32.toNat = valueFrom 0 part := by
      rw [Nat.toUInt32, UInt32.toNat_ofNat']
      omega
    rw [hback, decimal_value hcan]
  · rintro ⟨v, rfl, h⟩
    have hcan := canonical_decimal v.toNat
    have hall : (decimal v.toNat).all isDigit = true := List.all_eq_true.mpr hcan.digits
    have hok : ¬(decimal v.toNat = [] ∨ ¬(decimal v.toNat).all isDigit) := by
      rw [not_or, not_not]
      exact ⟨hcan.ne_nil, hall⟩
    have hlt := v.toNat_lt
    have hu32 : parseU32 (decimal v.toNat) = some v := by
      rw [parseU32_digits hcan.ne_nil hcan.digits, value_decimal, if_pos (by omega)]
      simp
    rw [if_neg hok, if_neg fun hz => hcan.lead hz.1 hz.2, hu32]
    exact h

/-- The loop accepts exactly lists of numerals. -/
theorem parseParts_eq_some_iff (parts : List Bytes) : ∀ {out r : List UInt32},
    parseParts parts out = some r ↔
      ∃ l : List UInt32, parts = (l.map UInt32.toNat).map decimal ∧ r = out ++ l := by
  induction parts with
  | nil =>
    intro out r
    rw [parseParts]
    constructor
    · intro h
      exact ⟨[], rfl, by simpa using (Option.some.inj h).symm⟩
    · rintro ⟨l, hl, rfl⟩
      have hnil : l = [] := by simpa using hl.symm
      rw [hnil, List.append_nil]
  | cons part parts ih =>
    intro out r
    rw [parseParts_cons]
    constructor
    · rintro ⟨v, rfl, h⟩
      obtain ⟨l, rfl, rfl⟩ := ih.mp h
      exact ⟨v :: l, rfl, by simp⟩
    · rintro ⟨l, hl, rfl⟩
      rcases l with _ | ⟨v, l⟩
      · exact absurd hl (by simp)
      · obtain ⟨rfl, rfl⟩ := List.cons.inj hl
        exact ⟨v, rfl, ih.mpr ⟨l, rfl, by simp⟩⟩

/-- **Rust accepts exactly the canonical texts** of non-empty instances. -/
theorem parseInstance_eq_some_iff {text : Bytes} {inst : List UInt32} :
    parseInstance text = some inst ↔ inst ≠ [] ∧ text = instanceText inst := by
  rw [parseInstance]
  split_ifs with hnil
  · refine iff_of_false (by simp) ?_
    rintro ⟨hne, htext⟩
    exact dotted_ne_nil (by simpa using hne) (htext.symm.trans hnil)
  rw [parseParts_eq_some_iff]
  constructor
  · rintro ⟨l, hl, rfl⟩
    have hjoin : [46].intercalate (text.splitOn 46) = text := List.intercalate_splitOn 46
    rw [hl] at hjoin
    refine ⟨?_, hjoin.symm⟩
    rintro rfl
    exact hnil hjoin.symm
  · rintro ⟨hne, rfl⟩
    exact ⟨inst, splitOn_dotted (by simpa using hne), rfl⟩

/-- A key of a column, seen from the rest after the dot. -/
theorem instanceOf_append (column text : Bytes) :
    instanceOf column (column ++ 46 :: text) = parseInstance text := by
  simp [instanceOf, stripPrefix]

/-! ### The rows -/

/-- `std::str::from_utf8` succeeds. -/
def validUtf8 (s : Bytes) : Bool := (ByteArray.mk s.toArray).validateUTF8

/-- `TableKeyError`. -/
inductive TableKeyError
  | emptyColumn
  | dottedColumn (column : Bytes)
  | emptyInstance
  | keyTooLong (len : ℕ)
  deriving DecidableEq

/-- The errors of `StorageError` that a scan or a write of a row meets. -/
inductive StorageError
  | lmdb
  | tableKey (err : TableKeyError)
  deriving DecidableEq

/-- `keys_with_prefix`: the keys with a front, in order; a key that is no UTF-8 text is an
error of the iterator. -/
def keysWithPrefix (db : Lmdb) (front : Bytes) : Except StorageError (List Bytes) :=
  let keys := db.keys.filter fun key => decide (front <+: key)
  if keys.all validUtf8 then .ok keys else .error .lmdb

/-- The loop of `table_rows` over the columns. -/
def tableRowsLoop (db : Lmdb) :
    List Bytes → List (List UInt32) → Except StorageError (List (List UInt32))
  | [], rows => .ok rows
  | column :: columns, rows =>
    match keysWithPrefix db (column ++ [46]) with
    | .error err => .error err
    | .ok keys => tableRowsLoop db columns (rows ++ keys.filterMap (instanceOf column))

/-- `CacheStore::table_rows`, with `Vec::sort` and `Vec::dedup` in the order and by the
equality of `Vec<u32>`. -/
def tableRows (db : Lmdb) (columns : List Bytes) : Except StorageError (List (List UInt32)) :=
  match tableRowsLoop db columns [] with
  | .error err => .error err
  | .ok rows => .ok (SortedSet.dedup (fun a b => a == b) (SortedSet.sort compare rows))

variable {db : Lmdb}

/-- The scan of all columns, when every key is text. -/
theorem tableRowsLoop_ok (hutf : ∀ key ∈ db, validUtf8 key = true) (columns : List Bytes) :
    ∀ rows, ∃ rows', tableRowsLoop db columns rows = .ok rows' ∧
      ∀ inst, inst ∈ rows' ↔ inst ∈ rows ∨ ∃ column ∈ columns, ∃ text,
        column ++ 46 :: text ∈ db ∧ parseInstance text = some inst := by
  induction columns with
  | nil => exact fun rows => ⟨rows, rfl, by simp⟩
  | cons column columns ih =>
    intro rows
    have hkeys : keysWithPrefix db (column ++ [46]) =
        .ok (db.keys.filter fun key => decide (column ++ [46] <+: key)) := by
      rw [keysWithPrefix]
      refine if_pos (List.all_eq_true.mpr fun key hkey => hutf key ?_)
      exact Std.ExtTreeMap.mem_keys.mp (List.mem_of_mem_filter hkey)
    obtain ⟨rows', hloop, hmem⟩ := ih (rows ++ (db.keys.filter fun key =>
      decide (column ++ [46] <+: key)).filterMap (instanceOf column))
    refine ⟨rows', ?_, fun inst => ?_⟩
    · rw [tableRowsLoop, hkeys]
      exact hloop
    · have hcol : inst ∈ (db.keys.filter fun key =>
          decide (column ++ [46] <+: key)).filterMap (instanceOf column) ↔
          ∃ text, column ++ 46 :: text ∈ db ∧ parseInstance text = some inst := by
        simp only [List.mem_filterMap, List.mem_filter, Std.ExtTreeMap.mem_keys, decide_eq_true_eq]
        constructor
        · rintro ⟨key, ⟨hkey, text, rfl⟩, hinst⟩
          rw [List.append_assoc] at hkey hinst
          exact ⟨text, hkey, by rwa [List.singleton_append, instanceOf_append] at hinst⟩
        · rintro ⟨text, hkey, hinst⟩
          exact ⟨_, ⟨hkey, text, by simp⟩, by rwa [instanceOf_append]⟩
      rw [hmem, List.mem_append, hcol, or_assoc]
      simp

/-- **What `table_rows` lists**, over keys that are text: the rows some column has a key for, in
order and each once. -/
theorem tableRows_ok {db : Lmdb} (hutf : ∀ key ∈ db, validUtf8 key = true) (columns : List Bytes) :
    ∃ rows, tableRows db columns = .ok rows ∧ rows.Pairwise (SortedSet.LT compare) ∧
      ∀ inst, inst ∈ rows ↔ inst ≠ [] ∧ ∃ column ∈ columns, cellKey column inst ∈ db := by
  obtain ⟨rows, hloop, hrows⟩ := tableRowsLoop_ok hutf columns []
  -- `dedup` compares with `==`, the order with `compare`
  have heq : (fun a b : List UInt32 => a == b) = fun a b => compare a b == .eq := by
    funext a b
    rw [Bool.eq_iff_iff, beq_iff_eq, beq_iff_eq, Std.LawfulEqCmp.compare_eq_iff_eq]
  refine ⟨_, by rw [tableRows, hloop, heq], ?_, fun inst => ?_⟩
  · exact SortedSet.dedup_sorted (SortedSet.sort_sorted compare rows)
  · rw [SortedSet.mem_dedup, (SortedSet.sort_perm compare rows).mem_iff, hrows]
    simp only [List.not_mem_nil, false_or, parseInstance_eq_some_iff]
    constructor
    · rintro ⟨column, hcol, text, hkey, hinst, rfl⟩
      exact ⟨hinst, column, hcol, hkey⟩
    · rintro ⟨hinst, column, hcol, hkey⟩
      exact ⟨column, hcol, instanceText inst, hkey, hinst, rfl⟩

/-- A key of at most 255 bytes has no room for more than 128 sub-identifiers after its
column. -/
theorem length_le_of_key {column : Bytes} {inst : List UInt32} (h1 : 1 ≤ column.length)
    (hlen : (column ++ 46 :: instanceText inst).length ≤ 255) : inst.length ≤ 128 := by
  have htext := two_mul_length_le_dotted (inst.map UInt32.toNat)
  rw [List.length_map] at htext
  rw [List.length_append, List.length_cons, instanceText] at hlen
  omega

/-- **C and Rust agree on which rows exist**: over an environment whose keys are text of at
most 255 bytes, the two lists of rows are the same, element by element. -/
theorem table_rows_agree (e : MdbEnv) (hutf : ∀ key ∈ e.committed, validUtf8 key = true)
    (h255 : ∀ key ∈ e.committed, key.length ≤ 255) (columns : List Bytes) (hne : columns ≠ [])
    (hcols : ∀ column ∈ columns, 1 ≤ column.length ∧ column.length ≤ 254) :
    ∃ rs, tableRowsetLoad false (fun _ => .none) (columns.map fun c => ⟨e, c⟩) = .ok rs ∧
      tableRows e.committed columns = .ok rs.rows := by
  have hnil : (columns.map fun c => (⟨e, c⟩ : TableColumnRef)) ≠ [] := by simpa using hne
  obtain ⟨rs, hload, hsorted, hmem⟩ := tableRowsetLoad_rows hnil (by simpa using hcols)
  obtain ⟨rows, hrows, hsorted', hmem'⟩ := tableRows_ok hutf columns
  have hcmp : tableInstanceCompare = compare :=
    funext fun a => funext fun b => tableInstanceCompare_eq a b
  rw [hcmp] at hsorted
  refine ⟨rs, hload, ?_⟩
  rw [hrows, SortedSet.eq_of_mem_iff hsorted' hsorted fun inst => ?_]
  rw [hmem', hmem]
  simp only [List.mem_map, exists_exists_and_eq_and]
  constructor
  · rintro ⟨hinst, column, hcol, hkey⟩
    exact ⟨hinst, length_le_of_key (hcols column hcol).1 (h255 _ hkey), column, hcol, hkey⟩
  · rintro ⟨hinst, -, column, hcol, hkey⟩
    exact ⟨hinst, column, hcol, hkey⟩

/-- A table with a row above ten and a malformed key. -/
def sampleTable : Lmdb :=
  (((∅ : Lmdb).insert (ascii "p.10") []).insert (ascii "p.2") []).insert (ascii "q.007") []

theorem table_rows_agree_sample :
    ∃ rs, tableRowsetLoad false (fun _ => .none)
        ([ascii "p", ascii "q"].map fun c => ⟨.idle sampleTable, c⟩) = .ok rs ∧
      tableRows sampleTable [ascii "p", ascii "q"] = .ok rs.rows := by
  have hutf : ∀ key ∈ sampleTable.keys, validUtf8 key = true := by decide
  have h255 : ∀ key ∈ sampleTable.keys, key.length ≤ 255 := by decide
  exact table_rows_agree (.idle sampleTable)
    (fun key hkey => hutf key (Std.ExtTreeMap.mem_keys.mpr hkey))
    (fun key hkey => h255 key (Std.ExtTreeMap.mem_keys.mpr hkey))
    [ascii "p", ascii "q"] (by decide) (by decide)

/-! ### Writing a row -/

/-- `KEY_MAX`. -/
def keyMax : ℕ := 255

/-- The loop of `cell_key` over the sub-identifiers. -/
def Table.pushInstance : Bytes → List UInt32 → Bytes
  | key, [] => key
  | key, sub :: subs => Table.pushInstance (key ++ 46 :: decimal sub.toNat) subs

/-- `cell_key`. -/
def Table.cellKey (column : Bytes) (inst : List UInt32) : Except TableKeyError Bytes :=
  if column = [] then .error .emptyColumn
  else if (46 : UInt8) ∈ column then .error (.dottedColumn column)
  else if inst = [] then .error .emptyInstance
  else
    let key := Table.pushInstance column inst
    if key.length > keyMax then .error (.keyTooLong key.length) else .ok key

/-- `put_many_raw`; `fails` is a failure of the transaction, which leaves no trace. -/
def putManyRaw (fails : Bool) (entries : List (Bytes × Bytes)) (db : Lmdb) :
    Except StorageError Unit × Lmdb :=
  if fails then (.error .lmdb, db)
  else (.ok (), entries.foldl (fun db e => db.insert e.1 e.2) db)

/-- `delete_many_raw`; absent keys are not an error. -/
def deleteManyRaw (fails : Bool) (keys : List Bytes) (db : Lmdb) :
    Except StorageError Unit × Lmdb :=
  if fails then (.error .lmdb, db) else (.ok (), keys.foldl (fun db k => db.erase k) db)

/-- The loop of `put_row` over the cells, with `encoded` pushed so far. -/
def putRowLoop (inst : List UInt32) :
    List (Bytes × Value) → List (Bytes × Bytes) → Except TableKeyError (List (Bytes × Bytes))
  | [], encoded => .ok encoded
  | (column, value) :: cells, encoded =>
    match Table.cellKey column inst with
    | .error err => .error err
    | .ok key => putRowLoop inst cells (encoded ++ [(key, value.encode)])

/-- `CacheStore::put_row`. -/
def putRow (fails : Bool) (inst : List UInt32) (cells : List (Bytes × Value)) (db : Lmdb) :
    Except StorageError Unit × Lmdb :=
  match putRowLoop inst cells [] with
  | .error err => (.error (.tableKey err), db)
  | .ok encoded => putManyRaw fails encoded db

/-- The loop of `delete_row` over the columns, with `keys` pushed so far. -/
def deleteRowLoop (inst : List UInt32) :
    List Bytes → List Bytes → Except TableKeyError (List Bytes)
  | [], keys => .ok keys
  | column :: columns, keys =>
    match Table.cellKey column inst with
    | .error err => .error err
    | .ok key => deleteRowLoop inst columns (keys ++ [key])

/-- `CacheStore::delete_row`. -/
def deleteRow (fails : Bool) (inst : List UInt32) (columns : List Bytes) (db : Lmdb) :
    Except StorageError Unit × Lmdb :=
  match deleteRowLoop inst columns [] with
  | .error err => (.error (.tableKey err), db)
  | .ok keys => deleteManyRaw fails keys db

/-- Insertions one after the other are assignments. -/
theorem getElem?_foldl_insert (entries : List (Bytes × Bytes)) (db : Lmdb) :
    (fun k : Bytes => (entries.foldl (fun db e => db.insert e.1 e.2) db)[k]?) =
      assign (fun k => db[k]?) (entries.map fun e => (e.1, some e.2)) := by
  induction entries generalizing db with
  | nil => rfl
  | cons e entries ih =>
    rw [List.foldl_cons, ih, List.map_cons, assign_cons]
    congr 1
    funext k
    rw [Std.ExtTreeMap.getElem?_insert, Function.update_apply]
    refine if_congr ?_ rfl rfl
    rw [Std.LawfulEqCmp.compare_eq_iff_eq, eq_comm]

/-- So are deletions. -/
theorem getElem?_foldl_erase (keys : List Bytes) (db : Lmdb) :
    (fun k : Bytes => (keys.foldl (fun db k => db.erase k) db)[k]?) =
      assign (fun k => db[k]?) (keys.map fun k => (k, none)) := by
  induction keys generalizing db with
  | nil => rfl
  | cons key keys ih =>
    rw [List.foldl_cons, ih, List.map_cons, assign_cons]
    congr 1
    funext k
    rw [Std.ExtTreeMap.getElem?_erase, Function.update_apply]
    refine if_congr ?_ rfl rfl
    rw [Std.LawfulEqCmp.compare_eq_iff_eq, eq_comm]

/-- The key is built as C builds it. -/
theorem Table.pushInstance_eq (inst : List UInt32) : ∀ key sub,
    Table.pushInstance key (sub :: inst) = AgentxSubagent.cellKey key (sub :: inst) := by
  induction inst with
  | nil =>
    intro key sub
    simp [Table.pushInstance, AgentxSubagent.cellKey, instanceText]
  | cons next inst ih =>
    intro key sub
    rw [Table.pushInstance, ih]
    simp [AgentxSubagent.cellKey, instanceText]

/-- **When Rust builds a key**, and which. -/
theorem Table.cellKey_eq_ok_iff {column key : Bytes} {inst : List UInt32} :
    Table.cellKey column inst = .ok key ↔ column ≠ [] ∧ (46 : UInt8) ∉ column ∧ inst ≠ [] ∧
      key = AgentxSubagent.cellKey column inst ∧ key.length ≤ 255 := by
  rw [Table.cellKey]
  rcases inst with _ | ⟨sub, inst⟩
  · refine iff_of_false ?_ (by simp)
    rw [if_pos rfl]
    split_ifs
    all_goals simp
  · simp only [Table.pushInstance_eq]
    split_ifs with hcol hdot hnil hlen
    · simp [hcol]
    · simp [hdot]
    · exact absurd hnil (by simp)
    · refine iff_of_false (by simp) ?_
      rintro ⟨-, -, -, rfl, hle⟩
      exact absurd hle (Nat.not_le.mpr hlen)
    · constructor
      · intro h
        obtain rfl := Except.ok.inj h
        exact ⟨hcol, hdot, by simp, rfl, Nat.not_lt.mp hlen⟩
      · rintro ⟨-, -, -, rfl, -⟩
        rfl

/-- The entries of a row, if all its keys can be built. -/
theorem putRowLoop_eq_ok_iff {inst : List UInt32} (cells : List (Bytes × Value)) :
    ∀ {encoded entries}, putRowLoop inst cells encoded = .ok entries ↔
      (∀ c ∈ cells, Table.cellKey c.1 inst = .ok (cellKey c.1 inst)) ∧
        entries = encoded ++ cells.map fun c => (cellKey c.1 inst, c.2.encode) := by
  induction cells with
  | nil =>
    intro encoded entries
    simp [putRowLoop, eq_comm]
  | cons c cells ih =>
    intro encoded entries
    obtain ⟨column, value⟩ := c
    rw [putRowLoop, List.forall_mem_cons, List.map_cons]
    rcases hkey : Table.cellKey column inst with err | key
    · simp
    · obtain ⟨-, -, -, rfl, -⟩ := Table.cellKey_eq_ok_iff.mp hkey
      simp [ih]

/-- The keys of a row, if all of them can be built. -/
theorem deleteRowLoop_eq_ok_iff {inst : List UInt32} (columns : List Bytes) :
    ∀ {pushed keys}, deleteRowLoop inst columns pushed = .ok keys ↔
      (∀ c ∈ columns, Table.cellKey c inst = .ok (cellKey c inst)) ∧
        keys = pushed ++ columns.map fun c => cellKey c inst := by
  induction columns with
  | nil =>
    intro pushed keys
    simp [deleteRowLoop, eq_comm]
  | cons column columns ih =>
    intro pushed keys
    rw [deleteRowLoop, List.forall_mem_cons, List.map_cons]
    rcases hkey : Table.cellKey column inst with err | key
    · simp
    · obtain ⟨-, -, -, rfl, -⟩ := Table.cellKey_eq_ok_iff.mp hkey
      simp [ih]

/-- **What `put_row` can do**: it fails and changes nothing, or it stores all its cells. -/
theorem putRow_cases (fails : Bool) (inst : List UInt32) (cells : List (Bytes × Value))
    (db : Lmdb) :
    (∃ err, putRow fails inst cells db = (.error err, db)) ∨
      (∀ c ∈ cells, (46 : UInt8) ∉ c.1) ∧
        putRow fails inst cells db =
          (.ok (), (cells.map fun c => (cellKey c.1 inst, c.2.encode)).foldl
            (fun db e => db.insert e.1 e.2) db) := by
  rw [putRow]
  rcases hloop : putRowLoop inst cells [] with err | entries
  · exact Or.inl ⟨_, rfl⟩
  · obtain ⟨hkeys, rfl⟩ := (putRowLoop_eq_ok_iff cells).mp hloop
    cases fails with
    | true => exact Or.inl ⟨_, rfl⟩
    | false => exact Or.inr ⟨fun c hc => (Table.cellKey_eq_ok_iff.mp (hkeys c hc)).2.1, rfl⟩

/-- Where all keys can be built and nothing fails, the call succeeds. -/
theorem putRow_ok {inst : List UInt32} {cells : List (Bytes × Value)}
    (h : ∀ c ∈ cells, Table.cellKey c.1 inst = .ok (cellKey c.1 inst)) (db : Lmdb) :
    (putRow false inst cells db).1 = .ok () := by
  rw [putRow, (putRowLoop_eq_ok_iff cells).mpr ⟨h, rfl⟩]
  rfl

end AgentxSubagent
