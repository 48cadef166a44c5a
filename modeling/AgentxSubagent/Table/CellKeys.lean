import AgentxSubagent.Storage.Envs
import AgentxSubagent.Table.RustTable

/-!
# Cell keys in two languages

`table_cell_key` of `src/table_rows.c` checks the length of a key in four places: the column alone,
each sub-identifier as it is printed, the count of sub-identifiers and the text as a whole.
`cell_key` of `rust-app/src/storage/table.rs` builds the key first and checks its length once. They
meet at 255 bytes for every split of the length (`AgentxSubagent.cell_keys_agree`).

Not every key of `cache.lmdb` is built by one of them. `CacheStore::put` takes any key that LMDB
takes, up to 511 bytes, and the scan of `table_rowset_load` bounds the front of a key but not the
key. So a row can be listed whose cells no getter of the C side reaches:
`AgentxSubagent.rows_addressable_iff` says which rows are.
-/

namespace AgentxSubagent

open Assign Decimal

/-! ### The same keys -/

/-- **What `table_cell_key` answers** for an instance of 1 to 128 sub-identifiers: the key when it
fits the buffer with its NUL and the limit on keys, and too big otherwise. -/
theorem tableCellKey_eq {column : Bytes} {inst : TableInstance} (hcol : column ≠ [])
    (hne : inst ≠ []) (hlen : inst.length ≤ 128) (buflen : ℕ) :
    tableCellKey column inst buflen =
      if (cellKey column inst).length < buflen ∧ (cellKey column inst).length ≤ 255 then
        .ok (cellKey column inst)
      else .error .tooBig := by
  split_ifs with hfit
  · exact tableCellKey_eq_ok_iff.mpr ⟨hcol, hne, hlen, rfl, hfit.1, hfit.2⟩
  have hklen := length_cellKey column inst
  have h0 : ¬column.length = 0 := fun h => hcol (List.length_eq_zero_iff.mp h)
  rw [tableCellKey, if_neg h0]
  split_ifs with hbuf
  · rfl
  rw [tableInstanceFormat_eq hne hlen (by omega)]
  split_ifs with htext
  · -- the text fits the buffer, so the key is over the limit
    have hmax : (column ++ 46 :: instanceText inst).length > storageKeyMax := by
      rw [storageKeyMax]
      have hlt : (cellKey column inst).length < buflen := by omega
      rw [← cellKey]
      by_contra hle
      exact hfit ⟨hlt, by omega⟩
    simp only [if_pos hmax]
  · rfl

/-- `table_cell_key` into 256 bytes builds the keys `cell_key` does. -/
theorem tableCellKey_eq_ok_iff_cellKey {column : Bytes} (hcol : column ≠ [])
    (hdot : (46 : UInt8) ∉ column) (inst : List UInt32) (key : Bytes) :
    tableCellKey column inst 256 = .ok key ↔ Table.cellKey column inst = .ok key := by
  rw [tableCellKey_eq_ok_iff, Table.cellKey_eq_ok_iff]
  constructor
  · rintro ⟨-, hne, -, rfl, -, hle⟩
    exact ⟨hcol, hdot, hne, rfl, hle⟩
  · -- the limit on sub-identifiers, which Rust does not have, follows from that on keys
    rintro ⟨-, -, hne, rfl, hle⟩
    have hlen := length_le_of_key (List.length_pos_iff.mpr hcol) hle
    exact ⟨hcol, hne, hlen, rfl, by omega, hle⟩

/-- **Both languages build the same cell keys, and keys never collide.** For every non-empty column
without a dot and every list of sub-identifiers: `table_cell_key` into 256 bytes succeeds with a
key if and only if `cell_key` returns it, and more than 128 sub-identifiers are rejected by both;
a key is built exactly when there is a sub-identifier and the key has at most 255 bytes; a key
determines column and list; and for 1 to 128 sub-identifiers and a smaller buffer,
`table_cell_key` fails, with `STORAGE_ERR_TOOBIG`, exactly when the key does not fit with its
NUL. -/
theorem cell_keys_agree (column : Bytes) (hcol : column ≠ []) (hdot : (46 : UInt8) ∉ column)
    (inst : List UInt32) :
    (∀ key, tableCellKey column inst 256 = .ok key ↔ Table.cellKey column inst = .ok key) ∧
    (128 < inst.length → (∃ rc, tableCellKey column inst 256 = .error rc) ∧
      ∃ err, Table.cellKey column inst = .error err) ∧
    ((∃ key, Table.cellKey column inst = .ok key) ↔
      inst ≠ [] ∧ (cellKey column inst).length ≤ 255) ∧
    (∀ column' inst' key, column' ≠ [] → (46 : UInt8) ∉ column' →
      Table.cellKey column inst = .ok key → Table.cellKey column' inst' = .ok key →
      column = column' ∧ inst = inst') ∧
    (inst ≠ [] → inst.length ≤ 128 → ∀ buflen ≤ 256, tableCellKey column inst buflen =
      if (cellKey column inst).length + 1 ≤ buflen then .ok (cellKey column inst)
      else .error .tooBig) := by
  have hsame := tableCellKey_eq_ok_iff_cellKey hcol hdot inst
  refine ⟨hsame, fun hmany => ?_, ?_, ?_, fun hne hlen buflen hbuf => ?_⟩
  · have hno : ∀ key, tableCellKey column inst 256 ≠ .ok key := by
      intro key h
      obtain ⟨-, -, hlen, -⟩ := tableCellKey_eq_ok_iff.mp h
      omega
    constructor
    · rcases h : tableCellKey column inst 256 with rc | key
      · exact ⟨rc, rfl⟩
      · exact absurd h (hno key)
    · rcases h : Table.cellKey column inst with err | key
      · exact ⟨err, rfl⟩
      · exact absurd ((hsame key).mpr h) (hno key)
  · constructor
    · rintro ⟨key, h⟩
      obtain ⟨-, -, hne, rfl, hle⟩ := Table.cellKey_eq_ok_iff.mp h
      exact ⟨hne, hle⟩
    · rintro ⟨hne, hle⟩
      exact ⟨_, Table.cellKey_eq_ok_iff.mpr ⟨hcol, hdot, hne, rfl, hle⟩⟩
  · intro column' inst' key _ hdot' h h'
    obtain ⟨-, -, -, rfl, -⟩ := Table.cellKey_eq_ok_iff.mp h
    obtain ⟨-, -, -, heq, -⟩ := Table.cellKey_eq_ok_iff.mp h'
    exact cellKey_inj hdot hdot' heq
  · rw [tableCellKey_eq hcol hne hlen]
    refine if_congr ?_ rfl rfl
    omega

/-- The longest name that leaves room for one digit. -/
theorem cell_keys_agree_longest :
    tableCellKey (List.replicate 253 99) [1] 256 =
      .ok (cellKey (List.replicate 253 99) [1]) := by
  obtain ⟨hsame, -, hok, -, -⟩ := cell_keys_agree (List.replicate 253 99) (by decide)
    (fun h => absurd (List.eq_of_mem_replicate h) (by decide)) [1]
  obtain ⟨key, hkey⟩ := hok.mpr ⟨by simp, by
    rw [length_cellKey, List.length_replicate]
    decide⟩
  obtain ⟨-, -, -, rfl, -⟩ := Table.cellKey_eq_ok_iff.mp hkey
  exact (hsame _).mpr hkey

/-! ### Who writes the cache -/

/-- The longest key LMDB takes, `MDB_MAXKEYSIZE`. -/
def mdbMaxKeySize : ℕ := 511

/-- `CacheStore::put`, which is `Inner::put_raw`: the only limit on the key is that of LMDB. -/
def cachePut (fails : Bool) (key : Bytes) (value : Value) (db : Lmdb) :
    Except StorageError Unit × Lmdb :=
  if fails ∨ key.length = 0 ∨ key.length > mdbMaxKeySize then (.error .lmdb, db)
  else (.ok (), db.insert key value.encode)

/-- A write to `cache.lmdb`: `CacheStore::put`, `CacheStore::put_row` or a setter of the C side. -/
inductive CacheWrite
  | put (fails : Bool) (key : Bytes) (value : Value)
  | putRow (fails : Bool) (inst : List UInt32) (cells : List (Bytes × Value))
  | set (f : Fault) (key : Bytes) (value : Value)

/-- The contents after a write. -/
def CacheWrite.apply (db : Lmdb) : CacheWrite → Lmdb
  | .put fails key value => (cachePut fails key value db).2
  | .putRow fails inst cells => (AgentxSubagent.putRow fails inst cells db).2
  | .set f key value => (storageSetValue f rwEnv key value (.idle db)).2.committed

/-- The contents that writes produce, in an environment that was empty. -/
def cacheContents (ws : List CacheWrite) : Lmdb := ws.foldl CacheWrite.apply ∅

/-- The write is no `CacheStore::put` of a key over the limit. -/
def CacheWrite.Within : CacheWrite → Prop
  | .put _ key _ => key.length ≤ 255
  | _ => True

/-- A setter adds a valid key, or nothing. -/
theorem mem_apply_set {db : Lmdb} {f : Fault} {key k : Bytes} {value : Value}
    (h : k ∈ CacheWrite.apply db (.set f key value)) : k ∈ db ∨ k.length ≤ 255 := by
  have hset : CacheWrite.apply db (.set f key value) =
      (Envs.setValue f (fun _ => db) .cache key value).2 .cache := by
    simp [CacheWrite.apply, Envs.setValue]
  rw [hset] at h
  obtain ⟨rc, heq⟩ | ⟨hvalid, heq⟩ := Envs.setValue_cases f (fun _ => db) .cache key value
  · rw [heq] at h
    exact Or.inl h
  · rw [heq, Envs.put] at h
    simp only [Function.update_self, Std.ExtTreeMap.mem_insert] at h
    obtain hk | hk := h
    · rw [Std.LawfulEqCmp.compare_eq_iff_eq] at hk
      exact Or.inr (hk ▸ hvalid.2)
    · exact Or.inl hk

/-- A row adds keys within the limit, or nothing. -/
theorem mem_putRow {db : Lmdb} {fails : Bool} {inst : List UInt32} {cells : List (Bytes × Value)}
    {k : Bytes} (h : k ∈ (putRow fails inst cells db).2) : k ∈ db ∨ k.length ≤ 255 := by
  rw [putRow] at h
  rcases hloop : putRowLoop inst cells [] with err | entries
  · rw [hloop] at h
    exact Or.inl h
  rw [hloop] at h
  obtain ⟨hkeys, rfl⟩ := (putRowLoop_eq_ok_iff cells).mp hloop
  cases fails with
  | true => exact Or.inl h
  | false =>
    by_cases hk : k ∈ cells.map fun c => cellKey c.1 inst
    · obtain ⟨c, hc, rfl⟩ := List.mem_map.mp hk
      obtain ⟨-, -, -, -, hle⟩ := Table.cellKey_eq_ok_iff.mp (hkeys c hc)
      exact Or.inr hle
    · -- a key that is not written holds what it held
      have hsame := congrFun (getElem?_foldl_insert
        (cells.map fun c => (cellKey c.1 inst, c.2.encode)) db) k
      rw [assign_of_not_mem (by simpa using hk)] at hsame
      simp only [putManyRaw, Bool.false_eq_true, if_false, List.nil_append] at h
      rw [Std.ExtTreeMap.mem_iff_isSome_getElem?, hsame] at h
      exact Or.inl (Std.ExtTreeMap.mem_iff_isSome_getElem?.mpr h)

/-- **The keys of the cache are within the limit** as long as `CacheStore::put` is given no
other. -/
theorem length_le_of_mem_cacheContents {ws : List CacheWrite} (h : ∀ w ∈ ws, w.Within) {k : Bytes}
    (hk : k ∈ cacheContents ws) : k.length ≤ 255 := by
  have hrun : ∀ (ws : List CacheWrite) (db : Lmdb), (∀ w ∈ ws, w.Within) →
      (∀ k ∈ db, k.length ≤ 255) → ∀ k ∈ ws.foldl CacheWrite.apply db, k.length ≤ 255 := by
    intro ws
    induction ws with
    | nil => exact fun db _ hdb => hdb
    | cons w ws ih =>
      intro db hws hdb
      refine ih _ (fun w' hw' => hws w' (List.mem_cons_of_mem w hw')) fun k hk => ?_
      cases w with
      | put fails key value =>
        have hwithin : key.length ≤ 255 := hws _ List.mem_cons_self
        simp only [CacheWrite.apply, cachePut] at hk
        split_ifs at hk
        · exact hdb k hk
        · rw [Std.ExtTreeMap.mem_insert, Std.LawfulEqCmp.compare_eq_iff_eq] at hk
          obtain rfl | hk := hk
          · exact hwithin
          · exact hdb k hk
      | putRow fails inst cells => exact (mem_putRow hk).elim (hdb k) id
      | set f key value => exact (mem_apply_set hk).elim (hdb k) id
  exact hrun ws ∅ h (fun k hk => absurd hk Std.ExtTreeMap.not_mem_empty) k hk

/-! ### Rows that can be addressed -/

/-- **A key makes the scan of a column report a row.** -/
def Reports (db : Lmdb) (column key : Bytes) (inst : TableInstance) : Prop :=
  key ∈ db ∧ ∃ text, key = column ++ 46 :: text ∧ tableInstanceParse text = .ok inst

/-- **The row can be addressed by the key it was found under**: it is the key `table_cell_key`
builds, and the getters, given room for the value, and `storage_exists` answer neither
`STORAGE_ERR_NOTFOUND` nor `STORAGE_ERR_TOOBIG` for it. -/
structure Addressable (db : Lmdb) (column key : Bytes) (inst : TableInstance) : Prop where
  built : tableCellKey column inst (storageKeyMax + 1) = .ok key
  exists_ok : (storageExists .none key (.idle db)).1 = .ok ()
  get_ne : ∀ (ty : StorageType) (cap : ℕ), (∀ data, db[key]? = some data → data.length ≤ cap) →
    (storageGetAs .none ty key cap (.idle db)).1.1 ≠ .error .notFound ∧
      (storageGetAs .none ty key cap (.idle db)).1.1 ≠ .error .tooBig

/-- With room for the whole value no getter finds it too big. -/
theorem readAs_ne_tooBig {ty : StorageType} {cap : ℕ} {data : Bytes} (h : data.length ≤ cap) :
    (readAs ty cap data).1 ≠ .error .tooBig := by
  rw [readAs, decodeHeader]
  split_ifs
  · simp
  · simp
  simp only
  rcases hv : cValue (data.drop 4) ty with _ | v
  · simp
  · -- what is left after the header is no longer than the room
    have hle : (data.drop 4).length ≤ cap := by
      rw [List.length_drop]
      omega
    simp only
    rw [deliver_of_le hv hle]
    simp

/-- `storage_exists` finds a key that is there, if it is valid. -/
theorem storageExists_of_mem {db : Lmdb} {key : Bytes} (hkey : ValidKey key) (hmem : key ∈ db) :
    (storageExists .none key (.idle db)).1 = .ok () := by
  obtain ⟨data, hdata⟩ := Option.isSome_iff_exists.mp
    (Std.ExtTreeMap.mem_iff_isSome_getElem?.mp hmem)
  change txnExistsImpl .none ⟨true, db⟩ key = .ok ()
  rw [txnExistsImpl, txnGetRaw, validateKey_of_valid hkey]
  change (mdbGet .none ⟨true, db⟩ key).mapError mapMdbRc >>= _ = _
  rw [mdbGet]
  simp only [Fault.none, hdata]
  rfl

/-- **A row is addressable exactly when the key it was found under is within the limit.** -/
theorem addressable_iff {db : Lmdb} {column key : Bytes} {inst : TableInstance}
    (hcol : column ≠ []) (h : Reports db column key inst) :
    Addressable db column key inst ↔ key.length ≤ 255 := by
  obtain ⟨hmem, text, rfl, hparse⟩ := h
  obtain ⟨hne, hlen, rfl⟩ := tableInstanceParse_eq_ok_iff.mp hparse
  constructor
  · rintro ⟨hbuilt, -, -⟩
    exact (tableCellKey_eq_ok_iff.mp hbuilt).2.2.2.2.2
  · intro hle
    have hvalid : ValidKey (column ++ 46 :: instanceText inst) := by
      refine ⟨?_, hle⟩
      rw [List.length_append, List.length_cons]
      omega
    refine ⟨tableCellKey_eq_ok_iff.mpr ⟨hcol, hne, hlen, rfl, ?_, hle⟩,
      storageExists_of_mem hvalid hmem, fun ty cap hcap => ?_⟩
    · rw [storageKeyMax]
      omega
    · obtain ⟨data, hdata⟩ := Option.isSome_iff_exists.mp
        (Std.ExtTreeMap.mem_iff_isSome_getElem?.mp hmem)
      have hget : Envs.getAs .none (fun _ => db) .cache ty (column ++ 46 :: instanceText inst) cap =
          (readAs ty cap data).1 := by
        rw [Envs.getAs_none hvalid,
          show Envs.stored (fun _ => db) (.cache, _) = some data from hdata]
      rw [Envs.getAs] at hget
      rw [hget]
      exact ⟨readAs_ne_notFound ty cap data, readAs_ne_tooBig (hcap data hdata)⟩

/-- A load that succeeds had names for all its columns. -/
theorem column_ne_nil_of_load {nomem : Bool} {f : ℕ → ScanFault} {columns : List TableColumnRef}
    {rs : TableRowset} (h : tableRowsetLoad nomem f columns = .ok rs) :
    ∀ col ∈ columns, col.column ≠ [] := by
  have hloop : ∀ (columns : List TableColumnRef) (i : ℕ) (rs rs' : TableRowset),
      rowsetLoadColumns f i columns rs = .ok rs' → ∀ col ∈ columns, col.column ≠ [] := by
    intro columns
    induction columns with
    | nil => exact fun _ _ _ _ col hcol => absurd hcol List.not_mem_nil
    | cons col columns ih =>
      rintro i rs rs' hok c hc hnil
      rw [rowsetLoadColumns] at hok
      rcases hone : rowsetLoadColumn (f i) rs col with rc | rs₁
      · rw [hone] at hok
        exact absurd hok (by simp)
      rw [hone] at hok
      rcases List.mem_cons.mp hc with rfl | hc
      · rw [rowsetLoadColumn, if_pos (by rw [hnil]; rfl)] at hone
        exact absurd hone (by simp)
      · exact ih _ _ _ hok c hc hnil
  rw [tableRowsetLoad] at h
  split_ifs at h
  rcases hcols : rowsetLoadColumns f 0 columns ⟨[], 0, 0⟩ with rc | rs₁
  · rw [hcols] at h
    exact absurd h (by simp)
  · exact hloop columns 0 _ _ hcols

/-- **Which rows are addressable.** Let any writes fill the cache, and let a load of some columns
succeed. Every row it lists was found under some key of some column. All rows found are addressable
by the keys they were found under if and only if none of these keys has more than 255 bytes; and
that is so in every run in which `CacheStore::put` is given no key of more than 255 bytes. -/
theorem rows_addressable_iff (ws : List CacheWrite) (columns : List Bytes) (nomem : Bool)
    (f : ℕ → ScanFault) (rs : TableRowset)
    (hload : tableRowsetLoad nomem f (columns.map fun c => ⟨.idle (cacheContents ws), c⟩) =
      .ok rs) :
    (∀ inst ∈ rs.rows, ∃ column ∈ columns, ∃ key, Reports (cacheContents ws) column key inst) ∧
    ((∀ column ∈ columns, ∀ key inst, Reports (cacheContents ws) column key inst →
        Addressable (cacheContents ws) column key inst) ↔
      ∀ column ∈ columns, ∀ key inst, Reports (cacheContents ws) column key inst →
        key.length ≤ 255) ∧
    ((∀ w ∈ ws, w.Within) → ∀ column ∈ columns, ∀ key inst,
      Reports (cacheContents ws) column key inst →
        Addressable (cacheContents ws) column key inst) := by
  have hnames : ∀ column ∈ columns, column ≠ [] := by
    intro column hcol
    exact column_ne_nil_of_load hload _ (List.mem_map_of_mem hcol)
  refine ⟨fun inst hinst => ?_, ?_, ?_⟩
  · obtain ⟨hne, hlen, col, hcol, hmem⟩ := tableRowsetLoad_parsed hload hinst
    obtain ⟨column, hcolumn, rfl⟩ := List.mem_map.mp hcol
    exact ⟨column, hcolumn, cellKey column inst, hmem, instanceText inst, rfl,
      tableInstanceParse_eq_ok_iff.mpr ⟨hne, hlen, rfl⟩⟩
  · refine forall_congr' fun column => forall_congr' fun hcol => forall_congr' fun key =>
      forall_congr' fun inst => forall_congr' fun hrep => ?_
    exact addressable_iff (hnames column hcol) hrep
  · intro hws column hcol key inst hrep
    exact (addressable_iff (hnames column hcol) hrep).mpr
      (length_le_of_mem_cacheContents hws hrep.1)

/-- An instance of 123 sub-identifiers. -/
def longInstance : TableInstance := List.replicate 123 1

/-- One `CacheStore::put` of the cell of a sensor with that index; its key has 256 bytes. -/
def longPut : List CacheWrite :=
  [.put false (cellKey (ascii "sensorName") longInstance) (.bytes (ascii "nvme0"))]

theorem length_longKey : (cellKey (ascii "sensorName") longInstance).length = 256 := by
  decide +kernel

/-- A load of one column of at most 64 characters succeeds. -/
theorem exists_load_single (db : Lmdb) {column : Bytes} (h1 : 1 ≤ column.length)
    (h64 : column.length ≤ 64) :
    ∃ rs, tableRowsetLoad false (fun _ => .none) ([column].map fun c => ⟨.idle db, c⟩) = .ok rs ∧
      ∀ inst, inst ∈ rs.rows ↔ inst ≠ [] ∧ inst.length ≤ 128 ∧ cellKey column inst ∈ db := by
  obtain ⟨rs, hload, -, hrows⟩ : ∃ rs, tableRowsetLoad false (fun _ => .none)
      ([column].map fun c => (⟨.idle db, c⟩ : TableColumnRef)) = .ok rs ∧ _ :=
    tableRowsetLoad_rows (by simp) (by
      rintro col hcol
      obtain rfl := List.mem_singleton.mp hcol
      exact ⟨h1, h64.trans (by decide)⟩)
  refine ⟨rs, hload, fun inst => (hrows inst).trans ?_⟩
  simp [MdbEnv.idle]

/-- **A row that cannot be addressed**: the load lists it, and `table_cell_key` does not build its
key. -/
theorem row_not_addressable :
    ∃ rs, tableRowsetLoad false (fun _ => .none)
        ([ascii "sensorName"].map fun c => ⟨.idle (cacheContents longPut), c⟩) = .ok rs ∧
      longInstance ∈ rs.rows ∧
      tableCellKey (ascii "sensorName") longInstance (storageKeyMax + 1) = .error .tooBig ∧
      ¬∀ key, Reports (cacheContents longPut) (ascii "sensorName") key longInstance →
        Addressable (cacheContents longPut) (ascii "sensorName") key longInstance := by
  have hlen := length_longKey
  have hne : longInstance ≠ [] := by simp [longInstance]
  have h128 : longInstance.length ≤ 128 := by simp [longInstance]
  have hput : ¬((false = true) ∨ (cellKey (ascii "sensorName") longInstance).length = 0 ∨
      (cellKey (ascii "sensorName") longInstance).length > mdbMaxKeySize) := by
    rw [hlen, mdbMaxKeySize]
    decide
  have hmem : cellKey (ascii "sensorName") longInstance ∈ cacheContents longPut := by
    simp only [cacheContents, longPut, List.foldl_cons, List.foldl_nil, CacheWrite.apply, cachePut,
      if_neg hput]
    exact Std.ExtTreeMap.mem_insert_self
  have hrep : Reports (cacheContents longPut) (ascii "sensorName")
      (cellKey (ascii "sensorName") longInstance) longInstance :=
    ⟨hmem, instanceText longInstance, rfl, tableInstanceParse_eq_ok_iff.mpr ⟨hne, h128, rfl⟩⟩
  obtain ⟨rs, hload, hrows⟩ := exists_load_single (cacheContents longPut)
    (show 1 ≤ (ascii "sensorName").length by decide) (by decide)
  refine ⟨rs, hload, (hrows _).mpr ⟨hne, h128, hmem⟩, ?_, fun hall => ?_⟩
  · rw [tableCellKey_eq (by decide) hne h128, if_neg]
    rw [hlen]
    omega
  · have hle := (addressable_iff (by decide) hrep).mp (hall _ hrep)
    omega

/-- A cell written by the C side, and one by `CacheStore::put` with a key within the limit. -/
def shortWrites : List CacheWrite :=
  [.set .none (ascii "sensorName.3") (.bytes []), .put false (ascii "sensorName.4") (.bytes [])]

/-- The row of the second is addressable. -/
theorem rows_addressable_short :
    Addressable (cacheContents shortWrites) (ascii "sensorName") (ascii "sensorName.4") [4] := by
  obtain ⟨rs, hload, -⟩ := exists_load_single (cacheContents shortWrites)
    (show 1 ≤ (ascii "sensorName").length by decide) (by decide)
  have hmem : ascii "sensorName.4" ∈ cacheContents shortWrites := by
    have hput : ¬((false = true) ∨ (ascii "sensorName.4").length = 0 ∨
        (ascii "sensorName.4").length > mdbMaxKeySize) := by decide
    simp only [cacheContents, shortWrites, List.foldl_cons, List.foldl_nil, CacheWrite.apply,
      cachePut, if_neg hput]
    exact Std.ExtTreeMap.mem_insert_self
  have hrep : Reports (cacheContents shortWrites) (ascii "sensorName") (ascii "sensorName.4") [4] :=
    ⟨hmem, ascii "4", by decide, tableInstanceParse_eq_ok_iff.mpr ⟨by simp, by simp, by decide⟩⟩
  obtain ⟨-, -, hrun⟩ := rows_addressable_iff shortWrites [ascii "sensorName"] false _ rs hload
  refine hrun ?_ _ (List.mem_singleton_self _) _ _ hrep
  rintro w hw
  obtain rfl | rfl : w = _ ∨ w = _ := by simpa [shortWrites] using hw
  · exact trivial
  · exact show (ascii "sensorName.4").length ≤ 255 by decide

end AgentxSubagent
