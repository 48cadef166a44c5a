import AgentxSubagent.Lib.Utf8
import AgentxSubagent.Table.RustTable

/-!
# The life of rows on the Rust side

What `CacheStore` is for, where tables are concerned: a set of cells, each at a column and an
instance, which `put_row` and `delete_row` change one row at a time and `table_rows` lists. That is
`AgentxSubagent.RowOp.Meets`, over functions from cells to values and with no word of keys.

The store holds keys and bytes. `AgentxSubagent.RepresentsCells` ties the two together: every key is
the key of a cell, and holds the encoding of its value. It can be kept up because a key determines
its cell (`AgentxSubagent.cellKeyOf_injective`), and with it every run of calls on an empty store
meets the description (`AgentxSubagent.row_lifecycle`).
-/

namespace AgentxSubagent

open Assign Decimal

/-! ### What the calls are for -/

/-- The name of a column, as a `&str`: not empty, and without a dot. -/
structure ColumnName where
  name : Bytes
  ne_nil : name ≠ []
  dot_free : (46 : UInt8) ∉ name
  utf8 : validUtf8 name = true
  deriving DecidableEq

/-- Where a cell is: its column and its row. -/
abbrev CellAt := ColumnName × List UInt32

/-- **The cells of a store** and their values. -/
abbrev Cells := CellAt → Option Value

/-- The key of the cell is valid: the row has a sub-identifier, and the key at most 255 bytes. -/
def CellAt.ValidKey (p : CellAt) : Prop := p.2 ≠ [] ∧ (cellKey p.1.name p.2).length ≤ 255

/-- A call; `fails` is a failure of its transaction. -/
inductive RowOp
  | putRow (fails : Bool) (inst : List UInt32) (cells : List (ColumnName × Value))
  | deleteRow (fails : Bool) (inst : List UInt32) (columns : List ColumnName)
  | tableRows (columns : List ColumnName)

/-- What a call returns. -/
inductive RowAnswer
  | done (result : Except StorageError Unit)
  | rows (result : Except StorageError (List (List UInt32)))

/-- What a call assigns to cells, in order. -/
def RowOp.assigns : RowOp → List (CellAt × Option Value)
  | .putRow _ inst cells => cells.map fun c => ((c.1, inst), some c.2)
  | .deleteRow _ inst columns => columns.map fun c => ((c, inst), none)
  | .tableRows _ => []

/-- The cells a call mentions. -/
def RowOp.mentions (op : RowOp) : List CellAt := op.assigns.map Prod.fst

/-- A failure of the transaction of a call. -/
def RowOp.fails : RowOp → Bool
  | .putRow fails _ _ => fails
  | .deleteRow fails _ _ => fails
  | .tableRows _ => false

/-- **A call that writes does all or nothing**: it returns `Ok` and carries out its assignments, in
order, so that the last one to a cell counts; or it returns an error for an invalid key, or because
its transaction failed, and changes nothing. -/
def RowOp.Writes (op : RowOp) (cells : Cells) (result : Except StorageError Unit)
    (cells' : Cells) : Prop :=
  (result = .ok () ∧ (∀ p ∈ op.mentions, p.ValidKey) ∧ cells' = assign cells op.assigns) ∨
    ((∃ err, result = .error (.tableKey err)) ∧ (∃ p ∈ op.mentions, ¬p.ValidKey) ∧
      cells' = cells) ∨
    op.fails = true ∧ result = .error .lmdb ∧ cells' = cells

/-- **What a call is for.** `table_rows` returns the rows that have a cell under one of the columns,
strictly increasing in the numeric lexicographic order. -/
def RowOp.Meets (op : RowOp) (cells : Cells) (answer : RowAnswer) (cells' : Cells) : Prop :=
  match op with
  | .tableRows columns => cells' = cells ∧ ∃ rows, answer = .rows (.ok rows) ∧
      rows.Pairwise (fun a b => compare a b = .lt) ∧
      ∀ inst, inst ∈ rows ↔ ∃ c ∈ columns, cells (c, inst) ≠ none
  | _ => ∃ result, answer = .done result ∧ op.Writes cells result cells'

/-- A run of calls, each with what it returned, leads from cells to cells. -/
def MeetsAll : Cells → List (RowOp × RowAnswer) → Cells → Prop
  | cells, [], cells' => cells' = cells
  | cells, (op, answer) :: rest, cells'' =>
    ∃ cells', op.Meets cells answer cells' ∧ MeetsAll cells' rest cells''

/-! ### What the code does -/

/-- A call on the store. -/
def RowOp.exec (db : Lmdb) : RowOp → RowAnswer × Lmdb
  | .putRow fails inst cells =>
    let r := AgentxSubagent.putRow fails inst (cells.map fun c => (c.1.name, c.2)) db
    (.done r.1, r.2)
  | .deleteRow fails inst columns =>
    let r := AgentxSubagent.deleteRow fails inst (columns.map ColumnName.name) db
    (.done r.1, r.2)
  | .tableRows columns =>
    (.rows (AgentxSubagent.tableRows db (columns.map ColumnName.name)), db)

/-- Calls one after the other, each with what it returned. -/
def execAll : Lmdb → List RowOp → List (RowOp × RowAnswer) × Lmdb
  | db, [] => ([], db)
  | db, op :: ops =>
    let r := op.exec db
    let rest := execAll r.2 ops
    ((op, r.1) :: rest.1, rest.2)

/-! ### Cells and keys -/

/-- The key of a cell. -/
def cellKeyOf (p : CellAt) : Bytes := cellKey p.1.name p.2

/-- **A key determines its cell.** -/
theorem cellKeyOf_injective : Function.Injective cellKeyOf := by
  rintro ⟨⟨name, hne, hdot, hutf⟩, inst⟩ ⟨⟨name', hne', hdot', hutf'⟩, inst'⟩ h
  obtain ⟨rfl, rfl⟩ := cellKey_inj hdot hdot' h
  rfl

/-- Rust builds the key of a cell exactly when it is valid. -/
theorem Table.cellKey_ok_iff (p : CellAt) :
    Table.cellKey p.1.name p.2 = .ok (cellKeyOf p) ↔ p.ValidKey := by
  rw [Table.cellKey_eq_ok_iff]
  constructor
  · rintro ⟨-, -, hne, -, hle⟩
    exact ⟨hne, hle⟩
  · rintro ⟨hne, hle⟩
    exact ⟨p.1.ne_nil, p.1.dot_free, hne, rfl, hle⟩

/-- The key of a cell is text. -/
theorem validUtf8_cellKeyOf (p : CellAt) : validUtf8 (cellKeyOf p) = true := by
  have hdigits : ∀ n : ℕ, ∀ b ∈ decimal n, b.toNat < 128 := by
    intro n b hb
    have hdigit := isDigit_iff.mp (isDigit_of_mem_decimal hb)
    omega
  have htext : ∀ b ∈ 46 :: instanceText p.2, b.toNat < 128 := by
    rcases p.2 with _ | ⟨x, l⟩
    · simp [instanceText]
    · rw [instanceText_cons]
      intro b hb
      simp only [List.mem_cons, List.mem_append, List.mem_flatMap] at hb
      obtain rfl | hb | ⟨y, -, rfl | hb⟩ := hb
      · decide
      · exact hdigits _ b hb
      · decide
      · exact hdigits _ b hb
  rw [validUtf8, ByteArray.validateUTF8_eq_true_iff]
  exact Utf8.isValidUTF8_append (ByteArray.validateUTF8_eq_true_iff.mp p.1.utf8) htext

/-- **The store represents cells**: a cell is there under its key, encoded, and every key is that of
a cell. -/
structure RepresentsCells (db : Lmdb) (cells : Cells) : Prop where
  cell : ∀ p, db[cellKeyOf p]? = (cells p).map Value.encode
  key : ∀ k ∈ db, ∃ p : CellAt, p.2 ≠ [] ∧ k = cellKeyOf p

theorem representsCells_empty : RepresentsCells ∅ fun _ => none where
  cell := by simp
  key := fun k hk => absurd hk Std.ExtTreeMap.not_mem_empty

/-! ### Every call keeps the store representing its cells -/

section Step

variable {db db' : Lmdb} {cells : Cells}

/-- **Assignments to cells are assignments to their keys.** -/
theorem RepresentsCells.assign (h : RepresentsCells db cells) {l : List (CellAt × Option Value)}
    (hl : ∀ p ∈ l, p.1.2 ≠ [])
    (hdb : (fun k : Bytes => db'[k]?) =
      Assign.assign (fun k => db[k]?) (l.map fun p => (cellKeyOf p.1, p.2.map Value.encode))) :
    RepresentsCells db' (Assign.assign cells l) where
  cell := by
    intro p
    have hkey := congrFun hdb (cellKeyOf p)
    exact hkey.trans (assign_map cellKeyOf_injective (Option.map Value.encode) h.cell l p)
  key := by
    intro k hk
    by_cases hin : k ∈ (l.map fun p => (cellKeyOf p.1, p.2.map Value.encode)).map Prod.fst
    · rw [List.map_map] at hin
      obtain ⟨p, hp, rfl⟩ := List.mem_map.mp hin
      exact ⟨p.1, hl p hp, rfl⟩
    · -- a key that is not assigned was there before
      have hsame := (congrFun hdb k).trans (assign_of_not_mem hin)
      refine h.key k ?_
      rw [Std.ExtTreeMap.mem_iff_isSome_getElem?] at hk ⊢
      rwa [← hsame]

/-- **Keys first, then one transaction**: a call that builds all its keys before it commits does all
or nothing. -/
theorem RepresentsCells.writes (h : RepresentsCells db cells) (op : RowOp) {β : Type}
    {loop : Except TableKeyError β} {entries : β} {r : Except StorageError Unit × Lmdb}
    (hloop : ∀ e, loop = .ok e ↔ (∀ p ∈ op.mentions, p.ValidKey) ∧ e = entries)
    (herr : ∀ err, loop = .error err → r = (.error (.tableKey err), db))
    (hfail : loop = .ok entries → op.fails = true → r = (.error .lmdb, db))
    (hok : loop = .ok entries → op.fails = false → r.1 = .ok () ∧
      (fun k : Bytes => r.2[k]?) = Assign.assign (fun k => db[k]?)
        (op.assigns.map fun p => (cellKeyOf p.1, p.2.map Value.encode))) :
    ∃ cells', op.Writes cells r.1 cells' ∧ RepresentsCells r.2 cells' := by
  rcases hcase : loop with err | e
  · rw [herr err hcase]
    refine ⟨cells, Or.inr (Or.inl ⟨⟨err, rfl⟩, ?_, rfl⟩), h⟩
    -- were all keys valid, the loop would have built them
    by_contra hall
    push Not at hall
    rw [(hloop entries).mpr ⟨hall, rfl⟩] at hcase
    exact absurd hcase (by simp)
  · obtain ⟨hvalid, rfl⟩ := (hloop e).mp hcase
    rcases hf : op.fails with _ | _
    · obtain ⟨hdone, hdb⟩ := hok hcase hf
      refine ⟨_, Or.inl ⟨hdone, hvalid, rfl⟩, h.assign (fun p hp => ?_) hdb⟩
      exact (hvalid p.1 (List.mem_map_of_mem hp)).1
    · rw [hfail hcase hf]
      exact ⟨cells, Or.inr (Or.inr ⟨hf, rfl, rfl⟩), h⟩

/-- **`put_row` does all or nothing.** -/
theorem putRow_meets (h : RepresentsCells db cells) (fails : Bool) (inst : List UInt32)
    (items : List (ColumnName × Value)) :
    ∃ cells', (RowOp.putRow fails inst items).Writes cells
        (putRow fails inst (items.map fun c => (c.1.name, c.2)) db).1 cells' ∧
      RepresentsCells (putRow fails inst (items.map fun c => (c.1.name, c.2)) db).2 cells' := by
  have hloop : ∀ entries, putRowLoop inst (items.map fun c => (c.1.name, c.2)) [] = .ok entries ↔
      (∀ p ∈ (RowOp.putRow fails inst items).mentions, p.ValidKey) ∧
        entries = items.map fun c => (cellKeyOf (c.1, inst), c.2.encode) := by
    intro entries
    rw [putRowLoop_eq_ok_iff, RowOp.mentions, RowOp.assigns]
    simp only [List.forall_mem_map, List.map_map, ← Table.cellKey_ok_iff]
    rfl
  refine h.writes (.putRow fails inst items) hloop ?_ ?_ ?_
  · intro err herr
    rw [putRow, herr]
  · intro hkeys hf
    rw [putRow, hkeys]
    exact if_pos hf
  · intro hkeys hf
    obtain rfl : fails = false := hf
    rw [putRow, hkeys]
    refine ⟨rfl, (getElem?_foldl_insert _ db).trans ?_⟩
    rw [RowOp.assigns, List.map_map, List.map_map]
    rfl

/-- **So does `delete_row`.** -/
theorem deleteRow_meets (h : RepresentsCells db cells) (fails : Bool) (inst : List UInt32)
    (columns : List ColumnName) :
    ∃ cells', (RowOp.deleteRow fails inst columns).Writes cells
        (deleteRow fails inst (columns.map ColumnName.name) db).1 cells' ∧
      RepresentsCells (deleteRow fails inst (columns.map ColumnName.name) db).2 cells' := by
  have hloop : ∀ keys, deleteRowLoop inst (columns.map ColumnName.name) [] = .ok keys ↔
      (∀ p ∈ (RowOp.deleteRow fails inst columns).mentions, p.ValidKey) ∧
        keys = columns.map fun c => cellKeyOf (c, inst) := by
    intro keys
    rw [deleteRowLoop_eq_ok_iff, RowOp.mentions, RowOp.assigns]
    simp only [List.forall_mem_map, List.map_map, ← Table.cellKey_ok_iff]
    rfl
  refine h.writes (.deleteRow fails inst columns) hloop ?_ ?_ ?_
  · intro err herr
    rw [deleteRow, herr]
  · intro hkeys hf
    rw [deleteRow, hkeys]
    exact if_pos hf
  · intro hkeys hf
    obtain rfl : fails = false := hf
    rw [deleteRow, hkeys]
    refine ⟨rfl, (getElem?_foldl_erase _ db).trans ?_⟩
    rw [RowOp.assigns, List.map_map, List.map_map]
    rfl

/-- **`table_rows` lists the rows that have a cell.** -/
theorem tableRows_meets (h : RepresentsCells db cells) (columns : List ColumnName) :
    ∃ rows, tableRows db (columns.map ColumnName.name) = .ok rows ∧
      rows.Pairwise (fun a b => compare a b = .lt) ∧
      ∀ inst, inst ∈ rows ↔ ∃ c ∈ columns, cells (c, inst) ≠ none := by
  have hutf : ∀ k ∈ db, validUtf8 k = true := by
    intro k hk
    obtain ⟨p, -, rfl⟩ := h.key k hk
    exact validUtf8_cellKeyOf p
  obtain ⟨rows, hrows, hsorted, hmem⟩ := tableRows_ok hutf (columns.map ColumnName.name)
  refine ⟨rows, hrows, hsorted, fun inst => ?_⟩
  rw [hmem]
  simp only [List.mem_map, exists_exists_and_eq_and]
  constructor
  · rintro ⟨-, c, hc, hkey⟩
    refine ⟨c, hc, fun hnone => ?_⟩
    have hcell := h.cell (c, inst)
    rw [hnone, Option.map_none] at hcell
    rw [Std.ExtTreeMap.mem_iff_isSome_getElem?, show db[cellKey c.name inst]? = none from hcell]
      at hkey
    exact absurd hkey (by simp)
  · rintro ⟨c, hc, hsome⟩
    have hkey : cellKeyOf (c, inst) ∈ db := by
      rw [Std.ExtTreeMap.mem_iff_isSome_getElem?, h.cell (c, inst), Option.isSome_map]
      exact Option.isSome_iff_ne_none.mpr hsome
    obtain ⟨p, hne, hp⟩ := h.key _ hkey
    obtain rfl := cellKeyOf_injective hp
    exact ⟨hne, c, hc, hkey⟩

/-- **A call meets its description**, and the store goes on representing its cells. -/
theorem RowOp.exec_meets (h : RepresentsCells db cells) (op : RowOp) :
    ∃ cells', op.Meets cells (op.exec db).1 cells' ∧ RepresentsCells (op.exec db).2 cells' := by
  cases op with
  | putRow fails inst items =>
    obtain ⟨cells', hwrites, hrep⟩ := putRow_meets h fails inst items
    exact ⟨cells', ⟨_, rfl, hwrites⟩, hrep⟩
  | deleteRow fails inst columns =>
    obtain ⟨cells', hwrites, hrep⟩ := deleteRow_meets h fails inst columns
    exact ⟨cells', ⟨_, rfl, hwrites⟩, hrep⟩
  | tableRows columns =>
    obtain ⟨rows, hok, hsorted, hmem⟩ := tableRows_meets h columns
    exact ⟨cells, ⟨rfl, rows, congrArg RowAnswer.rows hok, hsorted, hmem⟩, h⟩

end Step

/-- So does every run. -/
theorem execAll_meets (ops : List RowOp) : ∀ {db : Lmdb} {cells : Cells}, RepresentsCells db cells →
    ∃ cells', MeetsAll cells (execAll db ops).1 cells' ∧
      RepresentsCells (execAll db ops).2 cells' := by
  induction ops with
  | nil => exact fun h => ⟨_, rfl, h⟩
  | cons op ops ih =>
    intro db cells h
    obtain ⟨cells₁, hmeets, hrep⟩ := op.exec_meets h
    obtain ⟨cells₂, hrest, hrep'⟩ := ih hrep
    exact ⟨cells₂, ⟨cells₁, hmeets, hrest⟩, hrep'⟩

/-! ### Rows and their neighbours -/

/-- A call does not change a cell it does not mention. -/
theorem RowOp.Meets.frame {op : RowOp} {cells cells' : Cells} {answer : RowAnswer}
    (h : op.Meets cells answer cells') {p : CellAt} (hp : p ∉ op.mentions) :
    cells' p = cells p := by
  have hwrites : ∀ result, op.Writes cells result cells' → cells' p = cells p := by
    rintro result (⟨-, -, rfl⟩ | ⟨-, -, rfl⟩ | ⟨-, -, rfl⟩)
    · exact assign_of_not_mem hp
    · rfl
    · rfl
  cases op with
  | tableRows columns => rw [h.1]
  | putRow fails inst items =>
    obtain ⟨result, -, hw⟩ := h
    exact hwrites result hw
  | deleteRow fails inst columns =>
    obtain ⟨result, -, hw⟩ := h
    exact hwrites result hw

/-- Deleting keys again changes nothing. -/
theorem foldl_erase_idem (keys : List Bytes) (db : Lmdb) :
    keys.foldl (fun db k => db.erase k) (keys.foldl (fun db k => db.erase k) db) =
      keys.foldl (fun db k => db.erase k) db := by
  refine Std.ExtTreeMap.ext_getElem? fun k => ?_
  have hagain := congrFun (getElem?_foldl_erase keys (keys.foldl (fun db k => db.erase k) db)) k
  have honce := congrFun (getElem?_foldl_erase keys db) k
  by_cases hk : k ∈ (keys.map fun k => (k, (none : Option Bytes))).map Prod.fst
  · -- every assignment to a key is its absence
    have habsent : ∀ s : Bytes → Option Bytes,
        Assign.assign s (keys.map fun k => (k, (none : Option Bytes))) k = none := by
      intro s
      obtain ⟨c, hc, hval⟩ := exists_assign_eq hk s
      obtain ⟨_, -, heq⟩ := List.mem_map.mp hc
      exact hval.trans (Prod.mk.inj heq).2.symm
    exact (hagain.trans (habsent _)).trans (honce.trans (habsent _)).symm
  · exact hagain.trans (assign_of_not_mem hk)

/-- **`delete_row` is idempotent.** -/
theorem deleteRow_idem (inst : List UInt32) (columns : List Bytes) (db : Lmdb) :
    deleteRow false inst columns (deleteRow false inst columns db).2 =
      deleteRow false inst columns db := by
  rw [deleteRow, deleteRow]
  rcases deleteRowLoop inst columns [] with err | keys
  · rfl
  · exact congrArg (Prod.mk _) (foldl_erase_idem keys db)

/-- **The life of rows refines a set of cells.** Every run of calls on an empty store meets the
description of `RowOp.Meets`, call by call, over some cells that the store then represents; from
there `delete_row` twice is `delete_row` once, and no call changes a cell it does not mention. -/
theorem row_lifecycle (ops : List RowOp) :
    ∃ cells, MeetsAll (fun _ => none) (execAll ∅ ops).1 cells ∧
      RepresentsCells (execAll ∅ ops).2 cells ∧
      (∀ inst columns, deleteRow false inst columns
          (deleteRow false inst columns (execAll ∅ ops).2).2 =
        deleteRow false inst columns (execAll ∅ ops).2) ∧
      ∀ (op : RowOp) (p : CellAt), p ∉ op.mentions →
        (op.exec (execAll ∅ ops).2).2[cellKeyOf p]? = (execAll ∅ ops).2[cellKeyOf p]? := by
  obtain ⟨cells, hmeets, hrep⟩ := execAll_meets ops representsCells_empty
  refine ⟨cells, hmeets, hrep, fun inst columns => deleteRow_idem inst columns _,
    fun op p hp => ?_⟩
  obtain ⟨cells', hop, hrep'⟩ := op.exec_meets hrep
  rw [hrep'.cell, hrep.cell, hop.frame hp]

end AgentxSubagent
