import AgentxSubagent.Agent.ScalarSet
import AgentxSubagent.Lib.Assign
import AgentxSubagent.Lib.ForEach

/-!
# SET of table cells

The SET branches that `mib2c/mib2c.dbtable.conf` emits, as they stand for `portConfigTable`
in `src/generated/demo_config_table.c`. A handler is called once per phase with all the
requests of the PDU; `AgentxSubagent.handleCell` is what it does for one of them, and
`AgentxSubagent.handlePortConfigTable` the loop.

RESERVE2 stashes the previous state of a cell, absence included, so UNDO can write the value
back or delete the cell again. `AgentxSubagent.runTableSet` drives the phases as net-snmp
does: RESERVE1 and RESERVE2 on all requests, FREE at the first error, ACTION on all
requests, and then UNDO or COMMIT.

* `AgentxSubagent.table_set_all_or_nothing`: a PDU that ends in FREE or UNDO leaves every
  cell reading as before, and one that ends in COMMIT leaves every cell it names with the
  value of the last varbind that names it, and no other key changed.

The writes of ACTION and those of UNDO are two sequences of assignments, and the second
takes the first back by `Assign.restore`.
-/

namespace AgentxSubagent

open Assign ForEach

/-! ### Requests -/

/-- A `netsnmp_table_request_info`: the column number, and the sub-identifiers
`build_oid_noalloc` makes of the indexes, unless it fails. -/
structure TableInfo where
  colnum : ℕ
  indexes : Option (List ℕ)
  deriving DecidableEq

/-- `table_instance_from_indexes`. -/
def tableInstanceFromIndexes (t : TableInfo) : Option TableInstance := do
  let subids ← t.indexes
  if subids.length = 0 ∨ subids.length > tableRowSubidMax then none
  else subids.mapM fun x => if x > 0xFFFFFFFF then none else some (.ofNat x)

/-- A varbind of a SET as it reaches the handler: the table info and the iterator context
that net-snmp attached to it, and its value. -/
structure TableVarbind where
  tableInfo : Option TableInfo
  iteratorContext : Bool
  requestvb : AsnValue
  deriving DecidableEq

/-- `struct undo_$c`: the key of a cell, whether it existed, and its value. -/
structure UndoCell where
  key : Bytes
  existed : Bool
  value : Value

/-- A `netsnmp_request_info` as the table handler uses it: the varbind, the list data
`undo_$c` of each column, and the error set so far. -/
structure TableRequest where
  vb : TableVarbind
  undo : PortColumn → Option UndoCell
  status : Option SnmpErr

/-- A request as it arrives. -/
def TableRequest.fresh (vb : TableVarbind) : TableRequest := ⟨vb, fun _ => none, none⟩

/-- `netsnmp_set_request_error`. -/
def TableRequest.setError (r : TableRequest) (e : SnmpErr) : TableRequest :=
  { r with status := some e }

/-- `netsnmp_request_add_list_data` and `netsnmp_request_remove_list_data`. -/
def TableRequest.setUndo (r : TableRequest) (c : PortColumn) (u : Option UndoCell) :
    TableRequest :=
  { r with undo := Function.update r.undo c u }

/-- The column number and the row of a varbind that net-snmp matched to a row. -/
def TableVarbind.row (vb : TableVarbind) : Option (ℕ × TableInstance) :=
  match vb.tableInfo with
  | none => none
  | some t =>
    if !vb.iteratorContext then none
    else (tableInstanceFromIndexes t).map fun inst => (t.colnum, inst)

/-- What fails for one request: the read and the allocation of RESERVE2, the write of
ACTION, and the write or deletion of each column's UNDO. -/
structure CellFaults where
  read : ReadFault
  write : Fault
  undo : PortColumn → Fault

/-- Nothing fails. -/
def CellFaults.none : CellFaults := ⟨.none, .none, fun _ => .none⟩

/-! ### The handler -/

/-- What MODE_SET_UNDO does with a stash: the value is written back, or the cell is deleted
again; one that is not there need not be. -/
def restoreCell (f : Fault) (envs : Envs) (id : EnvId) (u : UndoCell) :
    Except StorageErr Unit × Envs :=
  if u.existed then envs.setValue f id u.key u.value
  else
    match envs.delete f id u.key with
    | (.error .notFound, envs') => (.ok (), envs')
    | other => other

section Handler

variable (m : Modes) (f : CellFaults)

/-- MODE_SET_RESERVE1 for one request. -/
def cellReserve1 (r : TableRequest) : TableRequest :=
  match r.vb.tableInfo with
  | none => r.setError .genErr
  | some t =>
    if !r.vb.iteratorContext then r.setError .noCreation
    else
      match PortColumn.ofColnum t.colnum with
      | none => r.setError .notWritable
      | some c =>
        match (c.object m).syn.reserve1 r.vb.requestvb with
        | some e => r.setError e
        | none => r

/-- MODE_SET_RESERVE2 for one request. -/
def cellReserve2 (envs : Envs) (r : TableRequest) : TableRequest :=
  match r.vb.row with
  | none => r.setError .genErr
  | some (colnum, inst) =>
    match PortColumn.ofColnum colnum with
    | none => r
    | some c =>
      if f.read.fault.nomem then r.setError .resourceUnavailable
      else
        match tableCellKey c.name inst (storageKeyMax + 1) with
        | .error _ => r.setError .genErr
        | .ok key =>
          match envs.getAs f.read.fault (c.object m).mode.env (c.object m).syn.type key
              (c.object m).syn.buflen with
          | .ok v => r.setUndo c (some ⟨key, true, v⟩)
          | .error .notFound => r.setUndo c (some ⟨key, false, (c.object m).syn.zero⟩)
          | .error _ => r.setError .resourceUnavailable

/-- MODE_SET_ACTION for one request. -/
def cellAction (envs : Envs) (r : TableRequest) : TableRequest × Envs :=
  match r.vb.row with
  | none => (r.setError .genErr, envs)
  | some (colnum, inst) =>
    match PortColumn.ofColnum colnum with
    | none => (r, envs)
    | some c =>
      match tableCellKey c.name inst (storageKeyMax + 1) with
      | .error _ => (r.setError .genErr, envs)
      | .ok key =>
        match (c.object m).syn.newValue r.vb.requestvb with
        -- RESERVE1 has refused a varbind of another type
        | none => (r, envs)
        | some v =>
          match envs.setValue f.write (c.object m).mode.env key v with
          | (.error _, envs') => (r.setError .commitFailed, envs')
          | (.ok _, envs') => (r, envs')

/-- The block of MODE_SET_UNDO for one column. -/
def undoColumn (c : PortColumn) (envs : Envs) (r : TableRequest) : TableRequest × Envs :=
  match r.undo c with
  | none => (r, envs)
  | some u =>
    match restoreCell (f.undo c) envs (c.object m).mode.env u with
    | (.error _, envs') => ((r.setError .undoFailed).setUndo c none, envs')
    | (.ok _, envs') => (r.setUndo c none, envs')

/-- MODE_SET_UNDO for one request. -/
def cellUndo (envs : Envs) (r : TableRequest) : TableRequest × Envs :=
  let (r, envs) := undoColumn m f .portDescr envs r
  let (r, envs) := undoColumn m f .portAdminStatus envs r
  undoColumn m f .portAlarmThresholdMilliC envs r

/-- MODE_SET_FREE and MODE_SET_COMMIT for one request. -/
def cellRelease (r : TableRequest) : TableRequest :=
  ((r.setUndo .portDescr none).setUndo .portAdminStatus none).setUndo
    .portAlarmThresholdMilliC none

/-- The body of the loop of each mode. -/
def handleCell (mode : SetMode) (envs : Envs) (r : TableRequest) : TableRequest × Envs :=
  match mode with
  | .reserve1 => (cellReserve1 m r, envs)
  | .reserve2 => (cellReserve2 m f envs r, envs)
  | .free => (cellRelease r, envs)
  | .action => cellAction m f envs r
  | .commit => (cellRelease r, envs)
  | .undo => cellUndo m f envs r

end Handler

/-- `handle_portConfigTable` in the SET modes; `f i` is what fails for the `i`-th request. -/
def handlePortConfigTable (m : Modes) (f : ℕ → CellFaults) (mode : SetMode)
    (requests : List TableRequest) (envs : Envs) : List TableRequest × Envs :=
  forEach (fun i => handleCell m (f i) mode) 0 requests envs

/-! ### The phases -/

/-- How a SET ends. -/
inductive SetEnd
  | free
  | undo
  | commit
  deriving DecidableEq

/-- Some request of the PDU has an error set. -/
def anyError (rs : List TableRequest) : Bool := rs.any fun r => r.status.isSome

/-- **A SET of table cells**, phase by phase: how it ends, and the contents it leaves. The
three functions say what fails in RESERVE2, ACTION and UNDO. -/
def runTableSet (m : Modes) (freserve faction fundo : ℕ → CellFaults) (envs : Envs)
    (vbs : List TableVarbind) : SetEnd × Envs :=
  let (rs, envs) := handlePortConfigTable m freserve .reserve1 (vbs.map .fresh) envs
  if anyError rs then (.free, (handlePortConfigTable m freserve .free rs envs).2)
  else
    let (rs, envs) := handlePortConfigTable m freserve .reserve2 rs envs
    if anyError rs then (.free, (handlePortConfigTable m freserve .free rs envs).2)
    else
      let (rs, envs) := handlePortConfigTable m faction .action rs envs
      if anyError rs then (.undo, (handlePortConfigTable m fundo .undo rs envs).2)
      else (.commit, (handlePortConfigTable m faction .commit rs envs).2)

/-! ### One request at a time -/

/-- The cell a varbind names. -/
def TableVarbind.cell (vb : TableVarbind) : Option (PortColumn × TableInstance) := do
  let (colnum, inst) ← vb.row
  let c ← PortColumn.ofColnum colnum
  some (c, inst)

/-- What UNDO makes of a cell: the value stashed, or nothing. -/
def UndoCell.content (u : UndoCell) : Option Bytes :=
  if u.existed then some u.value.encode else none

/-- **The stash records the state of a cell.** -/
structure UndoCell.Records (u : UndoCell) (m : Modes) (envs : Envs) (c : PortColumn)
    (inst : TableInstance) : Prop where
  key : tableCellKey c.name inst (storageKeyMax + 1) = .ok u.key
  existed : u.existed = true → ∃ data, envs.stored (c.cellLoc m inst) = some data ∧
    (readAs (c.object m).syn.type (c.object m).syn.buflen data).1 = .ok u.value
  absent : u.existed = false → envs.stored (c.cellLoc m inst) = none

/-- A key that was built is the key of the cell, and a valid one. -/
theorem validKey_of_tableCellKey {column : Bytes} {inst : TableInstance} {key : Bytes}
    (h : tableCellKey column inst (storageKeyMax + 1) = .ok key) :
    key = cellKey column inst ∧ ValidKey key := by
  obtain ⟨-, -, -, rfl, -, hlen⟩ := tableCellKey_eq_ok_iff.mp h
  refine ⟨rfl, ?_, hlen⟩
  rw [cellKey, List.length_append, List.length_cons]
  omega

/-- Writing the stash back makes the cell read as it did. -/
theorem UndoCell.Records.readsAlike {u : UndoCell} {m : Modes} {envs : Envs} {c : PortColumn}
    {inst : TableInstance} (h : u.Records m envs c inst) :
    ReadsAlike (envs.stored (c.cellLoc m inst)) u.content := by
  rcases hu : u.existed with _ | _
  · rw [h.absent hu, readsAlike_none_iff, UndoCell.content, hu]
    rfl
  · obtain ⟨data, hdata, hread⟩ := h.existed hu
    rw [hdata, UndoCell.content, hu]
    exact readsAlike_encode hread

section OneRequest

variable {m : Modes} {f : CellFaults} {envs : Envs} {r : TableRequest}

/-- What RESERVE1 lets through: a varbind matched to a row, in a column whose SYNTAX accepts
its value. -/
def Writable (m : Modes) (vb : TableVarbind) : Prop :=
  ∃ t c, vb.tableInfo = some t ∧ vb.iteratorContext = true ∧
    PortColumn.ofColnum t.colnum = some c ∧ (c.object m).syn.reserve1 vb.requestvb = none

theorem cellReserve1_cases :
    (∃ e, cellReserve1 m r = r.setError e) ∨ Writable m r.vb ∧ cellReserve1 m r = r := by
  unfold cellReserve1
  rcases ht : r.vb.tableInfo with _ | t
  · exact Or.inl ⟨_, rfl⟩
  · rcases hctx : r.vb.iteratorContext with _ | _
    · exact Or.inl ⟨_, rfl⟩
    · rcases hc : PortColumn.ofColnum t.colnum with _ | c
      · exact Or.inl ⟨.notWritable, by simp [hc]⟩
      · rcases hv : (c.object m).syn.reserve1 r.vb.requestvb with _ | e
        · exact Or.inr ⟨⟨t, c, ht, hctx, hc, hv⟩, by simp [hc, hv]⟩
        · exact Or.inl ⟨e, by simp [hc, hv]⟩

theorem cellReserve1_vb : (cellReserve1 m r).vb = r.vb := by
  obtain ⟨e, h⟩ | ⟨-, h⟩ := cellReserve1_cases (m := m) (r := r)
  · rw [h, TableRequest.setError]
  · rw [h]

/-- **What RESERVE2 does to a request that passed RESERVE1**: it sets an error, or it stashes
the state of the cell the varbind names. -/
theorem cellReserve2_cases (hw : Writable m r.vb) :
    (∃ e, cellReserve2 m f envs r = r.setError e) ∨
      ∃ c inst u, r.vb.cell = some (c, inst) ∧
        (c.object m).syn.reserve1 r.vb.requestvb = none ∧ u.Records m envs c inst ∧
        cellReserve2 m f envs r = r.setUndo c (some u) := by
  obtain ⟨t, c, ht, hctx, hc, hv⟩ := hw
  rcases hinst : tableInstanceFromIndexes t with _ | inst
  · have hrow : r.vb.row = none := by simp [TableVarbind.row, ht, hctx, hinst]
    exact Or.inl ⟨.genErr, by rw [cellReserve2, hrow]⟩
  · have hrow : r.vb.row = some (t.colnum, inst) := by
      simp [TableVarbind.row, ht, hctx, hinst]
    have hcell : r.vb.cell = some (c, inst) := by simp [TableVarbind.cell, hrow, hc]
    simp only [cellReserve2, hrow, hc]
    split_ifs with hmem
    · exact Or.inl ⟨_, rfl⟩
    · rcases hkey : tableCellKey c.name inst (storageKeyMax + 1) with rc | key
      · exact Or.inl ⟨_, rfl⟩
      · obtain ⟨rfl, -⟩ := validKey_of_tableCellKey hkey
        simp only
        rcases hget : envs.getAs f.read.fault (c.object m).mode.env (c.object m).syn.type
          (cellKey c.name inst) (c.object m).syn.buflen with rc | v
        · by_cases hrc : rc = .notFound
          · subst hrc
            have habs : envs.stored (c.cellLoc m inst) = none := (Envs.getAs_notFound hget).2
            exact Or.inr ⟨c, inst, _, hcell, hv, ⟨hkey, by simp, fun _ => habs⟩, rfl⟩
          · refine Or.inl ⟨.resourceUnavailable, ?_⟩
            cases rc <;> first | exact absurd rfl hrc | rfl
        · obtain ⟨-, data, hdata, hread⟩ := Envs.getAs_ok hget
          exact Or.inr ⟨c, inst, _, hcell, hv, ⟨hkey, fun _ => ⟨data, hdata, hread⟩, by simp⟩, rfl⟩

theorem cellReserve2_vb : (cellReserve2 m f envs r).vb = r.vb := by
  unfold cellReserve2
  repeat' split
  all_goals rfl

/-- **A request ready for ACTION**: it names a cell, its value is accepted, and the one stash
it carries records what the cell held before. -/
def Reserved (m : Modes) (before : Envs) (r : TableRequest) : Prop :=
  ∃ c inst u, r.vb.cell = some (c, inst) ∧ (c.object m).syn.reserve1 r.vb.requestvb = none ∧
    u.Records m before c inst ∧ r.undo = Function.update (fun _ => none) c (some u)

/-- Being reserved is about the varbind and the stashes, not about the status. -/
theorem Reserved.congr {before : Envs} {r' : TableRequest} (h : Reserved m before r)
    (he : (r'.vb, r'.undo) = (r.vb, r.undo)) : Reserved m before r' := by
  obtain ⟨hvb, hundo⟩ := Prod.mk.inj he
  unfold Reserved at h ⊢
  rwa [hvb, hundo]

/-- The assignment a varbind stands for: its cell, and the encoding of its value. -/
def TableVarbind.write (m : Modes) (vb : TableVarbind) : Option (Loc × Option Bytes) := do
  let (c, inst) ← vb.cell
  let v ← (c.object m).syn.newValue vb.requestvb
  some (c.cellLoc m inst, some v.encode)

/-- The assignment the stash of a column stands for. -/
def TableRequest.restoration (m : Modes) (r : TableRequest) (c : PortColumn) :
    Option (Loc × Option Bytes) :=
  (r.undo c).map fun u => (((c.object m).mode.env, u.key), u.content)

/-- The assignments UNDO makes for a request. -/
def TableRequest.restorations (m : Modes) (r : TableRequest) : List (Loc × Option Bytes) :=
  (r.restoration m .portDescr).toList ++ ((r.restoration m .portAdminStatus).toList ++
    (r.restoration m .portAlarmThresholdMilliC).toList)

/-- **A reserved request is undone where it writes**, and what it is undone to reads like what
was there before. -/
theorem Reserved.restorations {before : Envs} (h : Reserved m before r) :
    ∃ l data content, r.vb.write m = some (l, data) ∧ r.restorations m = [(l, content)] ∧
      ReadsAlike (before.stored l) content := by
  obtain ⟨c, inst, u, hcell, hv, hrec, hundo⟩ := h
  obtain ⟨v, hnew, -⟩ := Syn.accepts_of_reserve1 hv
  obtain ⟨hkey, -⟩ := validKey_of_tableCellKey hrec.key
  refine ⟨c.cellLoc m inst, some v.encode, u.content, by simp [TableVarbind.write, hcell, hnew],
    ?_, hrec.readsAlike⟩
  rw [PortColumn.cellLoc, ← hkey]
  cases c <;> simp [TableRequest.restorations, TableRequest.restoration, hundo]

/-- The keys a reserved request is undone at are valid. -/
theorem Reserved.validKey {before : Envs} (h : Reserved m before r) {c : PortColumn}
    {u : UndoCell} (hu : r.undo c = some u) : ValidKey u.key := by
  obtain ⟨c', inst, u', -, -, hrec, hundo⟩ := h
  rw [hundo] at hu
  by_cases hc : c = c'
  · subst hc
    rw [Function.update_self, Option.some.injEq] at hu
    exact hu ▸ (validKey_of_tableCellKey hrec.key).2
  · rw [Function.update_of_ne hc] at hu
    exact absurd hu (by simp)

/-- **What ACTION does to a reserved request**: it carries out the assignment, or it sets an
error and changes nothing. -/
theorem cellAction_cases {before : Envs} (hr : Reserved m before r) :
    ∃ p, r.vb.write m = some p ∧
      (cellAction m f envs r = (r.setError .commitFailed, envs) ∨
        (cellAction m f envs r).1 = r ∧
          (cellAction m f envs r).2.stored = Function.update envs.stored p.1 p.2) := by
  obtain ⟨c, inst, u, hcell, hv, hrec, -⟩ := hr
  obtain ⟨v, hnew, -⟩ := Syn.accepts_of_reserve1 hv
  obtain ⟨hkey, -⟩ := validKey_of_tableCellKey hrec.key
  refine ⟨(c.cellLoc m inst, some v.encode), by simp [TableVarbind.write, hcell, hnew], ?_⟩
  rcases hrow : r.vb.row with _ | ⟨colnum, inst'⟩
  · rw [TableVarbind.cell, hrow] at hcell
    exact absurd hcell (by simp)
  · obtain ⟨hc, rfl⟩ : PortColumn.ofColnum colnum = some c ∧ inst' = inst := by
      simpa [TableVarbind.cell, hrow, Option.bind_eq_some_iff] using hcell
    simp only [cellAction, hrow, hc, hrec.key, hnew]
    obtain ⟨rc, hset⟩ | ⟨-, hset⟩ := envs.setValue_cases f.write (c.object m).mode.env u.key v
    · rw [hset]
      exact Or.inl rfl
    · rw [hset]
      refine Or.inr ⟨rfl, ?_⟩
      rw [hkey]
      exact envs.stored_put _ _

/-- ACTION leaves the varbind and the stashes of a request. -/
theorem cellAction_keeps : ((cellAction m f envs r).1.vb, (cellAction m f envs r).1.undo) =
    (r.vb, r.undo) := by
  unfold cellAction
  repeat' split
  all_goals rfl

/-- What the block of UNDO for one column leaves of the other stashes. -/
theorem undoColumn_undo {c d : PortColumn} (hd : d ≠ c) {r' : TableRequest} {envs' : Envs}
    (h : undoColumn m f c envs r = (r', envs')) : r'.undo d = r.undo d := by
  obtain rfl : (undoColumn m f c envs r).1 = r' := congrArg Prod.fst h
  rw [undoColumn]
  rcases r.undo c with _ | u
  · rfl
  · simp only
    split
    all_goals exact Function.update_of_ne hd _ _

/-- What the block of UNDO for one column leaves stored. -/
theorem undoColumn_envs {c : PortColumn} {u : UndoCell} (hu : r.undo c = some u) :
    (undoColumn m f c envs r).2 = (restoreCell (f.undo c) envs (c.object m).mode.env u).2 := by
  simp only [undoColumn, hu]
  rcases restoreCell (f.undo c) envs (c.object m).mode.env u with ⟨rc | _, envs'⟩ <;> rfl

/-- What is stored after a stash is dealt with, whatever it reports. -/
theorem restoreCell_envs (g : Fault) (id : EnvId) (u : UndoCell) :
    (restoreCell g envs id u).2 =
      if u.existed then (envs.setValue g id u.key u.value).2 else (envs.delete g id u.key).2 := by
  rw [restoreCell]
  split_ifs
  · rfl
  · rcases envs.delete g id u.key with ⟨rc | _, envs'⟩
    · cases rc <;> rfl
    · rfl

/-- **The block of UNDO for one column, nothing failing**, makes the assignment of its
stash. -/
theorem undoColumn_none (hf : f.undo = fun _ => .none) {c : PortColumn}
    (hkey : ∀ u, r.undo c = some u → ValidKey u.key) {r' : TableRequest} {envs' : Envs}
    (h : undoColumn m f c envs r = (r', envs')) :
    envs'.stored = assign envs.stored (r.restoration m c).toList := by
  obtain rfl : (undoColumn m f c envs r).2 = envs' := congrArg Prod.snd h
  rw [TableRequest.restoration]
  rcases hu : r.undo c with _ | u
  · rw [undoColumn, hu]
    rfl
  · rw [undoColumn_envs hu, restoreCell_envs, hf]
    rcases he : u.existed with _ | _
    · simp [(envs.delete_none (c.object m).mode.env (hkey u hu)).1, UndoCell.content, he]
    · simp [envs.setValue_spared .none (c.object m).mode.env (hkey u hu) (Fault.none_spares _),
        UndoCell.content, he, Envs.stored_put]

/-- **UNDO for one request, nothing failing.** -/
theorem cellUndo_none (hf : f.undo = fun _ => .none)
    (hkey : ∀ c u, r.undo c = some u → ValidKey u.key) :
    (cellUndo m f envs r).2.stored = assign envs.stored (r.restorations m) := by
  rw [cellUndo, TableRequest.restorations, assign_append, assign_append]
  -- each block finds the stash of its column as the request carried it
  rcases h1 : undoColumn m f .portDescr envs r with ⟨r1, envs1⟩
  have hadmin : r1.undo .portAdminStatus = r.undo .portAdminStatus :=
    undoColumn_undo (by decide) h1
  simp only
  rcases h2 : undoColumn m f .portAdminStatus envs1 r1 with ⟨r2, envs2⟩
  have halarm : r2.undo .portAlarmThresholdMilliC = r.undo .portAlarmThresholdMilliC :=
    (undoColumn_undo (by decide) h2).trans (undoColumn_undo (by decide) h1)
  simp only
  rcases h3 : undoColumn m f .portAlarmThresholdMilliC envs2 r2 with ⟨r3, envs3⟩
  rw [undoColumn_none hf (fun u hu => hkey _ u (halarm ▸ hu)) h3,
    undoColumn_none hf (fun u hu => hkey _ u (hadmin ▸ hu)) h2, undoColumn_none hf (hkey _) h1]
  simp only [TableRequest.restoration, hadmin, halarm]

end OneRequest

/-! ### Loops over the requests -/

section Loops

variable {m : Modes}

/-- Without an error, no request has one. -/
theorem status_of_not_anyError {rs : List TableRequest} (h : anyError rs = false)
    {r : TableRequest} (hr : r ∈ rs) : r.status = none := by
  have hall : ∀ r ∈ rs, r.status.isSome = false := by simpa [anyError] using h
  exact Option.isSome_eq_false_iff.mp (hall r hr) |> Option.isNone_iff_eq_none.mp

variable {before : Envs} {f : ℕ → CellFaults}

/-- **The ACTION loop** carries out some of the assignments of its requests, in order, and
all of them when it sets no error; the stashes stay. -/
theorem forEach_action (rs : List TableRequest) :
    (∀ r ∈ rs, Reserved m before r) → ∀ (i : ℕ) (envs : Envs),
    ∃ l, l.Sublist (rs.filterMap fun r => r.vb.write m) ∧
      (forEach (fun j => cellAction m (f j)) i rs envs).2.stored = assign envs.stored l ∧
      (anyError (forEach (fun j => cellAction m (f j)) i rs envs).1 = false →
        l = rs.filterMap fun r => r.vb.write m) := by
  induction rs with
  | nil => exact fun _ i envs => ⟨[], List.Sublist.refl _, rfl, fun _ => rfl⟩
  | cons r rs ih =>
    intro hres i envs
    obtain ⟨p, hp, hact⟩ : ∃ p, _ ∧ (cellAction m (f i) envs r = _ ∨ _) :=
      cellAction_cases (hres r List.mem_cons_self)
    have hrest := ih (fun r' hr' => hres r' (List.mem_cons_of_mem r hr')) (i + 1)
    simp only [forEach_cons, List.filterMap_cons, hp]
    obtain hact | ⟨hr, hstored⟩ := hact
    · obtain ⟨l, hl, heq, -⟩ := hrest envs
      rw [hact]
      exact ⟨l, hl.cons p, heq, fun hne => absurd hne (by simp [anyError, TableRequest.setError])⟩
    · obtain ⟨l, hl, heq, hall⟩ := hrest (cellAction m (f i) envs r).2
      refine ⟨p :: l, hl.cons_cons p, ?_, fun hne => ?_⟩
      · rw [heq, hstored, assign_cons]
      · rw [hall (by simp_all [anyError])]

/-- **The UNDO loop, nothing failing**, makes the assignments of all stashes. -/
theorem forEach_undo (hf : ∀ i, (f i).undo = fun _ => .none) (rs : List TableRequest) :
    (∀ r ∈ rs, ∀ c u, r.undo c = some u → ValidKey u.key) → ∀ (i : ℕ) (envs : Envs),
    (forEach (fun j => cellUndo m (f j)) i rs envs).2.stored =
      assign envs.stored (rs.flatMap fun r => r.restorations m) := by
  induction rs with
  | nil => exact fun _ _ _ => rfl
  | cons r rs ih =>
    intro hkey i envs
    have hrest := ih (fun r' hr' => hkey r' (List.mem_cons_of_mem r hr')) (i + 1)
    simp only [forEach_cons, List.flatMap_cons, assign_append]
    rw [hrest, cellUndo_none (hf i) (hkey r List.mem_cons_self)]

end Loops

/-! ### The whole SET -/

section WholeSet

variable {m : Modes} {freserve faction fundo : ℕ → CellFaults} {envs : Envs}
  {vbs : List TableVarbind}

/-- RESERVE1, RESERVE2, FREE and COMMIT change nothing that is stored. -/
theorem handlePortConfigTable_pure (f : ℕ → CellFaults) (mode : SetMode)
    (hmode : mode ≠ .action ∧ mode ≠ .undo) (rs : List TableRequest) (envs : Envs) :
    (handlePortConfigTable m f mode rs envs).2 = envs ∧
      ∀ r' ∈ (handlePortConfigTable m f mode rs envs).1, ∃ j, ∃ r ∈ rs,
        r' = (handleCell m (f j) mode envs r).1 := by
  refine forEach_pure (fun i r => ?_) 0 rs
  cases mode with
  | action => exact absurd rfl hmode.1
  | undo => exact absurd rfl hmode.2
  | _ => rfl

variable (m freserve envs vbs) in
/-- RESERVE1 changes nothing that is stored; without an error it leaves the requests as they
arrived, all of them writable. -/
theorem reserve1_spec :
    (handlePortConfigTable m freserve .reserve1 (vbs.map .fresh) envs).2 = envs ∧
      (handlePortConfigTable m freserve .reserve1 (vbs.map .fresh) envs).1.map
        TableRequest.vb = vbs ∧
      (anyError (handlePortConfigTable m freserve .reserve1 (vbs.map .fresh) envs).1 = false →
        ∀ r ∈ (handlePortConfigTable m freserve .reserve1 (vbs.map .fresh) envs).1,
          Writable m r.vb ∧ r = .fresh r.vb) := by
  obtain ⟨henvs, hmem⟩ :=
    handlePortConfigTable_pure (m := m) freserve .reserve1 (by decide)
      (vbs.map .fresh) envs
  refine ⟨henvs, ?_, fun herr r hr => ?_⟩
  · rw [handlePortConfigTable, map_forEach fun _ _ _ => cellReserve1_vb, List.map_map]
    exact List.map_id vbs
  · obtain ⟨j, r0, hr0, hr'⟩ := hmem r hr
    obtain ⟨vb, -, rfl⟩ := List.mem_map.mp hr0
    have hstatus := status_of_not_anyError herr hr
    obtain ⟨e, he⟩ | ⟨hw, he⟩ : (∃ e, cellReserve1 m (.fresh vb) = _) ∨ _ := cellReserve1_cases
    · rw [hr', handleCell, he] at hstatus
      exact absurd hstatus (by simp [TableRequest.setError])
    · rw [handleCell, he] at hr'
      subst hr'
      exact ⟨hw, rfl⟩

variable (freserve envs) in
/-- RESERVE2 changes nothing that is stored; without an error every request is reserved. -/
theorem reserve2_spec {rs : List TableRequest}
    (h : ∀ r ∈ rs, Writable m r.vb ∧ r = .fresh r.vb) :
    (handlePortConfigTable m freserve .reserve2 rs envs).2 = envs ∧
      (handlePortConfigTable m freserve .reserve2 rs envs).1.map TableRequest.vb =
        rs.map TableRequest.vb ∧
      (anyError (handlePortConfigTable m freserve .reserve2 rs envs).1 = false →
        ∀ r ∈ (handlePortConfigTable m freserve .reserve2 rs envs).1, Reserved m envs r) := by
  obtain ⟨henvs, hmem⟩ :=
    handlePortConfigTable_pure (m := m) freserve .reserve2 (by decide) rs envs
  refine ⟨henvs, ?_, fun herr r hr => ?_⟩
  · rw [handlePortConfigTable, map_forEach fun _ _ _ => cellReserve2_vb]
  · obtain ⟨j, r0, hr0, hr'⟩ := hmem r hr
    obtain ⟨hw, hfresh⟩ := h r0 hr0
    have hstatus := status_of_not_anyError herr hr
    obtain ⟨e, he⟩ | ⟨c, inst, u, hcell, hv, hrec, he⟩ := cellReserve2_cases (f := freserve j) hw
    · rw [hr', handleCell, he] at hstatus
      exact absurd hstatus (by simp [TableRequest.setError])
    · rw [handleCell, he] at hr'
      subst hr'
      refine ⟨c, inst, u, hcell, hv, hrec, ?_⟩
      rw [TableRequest.setUndo, hfresh]
      rfl

/-- The assignments of reserved requests and those of their stashes concern the same
places. -/
theorem map_fst_restorations {before : Envs} {rs : List TableRequest}
    (h : ∀ r ∈ rs, Reserved m before r) :
    (rs.flatMap fun r => r.restorations m).map Prod.fst =
      (rs.filterMap fun r => r.vb.write m).map Prod.fst := by
  induction rs with
  | nil => rfl
  | cons r rs ih =>
    obtain ⟨l, data, content, hwrite, hrest, -⟩ := (h r List.mem_cons_self).restorations
    rw [List.flatMap_cons, List.filterMap_cons, hwrite, hrest, List.map_append,
      ih fun r' hr' => h r' (List.mem_cons_of_mem r hr')]
    rfl

/-- **ACTION and then UNDO, nothing failing in UNDO**, on reserved requests: every place reads
as before. -/
theorem action_undo_restores (hf : ∀ i, (fundo i).undo = fun _ => .none)
    {rs : List TableRequest} (h : ∀ r ∈ rs, Reserved m envs r) (l : Loc) :
    ReadsAlike (envs.stored l)
      ((handlePortConfigTable m fundo .undo
        (handlePortConfigTable m faction .action rs envs).1
        (handlePortConfigTable m faction .action rs envs).2).2.stored l) := by
  obtain ⟨writes, hsub, hstored, -⟩ := forEach_action (f := faction) rs h 0 envs
  have hkeep : (handlePortConfigTable m faction .action rs envs).1.map
      (fun r => (r.vb, r.undo)) = rs.map fun r => (r.vb, r.undo) :=
    map_forEach (fun _ _ _ => cellAction_keeps) 0 rs envs
  change (handlePortConfigTable m faction .action rs envs).2.stored = _ at hstored
  generalize handlePortConfigTable m faction .action rs envs = out at hkeep hstored
  have hres : ∀ r ∈ out.1, Reserved m envs r := by
    intro r hr
    have hmem : (r.vb, r.undo) ∈ rs.map fun r => (r.vb, r.undo) := by
      rw [← hkeep]
      exact List.mem_map_of_mem hr
    obtain ⟨r0, hr0, he⟩ := List.mem_map.mp hmem
    exact (h r0 hr0).congr he.symm
  have hwrites : (rs.filterMap fun r => r.vb.write m) = out.1.filterMap fun r => r.vb.write m := by
    have hvb := congrArg (List.map Prod.fst) hkeep
    simp only [List.map_map, Function.comp_def] at hvb
    have hmap := congrArg (List.filterMap fun vb => TableVarbind.write m vb) hvb
    simpa only [List.filterMap_map, Function.comp_def] using hmap.symm
  -- the stashes cover what ACTION wrote, and hold what was there before
  have hundo : (handlePortConfigTable m fundo .undo out.1 out.2).2.stored = _ :=
    forEach_undo hf out.1 (fun r hr _ _ hu => (hres r hr).validKey hu) 0 out.2
  rw [hundo, hstored]
  refine restore readsAlike_refl (fun a ha => ?_) (fun p hp => ?_) l
  · rw [map_fst_restorations hres, ← hwrites]
    exact (hsub.map Prod.fst).subset ha
  · obtain ⟨r, hr, hp⟩ := List.mem_flatMap.mp hp
    obtain ⟨l, data, content, -, hrest, halike⟩ := (hres r hr).restorations
    rw [hrest, List.mem_singleton] at hp
    rw [hp]
    exact halike

/-- The varbinds of a list that name a cell, and the last one of them. -/
def lastNaming (vbs : List TableVarbind) (cell : PortColumn × TableInstance) :
    Option TableVarbind :=
  (vbs.filter fun vb => vb.cell = some cell).getLast?

/-- A cell that is named has a last varbind that names it. -/
theorem exists_lastNaming {cell : PortColumn × TableInstance} {vb : TableVarbind}
    (hvb : vb ∈ vbs) (hcell : vb.cell = some cell) : ∃ vb', lastNaming vbs cell = some vb' := by
  rw [← Option.ne_none_iff_exists', lastNaming, ne_eq, List.getLast?_eq_none_iff,
    List.filter_eq_nil_iff]
  intro hnone
  exact hnone vb hvb (by simpa using hcell)

/-- The last varbind that names a cell splits the list. -/
theorem split_of_lastNaming {cell : PortColumn × TableInstance} {vb : TableVarbind}
    (h : lastNaming vbs cell = some vb) :
    vb.cell = some cell ∧ ∃ front back, vbs = front ++ vb :: back ∧
      ∀ vb' ∈ back, vb'.cell ≠ some cell := by
  obtain ⟨ys, hys⟩ := List.getLast?_eq_some_iff.mp h
  obtain ⟨front, back, rfl, -, hback⟩ := List.filter_eq_append_iff.mp hys
  obtain ⟨front', back', rfl, -, hvb, hnone⟩ := List.filter_eq_cons_iff.mp hback
  refine ⟨by simpa using hvb, front ++ front', back', by simp, ?_⟩
  intro vb' hvb' hc
  have hmem : vb' ∈ back'.filter fun vb => vb.cell = some cell := by
    rw [List.mem_filter]
    exact ⟨hvb', by simpa using hc⟩
  rw [hnone] at hmem
  exact absurd hmem (by simp)

/-- A varbind writes to the place of the cell it names. -/
theorem TableVarbind.write_fst {vb : TableVarbind} {p : Loc × Option Bytes}
    (h : vb.write m = some p) : ∃ c inst, vb.cell = some (c, inst) ∧ p.1 = c.cellLoc m inst := by
  rw [TableVarbind.write] at h
  rcases hcell : vb.cell with _ | ⟨c, inst⟩
  · rw [hcell] at h
    exact absurd h (by simp)
  · rw [hcell] at h
    obtain ⟨v, -, rfl⟩ : ∃ v, (c.object m).syn.newValue vb.requestvb = some v ∧
        (c.cellLoc m inst, some v.encode) = p := by
      simpa [Option.bind_eq_some_iff] using h
    exact ⟨c, inst, rfl, rfl⟩

/-- **ACTION without an error** on reserved requests: every cell named holds the value of the
last varbind that names it, and nothing else has changed. -/
theorem action_commits {rs : List TableRequest} (h : ∀ r ∈ rs, Reserved m envs r)
    (hvbs : rs.map TableRequest.vb = vbs)
    (herr : anyError (handlePortConfigTable m faction .action rs envs).1 = false) :
    (∀ vb ∈ vbs, vb.cell ≠ none) ∧
      (∀ c inst vb, lastNaming vbs (c, inst) = some vb →
        ∃ v, vb.requestvb.Denotes v ∧
          (handlePortConfigTable m faction .action rs envs).2.stored (c.cellLoc m inst) =
            some v.encode) ∧
      ∀ l, (∀ vb ∈ vbs, ∀ c inst, vb.cell = some (c, inst) → c.cellLoc m inst ≠ l) →
        (handlePortConfigTable m faction .action rs envs).2.stored l = envs.stored l := by
  obtain ⟨writes, -, hstored, hall⟩ := forEach_action (f := faction) rs h 0 envs
  have hwrites : writes = vbs.filterMap fun vb => vb.write m := by
    rw [hall herr, ← hvbs, List.filterMap_map]
    rfl
  change (handlePortConfigTable m faction .action rs envs).2.stored = _ at hstored
  have hres : ∀ vb ∈ vbs, ∃ r ∈ rs, r.vb = vb := by
    intro vb hvb
    rw [← hvbs] at hvb
    exact List.mem_map.mp hvb
  refine ⟨fun vb hvb => ?_, fun c inst vb hlast => ?_, fun l hl => ?_⟩
  · obtain ⟨r, hr, rfl⟩ := hres vb hvb
    obtain ⟨c, inst, u, hcell, -⟩ := h r hr
    rw [hcell]
    exact Option.some_ne_none _
  · obtain ⟨hcell, front, back, rfl, hback⟩ := split_of_lastNaming hlast
    obtain ⟨r, hr, rfl⟩ := hres vb (by simp)
    obtain ⟨c', inst', u, hcell', hv, -⟩ := h r hr
    obtain ⟨rfl, rfl⟩ : c' = c ∧ inst' = inst := by simpa [hcell'] using hcell
    obtain ⟨v, hnew, hden⟩ := Syn.denotes_of_reserve1 (c'.constrained m) hv
    refine ⟨v, hden, ?_⟩
    have hwrite : r.vb.write m = some (c'.cellLoc m inst', some v.encode) := by
      simp [TableVarbind.write, hcell, hnew]
    -- no varbind behind the last one that names the cell writes to it
    rw [hstored, hwrites, List.filterMap_append, List.filterMap_cons, hwrite]
    refine assign_last _ _ _ ?_
    rintro hmem
    obtain ⟨p, hp, hfst⟩ := List.mem_map.mp hmem
    obtain ⟨vb', hvb', hw'⟩ := List.mem_filterMap.mp hp
    obtain ⟨d, j, hd, hloc⟩ := TableVarbind.write_fst hw'
    obtain ⟨rfl, rfl⟩ := PortColumn.cellLoc_inj (hloc.symm.trans hfst)
    exact hback vb' hvb' hd
  · rw [hstored, hwrites]
    refine assign_of_not_mem fun hmem => ?_
    obtain ⟨p, hp, hfst⟩ := List.mem_map.mp hmem
    obtain ⟨vb, hvb, hw⟩ := List.mem_filterMap.mp hp
    obtain ⟨c, inst, hcell, hloc⟩ := TableVarbind.write_fst hw
    exact hl vb hvb c inst hcell (hloc.symm.trans hfst)

variable (m freserve faction fundo envs vbs) in
/-- **How a SET can end**: in FREE with nothing changed, or, all requests reserved, after ACTION in
UNDO or in COMMIT. -/
theorem runTableSet_cases :
    runTableSet m freserve faction fundo envs vbs = (.free, envs) ∨
      ∃ rs, (∀ r ∈ rs, Reserved m envs r) ∧ rs.map TableRequest.vb = vbs ∧
        (runTableSet m freserve faction fundo envs vbs =
            (.undo, (handlePortConfigTable m fundo .undo
              (handlePortConfigTable m faction .action rs envs).1
              (handlePortConfigTable m faction .action rs envs).2).2) ∨
          anyError (handlePortConfigTable m faction .action rs envs).1 = false ∧
            runTableSet m freserve faction fundo envs vbs =
              (.commit, (handlePortConfigTable m faction .action rs envs).2)) := by
  obtain ⟨henvs1, hvbs1, hspec1⟩ := reserve1_spec m freserve envs vbs
  rw [runTableSet]
  rcases hout1 : handlePortConfigTable m freserve .reserve1 (vbs.map .fresh) envs with ⟨rs1, envs1⟩
  rw [hout1] at henvs1 hvbs1 hspec1
  obtain rfl : envs1 = envs := henvs1
  simp only
  rcases herr1 : anyError rs1 with _ | _
  · obtain ⟨henvs2, hvbs2, hspec2⟩ := reserve2_spec freserve envs1 (hspec1 herr1)
    rcases hout2 : handlePortConfigTable m freserve .reserve2 rs1 envs1 with ⟨rs2, envs2⟩
    rw [hout2] at henvs2 hvbs2 hspec2
    obtain rfl : envs2 = envs1 := henvs2
    simp only [Bool.false_eq_true, if_false]
    rcases herr2 : anyError rs2 with _ | _
    · refine Or.inr ⟨rs2, hspec2 herr2, hvbs2.trans hvbs1, ?_⟩
      simp only [Bool.false_eq_true, if_false]
      rcases herr3 : anyError (handlePortConfigTable m faction .action rs2 envs2).1 with _ | _
      · refine Or.inr ⟨rfl, ?_⟩
        simp only [Bool.false_eq_true, if_false,
          (handlePortConfigTable_pure faction .commit (by decide) _ _).1]
      · exact Or.inl rfl
    · refine Or.inl ?_
      simp only [if_true, (handlePortConfigTable_pure freserve .free (by decide) _ _).1]
  · refine Or.inl ?_
    simp only [if_true, (handlePortConfigTable_pure freserve .free (by decide) _ _).1]

end WholeSet

/-- **A SET of table cells is all or nothing.** Whatever the environments hold, whatever the
varbinds are, and whichever reads of RESERVE2 and writes of ACTION fail, nothing failing in
UNDO:

* if the SET ends in FREE or UNDO, every key of both environments reads as before;
* if it ends in COMMIT, every varbind names a cell, every cell that is named holds the value
  of the last varbind that names it, and what is stored anywhere else has not changed. -/
theorem table_set_all_or_nothing (m : Modes) (freserve faction : ℕ → CellFaults) (envs : Envs)
    (vbs : List TableVarbind) :
    match runTableSet m freserve faction (fun _ => .none) envs vbs with
    | (.commit, envs') =>
      (∀ vb ∈ vbs, vb.cell ≠ none) ∧
        (∀ c inst vb, lastNaming vbs (c, inst) = some vb →
          ∃ v, vb.requestvb.Denotes v ∧ envs'.stored (c.cellLoc m inst) = some v.encode) ∧
        ∀ l, (∀ vb ∈ vbs, ∀ c inst, vb.cell = some (c, inst) → c.cellLoc m inst ≠ l) →
          envs'.stored l = envs.stored l
    | (_, envs') => ∀ l, ReadsAlike (envs.stored l) (envs'.stored l) := by
  obtain hfree | ⟨rs, hres, hvbs, hundo | ⟨herr, hcommit⟩⟩ :=
    runTableSet_cases m freserve faction (fun _ => .none) envs vbs
  · rw [hfree]
    exact fun l => readsAlike_refl _
  · rw [hundo]
    exact fun l => action_undo_restores (fun _ => rfl) hres l
  · rw [hcommit]
    exact action_commits hres hvbs herr

/-- A varbind for a column of row 1. -/
def rowOne (colnum : ℕ) (vb : AsnValue) : TableVarbind := ⟨some ⟨colnum, some [1]⟩, true, vb⟩

example : (runTableSet .shipped (fun _ => .none) (fun _ => .none) (fun _ => .none) (fun _ => ∅)
    [rowOne 2 (.octetStr (ascii "uplink")), rowOne 3 (.integer 2), rowOne 3 (.integer 1)]).1 =
      .commit := by
  decide

-- the second write of ACTION fails
example : (runTableSet .shipped (fun _ => .none)
    (fun i => if i = 1 then ⟨.none, ⟨none, some .mapFull, none, false⟩, fun _ => .none⟩ else .none)
    (fun _ => .none) (fun _ => ∅) [rowOne 3 (.integer 2), rowOne 4 (.integer 90000)]).1 =
      .undo := by
  decide

end AgentxSubagent
