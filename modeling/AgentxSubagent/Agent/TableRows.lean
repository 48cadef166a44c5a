import AgentxSubagent.Agent.TableGet

/-!
# SETs keep the rows of a table

A row of a table is not stored anywhere: it is there as long as some column, in whichever
environment, has a cell for it. A SET writes cells and an UNDO deletes them again, so it takes an
argument that no row comes or goes.

What ties a write to the rows is the iterator context. net-snmp attaches it in RESERVE1 to the
requests whose index is a row of the iterator's pass (`AgentxSubagent.CellVarbind.attach`), and
RESERVE1 refuses the others with `noCreation`. So a cell is only ever written in a row that has
another cell, or this one, already.

* `AgentxSubagent.TablePdu.run_rows`: a SET keeps the rows that have a cell;
* `AgentxSubagent.table_rows_fixed`: no sequence of SETs changes what `table_rowset_load` returns.
-/

namespace AgentxSubagent

/-! ### SETs with iterator contexts -/

/-- A varbind as the manager sends it: the table info that net-snmp makes of its name, and its
value. -/
structure CellVarbind where
  tableInfo : Option TableInfo
  requestvb : AsnValue

/-- The iterator context is attached to a varbind exactly when its index equals that of a row that
was yielded. -/
def CellVarbind.attach (ix : IndexCodec) (points : List ix.Index) (vb : CellVarbind) :
    TableVarbind :=
  ⟨vb.tableInfo,
    vb.tableInfo.any fun info => points.any fun p => ix.buildOidNoalloc p = info.indexes,
    vb.requestvb⟩

/-- A SET of cells of `portConfigTable`, with what fails in the iterator's pass, in RESERVE2 and in
ACTION. -/
structure TablePdu where
  vbs : List CellVarbind
  first : FirstFaults
  freserve : ℕ → CellFaults
  faction : ℕ → CellFaults

/-- **A SET**: the pass of the iterator in RESERVE1, and then the phases. Nothing fails in UNDO. -/
def TablePdu.run (m : Modes) (ix : IndexCodec) (envs : Envs) (pdu : TablePdu) : SetEnd × Envs :=
  let points := dataPoints ix pdu.first ((portConfigTable m).columnRefs fun _ => envs)
  runTableSet m pdu.freserve pdu.faction (fun _ => .none) envs (pdu.vbs.map (·.attach ix points))

/-- SETs, one after the other. -/
def runTablePdus (m : Modes) (ix : IndexCodec) (envs : Envs) (pdus : List TablePdu) : Envs :=
  pdus.foldl (fun envs pdu => (pdu.run m ix envs).2) envs

/-! ### Rows -/

/-- **A row of `portConfigTable` has a cell** in some column. -/
def HasCell (m : Modes) (envs : Envs) (inst : TableInstance) : Prop :=
  ∃ c : PortColumn, envs.stored (c.cellLoc m inst) ≠ none

section Rows

variable {m : Modes} {ix : IndexCodec} {envs : Envs}

/-- A column of the table is one of the three. -/
theorem mem_portConfigTable_columns {c : TableColumn} :
    c ∈ (portConfigTable m).columns ↔ ∃ p : PortColumn, p.tableColumn m = c := by
  constructor
  · intro hc
    obtain ⟨p, -, rfl⟩ := List.mem_map.mp hc
    exact ⟨p, rfl⟩
  · rintro ⟨p, rfl⟩
    refine List.mem_map_of_mem ?_
    cases p <;> simp

variable (m envs) in
/-- The rows `table_rowset_load` returns are those that have a cell. -/
theorem portConfigTable_rows :
    ∃ rs, tableRowsetLoad false (fun _ => .none) ((portConfigTable m).columnRefs fun _ => envs) =
        .ok rs ∧
      rs.rows.Pairwise (fun a b => tableInstanceCompare a b = .lt) ∧
      ∀ inst, inst ∈ rs.rows ↔ inst ≠ [] ∧ inst.length ≤ 128 ∧ HasCell m envs inst := by
  obtain ⟨rs, hload, hsorted, hmem⟩ := (portConfigTable m).rows_spec fun _ => envs
  refine ⟨rs, hload, hsorted, fun inst => (hmem inst).trans ?_⟩
  refine and_congr_right fun _ => and_congr_right fun _ => ?_
  constructor
  · rintro ⟨i, c, hc, hstored⟩
    obtain ⟨p, rfl⟩ := mem_portConfigTable_columns.mp (List.mem_of_getElem? hc)
    exact ⟨p, hstored⟩
  · rintro ⟨p, hstored⟩
    obtain ⟨i, hi⟩ := List.mem_iff_getElem?.mp (mem_portConfigTable_columns.mpr ⟨p, rfl⟩)
    exact ⟨i, _, hi, hstored⟩

/-- A row the iterator yields has a cell. -/
theorem hasCell_of_dataPoints {f : FirstFaults} {p : ix.Index}
    (h : p ∈ dataPoints ix f ((portConfigTable m).columnRefs fun _ => envs)) :
    ∃ r : UInt32, ix.buildOidNoalloc p = some [r.toNat] ∧ HasCell m envs [r] := by
  obtain ⟨r, hbuild, col, hcol, hkey⟩ := dataPoints_sound h
  refine ⟨r, hbuild, ?_⟩
  obtain ⟨i, hi, rfl⟩ := List.mem_mapIdx.mp hcol
  obtain ⟨c, hc⟩ := mem_portConfigTable_columns.mp (List.getElem_mem hi)
  refine ⟨c, Envs.stored_ne_none_iff.mpr ?_⟩
  rw [← hc] at hkey
  exact hkey

/-- **A cell that a request names lies in a row that has a cell.** -/
theorem hasCell_of_attach {f : FirstFaults} {vb : CellVarbind} {c : PortColumn}
    {inst : TableInstance}
    (h : (vb.attach ix (dataPoints ix f ((portConfigTable m).columnRefs fun _ => envs))).cell =
      some (c, inst)) : HasCell m envs inst := by
  obtain ⟨tableInfo, requestvb⟩ := vb
  rcases tableInfo with _ | info
  · exact absurd h (by simp [CellVarbind.attach, TableVarbind.cell, TableVarbind.row])
  · set points := dataPoints ix f ((portConfigTable m).columnRefs fun _ => envs)
    rcases hctx : points.any fun p => ix.buildOidNoalloc p = info.indexes with _ | _
    · -- without an iterator context no cell is named
      exact absurd h (by simp [CellVarbind.attach, TableVarbind.cell, TableVarbind.row, hctx])
    · obtain ⟨p, hp, hbuild⟩ := List.any_eq_true.mp hctx
      obtain ⟨r, hr, hcell⟩ := hasCell_of_dataPoints hp
      have hfrom := tableInstanceFromIndexes_single ((of_decide_eq_true hbuild).symm.trans hr)
      obtain ⟨-, -, -, rfl⟩ :
          ∃ d, PortColumn.ofColnum info.colnum = some d ∧ d = c ∧ [r] = inst := by
        simpa [CellVarbind.attach, TableVarbind.cell, TableVarbind.row, hctx, hfrom,
          Option.bind_eq_some_iff] using h
      exact hcell

/-! ### Runs -/

/-- **A SET keeps the rows that have a cell.** -/
theorem TablePdu.run_rows (pdu : TablePdu) (inst : TableInstance) :
    HasCell m (pdu.run m ix envs).2 inst ↔ HasCell m envs inst := by
  have hcases := runTableSet_cases m pdu.freserve pdu.faction (fun _ => .none) envs
    (pdu.vbs.map (·.attach ix
      (dataPoints ix pdu.first ((portConfigTable m).columnRefs fun _ => envs))))
  rw [TablePdu.run]
  obtain hfree | ⟨rs, hres, hvbs, hundo | ⟨herr, hcommit⟩⟩ := hcases
  · rw [hfree]
  · -- what reads alike is present alike
    rw [hundo]
    refine exists_congr fun c => not_congr ?_
    have hf : ∀ i, ((fun _ => CellFaults.none : ℕ → CellFaults) i).undo = fun _ => .none :=
      fun _ => rfl
    exact (action_undo_restores hf hres (c.cellLoc m inst)).eq_none_iff
  · rw [hcommit]
    obtain ⟨-, hnamed, hother⟩ := action_commits hres hvbs herr
    -- a cell is written or as before, and a row in which one is written has a cell
    have hcell : ∀ c : PortColumn,
        (HasCell m envs inst ∧
          (handlePortConfigTable m pdu.faction .action rs envs).2.stored (c.cellLoc m inst) ≠
            none) ∨
        (handlePortConfigTable m pdu.faction .action rs envs).2.stored (c.cellLoc m inst) =
          envs.stored (c.cellLoc m inst) := by
      intro c
      by_cases hvb : ∃ vb ∈ pdu.vbs.map (·.attach ix (dataPoints ix pdu.first
          ((portConfigTable m).columnRefs fun _ => envs))), vb.cell = some (c, inst)
      · left
        obtain ⟨vb, hmem, hvb⟩ := hvb
        obtain ⟨vb', hlast⟩ := exists_lastNaming hmem hvb
        obtain ⟨v, -, hv⟩ := hnamed c inst vb' hlast
        obtain ⟨cvb, -, rfl⟩ := List.mem_map.mp hmem
        refine ⟨hasCell_of_attach hvb, ?_⟩
        rw [hv]
        exact Option.some_ne_none _
      · right
        refine hother _ fun vb hmem d j hd heq => hvb ⟨vb, hmem, ?_⟩
        obtain ⟨rfl, rfl⟩ := PortColumn.cellLoc_inj heq
        exact hd
    constructor
    · rintro ⟨c, hc⟩
      obtain ⟨hrow, -⟩ | heq := hcell c
      · exact hrow
      · exact ⟨c, heq ▸ hc⟩
    · rintro ⟨c, hc⟩
      refine ⟨c, ?_⟩
      obtain ⟨-, hne⟩ | heq := hcell c
      · exact hne
      · rwa [heq]

variable (m ix envs) in
/-- SETs keep the rows that have a cell. -/
theorem runTablePdus_rows (pdus : List TablePdu) (inst : TableInstance) :
    HasCell m (runTablePdus m ix envs pdus) inst ↔ HasCell m envs inst := by
  induction pdus generalizing envs with
  | nil => exact Iff.rfl
  | cons pdu pdus ih =>
    rw [runTablePdus, List.foldl_cons]
    exact (ih (pdu.run m ix envs).2).trans (pdu.run_rows inst)

end Rows

/-- **Managers can neither create nor destroy rows.** Whatever the environments hold, after any
sequence of SETs of cells of `portConfigTable`, each of any varbinds and ending in FREE, COMMIT or
UNDO, whatever fails in the iterator, in RESERVE2 and in ACTION, `table_rowset_load` returns the
rows it returned before. -/
theorem table_rows_fixed (m : Modes) (ix : IndexCodec) (envs : Envs) (pdus : List TablePdu) :
    ∃ rs rs',
      tableRowsetLoad false (fun _ => .none) ((portConfigTable m).columnRefs fun _ => envs) =
        .ok rs ∧
      tableRowsetLoad false (fun _ => .none)
        ((portConfigTable m).columnRefs fun _ => runTablePdus m ix envs pdus) = .ok rs' ∧
      rs'.rows = rs.rows := by
  obtain ⟨rs, hload, hsorted, hmem⟩ := portConfigTable_rows m envs
  obtain ⟨rs', hload', hsorted', hmem'⟩ := portConfigTable_rows m (runTablePdus m ix envs pdus)
  refine ⟨rs, rs', hload, hload', SortedSet.eq_of_mem_iff hsorted' hsorted fun inst => ?_⟩
  rw [hmem, hmem', runTablePdus_rows]

/-- A SET of the description of a row. -/
def describeRow (r : ℕ) : TablePdu :=
  ⟨[⟨some ⟨2, some [r]⟩, .octetStr (ascii "spare")⟩], .none, fun _ => .none, fun _ => .none⟩

-- row 7 has no description yet, and row 8 does not exist
example : ((describeRow 7).run .shipped .unsigned32 sparseEnvs).1 = .commit ∧
    ((describeRow 8).run .shipped .unsigned32 sparseEnvs).1 = .free := by
  decide

end AgentxSubagent
