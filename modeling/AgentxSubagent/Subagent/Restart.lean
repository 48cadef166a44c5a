import AgentxSubagent.Agent.Bootstrap
import AgentxSubagent.Agent.SensorRows
import AgentxSubagent.Subagent.Stable

/-!
# Restarts

What a restart does to an object depends on its storage mode alone: `config.lmdb` is kept, and
`cache.lmdb` is on a file system that may come back empty. Then `subagent_storage_init` runs its
bootstraps again, and these only fill in keys that are missing.

So it all rests on which keys can be missing at that time. A seeded key is there after the first
startup, and no turn of the event loop takes it away: ACTION and the IPC server write, and UNDO
deletes a cell only if it was missing when RESERVE2 looked
(`AgentxSubagent.stableAt_present`). Hence a bootstrap over an environment that was kept finds
nothing to do, and one over an empty environment writes the defaults and nothing else
(`AgentxSubagent.Seeded.eq_of_present`, `AgentxSubagent.Seeded.of_empty`).

* `AgentxSubagent.restart_semantics` puts this together for every assignment of modes, every number
  of rows and every run.
-/

namespace AgentxSubagent

open Runs

/-! ### Seeding again -/

section Again

variable {seeds : List Seed} {db db' : Lmdb}

/-- **Where no seeded key is missing, seeding changes nothing.** -/
theorem Seeded.eq_of_present (h : Seeded seeds db db')
    (hpresent : ∀ s ∈ seeds, ∀ key, s.key = .ok key → db[key]? ≠ none) : db' = db := by
  refine Std.ExtTreeMap.ext_getElem? fun key => ?_
  obtain heq | ⟨habs, s, hs, hkey, -⟩ := h.keeps key
  · exact heq
  · exact absurd habs (hpresent s hs key hkey)

/-- **An empty environment is seeded with defaults** and nothing else. -/
theorem Seeded.of_empty (h : Seeded seeds ∅ db') (key : Bytes) :
    db'[key]? = none ∨ ∃ s ∈ seeds, s.key = .ok key ∧ db'[key]? = some s.defval.encode := by
  obtain heq | ⟨-, hseed⟩ := h.keeps key
  · exact Or.inl (heq.trans (by simp))
  · exact Or.inr hseed

end Again

/-- A seeded place is not missing. -/
def PresentAt (rows : ℕ) (m : Modes) (l : Loc) (content : Option Bytes) : Prop :=
  (∃ s ∈ bootSeedsOf rows m l.1, s.key = .ok l.2) → content ≠ none

/-- **No writer takes a seeded key away.** -/
theorem stableAt_present (rows : ℕ) (m : Modes) : StableAt m (PresentAt rows m) where
  alike halike hpresent hseed hnone := hpresent hseed (halike.eq_none_iff.mp hnone)
  scalar _ _ := Option.some_ne_none _
  cell _ _ _ := Option.some_ne_none _
  zero _ _ _ := Option.some_ne_none _

/-! ### The defaults -/

section Defaults

variable {rows : ℕ} {m : Modes} {id : EnvId} {s : Seed}

/-- What is seeded under the name of a scalar is its default. -/
theorem defval_of_key_scalar (hs : s ∈ bootSeedsOf rows m id) {t : Scalar}
    (hkey : s.key = .ok t.name) : s.defval = (t.object m).defval := by
  obtain ⟨t', -, rfl⟩ | ⟨-, hro⟩ | ⟨c, row, -, -, -, rfl⟩ := bootSeedsOf_cases hs
  · obtain rfl := Scalar.name_inj (Except.ok.inj hkey)
    rfl
  · obtain ⟨key, hkey', -, -, hname⟩ := key_readOnlySeeds hro
    exact absurd (Except.ok.inj (hkey'.symm.trans hkey)) (hname t)
  · have hcell := Except.ok.inj ((c.key_seed m (.ofNat row)).1.symm.trans hkey)
    refine absurd ?_ t.dot_notMem_name
    rw [← hcell, cellKey]
    simp

/-- What is seeded under a key with the front of a column is a cell of that column. -/
theorem column_of_key_cell (hs : s ∈ bootSeedsOf rows m id) {column : Bytes}
    (hcolumn : (46 : UInt8) ∉ column) {inst : TableInstance}
    (hkey : s.key = .ok (cellKey column inst)) :
    ∃ c : PortColumn, c.name = column ∧ s.defval = (c.object m).defval := by
  have hdot : (46 : UInt8) ∈ cellKey column inst := by
    rw [cellKey]
    simp
  obtain ⟨t, -, rfl⟩ | ⟨-, hro⟩ | ⟨c, row, -, -, -, rfl⟩ := bootSeedsOf_cases hs
  · have hname : t.name = cellKey column inst := Except.ok.inj hkey
    exact absurd (hname ▸ hdot) t.dot_notMem_name
  · obtain ⟨key, hkey', -, hno, -⟩ := key_readOnlySeeds hro
    exact absurd ((Except.ok.inj (hkey'.symm.trans hkey)) ▸ hdot) hno
  · have hcell := Except.ok.inj ((c.key_seed m (.ofNat row)).1.symm.trans hkey)
    exact ⟨c, (cellKey_inj c.dot_notMem_name hcolumn hcell).1, rfl⟩

/-- Every cell of a provisioned row is seeded in the environment that keeps it. -/
theorem mem_bootSeedsOf_cell (c : PortColumn) {row : ℕ} (h1 : 1 ≤ row) (hrows : row ≤ rows) :
    c.seed m (.ofNat row) ∈ bootSeedsOf rows m (c.object m).mode.env := by
  have hmem : c.seed m (.ofNat row) ∈ cellSeedsOf rows m (c.object m).mode := by
    refine List.mem_flatMap.mpr ⟨c, ?_, List.mem_map.mpr ⟨row, ?_, rfl⟩⟩
    · cases c <;> simp [PortColumn.all]
    · rw [List.mem_range'_1]
      omega
  cases hmode : (c.object m).mode with
  | persistent =>
    rw [hmode] at hmem
    exact List.mem_append_right _ hmem
  | volatile =>
    rw [hmode] at hmem
    exact List.mem_append_right _ hmem

end Defaults

/-! ### Restarts -/

/-- An object is read by the getter of its type, with the buffer of its handler. -/
def MibObject.read (o : MibObject) (envs : Envs) (key : Bytes) : Except StorageErr Value :=
  envs.getAs .none o.mode.env o.syn.type key o.syn.buflen

/-- A stored value is read back, if it fits the buffer. -/
theorem MibObject.read_of_stored {o : MibObject} {envs : Envs} {key : Bytes} (hkey : ValidKey key)
    {v : Value} (hacc : o.syn.Accepts v) (hfits : (v.deliver o.syn.buflen).1 = .ok v)
    (hstored : envs.stored (o.mode.env, key) = some v.encode) : o.read envs key = .ok v := by
  rw [MibObject.read, Envs.getAs_none hkey, hstored]
  simp only [← hacc.storageType, readAs_encode]
  exact hfits

section Restart

variable {rows : ℕ} {m : Modes}

/-- What a startup makes of a place that is missing. -/
theorem seeded_subagentStorageInitOf (rows : ℕ) (m : Modes) (envs : Envs) (id : EnvId) :
    Seeded (bootSeedsOf rows m id) (envs id)
      ((subagentStorageInitOf rows m .none .none envs).2 id) :=
  seeded_of_subagentStorageInitOf (fun _ => rfl) (fun _ => rfl)
    (Prod.ext (subagentStorageInitOf_none rows m envs) rfl) id

/-- After a startup, no seeded key is missing. -/
theorem present_subagentStorageInitOf (rows : ℕ) (m : Modes) (envs : Envs) :
    Envs.All (PresentAt rows m) (subagentStorageInitOf rows m .none .none envs).2 := by
  rintro ⟨id, key⟩ ⟨s, hs, hkey⟩
  exact (seeded_subagentStorageInitOf rows m envs id).fills s hs key hkey

/-- **An environment that is kept stays as it is.** -/
theorem subagentStorageInitOf_kept {before envs : Envs} {id : EnvId}
    (hpresent : Envs.All (PresentAt rows m) before) (hkept : envs id = before id) :
    (subagentStorageInitOf rows m .none .none envs).2 id = before id := by
  rw [← hkept]
  refine (seeded_subagentStorageInitOf rows m envs id).eq_of_present fun s hs key hkey => ?_
  rw [hkept]
  exact hpresent (id, key) ⟨s, hs, hkey⟩

variable {envs : Envs} (hempty : envs .cache = ∅)

include hempty

/-- **A volatile scalar is at its default** after the cache was lost. -/
theorem Scalar.read_subagentStorageInitOf {s : Scalar} (hmode : (s.object m).mode = .volatile) :
    (s.object m).read (subagentStorageInitOf rows m .none .none envs).2 s.name =
      .ok (s.object m).defval := by
  refine MibObject.read_of_stored s.validKey_name (s.accepts_defval m) (by cases s <;> rfl) ?_
  have hseeded := seeded_subagentStorageInitOf rows m envs .cache
  have hfilled := hseeded.fills (s.seed m) (by
    have hmem : s.seed m ∈ bootSeedsOf rows m (s.object m).mode.env := mem_bootSeedsOf s
    rwa [hmode] at hmem) s.name rfl
  rw [hempty] at hseeded
  obtain hnone | ⟨seed, hs, hkey, hstored⟩ := hseeded.of_empty s.name
  · exact absurd hnone hfilled
  · rw [hmode, ← defval_of_key_scalar hs hkey]
    exact hstored

/-- **A volatile cell of a provisioned row is at its default** after the cache was lost. -/
theorem PortColumn.read_subagentStorageInitOf {c : PortColumn}
    (hmode : (c.object m).mode = .volatile) {row : ℕ} (h1 : 1 ≤ row) (hrows : row ≤ rows) :
    (c.object m).read (subagentStorageInitOf rows m .none .none envs).2
      (cellKey c.name [.ofNat row]) = .ok (c.object m).defval := by
  obtain ⟨hkey, hvalid⟩ := c.key_seed m (.ofNat row)
  refine MibObject.read_of_stored hvalid (c.accepts_defval m) (by cases c <;> rfl) ?_
  have hseeded := seeded_subagentStorageInitOf rows m envs .cache
  have hfilled := hseeded.fills (c.seed m (.ofNat row)) (by
    have hmem : c.seed m (.ofNat row) ∈ bootSeedsOf rows m (c.object m).mode.env :=
      mem_bootSeedsOf_cell c h1 hrows
    rwa [hmode] at hmem) _ hkey
  rw [hempty] at hseeded
  obtain hnone | ⟨seed, hs, hkey', hstored⟩ := hseeded.of_empty (cellKey c.name [.ofNat row])
  · exact absurd hnone hfilled
  · obtain ⟨d, hname, hdef⟩ := column_of_key_cell hs c.dot_notMem_name hkey'
    obtain rfl := PortColumn.name_inj hname
    rw [hmode, ← hdef]
    exact hstored

/-- **`sensorTable` has no cell** after the cache was lost. -/
theorem sensorTable_subagentStorageInitOf {c : TableColumn} (hc : c ∈ sensorTable.columns)
    (inst : TableInstance) :
    (subagentStorageInitOf rows m .none .none envs).2.stored (c.loc inst) = none := by
  obtain ⟨henv, hdot⟩ := sensorTable_column hc
  have hseeded := seeded_subagentStorageInitOf rows m envs .cache
  rw [hempty] at hseeded
  rw [TableColumn.loc, henv]
  obtain hnone | ⟨seed, hs, hkey, -⟩ := hseeded.of_empty (cellKey c.name inst)
  · exact hnone
  · -- the columns of the two tables have different names
    obtain ⟨d, hname, -⟩ := column_of_key_cell hs hdot hkey
    have hne : ∀ c ∈ sensorTable.columns, ∀ d ∈ PortColumn.all, d.name ≠ c.name := by
      simp only [sensorTable, List.forall_mem_cons]
      exact ⟨by decide, by decide, by decide, by simp⟩
    exact absurd hname (hne c hc d (by cases d <;> simp [PortColumn.all]))

end Restart

/-- **Restart semantics per object.** For every assignment of modes, every number of provisioned
rows and every run from a startup, over any SETs in any interleaving with IPC frames and whatever
storage calls fail in it:

* if `cache.lmdb` is lost, the bootstraps of the next startup succeed; every persistent scalar and
  every persistent cell is stored as before, every volatile scalar and every volatile cell of a
  provisioned row reads its DEFVAL, and `sensorTable` has no rows;
* if both environments are kept, the bootstraps succeed and no key changes. -/
theorem restart_semantics (m : Modes) (rows : ℕ) (pbDecode : Bytes → Option Envelope)
    (start : Envs) (a : Agent)
    (hboot : a.envs = (subagentStorageInitOf rows m .none .none start).2)
    (is : List Input) (os : List (Option FrameRecord)) (u : Subagent)
    (hrun : run (fun u i => Subagent.step m pbDecode u i) ⟨a, fun _ => none⟩ is = some (os, u)) :
    (∃ envs', subagentStorageInitOf rows m .none .none (Function.update u.agent.envs .cache ∅) =
        (.ok (), envs') ∧
      (∀ s : Scalar, (s.object m).mode = .persistent →
        envs'.stored (s.loc m) = u.agent.envs.stored (s.loc m)) ∧
      (∀ (c : PortColumn) (inst : TableInstance), (c.object m).mode = .persistent →
        envs'.stored (c.cellLoc m inst) = u.agent.envs.stored (c.cellLoc m inst)) ∧
      (∀ s : Scalar, (s.object m).mode = .volatile →
        (s.object m).read envs' s.name = .ok (s.object m).defval) ∧
      (∀ (c : PortColumn) (row : ℕ), (c.object m).mode = .volatile → 1 ≤ row → row ≤ rows →
        (c.object m).read envs' (cellKey c.name [.ofNat row]) = .ok (c.object m).defval) ∧
      ∃ rs, tableRowsetLoad false (fun _ => .none) (sensorTable.columnRefs fun _ => envs') =
        .ok rs ∧ rs.rows = []) ∧
    subagentStorageInitOf rows m .none .none u.agent.envs = (.ok (), u.agent.envs) := by
  have hpresent : Envs.All (PresentAt rows m) u.agent.envs := by
    refine Subagent.run_keeps (stableAt_present rows m) ?_ hrun
    rw [hboot]
    exact present_subagentStorageInitOf rows m start
  constructor
  · have hconfig : ∀ key, (subagentStorageInitOf rows m .none .none
        (Function.update u.agent.envs .cache ∅)).2.stored (.config, key) =
        u.agent.envs.stored (.config, key) := by
      intro key
      exact congrArg (fun db : Lmdb => db[key]?)
        (subagentStorageInitOf_kept hpresent (Function.update_of_ne (by simp) _ _))
    have hempty : Function.update u.agent.envs .cache ∅ .cache = (∅ : Lmdb) :=
      Function.update_self ..
    refine ⟨_, Prod.ext (subagentStorageInitOf_none rows m _) rfl, ?_, ?_, ?_, ?_, ?_⟩
    · intro s hmode
      rw [Scalar.loc, hmode]
      exact hconfig s.name
    · intro c inst hmode
      rw [PortColumn.cellLoc, hmode]
      exact hconfig (cellKey c.name inst)
    · exact fun s hmode => Scalar.read_subagentStorageInitOf hempty hmode
    · exact fun c row hmode h1 hrows =>
        PortColumn.read_subagentStorageInitOf hempty hmode h1 hrows
    · obtain ⟨rs, hload, -, hmem⟩ := sensorTable.rows_spec fun _ =>
        (subagentStorageInitOf rows m .none .none (Function.update u.agent.envs .cache ∅)).2
      refine ⟨rs, hload, List.eq_nil_iff_forall_not_mem.mpr fun inst hinst => ?_⟩
      obtain ⟨-, -, i, c, hi, hstored⟩ := (hmem inst).mp hinst
      exact hstored (sensorTable_subagentStorageInitOf hempty (List.mem_of_getElem? hi) inst)
  · refine Prod.ext (subagentStorageInitOf_none rows m _) ?_
    funext id
    exact subagentStorageInitOf_kept hpresent rfl

/-- The subagent after a first startup with two rows. -/
def twoRowBoot : Agent := ⟨(subagentStorageInitOf 2 .shipped .none .none fun _ => ∅).2, .clear, []⟩

/-- A SET of the name of the device and of the threshold. -/
def namingSet : List Input :=
  [.reserve1 0 [.scalar .deviceName (.octetStr (ascii "rack-7")),
      .scalar .tempThresholdMilliC (.integer 12345)],
    .phase 0 .reserve2 fun _ => .none, .phase 0 .action fun _ => .none,
    .phase 0 .commit fun _ => .none]

/-- The name survives the loss of the cache, and the threshold is back at its default. -/
theorem restart_after_naming :
    ∃ os u, run (fun u i => Subagent.step .shipped (fun _ => none) u i)
        ⟨twoRowBoot, fun _ => none⟩ namingSet = some (os, u) ∧
      ∃ envs', subagentStorageInitOf 2 .shipped .none .none
          (Function.update u.agent.envs .cache ∅) = (.ok (), envs') ∧
        envs'.stored (Scalar.loc .shipped .deviceName) =
          u.agent.envs.stored (Scalar.loc .shipped .deviceName) ∧
        (Scalar.object .shipped .tempThresholdMilliC).read envs'
          (Scalar.name .tempThresholdMilliC) = .ok (.int32 70000) := by
  obtain ⟨os, u, hrun⟩ : ∃ os u, run (fun u i => Subagent.step .shipped (fun _ => none) u i)
      ⟨twoRowBoot, fun _ => none⟩ namingSet = some (os, u) := ⟨_, _, rfl⟩
  obtain ⟨⟨envs', hinit, hscalar, -, hvolatile, -⟩, -⟩ :=
    restart_semantics .shipped 2 (fun _ => none) (fun _ => ∅) twoRowBoot rfl namingSet os u hrun
  exact ⟨os, u, hrun, envs', hinit, hscalar .deviceName rfl, hvolatile .tempThresholdMilliC rfl⟩

end AgentxSubagent
