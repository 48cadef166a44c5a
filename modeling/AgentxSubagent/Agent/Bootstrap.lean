import AgentxSubagent.Agent.TableSet

/-!
# Startup defaults

`src/generated/storage_bootstrap.c`, which `mib2c/mib2c.bootstrap.conf` emits: at startup each
environment is seeded, in one transaction, with the DEFVAL of every object it keeps. A key
that is there already is left alone. `AgentxSubagent.subagentStorageInit` is the part of
`subagent_storage_init` that runs the two bootstraps.

* `AgentxSubagent.bootstrap_ok`: a bootstrap that succeeds fills in missing keys with their
  defaults and changes nothing else.
* `AgentxSubagent.valid_of_subagentStorageInit`: if every writable object was missing or held
  a value of its type and range, every one holds such a value after startup, and no scalar is
  missing.
-/

namespace AgentxSubagent

/-! ### Seeding -/

/-- One block of a bootstrap: the key it seeds, which for a cell has to be built first, and the
default. -/
structure Seed where
  key : Except StorageErr Bytes
  defval : Value
  type_ne : defval.storageType ≠ .oid

/-- What fails in one block: the probe, or the write. -/
structure SeedFaults where
  probe : Fault
  put : Fault

/-- What fails in a bootstrap. -/
structure BootFaults where
  atBegin : Fault
  seed : ℕ → SeedFaults
  atCommit : Fault

/-- Nothing fails. -/
def BootFaults.none : BootFaults := ⟨.none, fun _ => ⟨.none, .none⟩, .none⟩

/-- No probe fails. -/
def BootFaults.Probes (f : BootFaults) : Prop := ∀ i, (f.seed i).probe.atOp = .none

/-- One block, once its key is there. The probe of a byte string has room for one byte, so it
fails on a longer one; only a missing key is seeded. -/
def seedKey (f : SeedFaults) (overwrite : Bool) (s : Seed) (key : Bytes) (txn : StorageTxn) :
    Except StorageErr StorageTxn :=
  if overwrite then storageTxnSetValue f.put txn key s.defval s.type_ne
  else
    match (storageTxnGetAs f.probe txn key 1 s.defval.storageType s.type_ne).1 with
    | .error .notFound => storageTxnSetValue f.put txn key s.defval s.type_ne
    | _ => .ok txn

/-- The blocks of a bootstrap in order; the first that fails ends it. -/
def seedAll (f : ℕ → SeedFaults) (overwrite : Bool) :
    ℕ → List Seed → StorageTxn → Except StorageErr StorageTxn
  | _, [], txn => .ok txn
  | i, s :: seeds, txn =>
    match s.key with
    | .error rc => .error rc
    | .ok key =>
      match seedKey (f i) overwrite s key txn with
      | .error rc => .error rc
      | .ok txn' => seedAll f overwrite (i + 1) seeds txn'

/-- The body of the two bootstraps. -/
def bootstrap (f : BootFaults) (overwrite : Bool) (seeds : List Seed) (e : MdbEnv) :
    Except StorageErr Unit × MdbEnv :=
  match storageTxnBegin f.atBegin rwEnv false e with
  | (.error rc, e') => (.error rc, e')
  | (.ok txn, e') =>
    match seedAll f.seed overwrite 0 seeds txn with
    | .error rc => (.error rc, storageTxnAbort txn e')
    | .ok txn' => storageTxnCommit f.atCommit txn' e'

/-! ### What is seeded -/

/-- `TABLE_ROWS_portConfigTable`. -/
def tableRowsPortConfigTable : ℕ := 4

/-- The read-write scalars in the order of the MIB. -/
def Scalar.all : List Scalar :=
  [.deviceName, .tempThresholdMilliC, .adminStatusExt, .sampleIntervalSec]

/-- The columns in the order of the MIB. -/
def PortColumn.all : List PortColumn := [.portDescr, .portAdminStatus, .portAlarmThresholdMilliC]

/-- The block of a scalar. -/
def Scalar.seed (m : Modes) (s : Scalar) : Seed where
  key := .ok s.name
  defval := (s.object m).defval
  type_ne := by cases s <;> exact nofun

/-- The turn of a column's loop for one row. -/
def PortColumn.seed (m : Modes) (c : PortColumn) (row : UInt32) : Seed where
  key := tableCellKey c.name [row] (storageKeyMax + 1)
  defval := (c.object m).defval
  type_ne := by cases c <;> exact nofun

/-- The blocks of the read-only scalars. -/
def readOnlySeeds : List Seed :=
  [⟨.ok (ascii "cpuTempMilliC"), .int32 0, nofun⟩, ⟨.ok (ascii "sampleCount"), .uint32 0, nofun⟩,
    ⟨.ok (ascii "lastUpdateEpoch"), .uint32 0, nofun⟩,
    ⟨.ok (ascii "statusText"), .bytes (ascii "initialising"), nofun⟩]

/-- The blocks of the scalars a storage mode selects. -/
def scalarSeeds (m : Modes) (mode : StorageMode) : List Seed :=
  (Scalar.all.filter fun s => (s.object m).mode = mode).map (Scalar.seed m)

/-- The blocks of the columns a storage mode selects, row by row, of a table that ships with
`rows` rows. -/
def cellSeedsOf (rows : ℕ) (m : Modes) (mode : StorageMode) : List Seed :=
  (PortColumn.all.filter fun c => (c.object m).mode = mode).flatMap fun c =>
    (List.range' 1 rows).map fun row => c.seed m (.ofNat row)

/-- The blocks of the bootstrap of an environment, in order, for any number of rows. -/
def bootSeedsOf (rows : ℕ) (m : Modes) : EnvId → List Seed
  | .config => scalarSeeds m .persistent ++ cellSeedsOf rows m .persistent
  | .cache => scalarSeeds m .volatile ++ readOnlySeeds ++ cellSeedsOf rows m .volatile

/-- The blocks of the bootstrap of an environment, in order. -/
def bootSeeds (m : Modes) : EnvId → List Seed := bootSeedsOf tableRowsPortConfigTable m

/-- `config_bootstrap_defaults`, generated for any number of rows. -/
def configBootstrapDefaultsOf (rows : ℕ) (m : Modes) (f : BootFaults) :
    MdbEnv → Except StorageErr Unit × MdbEnv :=
  bootstrap f false (bootSeedsOf rows m .config)

/-- `config_bootstrap_defaults`. -/
def configBootstrapDefaults (m : Modes) (f : BootFaults) :
    MdbEnv → Except StorageErr Unit × MdbEnv :=
  bootstrap f false (bootSeeds m .config)

/-- `cache_bootstrap_defaults`, generated for any number of rows. -/
def cacheBootstrapDefaultsOf (rows : ℕ) (m : Modes) (f : BootFaults) (overwrite : Bool) :
    MdbEnv → Except StorageErr Unit × MdbEnv :=
  bootstrap f overwrite (bootSeedsOf rows m .cache)

/-- `cache_bootstrap_defaults`. -/
def cacheBootstrapDefaults (m : Modes) (f : BootFaults) (overwrite : Bool) :
    MdbEnv → Except StorageErr Unit × MdbEnv :=
  bootstrap f overwrite (bootSeeds m .cache)

/-- The bootstraps of `subagent_storage_init`, generated for any number of rows: `config.lmdb`
first, then `cache.lmdb` without overwriting. -/
def subagentStorageInitOf (rows : ℕ) (m : Modes) (fconfig fcache : BootFaults) (envs : Envs) :
    Except StorageErr Unit × Envs :=
  match configBootstrapDefaultsOf rows m fconfig (.idle (envs .config)) with
  | (.error rc, e) => (.error rc, Function.update envs .config e.committed)
  | (.ok _, e) =>
    let r := cacheBootstrapDefaultsOf rows m fcache false (.idle (envs .cache))
    (r.1, Function.update (Function.update envs .config e.committed) .cache r.2.committed)

/-- The bootstraps of `subagent_storage_init`. -/
def subagentStorageInit (m : Modes) (fconfig fcache : BootFaults) (envs : Envs) :
    Except StorageErr Unit × Envs :=
  subagentStorageInitOf tableRowsPortConfigTable m fconfig fcache envs

/-! ### What a bootstrap does -/

section Bootstrap

variable {f : SeedFaults} {s : Seed} {key : Bytes} {txn txn' : StorageTxn}

/-- A probe that does not fail finds out whether the key is missing. -/
theorem probe_notFound_iff {ty : StorageType} (hty : ty ≠ .oid) (hkey : ValidKey key)
    {g : Fault} (hg : g.atOp = none) (cap : ℕ) :
    (storageTxnGetAs g txn key cap ty hty).1 = .error .notFound ↔ txn.txn.view[key]? = none := by
  rw [storageTxnGetAs_eq, txnGetAs_eq, txnGetRaw, validateKey_of_valid hkey]
  change (match (mdbGet g txn.txn key).mapError mapMdbRc with
    | Except.error rc => (Except.error rc, cap)
    | Except.ok data => readAs ty cap data).1 = _ ↔ _
  rw [mdbGet, hg]
  rcases txn.txn.view[key]? with _ | data
  · exact iff_of_true rfl rfl
  · exact iff_of_false (readAs_ne_notFound ty cap data) (by simp)

/-- A write that succeeds inserts the encoding. -/
theorem storageTxnSetValue_ok {g : Fault} {v : Value} (hv : v.storageType ≠ .oid)
    (h : storageTxnSetValue g txn key v hv = .ok txn') :
    txn'.readonly = txn.readonly ∧ txn'.txn.rdonly = txn.txn.rdonly ∧
      txn'.txn.view = txn.txn.view.insert key v.encode := by
  rw [storageTxnSetValue_eq, writeInTxn] at h
  split_ifs at h with hro
  rw [txnSetValue_eq] at h
  split_ifs at h with hmem
  · exact absurd h (by simp [Except.map])
  · rcases hput : txnPutRaw g txn.txn key v.encode with rc | t
    · rw [hput] at h
      exact absurd h (by simp [Except.map])
    · rw [hput] at h
      obtain rfl := Except.ok.inj h
      rw [(txnPutRaw_eq_ok hput).2]
      exact ⟨rfl, rfl, rfl⟩

/-- A block does not change the kind of the transaction. -/
theorem seedKey_rdonly {overwrite : Bool} (h : seedKey f overwrite s key txn = .ok txn') :
    txn'.txn.rdonly = txn.txn.rdonly := by
  rw [seedKey] at h
  split_ifs at h
  · exact (storageTxnSetValue_ok s.type_ne h).2.1
  split at h
  · exact (storageTxnSetValue_ok s.type_ne h).2.1
  · obtain rfl := Except.ok.inj h
    rfl

/-- **One block**: it finds its key and changes nothing, or misses it and inserts the
default. -/
theorem seedKey_ok (hkey : ValidKey key) (hf : f.probe.atOp = none)
    (h : seedKey f false s key txn = .ok txn') :
    txn.txn.view[key]? ≠ none ∧ txn'.txn.view = txn.txn.view ∨
      txn.txn.view[key]? = none ∧ txn'.txn.view = txn.txn.view.insert key s.defval.encode := by
  have hprobe : _ ↔ txn.txn.view[key]? = none := probe_notFound_iff s.type_ne hkey hf 1
  rw [seedKey, if_neg Bool.false_ne_true] at h
  by_cases habs : txn.txn.view[key]? = none
  · rw [hprobe.mpr habs] at h
    exact Or.inr ⟨habs, (storageTxnSetValue_ok s.type_ne h).2.2⟩
  · split at h
    · next hnf => exact absurd (hprobe.mp hnf) habs
    · obtain rfl := Except.ok.inj h
      exact Or.inl ⟨habs, rfl⟩

end Bootstrap

/-- **What seeding does**: a key keeps what it held, or was missing and holds a default, and no
key that is seeded is missing. -/
structure Seeded (seeds : List Seed) (db db' : Lmdb) : Prop where
  keeps : ∀ key, db'[key]? = db[key]? ∨
    db[key]? = none ∧ ∃ s ∈ seeds, s.key = .ok key ∧ db'[key]? = some s.defval.encode
  fills : ∀ s ∈ seeds, ∀ key, s.key = .ok key → db'[key]? ≠ none

/-- A key that is there stays. -/
theorem Seeded.present {seeds : List Seed} {db db' : Lmdb} (h : Seeded seeds db db') {key : Bytes}
    (hkey : db[key]? ≠ none) : db'[key]? ≠ none := by
  obtain heq | ⟨habs, -⟩ := h.keeps key
  · rwa [heq]
  · exact absurd habs hkey

/-- Nothing is seeded in front of the rest. -/
theorem Seeded.skip {s : Seed} {seeds : List Seed} {db db' : Lmdb} {key : Bytes}
    (hs : s.key = .ok key) (hkey : db[key]? ≠ none) (h : Seeded seeds db db') :
    Seeded (s :: seeds) db db' where
  keeps := by
    intro k
    obtain heq | ⟨habs, s', hs', hrest⟩ := h.keeps k
    · exact Or.inl heq
    · exact Or.inr ⟨habs, s', List.mem_cons_of_mem s hs', hrest⟩
  fills := by
    intro s' hs' k hk
    rcases List.mem_cons.mp hs' with rfl | hs'
    · obtain rfl := Except.ok.inj (hs.symm.trans hk)
      exact h.present hkey
    · exact h.fills s' hs' k hk

/-- A key is seeded in front of the rest. -/
theorem Seeded.fill {s : Seed} {seeds : List Seed} {db db' : Lmdb} {key : Bytes}
    (hs : s.key = .ok key) (hkey : db[key]? = none)
    (h : Seeded seeds (db.insert key s.defval.encode) db') : Seeded (s :: seeds) db db' where
  keeps := by
    intro k
    have hk : (db.insert key s.defval.encode)[k]? =
        if key = k then some s.defval.encode else db[k]? := by
      rw [Std.ExtTreeMap.getElem?_insert]
      simp
    obtain heq | ⟨habs, s', hs', hrest⟩ := h.keeps k
    · by_cases hkk : key = k
      · rw [hk, if_pos hkk] at heq
        exact Or.inr ⟨hkk ▸ hkey, s, List.mem_cons_self, hkk ▸ hs, heq⟩
      · rw [hk, if_neg hkk] at heq
        exact Or.inl heq
    · by_cases hkk : key = k
      · rw [hk, if_pos hkk] at habs
        exact absurd habs (by simp)
      · rw [hk, if_neg hkk] at habs
        exact Or.inr ⟨habs, s', List.mem_cons_of_mem s hs', hrest⟩
  fills := by
    intro s' hs' k hk
    rcases List.mem_cons.mp hs' with rfl | hs'
    · obtain rfl := Except.ok.inj (hs.symm.trans hk)
      exact h.present (by simp)
    · exact h.fills s' hs' k hk

/-- Nor do the blocks in order. -/
theorem seedAll_rdonly {f : ℕ → SeedFaults} {overwrite : Bool} {seeds : List Seed} :
    ∀ {i : ℕ} {txn txn' : StorageTxn}, seedAll f overwrite i seeds txn = .ok txn' →
      txn'.txn.rdonly = txn.txn.rdonly := by
  induction seeds with
  | nil =>
    intro i txn txn' h
    obtain rfl := Except.ok.inj h
    rfl
  | cons s seeds ih =>
    intro i txn txn' h
    rw [seedAll] at h
    split at h
    · exact absurd h (by simp)
    split at h
    · exact absurd h (by simp)
    · next hone => exact (ih h).trans (seedKey_rdonly hone)

/-- **The blocks in order.** -/
theorem seedAll_ok {f : ℕ → SeedFaults} (hf : ∀ i, (f i).probe.atOp = none) {seeds : List Seed}
    (hseeds : ∀ s ∈ seeds, ∀ key, s.key = .ok key → ValidKey key) :
    ∀ (i : ℕ) {txn txn' : StorageTxn}, seedAll f false i seeds txn = .ok txn' →
      Seeded seeds txn.txn.view txn'.txn.view := by
  induction seeds with
  | nil =>
    intro i txn txn' h
    obtain rfl := Except.ok.inj h
    exact ⟨fun _ => Or.inl rfl, by simp⟩
  | cons s seeds ih =>
    intro i txn txn' h
    rw [seedAll] at h
    rcases hkey : s.key with rc | key
    · rw [hkey] at h
      exact absurd h (by simp)
    rw [hkey] at h
    simp only at h
    rcases hone : seedKey (f i) false s key txn with rc | txn₁
    · rw [hone] at h
      exact absurd h (by simp)
    rw [hone] at h
    have hrest := ih (fun s' hs' => hseeds s' (List.mem_cons_of_mem s hs')) (i + 1) h
    obtain ⟨hpresent, hview⟩ | ⟨habs, hview⟩ :=
      seedKey_ok (hseeds s List.mem_cons_self key hkey) (hf i) hone
    · rw [hview] at hrest
      exact hrest.skip hkey hpresent
    · rw [hview] at hrest
      exact hrest.fill hkey habs

/-- An operation of a bootstrap fails: the transaction does not begin, a block that is reached has
no key or does not finish, or the commit fails. -/
def BootFaults.Fails (f : BootFaults) (seeds : List Seed) (db : Lmdb) : Prop :=
  (∃ rc, (storageTxnBegin f.atBegin rwEnv false (.idle db)).1 = .error rc) ∨
    (∃ i s txn, seeds[i]? = some s ∧
      seedAll f.seed false 0 (seeds.take i) ⟨false, ⟨false, db⟩⟩ = .ok txn ∧
      ∀ key, s.key = .ok key → ∃ rc, seedKey (f.seed i) false s key txn = .error rc) ∨
    f.atCommit.atCommit ≠ Option.none

/-- Where blocks fail. -/
theorem seedAll_eq_error_iff {f : ℕ → SeedFaults} {overwrite : Bool} {seeds : List Seed} :
    ∀ {k : ℕ} {txn : StorageTxn}, (∃ rc, seedAll f overwrite k seeds txn = .error rc) ↔
      ∃ i s txn', seeds[i]? = some s ∧ seedAll f overwrite k (seeds.take i) txn = .ok txn' ∧
        ∀ key, s.key = .ok key → ∃ rc, seedKey (f (k + i)) overwrite s key txn' = .error rc := by
  induction seeds with
  | nil =>
    intro k txn
    simp [seedAll]
  | cons s seeds ih =>
    intro k txn
    -- the first block fails, or it succeeds and one of the others fails
    have hzero : ∀ {P : ℕ → Prop}, (∃ i, P i) ↔ P 0 ∨ ∃ i, P (i + 1) := by
      intro P
      exact ⟨fun ⟨i, hi⟩ => by cases i with
          | zero => exact Or.inl hi
          | succ i => exact Or.inr ⟨i, hi⟩,
        fun h => h.elim (fun h0 => ⟨0, h0⟩) fun ⟨i, hi⟩ => ⟨i + 1, hi⟩⟩
    rw [hzero]
    rcases hkey : s.key with rc | key
    · simp [seedAll, hkey]
    · rcases hone : seedKey (f k) overwrite s key txn with rc | txn₁
      · simp [seedAll, hkey, hone]
      · simp [seedAll, hkey, hone, ih, Nat.add_comm, Nat.add_left_comm]

/-- The begin of a bootstrap fails and leaves the environment, or opens a transaction. -/
theorem storageTxnBegin_rw (f : Fault) (db : Lmdb) :
    (∃ rc, storageTxnBegin f rwEnv false (.idle db) = (.error rc, .idle db)) ∨
      storageTxnBegin f rwEnv false (.idle db) = (.ok ⟨false, ⟨false, db⟩⟩, ⟨db, true⟩) := by
  rw [storageTxnBegin, if_neg (by decide), mdbTxnBegin]
  rcases f.atBegin with _ | err
  · cases hmem : f.nomem with
    | true => exact Or.inl ⟨_, rfl⟩
    | false => exact Or.inr rfl
  · exact Or.inl ⟨_, rfl⟩

/-- **What a bootstrap can do**: an operation of it fails, and then nothing changes; or none fails,
and what the blocks made of the contents is committed. -/
theorem bootstrap_cases (f : BootFaults) (seeds : List Seed) (db : Lmdb) :
    f.Fails seeds db ∧ (∃ rc, bootstrap f false seeds (.idle db) = (.error rc, .idle db)) ∨
      ¬f.Fails seeds db ∧ ∃ txn, seedAll f.seed false 0 seeds ⟨false, ⟨false, db⟩⟩ = .ok txn ∧
        bootstrap f false seeds (.idle db) = (.ok (), .idle txn.txn.view) := by
  have hblocks : (∃ rc, seedAll f.seed false 0 seeds ⟨false, ⟨false, db⟩⟩ = .error rc) ↔ _ :=
    seedAll_eq_error_iff
  simp only [Nat.zero_add] at hblocks
  rw [BootFaults.Fails, ← hblocks, bootstrap]
  obtain ⟨rc, hbegin⟩ | hbegin := storageTxnBegin_rw f.atBegin db
  · rw [hbegin]
    exact Or.inl ⟨Or.inl ⟨rc, rfl⟩, rc, rfl⟩
  rw [hbegin]
  simp only
  rcases hall : seedAll f.seed false 0 seeds ⟨false, ⟨false, db⟩⟩ with rc | txn
  · -- an error of any block aborts the transaction
    exact Or.inl ⟨Or.inr (Or.inl ⟨rc, rfl⟩), rc, rfl⟩
  have hro : txn.txn.rdonly = false := seedAll_rdonly hall
  simp only [storageTxnCommit, mdbTxnCommit, hro, Bool.false_eq_true, if_false]
  rcases hcommit : f.atCommit.atCommit with _ | err
  · exact Or.inr ⟨by simp, txn, rfl, rfl⟩
  · refine Or.inl ⟨Or.inr (Or.inr (Option.some_ne_none err)), mapMdbRc err, ?_⟩
    simp [mdbTxnAbort, hro, Except.mapError, MdbEnv.idle]

/-- **A bootstrap that succeeds** fills in missing keys with their defaults and changes nothing
else. -/
theorem bootstrap_ok {f : BootFaults} (hf : f.Probes) {seeds : List Seed}
    (hseeds : ∀ s ∈ seeds, ∀ key, s.key = .ok key → ValidKey key) {db : Lmdb} {e : MdbEnv}
    (h : bootstrap f false seeds (.idle db) = (.ok (), e)) : Seeded seeds db e.committed := by
  obtain ⟨-, rc, herr⟩ | ⟨-, txn, hall, hok⟩ := bootstrap_cases f seeds db
  · rw [herr] at h
    exact absurd (congrArg Prod.fst h) (by simp)
  · obtain rfl : MdbEnv.idle txn.txn.view = e := congrArg Prod.snd (hok.symm.trans h)
    exact seedAll_ok hf hseeds 0 hall

/-- One block in which nothing fails succeeds. -/
theorem seedKey_none {s : Seed} {key : Bytes} (hkey : ValidKey key) {txn : StorageTxn}
    (hw : txn.readonly = false ∧ txn.txn.rdonly = false) :
    ∃ txn', seedKey ⟨.none, .none⟩ false s key txn = .ok txn' ∧
      txn'.readonly = false ∧ txn'.txn.rdonly = false := by
  have hset : storageTxnSetValue .none txn key s.defval s.type_ne =
      .ok { txn with txn := ⟨false, txn.txn.view.insert key s.defval.encode⟩ } := by
    rw [storageTxnSetValue_eq, writeInTxn, if_neg (by simp [hw.1]), txnSetValue_eq,
      if_neg (by simp [Fault.none]), txnPutRaw_valid hkey hw.2]
    rfl
  rw [seedKey, if_neg Bool.false_ne_true]
  split
  · exact ⟨_, hset, hw.1, rfl⟩
  · exact ⟨txn, rfl, hw⟩

/-- So do the blocks in order. -/
theorem seedAll_none {seeds : List Seed}
    (hseeds : ∀ s ∈ seeds, ∃ key, s.key = .ok key ∧ ValidKey key) :
    ∀ (i : ℕ) (txn : StorageTxn), txn.readonly = false ∧ txn.txn.rdonly = false →
      ∃ txn', seedAll BootFaults.none.seed false i seeds txn = .ok txn' ∧
        txn'.readonly = false ∧ txn'.txn.rdonly = false := by
  induction seeds with
  | nil => exact fun i txn hw => ⟨txn, rfl, hw⟩
  | cons s seeds ih =>
    intro i txn hw
    obtain ⟨key, hkey, hvalid⟩ := hseeds s List.mem_cons_self
    obtain ⟨txn₁, hone, hw₁⟩ := seedKey_none (s := s) hvalid hw
    have hmore : ∀ s' ∈ seeds, ∃ key, s'.key = .ok key ∧ ValidKey key :=
      fun s' hs' => hseeds s' (List.mem_cons_of_mem s hs')
    obtain ⟨txn', hrest, hw'⟩ := ih hmore (i + 1) txn₁ hw₁
    refine ⟨txn', ?_, hw'⟩
    rw [seedAll, hkey]
    simp only
    rw [show seedKey (BootFaults.none.seed i) false s key txn = .ok txn₁ from hone]
    exact hrest

/-- **A bootstrap in which nothing fails succeeds.** -/
theorem bootstrap_none {seeds : List Seed}
    (hseeds : ∀ s ∈ seeds, ∃ key, s.key = .ok key ∧ ValidKey key) (db : Lmdb) :
    (bootstrap .none false seeds (.idle db)).1 = .ok () := by
  obtain ⟨txn', hall, -, hro⟩ := seedAll_none hseeds 0 ⟨false, ⟨false, db⟩⟩ ⟨rfl, rfl⟩
  have hbegin : storageTxnBegin BootFaults.none.atBegin rwEnv false (.idle db) =
      (.ok ⟨false, ⟨false, db⟩⟩, ⟨db, true⟩) := rfl
  rw [bootstrap, hbegin]
  simp only [hall]
  rw [storageTxnCommit, mdbTxnCommit, if_neg (by simp [hro])]
  rfl

/-! ### Valid contents -/

/-- The stored bytes carry a typed value: its getter returns it to a caller with enough
room. -/
def Carries (data : Bytes) (v : Value) : Prop := ∃ cap, (readAs v.storageType cap data).1 = .ok v

/-- The values the MIB allows for a scalar. -/
def Scalar.InRange : Scalar → Value → Prop
  | .deviceName, .bytes s => s.length ≤ 63
  | .tempThresholdMilliC, .int32 v => -40000 ≤ v.toInt ∧ v.toInt ≤ 125000
  | .adminStatusExt, .int32 v => 1 ≤ v.toInt ∧ v.toInt ≤ 3
  | .sampleIntervalSec, .uint32 v => 1 ≤ v.toNat ∧ v.toNat ≤ 86400
  | _, _ => False

/-- The values the MIB allows for a cell of a column. -/
def PortColumn.InRange : PortColumn → Value → Prop
  | .portDescr, .bytes s => s.length ≤ 63
  | .portAdminStatus, .int32 v => 1 ≤ v.toInt ∧ v.toInt ≤ 3
  | .portAlarmThresholdMilliC, .int32 v => -40000 ≤ v.toInt ∧ v.toInt ≤ 125000
  | _, _ => False

/-- The stored bytes carry a value that is allowed. -/
def Holds (allowed : Value → Prop) (data : Bytes) : Prop := ∃ v, Carries data v ∧ allowed v

/-- What is stored at a place is allowed there: a scalar or a cell may be missing. -/
def AllowedAt (m : Modes) (l : Loc) (content : Option Bytes) : Prop :=
  ∀ data, content = some data → (∀ s, l = Scalar.loc m s → Holds s.InRange data) ∧
    ∀ c row, l = PortColumn.cellLoc m c [row] → Holds c.InRange data

/-- **What is stored at a place is valid**: it is allowed there, and a scalar is not missing. -/
def ValidAt (m : Modes) (l : Loc) (content : Option Bytes) : Prop :=
  AllowedAt m l content ∧ ∀ s, l = Scalar.loc m s → content ≠ none

/-- **Valid contents.** -/
def Envs.Valid (m : Modes) (envs : Envs) : Prop := ∀ l, ValidAt m l (envs.stored l)

/-- The SYNTAX of a scalar accepts the values the MIB allows. -/
theorem Scalar.accepts_iff (m : Modes) (s : Scalar) (v : Value) :
    (s.object m).syn.Accepts v ↔ s.InRange v := by
  cases s with
  | deviceName => cases v <;> simp [Scalar.object, Syn.Accepts, Scalar.InRange, InSome]
  | tempThresholdMilliC => cases v <;> simp [Scalar.object, Syn.Accepts, Scalar.InRange, InSome]
  | adminStatusExt =>
    cases v with
    | int32 v => simp [Scalar.object, Syn.Accepts, Scalar.InRange, InSome, ← label_iff_between]
    | _ => simp [Scalar.object, Syn.Accepts, Scalar.InRange]
  | sampleIntervalSec => cases v <;> simp [Scalar.object, Syn.Accepts, Scalar.InRange, InSome]

/-- The SYNTAX of a column accepts the values the MIB allows. -/
theorem PortColumn.accepts_iff (m : Modes) (c : PortColumn) (v : Value) :
    (c.object m).syn.Accepts v ↔ c.InRange v := by
  cases c with
  | portDescr => cases v <;> simp [PortColumn.object, Syn.Accepts, PortColumn.InRange, InSome]
  | portAdminStatus =>
    cases v with
    | int32 v =>
      simp [PortColumn.object, Syn.Accepts, PortColumn.InRange, InSome, ← label_iff_between]
    | _ => simp [PortColumn.object, Syn.Accepts, PortColumn.InRange]
  | portAlarmThresholdMilliC =>
    cases v <;> simp [PortColumn.object, Syn.Accepts, PortColumn.InRange, InSome]

section Valid

variable {m : Modes} {l : Loc} {content content' : Option Bytes}

/-- Bytes that read alike carry the same values. -/
theorem Holds.of_readsAlike {allowed : Value → Prop} {data data' : Bytes}
    (h : ReadsAlike (some data) (some data')) (hd : Holds allowed data) : Holds allowed data' := by
  obtain ⟨v, ⟨cap, hread⟩, hv⟩ := hd
  refine ⟨v, ⟨cap, ?_⟩, hv⟩
  rw [← h v.storageType cap]
  exact hread

/-- What reads like valid contents is valid. -/
theorem ValidAt.of_readsAlike (h : ReadsAlike content content') (hc : ValidAt m l content) :
    ValidAt m l content' := by
  rcases content with _ | data
  · rwa [readsAlike_none_iff.mp h]
  · rcases content' with _ | data'
    · exact h.elim
    · refine ⟨?_, by simp⟩
      rintro _ ⟨⟩
      obtain ⟨hs, hcell⟩ := hc.1 data rfl
      exact ⟨fun s hl => (hs s hl).of_readsAlike h,
        fun c row hl => (hcell c row hl).of_readsAlike h⟩

/-- An accepted value is valid where its scalar is kept. -/
theorem validAt_scalar {s : Scalar} {v : Value} (h : (s.object m).syn.Accepts v) :
    ValidAt m (s.loc m) (some v.encode) := by
  refine ⟨?_, by simp⟩
  rintro _ ⟨⟩
  constructor
  · intro t hl
    obtain rfl := Scalar.loc_inj hl
    exact ⟨v, exists_readAs_encode v, (s.accepts_iff m v).mp h⟩
  · intro c row hl
    exact absurd hl (s.loc_ne_cellLoc m c [row])

/-- An accepted value is valid in a cell of its column. -/
theorem validAt_cell {c : PortColumn} {v : Value} (h : (c.object m).syn.Accepts v)
    (inst : TableInstance) : ValidAt m (c.cellLoc m inst) (some v.encode) := by
  refine ⟨?_, by simp⟩
  rintro _ ⟨⟩
  constructor
  · intro s hl
    exact absurd hl.symm (s.loc_ne_cellLoc m c inst)
  · intro d row hl
    obtain ⟨rfl, -⟩ := PortColumn.cellLoc_inj hl
    exact ⟨v, exists_readAs_encode v, (c.accepts_iff m v).mp h⟩

/-- A place that is no scalar's and no cell's can hold anything. -/
theorem validAt_other (hs : ∀ s, l ≠ Scalar.loc m s)
    (hc : ∀ c inst, l ≠ PortColumn.cellLoc m c inst) : ValidAt m l content :=
  ⟨fun _ _ => ⟨fun s hl => absurd hl (hs s), fun c row hl => absurd hl (hc c [row])⟩,
    fun s hl => absurd hl (hs s)⟩

end Valid

/-! ### Startup -/

section Startup

variable {rows : ℕ} {m : Modes}

/-- **What is seeded in an environment**: the scalars and the cells it keeps, and in the cache the
read-only scalars. -/
theorem bootSeedsOf_cases {id : EnvId} {s : Seed} (hs : s ∈ bootSeedsOf rows m id) :
    (∃ t : Scalar, (t.object m).mode.env = id ∧ s = t.seed m) ∨
      (id = .cache ∧ s ∈ readOnlySeeds) ∨
        ∃ (c : PortColumn) (row : ℕ), 1 ≤ row ∧ row ≤ rows ∧ (c.object m).mode.env = id ∧
          s = c.seed m (.ofNat row) := by
  have hscalar : ∀ {mode : StorageMode}, s ∈ scalarSeeds m mode →
      ∃ t : Scalar, (t.object m).mode.env = mode.env ∧ s = t.seed m := by
    intro mode hs
    obtain ⟨t, ht, rfl⟩ := List.mem_map.mp hs
    obtain ⟨-, hmode⟩ : t ∈ Scalar.all ∧ (t.object m).mode = mode := by simpa using ht
    exact ⟨t, by rw [hmode], rfl⟩
  have hcell : ∀ {mode : StorageMode}, s ∈ cellSeedsOf rows m mode →
      ∃ (c : PortColumn) (row : ℕ), 1 ≤ row ∧ row ≤ rows ∧ (c.object m).mode.env = mode.env ∧
        s = c.seed m (.ofNat row) := by
    intro mode hs
    obtain ⟨c, hc, hs⟩ := List.mem_flatMap.mp hs
    obtain ⟨row, hrow, rfl⟩ := List.mem_map.mp hs
    obtain ⟨-, hmode⟩ : c ∈ PortColumn.all ∧ (c.object m).mode = mode := by simpa using hc
    rw [List.mem_range'_1] at hrow
    exact ⟨c, row, hrow.1, by omega, by rw [hmode], rfl⟩
  cases id with
  | config =>
    rcases List.mem_append.mp hs with hs | hs
    · exact Or.inl (hscalar hs)
    · exact Or.inr (Or.inr (hcell hs))
  | cache =>
    rcases List.mem_append.mp hs with hs | hs
    · rcases List.mem_append.mp hs with hs | hs
      · exact Or.inl (hscalar hs)
      · exact Or.inr (Or.inl ⟨rfl, hs⟩)
    · exact Or.inr (Or.inr (hcell hs))

/-- The read-only scalars share no key with a writable object. -/
theorem key_readOnlySeeds {s : Seed} (hs : s ∈ readOnlySeeds) :
    ∃ key, s.key = .ok key ∧ ValidKey key ∧ (46 : UInt8) ∉ key ∧ ∀ t : Scalar, key ≠ t.name := by
  have hname : ∀ key : Bytes, (∀ t ∈ Scalar.all, key ≠ t.name) → ∀ t : Scalar, key ≠ t.name := by
    intro key hall t
    exact hall t (by cases t <;> simp [Scalar.all])
  simp only [readOnlySeeds, List.mem_cons, List.not_mem_nil, or_false] at hs
  rcases hs with rfl | rfl | rfl | rfl
  all_goals
    exact ⟨_, rfl, by decide, by decide, hname _ (by decide)⟩

/-- The key of a cell is built. -/
theorem PortColumn.key_seed (m : Modes) (c : PortColumn) (row : UInt32) :
    (c.seed m row).key = .ok (cellKey c.name [row]) ∧ ValidKey (cellKey c.name [row]) := by
  have hlen : 1 ≤ c.name.length ∧ c.name.length ≤ 64 := by
    cases c <;> decide
  exact tableCellKey_single hlen.1 hlen.2 row

/-- **Every block is right for its environment**: its key is built, and its default is valid
there. -/
theorem fits_bootSeedsOf {id : EnvId} {s : Seed} (hs : s ∈ bootSeedsOf rows m id) :
    ∃ key, s.key = .ok key ∧ ValidKey key ∧ ValidAt m (id, key) (some s.defval.encode) := by
  obtain ⟨t, rfl, rfl⟩ | ⟨rfl, hro⟩ | ⟨c, row, -, -, rfl, rfl⟩ := bootSeedsOf_cases hs
  · exact ⟨t.name, rfl, t.validKey_name, validAt_scalar (t.accepts_defval m)⟩
  · obtain ⟨key, hkey, hvalid, hdot, hname⟩ := key_readOnlySeeds hro
    refine ⟨key, hkey, hvalid, validAt_other ?_ ?_⟩
    · intro t hl
      exact hname t (Prod.ext_iff.mp hl).2
    · intro c inst hl
      refine hdot ?_
      rw [show key = cellKey c.name inst from (Prod.ext_iff.mp hl).2, cellKey]
      simp
  · obtain ⟨hkey, hvalid⟩ := c.key_seed m (.ofNat row)
    exact ⟨_, hkey, hvalid, validAt_cell (c.accepts_defval m) [.ofNat row]⟩

/-- Its key, once built, is valid. -/
theorem validKey_bootSeedsOf {id : EnvId} {s : Seed} (hs : s ∈ bootSeedsOf rows m id) {key : Bytes}
    (hkey : s.key = .ok key) : ValidKey key := by
  obtain ⟨key', hkey', hvalid, -⟩ := fits_bootSeedsOf hs
  obtain rfl := Except.ok.inj (hkey.symm.trans hkey')
  exact hvalid

/-- Every scalar is seeded in the environment that keeps it. -/
theorem mem_bootSeedsOf (t : Scalar) : t.seed m ∈ bootSeedsOf rows m (t.loc m).1 := by
  have hmem : t.seed m ∈ scalarSeeds m (t.object m).mode := by
    refine List.mem_map.mpr ⟨t, ?_, rfl⟩
    cases t <;> simp [Scalar.all]
  show t.seed m ∈ bootSeedsOf rows m (t.object m).mode.env
  cases hmode : (t.object m).mode with
  | persistent =>
    rw [hmode] at hmem
    exact List.mem_append_left _ hmem
  | volatile =>
    rw [hmode] at hmem
    exact List.mem_append_left _ (List.mem_append_left _ hmem)

/-- A place of an environment that was seeded is valid, if it was allowed before. -/
theorem validAt_of_seeded {id : EnvId} {db db' : Lmdb} (h : Seeded (bootSeedsOf rows m id) db db')
    {key : Bytes} (hbefore : AllowedAt m (id, key) db[key]?) : ValidAt m (id, key) db'[key]? := by
  constructor
  · obtain heq | ⟨-, s, hs, hkey, heq⟩ := h.keeps key
    · rwa [heq]
    · obtain ⟨key', hkey', -, hvalid⟩ := fits_bootSeedsOf hs
      obtain rfl := Except.ok.inj (hkey.symm.trans hkey')
      rw [heq]
      exact hvalid.1
  · intro t hl
    obtain ⟨rfl, rfl⟩ := Prod.mk.inj hl
    exact h.fills _ (mem_bootSeedsOf t) t.name rfl

/-- A startup that succeeds has seeded both environments. -/
theorem seeded_of_subagentStorageInitOf {fconfig fcache : BootFaults} (hconfig : fconfig.Probes)
    (hcache : fcache.Probes) {envs envs' : Envs}
    (h : subagentStorageInitOf rows m fconfig fcache envs = (.ok (), envs')) (id : EnvId) :
    Seeded (bootSeedsOf rows m id) (envs id) (envs' id) := by
  have hkeys : ∀ id, ∀ s ∈ bootSeedsOf rows m id, ∀ key, s.key = .ok key → ValidKey key :=
    fun _ _ hs _ hkey => validKey_bootSeedsOf hs hkey
  rw [subagentStorageInitOf] at h
  rcases hboot : configBootstrapDefaultsOf rows m fconfig (.idle (envs .config)) with ⟨rc | u, e⟩
  · rw [hboot] at h
    exact absurd (congrArg Prod.fst h) (by simp)
  rw [hboot] at h
  rcases hboot' : cacheBootstrapDefaultsOf rows m fcache false (.idle (envs .cache)) with ⟨r, e'⟩
  rw [hboot'] at h
  obtain ⟨rfl, rfl⟩ := Prod.mk.inj h
  cases id with
  | config => exact bootstrap_ok hconfig (hkeys .config) hboot
  | cache => exact bootstrap_ok hcache (hkeys .cache) hboot'

variable (rows m) in
/-- **A startup in which nothing fails succeeds**, whatever the environments hold. -/
theorem subagentStorageInitOf_none (envs : Envs) :
    (subagentStorageInitOf rows m .none .none envs).1 = .ok () := by
  have hseeds : ∀ id, ∀ s ∈ bootSeedsOf rows m id, ∃ key, s.key = .ok key ∧ ValidKey key := by
    intro id s hs
    obtain ⟨key, hkey, hvalid, -⟩ := fits_bootSeedsOf hs
    exact ⟨key, hkey, hvalid⟩
  have hconfig := bootstrap_none (hseeds .config) (envs .config)
  rw [subagentStorageInitOf, configBootstrapDefaultsOf]
  rcases hboot : bootstrap .none false (bootSeedsOf rows m .config) (.idle (envs .config)) with
    ⟨rc | _, e⟩
  · rw [hboot] at hconfig
    exact absurd hconfig (by simp)
  · exact bootstrap_none (hseeds .cache) (envs .cache)

/-- **Startup makes the contents valid.** If every writable object was missing or held a value
of its type and range, and both bootstraps succeed, every one that is there holds such a value
afterwards, and no scalar is missing. -/
theorem valid_of_subagentStorageInit {fconfig fcache : BootFaults} (hconfig : fconfig.Probes)
    (hcache : fcache.Probes) {envs envs' : Envs} (hbefore : ∀ l, AllowedAt m l (envs.stored l))
    (h : subagentStorageInit m fconfig fcache envs = (.ok (), envs')) : envs'.Valid m := by
  rintro ⟨id, key⟩
  exact validAt_of_seeded (seeded_of_subagentStorageInitOf hconfig hcache h id) (hbefore (id, key))

end Startup

end AgentxSubagent
