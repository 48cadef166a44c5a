import AgentxSubagent.Subagent.Restart

/-!
# A bootstrap only adds

What `config_bootstrap_defaults` and `cache_bootstrap_defaults` do to an environment, said without
the blocks they are made of. `AgentxSubagent.BootDefault` is the table of the defaults: which keys
an environment is to hold, and what each starts at. `AgentxSubagent.FilledIn` is the effect: the
missing keys of the table are there with their defaults, and everything else is as it was.

The blocks test for a key with the getter of its type, and for a byte string with room for one
byte. So a key that is there answers in many ways: with its value, with
`STORAGE_ERR_TYPE`, `STORAGE_ERR_INVAL` or `STORAGE_ERR_TOOBIG`. Only
`STORAGE_ERR_NOTFOUND` leads to a write, and a getter that reads at all never answers that
(`AgentxSubagent.probe_notFound_iff`).

* `AgentxSubagent.bootDefault_iff`: the blocks are those of the table.
* `AgentxSubagent.bootstrap_only_adds`: a bootstrap fills in what is missing or changes nothing;
  run again it changes nothing, and run later, over whatever was written since and with more rows,
  it fills in what is missing then. No bootstrap of any run replaces a value that is there.
-/

namespace AgentxSubagent

/-! ### The table of the defaults -/

/-- **The keys an environment starts with, and their defaults**, for a table of `rows` rows. -/
inductive BootDefault (rows : ℕ) (m : Modes) : EnvId → Bytes → Value → Prop
  | scalar (s : Scalar) : BootDefault rows m (s.object m).mode.env s.name (s.object m).defval
  | cpuTempMilliC : BootDefault rows m .cache (ascii "cpuTempMilliC") (.int32 0)
  | sampleCount : BootDefault rows m .cache (ascii "sampleCount") (.uint32 0)
  | lastUpdateEpoch : BootDefault rows m .cache (ascii "lastUpdateEpoch") (.uint32 0)
  | statusText : BootDefault rows m .cache (ascii "statusText") (.bytes (ascii "initialising"))
  | cell (c : PortColumn) (row : ℕ) (h1 : 1 ≤ row) (hrows : row ≤ rows) :
    BootDefault rows m (c.object m).mode.env (cellKey c.name [.ofNat row]) (c.object m).defval

section Table

variable {rows : ℕ} {m : Modes} {id : EnvId} {key : Bytes} {v v' : Value}

/-- The blocks of the read-only scalars. -/
theorem bootDefault_of_readOnlySeeds {s : Seed} (hs : s ∈ readOnlySeeds) :
    ∃ key, s.key = .ok key ∧ BootDefault rows m .cache key s.defval := by
  simp only [readOnlySeeds, List.mem_cons, List.not_mem_nil, or_false] at hs
  rcases hs with rfl | rfl | rfl | rfl
  · exact ⟨_, rfl, .cpuTempMilliC⟩
  · exact ⟨_, rfl, .sampleCount⟩
  · exact ⟨_, rfl, .lastUpdateEpoch⟩
  · exact ⟨_, rfl, .statusText⟩

/-- The read-only scalars are seeded in the cache. -/
theorem mem_bootSeedsOf_readOnly {s : Seed} (hs : s ∈ readOnlySeeds) :
    s ∈ bootSeedsOf rows m .cache :=
  List.mem_append_left _ (List.mem_append_right _ hs)

/-- **The blocks of a bootstrap are those of the table.** -/
theorem bootDefault_iff : BootDefault rows m id key v ↔
    ∃ s ∈ bootSeedsOf rows m id, s.key = .ok key ∧ s.defval = v := by
  constructor
  · rintro (s | _ | _ | _ | _ | ⟨c, row, h1, hrows⟩)
    · exact ⟨s.seed m, mem_bootSeedsOf s, rfl, rfl⟩
    · exact ⟨_, mem_bootSeedsOf_readOnly (.head _), rfl, rfl⟩
    · exact ⟨_, mem_bootSeedsOf_readOnly (.tail _ (.head _)), rfl, rfl⟩
    · exact ⟨_, mem_bootSeedsOf_readOnly (.tail _ (.tail _ (.head _))), rfl, rfl⟩
    · exact ⟨_, mem_bootSeedsOf_readOnly (.tail _ (.tail _ (.tail _ (.head _)))), rfl, rfl⟩
    · exact ⟨c.seed m (.ofNat row), mem_bootSeedsOf_cell c h1 hrows,
        (c.key_seed m (.ofNat row)).1, rfl⟩
  · rintro ⟨s, hs, hkey, rfl⟩
    obtain ⟨t, rfl, rfl⟩ | ⟨rfl, hro⟩ | ⟨c, row, h1, hrows, rfl, rfl⟩ := bootSeedsOf_cases hs
    · obtain rfl := Except.ok.inj hkey
      exact .scalar t
    · obtain ⟨key', hkey', hdefault⟩ := bootDefault_of_readOnlySeeds hro
      obtain rfl := Except.ok.inj (hkey.symm.trans hkey')
      exact hdefault
    · obtain rfl := Except.ok.inj (hkey.symm.trans (c.key_seed m (.ofNat row)).1)
      exact .cell c row h1 hrows

/-- What is seeded under the name of a read-only scalar is its default. -/
theorem defval_of_key_readOnly {s s' : Seed} (hs : s ∈ readOnlySeeds)
    (hs' : s' ∈ bootSeedsOf rows m id) (hkey : s'.key = s.key) : s'.defval = s.defval := by
  obtain ⟨key, hkey₀, -, hdot, hname⟩ := key_readOnlySeeds hs
  obtain ⟨t, -, rfl⟩ | ⟨-, hro⟩ | ⟨c, row, -, -, -, rfl⟩ := bootSeedsOf_cases hs'
  · exact absurd (Except.ok.inj (hkey.trans hkey₀)).symm (hname t)
  · -- the four names are different
    simp only [readOnlySeeds, List.mem_cons, List.not_mem_nil, or_false] at hs hro
    rcases hs with rfl | rfl | rfl | rfl <;> rcases hro with rfl | rfl | rfl | rfl
    all_goals first
      | rfl
      | exact absurd (Except.ok.inj hkey) (by decide)
  · have hcell := Except.ok.inj ((c.key_seed m (.ofNat row)).1.symm.trans (hkey.trans hkey₀))
    refine absurd ?_ hdot
    rw [← hcell, cellKey]
    simp

/-- **The table has one default for a key.** -/
theorem BootDefault.unique (h : BootDefault rows m id key v) (h' : BootDefault rows m id key v') :
    v = v' := by
  obtain ⟨s, hs, hkey, rfl⟩ := bootDefault_iff.mp h
  obtain ⟨s', hs', hkey', rfl⟩ := bootDefault_iff.mp h'
  obtain ⟨t, -, rfl⟩ | ⟨-, hro⟩ | ⟨c, row, -, -, -, rfl⟩ := bootSeedsOf_cases hs
  · obtain rfl := Except.ok.inj hkey
    exact (defval_of_key_scalar hs' hkey').symm
  · exact (defval_of_key_readOnly hro hs' (hkey'.trans hkey.symm)).symm
  · obtain rfl := Except.ok.inj (hkey.symm.trans (c.key_seed m (.ofNat row)).1)
    obtain ⟨d, hname, hdef⟩ := column_of_key_cell hs' c.dot_notMem_name hkey'
    obtain rfl := PortColumn.name_inj hname
    exact hdef.symm

end Table

/-! ### The effect -/

/-- **The missing keys of the table are filled in** with their defaults, and nothing else
changes. -/
structure FilledIn (rows : ℕ) (m : Modes) (id : EnvId) (db db' : Lmdb) : Prop where
  keeps : ∀ key data : Bytes, db[key]? = some data → db'[key]? = some data
  fills : ∀ key v, BootDefault rows m id key v → db[key]? = none → db'[key]? = some v.encode
  only : ∀ key : Bytes, db[key]? = none → (∀ v, ¬BootDefault rows m id key v) → db'[key]? = none

/-- Seeding fills in what is missing. -/
theorem Seeded.filledIn {rows : ℕ} {m : Modes} {id : EnvId} {db db' : Lmdb}
    (h : Seeded (bootSeedsOf rows m id) db db') : FilledIn rows m id db db' where
  keeps := by
    intro key data hdata
    obtain heq | ⟨habs, -⟩ := h.keeps key
    · rw [heq, hdata]
    · exact absurd habs (by simp [hdata])
  fills := by
    intro key v hdefault habs
    obtain ⟨s, hs, hkey, -⟩ := bootDefault_iff.mp hdefault
    obtain heq | ⟨-, s', hs', hkey', hstored⟩ := h.keeps key
    · exact absurd (heq.trans habs) (h.fills s hs key hkey)
    · rw [hstored, hdefault.unique (bootDefault_iff.mpr ⟨s', hs', hkey', rfl⟩)]
  only := by
    intro key habs hno
    obtain heq | ⟨-, s, hs, hkey, -⟩ := h.keeps key
    · exact heq.trans habs
    · exact absurd (bootDefault_iff.mpr ⟨s, hs, hkey, rfl⟩) (hno s.defval)

/-- Where no key of the table is missing, filling in changes nothing. -/
theorem FilledIn.eq_of_present {rows : ℕ} {m : Modes} {id : EnvId} {db db' : Lmdb}
    (h : FilledIn rows m id db db')
    (hpresent : ∀ key v, BootDefault rows m id key v → db[key]? ≠ none) : db' = db := by
  ext1 key
  rcases hdata : db[key]? with _ | data
  · exact h.only key hdata fun v hdefault => hpresent key v hdefault hdata
  · exact h.keeps key data hdata

/-- No key of the table is missing afterwards. -/
theorem FilledIn.present {rows : ℕ} {m : Modes} {id : EnvId} {db db' : Lmdb}
    (h : FilledIn rows m id db db') {key : Bytes} {v : Value}
    (hdefault : BootDefault rows m id key v) : db'[key]? ≠ none := by
  rcases hdata : db[key]? with _ | data
  · rw [h.fills key v hdefault hdata]
    exact Option.some_ne_none _
  · rw [h.keeps key data hdata]
    exact Option.some_ne_none _

/-- The bootstrap of an environment: `config_bootstrap_defaults`, or `cache_bootstrap_defaults`
without overwriting. -/
def bootstrapDefaultsOf (rows : ℕ) (m : Modes) (f : BootFaults) :
    EnvId → MdbEnv → Except StorageErr Unit × MdbEnv
  | .config => configBootstrapDefaultsOf rows m f
  | .cache => cacheBootstrapDefaultsOf rows m f false

/-- **What the bootstrap of an environment does**: an operation of it fails and nothing changes, or
none fails and what is missing is filled in. -/
theorem bootstrapDefaultsOf_cases {rows : ℕ} {m : Modes} {f : BootFaults} (hf : f.Probes)
    (id : EnvId) (db : Lmdb) :
    f.Fails (bootSeedsOf rows m id) db ∧
        (∃ rc, bootstrapDefaultsOf rows m f id (.idle db) = (.error rc, .idle db)) ∨
      ¬f.Fails (bootSeedsOf rows m id) db ∧
        ∃ db', bootstrapDefaultsOf rows m f id (.idle db) = (.ok (), .idle db') ∧
          FilledIn rows m id db db' := by
  have hboot : bootstrapDefaultsOf rows m f id = bootstrap f false (bootSeedsOf rows m id) := by
    cases id <;> rfl
  rw [hboot]
  obtain hfails | ⟨hno, txn, -, hok⟩ := bootstrap_cases f (bootSeedsOf rows m id) db
  · exact Or.inl hfails
  · refine Or.inr ⟨hno, txn.txn.view, hok, Seeded.filledIn ?_⟩
    exact bootstrap_ok hf (fun s hs key hkey => validKey_bootSeedsOf hs hkey) hok

/-! ### Over a run -/

/-- What happens to an environment: a startup of some build of the subagent bootstraps it, or a
transaction of any writer is committed. -/
inductive EnvEvent
  | boot (rows : ℕ) (m : Modes) (f : BootFaults) (probes : f.Probes)
  | write (w : Lmdb → Lmdb)

/-- The contents after an event. -/
def EnvEvent.apply (id : EnvId) (db : Lmdb) : EnvEvent → Lmdb
  | .boot rows m f _ => (bootstrapDefaultsOf rows m f id (.idle db)).2.committed
  | .write w => w db

/-- An event leaves a key to the bootstraps: if it is a write, it is one of other keys. -/
def EnvEvent.Spares (key : Bytes) : EnvEvent → Prop
  | .boot .. => True
  | .write w => ∀ db : Lmdb, (w db)[key]? = db[key]?

/-- **One event** that spares a key keeps its value. -/
theorem EnvEvent.apply_keeps {id : EnvId} {e : EnvEvent} {key data : Bytes} (he : e.Spares key)
    {db : Lmdb} (h : db[key]? = some data) : (e.apply id db)[key]? = some data := by
  cases e with
  | boot rows m f probes =>
    rw [apply]
    obtain ⟨-, rc, hboot⟩ | ⟨-, db', hboot, hfilled⟩ := bootstrapDefaultsOf_cases probes id db
    · rw [hboot]
      exact h
    · rw [hboot]
      exact hfilled.keeps key data h
  | write w => exact (he db).trans h

/-- **Any events** that spare a key keep its value. -/
theorem foldl_apply_keeps {id : EnvId} {key data : Bytes} {es : List EnvEvent}
    (hes : ∀ e ∈ es, e.Spares key) :
    ∀ {db : Lmdb}, db[key]? = some data → (es.foldl (EnvEvent.apply id) db)[key]? = some data := by
  induction es with
  | nil => exact fun h => h
  | cons e es ih =>
    intro db h
    exact ih (fun e' he' => hes e' (List.mem_cons_of_mem e he'))
      (EnvEvent.apply_keeps (hes e List.mem_cons_self) h)

/-- **A bootstrap never destroys anything and is all or nothing.** For every content of an
environment, every assignment of modes and every number of rows, and with any operation of the
transaction but its reads failing:

* the call fails exactly if one of its operations does, and then the environment is as before;
* if it succeeds, what is missing is filled in, and nothing else has changed;
* run again it changes nothing, whether or not it fails;
* run later, with at least as many rows and whatever was written since, it fills in what is missing
  then, and adds no key it had seeded before unless that has been deleted;
* over any events, among them bootstraps of any builds, a value that is there at some moment stays
  as long as nobody else writes its key. -/
theorem bootstrap_only_adds (rows : ℕ) (m : Modes) (id : EnvId) (f : BootFaults) (hf : f.Probes)
    (db : Lmdb) :
    (f.Fails (bootSeedsOf rows m id) db ↔
      ∃ rc, (bootstrapDefaultsOf rows m f id (.idle db)).1 = .error rc) ∧
    (∀ rc, (bootstrapDefaultsOf rows m f id (.idle db)).1 = .error rc →
      (bootstrapDefaultsOf rows m f id (.idle db)).2 = .idle db) ∧
    ((bootstrapDefaultsOf rows m f id (.idle db)).1 = .ok () →
      ∃ db', (bootstrapDefaultsOf rows m f id (.idle db)).2 = .idle db' ∧
        FilledIn rows m id db db' ∧
        (∀ f' : BootFaults, f'.Probes →
          (bootstrapDefaultsOf rows m f' id (.idle db')).2 = .idle db') ∧
        ∀ rows' ≥ rows, ∀ f' : BootFaults, f'.Probes → ∀ since later : Lmdb,
          bootstrapDefaultsOf rows' m f' id (.idle since) = (.ok (), .idle later) →
          FilledIn rows' m id since later ∧
          ∀ key v, BootDefault rows m id key v → since[key]? = db'[key]? →
            later[key]? = since[key]?) ∧
    ∀ (es : List EnvEvent) (key data : Bytes), db[key]? = some data →
      (∀ e ∈ es, e.Spares key) → (es.foldl (EnvEvent.apply id) db)[key]? = some data := by
  refine ⟨?_, ?_, ?_, fun es key data h hes => foldl_apply_keeps hes h⟩
  · obtain ⟨hfails, rc, hboot⟩ | ⟨hno, db', hboot, -⟩ := bootstrapDefaultsOf_cases hf id db
    · exact iff_of_true hfails ⟨rc, by rw [hboot]⟩
    · exact iff_of_false hno (by simp [hboot])
  · intro rc hrc
    obtain ⟨-, rc', hboot⟩ | ⟨-, db', hboot, -⟩ := bootstrapDefaultsOf_cases hf id db
    · rw [hboot]
    · rw [hboot] at hrc
      exact absurd hrc (by simp)
  · intro hok
    obtain ⟨-, rc, hboot⟩ | ⟨-, db', hboot, hfilled⟩ := bootstrapDefaultsOf_cases hf id db
    · rw [hboot] at hok
      exact absurd hok (by simp)
    refine ⟨db', by rw [hboot], hfilled, fun f' hf' => ?_,
      fun rows' hrows' f' hf' since later h => ?_⟩
    · obtain ⟨-, rc, hagain⟩ | ⟨-, db₂, hagain, hfilled₂⟩ := bootstrapDefaultsOf_cases hf' id db'
      · rw [hagain]
      · rw [hagain, hfilled₂.eq_of_present fun key v hdefault => hfilled.present hdefault]
    · obtain ⟨-, rc, hlater⟩ | ⟨-, db₂, hlater, hfilled₂⟩ := bootstrapDefaultsOf_cases hf' id since
      · exact absurd (congrArg Prod.fst (hlater.symm.trans h)) (by simp)
      · obtain rfl : db₂ = later :=
          congrArg MdbEnv.committed (congrArg Prod.snd (hlater.symm.trans h))
        refine ⟨hfilled₂, fun key v hdefault hkept => ?_⟩
        -- the key was there after the first run, and so it still is
        obtain ⟨data, hdata⟩ := Option.ne_none_iff_exists'.mp (hfilled.present hdefault)
        rw [hkept, hdata]
        exact hfilled₂.keeps key data (hkept.trans hdata)

/-- A cache that holds a count of the telemetry app, a temperature of another type, and two bytes
where a text should be. -/
def scarredCache : Lmdb :=
  (((∅ : Lmdb).insert (ascii "sampleCount") (Value.uint32 7).encode).insert
    (ascii "cpuTempMilliC") (Value.bytes (ascii "hot")).encode).insert (ascii "statusText") [1, 2]

/-- All three are as they were after a bootstrap, and the missing epoch is seeded. -/
theorem bootstrap_only_adds_scarred :
    ∃ db', (bootstrapDefaultsOf 4 .shipped .none .cache (.idle scarredCache)).2 = .idle db' ∧
      db'[ascii "sampleCount"]? = some (Value.uint32 7).encode ∧
      db'[ascii "cpuTempMilliC"]? = some (Value.bytes (ascii "hot")).encode ∧
      db'[ascii "statusText"]? = some [1, 2] ∧
      db'[ascii "lastUpdateEpoch"]? = some (Value.uint32 0).encode := by
  obtain ⟨-, -, hok, -⟩ :=
    bootstrap_only_adds 4 .shipped .cache .none (fun _ => rfl) scarredCache
  obtain ⟨db', hdb', hfilled, -⟩ := hok (bootstrap_none (fun s hs => by
    obtain ⟨key, hkey, hvalid, -⟩ := fits_bootSeedsOf hs
    exact ⟨key, hkey, hvalid⟩) scarredCache)
  refine ⟨db', hdb', hfilled.keeps _ _ (by decide +kernel), hfilled.keeps _ _ (by decide +kernel),
    hfilled.keeps _ _ (by decide +kernel), ?_⟩
  exact hfilled.fills _ _ .lastUpdateEpoch (by decide +kernel)

end AgentxSubagent
