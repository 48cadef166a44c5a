import AgentxSubagent.Agent.Trap

/-!
# SET of a scalar

The SET branches that `mib2c/mib2c.dbscalar.conf` emits for a read-write scalar, as they
stand in `src/generated/demo_config.c`: `AgentxSubagent.dbscalar` is the template,
and the four handlers are its instances. The threshold of the alarm does one thing more than
the others: after a successful write it checks the temperature.

RESERVE2 stashes the value that is stored, and UNDO writes the stash back. The stash has no
room for “there was none”: a missing key is stashed as zero, or as the empty string.

* `AgentxSubagent.scalar_undo_restores_iff`: a SET that is undone leaves the key as it was
  exactly when there was one.
-/

namespace AgentxSubagent

/-! ### The template -/

/-- The SET modes a handler is called with. -/
inductive SetMode
  | reserve1
  | reserve2
  | free
  | action
  | commit
  | undo
  deriving DecidableEq

/-- What fails in one call of a handler for one request: the read and the allocation of
RESERVE2, the write of ACTION or UNDO, and what the alarm does. -/
structure CallFaults where
  read : ReadFault
  write : Fault
  alarm : AlarmFaults

/-- Nothing fails. -/
def CallFaults.none : CallFaults := ⟨.none, .none, .none⟩

/-- A `netsnmp_request_info` as the scalar handlers use it: the varbind, the list data
`undo_*`, and the error set so far. -/
structure ScalarRequest where
  requestvb : AsnValue
  undo : Option Value
  status : Option SnmpErr

/-- A request as it arrives. -/
def ScalarRequest.fresh (vb : AsnValue) : ScalarRequest := ⟨vb, none, none⟩

/-- `netsnmp_set_request_error`. -/
def ScalarRequest.setError (r : ScalarRequest) (e : SnmpErr) : ScalarRequest :=
  { r with status := some e }

/-- `handle_$i` of the template for the object `o`, in the SET modes; `stored` is what the
handler does after a successful write of ACTION. -/
def dbscalar (o : MibObject) (stored : Agent → Agent) (f : CallFaults) (mode : SetMode)
    (a : Agent) (r : ScalarRequest) : ScalarRequest × Agent :=
  match mode with
  | .reserve1 =>
    match o.syn.reserve1 r.requestvb with
    | some e => (r.setError e, a)
    | none => (r, a)
  | .reserve2 =>
    if f.read.fault.nomem then (r.setError .resourceUnavailable, a)
    else
      match a.envs.getAs f.read.fault o.mode.env o.syn.type o.name o.syn.buflen with
      | .ok v => ({ r with undo := some v }, a)
      | .error .notFound => ({ r with undo := some o.syn.zero }, a)
      | .error _ => (r.setError .resourceUnavailable, a)
  | .free => ({ r with undo := none }, a)
  | .action =>
    match o.syn.newValue r.requestvb with
    -- RESERVE1 has refused a varbind of another type
    | none => (r, a)
    | some v =>
      match a.envs.setValue f.write o.mode.env o.name v with
      | (.error _, envs) => (r.setError .commitFailed, { a with envs := envs })
      | (.ok _, envs) => (r, stored { a with envs := envs })
  | .commit => ({ r with undo := none }, a)
  | .undo =>
    match r.undo with
    | none => (r, a)
    | some v =>
      match a.envs.setValue f.write o.mode.env o.name v with
      | (.error _, envs) =>
        ({ r.setError .undoFailed with undo := none }, { a with envs := envs })
      | (.ok _, envs) => ({ r with undo := none }, { a with envs := envs })

section Handlers

variable (m : Modes) (f : CallFaults)

/-- `handle_deviceName`. -/
def handleDeviceName : SetMode → Agent → ScalarRequest → ScalarRequest × Agent :=
  dbscalar (Scalar.object m .deviceName) id f

/-- `handle_tempThresholdMilliC`: a change of the threshold can flip the alarm edge. -/
def handleTempThresholdMilliC : SetMode → Agent → ScalarRequest → ScalarRequest × Agent :=
  dbscalar (Scalar.object m .tempThresholdMilliC)
    (fun a => (a.demoCheckTempAlarm m f.alarm).2) f

/-- `handle_adminStatusExt`. -/
def handleAdminStatusExt : SetMode → Agent → ScalarRequest → ScalarRequest × Agent :=
  dbscalar (Scalar.object m .adminStatusExt) id f

/-- `handle_sampleIntervalSec`. -/
def handleSampleIntervalSec : SetMode → Agent → ScalarRequest → ScalarRequest × Agent :=
  dbscalar (Scalar.object m .sampleIntervalSec) id f

/-- The handler registered for a scalar. -/
def Scalar.handle : Scalar → SetMode → Agent → ScalarRequest → ScalarRequest × Agent
  | .deviceName => handleDeviceName m f
  | .tempThresholdMilliC => handleTempThresholdMilliC m f
  | .adminStatusExt => handleAdminStatusExt m f
  | .sampleIntervalSec => handleSampleIntervalSec m f

/-- Every handler is the template, and what it does after a write keeps the storage. -/
theorem Scalar.handle_eq (s : Scalar) :
    ∃ stored : Agent → Agent, (∀ a, (stored a).envs = a.envs) ∧
      s.handle m f = dbscalar (s.object m) stored f := by
  cases s with
  | tempThresholdMilliC => exact ⟨_, fun a => a.envs_demoCheckTempAlarm m f.alarm, rfl⟩
  | _ => exact ⟨id, fun _ => rfl, rfl⟩

end Handlers

/-! ### What each mode does -/

section Modes

variable {m : Modes} {s : Scalar} {f : CallFaults} {a : Agent} {r : ScalarRequest}

/-- RESERVE1 changes the status only, and leaves it when the value is accepted. -/
theorem Scalar.reserve1_cases :
    (∃ e, s.handle m f .reserve1 a r = (r.setError e, a)) ∨
      (s.object m).syn.reserve1 r.requestvb = none ∧ s.handle m f .reserve1 a r = (r, a) := by
  obtain ⟨stored, -, hh⟩ := s.handle_eq m f
  rw [hh]
  simp only [dbscalar]
  rcases (s.object m).syn.reserve1 r.requestvb with _ | e
  · exact Or.inr ⟨rfl, rfl⟩
  · exact Or.inl ⟨e, rfl⟩

/-- **What RESERVE2 stashes**: the value that is stored, or zero for a missing key; or it
sets an error. -/
theorem Scalar.reserve2_cases :
    (∃ e, s.handle m f .reserve2 a r = (r.setError e, a)) ∨
      (∃ data v, a.envs.stored (s.loc m) = some data ∧
        (readAs (s.object m).syn.type (s.object m).syn.buflen data).1 = .ok v ∧
        s.handle m f .reserve2 a r = ({ r with undo := some v }, a)) ∨
      a.envs.stored (s.loc m) = none ∧
        s.handle m f .reserve2 a r = ({ r with undo := some (s.object m).syn.zero }, a) := by
  obtain ⟨stored, -, hh⟩ := s.handle_eq m f
  rw [hh]
  simp only [dbscalar]
  split_ifs with hmem
  · exact Or.inl ⟨_, rfl⟩
  · rcases hget : a.envs.getAs f.read.fault (s.object m).mode.env (s.object m).syn.type
      (s.object m).name (s.object m).syn.buflen with rc | v
    · by_cases hrc : rc = .notFound
      · subst hrc
        rw [Scalar.object_name] at hget
        exact Or.inr (Or.inr ⟨(Envs.getAs_notFound hget).2, rfl⟩)
      · refine Or.inl ⟨.resourceUnavailable, ?_⟩
        cases rc <;> first | exact absurd rfl hrc | rfl
    · rw [Scalar.object_name] at hget
      obtain ⟨-, data, hdata, hread⟩ := Envs.getAs_ok hget
      exact Or.inr (Or.inl ⟨data, v, hdata, hread, rfl⟩)

/-- **What ACTION does**: it stores the value of the varbind, or sets an error and stores
nothing; the stash stays. -/
theorem Scalar.action_cases {v : Value} (hv : (s.object m).syn.newValue r.requestvb = some v) :
    ((s.handle m f .action a r).1 = r.setError .commitFailed ∧
        (s.handle m f .action a r).2.envs = a.envs) ∨
      ((s.handle m f .action a r).1 = r ∧
        (s.handle m f .action a r).2.envs = a.envs.put (s.loc m) v.encode) := by
  obtain ⟨stored, hstored, hh⟩ := s.handle_eq m f
  rw [hh]
  simp only [dbscalar, hv]
  rw [Scalar.object_name]
  obtain ⟨rc, hset⟩ | ⟨-, hset⟩ := a.envs.setValue_cases f.write (s.object m).mode.env s.name v
  · rw [hset]
    exact Or.inl ⟨rfl, rfl⟩
  · rw [hset]
    exact Or.inr ⟨rfl, hstored _⟩

/-- **What UNDO does**: it stores the stash, or sets an error and stores nothing. -/
theorem Scalar.undo_cases {v : Value} (hv : r.undo = some v) :
    (s.handle m f .undo a r = ({ r.setError .undoFailed with undo := none }, a)) ∨
      s.handle m f .undo a r =
        ({ r with undo := none }, { a with envs := a.envs.put (s.loc m) v.encode }) := by
  obtain ⟨stored, -, hh⟩ := s.handle_eq m f
  rw [hh]
  simp only [dbscalar, hv]
  rw [Scalar.object_name]
  obtain ⟨rc, hset⟩ | ⟨-, hset⟩ := a.envs.setValue_cases f.write (s.object m).mode.env s.name v
  · rw [hset]
    exact Or.inl rfl
  · rw [hset]
    exact Or.inr rfl

/-- UNDO in which nothing fails stores the stash. -/
theorem Scalar.undo_none (hf : f.write = .none) {v : Value} (hv : r.undo = some v) :
    s.handle m f .undo a r =
      ({ r with undo := none }, { a with envs := a.envs.put (s.loc m) v.encode }) := by
  obtain ⟨stored, -, hh⟩ := s.handle_eq m f
  rw [hh]
  simp only [dbscalar, hv]
  rw [Scalar.object_name, hf,
    a.envs.setValue_spared .none (s.object m).mode.env s.validKey_name (Fault.none_spares v)]
  rfl

end Modes

/-! ### A SET that is undone -/

/-- RESERVE1 and RESERVE2 on a request that arrives: the request with its stash, unless one
of them sets an error. -/
def scalarReserve (m : Modes) (s : Scalar) (f : CallFaults) (a : Agent) (vb : AsnValue) :
    Option ScalarRequest :=
  let r := (s.handle m f .reserve1 a (.fresh vb)).1
  if r.status ≠ none then none
  else
    let r' := (s.handle m f .reserve2 a r).1
    if r'.status ≠ none then none else some r'

/-- RESERVE1, RESERVE2, ACTION and UNDO on one scalar, the write of UNDO succeeding; `none`
when RESERVE1 or RESERVE2 sets an error. -/
def scalarSetUndone (m : Modes) (s : Scalar) (freserve faction : CallFaults) (a : Agent)
    (vb : AsnValue) : Option Agent := do
  let r ← scalarReserve m s freserve a vb
  let (r', a') := s.handle m faction .action a r
  some (s.handle m .none .undo a' r').2

/-- A request that came through RESERVE1 and RESERVE2 carries an accepted value and a stash:
what was read, or zero for a missing key. -/
theorem scalarReserve_eq_some {m : Modes} {s : Scalar} {f : CallFaults} {a : Agent}
    {vb : AsnValue} {r : ScalarRequest} (h : scalarReserve m s f a vb = some r) :
    (s.object m).syn.reserve1 vb = none ∧ r.requestvb = vb ∧ r.status = none ∧
      ((∃ data v, a.envs.stored (s.loc m) = some data ∧
        (readAs (s.object m).syn.type (s.object m).syn.buflen data).1 = .ok v ∧
        r.undo = some v) ∨
      a.envs.stored (s.loc m) = none ∧ r.undo = some (s.object m).syn.zero) := by
  rw [scalarReserve] at h
  obtain ⟨e, h1⟩ | ⟨hacc, h1⟩ : _ ∨ _ ∧ s.handle m f .reserve1 a (.fresh vb) = _ :=
    Scalar.reserve1_cases
  · rw [h1] at h
    exact absurd h (by simp [ScalarRequest.setError])
  · rw [h1] at h
    obtain ⟨e, h2⟩ | ⟨data, v, hdata, hread, h2⟩ | ⟨habs, h2⟩ :
        _ ∨ (∃ data v, _ ∧ _ ∧ s.handle m f .reserve2 a (.fresh vb) = _) ∨ _ :=
      Scalar.reserve2_cases
    · simp only [h2] at h
      exact absurd h (by simp [ScalarRequest.setError, ScalarRequest.fresh])
    · simp only [h2] at h
      obtain rfl : _ = r := by simpa [ScalarRequest.fresh] using h
      exact ⟨hacc, rfl, rfl, Or.inl ⟨data, v, hdata, hread, rfl⟩⟩
    · simp only [h2] at h
      obtain rfl : _ = r := by simpa [ScalarRequest.fresh] using h
      exact ⟨hacc, rfl, rfl, Or.inr ⟨habs, rfl⟩⟩

/-- **Undoing a SET of a scalar restores the key exactly when there was one.** Whatever
storage fails in RESERVE2 and in ACTION, a SET that passes RESERVE1 and RESERVE2 and is then
undone leaves the key reading as before if and only if the key was present: a missing key
comes back as zero, or as the empty string. -/
theorem scalar_undo_restores_iff (m : Modes) (s : Scalar) (freserve faction : CallFaults)
    (a a' : Agent) (vb : AsnValue) (h : scalarSetUndone m s freserve faction a vb = some a') :
    ReadsAlike (a.envs.stored (s.loc m)) (a'.envs.stored (s.loc m)) ↔
      a.envs.stored (s.loc m) ≠ none := by
  rw [scalarSetUndone] at h
  rcases hres : scalarReserve m s freserve a vb with _ | r
  · rw [hres] at h
    exact absurd h (by simp)
  · obtain ⟨hacc, hvb, -, hstash⟩ := scalarReserve_eq_some hres
    simp only [hres, Option.bind_eq_bind, Option.bind_some, Option.some.injEq] at h
    obtain ⟨new, hnew, -⟩ := Syn.accepts_of_reserve1 hacc
    rw [← hvb] at hnew
    -- ACTION keeps the stash, whether it stores or not
    have hkeep : (s.handle m faction .action a r).1.undo = r.undo := by
      obtain ⟨hr, -⟩ | ⟨hr, -⟩ := Scalar.action_cases (f := faction) (a := a) hnew
      · rw [hr, ScalarRequest.setError]
      · rw [hr]
    -- so what is stored at the end is the stash
    have hfinal : ∀ v, r.undo = some v → a'.envs.stored (s.loc m) = some v.encode := by
      intro v hv
      rw [← h, Scalar.undo_none rfl (hkeep.trans hv), Envs.stored_put, Function.update_self]
    obtain ⟨data, v, hdata, hread, hv⟩ | ⟨habs, hv⟩ := hstash
    · rw [hfinal v hv, hdata]
      exact iff_of_true (readsAlike_encode hread) (by simp)
    · rw [hfinal _ hv, habs]
      exact iff_of_false id (by simp)

/-- The subagent with `adminStatusExt` stored as `up(1)`, or missing. -/
def adminAgent (present : Bool) : Agent where
  envs := fun
    | .config => if present then (∅ : Lmdb).insert (ascii "adminStatusExt") (Value.int32 1).encode
      else ∅
    | .cache => ∅
  tempAlarmState := .clear
  traps := []

/-- ACTION runs into a full map. -/
def mapFullFaults : CallFaults := ⟨.none, ⟨none, some .mapFull, none, false⟩, .none⟩

/-- A SET of a missing `adminStatusExt` to `down(2)`, undone after its write failed: the key
is there afterwards, with the value 0 that is no label of the enumeration. -/
theorem scalar_undo_leaves_zero :
    ∃ a', scalarSetUndone .shipped .adminStatusExt .none mapFullFaults (adminAgent false)
        (.integer 2) = some a' ∧
      (adminAgent false).envs.stored (Scalar.loc .shipped .adminStatusExt) = none ∧
      a'.envs.stored (Scalar.loc .shipped .adminStatusExt) = some (Value.int32 0).encode ∧
      ¬ReadsAlike ((adminAgent false).envs.stored (Scalar.loc .shipped .adminStatusExt))
        (a'.envs.stored (Scalar.loc .shipped .adminStatusExt)) := by
  have hbefore : (adminAgent false).envs.stored (Scalar.loc .shipped .adminStatusExt) = none := by
    decide
  refine ⟨_, rfl, hbefore, by decide, ?_⟩
  rw [hbefore, readsAlike_none_iff]
  decide

/-- With `adminStatusExt` present, a SET to `down(2)` that is undone after its write
succeeded leaves it reading as before. -/
theorem scalar_undo_restores_admin :
    ∃ a', scalarSetUndone .shipped .adminStatusExt .none .none (adminAgent true) (.integer 2) =
        some a' ∧
      ReadsAlike ((adminAgent true).envs.stored (Scalar.loc .shipped .adminStatusExt))
        (a'.envs.stored (Scalar.loc .shipped .adminStatusExt)) :=
  ⟨_, rfl, (scalar_undo_restores_iff .shipped .adminStatusExt .none .none (adminAgent true) _
    (.integer 2) rfl).mpr (by decide)⟩

end AgentxSubagent
