import AgentxSubagent.Agent.TelemetryApp
import AgentxSubagent.Subagent.Reseed
import AgentxSubagent.Subagent.Validity
import AgentxSubagent.Table.SharedStore

/-!
# The subagent and the telemetry app

Two programs write what the managers, the IPC clients and the Rust readers see. The subagent deals
with SETs, frames and polls in its event loop, and the telemetry app puts its samples; they share
`cache.lmdb`, and a transaction of the one can fall between any two turns of the other. A step of
`AgentxSubagent.System` is a turn of the one or a step of the other.

Who writes what is the key to all of it: the subagent its scalars and the cells of
`portConfigTable` (`AgentxSubagent.Subagent.step_writes`), the telemetry app its thirteen keys
(`AgentxSubagent.Telemetry.step_writes`), and no key is written by both. So whatever is true of the
keys of one program stays true while the other one is at work.

* `AgentxSubagent.System.Inv.step`: every event keeps the invariant, that of the subagent, that of
  the telemetry app, and that every value is one its readers expect.
* `AgentxSubagent.System.Reachable.inv`: so it holds from startup on, after every run.
-/

namespace AgentxSubagent

open Assign Runs

/-! ### What the subagent writes -/

/-- **What the subagent assigns**: a value or nothing, to a scalar or a cell of its own. -/
structure SubagentWrite (m : Modes) (l : Loc) (content : Option Bytes) : Prop where
  own : (∃ s : Scalar, l = s.loc m) ∨ ∃ (c : PortColumn) (inst : TableInstance),
    l = c.cellLoc m inst
  value : ∀ data, content = some data → ∃ v : Value, data = v.encode

section SubagentWrites

variable {m : Modes} {pbDecode : Bytes → Option Envelope} {u u' : Subagent} {r : SetRequest}
  {before : Envs} {p : Loc × Option Bytes}

theorem subagentWrite_scalar (m : Modes) (s : Scalar) (v : Value) :
    SubagentWrite m (s.loc m) (some v.encode) where
  own := Or.inl ⟨s, rfl⟩
  value := by
    rintro _ ⟨⟩
    exact ⟨v, rfl⟩

/-- ACTION. -/
theorem subagentWrite_actionWrite (h : r.actionWrite m = some p) : SubagentWrite m p.1 p.2 := by
  cases r with
  | scalar s r =>
    obtain ⟨v, -, rfl⟩ := Option.map_eq_some_iff.mp h
    exact subagentWrite_scalar m s v
  | cell r =>
    rw [SetRequest.actionWrite, TableVarbind.write] at h
    obtain ⟨⟨c, inst⟩, -, h⟩ := Option.bind_eq_some_iff.mp h
    obtain ⟨v, -, heq⟩ := Option.bind_eq_some_iff.mp h
    obtain rfl := Option.some.inj heq
    refine ⟨Or.inr ⟨c, inst, rfl⟩, ?_⟩
    rintro _ ⟨⟩
    exact ⟨v, rfl⟩

/-- UNDO. -/
theorem subagentWrite_undoWrites (hr : r.Stashed m before) (h : p ∈ r.undoWrites m) :
    SubagentWrite m p.1 p.2 := by
  cases r with
  | scalar s r =>
    obtain ⟨v, -, rfl⟩ : ∃ v, r.undo = some v ∧ (s.loc m, some v.encode) = p := by
      simpa [SetRequest.undoWrites] using h
    exact subagentWrite_scalar m s v
  | cell r =>
    obtain ⟨c, inst, u, -, -, hrec, hundo⟩ := hr
    obtain ⟨hkey, -⟩ := validKey_of_tableCellKey hrec.key
    obtain rfl : p = (c.cellLoc m inst, u.content) := by
      rw [PortColumn.cellLoc, ← hkey]
      cases c <;>
        simpa [SetRequest.undoWrites, TableRequest.restorations, TableRequest.restoration, hundo]
          using h
    refine ⟨Or.inr ⟨c, inst, rfl⟩, fun data hdata => ⟨u.value, ?_⟩⟩
    simp only [UndoCell.content] at hdata
    split_ifs at hdata
    exact (Option.some.inj hdata).symm

/-- **One turn writes only what the subagent writes.** -/
theorem Subagent.step_writes (hu : u.Inv m) {i : Input} {o : Option FrameRecord}
    (h : u.step m pbDecode i = some (o, u')) :
    Edits (SubagentWrite m) u.agent.envs.stored u'.agent.envs.stored := by
  have hpure : ∀ {f : ℕ → RequestFaults} {mode : SetMode} {rs : List SetRequest},
      mode ≠ .action ∧ mode ≠ .undo → u'.agent = (forPdu m f mode rs u.agent).2 →
      Edits (SubagentWrite m) u.agent.envs.stored u'.agent.envs.stored := by
    intro f mode rs hmode hagent
    rw [hagent, (forPdu_pure f hmode).1]
    exact .refl _
  cases i with
  | reserve1 t vbs =>
    obtain ⟨-, hagent, -⟩ := Subagent.step_reserve1 h
    rw [hagent]
    exact .refl _
  | phase t mode f =>
    obtain ⟨-, p, hp, hadm, hagent, -⟩ := Subagent.step_phase h
    have hsound := hu.pending t p hp
    cases mode with
    | action =>
      rw [hagent]
      exact forPdu_action_edits f fun r _ q hq => subagentWrite_actionWrite hq
    | undo =>
      have hmode : p.mode = .action := by simpa [PendingSet.admits] using hadm
      rw [PendingSet.Sound, hmode] at hsound
      obtain ⟨before, -, hrs⟩ := hsound
      rw [hagent]
      exact forPdu_undo_edits f fun r hr q hq => subagentWrite_undoWrites (hrs r hr) hq
    | _ => exact hpure (by simp) hagent
  | frame payload f =>
    obtain ⟨-, rfl⟩ := Prod.mk.inj (Option.some.inj h)
    obtain henvs | ⟨s, v, -, henvs⟩ := handleFrame_cases m f u.agent pbDecode payload
    · simp only [henvs]
      exact .refl _
    · simp only [henvs, Envs.stored_put]
      exact .update (subagentWrite_scalar m s v)
  | poll af =>
    obtain ⟨-, rfl⟩ := Prod.mk.inj (Option.some.inj h)
    exact .refl _

end SubagentWrites

/-! ### The places of the telemetry app -/

/-- The read-only scalars. -/
def ReadOnlyScalar.all : List ReadOnlyScalar :=
  [.cpuTempMilliC, .sampleCount, .lastUpdateEpoch, .statusText]

/-- Where a read-only scalar is stored. -/
def ReadOnlyScalar.loc (o : ReadOnlyScalar) : Loc := (.cache, o.name)

/-- **A value a handler answers with**: it is of the type, and its buffer has room for it. -/
def Syn.Fits (syn : Syn) (v : Value) : Prop :=
  syn.type = v.storageType ∧ ∀ n, v.units = some n → n ≤ syn.buflen

/-- **What a read-only place may hold**: the encoding of a value, and one its reader answers with
if it is a scalar of the telemetry app or a cell of `sensorTable`. -/
def TypedAt (l : Loc) (content : Option Bytes) : Prop :=
  ∀ data, content = some data → ∃ v : Value, data = v.encode ∧
    (∀ o ∈ ReadOnlyScalar.all, l = o.loc → o.syn.Fits v) ∧
    ∀ c ∈ sensorTable.columns, ∀ r, l = c.loc [r] → c.syn.Fits v

/-- And the scalars are not missing. -/
structure SoundAt (l : Loc) (content : Option Bytes) : Prop where
  typed : TypedAt l content
  present : ∀ o ∈ ReadOnlyScalar.all, l = o.loc → content ≠ none

section Places

variable {m : Modes} {l : Loc} {content : Option Bytes}

/-- The names of the read-only scalars. -/
theorem ReadOnlyScalar.name_mem {o : ReadOnlyScalar} (ho : o ∈ ReadOnlyScalar.all) :
    o.name ∈ telemetryKeys ∧ ValidKey o.name ∧ (46 : UInt8) ∉ o.name ∧
      ∀ s : Scalar, o.name ≠ s.name := by
  have hname : ∀ key : Bytes, (∀ t ∈ Scalar.all, key ≠ t.name) → ∀ t : Scalar, key ≠ t.name := by
    intro key hall t
    exact hall t (by cases t <;> simp [Scalar.all])
  simp only [ReadOnlyScalar.all, List.mem_cons, List.not_mem_nil, or_false] at ho
  obtain rfl | rfl | rfl | rfl := ho
  all_goals exact ⟨by decide +kernel, by decide, by decide, hname _ (by decide)⟩

/-- The columns of the two tables have different names. -/
theorem sensorTable_name_ne {c : TableColumn} (hc : c ∈ sensorTable.columns) (d : PortColumn) :
    c.name ≠ d.name := by
  revert c
  simp only [sensorTable, List.forall_mem_cons]
  cases d <;> exact ⟨by decide, by decide, by decide, by simp⟩

/-- **No key of the telemetry app is written by the subagent.** -/
theorem SubagentWrite.ne_telemetryKey (h : SubagentWrite m l content) {key : Bytes}
    (hkey : key ∈ telemetryKeys) : l ≠ (.cache, key) := by
  have hcases : ∀ k ∈ telemetryKeys, (∀ s ∈ Scalar.all, k ≠ s.name) ∧
      ∀ c ∈ PortColumn.all, ¬(c.name ++ [46]) <+: k := by
    decide +kernel
  obtain ⟨hscalar, hcell⟩ := hcases key hkey
  obtain ⟨s, rfl⟩ | ⟨c, inst, rfl⟩ := h.own
  · intro heq
    exact hscalar s (by cases s <;> simp [Scalar.all]) (Prod.ext_iff.mp heq).2.symm
  · intro heq
    refine hcell c (by cases c <;> simp [PortColumn.all]) ?_
    rw [← show cellKey c.name inst = key from (Prod.ext_iff.mp heq).2]
    exact ⟨instanceText inst, by simp [cellKey]⟩

/-- And no place its handlers read. -/
theorem SubagentWrite.soundAt (h : SubagentWrite m l content) : SoundAt l content := by
  have hscalar : ∀ o ∈ ReadOnlyScalar.all, l ≠ o.loc :=
    fun o ho => h.ne_telemetryKey (ReadOnlyScalar.name_mem ho).1
  have hcell : ∀ c ∈ sensorTable.columns, ∀ r, l ≠ c.loc [r] := by
    intro c hc r heq
    obtain ⟨henv, hdot⟩ := sensorTable_column hc
    obtain ⟨s, rfl⟩ | ⟨d, inst, rfl⟩ := h.own
    · refine s.dot_notMem_name ?_
      rw [show s.name = cellKey c.name [r] from (Prod.ext_iff.mp heq).2, cellKey]
      simp
    · exact sensorTable_name_ne hc d
        (cellKey_inj d.dot_notMem_name hdot (Prod.ext_iff.mp heq).2).1.symm
  refine ⟨fun data hdata => ?_, fun o ho heq => absurd heq (hscalar o ho)⟩
  obtain ⟨v, hv⟩ := h.value data hdata
  exact ⟨v, hv, fun o ho heq => absurd heq (hscalar o ho),
    fun c hc r heq => absurd heq (hcell c hc r)⟩

end Places

section TelemetryPlaces

variable {key : Bytes} {content : Option Bytes}

/-- A string that fits. -/
theorem fits_bytes {sizes : List (ℕ × ℕ)} {b : Bytes} {n : ℕ} (hlen : b.length ≤ n)
    (hn : n ≤ (Syn.octetString sizes).buflen) : (Syn.octetString sizes).Fits (.bytes b) := by
  refine ⟨rfl, ?_⟩
  rintro _ ⟨⟩
  exact hlen.trans hn

/-- A number fits. -/
theorem fits_number {syn : Syn} {v : Value} (htype : syn.type = v.storageType)
    (hunits : v.units = none) : syn.Fits v :=
  ⟨htype, fun _ hn => absurd (hunits.symm.trans hn) (by simp)⟩

/-- **The values of a sample are those its readers expect.** -/
theorem Sample.fits (s : Sample) {v : Value} (h : (key, v) ∈ s.entries) :
    (∀ o ∈ ReadOnlyScalar.all, key = o.name → o.syn.Fits v) ∧
      ∀ c ∈ sensorTable.columns, ∀ r, key = cellKey c.name [r] → c.syn.Fits v := by
  rcases List.mem_append.mp h with h | h
  · -- a scalar
    have hdot : (46 : UInt8) ∉ key := by
      have hall : ∀ e ∈ scalarPuts 0 0 0, (46 : UInt8) ∉ e.1 := by decide +kernel
      simp only [scalarPuts, List.forall_mem_cons] at hall
      simp only [scalarPuts, List.mem_cons, List.not_mem_nil, or_false, Prod.mk.injEq] at h
      obtain ⟨rfl, -⟩ | ⟨rfl, -⟩ | ⟨rfl, -⟩ | ⟨rfl, -⟩ := h
      · exact hall.1
      · exact hall.2.1
      · exact hall.2.2.1
      · exact hall.2.2.2.1
    constructor
    · intro o ho hkey
      subst hkey
      simp only [scalarPuts, List.mem_cons, List.not_mem_nil, or_false, Prod.mk.injEq] at h
      simp only [ReadOnlyScalar.all, List.mem_cons, List.not_mem_nil, or_false] at ho
      obtain rfl | rfl | rfl | rfl := ho
      all_goals obtain ⟨hname, rfl⟩ | ⟨hname, rfl⟩ | ⟨hname, rfl⟩ | ⟨hname, rfl⟩ := h
      all_goals first
        | exact fits_number rfl rfl
        | exact fits_bytes (length_statusText_le s.temp s.count) (by decide)
        | exact absurd hname (by decide)
    · intro c hc r hkey
      refine absurd ?_ hdot
      rw [hkey, cellKey]
      simp
  · -- a cell
    have hcells : ∀ {names : List Bytes}, (∀ n ∈ names, n.length ≤ 11) → ∀ {idx : ℕ},
        (key, v) ∈ sensorEntries s.temp s.count idx names →
        ∃ c ∈ sensorTable.columns, ∃ r, key = cellKey c.name [r] ∧ c.syn.Fits v := by
      intro names
      induction names with
      | nil => exact fun _ _ hmem => absurd hmem List.not_mem_nil
      | cons name names ih =>
        intro hnames idx hmem
        rcases List.mem_append.mp hmem with hmem | hmem
        · obtain ⟨c, hc, heq⟩ := List.mem_map.mp hmem
          obtain ⟨rfl, rfl⟩ := Prod.mk.inj heq
          simp only [sensorRow, List.mem_cons, List.not_mem_nil, or_false] at hc
          obtain rfl | rfl | rfl := hc
          · exact ⟨_, List.mem_cons_self, _, rfl,
              fits_bytes (hnames name List.mem_cons_self) (by decide)⟩
          · exact ⟨_, List.mem_cons_of_mem _ List.mem_cons_self, _, rfl, fits_number rfl rfl⟩
          · exact ⟨_, List.mem_cons_of_mem _ (List.mem_cons_of_mem _ List.mem_cons_self), _, rfl,
              fits_number rfl rfl⟩
        · exact ih (fun n hn => hnames n (List.mem_cons_of_mem name hn)) hmem
    obtain ⟨d, hd, r, rfl, hfits⟩ := hcells (by decide) h
    constructor
    · intro o ho hkey
      refine absurd ?_ (ReadOnlyScalar.name_mem ho).2.2.1
      rw [← hkey, cellKey]
      simp
    · intro c hc r' hkey
      obtain ⟨hname, -⟩ := cellKey_inj (sensorTable_column hd).2 (sensorTable_column hc).2 hkey
      have hnodup : (sensorTable.columns.map TableColumn.name).Nodup := by decide +kernel
      obtain rfl := List.inj_on_of_nodup_map hnodup hd hc hname
      exact hfits

/-- **What the telemetry app writes is sound**, under its own keys. -/
theorem TelemetryWrite.soundAt (h : TelemetryWrite key content) : SoundAt (.cache, key) content := by
  obtain ⟨s, v, hmem, rfl⟩ | ⟨rfl, idx, -, c, -, rfl⟩ := h
  · obtain ⟨hscalar, hcell⟩ := s.fits hmem
    refine ⟨?_, by simp⟩
    rintro _ ⟨⟩
    refine ⟨v, rfl, fun o ho heq => hscalar o ho (Prod.ext_iff.mp heq).2, ?_⟩
    intro c hc r heq
    exact hcell c hc r (Prod.ext_iff.mp heq).2
  · refine ⟨by simp [TypedAt], fun o ho heq => ?_⟩
    have hname : cellKey c [.ofNat (idx + 1)] = o.name := (Prod.ext_iff.mp heq).2
    refine absurd ?_ (ReadOnlyScalar.name_mem ho).2.2.1
    rw [← hname, cellKey]
    simp

/-- **No key of the telemetry app is the subagent's**, so what it writes there is valid. -/
theorem validAt_telemetryKey (m : Modes) (hkey : key ∈ telemetryKeys) :
    ValidAt m (.cache, key) content := by
  refine validAt_other (fun s heq => ?_) fun c inst heq => ?_
  · exact (subagentWrite_scalar m s (.int32 0)).ne_telemetryKey hkey heq.symm
  · have hwrite : SubagentWrite m (c.cellLoc m inst) none := ⟨Or.inr ⟨c, inst, rfl⟩, by simp⟩
    exact hwrite.ne_telemetryKey hkey heq.symm

end TelemetryPlaces

/-! ### The system -/

/-- The subagent, and where the telemetry app is. -/
structure System where
  subagent : Subagent
  telemetry : Telemetry

namespace System

/-- What is stored. -/
def envs (sys : System) : Envs := sys.subagent.agent.envs

/-- The telemetry app has left the cache as `db`. -/
def setCache (sys : System) (t : Telemetry) (db : Lmdb) : System where
  subagent := { sys.subagent with
    agent := { sys.subagent.agent with envs := Function.update sys.envs .cache db } }
  telemetry := t

/-- A turn of the event loop, or a step of the telemetry app. -/
inductive Event
  | subagent (i : Input)
  | telemetry (i : TelemetryInput)

section Step

variable (m : Modes) (pbDecode : Bytes → Option Envelope) (checks : Bool)

/-- One event, with what the IPC server answered in it. -/
def step (sys : System) : Event → Option (Option FrameRecord × System)
  | .subagent i =>
    (sys.subagent.step m pbDecode i).map fun r => (r.1, { sys with subagent := r.2 })
  | .telemetry i =>
    (Telemetry.step checks (sys.telemetry, sys.envs .cache) i).map fun r =>
      (none, sys.setCache r.2.1 r.2.2)

/-- **What the two programs may leave behind**: every writable object is missing or holds a value
of its type and range, and everything else that is read a value its reader expects. -/
def Legacy (l : Loc) (content : Option Bytes) : Prop := AllowedAt m l content ∧ TypedAt l content

/-- **A state the system gets to**: both bootstraps succeed on what was left behind, wherever the
telemetry app is meanwhile, and then the two programs take turns in any order. -/
def Reachable (sys : System) : Prop :=
  ∃ (fconfig fcache : BootFaults) (envs : Envs) (t : Telemetry) (a : Agent) (es : List Event)
    (os : List (Option FrameRecord)),
    fconfig.Probes ∧ fcache.Probes ∧ (∀ l, Legacy m l (envs.stored l)) ∧
    Telemetry.Inv (t, envs .cache) ∧ subagentStorageInit m fconfig fcache envs = (.ok (), a.envs) ∧
    run (fun sys e => step m pbDecode checks sys e) ⟨⟨a, fun _ => none⟩, t⟩ es = some (os, sys)

end Step

/-- **The invariant of the system.** -/
structure Inv (m : Modes) (sys : System) : Prop where
  subagent : sys.subagent.Inv m
  sound : sys.envs.All SoundAt
  telemetry : Telemetry.Inv (sys.telemetry, sys.envs .cache)

section Steps

variable {m : Modes} {pbDecode : Bytes → Option Envelope} {checks : Bool} {sys sys' : System}

/-- What a step of the telemetry app assigns, among all places. -/
theorem edits_setCache {t : Telemetry} {db : Lmdb}
    (h : Edits TelemetryWrite (fun k => (sys.envs .cache)[k]?) (fun k => db[k]?)) :
    Edits (fun l content => ∃ key, (EnvId.cache, key) = l ∧ TelemetryWrite key content)
      sys.envs.stored (sys.setCache t db).envs.stored := by
  refine h.part (fun _ _ heq => (Prod.ext_iff.mp heq).2) (fun k => rfl) (fun k => ?_) ?_
  · simp [System.envs, System.setCache, Envs.stored]
  · rintro ⟨id, key⟩ hout
    cases id with
    | config => simp [System.envs, System.setCache, Envs.stored]
    | cache => exact absurd rfl (hout key)

/-- **A turn of the subagent keeps the invariant.** -/
theorem Inv.subagent_step (h : sys.Inv m) {i : Input} {o : Option FrameRecord} {u : Subagent}
    (hstep : sys.subagent.step m pbDecode i = some (o, u)) :
    Inv m { sys with subagent := u } := by
  have hwrites := Subagent.step_writes h.subagent hstep
  refine ⟨Subagent.step_inv h.subagent hstep, ?_, ?_⟩
  · exact (hwrites.imp fun _ _ hw => hw.soundAt).preserves h.sound
  · refine h.telemetry.mono fun e hkey he => Eq.trans ?_ he
    exact hwrites.eq_of_forall_ne (a := (EnvId.cache, e.1)) fun _ _ hw => hw.ne_telemetryKey hkey

/-- **A step of the telemetry app keeps the invariant.** -/
theorem Inv.telemetry_step (h : sys.Inv m) {i : TelemetryInput} {u : Unit} {t : Telemetry}
    {db : Lmdb} (hstep : Telemetry.step checks (sys.telemetry, sys.envs .cache) i =
      some (u, (t, db))) : (sys.setCache t db).Inv m := by
  have hwrites := edits_setCache (t := t) (Telemetry.step_writes h.telemetry hstep)
  refine ⟨⟨?_, h.subagent.pending⟩, ?_, ?_⟩
  · refine (hwrites.imp ?_).preserves h.subagent.valid
    rintro _ content ⟨key, rfl, hw⟩
    exact validAt_telemetryKey m hw.mem_telemetryKeys
  · refine (hwrites.imp ?_).preserves h.sound
    rintro _ content ⟨key, rfl, hw⟩
    exact hw.soundAt
  · simpa [System.setCache, System.envs] using Telemetry.step_inv h.telemetry hstep

/-- **Every event keeps the invariant.** -/
theorem Inv.step (h : sys.Inv m) {e : Event} {o : Option FrameRecord}
    (hstep : sys.step m pbDecode checks e = some (o, sys')) : sys'.Inv m := by
  cases e with
  | subagent i =>
    obtain ⟨⟨o', u⟩, hu, heq⟩ := Option.map_eq_some_iff.mp hstep
    obtain rfl := congrArg Prod.snd heq
    exact h.subagent_step hu
  | telemetry i =>
    obtain ⟨⟨u, t, db⟩, ht, heq⟩ := Option.map_eq_some_iff.mp hstep
    obtain rfl := congrArg Prod.snd heq
    exact h.telemetry_step ht

end Steps

section Boot

variable {m : Modes} {envs : Envs} {a : Agent} {t : Telemetry} {fconfig fcache : BootFaults}

/-- What is seeded is sound. -/
theorem soundAt_seed {id : EnvId} {s : Seed} (hs : s ∈ bootSeeds m id) {key : Bytes}
    (hkey : s.key = .ok key) : TypedAt (id, key) (some s.defval.encode) := by
  have hown : ∀ {l : Loc} {v : Value}, SubagentWrite m l (some v.encode) →
      TypedAt l (some v.encode) := fun hw => hw.soundAt.typed
  obtain ⟨q, rfl, rfl⟩ | ⟨rfl, hro⟩ | ⟨c, row, -, -, rfl, rfl⟩ := bootSeedsOf_cases hs
  · obtain rfl := Except.ok.inj hkey
    exact hown (subagentWrite_scalar m q (q.object m).defval)
  · obtain ⟨k, hk, -, hdot, -⟩ := key_readOnlySeeds hro
    obtain rfl := Except.ok.inj (hkey.symm.trans hk)
    rintro _ ⟨⟩
    refine ⟨s.defval, rfl, fun o ho heq => ?_, fun c _ r heq => absurd ?_ hdot⟩
    · have hname : key = o.name := (Prod.ext_iff.mp heq).2
      subst hname
      simp only [readOnlySeeds, List.mem_cons, List.not_mem_nil, or_false] at hro
      simp only [ReadOnlyScalar.all, List.mem_cons, List.not_mem_nil, or_false] at ho
      obtain rfl | rfl | rfl | rfl := hro
      all_goals obtain rfl | rfl | rfl | rfl := ho
      all_goals first
        | exact fits_number rfl rfl
        | exact fits_bytes (Nat.le_refl 12) (by decide)
        | exact absurd (Except.ok.inj hkey) (by decide)
    · rw [show key = cellKey c.name [r] from (Prod.ext_iff.mp heq).2, cellKey]
      simp
  · obtain rfl := Except.ok.inj ((c.key_seed m (.ofNat row)).1.symm.trans hkey)
    refine hown ⟨Or.inr ⟨c, [.ofNat row], rfl⟩, ?_⟩
    rintro _ ⟨⟩
    exact ⟨_, rfl⟩

/-- A read-only scalar is among what is seeded. -/
theorem exists_seed {o : ReadOnlyScalar} (ho : o ∈ ReadOnlyScalar.all) :
    ∃ s ∈ bootSeeds m .cache, s.key = .ok o.name := by
  simp only [ReadOnlyScalar.all, List.mem_cons, List.not_mem_nil, or_false] at ho
  have hmem : ∀ {i : ℕ} {s : Seed}, readOnlySeeds[i]? = some s → s ∈ bootSeeds m .cache :=
    fun hi => mem_bootSeedsOf_readOnly (List.mem_of_getElem? hi)
  obtain rfl | rfl | rfl | rfl := ho
  · exact ⟨_, hmem (i := 0) rfl, rfl⟩
  · exact ⟨_, hmem (i := 1) rfl, rfl⟩
  · exact ⟨_, hmem (i := 2) rfl, rfl⟩
  · exact ⟨_, hmem (i := 3) rfl, rfl⟩

/-- **The invariant holds after startup.** -/
theorem inv_boot (hconfig : fconfig.Probes) (hcache : fcache.Probes)
    (hlegacy : ∀ l, Legacy m l (envs.stored l)) (ht : Telemetry.Inv (t, envs .cache))
    (hinit : subagentStorageInit m fconfig fcache envs = (.ok (), a.envs)) :
    Inv m ⟨⟨a, fun _ => none⟩, t⟩ := by
  have hseeded := fun id => seeded_of_subagentStorageInitOf hconfig hcache hinit id
  refine ⟨⟨valid_of_subagentStorageInit hconfig hcache (fun l => (hlegacy l).1) hinit, nofun⟩,
    ?_, ?_⟩
  · rintro ⟨id, key⟩
    constructor
    · obtain hsame | ⟨-, s, hs, hkey, hnew⟩ := (hseeded id).keeps key
      · show TypedAt (id, key) (a.envs id)[key]?
        rw [hsame]
        exact (hlegacy (id, key)).2
      · show TypedAt (id, key) (a.envs id)[key]?
        rw [hnew]
        exact soundAt_seed hs hkey
    · intro o ho heq
      obtain ⟨rfl, rfl⟩ := Prod.mk.inj heq
      obtain ⟨s, hs, hkey⟩ := exists_seed (m := m) ho
      exact (hseeded .cache).fills s hs o.name hkey
  · -- what the app has put is there, so nothing is seeded over it
    have hkept : ∀ {key data : Bytes}, (envs .cache)[key]? = some data →
        (a.envs .cache)[key]? = some data := by
      intro key data hdata
      obtain hsame | ⟨habs, -⟩ := (hseeded .cache).keeps key
      · exact hsame.trans hdata
      · exact absurd (habs.symm.trans hdata) (by simp)
    exact ht.mono fun e _ he => hkept he

end Boot

/-- **The invariant holds in every state the system gets to.** -/
theorem Reachable.inv {m : Modes} {pbDecode : Bytes → Option Envelope} {checks : Bool}
    {sys : System} (h : sys.Reachable m pbDecode checks) : sys.Inv m := by
  obtain ⟨fconfig, fcache, envs, t, a, es, os, hconfig, hcache, hlegacy, ht, hinit, hrun⟩ := h
  refine run_invariant (I := fun sys => sys.Inv m) ?_
    (inv_boot hconfig hcache hlegacy ht hinit) hrun
  intro e _ s o s' hs hstep
  exact hs.step hstep

end System

end AgentxSubagent
