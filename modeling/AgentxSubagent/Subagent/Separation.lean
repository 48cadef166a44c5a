import AgentxSubagent.Agent.Alarm
import AgentxSubagent.Subagent.Views

/-!
# The two programs, apart

The subagent and the telemetry app share an environment and take turns in any order, and still
neither can tell whether the other one is there. A turn of the subagent makes the same of a SET and
answers a frame the same whatever is stored under the keys of the telemetry app, and a transaction
of the app does not depend on what is stored at all. With `AgentxSubagent.Subagent.step_writes` and
`AgentxSubagent.Telemetry.step_writes`, which say that neither writes where the other one does, the
two are systems side by side in the sense of `Runs.run_beside`.

The alarm is left out: it is there to look at the temperature. A `SendTrapRequest` reads it as
well, but only whether it can be read shows in the answer, and in a sound state it can.

* `AgentxSubagent.Subagent.step_apart`: a turn of the subagent, on contents that are the same
  outside the keys of the telemetry app.
* `AgentxSubagent.programs_are_separate`: a run of both is a run of the one and a run of the other.
* `AgentxSubagent.any_interleaving`: so it does not matter how their turns fall.
-/

namespace AgentxSubagent

open Assign ForEach Runs

/-! ### The same elsewhere -/

/-- A key of the telemetry app, in the cache. -/
def TelemetryPlace (l : Loc) : Prop := ∃ key ∈ telemetryKeys, l = (.cache, key)

/-- **The same contents outside the keys of the telemetry app.** -/
def Envs.SameApart (envs envs' : Envs) : Prop :=
  ∀ l, ¬TelemetryPlace l → envs'.stored l = envs.stored l

namespace Envs

namespace SameApart

variable {envs envs' : Envs}

theorem refl (envs : Envs) : envs.SameApart envs := fun _ _ => rfl

/-- What is put on both sides. -/
theorem put (h : envs.SameApart envs') (l : Loc) (data : Bytes) :
    (envs.put l data).SameApart (envs'.put l data) := by
  intro l' hl'
  rw [stored_put, stored_put, Function.update_apply, Function.update_apply, h l' hl']

/-- What is removed on both sides. -/
theorem remove (h : envs.SameApart envs') (l : Loc) :
    (envs.remove l).SameApart (envs'.remove l) := by
  intro l' hl'
  rw [stored_remove, stored_remove, Function.update_apply, Function.update_apply, h l' hl']

/-- A read of a place that is not the telemetry app's. -/
theorem getAs (h : envs.SameApart envs') {id : EnvId} {key : Bytes}
    (hl : ¬TelemetryPlace (id, key)) (f : Fault) (ty : StorageType) (cap : ℕ) :
    envs'.getAs f id ty key cap = envs.getAs f id ty key cap := by
  refine Envs.getAs_congr ?_ f ty cap
  rw [h _ hl]
  exact readsAlike_refl _

/-- **A write** answers the same. -/
theorem setValue (h : envs.SameApart envs') (f : Fault) (id : EnvId) (key : Bytes) (v : Value) :
    ∃ o envs₁ envs₁', envs.setValue f id key v = (o, envs₁) ∧
      envs'.setValue f id key v = (o, envs₁') ∧ envs₁.SameApart envs₁' := by
  have hfst := setValue_fst f envs envs' id key v
  refine ⟨(envs.setValue f id key v).1, (envs.setValue f id key v).2,
    (envs'.setValue f id key v).2, rfl, Prod.ext hfst rfl, ?_⟩
  obtain ⟨rc, hset⟩ | ⟨-, hset⟩ := envs.setValue_cases f id key v
  all_goals obtain ⟨rc', hset'⟩ | ⟨-, hset'⟩ := envs'.setValue_cases f id key v
  all_goals rw [hset, hset'] at hfst ⊢
  · exact h
  · exact absurd hfst (by simp)
  · exact absurd hfst (by simp)
  · exact h.put _ _

/-- So does a deletion of a place that is not the telemetry app's. -/
theorem delete (h : envs.SameApart envs') (f : Fault) {id : EnvId} {key : Bytes}
    (hl : ¬TelemetryPlace (id, key)) :
    ∃ o envs₁ envs₁', envs.delete f id key = (o, envs₁) ∧ envs'.delete f id key = (o, envs₁') ∧
      envs₁.SameApart envs₁' := by
  have hfst := delete_fst f (h _ hl)
  refine ⟨(envs.delete f id key).1, (envs.delete f id key).2, (envs'.delete f id key).2, rfl,
    Prod.ext hfst rfl, ?_⟩
  obtain ⟨rc, hdel⟩ | hdel := envs.delete_cases f id key
  all_goals obtain ⟨rc', hdel'⟩ | hdel' := envs'.delete_cases f id key
  all_goals rw [hdel, hdel'] at hfst ⊢
  · exact h
  · exact absurd hfst (by simp)
  · exact absurd hfst (by simp)
  · exact h.remove _

end SameApart

end Envs

/-- A place of the subagent is none of the telemetry app. -/
theorem SubagentWrite.not_telemetryPlace {m : Modes} {l : Loc} {content : Option Bytes}
    (h : SubagentWrite m l content) : ¬TelemetryPlace l := by
  rintro ⟨key, hkey, rfl⟩
  exact h.ne_telemetryKey hkey rfl

theorem Scalar.not_telemetryPlace (m : Modes) (s : Scalar) : ¬TelemetryPlace (s.loc m) :=
  (subagentWrite_scalar m s (.int32 0)).not_telemetryPlace

theorem PortColumn.not_telemetryPlace (m : Modes) (c : PortColumn) (inst : TableInstance) :
    ¬TelemetryPlace (c.cellLoc m inst) := by
  have hwrite : SubagentWrite m (c.cellLoc m inst) none := ⟨Or.inr ⟨c, inst, rfl⟩, by simp⟩
  exact hwrite.not_telemetryPlace

/-! ### One request -/

section Requests

variable {m : Modes} {mode : SetMode} {envs envs' : Envs} {a a' : Agent}

/-- **A scalar**, on contents that are the same apart from the telemetry app. -/
theorem Scalar.handle_apart (h : a.envs.SameApart a'.envs) (s : Scalar) (f : CallFaults)
    (r : ScalarRequest) :
    (s.handle m f mode a' r).1 = (s.handle m f mode a r).1 ∧
      (s.handle m f mode a r).2.envs.SameApart (s.handle m f mode a' r).2.envs := by
  obtain ⟨stored, hstored, hh⟩ := s.handle_eq m f
  have hname : ((s.object m).mode.env, (s.object m).name) = s.loc m := by
    rw [Scalar.object_name]
    rfl
  rw [hh]
  cases mode with
  | reserve1 =>
    simp only [dbscalar]
    rcases (s.object m).syn.reserve1 r.requestvb with _ | e
    · exact ⟨rfl, h⟩
    · exact ⟨rfl, h⟩
  | reserve2 =>
    have hget := h.getAs (hname ▸ s.not_telemetryPlace m) f.read.fault (s.object m).syn.type
      (s.object m).syn.buflen
    simp only [dbscalar, hget]
    by_cases hmem : f.read.fault.nomem = true
    · simp only [if_pos hmem]
      exact ⟨trivial, h⟩
    · simp only [if_neg hmem]
      rcases a.envs.getAs f.read.fault (s.object m).mode.env (s.object m).syn.type
        (s.object m).name (s.object m).syn.buflen with rc | v
      · cases rc <;> exact ⟨rfl, h⟩
      · exact ⟨rfl, h⟩
  | free => exact ⟨rfl, h⟩
  | action =>
    simp only [dbscalar]
    rcases (s.object m).syn.newValue r.requestvb with _ | v
    · exact ⟨rfl, h⟩
    obtain ⟨o, envs₁, envs₁', hset, hset', hsame⟩ :=
      h.setValue f.write (s.object m).mode.env (s.object m).name v
    simp only [hset, hset']
    rcases o with rc | u
    · exact ⟨rfl, hsame⟩
    · simp only [hstored]
      exact ⟨trivial, hsame⟩
  | commit => exact ⟨rfl, h⟩
  | undo =>
    simp only [dbscalar]
    rcases r.undo with _ | v
    · exact ⟨rfl, h⟩
    obtain ⟨o, envs₁, envs₁', hset, hset', hsame⟩ :=
      h.setValue f.write (s.object m).mode.env (s.object m).name v
    simp only [hset, hset']
    rcases o with rc | u
    · exact ⟨rfl, hsame⟩
    · exact ⟨rfl, hsame⟩

/-- RESERVE2 of a cell. -/
theorem cellReserve2_apart (h : envs.SameApart envs') (f : CellFaults) (r : TableRequest) :
    cellReserve2 m f envs' r = cellReserve2 m f envs r := by
  rw [cellReserve2, cellReserve2]
  rcases r.vb.row with _ | ⟨colnum, inst⟩
  · rfl
  rcases hc : PortColumn.ofColnum colnum with _ | c
  · simp only [hc]
  simp only [hc]
  rcases hkey : tableCellKey c.name inst (storageKeyMax + 1) with rc | key
  · rfl
  obtain ⟨rfl, -⟩ := validKey_of_tableCellKey hkey
  have hget : envs'.getAs f.read.fault (c.object m).mode.env (c.object m).syn.type
      (cellKey c.name inst) (c.object m).syn.buflen = _ :=
    h.getAs (c.not_telemetryPlace m inst) _ _ _
  simp only [hget]

/-- ACTION of a cell. -/
theorem cellAction_apart (h : envs.SameApart envs') (f : CellFaults) (r : TableRequest) :
    (cellAction m f envs' r).1 = (cellAction m f envs r).1 ∧
      (cellAction m f envs r).2.SameApart (cellAction m f envs' r).2 := by
  rw [cellAction, cellAction]
  rcases r.vb.row with _ | ⟨colnum, inst⟩
  · exact ⟨rfl, h⟩
  rcases hc : PortColumn.ofColnum colnum with _ | c
  · simp only [hc]
    exact ⟨trivial, h⟩
  simp only [hc]
  rcases tableCellKey c.name inst (storageKeyMax + 1) with rc | key
  · exact ⟨rfl, h⟩
  rcases (c.object m).syn.newValue r.vb.requestvb with _ | v
  · exact ⟨rfl, h⟩
  obtain ⟨o, envs₁, envs₁', hset, hset', hsame⟩ := h.setValue f.write (c.object m).mode.env key v
  simp only [hset, hset']
  rcases o with rc | u
  · exact ⟨rfl, hsame⟩
  · exact ⟨rfl, hsame⟩

/-- The stashes of a request are of no key of the telemetry app. -/
def TableRequest.StashedApart (m : Modes) (r : TableRequest) : Prop :=
  ∀ c u, r.undo c = some u → ¬TelemetryPlace ((c.object m).mode.env, u.key)

/-- The block of UNDO for one column. -/
theorem undoColumn_apart (h : envs.SameApart envs') (f : CellFaults) (c : PortColumn)
    {r : TableRequest} (hr : r.StashedApart m) :
    (undoColumn m f c envs' r).1 = (undoColumn m f c envs r).1 ∧
      (undoColumn m f c envs r).1.StashedApart m ∧
      (undoColumn m f c envs r).2.SameApart (undoColumn m f c envs' r).2 := by
  have hcleared : ∀ {r' : TableRequest}, r'.undo = r.undo → (r'.setUndo c none).StashedApart m := by
    intro r' hundo c' u hu
    have hu : Function.update r'.undo c none c' = some u := hu
    by_cases hc : c' = c
    · subst hc
      simp at hu
    · rw [Function.update_of_ne hc, hundo] at hu
      exact hr c' u hu
  rw [undoColumn, undoColumn]
  rcases hu : r.undo c with _ | u
  · exact ⟨rfl, hr, h⟩
  obtain ⟨o, envs₁, envs₁', hres, hres', hsame⟩ : ∃ o envs₁ envs₁',
      restoreCell (f.undo c) envs (c.object m).mode.env u = (o, envs₁) ∧
      restoreCell (f.undo c) envs' (c.object m).mode.env u = (o, envs₁') ∧
      envs₁.SameApart envs₁' := by
    rw [restoreCell, restoreCell]
    split_ifs
    · exact h.setValue _ _ _ _
    · obtain ⟨o, envs₁, envs₁', hdel, hdel', hsame⟩ := h.delete (f.undo c) (hr c u hu)
      rw [hdel, hdel']
      rcases o with rc | v
      · cases rc <;> exact ⟨_, _, _, rfl, rfl, hsame⟩
      · exact ⟨_, _, _, rfl, rfl, hsame⟩
  simp only [hres, hres']
  rcases o with rc | v
  · exact ⟨rfl, hcleared rfl, hsame⟩
  · exact ⟨rfl, hcleared rfl, hsame⟩

/-- UNDO of a cell. -/
theorem cellUndo_apart (h : envs.SameApart envs') (f : CellFaults) {r : TableRequest}
    (hr : r.StashedApart m) :
    (cellUndo m f envs' r).1 = (cellUndo m f envs r).1 ∧
      (cellUndo m f envs r).2.SameApart (cellUndo m f envs' r).2 := by
  rw [cellUndo, cellUndo]
  obtain ⟨h₁, hr₁, hs₁⟩ := undoColumn_apart h f .portDescr hr
  obtain ⟨h₂, hr₂, hs₂⟩ := undoColumn_apart hs₁ f .portAdminStatus hr₁
  obtain ⟨h₃, -, hs₃⟩ := undoColumn_apart hs₂ f .portAlarmThresholdMilliC hr₂
  simp only [h₁, h₂]
  exact ⟨h₃, hs₃⟩

/-- **One phase for one request**; what UNDO deletes has been stashed by RESERVE2. -/
theorem handleRequest_apart (h : a.envs.SameApart a'.envs) (f : RequestFaults) {r : SetRequest}
    (hr : mode = .undo → ∃ before, r.Stashed m before) :
    (handleRequest m f mode a' r).1 = (handleRequest m f mode a r).1 ∧
      (handleRequest m f mode a r).2.envs.SameApart (handleRequest m f mode a' r).2.envs := by
  cases r with
  | scalar s r =>
    obtain ⟨hfst, hsnd⟩ := s.handle_apart h f.scalar r
    exact ⟨congrArg (SetRequest.scalar s) hfst, hsnd⟩
  | cell r =>
    simp only [handleRequest]
    cases mode with
    | reserve2 => exact ⟨congrArg SetRequest.cell (cellReserve2_apart h f.cell r), h⟩
    | action =>
      obtain ⟨hfst, hsnd⟩ := cellAction_apart h f.cell r
      exact ⟨congrArg SetRequest.cell hfst, hsnd⟩
    | undo =>
      obtain ⟨before, c, inst, u, -, -, hrec, hundo⟩ := hr rfl
      have hstash : r.StashedApart m := by
        intro c' u' hu'
        rw [hundo] at hu'
        by_cases hc : c' = c
        · subst hc
          obtain rfl : u = u' := by simpa using hu'
          rw [(validKey_of_tableCellKey hrec.key).1]
          exact c'.not_telemetryPlace m inst
        · rw [Function.update_of_ne hc] at hu'
          exact absurd hu' (by simp)
      obtain ⟨hfst, hsnd⟩ := cellUndo_apart h f.cell hstash
      exact ⟨congrArg SetRequest.cell hfst, hsnd⟩
    | _ => exact ⟨rfl, h⟩

/-- **One phase of a SET.** -/
theorem forPdu_apart (mode : SetMode) (h : a.envs.SameApart a'.envs) (f : ℕ → RequestFaults)
    (rs : List SetRequest) (hrs : mode = .undo → ∃ before, ∀ r ∈ rs, r.Stashed m before) :
    (forPdu m f mode rs a').1 = (forPdu m f mode rs a).1 ∧
      (forPdu m f mode rs a).2.envs.SameApart (forPdu m f mode rs a').2.envs := by
  refine forEach_sim (R := fun a a' : Agent => a.envs.SameApart a'.envs) ?_ 0 h
  intro r hr i a a' h
  refine handleRequest_apart h (f i) fun hmode => ?_
  obtain ⟨before, hbefore⟩ := hrs hmode
  exact ⟨before, hbefore r hr⟩

end Requests

/-! ### One frame -/

section Frames

variable {m : Modes} {envs envs' : Envs} {a a' : Agent}

/-- A `WriteConfigRequest`. -/
theorem handleWriteConfig_apart (h : envs.SameApart envs') (f : Fault) (req : WriteConfigRequest) :
    (handleWriteConfig m f req envs').1 = (handleWriteConfig m f req envs).1 ∧
      (handleWriteConfig m f req envs).2.SameApart (handleWriteConfig m f req envs').2 := by
  rw [handleWriteConfig, handleWriteConfig]
  rcases findConfigObject m req.key with _ | obj
  · exact ⟨rfl, h⟩
  rcases req.value with _ | value
  · exact ⟨rfl, h⟩
  -- the range check in front of a write does not look at the storage
  have hwrite : ∀ (refused : Prop) [Decidable refused] (resp : WriteConfigResponse) (v : Value),
      (if refused then (resp, envs') else (writeAnswer (envs'.setValue f obj.env obj.name v).1,
        (envs'.setValue f obj.env obj.name v).2)).1 =
      (if refused then (resp, envs) else (writeAnswer (envs.setValue f obj.env obj.name v).1,
        (envs.setValue f obj.env obj.name v).2)).1 ∧
      (if refused then (resp, envs) else (writeAnswer (envs.setValue f obj.env obj.name v).1,
        (envs.setValue f obj.env obj.name v).2)).2.SameApart
      (if refused then (resp, envs') else (writeAnswer (envs'.setValue f obj.env obj.name v).1,
        (envs'.setValue f obj.env obj.name v).2)).2 := by
    intro refused _ resp v
    obtain ⟨o, envs₁, envs₁', hset, hset', hsame⟩ := h.setValue f obj.env obj.name v
    rw [hset, hset']
    by_cases hrefused : refused
    · simp only [if_pos hrefused]
      exact ⟨trivial, h⟩
    · simp only [if_neg hrefused]
      exact ⟨trivial, hsame⟩
  simp only
  by_cases htype : value.type ≠ obj.type.number
  · simp only [if_pos htype]
    exact ⟨trivial, h⟩
  simp only [if_neg htype]
  cases obj.type with
  | int32 => exact hwrite _ _ _
  | uint32 => exact hwrite _ _ _
  | bytes => exact hwrite _ _ _
  | _ => exact ⟨rfl, h⟩

/-- A `ReadConfigRequest`. -/
theorem handleReadConfig_apart (h : envs.SameApart envs') (rf : ReadFault) (key : Bytes) :
    handleReadConfig m rf key envs' = handleReadConfig m rf key envs := by
  have hmap : ∀ {α : Type} {r r' : Except StorageErr α} {f : α → Value}, Function.Injective f →
      r.map f = r'.map f → r = r' := by
    intro α r r' f hf heq
    rcases r with rc | x
    all_goals rcases r' with rc' | y
    · exact congrArg Except.error (Except.error.inj heq)
    · exact absurd heq (by simp [Except.map])
    · exact absurd heq (by simp [Except.map])
    · exact congrArg Except.ok (hf (Except.ok.inj heq))
  rw [handleReadConfig, handleReadConfig]
  obtain ⟨hfind, -⟩ | ⟨s, -, hfind⟩ := findConfigObject_cases m key
  · rw [hfind]
  have hplace : ¬TelemetryPlace ((s.configObject m).env, (s.configObject m).name) := by
    rw [(s.configObject_agrees m).loc]
    exact s.not_telemetryPlace m
  rw [hfind]
  generalize s.configObject m = obj at hplace
  have hint : (storageGetInt rf.fault obj.name (.idle (envs' obj.env))).1 =
      (storageGetInt rf.fault obj.name (.idle (envs obj.env))).1 :=
    hmap (fun _ _ heq => Value.int32.inj heq) (h.getAs hplace rf.fault .int32 0)
  have huint : (storageGetUint rf.fault obj.name (.idle (envs' obj.env))).1 =
      (storageGetUint rf.fault obj.name (.idle (envs obj.env))).1 :=
    hmap (fun _ _ heq => Value.uint32.inj heq) (h.getAs hplace rf.fault .uint32 0)
  have hbytes : (storageGetBytes rf.fault obj.name 256 (.idle (envs' obj.env))).1.1 =
      (storageGetBytes rf.fault obj.name 256 (.idle (envs obj.env))).1.1 :=
    hmap (fun _ _ heq => Value.bytes.inj heq) (h.getAs hplace rf.fault .bytes 256)
  simp only [hint, huint, hbytes]

/-- A temperature that is stored is read, unless the read fails. -/
theorem readCpuTemp_eq_of_stored (rf : ReadFault) {v : Int32}
    (h : envs.stored cpuTempLoc = some (Value.int32 v).encode) :
    readCpuTemp rf envs = match rf.fault.atBegin, rf.fault.atOp with
      | some err, _ => .error (mapMdbRc err)
      | none, some err => .error (mapMdbRc err)
      | none, none => .ok v := by
  have hkey : ValidKey cpuTempLoc.2 := by decide
  have hget : (readCpuTemp rf envs).map Value.int32 = _ :=
    Envs.getAs_eq envs rf.fault .cache .int32 cpuTempLoc.2 0
  rw [validateKey_of_valid hkey, show envs.stored (.cache, cpuTempLoc.2) = _ from h] at hget
  refine map_int32_inj (hget.trans ?_)
  rcases rf.fault.atBegin with _ | err
  · rcases rf.fault.atOp with _ | err
    · exact congrArg Prod.fst (readAs_encode (.int32 v) 0)
    · rfl
  · rfl

/-- In a sound state there is a temperature. -/
theorem exists_cpuTemp (h : envs.All SoundAt) :
    ∃ v : Int32, envs.stored cpuTempLoc = some (Value.int32 v).encode := by
  have ho : ReadOnlyScalar.cpuTempMilliC ∈ ReadOnlyScalar.all := List.mem_cons_self
  obtain ⟨htyped, hpresent⟩ := h cpuTempLoc
  obtain ⟨data, hdata⟩ := Option.ne_none_iff_exists'.mp (hpresent _ ho rfl)
  obtain ⟨v, rfl, hfits, -⟩ := htyped data hdata
  obtain ⟨htype, -⟩ := hfits _ ho rfl
  cases v with
  | int32 v => exact ⟨v, hdata⟩
  | _ => exact absurd htype (by simp [ReadOnlyScalar.cpuTempMilliC, Syn.type, Value.storageType])

/-- **Whether a trap is sent** does not depend on the temperature. -/
theorem demoSendTempAlarm_apart (h : a.envs.SameApart a'.envs) (hs : a.envs.All SoundAt)
    (hs' : a'.envs.All SoundAt) (af : AlarmFaults) :
    (a'.demoSendTempAlarm m af).1 = (a.demoSendTempAlarm m af).1 := by
  obtain ⟨v, hv⟩ := exists_cpuTemp hs
  obtain ⟨v', hv'⟩ := exists_cpuTemp hs'
  have hthreshold : readTempThreshold m af.sendThreshold a'.envs =
      readTempThreshold m af.sendThreshold a.envs := by
    refine readTempThreshold_congr ?_
    rw [h _ (Scalar.not_telemetryPlace m .tempThresholdMilliC)]
    exact readsAlike_refl _
  simp only [Agent.demoSendTempAlarm, demoSendTempAlarm, TempReads.both, hthreshold,
    readCpuTemp_eq_of_stored _ hv, readCpuTemp_eq_of_stored _ hv']
  rcases af.sendCpuTemp.fault.atBegin with _ | err
  · rcases af.sendCpuTemp.fault.atOp with _ | err
    · rcases readTempThreshold m af.sendThreshold a.envs with rc | threshold
      · cases rc <;> rfl
      · simp only
        split_ifs <;> rfl
    · rfl
  · rfl

/-- **The answer to a body**, and what is stored after it. -/
theorem answerBody_apart (h : a.envs.SameApart a'.envs) (hs : a.envs.All SoundAt)
    (hs' : a'.envs.All SoundAt) (f : FrameFaults) (body : Body) :
    (answerBody m f a' body = none ∧ answerBody m f a body = none) ∨
      ∃ resp b b', answerBody m f a body = some (resp, b) ∧
        answerBody m f a' body = some (resp, b') ∧ b.envs.SameApart b'.envs := by
  cases body with
  | writeConfigRequest req =>
    obtain ⟨hresp, hsame⟩ := handleWriteConfig_apart (m := m) h f.write req
    refine Or.inr ⟨_, _, { a' with envs := (handleWriteConfig m f.write req a'.envs).2 }, rfl, ?_,
      hsame⟩
    simp only [answerBody, hresp]
  | readConfigRequest key =>
    refine Or.inr ⟨_, _, _, rfl, ?_, h⟩
    simp only [answerBody, handleReadConfig_apart h]
  | sendTrapRequest trapName =>
    by_cases hname : trapName ≠ ascii "demoTempAlarm"
    · refine Or.inr ⟨.sendTrapResponse (handleSendTrap m f.alarm trapName a).1, a, a', ?_, ?_, h⟩
      · simp only [answerBody, handleSendTrap, if_pos hname]
      · simp only [answerBody, handleSendTrap, if_pos hname]
    · have hsent := demoSendTempAlarm_apart (m := m) h hs hs' f.alarm
      refine Or.inr ⟨.sendTrapResponse (handleSendTrap m f.alarm trapName a).1,
        (a.demoSendTempAlarm m f.alarm).2, (a'.demoSendTempAlarm m f.alarm).2, ?_, ?_, h⟩
      · simp only [answerBody, handleSendTrap, if_neg hname]
        split_ifs <;> rfl
      · simp only [answerBody, handleSendTrap, if_neg hname, hsent]
        split_ifs <;> rfl
  | empty => exact Or.inl ⟨rfl, rfl⟩
  | pingResponse nonce => exact Or.inl ⟨rfl, rfl⟩
  | _ => exact Or.inr ⟨_, _, _, rfl, rfl, h⟩

/-- **A frame** is answered the same. -/
theorem handleFrame_apart (h : a.envs.SameApart a'.envs) (hs : a.envs.All SoundAt)
    (hs' : a'.envs.All SoundAt) (pbDecode : Bytes → Option Envelope) (f : FrameFaults)
    (payload : Bytes) :
    (handleFrame m pbDecode f a' payload).1 = (handleFrame m pbDecode f a payload).1 ∧
      (handleFrame m pbDecode f a payload).2.1.envs.SameApart
        (handleFrame m pbDecode f a' payload).2.1.envs := by
  rw [handleFrame, handleFrame]
  rcases pbDecode payload with _ | ⟨id, body⟩
  · exact ⟨rfl, h⟩
  obtain ⟨hans', hans⟩ | ⟨resp, b, b', hans, hans', hsame⟩ :=
    answerBody_apart (m := m) h hs hs' f body
  · simp only [hans, hans']
    exact ⟨trivial, h⟩
  · simp only [hans, hans']
    exact ⟨trivial, hsame⟩

end Frames

/-! ### One turn -/

section Turns

variable {m : Modes} {u u' : Subagent}

/-- **Two subagents no client can tell apart**: the SETs in progress are the same, and so is what
is stored outside the keys of the telemetry app. -/
structure Subagent.Apart (u u' : Subagent) : Prop where
  pdus : u'.pdus = u.pdus
  envs : u.agent.envs.SameApart u'.agent.envs

/-- **A turn of the event loop** does the same for both, and answers the same. -/
theorem Subagent.step_apart (pbDecode : Bytes → Option Envelope) (h : u.Apart u') (hu : u.Inv m)
    (hs : u.agent.envs.All SoundAt) (hs' : u'.agent.envs.All SoundAt) (i : Input) :
    Matches Subagent.Apart (u.step m pbDecode i) (u'.step m pbDecode i) := by
  obtain ⟨hpdus, henvs⟩ := h
  cases i with
  | reserve1 t vbs =>
    obtain ⟨hrs, hsame⟩ := forPdu_apart (m := m) .reserve1 henvs (fun _ => .none)
      (vbs.map .fresh) (by simp)
    rw [step, step, hpdus]
    rcases u.pdus t with _ | p
    · refine .next ⟨?_, hsame⟩
      simp only [hrs]
    · exact .stuck
  | phase t mode f =>
    rw [step, step, hpdus]
    rcases hp : u.pdus t with _ | p
    · exact .stuck
    simp only
    by_cases hadm : p.admits mode = true
    · rw [if_pos hadm, if_pos hadm]
      obtain ⟨hrs, hsame⟩ := forPdu_apart (m := m) mode henvs f p.requests (by
        rintro rfl
        have hmode : p.mode = .action := by simpa [PendingSet.admits] using hadm
        have hsound := hu.pending t p hp
        rw [PendingSet.Sound, hmode] at hsound
        obtain ⟨before, -, hrs⟩ := hsound
        exact ⟨before, hrs⟩)
      refine .next ⟨?_, hsame⟩
      simp only [hrs]
    · rw [if_neg hadm, if_neg hadm]
      exact .stuck
  | frame payload f =>
    obtain ⟨hans, hsame⟩ := handleFrame_apart henvs hs hs' pbDecode f payload (m := m)
    rw [step, step]
    simp only [hans]
    exact .next ⟨hpdus, hsame⟩
  | poll af => exact .next ⟨hpdus, henvs⟩

end Turns

/-! ### One step of the app -/

/-- The same under the keys of the telemetry app. -/
def SameTelemetry (db db' : Lmdb) : Prop := ∀ key ∈ telemetryKeys, db'[key]? = db[key]?

namespace SameTelemetry

variable {db db' : Lmdb}

/-- `CacheStore::put`. -/
theorem cachePut (h : SameTelemetry db db') (fails : Bool) (key : Bytes) (v : Value) :
    ∃ o d d', AgentxSubagent.cachePut fails key v db = (o, d) ∧
      AgentxSubagent.cachePut fails key v db' = (o, d') ∧ SameTelemetry d d' := by
  rw [AgentxSubagent.cachePut, AgentxSubagent.cachePut]
  split_ifs with hbad
  · exact ⟨_, _, _, rfl, rfl, h⟩
  · refine ⟨_, _, _, rfl, rfl, fun k hk => ?_⟩
    rw [Std.ExtTreeMap.getElem?_insert, Std.ExtTreeMap.getElem?_insert, h k hk]

/-- `CacheStore::put_row`. -/
theorem putRow (h : SameTelemetry db db') (fails : Bool) (inst : List UInt32)
    (cells : List (Bytes × Value)) :
    ∃ o d d', AgentxSubagent.putRow fails inst cells db = (o, d) ∧
      AgentxSubagent.putRow fails inst cells db' = (o, d') ∧ SameTelemetry d d' := by
  rw [AgentxSubagent.putRow, AgentxSubagent.putRow]
  rcases putRowLoop inst cells [] with err | encoded
  · exact ⟨_, _, _, rfl, rfl, h⟩
  simp only [putManyRaw]
  split_ifs with hfails
  · exact ⟨_, _, _, rfl, rfl, h⟩
  · refine ⟨_, _, _, rfl, rfl, fun k hk => ?_⟩
    have hsame := assign_rel (R := (· = ·)) (fun _ => rfl) (h k hk)
      (encoded.map fun e => (e.1, some e.2))
    exact (congrFun (getElem?_foldl_insert encoded db') k).trans
      (hsame.trans (congrFun (getElem?_foldl_insert encoded db) k).symm)

/-- `CacheStore::delete_row`. -/
theorem deleteRow (h : SameTelemetry db db') (fails : Bool) (inst : List UInt32)
    (columns : List Bytes) :
    ∃ o d d', AgentxSubagent.deleteRow fails inst columns db = (o, d) ∧
      AgentxSubagent.deleteRow fails inst columns db' = (o, d') ∧ SameTelemetry d d' := by
  rw [AgentxSubagent.deleteRow, AgentxSubagent.deleteRow]
  rcases deleteRowLoop inst columns [] with err | keys
  · exact ⟨_, _, _, rfl, rfl, h⟩
  simp only [deleteManyRaw]
  split_ifs with hfails
  · exact ⟨_, _, _, rfl, rfl, h⟩
  · refine ⟨_, _, _, rfl, rfl, fun k hk => ?_⟩
    have hsame := assign_rel (R := (· = ·)) (fun _ => rfl) (h k hk)
      (keys.map fun k => (k, (none : Option Bytes)))
    exact (congrFun (getElem?_foldl_erase keys db') k).trans
      (hsame.trans (congrFun (getElem?_foldl_erase keys db) k).symm)

end SameTelemetry

namespace Telemetry

variable (checks : Bool) {db db' : Lmdb}

/-- The app, and what is stored under its keys. -/
def Alike (p p' : Telemetry × Lmdb) : Prop := p'.1 = p.1 ∧ SameTelemetry p.2 p'.2

/-- A transaction of the app. -/
theorem transact_apart (h : SameTelemetry db db') (t : Telemetry) (fails : Bool) :
    (t.transact checks fails db = none ∧ t.transact checks fails db' = none) ∨
      ∃ t₁ d d', t.transact checks fails db = some (t₁, d) ∧
        t.transact checks fails db' = some (t₁, d') ∧ SameTelemetry d d' := by
  cases t with
  | stopped => exact Or.inl ⟨rfl, rfl⟩
  | asleep last => exact Or.inl ⟨rfl, rfl⟩
  | putting s puts =>
    rcases puts with _ | ⟨⟨key, v⟩, puts⟩
    · exact Or.inl ⟨rfl, rfl⟩
    obtain ⟨o, d, d', hput, hput', hsame⟩ := h.cachePut fails key v
    simp only [transact, hput, hput']
    rcases o with err | u
    · exact Or.inr ⟨_, _, _, rfl, rfl, hsame⟩
    · exact Or.inr ⟨_, _, _, rfl, rfl, hsame⟩
  | rows s idx names =>
    rcases names with _ | ⟨name, names⟩
    · exact Or.inl ⟨rfl, rfl⟩
    rw [transact, transact]
    by_cases hover : checks ∧ (sensorTemp s.temp idx).toInt ≠ s.temp.toInt + idx * 1500
    · rw [if_pos hover, if_pos hover]
      exact Or.inr ⟨_, _, _, rfl, rfl, h⟩
    · rw [if_neg hover, if_neg hover]
      obtain ⟨o, d, d', hput, hput', hsame⟩ := h.putRow fails
        (sensorRow [.ofNat (idx + 1)] name (sensorTemp s.temp idx) s.count.toUInt32).inst
        (sensorRow [.ofNat (idx + 1)] name (sensorTemp s.temp idx) s.count.toUInt32).cells
      simp only [hput, hput']
      rcases o with err | u
      · exact Or.inr ⟨_, _, _, rfl, rfl, hsame⟩
      · exact Or.inr ⟨_, _, _, rfl, rfl, hsame⟩
  | clearing idx =>
    obtain ⟨o, d, d', hdel, hdel', hsame⟩ := h.deleteRow fails [.ofNat (idx + 1)] sensorColumns
    simp only [transact, hdel, hdel']
    rcases o with err | u
    · exact Or.inr ⟨_, _, _, rfl, rfl, hsame⟩
    · exact Or.inr ⟨_, _, _, rfl, rfl, hsame⟩

/-- **A step of the app** does the same, whatever else is stored. -/
theorem step_apart (h : SameTelemetry db db') (t : Telemetry) (i : TelemetryInput) :
    Matches Alike (step checks (t, db) i) (step checks (t, db') i) := by
  cases i with
  | start clearSensorRows =>
    cases t with
    | stopped => exact .next ⟨rfl, h⟩
    | _ => exact .stuck
  | sample temp now =>
    cases t with
    | asleep last => exact .next ⟨rfl, h⟩
    | _ => exact .stuck
  | transaction fails =>
    rw [step, step]
    obtain ⟨hnone, hnone'⟩ | ⟨t₁, d, d', hsome, hsome', hsame⟩ := transact_apart checks h t fails
    · simp only [hnone, hnone']
      exact .stuck
    · simp only [hsome, hsome']
      exact .next ⟨rfl, hsame⟩
  | exit =>
    cases t with
    | stopped => exact .stuck
    | _ => exact .next ⟨rfl, h⟩

end Telemetry

/-! ### Both of them -/

namespace System

/-- Whose event it is. -/
def Event.part : Event → Input ⊕ TelemetryInput
  | .subagent i => .inl i
  | .telemetry i => .inr i

variable {m : Modes} {pbDecode : Bytes → Option Envelope} {checks : Bool} {sys sys' : System}

/-- **The system, and the two programs on their own**: each has what is its own of the system. -/
structure Beside (m : Modes) (sys : System) (u : Subagent) (p : Telemetry × Lmdb) : Prop where
  inv : sys.Inv m
  alone : (System.mk u .stopped).Inv m
  apart : sys.subagent.Apart u
  alike : Telemetry.Alike (sys.telemetry, sys.envs .cache) p

/-- A turn of the subagent. -/
theorem Beside.subagent_step {u : Subagent} {p : Telemetry × Lmdb} (h : Beside m sys u p)
    (i : Input) : Matches (fun sys u => Beside m sys u p)
      (sys.step m pbDecode checks (.subagent i)) (u.step m pbDecode i) := by
  have hm := Subagent.step_apart pbDecode h.apart h.inv.subagent h.inv.sound h.alone.sound i
  rw [step]
  generalize hstep : sys.subagent.step m pbDecode i = r at hm ⊢
  generalize halone : u.step m pbDecode i = r' at hm ⊢
  obtain ⟨⟩ | ⟨hapart⟩ := hm
  · exact .stuck
  refine .next ⟨h.inv.subagent_step hstep, h.alone.subagent_step halone, hapart, h.alike.1, ?_⟩
  -- the keys of the app are not among what the subagent writes
  intro key hkey
  refine (h.alike.2 key hkey).trans (Eq.symm ?_)
  exact (Subagent.step_writes h.inv.subagent hstep).eq_of_forall_ne (a := (EnvId.cache, key))
    fun _ _ hw => hw.ne_telemetryKey hkey

/-- A step of the telemetry app. -/
theorem Beside.telemetry_step {u : Subagent} {p : Telemetry × Lmdb} (h : Beside m sys u p)
    (i : TelemetryInput) : Matches (fun sys p => Beside m sys u p)
      ((sys.step m pbDecode checks (.telemetry i)).map fun r => ((), r.2))
      ((Telemetry.step checks p i).map fun r => ((), r.2)) := by
  obtain ⟨t, db⟩ := p
  obtain ⟨rfl, hsame⟩ : t = sys.telemetry ∧ SameTelemetry (sys.envs .cache) db := h.alike
  have hm := Telemetry.step_apart checks hsame sys.telemetry i
  rw [step]
  generalize hstep : Telemetry.step checks (sys.telemetry, sys.envs .cache) i = r at hm ⊢
  generalize Telemetry.step checks (sys.telemetry, db) i = r' at hm ⊢
  obtain ⟨⟩ | ⟨halike⟩ := hm
  · exact .stuck
  refine .next ⟨h.inv.telemetry_step hstep, h.alone, ⟨h.apart.pdus, fun l hl => ?_⟩, ?_⟩
  · refine (h.apart.envs l hl).trans (Eq.symm ?_)
    refine (edits_setCache (Telemetry.step_writes h.inv.telemetry hstep)).eq_of_forall_ne ?_
    rintro _ _ ⟨key, rfl, hw⟩ rfl
    exact hl ⟨key, hw.mem_telemetryKeys, rfl⟩
  · simpa [setCache, envs, Telemetry.Alike] using halike

/-- **A run of both is a run of each.** -/
theorem run_apart (h : sys.Reachable m pbDecode checks) (es : List Event) :
    (run (fun sys e => step m pbDecode checks sys e) sys es = none ↔
      run (fun u i => Subagent.step m pbDecode u i) sys.subagent (lefts Event.part es) = none ∨
      run (fun p i => Telemetry.step checks p i) (sys.telemetry, sys.envs .cache)
        (rights Event.part es) = none) ∧
    ∀ os sys', run (fun sys e => step m pbDecode checks sys e) sys es = some (os, sys') →
      ∃ u us p,
        run (fun u i => Subagent.step m pbDecode u i) sys.subagent (lefts Event.part es) =
          some (leftAnswers Event.part es os, u) ∧
        run (fun p i => Telemetry.step checks p i) (sys.telemetry, sys.envs .cache)
          (rights Event.part es) = some (us, p) ∧
        Beside m sys' u p := by
  have hinv := h.inv
  refine run_beside (R := Beside m) ?_ ?_ es
    ⟨hinv, ⟨hinv.subagent, hinv.sound, trivial⟩, ⟨rfl, .refl _⟩, rfl, fun _ _ => rfl⟩
  · rintro sys u p hbeside (i | i) k hpart
    · obtain rfl := Sum.inl.inj hpart
      exact hbeside.subagent_step i
    · cases hpart
  · rintro sys u p hbeside (i | i) k hpart
    · cases hpart
    · obtain rfl := Sum.inr.inj hpart
      exact hbeside.telemetry_step i

end System

/-- **Neither program shows in the other.** From every state the system gets to, an interleaving of
turns of the subagent and steps of the telemetry app is possible exactly when those turns are
possible without the app and those steps without the subagent. Every frame is then answered as
without the app; the SETs in progress are where they are without it, and the app is where it is
without the subagent; what is stored under the keys of the app is what it alone leaves there, and
everything else is what the subagent alone leaves. -/
theorem programs_are_separate (m : Modes) (pbDecode : Bytes → Option Envelope) (checks : Bool)
    (sys : System) (h : sys.Reachable m pbDecode checks) (es : List System.Event) :
    let alone := run (fun u i => Subagent.step m pbDecode u i) sys.subagent
      (lefts System.Event.part es)
    let app := run (fun p i => Telemetry.step checks p i) (sys.telemetry, sys.envs .cache)
      (rights System.Event.part es)
    (run (fun sys e => System.step m pbDecode checks sys e) sys es = none ↔
      alone = none ∨ app = none) ∧
    ∀ os sys', run (fun sys e => System.step m pbDecode checks sys e) sys es = some (os, sys') →
      ∃ u us t db, alone = some (leftAnswers System.Event.part es os, u) ∧
        app = some (us, (t, db)) ∧ sys'.subagent.pdus = u.pdus ∧ sys'.telemetry = t ∧
        (∀ key ∈ telemetryKeys, sys'.envs.stored (.cache, key) = db[key]?) ∧
        ∀ l, ¬TelemetryPlace l → sys'.envs.stored l = u.agent.envs.stored l := by
  intro alone app
  obtain ⟨hnone, hsome⟩ := System.run_apart h es
  refine ⟨hnone, ?_⟩
  intro os sys' hrun
  obtain ⟨u, us, ⟨t, db⟩, halone, happ, hbeside⟩ := hsome os sys' hrun
  obtain ⟨htelemetry, hkeys⟩ := hbeside.alike
  refine ⟨u, us, t, db, halone, happ, hbeside.apart.pdus.symm, htelemetry.symm, ?_, ?_⟩
  · intro key hkey
    exact (hkeys key hkey).symm
  · intro l hl
    exact (hbeside.apart.envs l hl).symm

/-- After a startup from nothing, a SET in the middle of a sample comes out as without it. -/
theorem programs_are_separate_busy : ∃ os sys u us t db,
    run (fun sys e => System.step .shipped (fun _ => none) true sys e)
      ⟨⟨firstBoot, fun _ => none⟩, .stopped⟩ busyEvents = some (os, sys) ∧
    run (fun u i => Subagent.step .shipped (fun _ => none) u i) ⟨firstBoot, fun _ => none⟩
      (lefts System.Event.part busyEvents) = some (leftAnswers System.Event.part busyEvents os, u) ∧
    run (fun p i => Telemetry.step true p i) (.stopped, firstBoot.envs .cache)
      (rights System.Event.part busyEvents) = some (us, (t, db)) ∧
    sys.telemetry = t ∧ ∀ l, ¬TelemetryPlace l → sys.envs.stored l = u.agent.envs.stored l := by
  obtain ⟨os, sys, hrun⟩ : ∃ os sys,
      run (fun sys e => System.step .shipped (fun _ => none) true sys e)
        ⟨⟨firstBoot, fun _ => none⟩, .stopped⟩ busyEvents = some (os, sys) := ⟨_, _, rfl⟩
  obtain ⟨u, us, t, db, halone, happ, -, htelemetry, -, hrest⟩ :=
    (programs_are_separate .shipped (fun _ => none) true ⟨⟨firstBoot, fun _ => none⟩, .stopped⟩
      (reachable_of_run [] rfl) busyEvents).2 os sys hrun
  exact ⟨os, sys, u, us, t, db, hrun, halone, happ, htelemetry, hrest⟩

/-- **How the turns fall does not matter.** Two interleavings of the same turns of the subagent and
the same steps of the telemetry app, from a state the system gets to, are both possible or both
not; and if they are, the frames are answered alike, and they lead to the same SETs in progress, the
same place in the app and the same contents of both environments. -/
theorem any_interleaving (m : Modes) (pbDecode : Bytes → Option Envelope) (checks : Bool)
    (sys : System) (h : sys.Reachable m pbDecode checks) (es es' : List System.Event)
    (hturns : lefts System.Event.part es' = lefts System.Event.part es)
    (hsteps : rights System.Event.part es' = rights System.Event.part es) :
    (run (fun sys e => System.step m pbDecode checks sys e) sys es = none ↔
      run (fun sys e => System.step m pbDecode checks sys e) sys es' = none) ∧
    ∀ os s os' s',
      run (fun sys e => System.step m pbDecode checks sys e) sys es = some (os, s) →
      run (fun sys e => System.step m pbDecode checks sys e) sys es' = some (os', s') →
      leftAnswers System.Event.part es os = leftAnswers System.Event.part es' os' ∧
        s.subagent.pdus = s'.subagent.pdus ∧ s.telemetry = s'.telemetry ∧
        s.envs.stored = s'.envs.stored := by
  obtain ⟨hnone, hsome⟩ := System.run_apart h es
  obtain ⟨hnone', hsome'⟩ := System.run_apart h es'
  rw [hturns, hsteps] at hnone' hsome'
  refine ⟨hnone.trans hnone'.symm, ?_⟩
  intro os s os' s' hrun hrun'
  obtain ⟨u, us, p, halone, happ, hbeside⟩ := hsome os s hrun
  obtain ⟨u', us', p', halone', happ', hbeside'⟩ := hsome' os' s' hrun'
  -- the two programs on their own do not know which interleaving it is
  obtain ⟨hanswers, rfl⟩ := Prod.mk.inj (Option.some.inj (halone.symm.trans halone'))
  obtain ⟨-, rfl⟩ := Prod.mk.inj (Option.some.inj (happ.symm.trans happ'))
  refine ⟨hanswers, hbeside.apart.pdus.symm.trans hbeside'.apart.pdus,
    hbeside.alike.1.symm.trans hbeside'.alike.1, ?_⟩
  funext l
  by_cases hl : TelemetryPlace l
  · obtain ⟨key, hkey, rfl⟩ := hl
    exact (hbeside.alike.2 key hkey).symm.trans (hbeside'.alike.2 key hkey)
  · exact (hbeside.apart.envs l hl).symm.trans (hbeside'.apart.envs l hl)

/-- The sample first, and then the SET, is as good as both at once. -/
theorem any_interleaving_busy : ∃ os s os' s',
    run (fun sys e => System.step .shipped (fun _ => none) true sys e)
      ⟨⟨firstBoot, fun _ => none⟩, .stopped⟩ busyEvents = some (os, s) ∧
    run (fun sys e => System.step .shipped (fun _ => none) true sys e)
      ⟨⟨firstBoot, fun _ => none⟩, .stopped⟩
      ((rights System.Event.part busyEvents).map .telemetry ++
        (lefts System.Event.part busyEvents).map .subagent) = some (os', s') ∧
    s.envs.stored = s'.envs.stored := by
  obtain ⟨os, s, hrun⟩ : ∃ os s,
      run (fun sys e => System.step .shipped (fun _ => none) true sys e)
        ⟨⟨firstBoot, fun _ => none⟩, .stopped⟩ busyEvents = some (os, s) := ⟨_, _, rfl⟩
  obtain ⟨os', s', hrun'⟩ : ∃ os' s',
      run (fun sys e => System.step .shipped (fun _ => none) true sys e)
        ⟨⟨firstBoot, fun _ => none⟩, .stopped⟩
        ((rights System.Event.part busyEvents).map .telemetry ++
          (lefts System.Event.part busyEvents).map .subagent) = some (os', s') := ⟨_, _, rfl⟩
  have hsame := (any_interleaving .shipped (fun _ => none) true
    ⟨⟨firstBoot, fun _ => none⟩, .stopped⟩ (reachable_of_run [] rfl) busyEvents
    ((rights System.Event.part busyEvents).map .telemetry ++
      (lefts System.Event.part busyEvents).map .subagent) rfl rfl).2 os s os' s' hrun hrun'
  exact ⟨os, s, os', s', hrun, hrun', hsame.2.2.2⟩

end AgentxSubagent
