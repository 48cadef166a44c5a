import AgentxSubagent.Agent.Alarm
import AgentxSubagent.Subagent.LostWrite

/-!
# A failed SET and the alarm

`handle_tempThresholdMilliC` calls `demo_check_temp_alarm` in ACTION, after its own write has
succeeded and before it is known whether the SET as a whole will. UNDO restores the stored
threshold; the state of the alarm and a trap that was sent stay.

Which checks a SET makes can be told from its varbinds and from the contents it found
(`AgentxSubagent.thresholdChecks`), because no varbind reaches the temperature. So can what they
do to the alarm, as long as nothing switches it: `AgentxSubagent.Quiet`.

* `AgentxSubagent.forPdu_action_alarm`: ACTION does to the alarm what these checks do;
* `AgentxSubagent.pollAll_congr`: the alarm cannot tell contents apart that read alike;
* `AgentxSubagent.failed_set_alarm_iff`: when a SET that is undone leaves the alarm alone.
-/

namespace AgentxSubagent

open Assign ForEach Runs

/-! ### The checks of a SET -/

/-- The threshold a varbind asks for. -/
def SetVarbind.threshold (m : Modes) : SetVarbind → Option Value
  | .scalar .tempThresholdMilliC vb => (Scalar.object m .tempThresholdMilliC).syn.newValue vb
  | _ => none

/-- The threshold a request asks for. -/
def SetRequest.threshold (m : Modes) : SetRequest → Option Value
  | .scalar .tempThresholdMilliC r =>
    (Scalar.object m .tempThresholdMilliC).syn.newValue r.requestvb
  | _ => none

/-- The check ACTION makes for one request: none for another object, and none when the write of
the threshold fails. It reads the temperature of `before` and the threshold just written. -/
def thresholdCheck (m : Modes) (f : RequestFaults) (before : Envs) (v : Option Value) :
    Option CheckCall :=
  match v with
  | none => none
  | some v =>
    if f.scalar.write.Spares v then
      some (.still (before.put (Scalar.loc m .tempThresholdMilliC) v.encode) f.scalar.alarm)
    else none

/-- The checks ACTION makes for the requests from position `i` on. -/
def thresholdChecks (m : Modes) (f : ℕ → RequestFaults) (before : Envs) :
    ℕ → List (Option Value) → List CheckCall
  | _, [] => []
  | i, v :: vs => (thresholdCheck m (f i) before v).toList ++ thresholdChecks m f before (i + 1) vs

/-- Checks one after the other: the state they leave, and the traps. -/
def runChecks (m : Modes) (s : TempState × List Trap) (cs : List CheckCall) :
    TempState × List Trap :=
  cs.foldl (fun s c => ((c.check m s.1).2.1, (c.check m s.1).2.2.toList ++ s.2)) s

/-- **The checks leave the alarm where it was, and send nothing**: none of them switches it, or
those that do lead back to `start`, and none that raises it can send its trap. -/
def Quiet (m : Modes) (start : TempState) : TempState → List CheckCall → Prop
  | state, [] => state = start
  | state, c :: cs =>
    (c.Flips m state ∧ (state = .clear → ¬c.Sends m) ∧ Quiet m start state.other cs) ∨
      ¬c.Flips m state ∧ Quiet m start state cs

/-- For a SET that makes one check, it is that the check does not switch the alarm. -/
theorem quiet_singleton {m : Modes} {state : TempState} {c : CheckCall} :
    Quiet m state state [c] ↔ ¬c.Flips m state := by
  constructor
  · rintro (⟨-, -, hcon⟩ | ⟨h, -⟩)
    · cases state <;> exact absurd hcon (by simp [Quiet, TempState.other])
    · exact h
  · exact fun h => Or.inr ⟨h, rfl⟩

section Checks

variable {m : Modes}

/-- Checks only add traps. -/
theorem exists_traps_runChecks (s : TempState × List Trap) (cs : List CheckCall) :
    ∃ new, (runChecks m s cs).2 = new ++ s.2 := by
  induction cs generalizing s with
  | nil => exact ⟨[], rfl⟩
  | cons c cs ih =>
    obtain ⟨new, hnew⟩ := ih ((c.check m s.1).2.1, (c.check m s.1).2.2.toList ++ s.2)
    exact ⟨new ++ (c.check m s.1).2.2.toList, by rw [List.append_assoc]; exact hnew⟩

/-- **What it takes for checks to leave the alarm alone.** -/
theorem runChecks_eq_iff {start state : TempState} {traps : List Trap} (cs : List CheckCall) :
    runChecks m (state, traps) cs = (start, traps) ↔ Quiet m start state cs := by
  induction cs generalizing state with
  | nil => simp [runChecks, Quiet]
  | cons c cs ih =>
    have hcons : runChecks m (state, traps) (c :: cs) =
      runChecks m ((c.check m state).2.1, (c.check m state).2.2.toList ++ traps) cs := rfl
    rw [hcons, Quiet]
    by_cases hflips : c.Flips m state
    · obtain ⟨hstate, htrap⟩ := CheckCall.check_of_flips hflips
      rw [hstate]
      by_cases hsends : state = .clear ∧ c.Sends m
      · -- a trap that was sent stays sent
        obtain ⟨t, ht⟩ := Option.isSome_iff_exists.mp (htrap.mpr hsends)
        refine iff_of_false (fun hcon => ?_) ?_
        · obtain ⟨new, hnew⟩ : ∃ new, (runChecks m _ cs).2 = new ++ _ :=
            exists_traps_runChecks (state.other, (c.check m state).2.2.toList ++ traps) cs
          rw [hcon, ht] at hnew
          have hlen := congrArg List.length hnew
          simp only [Option.toList_some, List.length_append, List.length_singleton] at hlen
          omega
        · rintro (⟨-, h, -⟩ | ⟨h, -⟩)
          · exact h hsends.1 hsends.2
          · exact h hflips
      · have hnone : (c.check m state).2.2 = none :=
          Option.not_isSome_iff_eq_none.mp (fun h => hsends (htrap.mp h))
        rw [hnone]
        refine Iff.trans ih ⟨fun h => Or.inl ⟨hflips, fun h1 h2 => hsends ⟨h1, h2⟩, h⟩, ?_⟩
        rintro (⟨-, -, h⟩ | ⟨h, -⟩)
        · exact h
        · exact absurd hflips h
    · rw [CheckCall.check_of_not_flips hflips]
      refine Iff.trans ih ⟨fun h => Or.inr ⟨hflips, h⟩, ?_⟩
      rintro (⟨h, -⟩ | ⟨-, h⟩)
      · exact absurd h hflips
      · exact h

end Checks

/-! ### ACTION and UNDO -/

/-- No scalar is stored where the temperature is. -/
theorem Scalar.loc_ne_cpuTempLoc (m : Modes) (s : Scalar) : s.loc m ≠ cpuTempLoc := by
  intro h
  have hname : s.name = ascii "cpuTempMilliC" := (Prod.ext_iff.mp h).2
  revert hname
  cases s <;> decide

/-- And no cell. -/
theorem PortColumn.cellLoc_ne_cpuTempLoc (m : Modes) (c : PortColumn) (inst : TableInstance) :
    c.cellLoc m inst ≠ cpuTempLoc := by
  intro h
  have hkey : cellKey c.name inst = ascii "cpuTempMilliC" := (Prod.ext_iff.mp h).2
  have hdot : (46 : UInt8) ∉ ascii "cpuTempMilliC" := by decide
  refine hdot ?_
  rw [← hkey, cellKey]
  simp

section OneRequest

variable {m : Modes} {f : RequestFaults} {a : Agent} {r : SetRequest} {before : Envs}

/-- ACTION writes nowhere near the temperature. -/
theorem actionWrite_ne_cpuTempLoc {p : Loc × Option Bytes} (h : r.actionWrite m = some p) :
    p.1 ≠ cpuTempLoc := by
  cases r with
  | scalar s r =>
    obtain ⟨v, -, rfl⟩ := Option.map_eq_some_iff.mp h
    exact s.loc_ne_cpuTempLoc m
  | cell r =>
    obtain ⟨c, inst, -, hloc⟩ := TableVarbind.write_fst h
    rw [hloc]
    exact c.cellLoc_ne_cpuTempLoc m inst

/-- UNDO neither. -/
theorem undoWrites_ne_cpuTempLoc (hr : r.Stashed m before) {p : Loc × Option Bytes}
    (h : p ∈ r.undoWrites m) : p.1 ≠ cpuTempLoc := by
  cases r with
  | scalar s r =>
    obtain ⟨v, -, rfl⟩ : ∃ v, r.undo = some v ∧ (s.loc m, some v.encode) = p := by
      simpa [SetRequest.undoWrites] using h
    exact s.loc_ne_cpuTempLoc m
  | cell r =>
    obtain ⟨l, data, content, hwrite, hrest, -⟩ := Reserved.restorations hr
    rw [SetRequest.undoWrites, hrest] at h
    obtain rfl : p = (l, content) := by simpa using h
    obtain ⟨c, inst, -, hloc⟩ := TableVarbind.write_fst hwrite
    rw [hloc]
    exact c.cellLoc_ne_cpuTempLoc m inst

/-- What ACTION makes of a threshold: a write that fails leaves the alarm alone, and one that
succeeds is followed by a check. -/
theorem handleTempThresholdMilliC_action {f : CallFaults} {r : ScalarRequest} {v : Value}
    (hv : (Scalar.object m .tempThresholdMilliC).syn.newValue r.requestvb = some v) :
    (handleTempThresholdMilliC m f .action a r).2 =
      if f.write.Spares v then
        (Agent.demoCheckTempAlarm m f.alarm
          { a with envs := a.envs.put (Scalar.loc m .tempThresholdMilliC) v.encode }).2
      else a := by
  have hkey : ValidKey (Scalar.object m .tempThresholdMilliC).name :=
    Scalar.validKey_name .tempThresholdMilliC
  simp only [handleTempThresholdMilliC, dbscalar, hv]
  split_ifs with hspares
  · rw [a.envs.setValue_spared f.write _ hkey hspares]
    rfl
  · obtain ⟨rc, hset⟩ | ⟨-, hset⟩ := a.envs.setValue_cases f.write
      (Scalar.object m .tempThresholdMilliC).mode.env
      (Scalar.object m .tempThresholdMilliC).name v
    · rw [hset]
    · have hok := (a.envs.setValue_ok_iff f.write
        (Scalar.object m .tempThresholdMilliC).mode.env hkey v).mp (by rw [hset])
      exact absurd hok hspares

/-- **ACTION for one request** does to the alarm what the check of its threshold does. -/
theorem handleRequest_action_alarm (hcpu : a.envs.stored cpuTempLoc = before.stored cpuTempLoc) :
    ((handleRequest m f .action a r).2.tempAlarmState, (handleRequest m f .action a r).2.traps) =
      runChecks m (a.tempAlarmState, a.traps)
        (thresholdCheck m f before (r.threshold m)).toList := by
  cases r with
  | cell r => rfl
  | scalar s r =>
    by_cases hs : s = .tempThresholdMilliC
    · subst hs
      simp only [handleRequest, Scalar.handle, SetRequest.threshold]
      rcases hv : (Scalar.object m .tempThresholdMilliC).syn.newValue r.requestvb with _ | v
      · simp only [handleTempThresholdMilliC, dbscalar, hv]
        rfl
      rw [handleTempThresholdMilliC_action hv]
      by_cases hspares : f.scalar.write.Spares v
      · simp only [thresholdCheck, if_pos hspares]
        -- both read the temperature of `before` and the threshold just written
        have hcheck :
            (CheckCall.still (a.envs.put (Scalar.loc m .tempThresholdMilliC) v.encode)
              f.scalar.alarm).check m =
            (CheckCall.still (before.put (Scalar.loc m .tempThresholdMilliC) v.encode)
              f.scalar.alarm).check m := by
          refine CheckCall.check_still_congr ?_ ?_ _
          · rw [Envs.stored_put, Envs.stored_put,
              Function.update_of_ne (Scalar.loc_ne_cpuTempLoc m _).symm,
              Function.update_of_ne (Scalar.loc_ne_cpuTempLoc m _).symm, hcpu]
            exact readsAlike_refl _
          · rw [Envs.stored_put, Envs.stored_put, Function.update_self, Function.update_self]
            exact readsAlike_refl _
        rw [Agent.demoCheckTempAlarm_eq, hcheck]
        rfl
      · simp only [thresholdCheck, if_neg hspares]
        rfl
    · -- the other handlers do nothing after their write
      have hnone : SetRequest.threshold m (.scalar s r) = none := by
        cases s <;> first | rfl | exact absurd rfl hs
      have hh : s.handle m f.scalar = dbscalar (s.object m) id f.scalar := by
        cases s <;> first | rfl | exact absurd rfl hs
      rw [hnone]
      simp only [handleRequest, hh, dbscalar]
      rcases (s.object m).syn.newValue r.requestvb with _ | v
      · rfl
      · simp only
        rcases a.envs.setValue f.scalar.write (s.object m).mode.env (s.object m).name v with
          ⟨rc | u, envs⟩ <;> rfl

/-- UNDO leaves the alarm as it is. -/
theorem handleRequest_undo_alarm :
    (handleRequest m f .undo a r).2.tempAlarmState = a.tempAlarmState ∧
      (handleRequest m f .undo a r).2.traps = a.traps := by
  cases r with
  | cell r => exact ⟨rfl, rfl⟩
  | scalar s r =>
    rcases hv : r.undo with _ | v
    · obtain ⟨stored, -, hh⟩ := s.handle_eq m f.scalar
      simp only [handleRequest, hh, dbscalar, hv]
      exact ⟨trivial, trivial⟩
    · obtain hundo | hundo : s.handle m f.scalar .undo a r = _ ∨ _ := Scalar.undo_cases hv
      · simp only [handleRequest, hundo]
        exact ⟨trivial, trivial⟩
      · simp only [handleRequest, hundo]
        exact ⟨trivial, trivial⟩

/-- A phase keeps the threshold a request asks for. -/
theorem threshold_handleRequest (mode : SetMode) :
    (handleRequest m f mode a r).1.threshold m = r.threshold m := by
  cases r with
  | cell r => rfl
  | scalar s r =>
    have hvb : (s.handle m f.scalar mode a r).1.requestvb = r.requestvb := by
      obtain ⟨stored, -, hh⟩ := s.handle_eq m f.scalar
      rw [hh]
      cases mode <;> simp only [dbscalar] <;> repeat' split
      all_goals rfl
    cases s with
    | tempThresholdMilliC => simp only [handleRequest, SetRequest.threshold, hvb]
    | _ => rfl

end OneRequest

section Phases

variable {m : Modes} {a : Agent} {rs : List SetRequest} {before : Envs}

/-- **ACTION of a PDU** does to the alarm what the checks of its thresholds do. -/
theorem forPdu_action_alarm (f : ℕ → RequestFaults)
    (hcpu : a.envs.stored cpuTempLoc = before.stored cpuTempLoc) :
    ((forPdu m f .action rs a).2.tempAlarmState, (forPdu m f .action rs a).2.traps) =
        runChecks m (a.tempAlarmState, a.traps)
          (thresholdChecks m f before 0 (rs.map (SetRequest.threshold m))) ∧
      (forPdu m f .action rs a).2.envs.stored cpuTempLoc = before.stored cpuTempLoc := by
  unfold forPdu
  generalize 0 = i
  induction rs generalizing i a with
  | nil => exact ⟨rfl, hcpu⟩
  | cons r rs ih =>
    have hedits : Edits (fun l _ => l ≠ cpuTempLoc) a.envs.stored
        (handleRequest m (f i) .action a r).2.envs.stored :=
      handleRequest_action_edits fun p hp => actionWrite_ne_cpuTempLoc hp
    have hcpu' := (hedits.eq_of_forall_ne fun _ _ h => h).trans hcpu
    obtain ⟨hrest, hcpu''⟩ := ih hcpu' (i + 1)
    rw [forEach_cons, List.map_cons, thresholdChecks]
    refine ⟨?_, hcpu''⟩
    rw [hrest, handleRequest_action_alarm hcpu, runChecks, runChecks, runChecks,
      List.foldl_append]

/-- UNDO of a PDU leaves the alarm and the temperature as they are. -/
theorem forPdu_undo_alarm (f : ℕ → RequestFaults) (hrs : ∀ r ∈ rs, r.Stashed m before) :
    (forPdu m f .undo rs a).2.tempAlarmState = a.tempAlarmState ∧
      (forPdu m f .undo rs a).2.traps = a.traps ∧
      (forPdu m f .undo rs a).2.envs.stored cpuTempLoc = a.envs.stored cpuTempLoc := by
  have hedits := forPdu_undo_edits (P := fun l _ => l ≠ cpuTempLoc) (a := a) f
    fun r hr p hp => undoWrites_ne_cpuTempLoc (hrs r hr) hp
  have halarm : (forPdu m f .undo rs a).2.tempAlarmState = a.tempAlarmState ∧
      (forPdu m f .undo rs a).2.traps = a.traps :=
    forEach_rel (R := fun a a' : Agent =>
        a'.tempAlarmState = a.tempAlarmState ∧ a'.traps = a.traps)
      (fun _ => ⟨rfl, rfl⟩) (fun _ _ _ h1 h2 => ⟨h2.1.trans h1.1, h2.2.trans h1.2⟩)
      (fun _ _ _ _ => handleRequest_undo_alarm) 0 a
  exact ⟨halarm.1, halarm.2, hedits.eq_of_forall_ne fun _ _ h => h⟩

end Phases

/-! ### Later polls -/

/-- A later poll: what other processes commit before it, and what fails in it. -/
structure LaterPoll where
  commits : List (Loc × Option Bytes)
  faults : AlarmFaults

/-- The contents after commits of other processes; `none` stands for a deletion. -/
def Envs.commit (envs : Envs) (l : List (Loc × Option Bytes)) : Envs :=
  l.foldl (fun envs p =>
    match p.2 with
    | some data => envs.put p.1 data
    | none => envs.remove p.1) envs

theorem Envs.stored_commit (envs : Envs) (l : List (Loc × Option Bytes)) :
    (envs.commit l).stored = assign envs.stored l := by
  induction l generalizing envs with
  | nil => rfl
  | cons p l ih =>
    obtain ⟨loc, data⟩ := p
    refine (ih _).trans ?_
    rw [assign_cons]
    cases data with
    | none => rw [Envs.stored_remove]
    | some data => rw [Envs.stored_put]

/-- Commits of other processes, and then a poll. -/
def Agent.poll (m : Modes) (a : Agent) (p : LaterPoll) : Agent :=
  (Agent.demoCheckTempAlarm m p.faults { a with envs := a.envs.commit p.commits }).2

/-- Polls one after the other. -/
def Agent.pollAll (m : Modes) (ps : List LaterPoll) (a : Agent) : Agent := ps.foldl (Agent.poll m) a

/-- Agents the alarm cannot tell apart. -/
structure AlarmAlike (m : Modes) (a a' : Agent) : Prop where
  state_eq : a'.tempAlarmState = a.tempAlarmState
  traps_eq : a'.traps = a.traps
  cpuTemp : ReadsAlike (a.envs.stored cpuTempLoc) (a'.envs.stored cpuTempLoc)
  threshold : ReadsAlike (a.envs.stored (Scalar.loc m .tempThresholdMilliC))
    (a'.envs.stored (Scalar.loc m .tempThresholdMilliC))

/-- **Alike agents stay alike**, whatever other processes commit and whatever fails. -/
theorem pollAll_congr {m : Modes} {a a' : Agent} (h : AlarmAlike m a a') (ps : List LaterPoll) :
    AlarmAlike m (a.pollAll m ps) (a'.pollAll m ps) := by
  induction ps generalizing a a' with
  | nil => exact h
  | cons p ps ih =>
    refine ih ?_
    have hcommit : ∀ l : Loc, ReadsAlike (a.envs.stored l) (a'.envs.stored l) →
        ReadsAlike ((a.envs.commit p.commits).stored l) ((a'.envs.commit p.commits).stored l) := by
      intro l hl
      rw [Envs.stored_commit, Envs.stored_commit]
      exact assign_rel readsAlike_refl hl p.commits
    have hcheck :=
      CheckCall.check_still_congr (hcommit _ h.cpuTemp) (hcommit _ h.threshold) p.faults
    rw [Agent.poll, Agent.poll, Agent.demoCheckTempAlarm_eq, Agent.demoCheckTempAlarm_eq]
    refine ⟨?_, ?_, hcommit _ h.cpuTemp, hcommit _ h.threshold⟩
    · simp only [hcheck, h.state_eq]
    · simp only [hcheck, h.state_eq, h.traps_eq]

/-- **The SET left the alarm alone**: the state is the same, no trap was sent, and later polls
send the same traps as if it had not been. -/
structure AlarmUntouched (m : Modes) (a a' : Agent) : Prop where
  state_eq : a'.tempAlarmState = a.tempAlarmState
  traps_eq : a'.traps = a.traps
  later : ∀ ps, (a'.pollAll m ps).traps = (a.pollAll m ps).traps

section Threshold

variable {m : Modes} {a : Agent}

/-- The temperature is set to `v`, and polled. -/
def heat (v : Int32) : LaterPoll := ⟨[(cpuTempLoc, some (Value.int32 v).encode)], .none⟩

/-- Setting the temperature leaves the threshold. -/
theorem stored_threshold_heat (envs : Envs) (v : Int32) :
    (envs.commit (heat v).commits).stored (Scalar.loc m .tempThresholdMilliC) =
      envs.stored (Scalar.loc m .tempThresholdMilliC) := by
  rw [Envs.stored_commit, heat, assign_cons, assign_nil,
    Function.update_of_ne (Scalar.loc_ne_cpuTempLoc m _)]

/-- A poll after that reads the temperature set and the threshold stored, and can send a trap
with them. -/
theorem reads_heat {envs : Envs} {threshold : Int32} (v : Int32)
    (h : envs.stored (Scalar.loc m .tempThresholdMilliC) = some (Value.int32 threshold).encode) :
    (CheckCall.still (envs.commit (heat v).commits) .none).reads m = ⟨.ok v, .ok threshold⟩ ∧
      (CheckCall.still (envs.commit (heat v).commits) .none).Sends m := by
  have hcpu : (envs.commit (heat v).commits).stored cpuTempLoc = some (Value.int32 v).encode := by
    rw [Envs.stored_commit, heat, assign_cons, assign_nil, Function.update_self]
  have hr := readCpuTemp_of_stored hcpu
  have ht := readTempThreshold_of_stored ((stored_threshold_heat envs v).trans h)
  refine ⟨?_, ⟨(v, threshold), ?_⟩, rfl⟩
  · simp only [CheckCall.reads, CheckCall.still, AlarmFaults.none, hr, ht]
  · simp only [CheckCall.sendReads, CheckCall.still, AlarmFaults.none, hr, ht, TempReads.both]

/-- Without a threshold no poll sends a trap. -/
theorem pollAll_heat_of_absent
    (h : a.envs.stored (Scalar.loc m .tempThresholdMilliC) = none) (vs : List Int32) :
    (a.pollAll m (vs.map heat)).traps = a.traps := by
  induction vs generalizing a with
  | nil => rfl
  | cons v vs ih =>
    have hkeep := (stored_threshold_heat a.envs v).trans h
    have hread : readTempThreshold m .none (a.envs.commit (heat v).commits) =
        .error .notFound := by
      refine map_int32_inj ?_
      have hget : (a.envs.commit (heat v).commits).getAs .none m.tempThresholdMilliC.env .int32
          (Scalar.name .tempThresholdMilliC) 0 = _ :=
        Envs.getAs_none (Scalar.validKey_name _) .int32 0
      rw [show (a.envs.commit (heat v).commits).stored
        (m.tempThresholdMilliC.env, Scalar.name .tempThresholdMilliC) = none from hkeep] at hget
      exact hget
    have hflips : ¬(CheckCall.still (a.envs.commit (heat v).commits) .none).Flips m
        a.tempAlarmState := by
      rintro ⟨cpuTemp, threshold, hboth, -⟩
      rw [CheckCall.reads, TempReads.both] at hboth
      simp only [CheckCall.still, AlarmFaults.none, hread] at hboth
      split at hboth <;> exact absurd hboth (by simp)
    refine (ih hkeep).trans ?_
    rw [Agent.poll, Agent.demoCheckTempAlarm_eq]
    simp only [heat] at hflips ⊢
    rw [CheckCall.check_of_not_flips hflips]
    rfl

/-- With the threshold 0, cooling down and heating up sends one. -/
theorem pollAll_heat_of_zero
    (h : a.envs.stored (Scalar.loc m .tempThresholdMilliC) = some (Value.int32 0).encode) :
    (a.pollAll m [heat (-1000), heat 1]).traps ≠ a.traps := by
  have h1 := (stored_threshold_heat a.envs (-1000)).trans h
  obtain ⟨hreads1, -⟩ := reads_heat (-1000) h
  -- the first poll leaves the alarm clear
  have hclear : (CheckCall.check m (CheckCall.still (a.envs.commit (heat (-1000)).commits) .none)
      a.tempAlarmState).2 = (.clear, none) := by
    rw [CheckCall.check, demoCheckTempAlarm, hreads1]
    cases a.tempAlarmState <;> rfl
  -- so the second one raises it
  obtain ⟨hreads2, hsends2⟩ := reads_heat 1 h1
  have hflips : (CheckCall.still ((a.envs.commit (heat (-1000)).commits).commit (heat 1).commits)
      .none).Flips m .clear := by
    refine ⟨1, 0, ?_, by decide⟩
    rw [hreads2]
    rfl
  obtain ⟨trap, htrap⟩ := Option.isSome_iff_exists.mp
    ((CheckCall.check_of_flips hflips).2.mpr ⟨rfl, hsends2⟩)
  have hfinal : (a.pollAll m [heat (-1000), heat 1]).traps = trap :: a.traps := by
    simp only [Agent.pollAll, List.foldl_cons, List.foldl_nil, Agent.poll,
      Agent.demoCheckTempAlarm_eq]
    simp only [heat] at hclear htrap ⊢
    rw [hclear, htrap]
    rfl
  rw [hfinal]
  simp

end Threshold

/-! ### When the alarm is left alone -/

/-- **What a failed SET does to the alarm**: the checks of its threshold writes, and nothing else.
The temperature is left. -/
theorem undone_set_alarm {m : Modes} {pbDecode : Bytes → Option Envelope} {u u' : Subagent} {t : ℕ}
    {vbs : List SetVarbind} {f₂ f₃ : ℕ → RequestFaults} {os : List (Option FrameRecord)}
    (h : run (fun u i => Subagent.step m pbDecode u i) u (undoneSet t vbs f₂ f₃ [] []) =
      some (os, u')) :
    (u'.agent.tempAlarmState, u'.agent.traps) =
        runChecks m (u.agent.tempAlarmState, u.agent.traps)
          (thresholdChecks m f₃ u.agent.envs 0 (vbs.map (SetVarbind.threshold m))) ∧
      u'.agent.envs.stored cpuTempLoc = u.agent.envs.stored cpuTempLoc := by
  obtain ⟨rs, u₂, _, u₃, u₄, _, u₅, hkeeps, hstashed, hagent₂, hrun₃, hagent₄, hrun₅, hagent⟩ :=
    undone_turns (by simp) (by simp) h
  obtain rfl : u₂ = u₃ := (Prod.mk.inj (Option.some.inj hrun₃)).2
  obtain rfl : u₄ = u₅ := (Prod.mk.inj (Option.some.inj hrun₅)).2
  rw [hagent₂] at hagent₄ hagent
  have hthresholds : rs.map (SetRequest.threshold m) = vbs.map (SetVarbind.threshold m) := by
    rw [hkeeps (SetRequest.threshold m) fun f mode a r => threshold_handleRequest mode,
      List.map_map]
    refine List.map_congr_left fun vb _ => ?_
    rcases vb with ⟨s, vb⟩ | vb
    · cases s <;> rfl
    · rfl
  -- ACTION makes the checks, and UNDO makes none
  obtain ⟨halarm, hcpu⟩ : _ ∧ (forPdu m f₃ .action rs u.agent).2.envs.stored cpuTempLoc =
      u.agent.envs.stored cpuTempLoc := forPdu_action_alarm f₃ rfl
  rw [hthresholds] at halarm
  obtain ⟨hstate, htraps, hcpu'⟩ := forPdu_undo_alarm (m := m) (a := u₄.agent) (fun _ => .none)
    (forPdu_action_stashed (a := u.agent) f₃ hstashed)
  rw [← hagent, hagent₄] at hstate htraps hcpu'
  rw [hstate, htraps, hcpu', hcpu]
  exact ⟨halarm, rfl⟩

/-- **When a failed SET leaves the alarm alone.** A SET that asks for a threshold and is undone
leaves the state of the alarm, sends no trap and changes no later trap if and only if a threshold
was stored before and the checks of its threshold writes are quiet: none that succeeds switches
the alarm, or those that do lead back without a trap getting out. -/
theorem failed_set_alarm_iff (m : Modes) (pbDecode : Bytes → Option Envelope) (u u' : Subagent)
    (t : ℕ) (vbs : List SetVarbind) (f₂ f₃ : ℕ → RequestFaults) (vb : AsnValue)
    (hvb : .scalar .tempThresholdMilliC vb ∈ vbs) (os : List (Option FrameRecord))
    (h : run (fun u i => Subagent.step m pbDecode u i) u (undoneSet t vbs f₂ f₃ [] []) =
      some (os, u')) :
    AlarmUntouched m u.agent u'.agent ↔
      u.agent.envs.stored (Scalar.loc m .tempThresholdMilliC) ≠ none ∧
        Quiet m u.agent.tempAlarmState u.agent.tempAlarmState
          (thresholdChecks m f₃ u.agent.envs 0 (vbs.map (SetVarbind.threshold m))) := by
  -- what UNDO leaves in the storage
  obtain ⟨v, hstash, hafter⟩ := undone_set_stores_stash (by simp) (by simp) h hvb
  obtain ⟨halarm, hcpu⟩ := undone_set_alarm h
  have hcpuAlike : ReadsAlike (u.agent.envs.stored cpuTempLoc)
      (u'.agent.envs.stored cpuTempLoc) := by
    rw [hcpu]
    exact readsAlike_refl _
  have hquiet : runChecks m (u.agent.tempAlarmState, u.agent.traps) _ =
      (u.agent.tempAlarmState, u.agent.traps) ↔ Quiet m _ u.agent.tempAlarmState _ :=
    runChecks_eq_iff (thresholdChecks m f₃ u.agent.envs 0 (vbs.map (SetVarbind.threshold m)))
  rw [← hquiet, ← halarm, Prod.mk.injEq]
  constructor
  · intro hun
    refine ⟨fun habs => ?_, hun.state_eq, hun.traps_eq⟩
    -- a threshold that was not there is now 0, and a later poll can tell
    obtain ⟨data, hdata, -⟩ | ⟨-, rfl⟩ := hstash
    · exact absurd (hdata.symm.trans habs) (by simp)
    · have hlater := hun.later [heat (-1000), heat 1]
      have hnone : (u.agent.pollAll m [heat (-1000), heat 1]).traps = u.agent.traps :=
        pollAll_heat_of_absent habs [-1000, 1]
      rw [hnone, ← hun.traps_eq] at hlater
      exact pollAll_heat_of_zero hafter hlater
  · rintro ⟨hpresent, hstate', htraps'⟩
    refine ⟨hstate', htraps', fun ps => ?_⟩
    obtain ⟨data, hdata, hread⟩ | ⟨habs, -⟩ := hstash
    · refine (pollAll_congr ⟨hstate', htraps', hcpuAlike, ?_⟩ ps).traps_eq
      rw [hdata, hafter]
      exact readsAlike_encode hread
    · exact absurd habs hpresent

/-- The subagent at rest with the alarm clear, the temperature at 60000 and the threshold at
70000. -/
def warmSubagent : Subagent := ⟨⟨alarmEnvs (some 60000) 70000, .clear, []⟩, fun _ => none⟩

/-- A SET of the threshold and of `deviceName`. -/
def thresholdSet (threshold : ℤ) : List SetVarbind :=
  [.scalar .tempThresholdMilliC (.integer threshold), .scalar .deviceName (.octetStr (ascii "lab"))]

/-- The write of `deviceName` runs into a full map. -/
def nameFull (i : ℕ) : RequestFaults := if i = 1 then ⟨mapFullFaults, .none⟩ else .none

/-- A SET of the threshold to 50000 in which the write of `deviceName` fails, so that it cannot be
committed: after UNDO the threshold is 70000 again, but the alarm is set and a trap was sent. -/
theorem failed_set_raises_alarm :
    ∃ os u', run (fun u i => Subagent.step .shipped decodeTesting u i) warmSubagent
        (undoneSet 0 (thresholdSet 50000) (fun _ => .none) nameFull [] []) = some (os, u') ∧
      run (fun u i => Subagent.step .shipped decodeTesting u i) warmSubagent
        [.reserve1 0 (thresholdSet 50000), .phase 0 .reserve2 fun _ => .none,
          .phase 0 .action nameFull, .phase 0 .commit fun _ => .none] = none ∧
      u'.agent.envs.stored (Scalar.loc .shipped .tempThresholdMilliC) =
        some (Value.int32 70000).encode ∧
      u'.agent.tempAlarmState = .alarm ∧
      u'.agent.traps = [[.snmpTrapOid, .cpuTempMilliC 60000, .tempThresholdMilliC 50000]] ∧
      ¬AlarmUntouched .shipped warmSubagent.agent u'.agent := by
  obtain ⟨os, u', hrun, hcommit, hstored, hstate, htraps⟩ :
      ∃ os u', run (fun u i => Subagent.step .shipped decodeTesting u i) warmSubagent
          (undoneSet 0 (thresholdSet 50000) (fun _ => .none) nameFull [] []) = some (os, u') ∧
        run (fun u i => Subagent.step .shipped decodeTesting u i) warmSubagent
          [.reserve1 0 (thresholdSet 50000), .phase 0 .reserve2 fun _ => .none,
            .phase 0 .action nameFull, .phase 0 .commit fun _ => .none] = none ∧
        u'.agent.envs.stored (Scalar.loc .shipped .tempThresholdMilliC) =
          some (Value.int32 70000).encode ∧
        u'.agent.tempAlarmState = .alarm ∧
        u'.agent.traps = [[.snmpTrapOid, .cpuTempMilliC 60000, .tempThresholdMilliC 50000]] :=
    ⟨_, _, rfl, rfl, by decide, by decide, by decide⟩
  refine ⟨os, u', hrun, hcommit, hstored, hstate, htraps, fun hun => ?_⟩
  have heq := hun.state_eq
  rw [hstate] at heq
  exact absurd heq (by decide)

/-- The same SET to 65000, which is above the temperature, leaves the alarm alone. -/
theorem failed_set_alarm_warm :
    ∃ os u', run (fun u i => Subagent.step .shipped decodeTesting u i) warmSubagent
        (undoneSet 0 (thresholdSet 65000) (fun _ => .none) nameFull [] []) = some (os, u') ∧
      AlarmUntouched .shipped warmSubagent.agent u'.agent := by
  refine ⟨_, _, rfl, ?_⟩
  refine (failed_set_alarm_iff .shipped decodeTesting warmSubagent _ 0 (thresholdSet 65000)
    (fun _ => .none) nameFull (.integer 65000) (by simp [thresholdSet]) _ rfl).mpr
    ⟨by decide, ?_⟩
  refine quiet_singleton.mpr ?_
  rintro ⟨cpuTemp, threshold, hboth, hflip⟩
  have hreads : (CheckCall.reads .shipped (CheckCall.still (warmSubagent.agent.envs.put
      (Scalar.loc .shipped .tempThresholdMilliC) (Value.int32 65000).encode) .none)).both.toOption =
      some (60000, 65000) := by decide
  have hpair := congrArg Except.toOption hboth
  obtain ⟨rfl, rfl⟩ := Prod.mk.inj (Option.some.inj (hreads.symm.trans hpair))
  exact absurd (show (60000 : Int32) > 65000 from hflip) (by decide)

end AgentxSubagent
