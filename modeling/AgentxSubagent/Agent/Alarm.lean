import AgentxSubagent.Agent.Trap

/-!
# Alarm episodes

A call of `demo_check_temp_alarm` makes up to four reads, each in a snapshot of its own: it
reads the two values it compares, and once it has switched to the alarm state,
`demo_send_temp_alarm` reads both of them again for the trap. Between any two of these reads
another process may commit, and any of them may fail. A call is therefore given by the
contents each of its reads finds and by what fails in it: `AgentxSubagent.CheckCall`.

The state is switched before the trap is sent. A call that switches it and then cannot read
the values again, or gets no memory for the first varbind, leaves the alarm set with no trap
sent, and reports 1 when a value was gone.

* `AgentxSubagent.CheckCall.check_cases`: what a call does;
* `AgentxSubagent.episodes_trapped_iff`: in which runs every episode is trapped;
* `AgentxSubagent.trap_reports_compared_iff`: in which calls the trap carries the values that
  were compared.
-/

namespace AgentxSubagent

/-! ### Calls -/

/-- A call of `demo_check_temp_alarm`: what each of its reads finds, and what fails. -/
structure CheckCall where
  cpuTempIn : Envs
  thresholdIn : Envs
  sendCpuTempIn : Envs
  sendThresholdIn : Envs
  faults : AlarmFaults

namespace CheckCall

variable (m : Modes) (c : CheckCall)

/-- The values that are compared. -/
def reads : TempReads :=
  ⟨readCpuTemp c.faults.cpuTemp c.cpuTempIn, readTempThreshold m c.faults.threshold c.thresholdIn⟩

/-- The values that are read again for the trap. -/
def sendReads : TempReads :=
  ⟨readCpuTemp c.faults.sendCpuTemp c.sendCpuTempIn,
    readTempThreshold m c.faults.sendThreshold c.sendThresholdIn⟩

/-- `demo_check_temp_alarm`: its return code, the new state and the trap sent, if any. -/
def check (state : TempState) : ℤ × TempState × Option Trap :=
  demoCheckTempAlarm state (c.reads m) (c.sendReads m) c.faults.alloc

/-- Both readings are there, and the temperature is above the threshold. -/
def Exceeds : Prop :=
  ∃ cpuTemp threshold, (c.reads m).both = .ok (cpuTemp, threshold) ∧ cpuTemp > threshold

/-- Both readings are there again, and the trap gets its first varbind. -/
def Sends : Prop := (∃ p, (c.sendReads m).both = .ok p) ∧ c.faults.alloc.snmpTrapOid = true

end CheckCall

/-- A call during which the contents stay. -/
def CheckCall.still (envs : Envs) (af : AlarmFaults) : CheckCall := ⟨envs, envs, envs, envs, af⟩

/-- The calls of the subagent itself are such calls. -/
theorem Agent.demoCheckTempAlarm_eq (m : Modes) (af : AlarmFaults) (a : Agent) :
    a.demoCheckTempAlarm m af =
      let done := (CheckCall.still a.envs af).check m a.tempAlarmState
      (done.1, ⟨a.envs, done.2.1, done.2.2.toList ++ a.traps⟩) := rfl

/-- What `demo_send_temp_alarm` does when it can send: it carries the values it read. -/
theorem demoSendTempAlarm_of_sends {r : TempReads} {alloc : TrapAllocs} {cpuTemp threshold : Int32}
    (hr : r.both = .ok (cpuTemp, threshold)) (halloc : alloc.snmpTrapOid = true) :
    demoSendTempAlarm r alloc =
      (0, some ([.snmpTrapOid] ++ (if alloc.cpuTemp then [.cpuTempMilliC cpuTemp] else []) ++
        (if alloc.threshold then [.tempThresholdMilliC threshold] else []))) := by
  rw [demoSendTempAlarm, hr]
  simp only [halloc, Bool.not_true, Bool.false_eq_true, if_false]

/-- When it cannot send, it sends nothing. -/
theorem demoSendTempAlarm_of_not_sends {r : TempReads} {alloc : TrapAllocs}
    (h : ¬((∃ p, r.both = .ok p) ∧ alloc.snmpTrapOid = true)) :
    (demoSendTempAlarm r alloc).2 = none := by
  rw [demoSendTempAlarm]
  rcases hr : r.both with code | ⟨cpuTemp, threshold⟩
  · rfl
  · have halloc : alloc.snmpTrapOid = false := by
      rw [← Bool.not_eq_true]
      exact fun hal => h ⟨⟨_, hr⟩, hal⟩
    simp only [halloc, Bool.not_false, if_true]

/-- The readings are there, or the function returns 0 or -1. -/
theorem TempReads.both_cases (r : TempReads) :
    (∃ p, r.both = .ok p) ∨ r.both = .error 0 ∨ r.both = .error (-1) := by
  rcases r with ⟨cpuTemp, threshold⟩
  rcases cpuTemp with rc | cpuTemp
  · cases rc <;> simp [TempReads.both]
  · rcases threshold with rc | threshold
    · cases rc <;> simp [TempReads.both]
    · exact Or.inl ⟨_, rfl⟩

/-- **What a call does.** It finds the alarm clear and the temperature above the threshold:
then it switches the state, and sends the trap and returns 1, or sends nothing. Otherwise it
sends nothing, does not return 1, and leaves a clear alarm clear. -/
theorem CheckCall.check_cases (m : Modes) (c : CheckCall) (state : TempState) :
    (state = .clear ∧ c.Exceeds m ∧ (c.check m state).2.1 = .alarm ∧
        ((c.Sends m ∧ (c.check m state).1 = 1 ∧ (c.check m state).2.2.isSome) ∨
          ¬c.Sends m ∧ (c.check m state).2.2 = none ∧
            ((c.check m state).1 = 1 ∨ (c.check m state).1 = -1))) ∨
      ¬(state = .clear ∧ c.Exceeds m) ∧ (c.check m state).2.2 = none ∧
        (c.check m state).1 ≠ 1 ∧ (state = .clear → (c.check m state).2.1 = .clear) := by
  unfold CheckCall.check demoCheckTempAlarm
  rcases hr : (c.reads m).both with code | ⟨cpuTemp, threshold⟩
  · refine Or.inr ⟨fun ⟨_, _, _, hok, _⟩ => ?_, rfl, ?_, fun h => h⟩
    · rw [hr] at hok
      exact absurd hok (by simp)
    · obtain ⟨_, h⟩ | h | h := (c.reads m).both_cases
      all_goals
        rw [hr] at h
        simp_all
  cases state with
  | alarm =>
    refine Or.inr ⟨fun h => absurd h.1 (by simp), ?_⟩
    simp only
    split_ifs <;> simp
  | clear =>
    by_cases hgt : cpuTemp > threshold
    · refine Or.inl ⟨rfl, ⟨cpuTemp, threshold, hr, hgt⟩, ?_⟩
      simp only [if_pos hgt]
      by_cases hs : c.Sends m
      · obtain ⟨⟨p, hp⟩, halloc⟩ := hs
        rw [demoSendTempAlarm_of_sends hp halloc]
        exact ⟨rfl, Or.inl ⟨⟨⟨p, hp⟩, halloc⟩, rfl, rfl⟩⟩
      · have hnone := demoSendTempAlarm_of_not_sends hs
        split_ifs
        · exact ⟨rfl, Or.inr ⟨hs, hnone, Or.inr rfl⟩⟩
        · exact ⟨rfl, Or.inr ⟨hs, hnone, Or.inl rfl⟩⟩
    · refine Or.inr ⟨fun ⟨_, cpuTemp', threshold', hok, hgt'⟩ => ?_, ?_⟩
      · rw [hr] at hok
        obtain ⟨rfl, rfl⟩ := Prod.mk.inj (Except.ok.inj hok)
        exact hgt hgt'
      · simp only [if_neg hgt]
        exact ⟨trivial, by decide, fun _ => trivial⟩

/-- The call switches the state it finds. -/
def CheckCall.Flips (m : Modes) (c : CheckCall) (state : TempState) : Prop :=
  ∃ cpuTemp threshold, (c.reads m).both = .ok (cpuTemp, threshold) ∧
    match state with
    | .clear => cpuTemp > threshold
    | .alarm => cpuTemp.toInt ≤ threshold.toInt - tempAlarmHysteresisMilliC

/-- The state a switch leads to. -/
def TempState.other : TempState → TempState
  | .clear => .alarm
  | .alarm => .clear

/-- A call that switches the state sends a trap when it raises the alarm and can send. -/
theorem CheckCall.check_of_flips {m : Modes} {c : CheckCall} {state : TempState}
    (h : c.Flips m state) : (c.check m state).2.1 = state.other ∧
      ((c.check m state).2.2.isSome = true ↔ state = .clear ∧ c.Sends m) := by
  obtain ⟨cpuTemp, threshold, hr, hflip⟩ := h
  cases state with
  | clear =>
    obtain ⟨-, -, halarm, ⟨hsends, -, hsome⟩ | ⟨hnot, hnone, -⟩⟩ | ⟨hnot, -⟩ :=
      c.check_cases m .clear
    · exact ⟨halarm, iff_of_true hsome ⟨rfl, hsends⟩⟩
    · refine ⟨halarm, iff_of_false ?_ fun hcon => hnot hcon.2⟩
      simp [hnone]
    · exact absurd ⟨rfl, cpuTemp, threshold, hr, hflip⟩ hnot
  | alarm =>
    have hcheck : c.check m .alarm = (0, .clear, none) := by
      rw [check, demoCheckTempAlarm, hr]
      simp only [if_pos hflip]
    rw [hcheck]
    exact ⟨rfl, by simp⟩

/-- A call that does not switch the state sends nothing. -/
theorem CheckCall.check_of_not_flips {m : Modes} {c : CheckCall} {state : TempState}
    (h : ¬c.Flips m state) : (c.check m state).2 = (state, none) := by
  rw [check, demoCheckTempAlarm]
  rcases hr : (c.reads m).both with code | ⟨cpuTemp, threshold⟩
  · rfl
  cases state with
  | clear =>
    have hle : ¬cpuTemp > threshold := fun hgt => h ⟨cpuTemp, threshold, hr, hgt⟩
    simp only [if_neg hle]
  | alarm =>
    have hgt : ¬cpuTemp.toInt ≤ threshold.toInt - tempAlarmHysteresisMilliC :=
      fun hle => h ⟨cpuTemp, threshold, hr, hle⟩
    simp only [if_neg hgt]

/-! ### What the reads depend on -/

/-- Where the temperature is stored. -/
def cpuTempLoc : Loc := (.cache, ascii "cpuTempMilliC")

/-- A reading is the number in the value a getter returns. -/
theorem map_int32_inj {r r' : Except StorageErr Int32}
    (h : r.map Value.int32 = r'.map Value.int32) : r = r' := by
  rcases r with rc | v <;> rcases r' with rc' | v' <;> simp_all [Except.map]

section Reads

variable {m : Modes} {envs envs' : Envs} {rf : ReadFault}

theorem readCpuTemp_congr (h : ReadsAlike (envs.stored cpuTempLoc) (envs'.stored cpuTempLoc)) :
    readCpuTemp rf envs = readCpuTemp rf envs' :=
  map_int32_inj (Envs.getAs_congr h rf.fault .int32 0)

theorem readTempThreshold_congr (h : ReadsAlike (envs.stored (Scalar.loc m .tempThresholdMilliC))
    (envs'.stored (Scalar.loc m .tempThresholdMilliC))) :
    readTempThreshold m rf envs = readTempThreshold m rf envs' :=
  map_int32_inj (Envs.getAs_congr h rf.fault .int32 0)

/-- **The alarm does not tell apart contents that read alike** at the two keys it reads. -/
theorem CheckCall.check_still_congr
    (hcpu : ReadsAlike (envs.stored cpuTempLoc) (envs'.stored cpuTempLoc))
    (hthreshold : ReadsAlike (envs.stored (Scalar.loc m .tempThresholdMilliC))
      (envs'.stored (Scalar.loc m .tempThresholdMilliC))) (af : AlarmFaults) :
    (CheckCall.still envs af).check m = (CheckCall.still envs' af).check m := by
  funext state
  simp only [CheckCall.check, CheckCall.reads, CheckCall.sendReads, CheckCall.still,
    readCpuTemp_congr hcpu, readTempThreshold_congr hthreshold]

/-- A temperature that is stored is read when nothing fails. -/
theorem readCpuTemp_of_stored {v : Int32}
    (h : envs.stored cpuTempLoc = some (Value.int32 v).encode) :
    readCpuTemp .none envs = .ok v := by
  refine map_int32_inj ?_
  have hget : envs.getAs .none .cache .int32 cpuTempLoc.2 0 = _ :=
    Envs.getAs_none (by decide) .int32 0
  rw [show envs.stored (.cache, cpuTempLoc.2) = _ from h] at hget
  exact hget.trans (congrArg Prod.fst (readAs_encode (.int32 v) 0))

/-- So is a threshold. -/
theorem readTempThreshold_of_stored {v : Int32}
    (h : envs.stored (Scalar.loc m .tempThresholdMilliC) = some (Value.int32 v).encode) :
    readTempThreshold m .none envs = .ok v := by
  refine map_int32_inj ?_
  have hget : envs.getAs .none m.tempThresholdMilliC.env .int32 (Scalar.name .tempThresholdMilliC)
      0 = _ :=
    Envs.getAs_none (Scalar.validKey_name _) .int32 0
  rw [show envs.stored (m.tempThresholdMilliC.env, Scalar.name .tempThresholdMilliC) = _ from h]
    at hget
  exact hget.trans (congrArg Prod.fst (readAs_encode (.int32 v) 0))

end Reads

/-! ### Runs of calls -/

/-- A call in a run: the state it found, what it returned, the state it left and the trap it
sent, if any. -/
structure CheckStep where
  call : CheckCall
  before : TempState
  code : ℤ
  after : TempState
  trap : Option Trap

/-- Calls one after the other. Nothing else writes `temp_alarm_state`. -/
def checkRun (m : Modes) : TempState → List CheckCall → List CheckStep
  | _, [] => []
  | state, c :: cs =>
    let done := c.check m state
    ⟨c, state, done.1, done.2.1, done.2.2⟩ :: checkRun m done.2.1 cs

/-- A transition from CLEAR to ALARM. -/
def CheckStep.raises (k : CheckStep) : Bool :=
  decide (k.before = .clear) && decide (k.after = .alarm)

/-- Every step of a run is a call on the state it found. -/
theorem step_of_mem_checkRun {m : Modes} {state : TempState} {cs : List CheckCall} {k : CheckStep}
    (h : k ∈ checkRun m state cs) : k.code = (k.call.check m k.before).1 ∧
      k.after = (k.call.check m k.before).2.1 ∧ k.trap = (k.call.check m k.before).2.2 := by
  induction cs generalizing state with
  | nil => exact absurd h (by simp [checkRun])
  | cons c cs ih =>
    rw [checkRun] at h
    rcases List.mem_cons.mp h with rfl | h
    · exact ⟨rfl, rfl, rfl⟩
    · exact ih h

/-- **Every episode is trapped**: as many traps as transitions to ALARM, a call returns 1
exactly when it sent a trap, and a call that returns -1 leaves a clear alarm clear. -/
structure EpisodesTrapped (ks : List CheckStep) : Prop where
  traps_eq : ks.countP (fun k => k.trap.isSome) = ks.countP CheckStep.raises
  returns_one : ∀ k ∈ ks, k.code = 1 ↔ k.trap.isSome = true
  retried : ∀ k ∈ ks, k.code = -1 → k.before = .clear → k.after = .clear

/-- **Which runs trap every episode.** In every run of calls, whatever other processes commit
before each of the reads and whatever fails, every episode is trapped if and only if each call
that finds the alarm clear and the temperature above the threshold can read both values again
and gets memory for the first varbind of the trap. -/
theorem episodes_trapped_iff (m : Modes) (state : TempState) (cs : List CheckCall) :
    EpisodesTrapped (checkRun m state cs) ↔
      ∀ k ∈ checkRun m state cs, k.before = .clear → k.call.Exceeds m → k.call.Sends m := by
  constructor
  · intro h k hk hclear hexceeds
    obtain ⟨hcode, hafter, htrap⟩ := step_of_mem_checkRun hk
    have hone := h.returns_one k hk
    have hretried := h.retried k hk
    rw [hcode, htrap] at hone
    rw [hcode, hafter] at hretried
    obtain ⟨-, -, halarm, ⟨hsends, -⟩ | ⟨-, hnone, h1 | h1⟩⟩ | ⟨hnot, -⟩ :=
      k.call.check_cases m k.before
    · exact hsends
    · -- it claims a trap it did not send
      rw [hnone] at hone
      exact absurd (hone.mp h1) (by simp)
    · -- it failed and left the alarm set
      rw [halarm] at hretried
      exact absurd (hretried h1 hclear) (by simp)
    · exact absurd ⟨hclear, hexceeds⟩ hnot
  · intro h
    -- a step sends a trap exactly when it raises the alarm
    have hstep : ∀ k ∈ checkRun m state cs, (k.trap.isSome = true ↔ k.raises = true) ∧
        (k.code = 1 ↔ k.trap.isSome = true) ∧
        (k.code = -1 → k.before = .clear → k.after = .clear) := by
      intro k hk
      obtain ⟨hcode, hafter, htrap⟩ := step_of_mem_checkRun hk
      rw [CheckStep.raises, hcode, hafter, htrap]
      obtain ⟨hclear, hexceeds, halarm, ⟨-, hone, hsome⟩ | ⟨hnot, -⟩⟩ | ⟨-, hnone, hne, hkeep⟩ :=
        k.call.check_cases m k.before
      · rw [hone, halarm, hsome, hclear]
        exact ⟨by decide, by decide, fun hcon => absurd hcon (by decide)⟩
      · exact absurd (h k hk hclear hexceeds) hnot
      · rw [hnone]
        refine ⟨?_, by simpa using hne, fun _ => hkeep⟩
        simp only [Option.isSome_none, Bool.false_eq_true, Bool.and_eq_true, decide_eq_true_eq,
          false_iff, not_and]
        intro hclear
        rw [hkeep hclear]
        simp
    refine ⟨?_, fun k hk => (hstep k hk).2.1, fun k hk => (hstep k hk).2.2⟩
    exact List.countP_congr fun k hk => (hstep k hk).1

/-- `cache.lmdb` with a temperature, if there is one, and a threshold. -/
def alarmEnvs (cpuTemp : Option Int32) (threshold : Int32) : Envs := fun
  | .config => ∅
  | .cache =>
    let db := (∅ : Lmdb).insert (ascii "tempThresholdMilliC") (Value.int32 threshold).encode
    match cpuTemp with
    | none => db
    | some v => db.insert (ascii "cpuTempMilliC") (Value.int32 v).encode

/-- A call that compares 80000 with the threshold 70000; for the trap it finds `cpuTemp`. -/
def hotCall (cpuTemp : Option Int32) : CheckCall where
  cpuTempIn := alarmEnvs (some 80000) 70000
  thresholdIn := alarmEnvs (some 80000) 70000
  sendCpuTempIn := alarmEnvs cpuTemp 70000
  sendThresholdIn := alarmEnvs cpuTemp 70000
  faults := .none

/-- The temperature is deleted before it is read for the trap: no trap is sent, the call returns
1, and the alarm is set. -/
theorem episode_not_trapped :
    (checkRun .shipped .clear [hotCall none]).map (fun k => (k.code, k.after, k.trap)) =
        [(1, .alarm, none)] ∧
      ¬EpisodesTrapped (checkRun .shipped .clear [hotCall none]) := by
  have hcheck : (hotCall none).check .shipped .clear = (1, .alarm, none) := by decide
  refine ⟨by simp [checkRun, hcheck], fun h => ?_⟩
  have hone := h.returns_one _ List.mem_cons_self
  rw [hcheck] at hone
  exact absurd (hone.mp rfl) (by simp)

/-! ### What the trap reports -/

/-- **The alarm reports the readings that raised it**: a trap carries the two values that were
compared, and the temperature was above the threshold. -/
def ReportsCompared (m : Modes) (c : CheckCall) (sent : Option Trap) : Prop :=
  ∀ trap, sent = some trap → ∃ cpuTemp threshold, (c.reads m).both = .ok (cpuTemp, threshold) ∧
    cpuTemp > threshold ∧
    trap = [.snmpTrapOid, .cpuTempMilliC cpuTemp, .tempThresholdMilliC threshold]

/-- The trap that reads `(cpuTemp', threshold')` carries `cpuTemp` and `threshold` exactly when
these are what it reads and both varbinds get memory. -/
theorem trap_eq_iff {alloc : TrapAllocs} {cpuTemp threshold cpuTemp' threshold' : Int32} :
    [TrapVar.snmpTrapOid] ++ (if alloc.cpuTemp then [.cpuTempMilliC cpuTemp'] else []) ++
        (if alloc.threshold then [.tempThresholdMilliC threshold'] else []) =
      [.snmpTrapOid, .cpuTempMilliC cpuTemp, .tempThresholdMilliC threshold] ↔
      (cpuTemp', threshold') = (cpuTemp, threshold) ∧ alloc.cpuTemp = true ∧
        alloc.threshold = true := by
  cases alloc.cpuTemp <;> cases alloc.threshold <;> simp

/-- **Which traps report the readings that raised the alarm.** Whatever other processes commit
before each of the four reads of a call and whatever fails, every trap the call sends carries
the two values that were compared if and only if, when the call finds the alarm clear, the
temperature above the threshold and both values there again, the second pair of reads finds the
values of the first pair and both varbinds get memory. -/
theorem trap_reports_compared_iff (m : Modes) (c : CheckCall) (state : TempState) :
    ReportsCompared m c (c.check m state).2.2 ↔
      (state = .clear → c.Exceeds m → c.Sends m →
        (c.sendReads m).both = (c.reads m).both ∧ c.faults.alloc.cpuTemp = true ∧
          c.faults.alloc.threshold = true) := by
  by_cases hcase : state = .clear ∧ c.Exceeds m ∧ c.Sends m
  · obtain ⟨rfl, ⟨cpuTemp, threshold, hr, hgt⟩, ⟨⟨cpuTemp', threshold'⟩, hp⟩, halloc⟩ := hcase
    have htrap : (c.check m .clear).2.2 =
        some ([.snmpTrapOid] ++
          (if c.faults.alloc.cpuTemp then [.cpuTempMilliC cpuTemp'] else []) ++
          (if c.faults.alloc.threshold then [.tempThresholdMilliC threshold'] else [])) := by
      rw [CheckCall.check, demoCheckTempAlarm, hr]
      simp only [if_pos hgt, demoSendTempAlarm_of_sends hp halloc]
      rfl
    rw [htrap, hp, hr]
    constructor
    · rintro h - - -
      obtain ⟨cpuTemp₁, threshold₁, hr₁, -, heq⟩ := h _ rfl
      obtain ⟨rfl, rfl⟩ := Prod.mk.inj (Except.ok.inj (hr.symm.trans hr₁))
      obtain ⟨hpair, halloc'⟩ := trap_eq_iff.mp heq
      exact ⟨congrArg Except.ok hpair, halloc'⟩
    · intro h trap htrap'
      obtain ⟨hpair, halloc'⟩ := h rfl ⟨_, _, hr, hgt⟩ ⟨⟨_, hp⟩, halloc⟩
      obtain rfl := Option.some.inj htrap'
      exact ⟨cpuTemp, threshold, hr, hgt, trap_eq_iff.mpr ⟨Except.ok.inj hpair, halloc'⟩⟩
  · have hnone : (c.check m state).2.2 = none := by
      obtain ⟨hclear, hexceeds, -, ⟨hsends, -⟩ | ⟨-, hnone, -⟩⟩ | ⟨-, hnone, -⟩ :=
        c.check_cases m state
      · exact absurd ⟨hclear, hexceeds, hsends⟩ hcase
      · exact hnone
      · exact hnone
    rw [hnone]
    refine iff_of_true (fun _ h => absurd h (by simp)) fun h1 h2 h3 => ?_
    exact absurd ⟨h1, h2, h3⟩ hcase

/-- The temperature drops to 30000 before it is read for the trap: the trap reports a temperature
below the threshold. -/
theorem trap_reports_other_reading :
    ((hotCall (some 30000)).check .shipped .clear).2.2 =
        some [.snmpTrapOid, .cpuTempMilliC 30000, .tempThresholdMilliC 70000] ∧
      ¬ReportsCompared .shipped (hotCall (some 30000))
        ((hotCall (some 30000)).check .shipped .clear).2.2 := by
  have htrap : ((hotCall (some 30000)).check .shipped .clear).2.2 =
      some [.snmpTrapOid, .cpuTempMilliC 30000, .tempThresholdMilliC 70000] := by decide
  refine ⟨htrap, fun h => ?_⟩
  obtain ⟨cpuTemp, threshold, -, hgt, heq⟩ := h _ htrap
  obtain ⟨rfl, rfl⟩ : 30000 = cpuTemp ∧ 70000 = threshold := by simpa using heq
  exact absurd hgt (by decide)

end AgentxSubagent
