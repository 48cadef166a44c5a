import AgentxSubagent.Agent.Alarm
import AgentxSubagent.Lib.Latch

/-!
# Hysteresis of the alarm

`temp_alarm_state` is one bit, and the temperature and the threshold may both change between the
polls. A run of `demo_check_temp_alarm` in which nothing fails and the two values stay during each
call is a latch: a temperature above the threshold sets it, and one at least
`TEMP_ALARM_HYSTERESIS_MILLIC` below the threshold resets it
(`AgentxSubagent.isLatch_checkRun`). A trap is sent exactly when the latch rises
(`AgentxSubagent.emits_iff_rises`), so `AgentxSubagent.alarm_hysteresis` reads the history of traps
off the history of readings.
-/

namespace AgentxSubagent

open Latch

/-! ### Polls -/

/-- **A poll that reads `t` and `h`**: it finds them before it compares and again for the trap, and
the trap gets all its memory. -/
structure CheckCall.Polls (m : Modes) (c : CheckCall) (t h : Int32) : Prop where
  reads : c.reads m = ⟨.ok t, .ok h⟩
  sendReads : c.sendReads m = ⟨.ok t, .ok h⟩
  alloc : c.faults.alloc = ⟨true, true, true⟩

/-- The temperature is at least the hysteresis below the threshold. -/
def WellBelow (t h : Int32) : Prop := t.toInt ≤ h.toInt - tempAlarmHysteresisMilliC

section Poll

variable {m : Modes} {c : CheckCall} {t h : Int32}

/-- **What a poll does** in each state. -/
theorem CheckCall.Polls.check_eq (hc : c.Polls m t h) (state : TempState) :
    (state = .clear ∧ t > h ∧ c.check m state =
        (1, .alarm, some [.snmpTrapOid, .cpuTempMilliC t, .tempThresholdMilliC h])) ∨
      (state = .clear ∧ ¬t > h ∧ c.check m state = (0, .clear, none)) ∨
      (state = .alarm ∧ WellBelow t h ∧ c.check m state = (0, .clear, none)) ∨
      (state = .alarm ∧ ¬WellBelow t h ∧ c.check m state = (0, .alarm, none)) := by
  have hboth : (c.reads m).both = .ok (t, h) := by rw [hc.reads]; rfl
  have hsend : (c.sendReads m).both = .ok (t, h) := by rw [hc.sendReads]; rfl
  rw [CheckCall.check, demoCheckTempAlarm, hboth]
  cases state with
  | clear =>
    by_cases hgt : t > h
    · refine Or.inl ⟨rfl, hgt, ?_⟩
      have halloc : c.faults.alloc.snmpTrapOid = true := by rw [hc.alloc]
      simp only [if_pos hgt, demoSendTempAlarm_of_sends hsend halloc]
      rw [hc.alloc]
      rfl
    · refine Or.inr (Or.inl ⟨rfl, hgt, ?_⟩)
      simp only [if_neg hgt]
  | alarm =>
    by_cases hlow : WellBelow t h
    · refine Or.inr (Or.inr (Or.inl ⟨rfl, hlow, ?_⟩))
      simp only [if_pos (show t.toInt ≤ h.toInt - tempAlarmHysteresisMilliC from hlow)]
    · refine Or.inr (Or.inr (Or.inr ⟨rfl, hlow, ?_⟩))
      simp only [if_neg (show ¬t.toInt ≤ h.toInt - tempAlarmHysteresisMilliC from hlow)]

/-- A call that finds the two values stored, in contents that stay, is a poll of them. -/
theorem CheckCall.polls_still {envs : Envs}
    (hcpu : envs.stored cpuTempLoc = some (Value.int32 t).encode)
    (hthreshold : envs.stored (Scalar.loc m .tempThresholdMilliC) =
      some (Value.int32 h).encode) : (CheckCall.still envs .none).Polls m t h := by
  have hreads : (⟨readCpuTemp .none envs, readTempThreshold m .none envs⟩ : TempReads) =
      ⟨.ok t, .ok h⟩ := by
    rw [readCpuTemp_of_stored hcpu, readTempThreshold_of_stored hthreshold]
  exact ⟨hreads, hreads, rfl⟩

end Poll

/-! ### Runs of polls -/

/-- The state before the `i`-th call of a run. -/
def stateBefore (m : Modes) (state : TempState) (cs : List CheckCall) (i : ℕ) : TempState :=
  (cs.take i).foldl (fun state c => (c.check m state).2.1) state

/-- The `i`-th call of a run is made in the state before it. -/
theorem getElem?_checkRun (m : Modes) (cs : List CheckCall) : ∀ (state : TempState) (i : ℕ),
    (checkRun m state cs)[i]? = cs[i]?.map fun c =>
      let done := c.check m (stateBefore m state cs i)
      ⟨c, stateBefore m state cs i, done.1, done.2.1, done.2.2⟩ := by
  induction cs with
  | nil =>
    intro state i
    simp [checkRun]
  | cons c cs ih =>
    rintro state (_ | i)
    · rfl
    · rw [checkRun, List.getElem?_cons_succ, List.getElem?_cons_succ, ih]
      rfl

/-- Each call leads to the state before the next. -/
theorem stateBefore_succ {m : Modes} {state : TempState} {cs : List CheckCall} {i : ℕ}
    {c : CheckCall} (hc : cs[i]? = some c) :
    stateBefore m state cs (i + 1) = (c.check m (stateBefore m state cs i)).2.1 := by
  rw [stateBefore, List.take_add_one, hc, List.foldl_append]
  rfl

/-- **The `i`-th call of a run sends a trap.** -/
def Emits (ks : List CheckStep) (i : ℕ) : Prop := ∃ k, ks[i]? = some k ∧ k.trap.isSome = true

section Run

variable {m : Modes} {cs : List CheckCall} {t h : ℕ → Int32}
  (hpolls : ∀ i (c : CheckCall), cs[i]? = some c → c.Polls m (t i) (h i))

include hpolls

/-- **The state is a latch**, set above the threshold and reset well below it. -/
theorem isLatch_checkRun :
    IsLatch (fun i => t i > h i) (fun i => WellBelow (t i) (h i))
      (fun i => stateBefore m .clear cs i = .alarm) cs.length where
  off_zero := by simp [stateBefore]
  step := by
    intro i hi
    have hc : cs[i]? = some cs[i] := List.getElem?_eq_getElem hi
    rw [stateBefore_succ hc]
    obtain ⟨hs, hgt, heq⟩ | ⟨hs, hgt, heq⟩ | ⟨hs, hlow, heq⟩ | ⟨hs, hlow, heq⟩ :=
      (hpolls i _ hc).check_eq (stateBefore m .clear cs i)
    · rw [heq, hs]
      simp [hgt]
    · rw [heq, hs]
      simp [hgt]
    · rw [heq, hs]
      simp [hlow]
    · rw [heq, hs]
      simp [hlow]

/-- **A trap is sent exactly when the latch rises**, and then it is the one trap of the call, it
carries the values that were read, and the call returns 1; otherwise the call returns 0. -/
theorem emits_iff_rises {i : ℕ} {k : CheckStep} (hk : (checkRun m .clear cs)[i]? = some k) :
    (Emits (checkRun m .clear cs) i ↔
        Rises (fun i => t i > h i) (fun i => stateBefore m .clear cs i = .alarm) i) ∧
      (Emits (checkRun m .clear cs) i → k.code = 1 ∧
        k.trap = some [.snmpTrapOid, .cpuTempMilliC (t i), .tempThresholdMilliC (h i)]) ∧
      (¬Emits (checkRun m .clear cs) i → k.code = 0 ∧ k.trap = none) := by
  have hemits : Emits (checkRun m .clear cs) i ↔ k.trap.isSome = true := by
    constructor
    · rintro ⟨k', hk', hsome⟩
      rwa [Option.some.inj (hk.symm.trans hk')]
    · exact fun hsome => ⟨k, hk, hsome⟩
  rw [hemits]
  rw [getElem?_checkRun] at hk
  obtain ⟨c, hc, rfl⟩ := Option.map_eq_some_iff.mp hk
  obtain ⟨hs, hgt, heq⟩ | ⟨hs, hgt, heq⟩ | ⟨hs, -, heq⟩ | ⟨hs, -, heq⟩ :=
    (hpolls i c hc).check_eq (stateBefore m .clear cs i)
  · simp only [heq]
    simp [hs, Rises, hgt]
  · simp only [heq]
    simp [hs, Rises, hgt]
  · simp only [heq]
    simp [hs, Rises]
  · simp only [heq]
    simp [hs, Rises]

/-- So at every call of the run a trap is sent exactly when the latch rises. -/
theorem emits_iff {i : ℕ} (hi : i < cs.length) :
    Emits (checkRun m .clear cs) i ↔
      Rises (fun i => t i > h i) (fun i => stateBefore m .clear cs i = .alarm) i := by
  have hk := getElem?_checkRun m cs .clear i
  rw [List.getElem?_eq_getElem hi, Option.map_some] at hk
  exact (emits_iff_rises hpolls hk).1

end Run

/-- **The alarm hysteresis over whole runs.** Let poll `i` of a run that starts in CLEAR read the
temperature `t i` and the threshold `h i`, with the threshold in its range. Then poll `i` sends a
trap, one and with these values, and returns 1, if and only if `t i` is above `h i` and no trap was
sent before, or some poll between the last one that sent and `i` read a temperature at least 500
below its threshold; any other poll sends nothing and returns 0. The subtraction stays within 32
bits. So two traps have such a poll between them, and whenever the temperature is above the
threshold, a trap was sent with no such poll since. -/
theorem alarm_hysteresis (m : Modes) (cs : List CheckCall) (t h : ℕ → Int32)
    (hpolls : ∀ i (c : CheckCall), cs[i]? = some c → c.Polls m (t i) (h i))
    (hrange : ∀ i < cs.length, -40000 ≤ (h i).toInt ∧ (h i).toInt ≤ 125000) :
    ∀ i k, (checkRun m .clear cs)[i]? = some k →
      (Emits (checkRun m .clear cs) i ↔ t i > h i ∧
        ((∀ j < i, ¬Emits (checkRun m .clear cs) j) ∨
          ∃ j, IsLastBefore (Emits (checkRun m .clear cs)) i j ∧
            ∃ l, j < l ∧ l < i ∧ (t l).toInt ≤ (h l).toInt - 500)) ∧
      (Emits (checkRun m .clear cs) i → k.code = 1 ∧
        k.trap = some [.snmpTrapOid, .cpuTempMilliC (t i), .tempThresholdMilliC (h i)]) ∧
      (¬Emits (checkRun m .clear cs) i → k.code = 0 ∧ k.trap = none) ∧
      (h i - 500).toInt = (h i).toInt - 500 ∧
      (∀ j < i, Emits (checkRun m .clear cs) j → Emits (checkRun m .clear cs) i →
        ∃ l, j < l ∧ l < i ∧ (t l).toInt ≤ (h l).toInt - 500) ∧
      (t i > h i → ∃ j ≤ i, Emits (checkRun m .clear cs) j ∧
        ∀ l, j < l → l ≤ i → ¬(t l).toInt ≤ (h l).toInt - 500) := by
  intro i k hk
  have hi : i < cs.length := by
    rw [getElem?_checkRun] at hk
    obtain ⟨c, hc, -⟩ := Option.map_eq_some_iff.mp hk
    exact (List.getElem?_eq_some_iff.mp hc).1
  obtain ⟨-, hsends, hsilent⟩ := emits_iff_rises hpolls hk
  have hlatch := isLatch_checkRun hpolls
  have hrise : ∀ j ≤ i, (Emits (checkRun m .clear cs) j ↔
      Rises (fun i => t i > h i) (fun i => stateBefore m .clear cs i = .alarm) j) :=
    fun j hj => emits_iff hpolls (by omega)
  have hlast := isLastBefore_congr fun j hj => hrise j (Nat.le_of_lt hj)
  refine ⟨?_, hsends, hsilent, ?_, ?_, ?_⟩
  -- when a trap is sent is when the latch rises
  · rw [hrise i le_rfl, hlatch.rises_iff (by omega)]
    refine and_congr_right fun _ => or_congr ?_ (exists_congr fun j => ?_)
    · exact forall_congr' fun j => imp_congr_right fun hj => not_congr (hrise j (by omega)).symm
    · rw [hlast]
      rfl
  -- within the range of the object the subtraction does not wrap
  · obtain ⟨hlo, hhi⟩ := hrange i hi
    rw [Int32.toInt_sub]
    exact Int.bmod_eq_of_le (by change -2147483648 ≤ (h i).toInt - 500; omega)
      (by change (h i).toInt - 500 < 2147483648; omega)
  · intro j hj hej hei
    exact hlatch.exists_reset (by omega) hj ((hrise j (by omega)).mp hej)
      ((hrise i le_rfl).mp hei)
  · intro hgt
    have hexcl : ∀ j, t j > h j → ¬WellBelow (t j) (h j) := by
      intro j hgt hlow
      rw [WellBelow, tempAlarmHysteresisMilliC] at hlow
      have := Int32.lt_iff_toInt_lt.mp hgt
      omega
    obtain ⟨j, hj, hr, hquiet⟩ := hlatch.exists_rise hexcl (by omega : i ≤ cs.length) hgt
    exact ⟨j, hj, (hrise j hj).mpr hr, hquiet⟩

/-- A poll of an environment that holds a temperature and a threshold. -/
def stillCall (cpuTemp threshold : Int32) : CheckCall :=
  .still (alarmEnvs (some cpuTemp) threshold) .none

theorem stillCall_polls (cpuTemp threshold : Int32) :
    (stillCall cpuTemp threshold).Polls .shipped cpuTemp threshold := by
  refine CheckCall.polls_still ?_ ?_
  · simp [alarmEnvs, Envs.stored, cpuTempLoc]
  · have hne : ascii "cpuTempMilliC" ≠ ascii "tempThresholdMilliC" := by decide
    change (((∅ : Lmdb).insert (ascii "tempThresholdMilliC") (Value.int32 threshold).encode).insert
      (ascii "cpuTempMilliC") (Value.int32 cpuTemp).encode)[ascii "tempThresholdMilliC"]? = _
    rw [Std.ExtTreeMap.getElem?_insert]
    simp [hne]

/-- The temperature crosses the threshold, drops by the hysteresis, and crosses again. -/
def dipRun : List CheckCall := [stillCall 80000 70000, stillCall 69500 70000, stillCall 70001 70000]

/-- The second crossing is trapped, too. -/
theorem alarm_hysteresis_dip : Emits (checkRun .shipped .clear dipRun) 2 := by
  have hpolls : ∀ i (c : CheckCall), dipRun[i]? = some c →
      c.Polls .shipped (([80000, 69500, 70001] : List Int32).getD i 0) 70000 := by
    rintro (_ | _ | _ | i) c hc
    · obtain rfl : _ = c := Option.some.inj hc
      exact stillCall_polls 80000 70000
    · obtain rfl : _ = c := Option.some.inj hc
      exact stillCall_polls 69500 70000
    · obtain rfl : _ = c := Option.some.inj hc
      exact stillCall_polls 70001 70000
    · exact absurd hc (by simp [dipRun])
  have hrun := alarm_hysteresis .shipped dipRun _ (fun _ => 70000) hpolls fun _ _ => by decide
  have hfirst : Emits (checkRun .shipped .clear dipRun) 0 :=
    (hrun 0 _ rfl).1.mpr ⟨by decide, Or.inl fun j hj => absurd hj (Nat.not_lt_zero j)⟩
  have hsecond : ¬Emits (checkRun .shipped .clear dipRun) 1 :=
    fun he => absurd ((hrun 1 _ rfl).1.mp he).1 (by decide)
  refine (hrun 2 _ rfl).1.mpr ⟨by decide, Or.inr ⟨0, ⟨by decide, hfirst, ?_⟩, 1, by decide⟩⟩
  rintro k hk hk2
  obtain rfl : k = 1 := by omega
  exact hsecond

end AgentxSubagent
