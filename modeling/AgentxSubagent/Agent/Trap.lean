import AgentxSubagent.Agent.Mib

/-!
# The temperature alarm

`src/demo_trap.c`: the notification `demoTempAlarm` and the edge detection in front of it.
Each storage read is a transaction of its own, so the two functions are embedded over what
their reads answer; `AgentxSubagent.Agent.demoCheckTempAlarm` runs them on the subagent.

The storage is only read: `AgentxSubagent.Agent.envs_demoCheckTempAlarm`.
-/

namespace AgentxSubagent

/-! ### The two functions -/

/-- `temp_state_t`. -/
inductive TempState
  | clear
  | alarm
  deriving DecidableEq

/-- A varbind of `demoTempAlarm`, by the OID it carries. -/
inductive TrapVar
  | snmpTrapOid
  | cpuTempMilliC (v : Int32)
  | tempThresholdMilliC (v : Int32)
  deriving DecidableEq

/-- The varbinds handed to `send_v2trap`. -/
abbrev Trap := List TrapVar

/-- What `read_cpu_temp` and `read_temp_threshold` answer. -/
structure TempReads where
  cpuTemp : Except StorageErr Int32
  threshold : Except StorageErr Int32

/-- Which calls of `snmp_varlist_add_variable` get their memory. -/
structure TrapAllocs where
  snmpTrapOid : Bool
  cpuTemp : Bool
  threshold : Bool

/-- `TEMP_ALARM_HYSTERESIS_MILLIC`. -/
def tempAlarmHysteresisMilliC : ℤ := 500

/-- Both readings, or the code the function returns without them: 0 for a key that is not
there, -1 for an error. -/
def TempReads.both (r : TempReads) : Except ℤ (Int32 × Int32) :=
  match r.cpuTemp with
  | .error .notFound => .error 0
  | .error _ => .error (-1)
  | .ok cpuTemp =>
    match r.threshold with
    | .error .notFound => .error 0
    | .error _ => .error (-1)
    | .ok threshold => .ok (cpuTemp, threshold)

/-- `demo_send_temp_alarm`: its return code and the trap it sends, if any. Only the first
varbind is checked for; a later one that gets no memory is left out. -/
def demoSendTempAlarm (r : TempReads) (alloc : TrapAllocs) : ℤ × Option Trap :=
  match r.both with
  | .error code => (code, none)
  | .ok (cpuTemp, threshold) =>
    if !alloc.snmpTrapOid then (-1, none)
    else
      (0, some ([.snmpTrapOid] ++ (if alloc.cpuTemp then [.cpuTempMilliC cpuTemp] else []) ++
        (if alloc.threshold then [.tempThresholdMilliC threshold] else [])))

/-- `demo_check_temp_alarm`: its return code, the new state and the trap sent, if any. The
readings of the trap are read again, by `demo_send_temp_alarm`. -/
def demoCheckTempAlarm (state : TempState) (r rsend : TempReads) (alloc : TrapAllocs) :
    ℤ × TempState × Option Trap :=
  match r.both with
  | .error code => (code, state, none)
  | .ok (cpuTemp, threshold) =>
    match state with
    | .clear =>
      if cpuTemp > threshold then
        let sent := demoSendTempAlarm rsend alloc
        if sent.1 ≠ 0 then (-1, .alarm, sent.2) else (1, .alarm, sent.2)
      else (0, .clear, none)
    | .alarm =>
      if cpuTemp.toInt ≤ threshold.toInt - tempAlarmHysteresisMilliC then (0, .clear, none)
      else (0, .alarm, none)

/-! ### On the subagent -/

/-- What the SNMP side of the subagent keeps: the contents of the environments, the state of
the alarm, and the traps sent so far, the last one first. -/
structure Agent where
  envs : Envs
  tempAlarmState : TempState
  traps : List Trap

/-- What fails in one call of `demo_check_temp_alarm` or `demo_send_temp_alarm`. -/
structure AlarmFaults where
  cpuTemp : ReadFault
  threshold : ReadFault
  sendCpuTemp : ReadFault
  sendThreshold : ReadFault
  alloc : TrapAllocs

/-- Nothing fails. -/
def AlarmFaults.none : AlarmFaults := ⟨.none, .none, .none, .none, ⟨true, true, true⟩⟩

/-- `read_cpu_temp`: always in `cache.lmdb`. -/
def readCpuTemp (rf : ReadFault) (envs : Envs) : Except StorageErr Int32 :=
  (storageGetInt rf.fault (ascii "cpuTempMilliC") (.idle (envs .cache))).1

/-- `read_temp_threshold`. -/
def readTempThreshold (m : Modes) (rf : ReadFault) (envs : Envs) : Except StorageErr Int32 :=
  (storageGetInt rf.fault (ascii "tempThresholdMilliC")
    (.idle (envs m.tempThresholdMilliC.env))).1

namespace Agent

/-- `demo_send_temp_alarm` on the subagent. -/
def demoSendTempAlarm (m : Modes) (af : AlarmFaults) (a : Agent) : ℤ × Agent :=
  let sent := AgentxSubagent.demoSendTempAlarm
    ⟨readCpuTemp af.sendCpuTemp a.envs, readTempThreshold m af.sendThreshold a.envs⟩ af.alloc
  (sent.1, { a with traps := sent.2.toList ++ a.traps })

/-- `demo_check_temp_alarm` on the subagent. -/
def demoCheckTempAlarm (m : Modes) (af : AlarmFaults) (a : Agent) : ℤ × Agent :=
  let checked := AgentxSubagent.demoCheckTempAlarm a.tempAlarmState
    ⟨readCpuTemp af.cpuTemp a.envs, readTempThreshold m af.threshold a.envs⟩
    ⟨readCpuTemp af.sendCpuTemp a.envs, readTempThreshold m af.sendThreshold a.envs⟩ af.alloc
  (checked.1, ⟨a.envs, checked.2.1, checked.2.2.toList ++ a.traps⟩)

/-- Sending a trap reads the storage only. -/
@[simp] theorem envs_demoSendTempAlarm (m : Modes) (af : AlarmFaults) (a : Agent) :
    (a.demoSendTempAlarm m af).2.envs = a.envs := rfl

/-- Checking the temperature reads the storage only. -/
@[simp] theorem envs_demoCheckTempAlarm (m : Modes) (af : AlarmFaults) (a : Agent) :
    (a.demoCheckTempAlarm m af).2.envs = a.envs := rfl

end Agent

end AgentxSubagent
