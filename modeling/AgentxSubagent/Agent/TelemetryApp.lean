import AgentxSubagent.Agent.Telemetry
import AgentxSubagent.Lib.Runs

/-!
# The telemetry app, one transaction at a time

`main` of `rust-app/src/bin/telemetry.rs` takes a sample, writes it with `run_once`, sleeps, and
starts again. A sample is seven transactions, four calls of `put` and three of `put_row`, and
whoever reads the cache may do so between any two of them. `AgentxSubagent.Telemetry.step` is one
transaction at a time; the app ends at the first error, and may be killed and started again
anywhere. `AgentxSubagent.run_sample` says that a sample nobody interrupts is `run_once`.

* `AgentxSubagent.Telemetry.step_writes`: the app writes values of a sample under its thirteen
  keys, and removes cells of its three rows.
* `AgentxSubagent.Telemetry.step_inv`: what it has written of a sample is there, and all of the
  sample is there while it sleeps (`AgentxSubagent.Telemetry.Inv`).
-/

namespace AgentxSubagent

open Assign Runs

/-! ### The app -/

/-- `SENSOR_COLUMNS`. -/
def sensorColumns : List Bytes :=
  [ascii "sensorName", ascii "sensorTempMilliC", ascii "sensorSampleCount"]

/-- What a sample is made of. -/
structure Sample where
  temp : Int32
  now : UInt64
  count : UInt64

/-- The scalars of a sample. -/
def Sample.scalars (s : Sample) : List (Bytes × Value) := scalarPuts s.temp s.now s.count

/-- The cells of a sample for the rows of some sensors, the first of them at index `idx`. -/
def Sample.cells (s : Sample) (idx : ℕ) (names : List Bytes) : List (Bytes × Value) :=
  sensorEntries s.temp s.count idx names

/-- All of a sample. -/
def Sample.entries (s : Sample) : List (Bytes × Value) := telemetryEntries s.temp s.now s.count

/-- **Where the app is**: it does not run, or is about to take a sample after `last`, or has to put
the scalars or the rows that are left of a sample, or to clear the rows from an index on. -/
inductive Telemetry
  | stopped
  | asleep (last : Option Sample)
  | putting (s : Sample) (puts : List (Bytes × Value))
  | rows (s : Sample) (idx : ℕ) (names : List Bytes)
  | clearing (idx : ℕ)

/-- What happens to it: it is started, with or without `--clear-sensor-rows`; it draws a
temperature and a time, `none` being a clock before the epoch; its next transaction fails or not;
it ends. -/
inductive TelemetryInput
  | start (clearSensorRows : Bool)
  | sample (temp : Int32) (now : Option UInt64)
  | transaction (fails : Bool)
  | exit

namespace Telemetry

/-- Behind a `put`. -/
def afterPut (s : Sample) : List (Bytes × Value) → Telemetry
  | [] => .rows s 0 sensors
  | p :: puts => .putting s (p :: puts)

/-- Behind a `put_row`. -/
def afterRow (s : Sample) (idx : ℕ) : List Bytes → Telemetry
  | [] => .asleep (some s)
  | name :: names => .rows s idx (name :: names)

/-- The next transaction, if there is one; `checks` is whether the build checks for overflows. -/
def transact (checks fails : Bool) (db : Lmdb) : Telemetry → Option (Telemetry × Lmdb)
  | .putting s ((key, v) :: puts) =>
    match cachePut fails key v db with
    | (.error _, db') => some (.stopped, db')
    | (.ok _, db') => some (afterPut s puts, db')
  | .rows s idx (name :: names) =>
    if checks ∧ (sensorTemp s.temp idx).toInt ≠ s.temp.toInt + idx * 1500 then some (.stopped, db)
    else
      let row := sensorRow [.ofNat (idx + 1)] name (sensorTemp s.temp idx) s.count.toUInt32
      match putRow fails row.inst row.cells db with
      | (.error _, db') => some (.stopped, db')
      | (.ok _, db') => some (afterRow s (idx + 1) names, db')
  | .clearing idx =>
    match deleteRow fails [.ofNat (idx + 1)] sensorColumns db with
    | (.error _, db') => some (.stopped, db')
    | (.ok _, db') =>
      some (if idx + 1 < sensors.length then .clearing (idx + 1) else .stopped, db')
  | _ => none

/-- One step of the app on the cache. -/
def step (checks : Bool) (p : Telemetry × Lmdb) : TelemetryInput → Option (Unit × Telemetry × Lmdb)
  | .start clearSensorRows =>
    match p.1 with
    | .stopped => some ((), if clearSensorRows then .clearing 0 else .asleep none, p.2)
    | _ => none
  | .sample temp now =>
    match p.1 with
    | .asleep last =>
      let count := last.elim 0 Sample.count + 1
      some ((), now.elim .stopped fun now => afterPut ⟨temp, now, count⟩ (scalarPuts temp now count),
        p.2)
    | _ => none
  | .transaction fails => (p.1.transact checks fails p.2).map fun r => ((), r)
  | .exit =>
    match p.1 with
    | .stopped => none
    | _ => some ((), .stopped, p.2)

end Telemetry

/-! ### A sample that nobody interrupts -/

section Uninterrupted

variable {checks : Bool} {s : Sample}

/-- How the app ends up after a sample: asleep if `run_once` has completed, and else it has ended. -/
def Sample.EndsIn (s : Sample) (t : Telemetry) (o : RunOutcome) : Prop :=
  (o = .completed → t = .asleep (some s)) ∧ (o ≠ .completed → t = .stopped)

/-- A transaction in front of a run. -/
theorem run_transaction_cons {fails : Bool} {t t' : Telemetry} {db db' : Lmdb}
    {is : List TelemetryInput} {os : List Unit} {p : Telemetry × Lmdb}
    (h : t.transact checks fails db = some (t', db'))
    (hrun : run (fun p i => Telemetry.step checks p i) (t', db') is = some (os, p)) :
    run (fun p i => Telemetry.step checks p i) (t, db) (.transaction fails :: is) =
      some (() :: os, p) := by
  refine run_cons_eq_some.mpr ⟨(), os, (t', db'), ?_, hrun, rfl⟩
  rw [Telemetry.step, h]
  rfl

/-- The transactions of the rows are the loop over `SENSORS`. -/
theorem run_rows (fails : ℕ → Bool) : ∀ (names : List Bytes) (idx : ℕ) (db : Lmdb), ∃ is os t,
    (∀ i ∈ is, ∃ b, i = TelemetryInput.transaction b) ∧
      run (fun p i => Telemetry.step checks p i) (Telemetry.afterRow s idx names, db) is =
        some (os, (t, (putSensorRows checks fails s.temp s.count idx names db).2)) ∧
      s.EndsIn t (putSensorRows checks fails s.temp s.count idx names db).1 := by
  intro names
  induction names with
  | nil =>
    intro idx db
    exact ⟨[], [], _, by simp, rfl, fun _ => rfl, fun h => absurd rfl h⟩
  | cons name names ih =>
    intro idx db
    rw [Telemetry.afterRow, putSensorRows]
    by_cases hover : checks ∧ (sensorTemp s.temp idx).toInt ≠ s.temp.toInt + idx * 1500
    · rw [if_pos hover]
      refine ⟨[.transaction (fails idx)], [()], .stopped, by simp, ?_, by simp, fun _ => rfl⟩
      exact run_transaction_cons (if_pos hover) rfl
    · rw [if_neg hover]
      have hstep : (Telemetry.rows s idx (name :: names)).transact checks (fails idx) db = _ :=
        if_neg hover
      simp only at hstep ⊢
      rcases hrow : putRow (fails idx) (sensorRow [.ofNat (idx + 1)] name (sensorTemp s.temp idx)
        s.count.toUInt32).inst (sensorRow [.ofNat (idx + 1)] name (sensorTemp s.temp idx)
        s.count.toUInt32).cells db with ⟨err | _, db₁⟩
      all_goals
        simp only [hrow] at hstep ⊢
      · exact ⟨[.transaction (fails idx)], [()], .stopped, by simp,
          run_transaction_cons hstep rfl, by simp, fun _ => rfl⟩
      · obtain ⟨is, os, t, his, hrun, ht⟩ := ih (idx + 1) db₁
        exact ⟨.transaction (fails idx) :: is, () :: os, t,
          List.forall_mem_cons.mpr ⟨⟨_, rfl⟩, his⟩, run_transaction_cons hstep hrun, ht⟩

/-- The transactions of the scalars are the calls of `put`, and those of the rows follow. -/
theorem run_puts (f : RunFaults) : ∀ (puts : List (Bytes × Value)) (i : ℕ) (db : Lmdb), ∃ is os t,
    (∀ i ∈ is, ∃ b, i = TelemetryInput.transaction b) ∧
      run (fun p i => Telemetry.step checks p i) (Telemetry.afterPut s puts, db) is =
        some (os, (t, (match putScalars f.put i puts db with
          | (.error _, db') => (RunOutcome.failed, db')
          | (.ok _, db') => putSensorRows checks f.row s.temp s.count 0 sensors db').2)) ∧
      s.EndsIn t (match putScalars f.put i puts db with
          | (.error _, db') => (RunOutcome.failed, db')
          | (.ok _, db') => putSensorRows checks f.row s.temp s.count 0 sensors db').1 := by
  intro puts
  induction puts with
  | nil =>
    intro i db
    exact run_rows f.row sensors 0 db
  | cons p puts ih =>
    obtain ⟨key, v⟩ := p
    intro i db
    rw [Telemetry.afterPut, putScalars]
    have hstep : (Telemetry.putting s ((key, v) :: puts)).transact checks (f.put i) db =
      match cachePut (f.put i) key v db with
      | (.error _, db') => some (.stopped, db')
      | (.ok _, db') => some (Telemetry.afterPut s puts, db') := rfl
    rcases hput : cachePut (f.put i) key v db with ⟨err | _, db₁⟩
    all_goals
      simp only [hput] at hstep ⊢
    · exact ⟨[.transaction (f.put i)], [()], .stopped, by simp, run_transaction_cons hstep rfl,
        by simp, fun _ => rfl⟩
    · obtain ⟨is, os, t, his, hrun, ht⟩ := ih (i + 1) db₁
      exact ⟨.transaction (f.put i) :: is, () :: os, t,
        List.forall_mem_cons.mpr ⟨⟨_, rfl⟩, his⟩, run_transaction_cons hstep hrun, ht⟩

/-- **A sample that nobody interrupts is `run_once`**: the app draws it, its transactions leave the
cache as `run_once` does, and it sleeps afterwards, or has ended where that has not completed. -/
theorem run_sample (f : RunFaults) (last : Option Sample) (temp : Int32) (now : UInt64)
    (db : Lmdb) : ∃ is os t, (∀ i ∈ is, ∃ b, i = TelemetryInput.transaction b) ∧
      run (fun p i => Telemetry.step checks p i) (.asleep last, db)
          (.sample temp (some now) :: is) =
        some (os, (t, (runOnce checks f temp (some now) (last.elim 0 Sample.count + 1) db).2)) ∧
      Sample.EndsIn ⟨temp, now, last.elim 0 Sample.count + 1⟩ t
        (runOnce checks f temp (some now) (last.elim 0 Sample.count + 1) db).1 := by
  obtain ⟨is, os, t, his, hrun, ht⟩ := @run_puts checks
    ⟨temp, now, last.elim 0 Sample.count + 1⟩ f
    (scalarPuts temp now (last.elim 0 Sample.count + 1)) 0 db
  exact ⟨is, () :: os, t, his, run_cons_eq_some.mpr ⟨(), os, _, rfl, hrun, rfl⟩, ht⟩

end Uninterrupted

/-! ### What the app writes -/

/-- The keys of the app: four scalars, and three cells of three rows. -/
def telemetryKeys : List Bytes := (telemetryEntries 0 0 0).map Prod.fst

/-- **What the app assigns in the cache**: to a key of a sample its value, and to a cell of one of
its rows nothing. -/
def TelemetryWrite (key : Bytes) (content : Option Bytes) : Prop :=
  (∃ (s : Sample) (v : Value), (key, v) ∈ s.entries ∧ content = some v.encode) ∨
    content = none ∧ ∃ idx < sensors.length, ∃ c ∈ sensorColumns,
      key = cellKey c [.ofNat (idx + 1)]

/-- The keys of a sample are the same for every sample. -/
theorem Sample.map_fst_entries (s : Sample) : s.entries.map Prod.fst = telemetryKeys := by
  simp only [Sample.entries, telemetryKeys, telemetryEntries, scalarPuts, sensors, sensorEntries,
    sensorRow, List.map_append, List.map_cons, List.map_nil]

/-- The rows of more sensors. -/
theorem sensorEntries_append (temp : Int32) (count : UInt64) (names names' : List Bytes) :
    ∀ idx, sensorEntries temp count idx (names ++ names') =
      sensorEntries temp count idx names ++ sensorEntries temp count (idx + names.length) names' := by
  induction names with
  | nil =>
    intro idx
    rfl
  | cons name names ih =>
    intro idx
    rw [List.cons_append, sensorEntries, sensorEntries, ih, List.append_assoc, List.length_cons,
      Nat.add_right_comm, Nat.add_assoc]

/-- The app writes under its own keys. -/
theorem TelemetryWrite.mem_telemetryKeys {key : Bytes} {content : Option Bytes}
    (h : TelemetryWrite key content) : key ∈ telemetryKeys := by
  obtain ⟨s, v, hmem, -⟩ | ⟨-, idx, hidx, c, hc, rfl⟩ := h
  · rw [← s.map_fst_entries]
    exact List.mem_map.mpr ⟨_, hmem, rfl⟩
  · have hall : ∀ idx < sensors.length, ∀ c ∈ sensorColumns,
        cellKey c [.ofNat (idx + 1)] ∈ telemetryKeys := by
      decide +kernel
    exact hall idx hidx c hc

namespace Telemetry

/-- The entries are in the cache. -/
def Shown (db : Lmdb) (es : List (Bytes × Value)) : Prop := ∀ e ∈ es, db[e.1]? = some e.2.encode

/-- **What there is of a sample**: what has been written of it, and all of it while the app sleeps
after it. -/
def Inv : Telemetry × Lmdb → Prop
  | (.asleep (some s), db) => Shown db s.entries
  | (.putting s puts, db) => ∃ done, s.scalars = done ++ puts ∧ Shown db done
  | (.rows s idx names, db) => ∃ done, sensors = done ++ names ∧ idx = done.length ∧
      Shown db (s.scalars ++ s.cells 0 done)
  | (.clearing idx, _) => idx < sensors.length
  | _ => True

section Steps

variable {checks fails : Bool} {s : Sample} {t : Telemetry} {db db' : Lmdb} {p p' : Telemetry × Lmdb}

/-- **More of a sample is put.** Its keys are different, so what has been put stays. -/
theorem Shown.more {es es' rest : List (Bytes × Value)} (h : Shown db es)
    (hs : s.entries = es ++ es' ++ rest)
    (hdb : (fun k : Bytes => db'[k]?) =
      assign (fun k => db[k]?) (es'.map fun e => (e.1, some e.2.encode))) :
    Shown db' (es ++ es') := by
  have hnodup : ((es ++ es').map Prod.fst).Nodup := by
    have hall := nodup_telemetryEntries s.temp s.now s.count
    rw [show telemetryEntries s.temp s.now s.count = es ++ es' ++ rest from hs,
      List.map_append] at hall
    exact hall.of_append_left
  rw [List.map_append, List.nodup_append] at hnodup
  obtain ⟨-, hnew, hdisjoint⟩ := hnodup
  rintro e he
  refine (congrFun hdb e.1).trans ?_
  rcases List.mem_append.mp he with he | he
  · refine (assign_of_not_mem ?_).trans (h e he)
    rintro hmem
    obtain ⟨q, hq, heq⟩ := List.mem_map.mp hmem
    obtain ⟨e', he', rfl⟩ := List.mem_map.mp hq
    exact hdisjoint e.1 (List.mem_map_of_mem he) e'.1 (List.mem_map_of_mem he') heq.symm
  · refine assign_of_nodup (l := es'.map fun e => (e.1, some e.2.encode)) ?_
      (List.mem_map.mpr ⟨e, he, rfl⟩) _
    rwa [List.map_map]

/-- The scalars of a sample and the rows after them are the sample. -/
theorem entries_eq (s : Sample) : s.entries = s.scalars ++ s.cells 0 sensors := rfl

/-- **A transaction**: it assigns what it has to of a sample, or clears a row, or leaves the cache
as it was and the app has ended. -/
theorem transact_cases (hinv : Inv (t, db)) {t' : Telemetry}
    (h : t.transact checks fails db = some (t', db')) :
    (t' = .stopped ∧ db' = db) ∨
    (∃ (s : Sample) (es es' rest : List (Bytes × Value)), s.entries = es ++ es' ++ rest ∧
      Shown db es ∧ (Shown db' (es ++ es') → Inv (t', db')) ∧
      (fun k : Bytes => db'[k]?) =
        assign (fun k => db[k]?) (es'.map fun e => (e.1, some e.2.encode))) ∨
    ∃ idx < sensors.length, Inv (t', db') ∧ (fun k : Bytes => db'[k]?) =
      assign (fun k => db[k]?) (sensorColumns.map fun c => (cellKey c [.ofNat (idx + 1)], none)) := by
  cases t with
  | stopped => exact absurd h (by simp [transact])
  | asleep last => exact absurd h (by simp [transact])
  | putting s puts =>
    rcases puts with _ | ⟨⟨key, v⟩, puts⟩
    · exact absurd h (by simp [transact])
    obtain ⟨done, hdone, hshown⟩ := hinv
    rw [transact, cachePut] at h
    split_ifs at h with hbad
    all_goals obtain ⟨rfl, rfl⟩ := Prod.mk.inj (Option.some.inj h)
    · exact Or.inl ⟨rfl, rfl⟩
    · refine Or.inr (Or.inl ⟨s, done, [(key, v)], puts ++ s.cells 0 sensors, ?_, hshown, ?_, ?_⟩)
      · rw [entries_eq, hdone]
        simp
      · intro hnow
        rcases puts with _ | ⟨q, puts⟩
        · refine ⟨[], rfl, rfl, ?_⟩
          rw [hdone]
          exact (List.append_nil (done ++ [(key, v)])).symm ▸ hnow
        · exact ⟨done ++ [(key, v)], by rw [hdone]; simp, hnow⟩
      · exact getElem?_foldl_insert [(key, v.encode)] db
  | rows s idx names =>
    rcases names with _ | ⟨name, names⟩
    · exact absurd h (by simp [transact])
    obtain ⟨done, hdone, rfl, hshown⟩ := hinv
    rw [transact] at h
    split_ifs at h with hover
    · obtain ⟨rfl, rfl⟩ := Prod.mk.inj (Option.some.inj h)
      exact Or.inl ⟨rfl, rfl⟩
    obtain ⟨err, hrow⟩ | ⟨-, hrow⟩ := putRow_cases fails [.ofNat (done.length + 1)]
      (sensorRow [.ofNat (done.length + 1)] name (sensorTemp s.temp done.length)
        s.count.toUInt32).cells db
    all_goals
      simp only [sensorRow] at h hrow
      rw [hrow] at h
      obtain ⟨rfl, rfl⟩ := Prod.mk.inj (Option.some.inj h)
    · exact Or.inl ⟨rfl, rfl⟩
    · have hcells : s.cells 0 (done ++ [name]) = s.cells 0 done ++ s.cells done.length [name] := by
        rw [Sample.cells, sensorEntries_append, Nat.zero_add]
        rfl
      refine Or.inr (Or.inl ⟨s, s.scalars ++ s.cells 0 done, s.cells done.length [name],
        s.cells (done.length + 1) names, ?_, hshown, ?_, ?_⟩)
      · rw [entries_eq, hdone, List.append_assoc, List.append_assoc]
        congr 1
        rw [Sample.cells, sensorEntries_append, Nat.zero_add]
        rfl
      · intro hnow
        rw [List.append_assoc, ← hcells] at hnow
        rcases names with _ | ⟨name', names⟩
        · show Shown _ s.entries
          rw [entries_eq, hdone]
          exact hnow
        · exact ⟨done ++ [name], by rw [hdone]; simp, by simp, hnow⟩
      · rw [getElem?_foldl_insert]
        rfl
  | clearing idx =>
    have hidx : idx < sensors.length := hinv
    rw [transact, deleteRow] at h
    rcases hloop : deleteRowLoop [.ofNat (idx + 1)] sensorColumns [] with err | keys
    · rw [hloop] at h
      obtain ⟨rfl, rfl⟩ := Prod.mk.inj (Option.some.inj h)
      exact Or.inl ⟨rfl, rfl⟩
    obtain ⟨-, rfl⟩ := (deleteRowLoop_eq_ok_iff _).mp hloop
    rw [hloop] at h
    cases fails with
    | true =>
      obtain ⟨rfl, rfl⟩ := Prod.mk.inj (Option.some.inj h)
      exact Or.inl ⟨rfl, rfl⟩
    | false =>
      obtain ⟨rfl, rfl⟩ := Prod.mk.inj (Option.some.inj h)
      refine Or.inr (Or.inr ⟨idx, hidx, ?_, ?_⟩)
      · split_ifs with hmore
        · exact hmore
        · trivial
      · rw [getElem?_foldl_erase, List.nil_append, List.map_map]
        rfl

/-- **One step keeps what there is of a sample.** -/
theorem step_inv (hinv : Inv p) {i : TelemetryInput} {u : Unit}
    (h : step checks p i = some (u, p')) : Inv p' := by
  obtain ⟨t, db⟩ := p
  obtain ⟨t', db'⟩ := p'
  cases i with
  | start clearSensorRows =>
    cases t with
    | stopped =>
      obtain ⟨rfl, rfl⟩ := Prod.mk.inj (congrArg Prod.snd (Option.some.inj h))
      cases clearSensorRows with
      | true => exact Nat.succ_pos _
      | false => trivial
    | _ => exact absurd h (by simp [step])
  | sample temp now =>
    cases t with
    | asleep last =>
      obtain ⟨rfl, rfl⟩ := Prod.mk.inj (congrArg Prod.snd (Option.some.inj h))
      rcases now with _ | now
      · trivial
      · exact ⟨[], rfl, by simp [Shown]⟩
    | _ => exact absurd h (by simp [step])
  | transaction fails =>
    obtain ⟨⟨t₁, db₁⟩, htransact, heq⟩ := Option.map_eq_some_iff.mp h
    obtain ⟨rfl, rfl⟩ := Prod.mk.inj (congrArg Prod.snd heq)
    obtain ⟨rfl, -⟩ | ⟨s, es, es', rest, hs, hshown, hnext, hdb⟩ | ⟨-, -, hnext, -⟩ :=
      transact_cases hinv htransact
    · trivial
    · exact hnext (hshown.more hs hdb)
    · exact hnext
  | exit =>
    cases t with
    | stopped => exact absurd h (by simp [step])
    | _ =>
      obtain ⟨rfl, rfl⟩ := Prod.mk.inj (congrArg Prod.snd (Option.some.inj h))
      trivial

/-- **One step writes only what the app writes.** -/
theorem step_writes (hinv : Inv p) {i : TelemetryInput} {u : Unit}
    (h : step checks p i = some (u, p')) :
    Edits TelemetryWrite (fun k => p.2[k]?) (fun k => p'.2[k]?) := by
  obtain ⟨t, db⟩ := p
  obtain ⟨t', db'⟩ := p'
  cases i with
  | start clearSensorRows =>
    cases t with
    | stopped =>
      obtain ⟨rfl, rfl⟩ := Prod.mk.inj (congrArg Prod.snd (Option.some.inj h))
      exact .refl _
    | _ => exact absurd h (by simp [step])
  | sample temp now =>
    cases t with
    | asleep last =>
      obtain ⟨rfl, rfl⟩ := Prod.mk.inj (congrArg Prod.snd (Option.some.inj h))
      exact .refl _
    | _ => exact absurd h (by simp [step])
  | transaction fails =>
    obtain ⟨⟨t₁, db₁⟩, htransact, heq⟩ := Option.map_eq_some_iff.mp h
    obtain ⟨rfl, rfl⟩ := Prod.mk.inj (congrArg Prod.snd heq)
    obtain ⟨-, rfl⟩ | ⟨s, es, es', rest, hs, -, -, hdb⟩ | ⟨idx, hidx, -, hdb⟩ :=
      transact_cases hinv htransact
    · exact .refl _
    · refine ⟨_, ?_, hdb⟩
      intro q hq
      obtain ⟨e, he, rfl⟩ := List.mem_map.mp hq
      refine Or.inl ⟨s, e.2, ?_, rfl⟩
      rw [hs]
      exact List.mem_append_left _ (List.mem_append_right _ he)
    · refine ⟨_, ?_, hdb⟩
      intro q hq
      obtain ⟨c, hc, rfl⟩ := List.mem_map.mp hq
      exact Or.inr ⟨rfl, idx, hidx, c, hc, rfl⟩
  | exit =>
    cases t with
    | stopped => exact absurd h (by simp [step])
    | _ =>
      obtain ⟨rfl, rfl⟩ := Prod.mk.inj (congrArg Prod.snd (Option.some.inj h))
      exact .refl _

/-- **What has been put of a sample may not be lost**, and that is all. -/
theorem Inv.mono (hinv : Inv (t, db))
    (h : ∀ e : Bytes × Value, e.1 ∈ telemetryKeys → db[e.1]? = some e.2.encode →
      db'[e.1]? = some e.2.encode) : Inv (t, db') := by
  have hshown : ∀ {s : Sample} {es : List (Bytes × Value)}, (∀ e ∈ es, e ∈ s.entries) →
      Shown db es → Shown db' es := by
    intro s es hsub hes e he
    refine h e ?_ (hes e he)
    rw [← s.map_fst_entries]
    exact List.mem_map_of_mem (hsub e he)
  cases t with
  | asleep last =>
    rcases last with _ | s
    · trivial
    · exact hshown (fun e he => he) hinv
  | putting s puts =>
    obtain ⟨done, hdone, hes⟩ := hinv
    refine ⟨done, hdone, hshown (s := s) (fun e he => ?_) hes⟩
    rw [entries_eq, hdone]
    exact List.mem_append_left _ (List.mem_append_left _ he)
  | rows s idx names =>
    obtain ⟨done, hdone, hidx, hes⟩ := hinv
    refine ⟨done, hdone, hidx, hshown (s := s) (fun e he => ?_) hes⟩
    rw [entries_eq, hdone, Sample.cells, sensorEntries_append, ← List.append_assoc]
    exact List.mem_append_left _ he
  | clearing idx => exact hinv
  | stopped => trivial

end Steps

end Telemetry

end AgentxSubagent
