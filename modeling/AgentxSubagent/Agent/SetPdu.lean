import AgentxSubagent.Agent.TableSet

/-!
# A SET over scalars and cells

A SET reaches the subagent as a list of varbinds, some for scalars and some for cells.
net-snmp calls the handlers phase by phase, a scalar's with one request and the table's with
all of its own; taken together, a phase goes through the requests in some order and hands
each to its handler: `AgentxSubagent.forPdu`.

Whatever fails, a phase changes what is stored by assignments that can be told from the
requests beforehand: `AgentxSubagent.SetRequest.actionWrite` for ACTION,
`AgentxSubagent.SetRequest.undoWrites` for UNDO, and none for the others.

* `AgentxSubagent.forPdu_action_edits`, `AgentxSubagent.forPdu_undo_edits`: a phase makes no
  other assignment;
* `AgentxSubagent.forPdu_undo_none`: UNDO in which nothing fails makes all of them;
* `AgentxSubagent.forPdu_reserve2`: requests that come through RESERVE2 without an error
  carry what was stored (`AgentxSubagent.SetRequest.Stashed`).
-/

namespace AgentxSubagent

open Assign ForEach

/-! ### Requests and phases -/

/-- A varbind of a SET, with the handler it belongs to. -/
inductive SetVarbind
  | scalar (s : Scalar) (vb : AsnValue)
  | cell (vb : TableVarbind)

/-- A request in progress. -/
inductive SetRequest
  | scalar (s : Scalar) (r : ScalarRequest)
  | cell (r : TableRequest)

/-- A request as it arrives. -/
def SetRequest.fresh : SetVarbind → SetRequest
  | .scalar s vb => .scalar s (.fresh vb)
  | .cell vb => .cell (.fresh vb)

/-- The error set so far. -/
def SetRequest.status : SetRequest → Option SnmpErr
  | .scalar _ r => r.status
  | .cell r => r.status

/-- What fails for one request in one phase. -/
structure RequestFaults where
  scalar : CallFaults
  cell : CellFaults

/-- Nothing fails. -/
def RequestFaults.none : RequestFaults := ⟨.none, .none⟩

/-- One phase for one request. -/
def handleRequest (m : Modes) (f : RequestFaults) (mode : SetMode) (a : Agent) :
    SetRequest → SetRequest × Agent
  | .scalar s r =>
    let done := s.handle m f.scalar mode a r
    (.scalar s done.1, done.2)
  | .cell r =>
    let done := handleCell m f.cell mode a.envs r
    (.cell done.1, { a with envs := done.2 })

/-- One phase for the requests of a PDU; `f i` is what fails for the `i`-th. -/
def forPdu (m : Modes) (f : ℕ → RequestFaults) (mode : SetMode) (rs : List SetRequest) (a : Agent) :
    List SetRequest × Agent :=
  forEach (fun i => handleRequest m (f i) mode) 0 rs a

/-- Some request of the PDU has an error set. -/
def pduError (rs : List SetRequest) : Bool := rs.any fun r => r.status.isSome

/-! ### What ACTION and UNDO write -/

/-- The assignment ACTION makes for a request. -/
def SetRequest.actionWrite (m : Modes) : SetRequest → Option (Loc × Option Bytes)
  | .scalar s r => ((s.object m).syn.newValue r.requestvb).map fun v => (s.loc m, some v.encode)
  | .cell r => r.vb.write m

/-- The assignments UNDO makes for a request. -/
def SetRequest.undoWrites (m : Modes) : SetRequest → List (Loc × Option Bytes)
  | .scalar s r => (r.undo.map fun v => (s.loc m, some v.encode)).toList
  | .cell r => r.restorations m

section Cells

variable {m : Modes} {f : CellFaults} {envs : Envs} {r : TableRequest}
  {P : Loc → Option Bytes → Prop}

/-- ACTION for a cell makes the assignment of its varbind, or none. -/
theorem cellAction_edits (h : ∀ p, r.vb.write m = some p → P p.1 p.2) :
    Edits P envs.stored (cellAction m f envs r).2.stored := by
  rw [cellAction]
  rcases hrow : r.vb.row with _ | ⟨colnum, inst⟩
  · exact .refl _
  rcases hc : PortColumn.ofColnum colnum with _ | c
  · simp only [hc]
    exact .refl _
  simp only [hc]
  rcases hkey : tableCellKey c.name inst (storageKeyMax + 1) with rc | key
  · exact .refl _
  rcases hv : (c.object m).syn.newValue r.vb.requestvb with _ | v
  · exact .refl _
  obtain ⟨rfl, -⟩ := validKey_of_tableCellKey hkey
  simp only
  obtain ⟨rc, hset⟩ | ⟨-, hset⟩ :=
    envs.setValue_cases f.write (c.object m).mode.env (cellKey c.name inst) v
  · rw [hset]
    exact .refl _
  · rw [hset]
    simp only [Envs.stored_put]
    have hwrite : r.vb.write m = some (c.cellLoc m inst, some v.encode) := by
      simp [TableVarbind.write, TableVarbind.cell, hrow, hc, hv]
    exact .update (h _ hwrite)

/-- The block of UNDO for one column makes the assignment of its stash, or none. -/
theorem undoColumn_edits {c : PortColumn}
    (h : ∀ p, r.restoration m c = some p → P p.1 p.2) :
    Edits P envs.stored (undoColumn m f c envs r).2.stored := by
  rcases hu : r.undo c with _ | u
  · rw [undoColumn, hu]
    exact .refl _
  have hp : P ((c.object m).mode.env, u.key) u.content :=
    h (((c.object m).mode.env, u.key), u.content) (by rw [TableRequest.restoration, hu]; rfl)
  rw [UndoCell.content] at hp
  rw [undoColumn_envs hu, restoreCell_envs]
  rcases he : u.existed with _ | _
  · rw [he] at hp
    rw [if_neg Bool.false_ne_true]
    obtain ⟨rc, hdel⟩ | hdel := envs.delete_cases (f.undo c) (c.object m).mode.env u.key
    · rw [hdel]
      exact .refl _
    · rw [hdel, Envs.stored_remove]
      exact .update hp
  · rw [he] at hp
    rw [if_pos rfl]
    obtain ⟨rc, hset⟩ | ⟨-, hset⟩ :=
      envs.setValue_cases (f.undo c) (c.object m).mode.env u.key u.value
    · rw [hset]
      exact .refl _
    · rw [hset, Envs.stored_put]
      exact .update hp

/-- UNDO for a cell makes assignments of its stashes only. -/
theorem cellUndo_edits (h : ∀ p ∈ r.restorations m, P p.1 p.2) :
    Edits P envs.stored (cellUndo m f envs r).2.stored := by
  have hcol : ∀ c p, r.restoration m c = some p → P p.1 p.2 := by
    intro c p hp
    refine h p ?_
    cases c <;> simp [TableRequest.restorations, hp]
  have hblock : ∀ c (envs : Envs) (r' : TableRequest), r'.undo c = r.undo c →
      Edits P envs.stored (undoColumn m f c envs r').2.stored := by
    intro c envs r' hr'
    refine undoColumn_edits fun p hp => hcol c p ?_
    rwa [TableRequest.restoration, hr'] at hp
  rw [cellUndo]
  rcases h1 : undoColumn m f .portDescr envs r with ⟨r1, envs1⟩
  have he1 := hblock .portDescr envs r rfl
  rw [h1] at he1
  simp only
  rcases h2 : undoColumn m f .portAdminStatus envs1 r1 with ⟨r2, envs2⟩
  have he2 := hblock .portAdminStatus envs1 r1 (undoColumn_undo (by decide) h1)
  rw [h2] at he2
  refine (he1.trans he2).trans (hblock .portAlarmThresholdMilliC envs2 r2 ?_)
  exact (undoColumn_undo (by decide) h2).trans (undoColumn_undo (by decide) h1)

end Cells

/-! ### One request -/

section OneRequest

variable {m : Modes} {f : RequestFaults} {a : Agent} {r : SetRequest}
  {P : Loc → Option Bytes → Prop}

/-- ACTION makes the assignment of a request, or none. -/
theorem handleRequest_action_edits (h : ∀ p, r.actionWrite m = some p → P p.1 p.2) :
    Edits P a.envs.stored (handleRequest m f .action a r).2.envs.stored := by
  cases r with
  | scalar s r =>
    rcases hv : (s.object m).syn.newValue r.requestvb with _ | v
    · obtain ⟨stored, -, hh⟩ := s.handle_eq m f.scalar
      simp only [handleRequest, hh, dbscalar, hv]
      exact .refl _
    · have hp : P (s.loc m) (some v.encode) :=
        h (s.loc m, some v.encode) (by simp [SetRequest.actionWrite, hv])
      obtain ⟨-, henvs⟩ | ⟨-, henvs⟩ := Scalar.action_cases (f := f.scalar) (a := a) hv
      · simp only [handleRequest, henvs]
        exact .refl _
      · simp only [handleRequest, henvs, Envs.stored_put]
        exact .update hp
  | cell r => exact cellAction_edits h

/-- UNDO makes assignments of the stash of a request, or none. -/
theorem handleRequest_undo_edits (h : ∀ p ∈ r.undoWrites m, P p.1 p.2) :
    Edits P a.envs.stored (handleRequest m f .undo a r).2.envs.stored := by
  cases r with
  | scalar s r =>
    rcases hv : r.undo with _ | v
    · obtain ⟨stored, -, hh⟩ := s.handle_eq m f.scalar
      simp only [handleRequest, hh, dbscalar, hv]
      exact .refl _
    · have hp : P (s.loc m) (some v.encode) :=
        h (s.loc m, some v.encode) (by simp [SetRequest.undoWrites, hv])
      obtain hundo | hundo : s.handle m f.scalar .undo a r = _ ∨ _ := Scalar.undo_cases hv
      · simp only [handleRequest, hundo]
        exact .refl _
      · simp only [handleRequest, hundo, Envs.stored_put]
        exact .update hp
  | cell r => exact cellUndo_edits h

/-- The other phases leave the subagent as it was. -/
theorem handleRequest_pure {mode : SetMode} (hmode : mode ≠ .action ∧ mode ≠ .undo) :
    (handleRequest m f mode a r).2 = a := by
  cases r with
  | scalar s r =>
    obtain ⟨stored, -, hh⟩ := s.handle_eq m f.scalar
    cases mode with
    | action => exact absurd rfl hmode.1
    | undo => exact absurd rfl hmode.2
    | reserve1 =>
      simp only [handleRequest, hh, dbscalar]
      split <;> rfl
    | reserve2 =>
      simp only [handleRequest, hh, dbscalar]
      repeat' split
      all_goals rfl
    | _ => simp only [handleRequest, hh, dbscalar]
  | cell r =>
    cases mode with
    | action => exact absurd rfl hmode.1
    | undo => exact absurd rfl hmode.2
    | _ => rfl

/-- **The stash of a scalar**: what was read, or zero for a missing key. -/
def Scalar.Stash (s : Scalar) (m : Modes) (envs : Envs) (v : Value) : Prop :=
  (∃ data, envs.stored (s.loc m) = some data ∧
      (readAs (s.object m).syn.type (s.object m).syn.buflen data).1 = .ok v) ∨
    envs.stored (s.loc m) = none ∧ v = (s.object m).syn.zero

/-- A request that passed RESERVE1, before RESERVE2. -/
def SetRequest.Checked (m : Modes) : SetRequest → Prop
  | .scalar s r => (s.object m).syn.reserve1 r.requestvb = none ∧ r = .fresh r.requestvb
  | .cell r => Writable m r.vb ∧ r = .fresh r.vb

/-- **A request that passed RESERVE2**: its value is accepted, and its stash is what was stored
then. -/
def SetRequest.Stashed (m : Modes) (before : Envs) : SetRequest → Prop
  | .scalar s r => (s.object m).syn.reserve1 r.requestvb = none ∧
      ∃ v, r.undo = some v ∧ s.Stash m before v
  | .cell r => Reserved m before r

/-- RESERVE1 sets an error or lets the request through. -/
theorem handleRequest_reserve1 (vb : SetVarbind)
    (h : (handleRequest m f .reserve1 a (.fresh vb)).1.status = none) :
    (handleRequest m f .reserve1 a (.fresh vb)).1.Checked m := by
  cases vb with
  | scalar s vb =>
    obtain ⟨e, he⟩ | ⟨hacc, he⟩ : _ ∨ _ ∧ s.handle m f.scalar .reserve1 a (.fresh vb) = _ :=
      Scalar.reserve1_cases
    · simp only [SetRequest.fresh, handleRequest, he] at h
      exact absurd h (by simp [SetRequest.status, ScalarRequest.setError])
    · simp only [SetRequest.fresh, handleRequest, he]
      exact ⟨hacc, rfl⟩
  | cell vb =>
    obtain ⟨e, he⟩ | ⟨hw, he⟩ : (∃ e, cellReserve1 m (.fresh vb) = _) ∨ _ := cellReserve1_cases
    · simp only [SetRequest.fresh, handleRequest, handleCell, he] at h
      exact absurd h (by simp [SetRequest.status, TableRequest.setError])
    · simp only [SetRequest.fresh, handleRequest, handleCell, he]
      exact ⟨hw, rfl⟩

/-- RESERVE2 sets an error or stashes what is stored. -/
theorem handleRequest_reserve2 (hr : r.Checked m)
    (h : (handleRequest m f .reserve2 a r).1.status = none) :
    (handleRequest m f .reserve2 a r).1.Stashed m a.envs := by
  cases r with
  | scalar s r =>
    obtain ⟨hacc, -⟩ := hr
    obtain ⟨e, he⟩ | ⟨data, v, hdata, hread, he⟩ | ⟨habs, he⟩ :
        _ ∨ (∃ data v, _ ∧ _ ∧ s.handle m f.scalar .reserve2 a r = _) ∨ _ :=
      Scalar.reserve2_cases
    · simp only [handleRequest, he] at h
      exact absurd h (by simp [SetRequest.status, ScalarRequest.setError])
    · simp only [handleRequest, he]
      exact ⟨hacc, v, rfl, Or.inl ⟨data, hdata, hread⟩⟩
    · simp only [handleRequest, he]
      exact ⟨hacc, _, rfl, Or.inr ⟨habs, rfl⟩⟩
  | cell r =>
    obtain ⟨hw, hfresh⟩ := hr
    obtain ⟨e, he⟩ | ⟨c, inst, u, hcell, hv, hrec, he⟩ :
        (∃ e, cellReserve2 m f.cell a.envs r = _) ∨ _ := cellReserve2_cases hw
    · simp only [handleRequest, handleCell, he] at h
      exact absurd h (by simp [SetRequest.status, TableRequest.setError])
    · simp only [handleRequest, handleCell, he]
      refine ⟨c, inst, u, hcell, hv, hrec, ?_⟩
      rw [hfresh]
      rfl

/-- ACTION keeps the value and the stash of a request. -/
theorem handleRequest_action_stashed {before : Envs} (hr : r.Stashed m before) :
    (handleRequest m f .action a r).1.Stashed m before := by
  cases r with
  | scalar s r =>
    obtain ⟨hacc, v, hv, hstash⟩ := hr
    obtain ⟨new, hnew, -⟩ := Syn.accepts_of_reserve1 hacc
    obtain ⟨hr', -⟩ | ⟨hr', -⟩ := Scalar.action_cases (f := f.scalar) (a := a) hnew
    · simp only [handleRequest, hr']
      exact ⟨hacc, v, hv, hstash⟩
    · simp only [handleRequest, hr']
      exact ⟨hacc, v, hv, hstash⟩
  | cell r => exact Reserved.congr hr cellAction_keeps

/-- **UNDO in which nothing fails** makes the assignments of a stash. -/
theorem handleRequest_undo_none {before : Envs} (hr : r.Stashed m before) :
    (handleRequest m .none .undo a r).2.envs.stored = assign a.envs.stored (r.undoWrites m) := by
  cases r with
  | scalar s r =>
    obtain ⟨-, v, hv, -⟩ := hr
    have hundo : s.handle m .none .undo a r = _ := Scalar.undo_none rfl hv
    simp only [handleRequest, RequestFaults.none, hundo, Envs.stored_put, SetRequest.undoWrites, hv]
    rfl
  | cell r =>
    exact cellUndo_none rfl fun c u hu => hr.validKey hu

end OneRequest

/-! ### The phases of a PDU -/

/-- The scalar a request is for, if it is for one. -/
def SetRequest.scalar? : SetRequest → Option Scalar
  | .scalar s _ => some s
  | .cell _ => none

section Phases

variable {m : Modes} {a : Agent} {rs : List SetRequest} {P : Loc → Option Bytes → Prop}
  {before : Envs}

/-- Without an error, no request has one. -/
theorem status_of_not_pduError (h : pduError rs = false) {r : SetRequest} (hr : r ∈ rs) :
    r.status = none := by
  have hall : ∀ r ∈ rs, r.status.isSome = false := by simpa [pduError] using h
  exact Option.isNone_iff_eq_none.mp (Option.isSome_eq_false_iff.mp (hall r hr))

/-- A phase keeps which request is for which handler. -/
theorem map_scalar_forPdu (f : ℕ → RequestFaults) (mode : SetMode) :
    (forPdu m f mode rs a).1.map SetRequest.scalar? = rs.map SetRequest.scalar? :=
  map_forEach (fun _ _ r => by cases r <;> rfl) 0 rs a

/-- RESERVE1, RESERVE2, FREE and COMMIT leave the subagent as it was. -/
theorem forPdu_pure (f : ℕ → RequestFaults) {mode : SetMode}
    (hmode : mode ≠ .action ∧ mode ≠ .undo) :
    (forPdu m f mode rs a).2 = a ∧ ∀ r' ∈ (forPdu m f mode rs a).1,
      ∃ j, ∃ r ∈ rs, r' = (handleRequest m (f j) mode a r).1 :=
  forEach_pure (fun _ _ => handleRequest_pure hmode) 0 rs

/-- **RESERVE1 of a PDU**: without an error, every request is checked. -/
theorem forPdu_reserve1 {f : ℕ → RequestFaults} {vbs : List SetVarbind}
    (h : pduError (forPdu m f .reserve1 (vbs.map .fresh) a).1 = false) :
    ∀ r ∈ (forPdu m f .reserve1 (vbs.map .fresh) a).1, r.Checked m := by
  intro r hr
  obtain ⟨j, r0, hr0, hr'⟩ := (forPdu_pure f (by decide)).2 r hr
  obtain ⟨vb, -, rfl⟩ := List.mem_map.mp hr0
  have hstatus := status_of_not_pduError h hr
  rw [hr'] at hstatus ⊢
  exact handleRequest_reserve1 vb hstatus

/-- **RESERVE2 of a PDU**: without an error, every request carries what was stored. -/
theorem forPdu_reserve2 {f : ℕ → RequestFaults} (hrs : ∀ r ∈ rs, r.Checked m)
    (h : pduError (forPdu m f .reserve2 rs a).1 = false) :
    ∀ r ∈ (forPdu m f .reserve2 rs a).1, r.Stashed m a.envs := by
  intro r hr
  obtain ⟨j, r0, hr0, hr'⟩ := (forPdu_pure f (by decide)).2 r hr
  have hstatus := status_of_not_pduError h hr
  rw [hr'] at hstatus ⊢
  exact handleRequest_reserve2 (hrs r0 hr0) hstatus

/-- ACTION of a PDU keeps what the requests carry. -/
theorem forPdu_action_stashed (f : ℕ → RequestFaults) (hrs : ∀ r ∈ rs, r.Stashed m before) :
    ∀ r ∈ (forPdu m f .action rs a).1, r.Stashed m before := by
  intro r hr
  obtain ⟨j, a', r0, hr0, rfl⟩ := exists_of_mem_forEach hr
  exact handleRequest_action_stashed (hrs r0 hr0)

/-- **ACTION of a PDU** makes assignments of its requests only. -/
theorem forPdu_action_edits (f : ℕ → RequestFaults)
    (h : ∀ r ∈ rs, ∀ p, r.actionWrite m = some p → P p.1 p.2) :
    Edits P a.envs.stored (forPdu m f .action rs a).2.envs.stored :=
  forEach_rel (R := fun a a' : Agent => Edits P a.envs.stored a'.envs.stored)
    (fun _ => .refl _) (fun _ _ _ h1 h2 => Edits.trans h1 h2)
    (fun r hr _ _ => handleRequest_action_edits (h r hr)) 0 a

/-- **UNDO of a PDU** makes assignments of its stashes only. -/
theorem forPdu_undo_edits (f : ℕ → RequestFaults)
    (h : ∀ r ∈ rs, ∀ p ∈ r.undoWrites m, P p.1 p.2) :
    Edits P a.envs.stored (forPdu m f .undo rs a).2.envs.stored :=
  forEach_rel (R := fun a a' : Agent => Edits P a.envs.stored a'.envs.stored)
    (fun _ => .refl _) (fun _ _ _ h1 h2 => Edits.trans h1 h2)
    (fun r hr _ _ => handleRequest_undo_edits (h r hr)) 0 a

/-- **UNDO of a PDU in which nothing fails** makes the assignments of all stashes. -/
theorem forPdu_undo_none (hrs : ∀ r ∈ rs, r.Stashed m before) (a : Agent) :
    (forPdu m (fun _ => .none) .undo rs a).2.envs.stored =
      assign a.envs.stored (rs.flatMap fun r => r.undoWrites m) := by
  unfold forPdu
  generalize 0 = i
  induction rs generalizing i a with
  | nil => rfl
  | cons r rs ih =>
    rw [forEach_cons, List.flatMap_cons, assign_append,
      ← handleRequest_undo_none (hrs r List.mem_cons_self)]
    exact ih (fun r' hr' => hrs r' (List.mem_cons_of_mem r hr')) _ _

end Phases

end AgentxSubagent
