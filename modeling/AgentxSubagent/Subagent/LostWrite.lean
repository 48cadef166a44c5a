import AgentxSubagent.Subagent.EventLoop

/-!
# Acknowledged writes and SETs that are undone

A SET takes its stash in RESERVE2 and writes it back in UNDO, some turns of the event loop
later. What the IPC server stores for the same scalar in between is then gone, although the
client has been told `STATUS_OK`.

* `AgentxSubagent.undone_set_stores_stash`: whatever the loop dispatches between the phases of
  a SET, after UNDO a scalar of it holds the stash.
* `AgentxSubagent.no_lost_write_iff`: so the last acknowledged write survives exactly when it
  wrote what the stash holds, and without one the value from before comes back exactly when
  there was one.
-/

namespace AgentxSubagent

open Assign ForEach Runs

/-! ### Acknowledged writes of a run -/

/-- The value of a write to a scalar that a turn gets acknowledged, told from its input. -/
def Input.acks (m : Modes) (pbDecode : Bytes → Option Envelope) (s : Scalar) :
    Input → Option Value
  | .frame payload f => frameAcks m pbDecode f s payload
  | _ => none

/-- The writes to a scalar that were answered `STATUS_OK`, in order. -/
def okWrites (s : Scalar) (os : List (Option FrameRecord)) : List Value :=
  os.filterMap fun o => o.bind (FrameRecord.okWrite s)

section Acks

variable {m : Modes} {pbDecode : Bytes → Option Envelope} {u u' : Subagent}

/-- One turn. -/
theorem Subagent.step_acks {i : Input} {o : Option FrameRecord}
    (h : u.step m pbDecode i = some (o, u')) (s : Scalar) :
    o.bind (FrameRecord.okWrite s) = i.acks m pbDecode s := by
  cases i with
  | reserve1 t vbs =>
    obtain ⟨rfl, -⟩ := Subagent.step_reserve1 h
    rfl
  | phase t mode f =>
    obtain ⟨rfl, -⟩ := Subagent.step_phase h
    rfl
  | frame payload f =>
    obtain ⟨rfl, -⟩ := Prod.mk.inj (Option.some.inj h)
    exact handleFrame_okWrite m f u.agent pbDecode payload s
  | poll af =>
    obtain ⟨rfl, -⟩ := Prod.mk.inj (Option.some.inj h)
    rfl

/-- **The acknowledged writes of a run** are those of its inputs. -/
theorem okWrites_run {is : List Input} {os : List (Option FrameRecord)}
    (h : run (fun u i => Subagent.step m pbDecode u i) u is = some (os, u')) (s : Scalar) :
    okWrites s os = is.filterMap (Input.acks m pbDecode s) := by
  induction is generalizing u os with
  | nil =>
    obtain ⟨rfl, -⟩ := Prod.mk.inj (Option.some.inj h)
    rfl
  | cons i is ih =>
    obtain ⟨o, os', v, hstep, hrun, rfl⟩ := run_cons_eq_some.mp h
    rw [okWrites, List.filterMap_cons, List.filterMap_cons, Subagent.step_acks hstep s]
    have hrest := ih hrun
    rw [okWrites] at hrest
    rw [hrest]

end Acks

/-! ### A SET that is undone -/

/-- The turns of a SET that is undone, with other turns between its phases. The writes of UNDO
do not fail. -/
def undoneSet (t : ℕ) (vbs : List SetVarbind) (f₂ f₃ : ℕ → RequestFaults)
    (between₁ between₂ : List Input) : List Input :=
  .reserve1 t vbs :: .phase t .reserve2 f₂ ::
    (between₁ ++ .phase t .action f₃ :: (between₂ ++ [.phase t .undo fun _ => .none]))

/-- A stash is determined by what was stored. -/
theorem Scalar.Stash.unique {s : Scalar} {m : Modes} {envs : Envs} {v w : Value}
    (hv : s.Stash m envs v) (hw : s.Stash m envs w) : v = w := by
  obtain ⟨data, hdata, hread⟩ | ⟨habs, rfl⟩ := hv
  · obtain ⟨data', hdata', hread'⟩ | ⟨habs', -⟩ := hw
    · obtain rfl := Option.some.inj (hdata.symm.trans hdata')
      exact Except.ok.inj (hread.symm.trans hread')
    · exact absurd (hdata.symm.trans habs') (by simp)
  · obtain ⟨data', hdata', -⟩ | ⟨-, rfl⟩ := hw
    · exact absurd (hdata'.symm.trans habs) (by simp)
    · rfl

/-- The places UNDO writes for a request: a scalar's own, with its stash, and otherwise none of
a scalar's. -/
theorem undoWrites_scalar {m : Modes} {before : Envs} {r : SetRequest} (hr : r.Stashed m before)
    {s : Scalar} {c : Option Bytes} (h : (s.loc m, c) ∈ r.undoWrites m) :
    ∃ v, s.Stash m before v ∧ c = some v.encode := by
  cases r with
  | scalar s' r =>
    obtain ⟨-, v, hv, hstash⟩ := hr
    rw [SetRequest.undoWrites, hv] at h
    obtain ⟨hloc, rfl⟩ : s.loc m = s'.loc m ∧ c = some v.encode := by simpa using h
    obtain rfl := Scalar.loc_inj hloc
    exact ⟨v, hstash, rfl⟩
  | cell r =>
    obtain ⟨l, data, content, hwrite, hrest, -⟩ := Reserved.restorations hr
    rw [SetRequest.undoWrites, hrest] at h
    obtain ⟨rfl, -⟩ : s.loc m = l ∧ c = content := by simpa using h
    obtain ⟨col, inst, -, hloc⟩ := TableVarbind.write_fst hwrite
    exact absurd hloc (s.loc_ne_cellLoc m col inst)

/-- UNDO writes for every scalar of the SET. -/
theorem mem_undoWrites {m : Modes} {before : Envs} {rs : List SetRequest}
    (hrs : ∀ r ∈ rs, r.Stashed m before) {s : Scalar}
    (h : some s ∈ rs.map SetRequest.scalar?) :
    s.loc m ∈ (rs.flatMap fun r => r.undoWrites m).map Prod.fst := by
  obtain ⟨r, hr, hscalar⟩ := List.mem_map.mp h
  cases r with
  | scalar s' r =>
    obtain rfl : s' = s := Option.some.inj hscalar
    obtain ⟨-, v, hv, -⟩ := hrs _ hr
    refine List.mem_map.mpr ⟨(s'.loc m, some v.encode), ?_, rfl⟩
    refine List.mem_flatMap.mpr ⟨_, hr, ?_⟩
    simp [SetRequest.undoWrites, hv]
  | cell r => exact absurd hscalar (by simp [SetRequest.scalar?])

section Undone

variable {m : Modes} {pbDecode : Bytes → Option Envelope} {u u' : Subagent} {t : ℕ}

/-- RESERVE1 and RESERVE2 in one packet: the requests keep what every phase keeps, and once ACTION
follows they carry what was stored when the packet arrived. -/
theorem reserve_turns {vbs : List SetVarbind} {f₂ : ℕ → RequestFaults} {u₁ u₂ : Subagent}
    {o₁ o₂ : Option FrameRecord} (h₁ : u.step m pbDecode (.reserve1 t vbs) = some (o₁, u₁))
    (h₂ : u₁.step m pbDecode (.phase t .reserve2 f₂) = some (o₂, u₂)) :
    u₂.agent = u.agent ∧ ∃ rs, u₂.pdus t = some ⟨.reserve2, rs⟩ ∧
      (∀ {β : Type} (g : SetRequest → β),
        (∀ f mode a r, g (handleRequest m f mode a r).1 = g r) →
        rs.map g = (vbs.map SetRequest.fresh).map g) ∧
      (pduError rs = false → ∀ r ∈ rs, r.Stashed m u.agent.envs) := by
  obtain ⟨-, hagent₁, hpdus₁⟩ := Subagent.step_reserve1 h₁
  obtain ⟨-, p, hp, hadm, hagent₂, hpdus₂⟩ := Subagent.step_phase h₂
  rw [hpdus₁, Function.update_self] at hp
  obtain rfl := Option.some.inj hp
  have hok : pduError (forPdu m (fun _ => .none) .reserve1 (vbs.map .fresh) u.agent).1 = false := by
    simpa [PendingSet.admits] using hadm
  have hchecked := forPdu_reserve1 hok
  rw [(forPdu_pure f₂ (by decide)).1] at hagent₂
  refine ⟨hagent₂.trans hagent₁, _, by rw [hpdus₂, Function.update_self]; rfl, ?_, ?_⟩
  · intro β g hg
    exact (map_forEach (fun _ _ _ => hg _ _ _ _) 0 _ _).trans
      (map_forEach (fun _ _ _ => hg _ _ _ _) 0 _ _)
  · rw [hagent₁]
    exact forPdu_reserve2 hchecked

/-- **The turns of a SET that is undone**: ACTION and UNDO go through requests that carry what was
stored when the SET arrived, with runs over the other turns in between. -/
theorem undone_turns {vbs : List SetVarbind} {f₂ f₃ : ℕ → RequestFaults}
    {between₁ between₂ : List Input} (hother₁ : ∀ i ∈ between₁, i.isOther = true)
    (hother₂ : ∀ i ∈ between₂, i.isOther = true) {os : List (Option FrameRecord)}
    (h : run (fun u i => Subagent.step m pbDecode u i) u
      (undoneSet t vbs f₂ f₃ between₁ between₂) = some (os, u')) :
    ∃ rs u₂ os₁ u₃ u₄ os₂ u₅,
      (∀ {β : Type} (g : SetRequest → β),
        (∀ f mode a r, g (handleRequest m f mode a r).1 = g r) →
        rs.map g = (vbs.map SetRequest.fresh).map g) ∧
      (∀ r ∈ rs, r.Stashed m u.agent.envs) ∧ u₂.agent = u.agent ∧
      run (fun u i => Subagent.step m pbDecode u i) u₂ between₁ = some (os₁, u₃) ∧
      u₄.agent = (forPdu m f₃ .action rs u₃.agent).2 ∧
      run (fun u i => Subagent.step m pbDecode u i) u₄ between₂ = some (os₂, u₅) ∧
      u'.agent = (forPdu m (fun _ => .none) .undo (forPdu m f₃ .action rs u₃.agent).1
        u₅.agent).2 := by
  obtain ⟨_, _, u₁, h₁, hrun₁, -⟩ := run_cons_eq_some.mp h
  obtain ⟨_, _, u₂, h₂, hrun₂, -⟩ := run_cons_eq_some.mp hrun₁
  obtain ⟨os₁, _, u₃, hbetween₁, hrun₃, -⟩ := run_append_eq_some hrun₂
  obtain ⟨_, _, u₄, h₄, hrun₄, -⟩ := run_cons_eq_some.mp hrun₃
  obtain ⟨os₂, _, u₅, hbetween₂, hrun₅, -⟩ := run_append_eq_some hrun₄
  obtain ⟨_, _, u₆, h₆, hrun₆, -⟩ := run_cons_eq_some.mp hrun₅
  obtain rfl : u₆ = u' := (Prod.mk.inj (Option.some.inj hrun₆)).2
  -- what the requests carry
  obtain ⟨hagent₂, rs, hrs, hkeeps, hstashed⟩ := reserve_turns h₁ h₂
  obtain ⟨-, p, hp, hadm, hagent₄, hpdus₄⟩ := Subagent.step_phase h₄
  rw [Subagent.run_other hother₁ hbetween₁, hrs] at hp
  obtain rfl := Option.some.inj hp
  have hok : pduError rs = false := by simpa [PendingSet.admits] using hadm
  -- which requests UNDO gets
  obtain ⟨-, p, hp, -, hagent₆, -⟩ := Subagent.step_phase h₆
  rw [Subagent.run_other hother₂ hbetween₂, hpdus₄, Function.update_self] at hp
  obtain rfl := Option.some.inj hp
  exact ⟨rs, u₂, os₁, u₃, u₄, os₂, u₅, hkeeps, hstashed hok, hagent₂, hbetween₁, hagent₄,
    hbetween₂, hagent₆⟩

/-- **After UNDO a scalar of the SET holds the stash**, whatever was dispatched between the
phases. -/
theorem undone_set_stores_stash {vbs : List SetVarbind} {f₂ f₃ : ℕ → RequestFaults}
    {between₁ between₂ : List Input} (hother₁ : ∀ i ∈ between₁, i.isOther = true)
    (hother₂ : ∀ i ∈ between₂, i.isOther = true) {os : List (Option FrameRecord)}
    (h : run (fun u i => Subagent.step m pbDecode u i) u
      (undoneSet t vbs f₂ f₃ between₁ between₂) = some (os, u'))
    {s : Scalar} {vb : AsnValue} (hs : .scalar s vb ∈ vbs) :
    ∃ v, s.Stash m u.agent.envs v ∧ u'.agent.envs.stored (s.loc m) = some v.encode := by
  obtain ⟨rs, -, -, u₃, -, -, u₅, hkeeps, hstashed, -, -, -, -, hagent⟩ :=
    undone_turns hother₁ hother₂ h
  have hacted := forPdu_action_stashed (a := u₃.agent) f₃ hstashed
  rw [hagent, forPdu_undo_none hacted]
  have hmem : some s ∈ (forPdu m f₃ .action rs u₃.agent).1.map SetRequest.scalar? := by
    rw [map_scalar_forPdu, hkeeps SetRequest.scalar? fun _ _ _ r => by cases r <;> rfl,
      List.map_map]
    exact List.mem_map.mpr ⟨_, hs, rfl⟩
  obtain ⟨c, hc, hval⟩ := exists_assign_eq (mem_undoWrites hacted hmem) u₅.agent.envs.stored
  obtain ⟨r, hr, hcr⟩ := List.mem_flatMap.mp hc
  obtain ⟨v, hv, rfl⟩ := undoWrites_scalar (hacted r hr) hcr
  exact ⟨v, hv, hval⟩

end Undone

/-! ### Which writes are lost -/

/-- **No acknowledged write is lost**: a scalar ends with the value of the last acknowledged
write, or reads as before when there was none. -/
def NoLostWrite (m : Modes) (s : Scalar) (before : Envs) (acked : List Value) (after : Envs) :
    Prop :=
  match acked.getLast? with
  | some w => ReadsAlike (some w.encode) (after.stored (s.loc m))
  | none => ReadsAlike (before.stored (s.loc m)) (after.stored (s.loc m))

/-- The value to be acknowledged last is the one stored before, or there is none and something
was stored before. A missing key counts as zero, or as the empty string. -/
def StashKept (m : Modes) (s : Scalar) (before : Envs) (acked : List Value) : Prop :=
  match acked.getLast? with
  | some w => s.Stash m before w
  | none => before.stored (s.loc m) ≠ none

/-- A scalar that ends with its stash has lost no write exactly when the stash is what the last
write wrote. -/
theorem noLostWrite_iff_stashKept {m : Modes} {s : Scalar} {before after : Envs} {v : Value}
    (hv : s.Stash m before v) (hafter : after.stored (s.loc m) = some v.encode)
    (acked : List Value) : NoLostWrite m s before acked after ↔ StashKept m s before acked := by
  rw [NoLostWrite, StashKept, hafter]
  rcases acked.getLast? with _ | w
  · obtain ⟨data, hdata, hread⟩ | ⟨habs, -⟩ := hv
    · rw [hdata]
      exact iff_of_true (readsAlike_encode hread) (by simp)
    · rw [habs]
      exact iff_of_false id (by simp)
  · simp only [readsAlike_encode_iff]
    constructor
    · rintro rfl
      exact hv
    · exact fun hw => hw.unique hv

/-- **When an undone SET loses no acknowledged write.** For every interleaving of IPC frames
with the phases of a SET over some scalar that ends in UNDO, the scalar ends with the value of
the last write answered `STATUS_OK`, or with the value from before the SET when there was
none, if and only if that write asked for the very value stored before the SET, or there was
none and the key was present. -/
theorem no_lost_write_iff (m : Modes) (pbDecode : Bytes → Option Envelope) (u u' : Subagent)
    (t : ℕ) (vbs : List SetVarbind) (f₂ f₃ : ℕ → RequestFaults) (between₁ between₂ : List Input)
    (hother₁ : ∀ i ∈ between₁, i.isOther = true) (hother₂ : ∀ i ∈ between₂, i.isOther = true)
    (os : List (Option FrameRecord))
    (h : run (fun u i => Subagent.step m pbDecode u i) u
      (undoneSet t vbs f₂ f₃ between₁ between₂) = some (os, u'))
    (s : Scalar) (vb : AsnValue) (hs : .scalar s vb ∈ vbs) :
    NoLostWrite m s u.agent.envs (okWrites s os) u'.agent.envs ↔
      StashKept m s u.agent.envs
        ((between₁ ++ between₂).filterMap (Input.acks m pbDecode s)) := by
  obtain ⟨v, hv, hafter⟩ := undone_set_stores_stash hother₁ hother₂ h hs
  have hacks : okWrites s os = (between₁ ++ between₂).filterMap (Input.acks m pbDecode s) := by
    rw [okWrites_run h, undoneSet]
    simp [List.filterMap_cons, Input.acks]
  rw [hacks]
  exact noLostWrite_iff_stashKept hv hafter _

/-- A frame that asks to store `testing(3)` for `adminStatusExt`. -/
def testingFrame : Bytes :=
  [8, 1, 82, 22, 10, 14] ++ ascii "adminStatusExt" ++ [18, 4, 8, 1, 16, 3]

/-- The decoder as far as `testingFrame` goes. -/
def decodeTesting (payload : Bytes) : Option Envelope :=
  if payload = testingFrame then
    some ⟨1, .writeConfigRequest
      ⟨ascii "adminStatusExt", some { PbValue.initZero with type := 1, int32Val := 3 }⟩⟩
  else none

/-- The subagent at rest, with `adminStatusExt` stored as `up(1)`. -/
def adminSubagent : Subagent := ⟨adminAgent true, fun _ => none⟩

/-- `adminStatusExt` is `up(1)`. While a SET to `down(2)` is between its first packet and
ACTION, a client gets `testing(3)` acknowledged; when the SET is undone, the scalar is `up(1)`
again. -/
theorem acknowledged_write_lost :
    ∃ os u', run (fun u i => Subagent.step .shipped decodeTesting u i) adminSubagent
        (undoneSet 0 [.scalar .adminStatusExt (.integer 2)] (fun _ => .none) (fun _ => .none)
          [.frame testingFrame .none] []) = some (os, u') ∧
      okWrites .adminStatusExt os = [.int32 3] ∧
      u'.agent.envs.stored (Scalar.loc .shipped .adminStatusExt) = some (Value.int32 1).encode ∧
      ¬NoLostWrite .shipped .adminStatusExt adminSubagent.agent.envs
        (okWrites .adminStatusExt os) u'.agent.envs := by
  obtain ⟨os, u', hrun, hacked, hstored⟩ :
      ∃ os u', run (fun u i => Subagent.step .shipped decodeTesting u i) adminSubagent
          (undoneSet 0 [.scalar .adminStatusExt (.integer 2)] (fun _ => .none) (fun _ => .none)
            [.frame testingFrame .none] []) = some (os, u') ∧
        okWrites .adminStatusExt os = [.int32 3] ∧
        u'.agent.envs.stored (Scalar.loc .shipped .adminStatusExt) =
          some (Value.int32 1).encode := ⟨_, _, rfl, by decide, by decide⟩
  refine ⟨os, u', hrun, hacked, hstored, fun hkept => ?_⟩
  rw [NoLostWrite, hacked, hstored] at hkept
  exact absurd (readsAlike_encode_iff.mp hkept) (by decide)

/-- A frame that asks to store `up(1)` for `adminStatusExt`. -/
def upFrame : Bytes :=
  [8, 1, 82, 22, 10, 14] ++ ascii "adminStatusExt" ++ [18, 4, 8, 1, 16, 1]

/-- The decoder as far as `upFrame` goes. -/
def decodeUp (payload : Bytes) : Option Envelope :=
  if payload = upFrame then
    some ⟨1, .writeConfigRequest
      ⟨ascii "adminStatusExt", some { PbValue.initZero with type := 1, int32Val := 1 }⟩⟩
  else none

/-- With nothing but an undecodable frame in between, the same SET leaves `up(1)`; and so it does
where a client gets `up(1)` acknowledged in between, which is what was stored before. -/
theorem no_write_lost_admin :
    (∃ os u', run (fun u i => Subagent.step .shipped decodeTesting u i) adminSubagent
        (undoneSet 0 [.scalar .adminStatusExt (.integer 2)] (fun _ => .none) (fun _ => .none)
          [.frame [] .none] []) = some (os, u') ∧
      NoLostWrite .shipped .adminStatusExt adminSubagent.agent.envs
        (okWrites .adminStatusExt os) u'.agent.envs) ∧
    ∃ os u', run (fun u i => Subagent.step .shipped decodeUp u i) adminSubagent
        (undoneSet 0 [.scalar .adminStatusExt (.integer 2)] (fun _ => .none) (fun _ => .none)
          [.frame upFrame .none] []) = some (os, u') ∧
      okWrites .adminStatusExt os = [.int32 1] ∧
      NoLostWrite .shipped .adminStatusExt adminSubagent.agent.envs
        (okWrites .adminStatusExt os) u'.agent.envs := by
  constructor
  · refine ⟨_, _, rfl, ?_⟩
    refine (no_lost_write_iff .shipped decodeTesting adminSubagent _ 0
      [.scalar .adminStatusExt (.integer 2)] (fun _ => .none) (fun _ => .none) [.frame [] .none] []
      (by decide) (by decide) _ rfl .adminStatusExt (.integer 2) (by simp)).mpr ?_
    show adminSubagent.agent.envs.stored (Scalar.loc .shipped .adminStatusExt) ≠ none
    decide
  · refine ⟨_, _, rfl, by decide, ?_⟩
    refine (no_lost_write_iff .shipped decodeUp adminSubagent _ 0
      [.scalar .adminStatusExt (.integer 2)] (fun _ => .none) (fun _ => .none)
      [.frame upFrame .none] [] (by decide) (by decide) _ rfl .adminStatusExt (.integer 2)
      (by simp)).mpr ?_
    show Scalar.Stash .adminStatusExt .shipped adminSubagent.agent.envs (.int32 1)
    exact Or.inl ⟨_, rfl, by decide⟩

end AgentxSubagent
