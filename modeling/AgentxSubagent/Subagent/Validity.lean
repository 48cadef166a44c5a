import AgentxSubagent.Agent.Bootstrap
import AgentxSubagent.Subagent.Stable

/-!
# The configuration is always valid

Four parts of the subagent write what it keeps: the bootstraps, ACTION and UNDO of a SET, and
the IPC server. Each checks the type and the range on its own, and UNDO checks nothing: it
writes back what RESERVE2 found some turns of the event loop earlier. So validity of what is
stored is not an invariant by itself. `AgentxSubagent.Subagent.Inv` adds what the SETs in
progress carry: values that passed RESERVE1, and stashes of contents that were valid. That this
is enough is an instance of the rule for stable properties
(`AgentxSubagent.Subagent.step_keeps`).

* `AgentxSubagent.Subagent.step_inv`: every turn of the event loop preserves it;
* `AgentxSubagent.reachable_valid`: so from startup on the contents are valid after every
  run.
-/

namespace AgentxSubagent

open Runs

/-! ### What a SET in progress carries -/

/-- The requests of a SET in progress carry nothing that would spoil the contents. A SET with an
error before ACTION will not get that far. -/
def PendingSet.Sound (m : Modes) (p : PendingSet) : Prop :=
  match p.mode with
  | .reserve1 => pduError p.requests = false → ∀ r ∈ p.requests, r.Checked m
  | .reserve2 => pduError p.requests = false →
      ∃ before, Envs.Valid m before ∧ ∀ r ∈ p.requests, r.Stashed m before
  | .action => ∃ before, Envs.Valid m before ∧ ∀ r ∈ p.requests, r.Stashed m before
  | _ => True

/-- **The invariant of the event loop.** -/
structure Subagent.Inv (m : Modes) (u : Subagent) : Prop where
  valid : u.agent.envs.Valid m
  pending : ∀ t p, u.pdus t = some p → p.Sound m

/-! ### The turns -/

section Turns

variable {m : Modes} {pbDecode : Bytes → Option Envelope} {u u' : Subagent}

variable (m) in
/-- **Every writer respects validity.** A valid scalar is not missing, so UNDO makes up no zero. -/
theorem stableAt_valid : StableAt m (ValidAt m) where
  alike := ValidAt.of_readsAlike
  scalar := validAt_scalar
  cell := validAt_cell
  zero s hnone := absurd rfl (hnone.2 s rfl)

/-- The invariant is validity, kept as a property of places. -/
theorem Subagent.inv_iff_keeps : u.Inv m ↔ u.Keeps m (ValidAt m) :=
  ⟨fun h => ⟨h.valid, h.pending⟩, fun h => ⟨h.all, h.pending⟩⟩

/-- **Every turn preserves the invariant.** -/
theorem Subagent.step_inv {i : Input} {o : Option FrameRecord} (h : u.Inv m)
    (hstep : u.step m pbDecode i = some (o, u')) : u'.Inv m :=
  Subagent.inv_iff_keeps.mpr
    (Subagent.step_keeps (stableAt_valid m) (Subagent.inv_iff_keeps.mp h) hstep)

end Turns

/-! ### Reachable states -/

/-- **Reachable configuration is always valid.** Start from contents in which every writable
scalar and cell is missing or holds a value of its type and range, and let both bootstraps
succeed, where no probe for a key that is there fails. After every run of the event loop from
there, over any SETs in any interleaving with IPC frames of any bytes and whatever storage calls
fail, every scalar is present, and every scalar and every cell that is present carries a value of
its type and range. -/
theorem reachable_valid (m : Modes) (pbDecode : Bytes → Option Envelope)
    (fconfig fcache : BootFaults) (hconfig : fconfig.Probes) (hcache : fcache.Probes)
    (envs : Envs) (hbefore : ∀ l, AllowedAt m l (envs.stored l)) (a : Agent)
    (hinit : subagentStorageInit m fconfig fcache envs = (.ok (), a.envs))
    (is : List Input) (os : List (Option FrameRecord)) (u : Subagent)
    (h : run (fun u i => Subagent.step m pbDecode u i) ⟨a, fun _ => none⟩ is = some (os, u)) :
    (∀ s : Scalar, ∃ data, u.agent.envs.stored (s.loc m) = some data ∧ Holds s.InRange data) ∧
      ∀ (c : PortColumn) (row : UInt32) (data : Bytes),
        u.agent.envs.stored (c.cellLoc m [row]) = some data → Holds c.InRange data := by
  have hstart : Subagent.Inv m ⟨a, fun _ => none⟩ :=
    ⟨valid_of_subagentStorageInit hconfig hcache hbefore hinit, nofun⟩
  have hinv : u.Inv m :=
    run_invariant (I := fun u => u.Inv m) (fun _ _ _ _ _ hu hstep => Subagent.step_inv hu hstep)
      hstart h
  constructor
  · intro s
    obtain ⟨hallowed, hpresent⟩ := hinv.valid (s.loc m)
    obtain ⟨data, hdata⟩ := Option.ne_none_iff_exists'.mp (hpresent s rfl)
    exact ⟨data, hdata, (hallowed data hdata).1 s rfl⟩
  · intro c row data hdata
    exact ((hinv.valid (c.cellLoc m [row])).1 data hdata).2 c row rfl

/-- The subagent after a startup from nothing. -/
def firstBoot : Agent := ⟨(subagentStorageInit .shipped .none .none fun _ => ∅).2, .clear, []⟩

/-- A SET of `adminStatusExt` that is undone because its write ran into a full map, with a frame
in between. -/
def undoneAdminSet : List Input :=
  [.reserve1 0 [.scalar .adminStatusExt (.integer 2)], .phase 0 .reserve2 fun _ => .none,
    .phase 0 .action fun _ => ⟨mapFullFaults, .none⟩, .frame [] .none,
    .phase 0 .undo fun _ => .none]

/-- After a startup from nothing and such a SET, the scalars are valid. -/
theorem reachable_valid_first_boot :
    ∃ os u, run (fun u i => Subagent.step .shipped (fun _ => none) u i)
        ⟨firstBoot, fun _ => none⟩ undoneAdminSet = some (os, u) ∧
      ∀ s : Scalar, ∃ data, u.agent.envs.stored (s.loc .shipped) = some data ∧
        Holds s.InRange data := by
  obtain ⟨os, u, hrun⟩ : ∃ os u, run (fun u i => Subagent.step .shipped (fun _ => none) u i)
      ⟨firstBoot, fun _ => none⟩ undoneAdminSet = some (os, u) := ⟨_, _, rfl⟩
  have hempty : ∀ l, AllowedAt .shipped l (Envs.stored (fun _ => ∅) l) := by
    intro l data hdata
    exact absurd hdata (by simp [Envs.stored])
  have hinit : subagentStorageInit .shipped .none .none (fun _ => ∅) = (.ok (), firstBoot.envs) :=
    Prod.ext rfl rfl
  exact ⟨os, u, hrun, (reachable_valid .shipped (fun _ => none) .none .none (fun _ => rfl)
    (fun _ => rfl) (fun _ => ∅) hempty firstBoot hinit undoneAdminSet os u hrun).1⟩

end AgentxSubagent
