import AgentxSubagent.Lib.Descriptors
import AgentxSubagent.Storage.Envs

/-!
# Opening and closing an environment

`storage_env_open` and `storage_env_close` of `src/storage_lmdb.c`. Opening takes nine steps, and
behind each that fails the `MDB_env` has to be closed again by hand, and the transaction in which
the database is opened has to be ended.

An `MDB_env` is a handle like a descriptor: it is given out once, it is closed once, and in between
one pointer holds it. So the books of `Descriptors.Owned` are kept for them too, with the number of
an environment in the place of the number of a descriptor.

* `AgentxSubagent.MdbHandles.Inv.storageEnvOpen`: a call that fails leaves nothing open, and one
  that succeeds leaves one environment more, held by its caller.
-/

namespace AgentxSubagent

open Descriptors

/-- The flags of `storage_env_open`. -/
structure EnvFlags where
  nosync : Bool
  readonly : Bool
  nosubdir : Bool

/-- `STORAGE_ENV_PERSISTENT`. -/
def storageEnvPersistent : EnvFlags := ⟨false, false, false⟩

/-- `STORAGE_ENV_NOSYNC`. -/
def storageEnvNosync : EnvFlags := ⟨true, false, false⟩

/-- What fails in `storage_env_open`; `mkdir` fails with another error than `EEXIST`. -/
structure OpenFaults where
  mkdir : Bool
  create : Option MdbErr
  setMapsize : Option MdbErr
  setMaxreaders : Option MdbErr
  envOpen : Option MdbErr
  txnBegin : Option MdbErr
  dbiOpen : Option MdbErr
  commit : Option MdbErr
  calloc : Bool

/-- Nothing fails. -/
def OpenFaults.none : OpenFaults :=
  ⟨false, Option.none, Option.none, Option.none, Option.none, Option.none, Option.none, Option.none,
    false⟩

/-- A `storage_env_t`: the number of its `MDB_env`, and what it was opened with. -/
structure EnvHandle where
  env : ℤ
  flags : EnvFlags
  readonly : Bool

/-- What `storage_txn_begin` looks at. -/
def EnvHandle.storageEnv (e : EnvHandle) : StorageEnv := ⟨e.readonly⟩

/-- **What the process has of LMDB**: the environments, each with the number it was made under, and
how many transactions are open. -/
structure MdbHandles where
  table : Table
  txns : ℕ

namespace MdbHandles

/-- `mdb_env_create`. -/
def envCreate (h : MdbHandles) : MdbHandles := { h with table := h.table.accept h.table.accepted }

/-- `mdb_env_close`. -/
def envClose (h : MdbHandles) (env : ℤ) : MdbHandles := { h with table := h.table.close env }

/-- `mdb_txn_begin`. -/
def txnBegin (h : MdbHandles) : MdbHandles := { h with txns := h.txns + 1 }

/-- `mdb_txn_abort` or `mdb_txn_commit`, which ends the transaction also if it fails. -/
def txnEnd (h : MdbHandles) : MdbHandles := { h with txns := h.txns - 1 }

/-- `storage_env_open`. -/
def storageEnvOpen (f : OpenFaults) (path : Option Bytes) (flags : EnvFlags) (h : MdbHandles) :
    Except StorageErr EnvHandle × MdbHandles :=
  match path with
  | none => (.error .inval, h)
  | some _ =>
    if !flags.nosubdir && f.mkdir then (.error .io, h)
    else
      match f.create with
      | some rc => (.error (mapMdbRc rc), h)
      | none =>
        let menv : ℤ := h.table.accepted
        let h := h.envCreate
        match f.setMapsize with
        | some rc => (.error (mapMdbRc rc), h.envClose menv)
        | none =>
          match f.setMaxreaders with
          | some rc => (.error (mapMdbRc rc), h.envClose menv)
          | none =>
            match f.envOpen with
            | some rc => (.error (mapMdbRc rc), h.envClose menv)
            | none =>
              match f.txnBegin with
              | some rc => (.error (mapMdbRc rc), h.envClose menv)
              | none =>
                let h := h.txnBegin
                match f.dbiOpen with
                | some rc => (.error (mapMdbRc rc), h.txnEnd.envClose menv)
                | none =>
                  let h := h.txnEnd
                  match if flags.readonly then none else f.commit with
                  | some rc => (.error (mapMdbRc rc), h.envClose menv)
                  | none =>
                    if f.calloc then (.error .io, h.envClose menv)
                    else (.ok ⟨menv, flags, flags.readonly⟩, h)

/-- `storage_env_close`. -/
def storageEnvClose (env : Option EnvHandle) (h : MdbHandles) : MdbHandles :=
  match env with
  | none => h
  | some env => h.envClose env.env

/-! ### The books -/

section Books

variable {f : OpenFaults} {path : Option Bytes} {flags : EnvFlags} {h : MdbHandles}

/-- **What `storage_env_open` can do**: nothing; make an environment and close it again; or make
one and return it. -/
theorem storageEnvOpen_cases (f : OpenFaults) (path : Option Bytes) (flags : EnvFlags)
    (h : MdbHandles) :
    (∃ rc, h.storageEnvOpen f path flags = (.error rc, h)) ∨
      (∃ rc, h.storageEnvOpen f path flags =
        (.error rc, h.envCreate.envClose h.table.accepted)) ∨
      h.storageEnvOpen f path flags =
        (.ok ⟨h.table.accepted, flags, flags.readonly⟩, h.envCreate) := by
  rcases path with _ | path
  · exact Or.inl ⟨_, rfl⟩
  rw [storageEnvOpen]
  by_cases hmkdir : (!flags.nosubdir && f.mkdir) = true
  · exact Or.inl ⟨_, if_pos hmkdir⟩
  rw [if_neg hmkdir]
  rcases f.create with _ | rc
  · right
    rcases f.setMapsize with _ | rc
    · rcases f.setMaxreaders with _ | rc
      · rcases f.envOpen with _ | rc
        · rcases f.txnBegin with _ | rc
          · rcases f.dbiOpen with _ | rc
            · -- the transaction is over, whatever comes of it
              have hended : h.envCreate.txnBegin.txnEnd = h.envCreate := rfl
              simp only [hended]
              rcases (if flags.readonly then none else f.commit : Option MdbErr) with _ | rc
              · simp only
                split_ifs
                · exact Or.inl ⟨_, rfl⟩
                · exact Or.inr rfl
              · exact Or.inl ⟨_, rfl⟩
            · exact Or.inl ⟨_, rfl⟩
          · exact Or.inl ⟨_, rfl⟩
        · exact Or.inl ⟨_, rfl⟩
      · exact Or.inl ⟨_, rfl⟩
    · exact Or.inl ⟨_, rfl⟩
  · exact Or.inl ⟨_, rfl⟩

/-- **The books of the environments**: the holders hold them, each under a number that has been
given out, and no transaction is open. -/
structure Inv {ι : Type} (hold : ι → Option ℤ) (h : MdbHandles) : Prop where
  owned : Owned h.table hold
  numbered : ∀ env, h.table.refers env ≠ none → env < h.table.accepted
  txns : h.txns = 0

variable {ι : Type} [DecidableEq ι] {hold : ι → Option ℤ} {i : ι}

/-- A new environment, in a place that was free. -/
theorem Inv.envCreate (hinv : h.Inv hold) (hi : hold i = none) :
    h.envCreate.Inv (Function.update hold i (some (h.table.accepted : ℤ))) := by
  have hunused : h.table.refers h.table.accepted = none := by
    by_contra hne
    exact absurd (hinv.numbered _ hne) (lt_irrefl _)
  refine ⟨hinv.owned.accept hunused hi, fun env henv => ?_, hinv.txns⟩
  show env < ((h.table.accepted + 1 : ℕ) : ℤ)
  by_cases hnew : env = h.table.accepted
  · omega
  · have hlt := hinv.numbered env fun hnone => henv ((Function.update_of_ne hnew _ _).trans hnone)
    omega

/-- The environment of a place is closed. -/
theorem Inv.envClose (hinv : h.Inv hold) {env : ℤ} (hi : hold i = some env) :
    (h.envClose env).Inv (Function.update hold i none) := by
  obtain ⟨n, hn⟩ := hinv.owned.held i env hi
  have hclosed := Table.close_of_connection hn
  refine ⟨hinv.owned.close hi, fun env' henv' => ?_, hinv.txns⟩
  have haccepted : (h.table.close env).accepted = h.table.accepted := by rw [hclosed]
  show env' < ((h.table.close env).accepted : ℤ)
  rw [haccepted]
  refine hinv.numbered env' fun hnone => henv' ?_
  show (h.table.close env).refers env' = none
  rw [hclosed]
  by_cases heq : env' = env
  · rw [heq]
    exact Function.update_self ..
  · exact (Function.update_of_ne heq _ _).trans hnone

/-- **`storage_env_open`** into a place that is free: a call that fails leaves the books as they
were, and after one that succeeds the place holds the environment. -/
theorem Inv.storageEnvOpen (hinv : h.Inv hold) (hi : hold i = none) (f : OpenFaults)
    (path : Option Bytes) (flags : EnvFlags) :
    (∀ rc h', h.storageEnvOpen f path flags = (.error rc, h') → h'.Inv hold) ∧
      ∀ e h', h.storageEnvOpen f path flags = (.ok e, h') → e.storageEnv = ⟨flags.readonly⟩ ∧
        h'.Inv (Function.update hold i (some e.env)) := by
  have hcreate := hinv.envCreate hi
  obtain ⟨rc, heq⟩ | ⟨rc, heq⟩ | heq := storageEnvOpen_cases f path flags h
  · constructor
    · rintro rc' h' herr
      obtain rfl := congrArg Prod.snd (heq.symm.trans herr)
      exact hinv
    · rintro e h' hok
      exact absurd (congrArg Prod.fst (heq.symm.trans hok)) (by simp)
  · constructor
    · rintro rc' h' herr
      obtain rfl := congrArg Prod.snd (heq.symm.trans herr)
      have hclose := hcreate.envClose (Function.update_self ..)
      rwa [Function.update_idem, ← hi, Function.update_eq_self] at hclose
    · rintro e h' hok
      exact absurd (congrArg Prod.fst (heq.symm.trans hok)) (by simp)
  · constructor
    · rintro rc' h' herr
      exact absurd (congrArg Prod.fst (heq.symm.trans herr)) (by simp)
    · rintro e h' hok
      obtain ⟨he, rfl⟩ := Prod.mk.inj (heq.symm.trans hok)
      obtain rfl := Except.ok.inj he
      exact ⟨rfl, hcreate⟩

end Books

end MdbHandles

end AgentxSubagent
