import AgentxSubagent.Storage.Handle
import AgentxSubagent.Subagent.MainLoop
import AgentxSubagent.Subagent.Validity

/-!
# `main()`

`main()` of `src/main.c` from its start to its end, around the loop of
`AgentxSubagent.Process.turn`: the two LMDB environments are opened and seeded, the IPC server is
started, the loop is left when a signal asks for it or `select()` fails, and what was opened is
closed. There are four ways out, and on each of them another part of it has been done. The usage
text and the exits of the option parsing come before that, with nothing opened yet, and are left
out.

A life of the subagent is a run of `main()`, or one that ends when the process is killed between two
turns of the loop. The next life finds in `config.lmdb` what this one has left, and in `cache.lmdb`
too unless its file system was emptied.

* `AgentxSubagent.main_is_the_event_loop`: from the start of its loop on, the subagent is where a
  run of the event loop leads, over the frames of the bytes that were received.
* `AgentxSubagent.main_leaves_nothing`: on each way out, every environment and every connection that
  was opened has been closed once.
* `AgentxSubagent.every_life_is_valid`: over any number of lives, the configuration is valid in
  every state of every loop.
-/

namespace AgentxSubagent

open Descriptors Runs

/-! ### The environments -/

/-- **The statics of `main.c`**, `config_env` and `cache_env`, with the environments that have been
opened and what the two databases hold. -/
structure Storage where
  mdb : MdbHandles
  env : EnvId → Option EnvHandle
  envs : Envs

/-- What fails in `subagent_storage_init`. -/
structure InitFaults where
  opening : EnvId → OpenFaults
  boot : EnvId → BootFaults

/-- No probe of a bootstrap fails. -/
def InitFaults.Probes (f : InitFaults) : Prop := ∀ id, (f.boot id).Probes

/-- A path: the argument, else the environment variable, else the default. -/
def pathOrDefault (arg var : Option Bytes) (default : Bytes) : Bytes :=
  match arg with
  | some (b :: path) => b :: path
  | _ =>
    match var with
    | some (b :: path) => b :: path
    | _ => default

/-- `SUBAGENT_CONFIG_DB_DEFAULT`. -/
def subagentConfigDbDefault : Bytes := ascii "/var/lib/agentx-subagent/config.lmdb"

/-- `SUBAGENT_CACHE_DB_DEFAULT`. -/
def subagentCacheDbDefault : Bytes := ascii "/run/agentx-subagent/cache.lmdb"

/-- `IPC_SOCKET_PATH_DEFAULT`. -/
def ipcSocketPathDefault : Bytes := ascii "/run/agentx-subagent/ipc.sock"

/-- The options of the command line and the variables of the environment that name a path. -/
structure Paths where
  config : Option Bytes
  cache : Option Bytes
  ipc : Option Bytes
  configVar : Option Bytes
  cacheVar : Option Bytes
  ipcVar : Option Bytes

namespace Paths

/-- Where `config.lmdb` is. -/
def configPath (p : Paths) : Bytes := pathOrDefault p.config p.configVar subagentConfigDbDefault

/-- Where `cache.lmdb` is. -/
def cachePath (p : Paths) : Bytes := pathOrDefault p.cache p.cacheVar subagentCacheDbDefault

/-- Where the socket is. -/
def ipcPath (p : Paths) : Bytes := pathOrDefault p.ipc p.ipcVar ipcSocketPathDefault

end Paths

namespace Storage

/-- The environment a pointer holds. -/
def hold (s : Storage) (id : EnvId) : Option ℤ := (s.env id).map EnvHandle.env

/-- A pointer and the environments are replaced. -/
def setEnv (s : Storage) (id : EnvId) (env : Option EnvHandle) (mdb : MdbHandles) : Storage :=
  { s with mdb, env := Function.update s.env id env }

/-- The content of a database is replaced. -/
def setDb (s : Storage) (id : EnvId) (db : Lmdb) : Storage :=
  { s with envs := Function.update s.envs id db }

/-- `storage_env_close`, and the pointer is set to `NULL`. -/
def closeEnv (s : Storage) (id : EnvId) : Storage :=
  s.setEnv id none (s.mdb.storageEnvClose (s.env id))

/-- `subagent_storage_init`, and whether it succeeds. -/
def subagentStorageInit (m : Modes) (f : InitFaults) (paths : Paths) (s : Storage) :
    Bool × Storage :=
  match s.mdb.storageEnvOpen (f.opening .config) (some paths.configPath) storageEnvPersistent with
  | (.error _, mdb) => (false, s.setEnv .config none mdb)
  | (.ok config, mdb) =>
    let s := s.setEnv .config (some config) mdb
    match configBootstrapDefaults m (f.boot .config) (.idle (s.envs .config)) with
    | (.error _, e) => (false, (s.setDb .config e.committed).closeEnv .config)
    | (.ok _, e) =>
      let s := s.setDb .config e.committed
      match s.mdb.storageEnvOpen (f.opening .cache) (some paths.cachePath) storageEnvNosync with
      | (.error _, mdb) => (false, (s.setEnv .cache none mdb).closeEnv .config)
      | (.ok cache, mdb) =>
        let s := s.setEnv .cache (some cache) mdb
        match cacheBootstrapDefaults m (f.boot .cache) false (.idle (s.envs .cache)) with
        | (.error _, e) => (false, ((s.setDb .cache e.committed).closeEnv .cache).closeEnv .config)
        | (.ok _, e) => (true, s.setDb .cache e.committed)

/-- `subagent_storage_shutdown`. -/
def subagentStorageShutdown (s : Storage) : Storage := (s.closeEnv .cache).closeEnv .config

end Storage

/-! ### The way in and the ways out -/

/-- The machine: the descriptors of the process and the paths, those of the descriptors that are
neither the server's nor a client's, and the environments. -/
structure Machine where
  host : Host
  others : ℤ → Bool
  storage : Storage

/-- A descriptor that net-snmp or LMDB opens or closes. -/
inductive OwnDescriptor
  | opens (fd : ℤ)
  | closes (fd : ℤ)

/-- What a run of `main()` meets before its loop: what `install_signal_handlers` and
`subagent_storage_init` and `ipc_server_start` fail in, and the descriptors that are opened and
closed in between; `closing` are those of `snmp_shutdown` if the loop is not reached. -/
structure Boot where
  paths : Paths
  sigaction : Bool
  initAgent : List OwnDescriptor
  init : InitFaults
  initSnmp : List OwnDescriptor
  start : StartFaults
  umask : ℕ
  closing : List OwnDescriptor

/-- What a run of `main()` meets after its loop: what `snmp_shutdown` does, what the paths name by
then, and whether the socket can be unlinked; `closing` are the descriptors of LMDB. -/
structure Halt where
  shutdown : List NetEvent
  entries : Bytes → PathEntry
  unlink : Bool
  closing : List OwnDescriptor

namespace Machine

/-- A new process: what it inherits is open, and both pointers are `NULL`. -/
def start (inherited : ℤ → Bool) (entries : Bytes → PathEntry) (envs : Envs) : Machine where
  host := ⟨⟨fun fd => if inherited fd then some .other else none, 0, fun _ => 0, 0⟩, entries⟩
  others := inherited
  storage := ⟨⟨⟨fun _ => none, 0, fun _ => 0, 0⟩, 0⟩, fun _ => none, envs⟩

/-- A descriptor is opened or closed. -/
def own (w : Machine) : OwnDescriptor → Option (Unit × Machine)
  | .opens fd =>
    if fd < 0 ∨ w.host.fds.refers fd ≠ none then none
    else some ((), { w with
      host := { w.host with fds := w.host.fds.setOther fd (some .other) }
      others := Function.update w.others fd true })
  | .closes fd =>
    if w.host.fds.refers fd = some .other then
      some ((), { w with
        host := { w.host with fds := w.host.fds.setOther fd none }
        others := Function.update w.others fd false })
    else none

/-- Some of them. -/
def owns (ds : List OwnDescriptor) (w : Machine) : Option Machine :=
  (run own w ds).map Prod.snd

/-- The agent a process starts with: no alarm has been raised. -/
def agent (w : Machine) : Agent := ⟨w.storage.envs, .clear, []⟩

/-- **`main()` up to its loop**: the server it has started, or none if it returns 1. The kernel
gives `socket()` a number that is not open. -/
def boot (m : Modes) (b : Boot) (w : Machine) : Option (Option Listener × Machine) :=
  if b.sigaction then some (none, w)
  else
    (w.owns b.initAgent).bind fun w =>
      match w.storage.subagentStorageInit m b.init b.paths with
      | (false, storage) => (owns b.closing { w with storage }).map fun w => (none, w)
      | (true, storage) =>
        (owns b.initSnmp { w with storage }).bind fun w =>
          if b.start.socket.any fun fd => decide (fd < 0) || (w.host.fds.refers fd).isSome then none
          else
            match w.host.ipcServerStart b.start b.umask w.agent (some b.paths.ipcPath) with
            | (none, host) =>
              let w := { w with host, storage := w.storage.subagentStorageShutdown }
              (owns b.closing w).map fun w => (none, w)
            | (some l, host) => some (some l, { w with host })

/-- The process at the start of its loop. -/
def process (w : Machine) (l : Listener) : Process := ⟨l.server, w.others, fun _ => none⟩

section Halt

variable (pb : PbCodec) (m : Modes) (f : ℕ → FrameFaults)

/-- **`main()` after its loop**, in which the process `p` is left. -/
def halt (h : Halt) (l : Listener) (p : Process) (w : Machine) : Option Machine :=
  (p.snmpRead pb m f h.shutdown).bind fun p =>
    owns h.closing
      { host := Host.ipcServerStop h.unlink ⟨p.server, l.sockPath⟩ h.entries
        others := p.others
        storage := { w.storage with envs := p.server.agent.envs }.subagentStorageShutdown }

/-- **`main()`**, with what it returns; its loop is left after the turns of `ws`. -/
def main (b : Boot) (ws : List Wakeup) (h : Halt) (w : Machine) : Option (ℕ × Machine) :=
  (w.boot m b).bind fun r =>
    match r.1 with
    | none => some (1, r.2)
    | some l =>
      (run (fun p w => Process.turn pb m f p w) (r.2.process l) ws).bind fun p =>
        (r.2.halt pb m f h l p.2).map fun w => (0, w)

end Halt

end Machine

/-! ### The books of the environments -/

namespace Storage

section Books

variable {m : Modes} {f : InitFaults} {paths : Paths} {s s' : Storage} {id : EnvId}

/-- Each pointer that is not `NULL` is of an environment that is open, and there are no others. -/
def Inv (s : Storage) : Prop := s.mdb.Inv s.hold

theorem hold_setEnv (s : Storage) (id : EnvId) (env : Option EnvHandle) (mdb : MdbHandles) :
    (s.setEnv id env mdb).hold = Function.update s.hold id (env.map EnvHandle.env) := by
  funext id'
  by_cases hid : id' = id
  · rw [hid, Function.update_self, hold, setEnv]
    simp only [Function.update_self]
  · rw [Function.update_of_ne hid, hold, hold, setEnv]
    simp only [Function.update_of_ne hid]

/-- **`storage_env_close`** closes what the pointer holds. -/
theorem Inv.closeEnv (h : s.Inv) (id : EnvId) : (s.closeEnv id).Inv := by
  rw [Inv, Storage.closeEnv, hold_setEnv]
  rcases henv : s.env id with _ | e
  · have hnone : s.hold id = none := by rw [hold, henv]; rfl
    have hsame : Function.update s.hold id none = s.hold := by rw [← hnone, Function.update_eq_self]
    rw [Option.map_none, hsame]
    exact h
  · exact MdbHandles.Inv.envClose h (by rw [hold, henv]; rfl)

/-- What the databases hold does not matter. -/
theorem Inv.setDb (h : s.Inv) (id : EnvId) (db : Lmdb) : (s.setDb id db).Inv := h

theorem env_setEnv (s : Storage) (id id' : EnvId) (env : Option EnvHandle) (mdb : MdbHandles) :
    (s.setEnv id env mdb).env id' = if id' = id then env else s.env id' :=
  Function.update_apply ..

theorem env_closeEnv (s : Storage) (id id' : EnvId) :
    (s.closeEnv id).env id' = if id' = id then none else s.env id' :=
  env_setEnv ..

/-- **`subagent_storage_shutdown`** leaves no environment open. -/
theorem Inv.subagentStorageShutdown (h : s.Inv) :
    s.subagentStorageShutdown.Inv ∧ (∀ id, s.subagentStorageShutdown.env id = none) ∧
      s.subagentStorageShutdown.envs = s.envs := by
  refine ⟨(h.closeEnv .cache).closeEnv .config, fun id => ?_, rfl⟩
  rw [Storage.subagentStorageShutdown, env_closeEnv, env_closeEnv]
  cases id <;> rfl

/-- **`storage_env_open`** into a pointer that is `NULL`. -/
theorem Inv.setEnv (h : s.Inv) (hnull : s.env id = none) (g : OpenFaults) (path : Bytes)
    (flags : EnvFlags) :
    (∀ rc mdb, s.mdb.storageEnvOpen g (some path) flags = (.error rc, mdb) →
      (s.setEnv id none mdb).Inv) ∧
    ∀ e mdb, s.mdb.storageEnvOpen g (some path) flags = (.ok e, mdb) →
      (s.setEnv id (some e) mdb).Inv ∧ e.storageEnv = ⟨flags.readonly⟩ := by
  have hnone : s.hold id = none := by rw [hold, hnull]; rfl
  obtain ⟨herror, hok⟩ := MdbHandles.Inv.storageEnvOpen h hnone g (some path) flags
  constructor
  · intro rc mdb heq
    rw [Inv, hold_setEnv, Option.map_none, ← hnone, Function.update_eq_self]
    exact herror rc mdb heq
  · intro e mdb heq
    obtain ⟨hreadonly, hinv⟩ := hok e mdb heq
    refine ⟨?_, hreadonly⟩
    rw [Inv, hold_setEnv]
    exact hinv

/-- A bootstrap that fails leaves the database. -/
theorem bootstrap_error {g : BootFaults} {seeds : List Seed} {db : Lmdb} {rc : StorageErr}
    {e : MdbEnv} (h : bootstrap g false seeds (.idle db) = (.error rc, e)) : e.committed = db := by
  obtain ⟨-, rc', herr⟩ | ⟨-, txn, -, hok⟩ := bootstrap_cases g seeds db
  · obtain rfl : MdbEnv.idle db = e := congrArg Prod.snd (herr.symm.trans h)
    rfl
  · exact absurd (congrArg Prod.fst (hok.symm.trans h)) (by simp)

/-- One of the two environments is opened and seeded, and closed again if that fails. -/
def openAndSeed (id : EnvId) (g : OpenFaults) (path : Bytes) (flags : EnvFlags) (b : BootFaults)
    (seeds : List Seed) (s : Storage) : Bool × Storage :=
  match s.mdb.storageEnvOpen g (some path) flags with
  | (.error _, mdb) => (false, s.setEnv id none mdb)
  | (.ok env, mdb) =>
    let s := s.setEnv id (some env) mdb
    match bootstrap b false seeds (.idle (s.envs id)) with
    | (.error _, e) => (false, (s.setDb id e.committed).closeEnv id)
    | (.ok _, e) => (true, s.setDb id e.committed)

/-- `subagent_storage_init` does that twice, and takes the first back if the second fails. -/
theorem subagentStorageInit_eq (m : Modes) (f : InitFaults) (paths : Paths) (s : Storage) :
    s.subagentStorageInit m f paths =
      match s.openAndSeed .config (f.opening .config) paths.configPath storageEnvPersistent
        (f.boot .config) (bootSeeds m .config) with
      | (false, s) => (false, s)
      | (true, s) =>
        match s.openAndSeed .cache (f.opening .cache) paths.cachePath storageEnvNosync
          (f.boot .cache) (bootSeeds m .cache) with
        | (false, s) => (false, s.closeEnv .config)
        | (true, s) => (true, s) := by
  rw [subagentStorageInit, openAndSeed]
  rcases s.mdb.storageEnvOpen (f.opening .config) (some paths.configPath) storageEnvPersistent with
    ⟨rc | config, mdb⟩
  · rfl
  simp only [configBootstrapDefaults]
  rcases bootstrap (f.boot .config) false (bootSeeds m .config)
    (.idle ((s.setEnv .config (some config) mdb).envs .config)) with ⟨rc | u, e⟩
  · rfl
  simp only [openAndSeed]
  rcases ((s.setEnv .config (some config) mdb).setDb .config e.committed).mdb.storageEnvOpen
    (f.opening .cache) (some paths.cachePath) storageEnvNosync with ⟨rc | cache, mdb'⟩
  · rfl
  simp only [cacheBootstrapDefaults]
  rcases bootstrap (f.boot .cache) false (bootSeeds m .cache)
    (.idle ((((s.setEnv .config (some config) mdb).setDb .config e.committed).setEnv .cache
      (some cache) mdb').envs .cache)) with ⟨rc | u', e'⟩
  · rfl
  · rfl

/-- **What opening and seeding can do**: nothing is left of it, or the pointer holds an open
environment that has been seeded. -/
theorem openAndSeed_cases (h : s.Inv) (hnull : s.env id = none) (g : OpenFaults) (path : Bytes)
    (flags : EnvFlags) (b : BootFaults) (seeds : List Seed) :
    (∃ s', s.openAndSeed id g path flags b seeds = (false, s') ∧ s'.Inv ∧ s'.env = s.env ∧
      s'.envs = s.envs) ∨
    ∃ s' env e, s.openAndSeed id g path flags b seeds = (true, s') ∧ s'.Inv ∧
      s'.env = Function.update s.env id (some env) ∧ env.storageEnv = ⟨flags.readonly⟩ ∧
      bootstrap b false seeds (.idle (s.envs id)) = (.ok (), e) ∧
      s'.envs = Function.update s.envs id e.committed := by
  obtain ⟨herror, hok⟩ := h.setEnv hnull g path flags
  rw [openAndSeed]
  rcases hopen : s.mdb.storageEnvOpen g (some path) flags with ⟨rc | env, mdb⟩
  · refine Or.inl ⟨_, rfl, herror rc mdb hopen, ?_, rfl⟩
    exact (congrArg (Function.update s.env id) hnull.symm).trans (Function.update_eq_self ..)
  obtain ⟨hinv, hreadonly⟩ := hok env mdb hopen
  have henvs : (s.setEnv id (some env) mdb).envs = s.envs := rfl
  simp only [henvs]
  rcases hboot : bootstrap b false seeds (.idle (s.envs id)) with ⟨rc | u, e⟩
  · refine Or.inl ⟨_, rfl, (hinv.setDb id e.committed).closeEnv id, ?_, ?_⟩
    · show Function.update (Function.update s.env id _) id none = s.env
      rw [Function.update_idem, ← hnull, Function.update_eq_self]
    · show Function.update s.envs id e.committed = s.envs
      rw [bootstrap_error hboot, Function.update_eq_self]
  · exact Or.inr ⟨_, env, e, rfl, hinv.setDb id e.committed, rfl, hreadonly, rfl, rfl⟩

/-- **What `subagent_storage_init` can do.** If it fails, no environment is open, and `config.lmdb`
may have been seeded. If it succeeds, both are open for writing, and both have been seeded. -/
theorem subagentStorageInit_cases (m : Modes) (f : InitFaults) (paths : Paths) (h : s.Inv)
    (hnull : ∀ id, s.env id = none) :
    (∃ s', s.subagentStorageInit m f paths = (false, s') ∧ s'.Inv ∧ (∀ id, s'.env id = none) ∧
      (s'.envs = s.envs ∨ ∃ e, s'.envs = Function.update s.envs .config e.committed ∧
        configBootstrapDefaults m (f.boot .config) (.idle (s.envs .config)) = (.ok (), e))) ∨
    ∃ s', s.subagentStorageInit m f paths = (true, s') ∧ s'.Inv ∧
      (∀ id, ∃ e, s'.env id = some e ∧ e.storageEnv = rwEnv) ∧
      AgentxSubagent.subagentStorageInit m (f.boot .config) (f.boot .cache) s.envs =
        (.ok (), s'.envs) := by
  rw [subagentStorageInit_eq]
  obtain ⟨s₁, hconfig, hinv₁, henv₁, henvs₁⟩ |
      ⟨s₁, config, e, hconfig, hinv₁, henv₁, hreadonly, hboot, henvs₁⟩ :=
    openAndSeed_cases h (hnull .config) (f.opening .config) paths.configPath storageEnvPersistent
      (f.boot .config) (bootSeeds m .config)
  · rw [hconfig]
    exact Or.inl ⟨s₁, rfl, hinv₁, fun id => by rw [henv₁, hnull], Or.inl henvs₁⟩
  rw [hconfig]
  have hnull₁ : s₁.env .cache = none := by
    rw [henv₁]
    exact hnull .cache
  have hcachedb : s₁.envs .cache = s.envs .cache := by
    rw [henvs₁]
    rfl
  obtain ⟨s₂, hcache, hinv₂, henv₂, henvs₂⟩ |
      ⟨s₂, cache, e', hcache, hinv₂, henv₂, hreadonly', hboot', henvs₂⟩ :=
    openAndSeed_cases hinv₁ hnull₁ (f.opening .cache) paths.cachePath storageEnvNosync
      (f.boot .cache) (bootSeeds m .cache)
  · simp only [hcache]
    refine Or.inl ⟨_, rfl, hinv₂.closeEnv .config, fun id => ?_, Or.inr ⟨e, ?_, hboot⟩⟩
    · rw [env_closeEnv, henv₂]
      cases id with
      | config => rfl
      | cache => exact hnull₁
    · exact henvs₂.trans henvs₁
  · simp only [hcache]
    refine Or.inr ⟨s₂, rfl, hinv₂, fun id => ?_, ?_⟩
    · rw [henv₂, henv₁]
      cases id with
      | config => exact ⟨config, rfl, hreadonly⟩
      | cache => exact ⟨cache, rfl, hreadonly'⟩
    · rw [hcachedb] at hboot'
      rw [AgentxSubagent.subagentStorageInit, subagentStorageInitOf, configBootstrapDefaultsOf,
        show bootSeedsOf tableRowsPortConfigTable m .config = bootSeeds m .config from rfl, hboot]
      simp only [cacheBootstrapDefaultsOf]
      rw [show bootSeedsOf tableRowsPortConfigTable m .cache = bootSeeds m .cache from rfl, hboot',
        henvs₂, henvs₁]

end Books

end Storage

/-! ### The books of the process -/

namespace Machine

/-- What is open is net-snmp's or LMDB's, and every connection has been closed. -/
structure Tidy (w : Machine) : Prop where
  clean : w.host.Clean
  others : ∀ fd, w.host.fds.refers fd = some .other ↔ w.others fd = true

/-- **Nothing is open** that `main()` has opened. -/
structure Closed (w : Machine) : Prop where
  tidy : w.Tidy
  storage : w.storage.Inv
  null : ∀ id, w.storage.env id = none

/-- **What the loop starts with**: a server with no client that listens at its path, the two
environments, and a subagent that has raised no alarm. -/
structure Running (w : Machine) (path : Bytes) (fd : ℤ) (l : Listener) : Prop where
  listens : 0 ≤ fd
  inv : (w.process l).Inv fd
  sockPath : l.sockPath = path
  agent : l.server.agent = w.agent
  handled : ∀ n, l.server.handled n = []
  storage : w.storage.Inv
  opened : ∀ id, ∃ e, w.storage.env id = some e ∧ e.storageEnv = rwEnv

section Books

variable {pb : PbCodec} {m : Modes} {f : ℕ → FrameFaults} {w w' : Machine} {b : Boot} {h : Halt}
  {l : Listener} {fd : ℤ}

theorem closed_start (inherited : ℤ → Bool) (entries : Bytes → PathEntry) (envs : Envs) :
    (start inherited entries envs).Closed := by
  refine ⟨⟨Owned.start (fun fd n => ?_) rfl (fun _ => rfl) rfl, fun fd => ?_⟩, ?_, fun _ => rfl⟩
  · show (if inherited fd then some Object.other else none) ≠ _
    split_ifs <;> simp
  · show (if inherited fd then some Object.other else none) = _ ↔ inherited fd = true
    split_ifs with hfd <;> simp [hfd]
  · have hno : ∀ (env : ℤ) (n : ℕ), (none : Option Object) ≠ some (.connection n) := by simp
    exact ⟨Owned.start hno rfl (fun _ => rfl) rfl, fun _ henv => absurd rfl henv, rfl⟩

/-- Descriptors of net-snmp and LMDB. -/
theorem Tidy.own (ht : w.Tidy) {d : OwnDescriptor} {u : Unit} (hown : w.own d = some (u, w')) :
    w'.Tidy ∧ w'.storage = w.storage ∧ w'.host.entries = w.host.entries := by
  cases d with
  | opens fd =>
    rw [Machine.own] at hown
    split_ifs at hown with hbad
    obtain rfl : _ = w' := congrArg Prod.snd (Option.some.inj hown)
    rw [not_or, not_lt, not_not] at hbad
    refine ⟨⟨ht.clean.setOther (by simp [hbad.2]) (by simp), fun fd' => ?_⟩, rfl, rfl⟩
    show Function.update w.host.fds.refers fd _ fd' = _ ↔ Function.update w.others fd true fd' = _
    by_cases hfd : fd' = fd
    · simp [hfd]
    · rw [Function.update_of_ne hfd, Function.update_of_ne hfd, ht.others]
  | closes fd =>
    rw [Machine.own] at hown
    split_ifs at hown with hother
    obtain rfl : _ = w' := congrArg Prod.snd (Option.some.inj hown)
    refine ⟨⟨ht.clean.setOther (by simp [hother]) (by simp), fun fd' => ?_⟩, rfl, rfl⟩
    show Function.update w.host.fds.refers fd _ fd' = _ ↔ Function.update w.others fd false fd' = _
    by_cases hfd : fd' = fd
    · simp [hfd]
    · rw [Function.update_of_ne hfd, Function.update_of_ne hfd, ht.others]

theorem Tidy.owns (ht : w.Tidy) {ds : List OwnDescriptor} (howns : w.owns ds = some w') :
    w'.Tidy ∧ w'.storage = w.storage ∧ w'.host.entries = w.host.entries := by
  obtain ⟨⟨us, w₁⟩, hrun, rfl⟩ := Option.map_eq_some_iff.mp howns
  refine run_invariant (I := fun q => q.Tidy ∧ q.storage = w.storage ∧
    q.host.entries = w.host.entries) ?_ ⟨ht, rfl, rfl⟩ hrun
  rintro d - q u q' ⟨hq, hstorage, hentries⟩ hstep
  obtain ⟨hq', hsame, hsame'⟩ := hq.own hstep
  exact ⟨hq', hsame.trans hstorage, hsame'.trans hentries⟩

/-- **`ipc_server_start`** in such a process: it leaves it so, or there is a server in it. -/
theorem Tidy.ipcServerStart (ht : w.Tidy) (sf : StartFaults) (umask : ℕ) (path : Bytes)
    (hfd : ∀ fd, sf.socket = some fd → 0 ≤ fd ∧ w.host.fds.refers fd = none) :
    (∃ host, w.host.ipcServerStart sf umask w.agent (some path) = (none, host) ∧
      Tidy { w with host }) ∨
    ∃ l host fd, w.host.ipcServerStart sf umask w.agent (some path) = (some l, host) ∧ 0 ≤ fd ∧
      (process { w with host } l).Inv fd ∧ l.sockPath = path ∧ l.server.agent = w.agent ∧
      ∀ n, l.server.handled n = [] := by
  obtain ⟨host, hstart, hfds, -⟩ | ⟨p, fd, hp, hpos, hunused, hstart⟩ :=
    Host.ipcServerStart_cases sf umask (some path) w.agent hfd
  · refine Or.inl ⟨host, hstart, ?_, fun fd => ?_⟩
    · show Owned host.fds _
      rw [hfds]
      exact ht.clean
    · show host.fds.refers fd = _ ↔ _
      rw [hfds]
      exact ht.others fd
  · obtain rfl := Option.some.inj hp
    obtain ⟨hbooks, hsteady⟩ := ht.clean.start hunused w.agent
    have hothers : (fun fd' => decide (w.host.fds.refers fd' = some .other)) = w.others := by
      funext fd'
      rw [Bool.eq_iff_iff, decide_eq_true_iff]
      exact ht.others fd'
    rw [hothers] at hsteady
    exact Or.inr ⟨_, _, fd, hstart, hpos, ⟨hbooks, hsteady⟩, rfl, rfl, fun _ => rfl⟩

/-- What the bootstraps of a start have done. -/
def Booted (m : Modes) (f : InitFaults) (envs envs' : Envs) : Prop :=
  envs' = envs ∨
    (∃ e, envs' = Function.update envs .config e.committed ∧
      configBootstrapDefaults m (f.boot .config) (.idle (envs .config)) = (.ok (), e)) ∨
    subagentStorageInit m (f.boot .config) (f.boot .cache) envs = (.ok (), envs')

/-- **The start of `main()`**: it returns and has closed what it has opened, or its loop starts. -/
theorem Closed.boot (hw : w.Closed) {r : Option Listener} (hboot : w.boot m b = some (r, w')) :
    (r = none ∧ w'.Closed ∧ Booted m b.init w.storage.envs w'.storage.envs) ∨
      ∃ l fd, r = some l ∧ w'.Running b.paths.ipcPath fd l ∧
        subagentStorageInit m (b.init.boot .config) (b.init.boot .cache) w.storage.envs =
          (.ok (), w'.storage.envs) := by
  rw [Machine.boot] at hboot
  split_ifs at hboot
  · obtain ⟨rfl, rfl⟩ := Prod.mk.inj (Option.some.inj hboot)
    exact Or.inl ⟨rfl, hw, Or.inl rfl⟩
  obtain ⟨w₁, hagent, hboot⟩ := Option.bind_eq_some_iff.mp hboot
  obtain ⟨ht₁, hstorage₁, -⟩ := hw.tidy.owns hagent
  rw [hstorage₁] at hboot
  obtain ⟨s, hinit, hinv, hnull, henvs⟩ | ⟨s, hinit, hinv, hopened, henvs⟩ :=
    Storage.subagentStorageInit_cases m b.init b.paths hw.storage hw.null
  · rw [hinit] at hboot
    obtain ⟨w₂, hclosing, heq⟩ := Option.map_eq_some_iff.mp hboot
    obtain ⟨rfl, rfl⟩ := Prod.mk.inj heq
    have ht : Tidy { w₁ with storage := s } := ⟨ht₁.clean, ht₁.others⟩
    obtain ⟨ht₂, hstorage₂, -⟩ := ht.owns hclosing
    refine Or.inl ⟨rfl, ⟨ht₂, ?_, ?_⟩, ?_⟩
    all_goals rw [hstorage₂]
    · exact hinv
    · exact hnull
    · exact henvs.imp_right Or.inl
  rw [hinit] at hboot
  obtain ⟨w₂, hsnmp, hserver⟩ := Option.bind_eq_some_iff.mp hboot
  have ht : Tidy { w₁ with storage := s } := ⟨ht₁.clean, ht₁.others⟩
  obtain ⟨ht₂, hstorage₂, -⟩ := ht.owns hsnmp
  obtain rfl : w₂.storage = s := hstorage₂
  split_ifs at hserver with hsocket
  have hfresh : ∀ fd, b.start.socket = some fd → 0 ≤ fd ∧ w₂.host.fds.refers fd = none := by
    intro fd hfd
    rw [hfd] at hsocket
    simpa using hsocket
  obtain ⟨host, hstart, ht'⟩ | ⟨l, host, fd, hstart, hpos, hbooks, hpath, hagent, hhandled⟩ :=
    ht₂.ipcServerStart b.start b.umask b.paths.ipcPath hfresh
  · rw [hstart] at hserver
    obtain ⟨w₃, hclosing, heq⟩ := Option.map_eq_some_iff.mp hserver
    obtain ⟨rfl, rfl⟩ := Prod.mk.inj heq
    have hshut : Tidy { w₂ with host, storage := w₂.storage.subagentStorageShutdown } :=
      ⟨ht'.clean, ht'.others⟩
    obtain ⟨ht₃, hstorage₃, -⟩ := hshut.owns hclosing
    obtain ⟨hclosed, hnull, hsame⟩ := hinv.subagentStorageShutdown
    refine Or.inl ⟨rfl, ⟨ht₃, ?_, ?_⟩, ?_⟩
    all_goals rw [hstorage₃]
    · exact hclosed
    · exact hnull
    · rw [hsame]
      exact Or.inr (Or.inr henvs)
  · rw [hstart] at hserver
    obtain ⟨rfl, rfl⟩ := Prod.mk.inj (Option.some.inj hserver)
    exact Or.inr ⟨l, fd, rfl, ⟨hpos, hbooks, hpath, hagent, hhandled, hinv, hopened⟩, henvs⟩

/-- **The end of `main()`**: what net-snmp still does advances the process, and then everything is
closed. -/
theorem Running.halt {path : Bytes} {p : Process} (hw : w.Running path fd l) (hp : p.Inv fd)
    (hhalt : w.halt pb m f h l p = some w') :
    w'.Closed ∧ (∃ p', p.Advances pb m fd p' ∧ w'.storage.envs = p'.server.agent.envs) ∧
      w'.host.entries =
        if h.unlink then h.entries else Function.update h.entries path .absent := by
  obtain ⟨p', hshutdown, hclosing⟩ := Option.bind_eq_some_iff.mp hhalt
  have hadvances := Process.advances_snmpRead hp hshutdown
  obtain ⟨hclean, -, hrefers, hentries⟩ :=
    Host.clean_ipcServerStop (l := ⟨p'.server, l.sockPath⟩) hadvances.inv.books
      hadvances.inv.steady hw.listens h.unlink h.entries
  obtain ⟨hclosed, hnull, hsame⟩ := Storage.Inv.subagentStorageShutdown
    (s := { w.storage with envs := p'.server.agent.envs }) hw.storage
  have ht : Tidy ⟨Host.ipcServerStop h.unlink ⟨p'.server, l.sockPath⟩ h.entries, p'.others,
      Storage.subagentStorageShutdown { w.storage with envs := p'.server.agent.envs }⟩ := by
    refine ⟨hclean, fun fd' => ?_⟩
    rw [hrefers]
    split_ifs with ho <;> simp [ho]
  obtain ⟨ht', hstorage, hpaths⟩ := ht.owns hclosing
  refine ⟨⟨ht', ?_, ?_⟩, ⟨p', hadvances, ?_⟩, ?_⟩
  · rw [hstorage]
    exact hclosed
  · rw [hstorage]
    exact hnull
  · rw [hstorage]
    exact hsame
  · rw [hpaths, ← hw.sockPath]
    exact hentries

/-- **`main()`**: whatever it returns, everything is closed. -/
theorem Closed.main (hw : w.Closed) {ws : List Wakeup} {code : ℕ}
    (hmain : w.main pb m f b ws h = some (code, w')) :
    w'.Closed ∧ (code = 0 → w'.host.entries =
      if h.unlink then h.entries else Function.update h.entries b.paths.ipcPath .absent) := by
  obtain ⟨⟨r, w₁⟩, hboot, hrest⟩ := Option.bind_eq_some_iff.mp hmain
  obtain ⟨rfl, hclosed, -⟩ | ⟨l, fd, rfl, hrunning, -⟩ := hw.boot hboot
  · obtain ⟨rfl, rfl⟩ := Prod.mk.inj (Option.some.inj hrest)
    exact ⟨hclosed, fun hcode => absurd hcode (by simp)⟩
  · obtain ⟨⟨us, p⟩, hloop, hrest⟩ := Option.bind_eq_some_iff.mp hrest
    obtain ⟨w₂, hhalt, heq⟩ := Option.map_eq_some_iff.mp hrest
    obtain ⟨-, rfl⟩ := Prod.mk.inj heq
    obtain ⟨hclosed, -, hentries⟩ :=
      hrunning.halt (Process.advances_loop hrunning.inv hloop).inv hhalt
    exact ⟨hclosed, fun _ => hentries⟩

end Books

end Machine

/-! ### What the loop does -/

/-- **The loop of `main()` is the event loop.** Whatever the start of `main()` meets, and whatever
`select()`, net-snmp, the clients and the kernel do in the turns of the loop: after any number of
them the subagent is where a run of the event loop leads from the databases as they were opened. The
frames of this run are the payloads that were passed to `handle_frame`, in the order in which they
arrived on each connection, and what was received on a connection begins with them. -/
theorem main_is_the_event_loop (pb : PbCodec) (m : Modes) (f : ℕ → FrameFaults)
    (inherited : ℤ → Bool) (entries : Bytes → PathEntry) (envs : Envs) (b : Boot) (l : Listener)
    (w : Machine) (hboot : (Machine.start inherited entries envs).boot m b = some (some l, w))
    (ws : List Wakeup) (us : List Unit) (p : Process)
    (hrun : run (fun p w => Process.turn pb m f p w) (w.process l) ws = some (us, p)) :
    ∃ is os log, run (fun u i => Subagent.step m pb.pbDecode u i)
        ⟨⟨w.storage.envs, .clear, []⟩, fun _ => none⟩ is = some (os, p.subagent) ∧
      is.filterMap Input.payload = log.map Prod.snd ∧
      ∀ n, p.server.handled n = payloadsOf n log ∧
        IpcServer.frameStream (payloadsOf n log) <+: p.server.received n := by
  obtain ⟨hnone, -⟩ | ⟨l', fd, hl, hrunning, -⟩ :=
    (Machine.closed_start inherited entries envs).boot hboot
  · exact absurd hnone (by simp)
  obtain rfl := Option.some.inj hl
  obtain ⟨hinv, is, os, log, hrun, hpayloads, hhandled⟩ :
      (w.process l).Advances pb m fd p := Process.advances_loop hrunning.inv hrun
  have hstart : (w.process l).subagent = ⟨w.agent, fun _ => none⟩ :=
    congrArg (Subagent.mk · _) hrunning.agent
  rw [hstart] at hrun
  refine ⟨is, os, log, hrun, hpayloads, fun n => ?_⟩
  have hn : p.server.handled n = payloadsOf n log := by
    rw [hhandled, show (w.process l).server.handled n = [] from hrunning.handled n, List.nil_append]
  exact ⟨hn, hn ▸ hinv.books.frames n⟩

/-- A start in which nothing fails, with a session of net-snmp under number 3 and the socket under
number 4. -/
def bootAtFour : Boot where
  paths := ⟨none, none, none, none, none, none⟩
  sigaction := false
  initAgent := []
  init := ⟨fun _ => .none, fun _ => .none⟩
  initSnmp := [.opens 3]
  start := ⟨false, some 4, false, false, false, false, false, false, false⟩
  umask := 0o755
  closing := []

/-- A client connects while a SET begins, and sends a frame that does not decode while the SET goes
on; then another one connects, and net-snmp loses its session. -/
def fourTurns : List Wakeup :=
  [⟨4, fun fd => decide (fd = 3), false, .ready (fun _ => true)
      [.reserve1 0 [.scalar .adminStatusExt (.integer 2)]] [.connected 5] (fun _ => []) []⟩,
    ⟨4, fun fd => decide (fd = 3), false, .ready (fun _ => true) [.phase 0 .reserve2 fun _ => .none]
      [.wouldBlock] (fun _ => [.data [0, 0, 0, 1, 255]]) []⟩,
    ⟨4, fun fd => decide (fd = 3), false, .ready (fun _ => true) [.phase 0 .action fun _ => .none]
      [.connected 5] (fun _ => []) [.tempAlarm .none]⟩,
    ⟨4, fun fd => decide (fd = 3), false, .timeout [.closes 3] []⟩]

/-- The first frame is in the run. -/
theorem main_is_the_event_loop_busy : ∃ (l : Listener) (w : Machine) (us : List Unit) (p : Process),
    (Machine.start (fun _ => false) (fun _ => .absent) fun _ => ∅).boot .shipped bootAtFour =
      some (some l, w) ∧
    run (fun p w => Process.turn wireCodec .shipped (fun _ => .none) p w) (w.process l) fourTurns =
      some (us, p) ∧
    ∃ is os, run (fun u i => Subagent.step .shipped wireCodec.pbDecode u i)
        ⟨⟨w.storage.envs, .clear, []⟩, fun _ => none⟩ is = some (os, p.subagent) ∧
      [255] ∈ is.filterMap Input.payload := by
  obtain ⟨l, w, us, p, hboot, hrun, hhandled⟩ : ∃ l w us p,
      (Machine.start (fun _ => false) (fun _ => .absent) fun _ => ∅).boot .shipped bootAtFour =
        some (some l, w) ∧
      run (fun p w => Process.turn wireCodec .shipped (fun _ => .none) p w) (w.process l)
        fourTurns = some (us, p) ∧ p.server.handled 0 = [[255]] := ⟨_, _, _, _, rfl, rfl, rfl⟩
  obtain ⟨is, os, log, hsteps, hpayloads, hlog⟩ := main_is_the_event_loop wireCodec .shipped
    (fun _ => .none) (fun _ => false) (fun _ => .absent) (fun _ => ∅) bootAtFour l w hboot fourTurns
    us p hrun
  refine ⟨l, w, us, p, hboot, hrun, is, os, hsteps, ?_⟩
  have hmem : [255] ∈ payloadsOf 0 log := by
    rw [← (hlog 0).1, hhandled]
    exact List.mem_singleton_self _
  obtain ⟨e, he, hsome⟩ := List.mem_filterMap.mp hmem
  rw [hpayloads]
  refine List.mem_map.mpr ⟨e, he, ?_⟩
  split_ifs at hsome
  exact Option.some.inj hsome

/-- **`main()` leaves nothing open.** Whichever way a run of `main()` ends that got through its
options: both pointers to an environment are `NULL`, every environment that was made has been closed
exactly once, and so has every connection that was accepted; nothing else has been closed, no
transaction is open, and a number is open only if net-snmp or LMDB has it open. If the loop was
reached, the socket is gone, unless it could not be unlinked. -/
theorem main_leaves_nothing (pb : PbCodec) (m : Modes) (f : ℕ → FrameFaults)
    (inherited : ℤ → Bool) (entries : Bytes → PathEntry) (envs : Envs) (b : Boot)
    (ws : List Wakeup) (h : Halt) (code : ℕ) (w : Machine)
    (hmain : (Machine.start inherited entries envs).main pb m f b ws h = some (code, w)) :
    (∀ id, w.storage.env id = none) ∧
      (∀ n < w.storage.mdb.table.accepted, w.storage.mdb.table.closes n = 1) ∧
      w.storage.mdb.table.stray = 0 ∧ w.storage.mdb.txns = 0 ∧
      (∀ n < w.host.fds.accepted, w.host.fds.closes n = 1) ∧ w.host.fds.stray = 0 ∧
      (∀ fd, w.host.fds.refers fd = if w.others fd then some .other else none) ∧
      (code = 0 → w.host.entries =
        if h.unlink then h.entries else Function.update h.entries b.paths.ipcPath .absent) := by
  obtain ⟨⟨⟨hclean, hothers⟩, hstorage, hnull⟩, hentries⟩ :=
    (Machine.closed_start inherited entries envs).main hmain
  have hconn : ∀ fd n, w.host.fds.refers fd ≠ some (.connection n) := by
    intro fd n hn
    obtain ⟨i, hi⟩ := hclean.holder fd n hn
    exact absurd hi (by simp)
  have henv : ∀ env n, w.storage.mdb.table.refers env ≠ some (.connection n) := by
    intro env n hn
    obtain ⟨id, hid⟩ := hstorage.owned.holder env n hn
    rw [Storage.hold, hnull] at hid
    exact absurd hid (by simp)
  refine ⟨hnull, fun n hn => hstorage.owned.gone n hn (henv · n), hstorage.owned.stray,
    hstorage.txns, fun n hn => hclean.gone n hn (hconn · n), hclean.stray, fun fd => ?_, hentries⟩
  split_ifs with ho
  · exact (hothers fd).mpr ho
  · rcases hrefers : w.host.fds.refers fd with _ | n | _
    · rfl
    · exact absurd hrefers (hconn fd n)
    · exact absurd ((hothers fd).mp hrefers) ho

/-- The socket is still there at the end. -/
def haltAtFour : Halt :=
  ⟨[], Function.update (fun _ => .absent) ipcSocketPathDefault (.socket 0o660), false, []⟩

/-- Two clients and two environments. -/
theorem main_leaves_nothing_busy : ∃ w,
    (Machine.start (fun _ => false) (fun _ => .absent) fun _ => ∅).main wireCodec .shipped
      (fun _ => .none) bootAtFour fourTurns haltAtFour = some (0, w) ∧
    w.storage.mdb.table.closes 0 = 1 ∧ w.storage.mdb.table.closes 1 = 1 ∧
    w.host.fds.closes 0 = 1 ∧ w.host.fds.closes 1 = 1 ∧ w.host.fds.refers 4 = none ∧
    w.host.entries ipcSocketPathDefault = .absent := by
  obtain ⟨w, hmain, henvs, hconns, hothers⟩ : ∃ w,
      (Machine.start (fun _ => false) (fun _ => .absent) fun _ => ∅).main wireCodec .shipped
        (fun _ => .none) bootAtFour fourTurns haltAtFour = some (0, w) ∧
      w.storage.mdb.table.accepted = 2 ∧ w.host.fds.accepted = 2 ∧ w.others 4 = false :=
    ⟨_, rfl, rfl, rfl, rfl⟩
  obtain ⟨-, henv, -, -, hconn, -, hrefers, hentries⟩ := main_leaves_nothing wireCodec .shipped
    (fun _ => .none) (fun _ => false) (fun _ => .absent) (fun _ => ∅) bootAtFour fourTurns
    haltAtFour 0 w hmain
  refine ⟨w, hmain, henv 0 (by omega), henv 1 (by omega), hconn 0 (by omega), hconn 1 (by omega),
    ?_, ?_⟩
  · rw [hrefers, hothers]
    rfl
  · rw [hentries rfl]
    rfl

/-! ### Lives -/

/-- A life of the subagent: whether `cache.lmdb` is found empty, what the process inherits and its
run meets, and how its loop is left; it is killed there if there is no `halt`. -/
structure Life where
  wiped : Bool
  inherited : ℤ → Bool
  entries : Bytes → PathEntry
  faults : ℕ → FrameFaults
  boot : Boot
  wakeups : List Wakeup
  halt : Option Halt

namespace Life

/-- The process that is started. -/
def start (L : Life) (envs : Envs) : Machine :=
  .start L.inherited L.entries (if L.wiped then Function.update envs .cache ∅ else envs)

/-- What a life makes of the databases. -/
def run (pb : PbCodec) (m : Modes) (envs : Envs) (L : Life) : Option (Unit × Envs) :=
  match L.halt with
  | some h => ((L.start envs).main pb m L.faults L.boot L.wakeups h).map fun r =>
      ((), r.2.storage.envs)
  | none =>
    ((L.start envs).boot m L.boot).bind fun r =>
      match r.1 with
      | none => some ((), r.2.storage.envs)
      | some l =>
        (Runs.run (fun p w => Process.turn pb m L.faults p w) (r.2.process l) L.wakeups).map
          fun p => ((), p.2.server.agent.envs)

section Valid

variable {pb : PbCodec} {m : Modes} {envs envs' : Envs} {L : Life} {w : Machine} {l : Listener}
  {p : Process}

/-- Every object is missing or holds a value of its type and range. -/
def Allowed (m : Modes) (envs : Envs) : Prop := ∀ l, AllowedAt m l (envs.stored l)

/-- Emptying `cache.lmdb` takes values away. -/
theorem Allowed.wipe (h : Allowed m envs) (wiped : Bool) :
    Allowed m (if wiped then Function.update envs .cache ∅ else envs) := by
  cases wiped with
  | false => exact h
  | true =>
    rintro ⟨id, key⟩
    cases id with
    | config => exact h (.config, key)
    | cache =>
      intro data hdata
      exact absurd hdata (by simp [Envs.stored])

/-- **What a start leaves** is allowed. -/
theorem Allowed.booted {g : InitFaults} (h : Allowed m envs) (hprobes : g.Probes)
    (hbooted : Machine.Booted m g envs envs') : Allowed m envs' := by
  obtain rfl | ⟨e, rfl, hconfig⟩ | hinit := hbooted
  · exact h
  · have hseeded : Seeded (bootSeeds m .config) (envs .config) e.committed :=
      bootstrap_ok (hprobes .config) (fun _ hs _ hkey => validKey_bootSeedsOf hs hkey) hconfig
    rintro ⟨id, key⟩
    cases id with
    | config => exact (validAt_of_seeded hseeded (h (.config, key))).1
    | cache => exact h (.cache, key)
  · exact fun l =>
      (valid_of_subagentStorageInit (hprobes .config) (hprobes .cache) h hinit l).1

/-- A run of the event loop keeps the configuration valid. -/
theorem valid_of_delivers {s s' : Subagent} {handled handled' : ℕ → List Bytes}
    (hd : Delivers pb m s s' handled handled') (hs : s.Inv m) : s'.Inv m := by
  obtain ⟨is, os, log, hrun, -⟩ := hd
  exact run_invariant (I := fun u => u.Inv m) (fun _ _ _ _ _ hu hstep => Subagent.step_inv hu hstep)
    hs hrun

/-- **The loop starts** with a valid configuration. -/
theorem Allowed.boot (h : Allowed m envs) (hprobes : L.boot.init.Probes)
    (hboot : (L.start envs).boot m L.boot = some (some l, w)) :
    ∃ fd, w.Running L.boot.paths.ipcPath fd l ∧ (w.process l).subagent.Inv m := by
  obtain ⟨hnone, -⟩ | ⟨l', fd, hl, hrunning, hinit⟩ :=
    (Machine.closed_start L.inherited L.entries _).boot hboot
  · exact absurd hnone (by simp)
  obtain rfl := Option.some.inj hl
  refine ⟨fd, hrunning, ⟨?_, nofun⟩⟩
  show Envs.Valid m l.server.agent.envs
  rw [hrunning.agent]
  exact valid_of_subagentStorageInit (hprobes .config) (hprobes .cache) (h.wipe L.wiped) hinit

/-- And keeps it. -/
theorem Allowed.loop (h : Allowed m envs) (hprobes : L.boot.init.Probes)
    (hboot : (L.start envs).boot m L.boot = some (some l, w)) {ws : List Wakeup} {us : List Unit}
    (hrun : Runs.run (fun p w => Process.turn pb m L.faults p w) (w.process l) ws =
      some (us, p)) :
    ∃ fd, w.Running L.boot.paths.ipcPath fd l ∧ p.Inv fd ∧ p.subagent.Inv m := by
  obtain ⟨fd, hrunning, hvalid⟩ := h.boot hprobes hboot
  have hadvances := Process.advances_loop hrunning.inv hrun
  exact ⟨fd, hrunning, hadvances.inv, valid_of_delivers hadvances.delivers hvalid⟩

/-- **A life leaves an allowed configuration**, however it ends. -/
theorem Allowed.run (h : Allowed m envs) (hprobes : L.boot.init.Probes) {u : Unit}
    (hrun : L.run pb m envs = some (u, envs')) : Allowed m envs' := by
  have hbooted : ∀ {w}, (L.start envs).boot m L.boot = some (none, w) →
      Allowed m w.storage.envs := by
    intro w hboot
    obtain ⟨-, -, hbooted⟩ | ⟨l, fd, hl, -⟩ :=
      (Machine.closed_start L.inherited L.entries _).boot hboot
    · exact (h.wipe L.wiped).booted hprobes hbooted
    · exact absurd hl (by simp)
  have hof : ∀ {s : Subagent}, s.Inv m → Allowed m s.agent.envs := fun hs l => (hs.valid l).1
  rw [Life.run] at hrun
  rcases hhalt : L.halt with _ | halt
  · rw [hhalt] at hrun
    obtain ⟨⟨r, w⟩, hboot, hrest⟩ := Option.bind_eq_some_iff.mp hrun
    rcases r with _ | l
    · obtain rfl : w.storage.envs = envs' := congrArg Prod.snd (Option.some.inj hrest)
      exact hbooted hboot
    · obtain ⟨⟨us, p⟩, hloop, heq⟩ := Option.map_eq_some_iff.mp hrest
      obtain rfl : p.server.agent.envs = envs' := congrArg Prod.snd heq
      obtain ⟨fd, -, -, hvalid⟩ := h.loop hprobes hboot hloop
      exact hof hvalid
  · rw [hhalt] at hrun
    obtain ⟨⟨code, w'⟩, hmain, heq⟩ := Option.map_eq_some_iff.mp hrun
    obtain rfl : w'.storage.envs = envs' := congrArg Prod.snd heq
    obtain ⟨⟨r, w⟩, hboot, hrest⟩ := Option.bind_eq_some_iff.mp hmain
    rcases r with _ | l
    · obtain ⟨-, rfl⟩ := Prod.mk.inj (Option.some.inj hrest)
      exact hbooted hboot
    · obtain ⟨⟨us, p⟩, hloop, hrest⟩ := Option.bind_eq_some_iff.mp hrest
      obtain ⟨w₂, hended, heq⟩ := Option.map_eq_some_iff.mp hrest
      obtain ⟨-, rfl⟩ := Prod.mk.inj heq
      obtain ⟨fd, hrunning, hinv, hvalid⟩ := h.loop hprobes hboot hloop
      obtain ⟨-, ⟨p', hadvances, henvs⟩, -⟩ := hrunning.halt hinv hended
      rw [henvs]
      exact hof (valid_of_delivers hadvances.delivers hvalid)

end Valid

end Life

/-- **In every life the configuration is valid.** Start from databases in which every writable
object is missing or holds a value of its type and range, and let the subagent live any number of
times: it may fail to start at any place, be killed between any two turns, or end as it should, and
find `cache.lmdb` empty the next time. If in no start a probe fails, then in every later life, after
any number of turns of its loop, every scalar is present, and every scalar and every cell that is
present carries a value of its type and range. -/
theorem every_life_is_valid (pb : PbCodec) (m : Modes) (envs₀ envs : Envs)
    (hallowed : ∀ l, AllowedAt m l (envs₀.stored l)) (lives : List Life)
    (hprobes : ∀ L ∈ lives, L.boot.init.Probes) (us : List Unit)
    (hlives : run (Life.run pb m) envs₀ lives = some (us, envs)) (L : Life)
    (hprobes' : L.boot.init.Probes) (l : Listener) (w : Machine)
    (hboot : (L.start envs).boot m L.boot = some (some l, w)) (ws : List Wakeup) (us' : List Unit)
    (p : Process) (hloop : run (fun p w => Process.turn pb m L.faults p w) (w.process l) ws =
      some (us', p)) :
    (∀ s : Scalar, ∃ data, p.server.agent.envs.stored (s.loc m) = some data ∧
      Holds s.InRange data) ∧
      ∀ (c : PortColumn) (row : UInt32) (data : Bytes),
        p.server.agent.envs.stored (c.cellLoc m [row]) = some data → Holds c.InRange data := by
  have hbefore : Life.Allowed m envs :=
    run_invariant (I := Life.Allowed m)
      (fun L hL _ _ _ hs hrun => Life.Allowed.run hs (hprobes L hL) hrun) hallowed hlives
  obtain ⟨-, -, -, hinv⟩ := hbefore.loop hprobes' hboot hloop
  constructor
  · intro s
    obtain ⟨hallowed, hpresent⟩ := hinv.valid (s.loc m)
    obtain ⟨data, hdata⟩ := Option.ne_none_iff_exists'.mp (hpresent s rfl)
    exact ⟨data, hdata, (hallowed data hdata).1 s rfl⟩
  · intro c row data hdata
    exact ((hinv.valid (c.cellLoc m [row])).1 data hdata).2 c row rfl

/-- Such a life. -/
def busyLife (wiped : Bool) (halt : Option Halt) : Life :=
  ⟨wiped, fun _ => false, fun _ => .absent, fun _ => .none, bootAtFour, fourTurns, halt⟩

/-- It does not get its socket bound, is killed in the middle of a SET, finds `cache.lmdb` empty and
ends as it should. -/
def threeLives : List Life :=
  [{ busyLife false none with boot := { bootAtFour with start :=
      ⟨false, some 4, false, true, false, false, false, false, false⟩ } },
    busyLife false none, busyLife true (some haltAtFour)]

/-- After these lives, in the loop of the next one, every scalar is there and in its range. -/
theorem every_life_is_valid_three : ∃ (us : List Unit) (envs : Envs) (l : Listener) (w : Machine)
    (us' : List Unit) (p : Process),
    run (Life.run wireCodec .shipped) (fun _ => ∅) threeLives = some (us, envs) ∧
    ((busyLife false none).start envs).boot .shipped bootAtFour = some (some l, w) ∧
    run (fun p w => Process.turn wireCodec .shipped (fun _ => .none) p w) (w.process l) fourTurns =
      some (us', p) ∧
    ∀ s : Scalar, ∃ data, p.server.agent.envs.stored (s.loc .shipped) = some data ∧
      Holds s.InRange data := by
  obtain ⟨us, envs, l, w, us', p, hlives, hboot, hloop⟩ : ∃ us envs l w us' p,
      run (Life.run wireCodec .shipped) (fun _ => ∅) threeLives = some (us, envs) ∧
      ((busyLife false none).start envs).boot .shipped bootAtFour = some (some l, w) ∧
      run (fun p w => Process.turn wireCodec .shipped (fun _ => .none) p w) (w.process l)
        fourTurns = some (us', p) := ⟨_, _, _, _, _, _, rfl, rfl, rfl⟩
  have hempty : ∀ l, AllowedAt .shipped l (Envs.stored (fun _ => ∅) l) := by
    intro l data hdata
    exact absurd hdata (by simp [Envs.stored])
  have hprobes : ∀ L ∈ threeLives, L.boot.init.Probes := by
    simp only [threeLives, List.forall_mem_cons]
    exact ⟨fun _ _ => rfl, fun _ _ => rfl, fun _ _ => rfl, by simp⟩
  exact ⟨us, envs, l, w, us', p, hlives, hboot, hloop, (every_life_is_valid wireCodec .shipped
    (fun _ => ∅) envs hempty threeLives hprobes us hlives (busyLife false none) (fun _ _ => rfl) l w
    hboot fourTurns us' p hloop).1⟩

end AgentxSubagent
