import AgentxSubagent.Storage.TypedMap
import AgentxSubagent.Table.CellKeys

/-!
# One environment, two programs

The subagent and the Rust app have the same environment open, the one through
`src/storage_lmdb.c` and the other through `Inner` of `rust-app/src/storage/mod.rs`. Every call of
`Inner` is a transaction of its own; the subagent may hold transactions open over any number of
them, and a Rust call that writes waits while one of these is a write transaction.

What the two share is one typed map, `AgentxSubagent.SharedMap`, with the snapshots of
`AgentxSubagent.TypedStore` on the side of the subagent and no word of bytes. The Rust side takes
keys the other refuses, of up to 511 bytes, so the map has a part the subagent never sees.

* `AgentxSubagent.Store.Confined`: the subagent leaves that part alone, also inside a transaction
  that is still open.
* `AgentxSubagent.Store.shared_matches`: one call of either program answers what the map says.
* `AgentxSubagent.shared_environment`: so does every interleaving of their calls.
-/

namespace AgentxSubagent

open Assign Runs

/-! ### The Rust side -/

/-- The errors of `StorageError` that a call on a key meets. -/
inductive StoreError
  | storage (err : StorageError)
  | codec (err : CodecError)
  | notFound (key : Bytes)
  | typeMismatch (key : Bytes) (expected actual : StorageType)
  deriving DecidableEq

/-- `Inner::get_raw`; `fails` is a failure of its transaction, and LMDB refuses an empty key. -/
def getRaw (fails : Bool) (key : Bytes) (db : Lmdb) : Except StoreError (Option Bytes) :=
  if fails ∨ key.length = 0 then .error (.storage .lmdb) else .ok db[key]?

/-- `Inner::get_value`. -/
def getValue (fails : Bool) (key : Bytes) (db : Lmdb) : Except StoreError Value :=
  match getRaw fails key db with
  | .error err => .error err
  | .ok none => .error (.notFound key)
  | .ok (some raw) => (Value.decode raw).mapError .codec

/-- `Inner::get_typed`, behind `get_int32` to `get_oid`. -/
def getTyped (fails : Bool) (key : Bytes) (expected : StorageType) (db : Lmdb) :
    Except StoreError Value :=
  match getValue fails key db with
  | .error err => .error err
  | .ok v =>
    if v.storageType ≠ expected then .error (.typeMismatch key expected v.storageType) else .ok v

/-- `CacheStore::try_get` and `ConfigStore::try_get`. -/
def tryGet (fails : Bool) (key : Bytes) (db : Lmdb) : Except StoreError (Option Value) :=
  match getRaw fails key db with
  | .error err => .error err
  | .ok none => .ok none
  | .ok (some raw) => ((Value.decode raw).mapError .codec).map some

/-- `CacheStore::delete`: `delete_many_raw` of one key. -/
def cacheDelete (fails : Bool) (key : Bytes) (db : Lmdb) : Except StorageError Unit × Lmdb :=
  deleteManyRaw (fails || key.length == 0) [key] db

/-- A call on a `CacheStore` or a `ConfigStore`. -/
inductive RustOp
  | get (fails : Bool) (key : Bytes)
  | getTyped (fails : Bool) (key : Bytes) (expected : StorageType)
  | tryGet (fails : Bool) (key : Bytes)
  | put (fails : Bool) (key : Bytes) (value : Value)
  | delete (fails : Bool) (key : Bytes)
  | putRow (fails : Bool) (inst : List UInt32) (cells : List (Bytes × Value))
  | deleteRow (fails : Bool) (inst : List UInt32) (columns : List Bytes)

/-- What a call returns. -/
inductive RustObs
  | value (r : Except StoreError Value)
  | found (r : Except StoreError (Option Value))
  | done (r : Except StorageError Unit)

/-- A call that begins a write transaction. -/
def RustOp.writes : RustOp → Bool
  | .get _ _ | .getTyped _ _ _ | .tryGet _ _ => false
  | _ => true

/-- A call on the committed content. -/
def RustOp.exec (db : Lmdb) : RustOp → RustObs × Lmdb
  | .get fails key => (.value (getValue fails key db), db)
  | .getTyped fails key expected => (.value (AgentxSubagent.getTyped fails key expected db), db)
  | .tryGet fails key => (.found (AgentxSubagent.tryGet fails key db), db)
  | .put fails key value => let r := cachePut fails key value db; (.done r.1, r.2)
  | .delete fails key => let r := cacheDelete fails key db; (.done r.1, r.2)
  | .putRow fails inst cells =>
    let r := AgentxSubagent.putRow fails inst cells db
    (.done r.1, r.2)
  | .deleteRow fails inst columns =>
    let r := AgentxSubagent.deleteRow fails inst columns db
    (.done r.1, r.2)

/-! ### Both sides -/

/-- A call of the subagent or of the Rust app. -/
inductive SharedOp
  | subagent (op : StoreOp)
  | rust (op : RustOp)

/-- What it answers. -/
inductive SharedObs
  | subagent (o : StoreObs)
  | rust (o : RustObs)

/-- One call on the environment; a Rust call that would wait for the subagent's write transaction
is stuck. -/
def Store.stepShared (s : Store) : SharedOp → Option (SharedObs × Store)
  | .subagent op => (s.step op).map fun r => (.subagent r.1, r.2)
  | .rust op =>
    if op.writes && s.mdb.writer then none
    else
      let r := op.exec s.mdb.committed
      some (.rust r.1, { s with mdb := { s.mdb with committed := r.2 } })

/-! ### The map they share -/

/-- What is stored: what the subagent sees of it, with its transactions, and what lies under other
keys. -/
structure SharedMap where
  typed : TypedStore
  other : Bytes → Option Value

namespace SharedMap

/-- The empty map. -/
def init : SharedMap := ⟨.init, fun _ => none⟩

/-- What is committed under a key. -/
def find (a : SharedMap) (key : Bytes) : Option Value :=
  if h : ValidKey key then a.typed.committed ⟨key, h⟩ else a.other key

/-- Assignments, committed together. -/
def commit (a : SharedMap) (l : List (Bytes × Option Value)) : SharedMap where
  typed := { a.typed with committed := fun k => assign a.find l k.1 }
  other := assign a.find l

/-- The columns of a row replaced by the keys of their cells, or what is wrong with the first that
has none. -/
def rowKeys {β : Type} (inst : List UInt32) :
    List (Bytes × β) → Except TableKeyError (List (Bytes × β))
  | [] => .ok []
  | (column, b) :: items =>
    match Table.cellKey column inst with
    | .error err => .error err
    | .ok key => (rowKeys inst items).map ((key, b) :: ·)

/-- A lookup: an error of LMDB, or what is there. -/
def lookup (a : SharedMap) (fails : Bool) (key : Bytes) : Except StoreError (Option Value) :=
  if fails ∨ key.length = 0 then .error (.storage .lmdb) else .ok (a.find key)

/-- A value that has to be there. -/
def get (a : SharedMap) (fails : Bool) (key : Bytes) : Except StoreError Value :=
  match a.lookup fails key with
  | .error err => .error err
  | .ok none => .error (.notFound key)
  | .ok (some v) => .ok v

/-- A value that has to be there and of a type. -/
def getTyped (a : SharedMap) (fails : Bool) (key : Bytes) (expected : StorageType) :
    Except StoreError Value :=
  match a.get fails key with
  | .error err => .error err
  | .ok v =>
    if v.storageType ≠ expected then .error (.typeMismatch key expected v.storageType) else .ok v

/-- A transaction that fails without a trace or commits its assignments. -/
def write (a : SharedMap) (fails : Prop) [Decidable fails] (l : List (Bytes × Option Value)) :
    Except StorageError Unit × SharedMap :=
  if fails then (.error .lmdb, a) else (.ok (), a.commit l)

/-- The cells of a row, all of them or none when one has no key. -/
def writeRow {β : Type} (a : SharedMap) (fails : Bool) (inst : List UInt32)
    (items : List (Bytes × β)) (value : β → Option Value) :
    Except StorageError Unit × SharedMap :=
  match rowKeys inst items with
  | .error err => (.error (.tableKey err), a)
  | .ok cells => a.write (fails = true) (cells.map fun c => (c.1, value c.2))

/-- **What a Rust call is supposed to answer.** No stored value ever fails to decode. -/
def stepRust (a : SharedMap) : RustOp → RustObs × SharedMap
  | .get fails key => (.value (a.get fails key), a)
  | .getTyped fails key expected => (.value (a.getTyped fails key expected), a)
  | .tryGet fails key => (.found (a.lookup fails key), a)
  | .put fails key value =>
    let r := a.write (fails = true ∨ key.length = 0 ∨ key.length > mdbMaxKeySize) [(key, some value)]
    (.done r.1, r.2)
  | .delete fails key =>
    let r := a.write (fails = true ∨ key.length = 0) [(key, none)]
    (.done r.1, r.2)
  | .putRow fails inst cells =>
    let r := a.writeRow fails inst cells some
    (.done r.1, r.2)
  | .deleteRow fails inst columns =>
    let r := a.writeRow fails inst (columns.map fun c => (c, ())) fun _ => none
    (.done r.1, r.2)

/-- What a call is supposed to answer. -/
def step (a : SharedMap) : SharedOp → Option (SharedObs × SharedMap)
  | .subagent op => (a.typed.step op).map fun r => (.subagent r.1, { a with typed := r.2 })
  | .rust op =>
    if op.writes && a.typed.writer then none
    else
      let r := a.stepRust op
      some (.rust r.1, r.2)

end SharedMap

/-! ### What the subagent cannot reach -/

/-- Two contents agree on the keys that no call of the subagent takes. -/
def SameOutside (db db' : Lmdb) : Prop := ∀ k, ¬ValidKey k → db'[k]? = db[k]?

section Outside

variable {db : Lmdb} {key : Bytes} {txn txn' : MdbTxn}

theorem sameOutside_insert (hkey : ValidKey key) (data : Bytes) :
    SameOutside db (db.insert key data) := by
  intro k hk
  have hne : key ≠ k := fun h => hk (h ▸ hkey)
  simp [Std.ExtTreeMap.getElem?_insert, hne]

theorem sameOutside_erase (hkey : ValidKey key) : SameOutside db (db.erase key) := by
  intro k hk
  have hne : key ≠ k := fun h => hk (h ▸ hkey)
  simp [Std.ExtTreeMap.getElem?_erase, hne]

/-- A setter writes under a valid key. -/
theorem sameOutside_txnSetValue {v : Value} (h : txnSetValue .none txn key v = .ok txn') :
    txn'.rdonly = txn.rdonly ∧ SameOutside txn.view txn'.view := by
  rw [txnSetValue_eq] at h
  split_ifs at h
  obtain ⟨hkey, rfl⟩ := txnPutRaw_eq_ok h
  exact ⟨rfl, sameOutside_insert hkey _⟩

/-- A deletion erases a valid key. -/
theorem sameOutside_txnDeleteImpl (h : txnDeleteImpl .none txn key = .ok txn') :
    txn'.rdonly = txn.rdonly ∧ SameOutside txn.view txn'.view := by
  obtain rfl := txnDeleteImpl_eq_ok h
  by_cases hkey : ValidKey key
  · exact ⟨rfl, sameOutside_erase hkey⟩
  · obtain ⟨rc, -, hrc⟩ := toKey_of_not_valid hkey
    rw [txnDeleteImpl, hrc] at h
    exact absurd h (by simp [bind, Except.bind])

end Outside

/-- **The subagent is confined to its keys**: under all others, what is committed and what its open
write transaction would commit is `out`. There is one such transaction at most, and it holds the
writer slot. -/
structure Store.Confined (s : Store) (out : Bytes → Option Bytes) : Prop where
  committed : ∀ k, ¬ValidKey k → s.mdb.committed[k]? = out k
  views : ∀ h t, s.txns h = some t → t.txn.rdonly = false → ∀ k, ¬ValidKey k →
    t.txn.view[k]? = out k
  held : ∀ h t, s.txns h = some t → t.txn.rdonly = false → s.mdb.writer = true
  once : ∀ h h' t t', s.txns h = some t → s.txns h' = some t' → t.txn.rdonly = false →
    t'.txn.rdonly = false → h = h'

namespace Store.Confined

variable {s s' : Store} {out : Bytes → Option Bytes}

/-- With the writer slot free, anything may be committed. -/
theorem commit (h : s.Confined out) (hfree : s.mdb.writer = false) {db : Lmdb}
    {out' : Bytes → Option Bytes} (hdb : ∀ k, ¬ValidKey k → db[k]? = out' k) :
    Confined { s with mdb := ⟨db, false⟩ } out' where
  committed := hdb
  views := fun i t ht hrw => absurd (hfree.symm.trans (h.held i t ht hrw)) (by simp)
  held := fun i t ht hrw => hfree.symm.trans (h.held i t ht hrw)
  once := h.once

/-- A writing helper. -/
theorem write (h : s.Confined out) {env : StorageEnv}
    (hfree : ¬(!env.readonly && s.mdb.writer) = true)
    {body : MdbTxn → Except StorageErr MdbTxn}
    (hbody : ∀ txn txn', body txn = .ok txn' →
      txn'.rdonly = txn.rdonly ∧ SameOutside txn.view txn'.view) :
    Confined { s with mdb := (withWriteTxn .none env body s.mdb).2 } out := by
  obtain ⟨⟨db, writer⟩, txns, next⟩ := s
  rw [withWriteTxn, beginWriteTxn]
  rcases hro : env.readonly with _ | _
  · obtain rfl : writer = false := by simpa [hro] using hfree
    have hbegin : (mdbTxnBegin .none false ⟨db, false⟩).mapError mapMdbRc =
      .ok (⟨false, db⟩, ⟨db, true⟩) := rfl
    simp only [Bool.false_eq_true, if_false, hbegin]
    rcases hres : body ⟨false, db⟩ with rc | ⟨rdonly, view⟩
    · exact h.commit rfl h.committed
    · obtain ⟨hrd, hsame⟩ := hbody _ _ hres
      obtain rfl : rdonly = false := hrd
      exact h.commit rfl fun k hk => (hsame k hk).trans (h.committed k hk)
  · simp only [if_true]
    exact h

/-- A transaction is opened. A write transaction finds the slot free. -/
theorem openTxn (h : s.Confined out) {readonly : Bool}
    (hfree : ¬(!readonly && s.mdb.writer) = true) :
    Confined ⟨⟨s.mdb.committed, s.mdb.writer || !readonly⟩,
      Function.update s.txns s.next (some ⟨readonly, ⟨readonly, s.mdb.committed⟩⟩), s.next + 1⟩
      out := by
  -- a write transaction is the one just opened, or no new one is
  have hcases : ∀ i t, Function.update s.txns s.next
      (some ⟨readonly, ⟨readonly, s.mdb.committed⟩⟩) i = some t → t.txn.rdonly = false →
      (i = s.next ∧ t = ⟨readonly, ⟨readonly, s.mdb.committed⟩⟩ ∧ readonly = false) ∨
        (s.txns i = some t ∧ readonly = true) := by
    intro i t ht hrw
    by_cases hi : i = s.next
    · subst hi
      rw [Function.update_self] at ht
      obtain rfl := Option.some.inj ht
      exact Or.inl ⟨rfl, rfl, hrw⟩
    · rw [Function.update_of_ne hi] at ht
      refine Or.inr ⟨ht, ?_⟩
      have hheld := h.held i t ht hrw
      cases readonly with
      | true => rfl
      | false => exact absurd hheld (by simpa using hfree)
  refine ⟨h.committed, fun i t ht hrw => ?_, fun i t ht hrw => ?_, fun i i' t t' ht ht' hrw hrw' => ?_⟩
  · obtain ⟨-, rfl, -⟩ | ⟨hold, -⟩ := hcases i t ht hrw
    · exact h.committed
    · exact h.views i t hold hrw
  · obtain ⟨-, -, rfl⟩ | ⟨hold, rfl⟩ := hcases i t ht hrw
    · exact Bool.or_true _
    · exact (Bool.or_false _).trans (h.held i t hold hrw)
  · obtain ⟨rfl, -, rfl⟩ | ⟨hold, rfl⟩ := hcases i t ht hrw
    · obtain ⟨rfl, -, -⟩ | ⟨-, habs⟩ := hcases i' t' ht' hrw'
      · rfl
      · exact absurd habs (by simp)
    · obtain ⟨-, -, habs⟩ | ⟨hold', -⟩ := hcases i' t' ht' hrw'
      · exact absurd habs (by simp)
      · exact h.once i i' t t' hold hold' hrw hrw'

/-- A transaction is closed. If it held the writer slot, that is free; what is committed then
leaves those keys alone. -/
theorem closeTxn (h : s.Confined out) {i : ℕ} {t : StorageTxn} (ht : s.txns i = some t)
    {e : MdbEnv} (hcommitted : ∀ k, ¬ValidKey k → e.committed[k]? = out k)
    (hwriter : t.txn.rdonly = true → e.writer = s.mdb.writer) :
    Confined { s with mdb := e, txns := Function.update s.txns i none } out := by
  have hold : ∀ j t', Function.update s.txns i none j = some t' → j ≠ i ∧ s.txns j = some t' := by
    intro j t' ht'
    by_cases hj : j = i
    · subst hj
      exact absurd ht' (by simp)
    · rw [Function.update_of_ne hj] at ht'
      exact ⟨hj, ht'⟩
  refine ⟨hcommitted, fun j t' ht' hrw => h.views j t' (hold j t' ht').2 hrw,
    fun j t' ht' hrw => ?_, fun j j' t₁ t₂ ht₁ ht₂ hrw hrw' =>
      h.once j j' t₁ t₂ (hold j t₁ ht₁).2 (hold j' t₂ ht₂).2 hrw hrw'⟩
  obtain ⟨hj, ht''⟩ := hold j t' ht'
  rcases hrd : t.txn.rdonly with _ | _
  · exact absurd (h.once j i t' t ht'' ht hrw hrd) hj
  · exact (hwriter hrd).trans (h.held j t' ht'' hrw)

/-- A write inside an open transaction. -/
theorem txnWrite (h : s.Confined out) (i : ℕ) {body : MdbTxn → Except StorageErr MdbTxn}
    (hbody : ∀ txn txn', body txn = .ok txn' →
      txn'.rdonly = txn.rdonly ∧ SameOutside txn.view txn'.view) {o : StoreObs}
    (hstep : s.txnWrite i (fun stxn => writeInTxn stxn body) = some (o, s')) : s'.Confined out := by
  rw [Store.txnWrite] at hstep
  rcases ht : s.txns i with _ | t
  · rw [ht] at hstep
    exact absurd hstep (by simp)
  rw [ht] at hstep
  simp only [writeInTxn] at hstep
  split_ifs at hstep with hro
  · obtain ⟨-, rfl⟩ := Prod.mk.inj (Option.some.inj hstep)
    exact h
  rcases hres : body t.txn with rc | txn'
  · rw [hres] at hstep
    obtain ⟨-, rfl⟩ := Prod.mk.inj (Option.some.inj hstep)
    exact h
  rw [hres] at hstep
  obtain ⟨-, rfl⟩ := Prod.mk.inj (Option.some.inj hstep)
  obtain ⟨hrd, hsame⟩ := hbody _ _ hres
  have hcases : ∀ j t', Function.update s.txns i (some { t with txn := txn' }) j = some t' →
      ∃ t₀, s.txns j = some t₀ ∧ t'.txn.rdonly = t₀.txn.rdonly ∧
        SameOutside t₀.txn.view t'.txn.view := by
    intro j t' ht'
    by_cases hj : j = i
    · subst hj
      rw [Function.update_self] at ht'
      obtain rfl := Option.some.inj ht'
      exact ⟨t, ht, hrd, hsame⟩
    · rw [Function.update_of_ne hj] at ht'
      exact ⟨t', ht', rfl, fun _ _ => rfl⟩
  refine ⟨h.committed, fun j t' ht' hrw k hk => ?_, fun j t' ht' hrw => ?_,
    fun j j' t₁ t₂ ht₁ ht₂ hrw hrw' => ?_⟩
  · obtain ⟨t₀, ht₀, hrd₀, hsame₀⟩ := hcases j t' ht'
    exact (hsame₀ k hk).trans (h.views j t₀ ht₀ (hrd₀ ▸ hrw) k hk)
  · obtain ⟨t₀, ht₀, hrd₀, -⟩ := hcases j t' ht'
    exact h.held j t₀ ht₀ (hrd₀ ▸ hrw)
  · obtain ⟨u₁, hu₁, hrd₁, -⟩ := hcases j t₁ ht₁
    obtain ⟨u₂, hu₂, hrd₂, -⟩ := hcases j' t₂ ht₂
    exact h.once j j' u₁ u₂ hu₁ hu₂ (hrd₁ ▸ hrw) (hrd₂ ▸ hrw')

/-- **No call of the subagent leaves its keys.** -/
theorem step (h : s.Confined out) {op : StoreOp} {o : StoreObs} (hstep : s.step op = some (o, s')) :
    s'.Confined out := by
  unfold Store.step at hstep
  split_ifs at hstep with hfree
  cases op with
  | get env ty key cap =>
    obtain ⟨-, rfl⟩ := Prod.mk.inj (Option.some.inj hstep)
    rw [storageGetAs_eq, withReadTxn_none]
    exact h
  | set env key v =>
    obtain ⟨-, rfl⟩ := Prod.mk.inj (Option.some.inj hstep)
    rw [storageSetValue_eq]
    exact h.write hfree fun _ _ => sameOutside_txnSetValue
  | delete env key =>
    obtain ⟨-, rfl⟩ := Prod.mk.inj (Option.some.inj hstep)
    exact h.write hfree fun _ _ => sameOutside_txnDeleteImpl
  | existsKey env key =>
    obtain ⟨-, rfl⟩ := Prod.mk.inj (Option.some.inj hstep)
    exact h
  | typeOf env key =>
    obtain ⟨-, rfl⟩ := Prod.mk.inj (Option.some.inj hstep)
    exact h
  | txnBegin env readonly =>
    by_cases hro : (!readonly && env.readonly) = true
    · simp only [storageTxnBegin, if_pos hro] at hstep
      obtain ⟨-, rfl⟩ := Prod.mk.inj (Option.some.inj hstep)
      exact h
    · have hw : ¬(!readonly && s.mdb.writer) = true := by
        revert hfree hro
        simp only [StoreOp.wantsWriter]
        cases readonly <;> cases env.readonly <;> simp
      simp only [storageTxnBegin_none hro hw] at hstep
      obtain ⟨-, rfl⟩ := Prod.mk.inj (Option.some.inj hstep)
      exact h.openTxn hw
  | txnCommit i =>
    obtain ⟨⟨ro, ⟨rd, view⟩⟩, ht, heq⟩ := Option.map_eq_some_iff.mp hstep
    obtain ⟨-, rfl⟩ := Prod.mk.inj heq
    cases rd with
    | true => exact h.closeTxn ht h.committed fun _ => rfl
    | false => exact h.closeTxn ht (h.views i _ ht rfl) fun habs => absurd habs (by simp)
  | txnAbort i =>
    obtain ⟨⟨ro, ⟨rd, view⟩⟩, ht, heq⟩ := Option.map_eq_some_iff.mp hstep
    obtain ⟨-, rfl⟩ := Prod.mk.inj heq
    cases rd with
    | true => exact h.closeTxn ht h.committed fun _ => rfl
    | false => exact h.closeTxn ht h.committed fun habs => absurd habs (by simp)
  | txnGet i ty hty key cap =>
    obtain ⟨t, -, heq⟩ := Option.map_eq_some_iff.mp hstep
    obtain ⟨-, rfl⟩ := Prod.mk.inj heq
    exact h
  | txnSet i key v hv =>
    simp only [storageTxnSetValue_eq] at hstep
    exact h.txnWrite i (fun _ _ => sameOutside_txnSetValue) hstep
  | txnDelete i key => exact h.txnWrite i (fun _ _ => sameOutside_txnDeleteImpl) hstep

end Store.Confined

/-! ### The simulation -/

/-- **The environment represents the shared map.** -/
structure SharedRel (s : Store) (a : SharedMap) : Prop where
  typed : StoreRel s a.typed
  confined : s.Confined fun k => (a.other k).map Value.encode

namespace SharedRel

variable {s : Store} {a : SharedMap} {l : List (Bytes × Option Value)}

/-- Under every key lies the encoding of its value. -/
theorem getElem? (h : SharedRel s a) (key : Bytes) :
    s.mdb.committed[key]? = (a.find key).map Value.encode := by
  rw [SharedMap.find]
  split_ifs with hkey
  · exact h.typed.committed ⟨key, hkey⟩
  · exact h.confined.committed key hkey

/-! #### Reading -/

theorem getValue_eq (h : SharedRel s a) (fails : Bool) (key : Bytes) :
    getValue fails key s.mdb.committed = a.get fails key := by
  rw [getValue, SharedMap.get, getRaw, SharedMap.lookup]
  split_ifs
  · rfl
  · rw [h.getElem?]
    rcases a.find key with _ | v
    · rfl
    · simp only [Option.map_some, Value.decode_encode]
      rfl

theorem tryGet_eq (h : SharedRel s a) (fails : Bool) (key : Bytes) :
    tryGet fails key s.mdb.committed = a.lookup fails key := by
  rw [tryGet, getRaw, SharedMap.lookup]
  split_ifs
  · rfl
  · rw [h.getElem?]
    rcases a.find key with _ | v
    · rfl
    · simp only [Option.map_some, Value.decode_encode]
      rfl

theorem getTyped_eq (h : SharedRel s a) (fails : Bool) (key : Bytes) (expected : StorageType) :
    getTyped fails key expected s.mdb.committed = a.getTyped fails key expected := by
  rw [getTyped, h.getValue_eq]
  rfl

/-! #### Writing -/

/-- Bytes that are assigned with the writer slot free. -/
theorem commit (h : SharedRel s a) (hfree : s.mdb.writer = false) {db : Lmdb}
    (hdb : (fun k : Bytes => db[k]?) =
      assign (fun k => s.mdb.committed[k]?) (l.map fun p => (p.1, p.2.map Value.encode))) :
    SharedRel { s with mdb := { s.mdb with committed := db } } (a.commit l) := by
  have hall : ∀ k, db[k]? = (assign a.find l k).map Value.encode := fun k =>
    (congrFun hdb k).trans
      (assign_map Function.injective_id (Option.map Value.encode) h.getElem? l k)
  refine ⟨⟨fun k => hall k.1, h.typed.writer, h.typed.next, h.typed.txns⟩, ?_⟩
  have hconfined : Store.Confined { s with mdb := ⟨db, false⟩ }
      fun k => (assign a.find l k).map Value.encode := h.confined.commit hfree fun k _ => hall k
  rw [← hfree] at hconfined
  exact hconfined

/-- A call leaves the content and the map represented, with the same answer. -/
def Agrees (s : Store) (r : Except StorageError Unit × Lmdb)
    (r' : Except StorageError Unit × SharedMap) : Prop :=
  r.1 = r'.1 ∧ SharedRel { s with mdb := { s.mdb with committed := r.2 } } r'.2

theorem agrees_error (h : SharedRel s a) (err : StorageError) :
    Agrees s (.error err, s.mdb.committed) (.error err, a) := ⟨rfl, h⟩

/-- A transaction of its own. -/
theorem write (h : SharedRel s a) (hfree : s.mdb.writer = false) {fails : Prop} [Decidable fails]
    {r : Except StorageError Unit × Lmdb} (hfail : fails → r = (.error .lmdb, s.mdb.committed))
    (hok : ¬fails → r.1 = .ok () ∧ (fun k : Bytes => r.2[k]?) =
      assign (fun k => s.mdb.committed[k]?) (l.map fun p => (p.1, p.2.map Value.encode))) :
    Agrees s r (a.write fails l) := by
  rw [SharedMap.write]
  split_ifs with hf
  · rw [hfail hf]
    exact h.agrees_error .lmdb
  · obtain ⟨hdone, hdb⟩ := hok hf
    exact ⟨hdone, h.commit hfree hdb⟩

theorem put (h : SharedRel s a) (hfree : s.mdb.writer = false) (fails : Bool) (key : Bytes)
    (value : Value) :
    Agrees s (cachePut fails key value s.mdb.committed)
      (a.write (fails = true ∨ key.length = 0 ∨ key.length > mdbMaxKeySize)
        [(key, some value)]) := by
  refine h.write hfree (fun hf => if_pos hf) fun hf => ?_
  rw [cachePut, if_neg hf]
  exact ⟨rfl, getElem?_foldl_insert [(key, value.encode)] s.mdb.committed⟩

theorem delete (h : SharedRel s a) (hfree : s.mdb.writer = false) (fails : Bool) (key : Bytes) :
    Agrees s (cacheDelete fails key s.mdb.committed)
      (a.write (fails = true ∨ key.length = 0) [(key, none)]) := by
  rw [cacheDelete, deleteManyRaw]
  have hiff : (fails || key.length == 0) = true ↔ fails = true ∨ key.length = 0 := by simp
  refine h.write hfree (fun hf => if_pos (hiff.mpr hf)) fun hf => ?_
  rw [if_neg (hf ∘ hiff.mp)]
  exact ⟨rfl, getElem?_foldl_erase [key] s.mdb.committed⟩

end SharedRel

/-! #### Rows -/

/-- The keys of the cells come first, and the values go with them. -/
theorem putRowLoop_eq (inst : List UInt32) (cells : List (Bytes × Value)) :
    ∀ encoded, putRowLoop inst cells encoded =
      (SharedMap.rowKeys inst cells).map fun l => encoded ++ l.map fun c => (c.1, c.2.encode) := by
  induction cells with
  | nil =>
    intro encoded
    simp [putRowLoop, SharedMap.rowKeys, Except.map]
  | cons c cells ih =>
    intro encoded
    rw [putRowLoop, SharedMap.rowKeys]
    rcases Table.cellKey c.1 inst with err | key
    · rfl
    · simp only [ih]
      rcases SharedMap.rowKeys inst cells with err | l
      · rfl
      · simp [Except.map]

theorem deleteRowLoop_eq (inst : List UInt32) (columns : List Bytes) :
    ∀ pushed, deleteRowLoop inst columns pushed =
      (SharedMap.rowKeys inst (columns.map fun c => (c, ()))).map fun l =>
        pushed ++ l.map Prod.fst := by
  induction columns with
  | nil =>
    intro pushed
    simp [deleteRowLoop, SharedMap.rowKeys, Except.map]
  | cons column columns ih =>
    intro pushed
    rw [deleteRowLoop, List.map_cons, SharedMap.rowKeys]
    rcases Table.cellKey column inst with err | key
    · rfl
    · simp only [ih]
      rcases SharedMap.rowKeys inst (columns.map fun c => (c, ())) with err | l
      · rfl
      · simp [Except.map]

namespace SharedRel

variable {s : Store} {a : SharedMap}

theorem putRow (h : SharedRel s a) (hfree : s.mdb.writer = false) (fails : Bool)
    (inst : List UInt32) (cells : List (Bytes × Value)) :
    Agrees s (AgentxSubagent.putRow fails inst cells s.mdb.committed)
      (a.writeRow fails inst cells some) := by
  rw [AgentxSubagent.putRow, putRowLoop_eq, SharedMap.writeRow]
  rcases SharedMap.rowKeys inst cells with err | l
  · exact h.agrees_error (.tableKey err)
  · refine h.write hfree (fun hf => if_pos hf) fun hf => ?_
    simp only [Except.map, List.nil_append, putManyRaw, if_neg hf, List.map_map]
    refine ⟨trivial, (getElem?_foldl_insert _ _).trans ?_⟩
    rw [List.map_map]
    rfl

theorem deleteRow (h : SharedRel s a) (hfree : s.mdb.writer = false) (fails : Bool)
    (inst : List UInt32) (columns : List Bytes) :
    Agrees s (AgentxSubagent.deleteRow fails inst columns s.mdb.committed)
      (a.writeRow fails inst (columns.map fun c => (c, ())) fun _ => none) := by
  rw [AgentxSubagent.deleteRow, deleteRowLoop_eq, SharedMap.writeRow]
  rcases SharedMap.rowKeys inst (columns.map fun c => (c, ())) with err | l
  · exact h.agrees_error (.tableKey err)
  · refine h.write hfree (fun hf => if_pos hf) fun hf => ?_
    simp only [Except.map, List.nil_append, deleteManyRaw, if_neg hf, List.map_map]
    refine ⟨trivial, (getElem?_foldl_erase _ _).trans ?_⟩
    rw [List.map_map]
    rfl

/-- **A Rust call** answers what the map says and leaves it represented. -/
theorem exec (h : SharedRel s a) {op : RustOp} (hfree : ¬(op.writes && s.mdb.writer) = true) :
    (op.exec s.mdb.committed).1 = (a.stepRust op).1 ∧
      SharedRel { s with mdb := { s.mdb with committed := (op.exec s.mdb.committed).2 } }
        (a.stepRust op).2 := by
  -- what a writing call answers is what its transaction does
  have hdone : ∀ {r r'}, Agrees s r r' → RustObs.done r.1 = RustObs.done r'.1 ∧
      SharedRel { s with mdb := { s.mdb with committed := r.2 } } r'.2 :=
    fun hagrees => ⟨congrArg RustObs.done hagrees.1, hagrees.2⟩
  cases op with
  | get fails key => exact ⟨congrArg RustObs.value (h.getValue_eq fails key), h⟩
  | getTyped fails key expected =>
    exact ⟨congrArg RustObs.value (h.getTyped_eq fails key expected), h⟩
  | tryGet fails key => exact ⟨congrArg RustObs.found (h.tryGet_eq fails key), h⟩
  | put fails key value => exact hdone (h.put (by simpa [RustOp.writes] using hfree) fails key value)
  | delete fails key => exact hdone (h.delete (by simpa [RustOp.writes] using hfree) fails key)
  | putRow fails inst cells =>
    exact hdone (h.putRow (by simpa [RustOp.writes] using hfree) fails inst cells)
  | deleteRow fails inst columns =>
    exact hdone (h.deleteRow (by simpa [RustOp.writes] using hfree) fails inst columns)

end SharedRel

/-- **One call of either program matches the shared map.** -/
theorem Store.shared_matches {s : Store} {a : SharedMap} (h : SharedRel s a) (op : SharedOp) :
    Matches SharedRel (s.stepShared op) (a.step op) := by
  cases op with
  | subagent op =>
    rw [Store.stepShared, SharedMap.step]
    have hm := Store.step_matches h.typed op
    rcases hs : s.step op with _ | ⟨o, s'⟩
    · rcases ha : a.typed.step op with _ | ⟨o', a'⟩
      · exact .stuck
      · rw [hs, ha] at hm
        cases hm
    · rcases ha : a.typed.step op with _ | ⟨o', a'⟩
      · rw [hs, ha] at hm
        cases hm
      · rw [hs, ha] at hm
        obtain _ | hrel := hm
        exact .next ⟨hrel, h.confined.step hs⟩
  | rust op =>
    rw [Store.stepShared, SharedMap.step, ← h.typed.writer]
    split_ifs with hfree
    · exact .stuck
    · obtain ⟨hobs, hrel⟩ := h.exec hfree
      simp only [hobs]
      exact .next hrel

theorem sharedRel_init : SharedRel .init .init where
  typed := storeRel_init
  confined := by
    refine ⟨fun k _ => ?_, fun _ _ ht => ?_, fun _ _ ht => ?_, fun _ _ _ _ ht => ?_⟩
    · simp [Store.init, MdbEnv.idle, SharedMap.init]
    all_goals exact absurd ht (by simp [Store.init])

/-- **The two programs share one typed map.** Every interleaving of calls of the subagent, alone
and inside transactions, and of the Rust app, reading, writing and deleting single keys and
whole rows with any of its transactions failing, answers call by call what the map answers: what
one has committed the other reads, a transaction keeps its snapshot, and nothing that is stored
fails to decode. -/
theorem shared_environment (ops : List SharedOp) :
    (run Store.stepShared .init ops).map Prod.fst = (run SharedMap.step .init ops).map Prod.fst :=
  run_eq_of_simulation (fun _ _ h op => Store.shared_matches h op) ops sharedRel_init

end AgentxSubagent
