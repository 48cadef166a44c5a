import AgentxSubagent.Lib.Runs
import AgentxSubagent.Storage.Interop

/-!
# The storage API refines a typed map

What the storage API is for: a map from keys of 1 to 255 bytes to typed values, with
snapshots and a single writer. `AgentxSubagent.TypedStore` is that map, written without a
byte of the encoding, and `AgentxSubagent.TypedStore.step` says what each call answers.

`AgentxSubagent.Store` is the API of `src/storage_lmdb.c` itself, over an environment and
the transactions a program has open in it; `AgentxSubagent.Store.step` dispatches every
entry point, through read-write and read-only handles.

* A call that would wait for a writer the program itself holds, and a call on a transaction
  that is not open, are not admissible: both systems are stuck there.
* `AgentxSubagent.Store.step_matches`: one call answers the same on both sides and keeps
  them related (`AgentxSubagent.StoreRel`).
* `AgentxSubagent.storage_refines_typed_map`: so does every sequence of calls from an empty
  environment.
-/

namespace AgentxSubagent

open Runs

/-! ### The entry points, one per family -/

section Families

variable (f : Fault)

/-- The reading helper of a type, `storage_get_int` to `storage_get_oid`. -/
def storageGetAs (ty : StorageType) (key : Bytes) (cap : ℕ) (e : MdbEnv) :
    (Except StorageErr Value × ℕ) × MdbEnv :=
  match ty with
  | .int32 => let r := storageGetInt f key e; ((r.1.map .int32, cap), r.2)
  | .uint32 => let r := storageGetUint f key e; ((r.1.map .uint32, cap), r.2)
  | .uint64 => let r := storageGetU64 f key e; ((r.1.map .uint64, cap), r.2)
  | .bytes => let r := storageGetBytes f key cap e; ((r.1.1.map .bytes, r.1.2), r.2)
  | .oid => let r := storageGetOid f key cap e; ((r.1.1.map .oid, r.1.2), r.2)

/-- The writing helper of a value's type, `storage_set_int` to `storage_set_oid`. -/
def storageSetValue (env : StorageEnv) (key : Bytes) :
    Value → MdbEnv → Except StorageErr Unit × MdbEnv
  | .int32 v => storageSetInt f env key v
  | .uint32 v => storageSetUint f env key v
  | .uint64 v => storageSetU64 f env key v
  | .bytes v => storageSetBytes f env key v
  | .oid subids => storageSetOid f env key subids

/-- The getter of a type inside an explicit transaction, `storage_txn_get_int` to
`storage_txn_get_bytes`. There is none for OIDs. -/
def storageTxnGetAs (stxn : StorageTxn) (key : Bytes) (cap : ℕ) :
    (ty : StorageType) → ty ≠ .oid → Except StorageErr Value × ℕ
  | .int32, _ => ((storageTxnGetInt f stxn key).map .int32, cap)
  | .uint32, _ => ((storageTxnGetUint f stxn key).map .uint32, cap)
  | .uint64, _ => ((storageTxnGetU64 f stxn key).map .uint64, cap)
  | .bytes, _ => let r := storageTxnGetBytes f stxn key cap; (r.1.map .bytes, r.2)
  | .oid, h => absurd rfl h

/-- The setter of a value's type inside an explicit transaction, `storage_txn_set_int` to
`storage_txn_set_bytes`. -/
def storageTxnSetValue (stxn : StorageTxn) (key : Bytes) :
    (v : Value) → v.storageType ≠ .oid → Except StorageErr StorageTxn
  | .int32 v, _ => storageTxnSetInt f stxn key v
  | .uint32 v, _ => storageTxnSetUint f stxn key v
  | .uint64 v, _ => storageTxnSetU64 f stxn key v
  | .bytes v, _ => storageTxnSetBytes f stxn key v
  | .oid _, h => absurd rfl h

/-- Each reading helper is its getter in a transaction of its own. -/
theorem storageGetAs_eq (ty : StorageType) (key : Bytes) (cap : ℕ) (e : MdbEnv) :
    storageGetAs f ty key cap e =
      withReadTxn f (fun rc => (.error rc, cap)) (fun txn => txnGetAs ty f txn key cap) e := by
  cases ty <;> simp only [storageGetAs, storageGetInt, storageGetUint, storageGetU64,
    storageGetBytes, storageGetOid, withReadTxn, txnGetAs]
  all_goals
    rcases beginReadTxn f e with rc | ⟨txn, e'⟩
    · rfl
    · rfl

/-- Each writing helper is its setter in a transaction of its own. -/
theorem storageSetValue_eq (env : StorageEnv) (key : Bytes) (v : Value) (e : MdbEnv) :
    storageSetValue f env key v e = withWriteTxn f env (fun txn => txnSetValue f txn key v) e := by
  cases v <;> rfl

theorem storageTxnGetAs_eq (stxn : StorageTxn) (key : Bytes) (cap : ℕ) {ty : StorageType}
    (h : ty ≠ .oid) : storageTxnGetAs f stxn key cap ty h = txnGetAs ty f stxn.txn key cap := by
  cases ty with
  | oid => exact absurd rfl h
  | _ => rfl

theorem storageTxnSetValue_eq (stxn : StorageTxn) (key : Bytes) {v : Value}
    (h : v.storageType ≠ .oid) :
    storageTxnSetValue f stxn key v h = writeInTxn stxn fun txn => txnSetValue f txn key v := by
  cases v with
  | oid => exact absurd rfl h
  | _ => rfl

end Families

/-! ### A program over the API -/

/-- One call of the API. Transactions are named by the order in which they were begun. -/
inductive StoreOp
  | get (env : StorageEnv) (ty : StorageType) (key : Bytes) (cap : ℕ)
  | set (env : StorageEnv) (key : Bytes) (v : Value)
  | delete (env : StorageEnv) (key : Bytes)
  | existsKey (env : StorageEnv) (key : Bytes)
  | typeOf (env : StorageEnv) (key : Bytes)
  | txnBegin (env : StorageEnv) (readonly : Bool)
  | txnCommit (txn : ℕ)
  | txnAbort (txn : ℕ)
  | txnGet (txn : ℕ) (ty : StorageType) (hty : ty ≠ .oid) (key : Bytes) (cap : ℕ)
  | txnSet (txn : ℕ) (key : Bytes) (v : Value) (hv : v.storageType ≠ .oid)
  | txnDelete (txn : ℕ) (key : Bytes)

/-- What a call answers: a code, and with it a value and the length needed, a type tag or a
new transaction. -/
inductive StoreObs
  | value (r : Except StorageErr Value × ℕ)
  | done (r : Except StorageErr Unit)
  | tag (r : Except StorageErr UInt8)
  | handle (r : Except StorageErr ℕ)

/-- A call that needs the writer slot. -/
def StoreOp.wantsWriter : StoreOp → Bool
  | .set env _ _ | .delete env _ => !env.readonly
  | .txnBegin env readonly => !readonly && !env.readonly
  | _ => false

/-- The environment and the open transactions of a program. -/
structure Store where
  mdb : MdbEnv
  txns : ℕ → Option StorageTxn
  next : ℕ

/-- An empty environment without an open transaction. -/
def Store.init : Store := ⟨.idle ∅, fun _ => none, 0⟩

/-- A write inside an open transaction: its outcome replaces the transaction. -/
def Store.txnWrite (s : Store) (h : ℕ) (body : StorageTxn → Except StorageErr StorageTxn) :
    Option (StoreObs × Store) :=
  match s.txns h with
  | none => none
  | some stxn =>
    match body stxn with
    | .error rc => some (.done (.error rc), s)
    | .ok stxn' => some (.done (.ok ()), { s with txns := Function.update s.txns h (some stxn') })

/-- One call of the API in which nothing fails; stuck on a transaction that is not open and
on a call that would wait for a writer of the same program. -/
def Store.step (s : Store) (op : StoreOp) : Option (StoreObs × Store) :=
  if op.wantsWriter && s.mdb.writer then none
  else
    match op with
    | .get _ ty key cap =>
      let r := storageGetAs .none ty key cap s.mdb
      some (.value r.1, { s with mdb := r.2 })
    | .set env key v =>
      let r := storageSetValue .none env key v s.mdb
      some (.done r.1, { s with mdb := r.2 })
    | .delete env key =>
      let r := storageDelete .none env key s.mdb
      some (.done r.1, { s with mdb := r.2 })
    | .existsKey _ key =>
      let r := storageExists .none key s.mdb
      some (.done r.1, { s with mdb := r.2 })
    | .typeOf _ key =>
      let r := storageTypeOf .none key s.mdb
      some (.tag r.1, { s with mdb := r.2 })
    | .txnBegin env readonly =>
      match storageTxnBegin .none env readonly s.mdb with
      | (.error rc, e) => some (.handle (.error rc), { s with mdb := e })
      | (.ok stxn, e) =>
        some (.handle (.ok s.next), ⟨e, Function.update s.txns s.next (some stxn), s.next + 1⟩)
    | .txnCommit h =>
      (s.txns h).map fun stxn =>
        let r := storageTxnCommit .none stxn s.mdb
        (.done r.1, { s with mdb := r.2, txns := Function.update s.txns h none })
    | .txnAbort h =>
      (s.txns h).map fun stxn =>
        (.done (.ok ()), { s with
          mdb := storageTxnAbort stxn s.mdb, txns := Function.update s.txns h none })
    | .txnGet h ty hty key cap =>
      (s.txns h).map fun stxn => (.value (storageTxnGetAs .none stxn key cap ty hty), s)
    | .txnSet h key v hv => s.txnWrite h fun stxn => storageTxnSetValue .none stxn key v hv
    | .txnDelete h key => s.txnWrite h fun stxn => storageTxnDelete .none stxn key

/-! ### The typed map -/

/-- A key: 1 to 255 bytes. -/
abbrev Key := { k : Bytes // ValidKey k }

/-- What is stored, seen from outside: typed values under keys. -/
abbrev TypedMap := Key → Option Value

/-- A byte string as a key, or the code that refuses it. -/
def toKey (key : Bytes) : Except StorageErr Key :=
  if h : ValidKey key then .ok ⟨key, h⟩
  else if key.length = 0 then .error .inval
  else .error .tooBig

namespace TypedMap

/-- Look a key up. -/
def find (m : TypedMap) (key : Bytes) : Except StorageErr Value := do
  let k ← toKey key
  match m k with
  | none => .error .notFound
  | some v => .ok v

/-- Look up a value of a type, for a caller with room for `cap` units: the value, and the
exact room it needs when it has a length. -/
def get (m : TypedMap) (ty : StorageType) (key : Bytes) (cap : ℕ) : Except StorageErr Value × ℕ :=
  match m.find key with
  | .error rc => (.error rc, cap)
  | .ok v =>
    if v.storageType ≠ ty then (.error .typeMismatch, cap)
    else
      match v.units with
      | none => (.ok v, cap)
      | some n => if n ≤ cap then (.ok v, n) else (.error .tooBig, n)

/-- Store a value. -/
def put (key : Bytes) (v : Value) (m : TypedMap) : Except StorageErr TypedMap := do
  let k ← toKey key
  .ok (Function.update m k (some v))

/-- Remove a key that is there. -/
def remove (key : Bytes) (m : TypedMap) : Except StorageErr TypedMap := do
  let k ← toKey key
  if m k = none then .error .notFound else .ok (Function.update m k none)

end TypedMap

/-- A transaction of the typed map. -/
structure TypedTxn where
  readonly : Bool
  view : TypedMap

/-- The typed map with its open transactions. -/
structure TypedStore where
  committed : TypedMap
  writer : Bool
  txns : ℕ → Option TypedTxn
  next : ℕ

namespace TypedStore

/-- The empty map without an open transaction. -/
def init : TypedStore := ⟨fun _ => none, false, fun _ => none, 0⟩

/-- A committed change, refused through a read-only handle. -/
def write (a : TypedStore) (env : StorageEnv) (edit : TypedMap → Except StorageErr TypedMap) :
    StoreObs × TypedStore :=
  if env.readonly then (.done (.error .readOnly), a)
  else
    match edit a.committed with
    | .error rc => (.done (.error rc), a)
    | .ok m => (.done (.ok ()), { a with committed := m })

/-- A change inside a transaction, refused in a read-only one. -/
def txnWrite (a : TypedStore) (h : ℕ) (edit : TypedMap → Except StorageErr TypedMap) :
    Option (StoreObs × TypedStore) :=
  match a.txns h with
  | none => none
  | some t =>
    if t.readonly then some (.done (.error .readOnly), a)
    else
      match edit t.view with
      | .error rc => some (.done (.error rc), a)
      | .ok m =>
        some (.done (.ok ()),
          { a with txns := Function.update a.txns h (some { t with view := m }) })

/-- **What each call is supposed to answer.** A get sees what was last committed, a
transaction its own writes over what was committed when it began. -/
def step (a : TypedStore) (op : StoreOp) : Option (StoreObs × TypedStore) :=
  if op.wantsWriter && a.writer then none
  else
    match op with
    | .get _ ty key cap => some (.value (a.committed.get ty key cap), a)
    | .set env key v => some (a.write env (TypedMap.put key v))
    | .delete env key => some (a.write env (TypedMap.remove key))
    | .existsKey _ key => some (.done ((a.committed.find key).map fun _ => ()), a)
    | .typeOf _ key => some (.tag ((a.committed.find key).map fun v => v.storageType.tag), a)
    | .txnBegin env readonly =>
      if !readonly && env.readonly then some (.handle (.error .readOnly), a)
      else
        some (.handle (.ok a.next), { a with
          writer := a.writer || !readonly
          txns := Function.update a.txns a.next (some ⟨readonly, a.committed⟩)
          next := a.next + 1 })
    | .txnCommit h =>
      (a.txns h).map fun t =>
        (.done (.ok ()), { a with
          committed := if t.readonly then a.committed else t.view
          writer := if t.readonly then a.writer else false
          txns := Function.update a.txns h none })
    | .txnAbort h =>
      (a.txns h).map fun t =>
        (.done (.ok ()), { a with
          writer := if t.readonly then a.writer else false
          txns := Function.update a.txns h none })
    | .txnGet h ty _ key cap => (a.txns h).map fun t => (.value (t.view.get ty key cap), a)
    | .txnSet h key v _ => a.txnWrite h (TypedMap.put key v)
    | .txnDelete h key => a.txnWrite h (TypedMap.remove key)

end TypedStore

/-! ### The bytes represent the map -/

/-- **A content represents a typed map**: under every key lies the encoding of its value. -/
def Represents (db : Lmdb) (m : TypedMap) : Prop := ∀ k : Key, db[k.1]? = (m k).map Value.encode

theorem toKey_of_valid {key : Bytes} (h : ValidKey key) : toKey key = .ok ⟨key, h⟩ := dif_pos h

/-- Outside the valid keys the map gives the codes of `validate_key`. -/
theorem toKey_of_not_valid {key : Bytes} (h : ¬ValidKey key) :
    ∃ rc, toKey key = .error rc ∧ validateKey key = .error rc := by
  by_cases h0 : key.length = 0
  · exact ⟨.inval, by rw [toKey, dif_neg h, if_pos h0], if_pos h0⟩
  · refine ⟨.tooBig, by rw [toKey, dif_neg h, if_neg h0], ?_⟩
    rw [validateKey, if_neg h0, if_pos]
    by_contra hle
    exact h ⟨Nat.one_le_iff_ne_zero.mpr h0, Nat.le_of_not_lt hle⟩

/-- **A raw read finds the encoding of what the map holds.** -/
theorem Represents.txnGetRaw {txn : MdbTxn} {m : TypedMap} (h : Represents txn.view m)
    (key : Bytes) : txnGetRaw .none txn key = (m.find key).map Value.encode := by
  by_cases hkey : ValidKey key
  · rw [txnGetRaw_valid hkey, h ⟨key, hkey⟩, TypedMap.find, toKey_of_valid hkey]
    simp only [bind, Except.bind]
    cases m ⟨key, hkey⟩ <;> rfl
  · obtain ⟨rc, hm, hv⟩ := toKey_of_not_valid hkey
    rw [txnGetRaw_invalid hv, TypedMap.find, hm]
    rfl

/-- The getters answer what the map holds. -/
theorem Represents.txnGetAs {txn : MdbTxn} {m : TypedMap} (h : Represents txn.view m)
    (ty : StorageType) (key : Bytes) (cap : ℕ) :
    txnGetAs ty .none txn key cap = m.get ty key cap := by
  rw [txnGetAs_eq, h.txnGetRaw, TypedMap.get]
  cases m.find key with
  | error rc => rfl
  | ok v =>
    simp only [Except.map]
    by_cases hty : v.storageType = ty
    · subst hty
      rw [readAs_encode, if_neg (not_not_intro rfl), Value.deliver]
      cases v.units with
      | none => rfl
      | some n =>
        by_cases hn : n ≤ cap
        · simp [hn]
        · simp [hn, Nat.lt_of_not_le hn]
    · rw [readAs_encode_other (Ne.symm hty), if_pos hty]

/-- Looking a key up without decoding it. -/
theorem Represents.txnExistsImpl {txn : MdbTxn} {m : TypedMap} (h : Represents txn.view m)
    (key : Bytes) : txnExistsImpl .none txn key = (m.find key).map fun _ => () := by
  rw [AgentxSubagent.txnExistsImpl, h.txnGetRaw]
  cases m.find key <;> rfl

/-- The stored tag is the one of the value's type. -/
theorem Represents.txnTypeOfImpl {txn : MdbTxn} {m : TypedMap} (h : Represents txn.view m)
    (key : Bytes) :
    txnTypeOfImpl .none txn key = (m.find key).map fun v => v.storageType.tag := by
  rw [AgentxSubagent.txnTypeOfImpl, h.txnGetRaw]
  cases m.find key with
  | error rc => rfl
  | ok v =>
    have hlen : ¬v.encode.length < 4 := by simp [Value.encode]
    simp only [Except.map, bind, Except.bind, if_neg hlen]
    rfl

/-! ### Changes -/

/-- The outcome of a change to a transaction and to the map: the same refusal, or a new view
that represents the new map. -/
inductive EditRel : Except StorageErr MdbTxn → Except StorageErr TypedMap → Prop
  | error (rc : StorageErr) : EditRel (.error rc) (.error rc)
  | ok {view : Lmdb} {m : TypedMap} : Represents view m → EditRel (.ok ⟨false, view⟩) (.ok m)

/-- Inserting the encoding of a value represents storing it. -/
theorem Represents.insert {db : Lmdb} {m : TypedMap} (h : Represents db m) (k : Key) (v : Value) :
    Represents (db.insert k.1 v.encode) (Function.update m k (some v)) := by
  intro k'
  by_cases hk : k' = k
  · subst hk
    simp
  · have hne : k.1 ≠ k'.1 := fun he => hk (Subtype.ext he.symm)
    rw [Function.update_of_ne hk, ← h k']
    simp [Std.ExtTreeMap.getElem?_insert, hne]

/-- Erasing a key represents removing it. -/
theorem Represents.erase {db : Lmdb} {m : TypedMap} (h : Represents db m) (k : Key) :
    Represents (db.erase k.1) (Function.update m k none) := by
  intro k'
  by_cases hk : k' = k
  · subst hk
    simp
  · have hne : k.1 ≠ k'.1 := fun he => hk (Subtype.ext he.symm)
    rw [Function.update_of_ne hk, ← h k']
    simp [Std.ExtTreeMap.getElem?_erase, hne]

/-- A setter stores the value in the map. -/
theorem Represents.txnSetValue {db : Lmdb} {m : TypedMap} (h : Represents db m) (key : Bytes)
    (v : Value) : EditRel (txnSetValue .none ⟨false, db⟩ key v) (m.put key v) := by
  rw [txnSetValue_eq, if_neg (by simp [Fault.none]), TypedMap.put]
  by_cases hkey : ValidKey key
  · rw [txnPutRaw_valid hkey rfl, toKey_of_valid hkey]
    exact .ok (h.insert ⟨key, hkey⟩ v)
  · obtain ⟨rc, hm, hv⟩ := toKey_of_not_valid hkey
    rw [txnPutRaw_invalid hv, hm]
    exact .error rc

/-- `txn_delete_impl` removes the key from the map. -/
theorem Represents.txnDeleteImpl {db : Lmdb} {m : TypedMap} (h : Represents db m) (key : Bytes) :
    EditRel (txnDeleteImpl .none ⟨false, db⟩ key) (m.remove key) := by
  rw [AgentxSubagent.txnDeleteImpl, TypedMap.remove]
  by_cases hkey : ValidKey key
  · rw [validateKey_of_valid hkey, toKey_of_valid hkey]
    have hk := h ⟨key, hkey⟩
    simp only [bind, Except.bind]
    rcases hm : m ⟨key, hkey⟩ with _ | v
    · rw [hm] at hk
      have hnot : key ∉ db := by
        rw [Std.ExtTreeMap.mem_iff_isSome_getElem?, hk]
        simp
      rw [mdbDel, if_neg hnot]
      exact .error .notFound
    · rw [hm] at hk
      have hmem : key ∈ db := by
        rw [Std.ExtTreeMap.mem_iff_isSome_getElem?, hk]
        rfl
      rw [mdbDel, if_pos hmem]
      exact .ok (h.erase ⟨key, hkey⟩)
  · obtain ⟨rc, hm, hv⟩ := toKey_of_not_valid hkey
    rw [hv, hm]
    exact .error rc

/-! ### Transactions of their own -/

/-- A reading helper in which nothing fails reads the committed content and leaves the
environment as it was. -/
theorem withReadTxn_none {β : Type} (fail : StorageErr → β) (body : MdbTxn → β) (e : MdbEnv) :
    withReadTxn .none fail body e = (body ⟨true, e.committed⟩, e) := rfl

/-- A writing helper in which nothing fails, with the writer slot free: its change is
committed or refused as a whole, and the slot is free again. -/
theorem withWriteTxn_none {env : StorageEnv} (hro : env.readonly = false)
    {body : MdbTxn → Except StorageErr MdbTxn} {db : Lmdb} {edit : Except StorageErr TypedMap}
    (h : EditRel (body ⟨false, db⟩) edit) :
    (∃ rc, edit = .error rc ∧ withWriteTxn .none env body (.idle db) = (.error rc, .idle db)) ∨
      ∃ m db', edit = .ok m ∧ Represents db' m ∧
        withWriteTxn .none env body (.idle db) = (.ok (), .idle db') := by
  have hbegin : beginWriteTxn .none env (.idle db) = .ok (⟨false, db⟩, ⟨db, true⟩) := by
    rw [beginWriteTxn, if_neg (by simp [hro])]
    rfl
  rw [withWriteTxn, hbegin]
  simp only
  generalize body ⟨false, db⟩ = r at h
  obtain rc | hview := h
  · exact Or.inl ⟨rc, rfl, rfl⟩
  · exact Or.inr ⟨_, _, rfl, hview, rfl⟩

/-- Beginning a transaction in which nothing fails takes a snapshot; a write transaction
also takes the writer slot. -/
theorem storageTxnBegin_none {env : StorageEnv} {readonly : Bool} {e : MdbEnv}
    (hro : ¬(!readonly && env.readonly) = true) (hfree : ¬(!readonly && e.writer) = true) :
    storageTxnBegin .none env readonly e =
      (.ok ⟨readonly, ⟨readonly, e.committed⟩⟩, ⟨e.committed, e.writer || !readonly⟩) := by
  obtain ⟨db, writer⟩ := e
  rw [storageTxnBegin, if_neg hro]
  cases readonly with
  | true =>
    rw [Bool.not_true, Bool.or_false]
    rfl
  | false =>
    obtain rfl : writer = false := by simpa using hfree
    rfl

/-! ### The simulation -/

/-- An open transaction and its abstract counterpart. -/
structure TxnRel (t : StorageTxn) (a : TypedTxn) : Prop where
  readonly : t.readonly = a.readonly
  rdonly : t.txn.rdonly = a.readonly
  view : Represents t.txn.view a.view

/-- **The relation kept by every call.** The committed content represents the committed map,
the writer slot is occupied on both sides or on neither, and the same transactions are
open. -/
structure StoreRel (s : Store) (a : TypedStore) : Prop where
  committed : Represents s.mdb.committed a.committed
  writer : s.mdb.writer = a.writer
  next : s.next = a.next
  txns : ∀ h, Option.Rel TxnRel (s.txns h) (a.txns h)

/-- Related tables of transactions stay related when the entry of one handle is replaced. -/
theorem rel_update {txns : ℕ → Option StorageTxn} {atxns : ℕ → Option TypedTxn}
    (h : ∀ k, Option.Rel TxnRel (txns k) (atxns k)) (i : ℕ) {t : Option StorageTxn}
    {a : Option TypedTxn} (hta : Option.Rel TxnRel t a) (k : ℕ) :
    Option.Rel TxnRel (Function.update txns i t k) (Function.update atxns i a k) := by
  by_cases hk : k = i
  · subst hk
    simpa using hta
  · rw [Function.update_of_ne hk, Function.update_of_ne hk]
    exact h k

variable {s : Store} {a : TypedStore}

/-- A call on an open transaction is stuck on both sides or on neither. -/
theorem StoreRel.open_txn (hR : StoreRel s a) (h : ℕ) :
    (s.txns h = none ∧ a.txns h = none) ∨
      ∃ t at', s.txns h = some t ∧ a.txns h = some at' ∧ TxnRel t at' := by
  have hrel := hR.txns h
  rcases hs : s.txns h with _ | t
  · rcases ha : a.txns h with _ | at'
    · exact Or.inl ⟨rfl, rfl⟩
    · rw [hs, ha] at hrel
      nomatch hrel
  · rcases ha : a.txns h with _ | at'
    · rw [hs, ha] at hrel
      nomatch hrel
    · rw [hs, ha] at hrel
      obtain hrel | _ := hrel
      exact Or.inr ⟨t, at', rfl, rfl, hrel⟩

/-- A writing helper matches the committed change it stands for. -/
theorem StoreRel.write (hR : StoreRel s a) {env : StorageEnv}
    (hfree : ¬(!env.readonly && s.mdb.writer) = true)
    {body : MdbTxn → Except StorageErr MdbTxn} {edit : TypedMap → Except StorageErr TypedMap}
    (h : EditRel (body ⟨false, s.mdb.committed⟩) (edit a.committed)) :
    Matches StoreRel
      (some (StoreObs.done (withWriteTxn .none env body s.mdb).1,
        { s with mdb := (withWriteTxn .none env body s.mdb).2 }))
      (some (a.write env edit)) := by
  obtain ⟨⟨db, writer⟩, txns, next⟩ := s
  rcases hro : env.readonly with _ | _
  · obtain rfl : writer = false := by simpa [hro] using hfree
    have hwrite : a.write env edit = match edit a.committed with
        | .error rc => (.done (.error rc), a)
        | .ok m => (.done (.ok ()), { a with committed := m }) := by
      rw [TypedStore.write, hro]
      rfl
    rw [hwrite]
    obtain ⟨rc, he, hw⟩ | ⟨m, db', he, hm, hw⟩ := withWriteTxn_none hro h
    · change Matches StoreRel (some (StoreObs.done (withWriteTxn .none env body (.idle db)).1,
        ⟨(withWriteTxn .none env body (.idle db)).2, txns, next⟩)) _
      rw [hw, he]
      exact .next hR
    · change Matches StoreRel (some (StoreObs.done (withWriteTxn .none env body (.idle db)).1,
        ⟨(withWriteTxn .none env body (.idle db)).2, txns, next⟩)) _
      rw [hw, he]
      exact .next ⟨hm, hR.writer, hR.next, hR.txns⟩
  · have hw : withWriteTxn .none env body ⟨db, writer⟩ = (.error .readOnly, ⟨db, writer⟩) := by
      rw [withWriteTxn, beginWriteTxn, if_pos hro]
    rw [TypedStore.write, if_pos hro, hw]
    exact .next hR

/-- A write inside an open transaction matches the change it stands for. -/
theorem StoreRel.txnWrite (hR : StoreRel s a) (h : ℕ)
    {body : MdbTxn → Except StorageErr MdbTxn} {edit : TypedMap → Except StorageErr TypedMap}
    (hedit : ∀ {db m}, Represents db m → EditRel (body ⟨false, db⟩) (edit m)) :
    Matches StoreRel (s.txnWrite h fun stxn => writeInTxn stxn body) (a.txnWrite h edit) := by
  rw [Store.txnWrite, TypedStore.txnWrite]
  obtain ⟨hs, ha⟩ | ⟨⟨ro, ⟨rd, view⟩⟩, ⟨aro, aview⟩, hs, ha, hro, hrd, hview⟩ := hR.open_txn h
  · rw [hs, ha]
    exact .stuck
  · simp only at hro hrd hview
    subst hro hrd
    rw [hs, ha]
    cases rd with
    | true => exact .next hR
    | false =>
      have he := hedit hview
      simp only [writeInTxn, Bool.false_eq_true, if_false]
      generalize body ⟨false, view⟩ = r at he ⊢
      generalize edit aview = r' at he ⊢
      obtain rc | hview' := he
      · exact .next hR
      · exact .next ⟨hR.committed, hR.writer, hR.next,
          rel_update hR.txns h (.some ⟨rfl, rfl, hview'⟩)⟩

/-- **One call of the API matches the typed map.** -/
theorem Store.step_matches (hR : StoreRel s a) (op : StoreOp) :
    Matches StoreRel (s.step op) (a.step op) := by
  have hguard : (op.wantsWriter && a.writer) = (op.wantsWriter && s.mdb.writer) := by
    rw [hR.writer]
  unfold Store.step TypedStore.step
  rw [hguard]
  by_cases hfree : (op.wantsWriter && s.mdb.writer) = true
  · rw [if_pos hfree, if_pos hfree]
    exact .stuck
  rw [if_neg hfree, if_neg hfree]
  -- a read sees what is committed, whichever handle it goes through
  have hread : Represents (MdbTxn.mk true s.mdb.committed).view a.committed := hR.committed
  cases op with
  | get env ty key cap =>
    simp only [storageGetAs_eq, withReadTxn_none]
    rw [hread.txnGetAs]
    exact .next hR
  | set env key v =>
    simp only [storageSetValue_eq]
    exact hR.write hfree (hR.committed.txnSetValue key v)
  | delete env key => exact hR.write hfree (hR.committed.txnDeleteImpl key)
  | existsKey env key =>
    simp only [storageExists, withReadTxn_none]
    rw [hread.txnExistsImpl]
    exact .next hR
  | typeOf env key =>
    simp only [storageTypeOf, withReadTxn_none]
    rw [hread.txnTypeOfImpl]
    exact .next hR
  | txnBegin env readonly =>
    by_cases hro : (!readonly && env.readonly) = true
    · simp only [storageTxnBegin, if_pos hro]
      exact .next hR
    · have hw : ¬(!readonly && s.mdb.writer) = true := by
        revert hfree hro
        simp only [StoreOp.wantsWriter]
        cases readonly <;> cases env.readonly <;> simp
      simp only [storageTxnBegin_none hro hw, if_neg hro, hR.next]
      exact .next ⟨hR.committed, by rw [hR.writer], rfl,
        rel_update hR.txns a.next (.some ⟨rfl, rfl, hR.committed⟩)⟩
  | txnCommit h =>
    obtain ⟨hs, ha⟩ | ⟨⟨ro, ⟨rd, view⟩⟩, ⟨aro, aview⟩, hs, ha, hro, hrd, hview⟩ := hR.open_txn h
    · simp only [hs, ha]
      exact .stuck
    · simp only at hro hrd hview
      subst hro hrd
      simp only [hs, ha, Option.map_some]
      cases rd with
      | true => exact .next ⟨hR.committed, hR.writer, hR.next, rel_update hR.txns h .none⟩
      | false => exact .next ⟨hview, rfl, hR.next, rel_update hR.txns h .none⟩
  | txnAbort h =>
    obtain ⟨hs, ha⟩ | ⟨⟨ro, ⟨rd, view⟩⟩, ⟨aro, aview⟩, hs, ha, hro, hrd, hview⟩ := hR.open_txn h
    · simp only [hs, ha]
      exact .stuck
    · simp only at hro hrd hview
      subst hro hrd
      simp only [hs, ha, Option.map_some]
      cases rd with
      | true => exact .next ⟨hR.committed, hR.writer, hR.next, rel_update hR.txns h .none⟩
      | false => exact .next ⟨hR.committed, rfl, hR.next, rel_update hR.txns h .none⟩
  | txnGet h ty hty key cap =>
    obtain ⟨hs, ha⟩ | ⟨t, at', hs, ha, hrel⟩ := hR.open_txn h
    · simp only [hs, ha]
      exact .stuck
    · simp only [hs, ha, Option.map_some, storageTxnGetAs_eq, hrel.view.txnGetAs]
      exact .next hR
  | txnSet h key v hv =>
    simp only [storageTxnSetValue_eq]
    exact hR.txnWrite h fun hrep => hrep.txnSetValue key v
  | txnDelete h key => exact hR.txnWrite h fun hrep => hrep.txnDeleteImpl key

/-- The empty environment represents the empty map. -/
theorem storeRel_init : StoreRel .init .init where
  committed := fun k => by simp [Store.init, TypedStore.init, MdbEnv.idle]
  writer := rfl
  next := rfl
  txns := fun _ => .none

/-- **The storage API refines a typed map.** Every admissible sequence of calls, from an
empty environment, through read-write and read-only handles, alone and inside explicit
transactions, answers call by call what the typed map answers. -/
theorem storage_refines_typed_map (ops : List StoreOp) :
    (run Store.step .init ops).map Prod.fst = (run TypedStore.step .init ops).map Prod.fst :=
  run_eq_of_simulation (fun _ _ hR op => Store.step_matches hR op) ops storeRel_init

end AgentxSubagent
