import AgentxSubagent.Storage.Codec

/-!
# The storage API over a transactional map

LMDB is taken as what its documentation says it is: a map from byte strings to byte
strings, ordered bytewise, read through snapshots and changed by one write transaction at
a time. `AgentxSubagent.MdbEnv` is an environment, `AgentxSubagent.MdbTxn` a transaction of
it: the view it reads, which for a write transaction also holds its own writes. A write
transaction occupies the environment's writer slot until it is committed or aborted, so an
abort the code forgot would leave the slot occupied.

Over it this file embeds `src/storage_lmdb.c` up to its explicit transactions, in the
order of the source: key validation, the getters and setters that work inside a
transaction (`txn_*_impl`), the helpers that open one of their own (`storage_*`) and the
explicit transactions (`storage_txn_*`).

Every call into LMDB and every allocation may fail. Which ones do is the argument
`AgentxSubagent.Fault` of each function; `AgentxSubagent.Fault.none` is the call in which
nothing fails.
-/

namespace AgentxSubagent

/-! ### LMDB -/

/-- The content of an environment: a map from keys to values, ordered bytewise. -/
abbrev Lmdb := Std.ExtTreeMap Bytes Bytes

/-- The LMDB and OS error codes `map_mdb_rc` tells apart. -/
inductive MdbErr
  | notFound
  | mapFull
  | txnFull
  | einval
  | eacces
  | eagain
  | ebusy
  | other
  deriving DecidableEq, Repr

/-- `map_mdb_rc` on an error code. -/
def mapMdbRc : MdbErr → StorageErr
  | .notFound => .notFound
  | .mapFull => .full
  | .txnFull => .full
  | .einval => .inval
  | .eacces => .readOnly
  | .eagain => .busy
  | .ebusy => .busy
  | .other => .io

/-- Only `MDB_NOTFOUND` is mapped to a missing key. -/
theorem mapMdbRc_eq_notFound_iff {err : MdbErr} : mapMdbRc err = .notFound ↔ err = .notFound := by
  cases err <;> simp [mapMdbRc]

/-- Which of the calls a storage function makes fail: beginning the transaction, the LMDB
operation inside it, the commit, or an allocation. -/
structure Fault where
  atBegin : Option MdbErr
  atOp : Option MdbErr
  atCommit : Option MdbErr
  nomem : Bool
  deriving DecidableEq

/-- Nothing fails. -/
def Fault.none : Fault := ⟨Option.none, Option.none, Option.none, false⟩

/-- An LMDB environment: its committed content, and whether a write transaction is
open. -/
structure MdbEnv where
  committed : Lmdb
  writer : Bool

/-- An environment with no open write transaction. -/
def MdbEnv.idle (db : Lmdb) : MdbEnv := ⟨db, false⟩

/-- An open transaction: the content it sees, its own writes included. -/
structure MdbTxn where
  rdonly : Bool
  view : Lmdb

/-- `mdb_txn_begin`. A second writer would wait for the first; within one process that is
a deadlock, reported here as `EBUSY`. -/
def mdbTxnBegin (f : Fault) (rdonly : Bool) (e : MdbEnv) : Except MdbErr (MdbTxn × MdbEnv) :=
  match f.atBegin with
  | some err => .error err
  | none =>
    if rdonly then .ok (⟨true, e.committed⟩, e)
    else if e.writer then .error .ebusy
    else .ok (⟨false, e.committed⟩, { e with writer := true })

/-- `mdb_txn_abort`. -/
def mdbTxnAbort (txn : MdbTxn) (e : MdbEnv) : MdbEnv :=
  if txn.rdonly then e else { e with writer := false }

/-- `mdb_txn_commit`. A commit that fails is an abort. -/
def mdbTxnCommit (f : Fault) (txn : MdbTxn) (e : MdbEnv) : Except MdbErr Unit × MdbEnv :=
  if txn.rdonly then (.ok (), e)
  else
    match f.atCommit with
    | some err => (.error err, mdbTxnAbort txn e)
    | none => (.ok (), ⟨txn.view, false⟩)

/-- `mdb_get`. -/
def mdbGet (f : Fault) (txn : MdbTxn) (key : Bytes) : Except MdbErr Bytes :=
  match f.atOp with
  | some err => .error err
  | none =>
    match txn.view[key]? with
    | none => .error .notFound
    | some data => .ok data

/-- `mdb_put`. -/
def mdbPut (f : Fault) (txn : MdbTxn) (key data : Bytes) : Except MdbErr MdbTxn :=
  match f.atOp with
  | some err => .error err
  | none =>
    if txn.rdonly then .error .eacces
    else .ok { txn with view := txn.view.insert key data }

/-- `mdb_del`. -/
def mdbDel (f : Fault) (txn : MdbTxn) (key : Bytes) : Except MdbErr MdbTxn :=
  match f.atOp with
  | some err => .error err
  | none =>
    if txn.rdonly then .error .eacces
    else if key ∈ txn.view then .ok { txn with view := txn.view.erase key }
    else .error .notFound

/-! ### Keys -/

/-- `STORAGE_KEY_MAX`. -/
def storageKeyMax : ℕ := 255

/-- `validate_key`. -/
def validateKey (key : Bytes) : Except StorageErr Unit :=
  if key.length = 0 then .error .inval
  else if key.length > storageKeyMax then .error .tooBig
  else .ok ()

/-- A key the API accepts. -/
def ValidKey (key : Bytes) : Prop := 1 ≤ key.length ∧ key.length ≤ 255

instance (key : Bytes) : Decidable (ValidKey key) := inferInstanceAs (Decidable (_ ∧ _))

theorem validateKey_of_valid {key : Bytes} (h : ValidKey key) : validateKey key = .ok () := by
  obtain ⟨h1, h2⟩ := h
  rw [validateKey, if_neg (by omega), if_neg (by rw [storageKeyMax]; omega)]

theorem validKey_of_validateKey {key : Bytes} {u : Unit} (h : validateKey key = .ok u) :
    ValidKey key := by
  unfold validateKey storageKeyMax at h
  split_ifs at h with h1 h2
  exact ⟨by omega, by omega⟩

/-! ### Inside a transaction -/

/-- `txn_get_raw`. -/
def txnGetRaw (f : Fault) (txn : MdbTxn) (key : Bytes) : Except StorageErr Bytes := do
  validateKey key
  (mdbGet f txn key).mapError mapMdbRc

/-- `txn_put_raw`. -/
def txnPutRaw (f : Fault) (txn : MdbTxn) (key data : Bytes) : Except StorageErr MdbTxn := do
  validateKey key
  (mdbPut f txn key data).mapError mapMdbRc

/-- `txn_get_int_impl`. -/
def txnGetIntImpl (f : Fault) (txn : MdbTxn) (key : Bytes) : Except StorageErr Int32 := do
  let data ← txnGetRaw f txn key
  let payload ← decodeHeader data .int32
  if payload.length < 4 then .error .inval else .ok (getU32le payload).toInt32

/-- `txn_set_int_impl`. -/
def txnSetIntImpl (f : Fault) (txn : MdbTxn) (key : Bytes) (val : Int32) :
    Except StorageErr MdbTxn :=
  txnPutRaw f txn key (encodeHeader .int32 ++ putU32le val.toUInt32)

/-- `txn_get_uint_impl`. -/
def txnGetUintImpl (f : Fault) (txn : MdbTxn) (key : Bytes) : Except StorageErr UInt32 := do
  let data ← txnGetRaw f txn key
  let payload ← decodeHeader data .uint32
  if payload.length < 4 then .error .inval else .ok (getU32le payload)

/-- `txn_set_uint_impl`. -/
def txnSetUintImpl (f : Fault) (txn : MdbTxn) (key : Bytes) (val : UInt32) :
    Except StorageErr MdbTxn :=
  txnPutRaw f txn key (encodeHeader .uint32 ++ putU32le val)

/-- `txn_get_u64_impl`. -/
def txnGetU64Impl (f : Fault) (txn : MdbTxn) (key : Bytes) : Except StorageErr UInt64 := do
  let data ← txnGetRaw f txn key
  let payload ← decodeHeader data .uint64
  if payload.length < 8 then .error .inval else .ok (getU64le payload)

/-- `txn_set_u64_impl`. -/
def txnSetU64Impl (f : Fault) (txn : MdbTxn) (key : Bytes) (val : UInt64) :
    Except StorageErr MdbTxn :=
  txnPutRaw f txn key (encodeHeader .uint64 ++ putU64le val)

/-- `txn_get_bytes_impl`: the bytes copied into a buffer of `len`, and the final `*len`. -/
def txnGetBytesImpl (f : Fault) (txn : MdbTxn) (key : Bytes) (len : ℕ) :
    Except StorageErr Bytes × ℕ :=
  match txnGetRaw f txn key with
  | .error rc => (.error rc, len)
  | .ok data =>
    match decodeHeader data .bytes with
    | .error rc => (.error rc, len)
    | .ok payload =>
      if payload.length > len then (.error .tooBig, payload.length)
      else (.ok payload, payload.length)

/-- `txn_set_bytes_impl`. -/
def txnSetBytesImpl (f : Fault) (txn : MdbTxn) (key buf : Bytes) : Except StorageErr MdbTxn :=
  if f.nomem then .error .io else txnPutRaw f txn key (encodeHeader .bytes ++ buf)

/-- `txn_get_oid_impl`: the sub-identifiers copied into an array of `count`, and the final
`*count`. -/
def txnGetOidImpl (f : Fault) (txn : MdbTxn) (key : Bytes) (count : ℕ) :
    Except StorageErr (List UInt32) × ℕ :=
  match txnGetRaw f txn key with
  | .error rc => (.error rc, count)
  | .ok data =>
    match decodeHeader data .oid with
    | .error rc => (.error rc, count)
    | .ok payload =>
      if payload.length % 4 ≠ 0 then (.error .inval, count)
      else
        let n := payload.length / 4
        if n > count then (.error .tooBig, n)
        else (.ok ((List.range n).map fun i => getU32le (payload.drop (i * 4))), n)

/-- `txn_set_oid_impl`. -/
def txnSetOidImpl (f : Fault) (txn : MdbTxn) (key : Bytes) (subids : List UInt32) :
    Except StorageErr MdbTxn :=
  if f.nomem then .error .io
  else txnPutRaw f txn key (encodeHeader .oid ++ subids.flatMap putU32le)

/-- `txn_delete_impl`. -/
def txnDeleteImpl (f : Fault) (txn : MdbTxn) (key : Bytes) : Except StorageErr MdbTxn := do
  validateKey key
  (mdbDel f txn key).mapError mapMdbRc

/-- `txn_exists_impl`. -/
def txnExistsImpl (f : Fault) (txn : MdbTxn) (key : Bytes) : Except StorageErr Unit := do
  let _ ← txnGetRaw f txn key

/-- `txn_type_of_impl`: the stored tag, whatever byte it is. -/
def txnTypeOfImpl (f : Fault) (txn : MdbTxn) (key : Bytes) : Except StorageErr UInt8 := do
  let data ← txnGetRaw f txn key
  if data.length < 4 then .error .inval else .ok (data.getD 0 0)

/-! ### Helpers with a transaction of their own -/

/-- An open handle: whether it was opened with `STORAGE_ENV_READONLY`. -/
structure StorageEnv where
  readonly : Bool
  deriving DecidableEq

/-- `begin_read_txn`. -/
def beginReadTxn (f : Fault) (e : MdbEnv) : Except StorageErr (MdbTxn × MdbEnv) :=
  (mdbTxnBegin f true e).mapError mapMdbRc

/-- `begin_write_txn`. -/
def beginWriteTxn (f : Fault) (env : StorageEnv) (e : MdbEnv) :
    Except StorageErr (MdbTxn × MdbEnv) :=
  if env.readonly then .error .readOnly else (mdbTxnBegin f false e).mapError mapMdbRc

/-- `commit_write_txn`. -/
def commitWriteTxn (f : Fault) (txn : MdbTxn) (e : MdbEnv) : Except StorageErr Unit × MdbEnv :=
  let r := mdbTxnCommit f txn e
  (r.1.mapError mapMdbRc, r.2)

section Helpers

variable (f : Fault) (env : StorageEnv)

/-- The body shared by the reading helpers: begin, read, abort. A helper that cannot begin
answers `fail` of the error code. -/
def withReadTxn {β : Type} (fail : StorageErr → β) (body : MdbTxn → β) (e : MdbEnv) :
    β × MdbEnv :=
  match beginReadTxn f e with
  | .error rc => (fail rc, e)
  | .ok (txn, e') => (body txn, mdbTxnAbort txn e')

/-- The body shared by the writing helpers: begin, write, then abort on an error and commit
otherwise. -/
def withWriteTxn (body : MdbTxn → Except StorageErr MdbTxn) (e : MdbEnv) :
    Except StorageErr Unit × MdbEnv :=
  match beginWriteTxn f env e with
  | .error rc => (.error rc, e)
  | .ok (txn, e') =>
    match body txn with
    | .error rc => (.error rc, mdbTxnAbort txn e')
    | .ok txn' => commitWriteTxn f txn' e'

/-- `storage_get_int`. -/
def storageGetInt (key : Bytes) : MdbEnv → Except StorageErr Int32 × MdbEnv :=
  withReadTxn f .error fun txn => txnGetIntImpl f txn key

/-- `storage_set_int`. -/
def storageSetInt (key : Bytes) (val : Int32) : MdbEnv → Except StorageErr Unit × MdbEnv :=
  withWriteTxn f env fun txn => txnSetIntImpl f txn key val

/-- `storage_get_uint`. -/
def storageGetUint (key : Bytes) : MdbEnv → Except StorageErr UInt32 × MdbEnv :=
  withReadTxn f .error fun txn => txnGetUintImpl f txn key

/-- `storage_set_uint`. -/
def storageSetUint (key : Bytes) (val : UInt32) : MdbEnv → Except StorageErr Unit × MdbEnv :=
  withWriteTxn f env fun txn => txnSetUintImpl f txn key val

/-- `storage_get_u64`. -/
def storageGetU64 (key : Bytes) : MdbEnv → Except StorageErr UInt64 × MdbEnv :=
  withReadTxn f .error fun txn => txnGetU64Impl f txn key

/-- `storage_set_u64`. -/
def storageSetU64 (key : Bytes) (val : UInt64) : MdbEnv → Except StorageErr Unit × MdbEnv :=
  withWriteTxn f env fun txn => txnSetU64Impl f txn key val

/-- `storage_get_bytes`. -/
def storageGetBytes (key : Bytes) (len : ℕ) :
    MdbEnv → (Except StorageErr Bytes × ℕ) × MdbEnv :=
  withReadTxn f (fun rc => (.error rc, len)) fun txn => txnGetBytesImpl f txn key len

/-- `storage_set_bytes`. -/
def storageSetBytes (key buf : Bytes) : MdbEnv → Except StorageErr Unit × MdbEnv :=
  withWriteTxn f env fun txn => txnSetBytesImpl f txn key buf

/-- `storage_get_oid`. -/
def storageGetOid (key : Bytes) (count : ℕ) :
    MdbEnv → (Except StorageErr (List UInt32) × ℕ) × MdbEnv :=
  withReadTxn f (fun rc => (.error rc, count)) fun txn => txnGetOidImpl f txn key count

/-- `storage_set_oid`. -/
def storageSetOid (key : Bytes) (subids : List UInt32) :
    MdbEnv → Except StorageErr Unit × MdbEnv :=
  withWriteTxn f env fun txn => txnSetOidImpl f txn key subids

/-- `storage_delete`. -/
def storageDelete (key : Bytes) : MdbEnv → Except StorageErr Unit × MdbEnv :=
  withWriteTxn f env fun txn => txnDeleteImpl f txn key

/-- `storage_exists`. -/
def storageExists (key : Bytes) : MdbEnv → Except StorageErr Unit × MdbEnv :=
  withReadTxn f .error fun txn => txnExistsImpl f txn key

/-- `storage_type_of`. -/
def storageTypeOf (key : Bytes) : MdbEnv → Except StorageErr UInt8 × MdbEnv :=
  withReadTxn f .error fun txn => txnTypeOfImpl f txn key

end Helpers

/-! ### Explicit transactions -/

/-- `storage_txn_t`. -/
structure StorageTxn where
  readonly : Bool
  txn : MdbTxn

section Explicit

variable (f : Fault)

/-- `storage_txn_begin`. An allocation failure aborts the transaction just begun. -/
def storageTxnBegin (env : StorageEnv) (readonly : Bool) (e : MdbEnv) :
    Except StorageErr StorageTxn × MdbEnv :=
  if !readonly && env.readonly then (.error .readOnly, e)
  else
    match mdbTxnBegin f readonly e with
    | .error err => (.error (mapMdbRc err), e)
    | .ok (mtxn, e') =>
      if f.nomem then (.error .io, mdbTxnAbort mtxn e')
      else (.ok ⟨readonly, mtxn⟩, e')

/-- `storage_txn_commit`. -/
def storageTxnCommit (stxn : StorageTxn) (e : MdbEnv) : Except StorageErr Unit × MdbEnv :=
  let r := mdbTxnCommit f stxn.txn e
  (r.1.mapError mapMdbRc, r.2)

/-- `storage_txn_abort`. -/
def storageTxnAbort (stxn : StorageTxn) (e : MdbEnv) : MdbEnv := mdbTxnAbort stxn.txn e

/-- The body shared by the writing operations of a transaction: refused in a read-only
one. -/
def writeInTxn (stxn : StorageTxn) (body : MdbTxn → Except StorageErr MdbTxn) :
    Except StorageErr StorageTxn :=
  if stxn.readonly then .error .readOnly
  else (body stxn.txn).map fun txn => { stxn with txn := txn }

/-- `storage_txn_get_int`. -/
def storageTxnGetInt (stxn : StorageTxn) (key : Bytes) : Except StorageErr Int32 :=
  txnGetIntImpl f stxn.txn key

/-- `storage_txn_set_int`. -/
def storageTxnSetInt (stxn : StorageTxn) (key : Bytes) (val : Int32) :
    Except StorageErr StorageTxn :=
  writeInTxn stxn fun txn => txnSetIntImpl f txn key val

/-- `storage_txn_get_uint`. -/
def storageTxnGetUint (stxn : StorageTxn) (key : Bytes) : Except StorageErr UInt32 :=
  txnGetUintImpl f stxn.txn key

/-- `storage_txn_set_uint`. -/
def storageTxnSetUint (stxn : StorageTxn) (key : Bytes) (val : UInt32) :
    Except StorageErr StorageTxn :=
  writeInTxn stxn fun txn => txnSetUintImpl f txn key val

/-- `storage_txn_get_u64`. -/
def storageTxnGetU64 (stxn : StorageTxn) (key : Bytes) : Except StorageErr UInt64 :=
  txnGetU64Impl f stxn.txn key

/-- `storage_txn_set_u64`. -/
def storageTxnSetU64 (stxn : StorageTxn) (key : Bytes) (val : UInt64) :
    Except StorageErr StorageTxn :=
  writeInTxn stxn fun txn => txnSetU64Impl f txn key val

/-- `storage_txn_get_bytes`. -/
def storageTxnGetBytes (stxn : StorageTxn) (key : Bytes) (len : ℕ) :
    Except StorageErr Bytes × ℕ :=
  txnGetBytesImpl f stxn.txn key len

/-- `storage_txn_set_bytes`. -/
def storageTxnSetBytes (stxn : StorageTxn) (key buf : Bytes) : Except StorageErr StorageTxn :=
  writeInTxn stxn fun txn => txnSetBytesImpl f txn key buf

/-- `storage_txn_delete`. -/
def storageTxnDelete (stxn : StorageTxn) (key : Bytes) : Except StorageErr StorageTxn :=
  writeInTxn stxn fun txn => txnDeleteImpl f txn key

end Explicit

end AgentxSubagent
