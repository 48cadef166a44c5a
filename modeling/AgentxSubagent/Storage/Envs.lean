import AgentxSubagent.Storage.TypedMap

/-!
# The two environments of the subagent

The subagent keeps its objects in two environments, `config.lmdb` and `cache.lmdb`, opened
read-write for as long as it runs. Between two calls of the storage API neither has an open
transaction, so what is left of them is their contents: `AgentxSubagent.Envs`.

Every handler above goes through three calls, `storage_get_*`, `storage_set_*` and
`storage_delete`, each in a transaction of its own. This file says once what each of them
can do, whatever fails:

* `AgentxSubagent.Envs.getAs_ok`, `AgentxSubagent.Envs.getAs_notFound`: what an answer of a
  getter says about the contents;
* `AgentxSubagent.Envs.setValue_cases`, `AgentxSubagent.Envs.delete_cases`: a call that
  changes the contents changes one key of one environment, or nothing.

`AgentxSubagent.ReadsAlike` compares two stored byte strings by what the getters make of
them: the same typed value, or the same absence.
-/

namespace AgentxSubagent

/-- `config_env` and `cache_env`. -/
inductive EnvId
  | config
  | cache
  deriving DecidableEq, Repr

/-- The contents of the two environments. -/
abbrev Envs := EnvId → Lmdb

/-- A place a value can be stored at: an environment and a key of it. -/
abbrev Loc := EnvId × Bytes

/-- What fails in a read. `MDB_NOTFOUND` is not among the failures: LMDB reports it only
for a key that is not there. -/
structure ReadFault where
  fault : Fault
  begin_ne : fault.atBegin ≠ some .notFound
  op_ne : fault.atOp ≠ some .notFound

/-- Nothing fails. -/
def ReadFault.none : ReadFault := ⟨.none, by decide, by decide⟩

/-- The handle the subagent holds on each environment. -/
def rwEnv : StorageEnv := ⟨false⟩

namespace Envs

/-- What is stored at a place. -/
def stored (envs : Envs) (l : Loc) : Option Bytes := (envs l.1)[l.2]?

/-- `storage_get_*` of a type, with the room the caller offers. -/
def getAs (f : Fault) (envs : Envs) (id : EnvId) (ty : StorageType) (key : Bytes) (cap : ℕ) :
    Except StorageErr Value :=
  (storageGetAs f ty key cap (.idle (envs id))).1.1

/-- `storage_set_*` of a value's type. -/
def setValue (f : Fault) (envs : Envs) (id : EnvId) (key : Bytes) (v : Value) :
    Except StorageErr Unit × Envs :=
  let r := storageSetValue f rwEnv key v (.idle (envs id))
  (r.1, Function.update envs id r.2.committed)

/-- `storage_delete`. -/
def delete (f : Fault) (envs : Envs) (id : EnvId) (key : Bytes) : Except StorageErr Unit × Envs :=
  let r := storageDelete f rwEnv key (.idle (envs id))
  (r.1, Function.update envs id r.2.committed)

/-- The contents with one key set. -/
def put (envs : Envs) (l : Loc) (data : Bytes) : Envs :=
  Function.update envs l.1 ((envs l.1).insert l.2 data)

/-- The contents with one key removed. -/
def remove (envs : Envs) (l : Loc) : Envs :=
  Function.update envs l.1 ((envs l.1).erase l.2)

/-- Something is stored under a key that is present. -/
theorem stored_ne_none_iff {envs : Envs} {l : Loc} : envs.stored l ≠ none ↔ l.2 ∈ envs l.1 := by
  rw [stored, Std.ExtTreeMap.mem_iff_isSome_getElem?, Option.ne_none_iff_isSome]

/-- Setting a key changes what is stored there, and nowhere else. -/
theorem stored_put (envs : Envs) (l : Loc) (data : Bytes) :
    (envs.put l data).stored = Function.update envs.stored l (some data) := by
  ext1 l'
  obtain ⟨id, key⟩ := l
  obtain ⟨id', key'⟩ := l'
  by_cases hid : id' = id
  · subst hid
    by_cases hkey : key' = key
    · subst hkey
      simp [stored, put]
    · have hne : (id', key') ≠ (id', key) := fun h => hkey (Prod.ext_iff.mp h).2
      rw [Function.update_of_ne hne]
      simp [stored, put, Std.ExtTreeMap.getElem?_insert, Ne.symm hkey]
  · have hne : (id', key') ≠ (id, key) := fun h => hid (Prod.ext_iff.mp h).1
    rw [Function.update_of_ne hne]
    simp [stored, put, Function.update_of_ne hid]

/-- Removing a key changes what is stored there, and nowhere else. -/
theorem stored_remove (envs : Envs) (l : Loc) :
    (envs.remove l).stored = Function.update envs.stored l none := by
  ext1 l'
  obtain ⟨id, key⟩ := l
  obtain ⟨id', key'⟩ := l'
  by_cases hid : id' = id
  · subst hid
    by_cases hkey : key' = key
    · subst hkey
      simp [stored, remove]
    · have hne : (id', key') ≠ (id', key) := fun h => hkey (Prod.ext_iff.mp h).2
      rw [Function.update_of_ne hne]
      simp [stored, remove, Std.ExtTreeMap.getElem?_erase, Ne.symm hkey]
  · have hne : (id', key') ≠ (id, key) := fun h => hid (Prod.ext_iff.mp h).1
    rw [Function.update_of_ne hne]
    simp [stored, remove, Function.update_of_ne hid]

end Envs

/-! ### Writing -/

/-- A writing helper on an environment at rest: begin, change, and commit or abort. -/
theorem withWriteTxn_eq (f : Fault) (body : MdbTxn → Except StorageErr MdbTxn) (db : Lmdb) :
    withWriteTxn f rwEnv body (.idle db) =
      match f.atBegin with
      | some err => (.error (mapMdbRc err), .idle db)
      | none =>
        match body ⟨false, db⟩ with
        | .error rc => (.error rc, .idle db)
        | .ok txn' => commitWriteTxn f txn' ⟨db, true⟩ := by
  have hbegin : beginWriteTxn f rwEnv (.idle db) =
      (mdbTxnBegin f false (.idle db)).mapError mapMdbRc := rfl
  rw [withWriteTxn, hbegin, mdbTxnBegin]
  rcases f.atBegin with _ | err
  · rfl
  · rfl

/-- What a writing helper does to an environment at rest: it fails and leaves the content,
or its change is committed; either way the environment is at rest again. -/
theorem withWriteTxn_cases (f : Fault) (body : MdbTxn → Except StorageErr MdbTxn) (db : Lmdb)
    (hrw : ∀ txn', body ⟨false, db⟩ = .ok txn' → txn'.rdonly = false) :
    (∃ rc, withWriteTxn f rwEnv body (.idle db) = (.error rc, .idle db)) ∨
      ∃ view, body ⟨false, db⟩ = .ok ⟨false, view⟩ ∧
        withWriteTxn f rwEnv body (.idle db) = (.ok (), .idle view) := by
  rw [withWriteTxn_eq]
  rcases f.atBegin with _ | err
  · rcases hbody : body ⟨false, db⟩ with rc | ⟨rdonly, view⟩
    · exact Or.inl ⟨rc, rfl⟩
    · obtain rfl : rdonly = false := hrw _ hbody
      simp only [commitWriteTxn, mdbTxnCommit, Bool.false_eq_true, if_false]
      rcases f.atCommit with _ | err
      · exact Or.inr ⟨view, rfl, rfl⟩
      · exact Or.inl ⟨mapMdbRc err, rfl⟩
  · exact Or.inl ⟨mapMdbRc err, rfl⟩

/-- A raw write that succeeds has a valid key and inserts. -/
theorem txnPutRaw_eq_ok {f : Fault} {txn txn' : MdbTxn} {key data : Bytes}
    (h : txnPutRaw f txn key data = .ok txn') :
    ValidKey key ∧ txn' = ⟨txn.rdonly, txn.view.insert key data⟩ := by
  rw [txnPutRaw] at h
  rcases hkey : validateKey key with rc | u
  · rw [hkey] at h
    exact absurd h (by simp [bind, Except.bind])
  · rw [hkey] at h
    refine ⟨validKey_of_validateKey hkey, ?_⟩
    change (mdbPut f txn key data).mapError mapMdbRc = .ok txn' at h
    rw [mdbPut] at h
    rcases hop : f.atOp with _ | err
    · rw [hop] at h
      simp only at h
      split_ifs at h with hro
      · exact absurd h (by simp [Except.mapError])
      · exact (Except.ok.inj h).symm
    · rw [hop] at h
      exact absurd h (by simp [Except.mapError])

/-- A deletion that succeeds erases. -/
theorem txnDeleteImpl_eq_ok {f : Fault} {txn txn' : MdbTxn} {key : Bytes}
    (h : txnDeleteImpl f txn key = .ok txn') : txn' = ⟨txn.rdonly, txn.view.erase key⟩ := by
  rw [txnDeleteImpl] at h
  rcases hkey : validateKey key with rc | u
  · rw [hkey] at h
    exact absurd h (by simp [bind, Except.bind])
  · rw [hkey] at h
    change (mdbDel f txn key).mapError mapMdbRc = .ok txn' at h
    rw [mdbDel] at h
    rcases hop : f.atOp with _ | err
    · rw [hop] at h
      simp only at h
      split_ifs at h with hro hmem
      · exact absurd h (by simp [Except.mapError])
      · exact (Except.ok.inj h).symm
      · exact absurd h (by simp [Except.mapError])
    · rw [hop] at h
      exact absurd h (by simp [Except.mapError])

/-- Nothing that storing `v` runs into fails. An allocation is made only for a byte string or
an OID. -/
def Fault.Spares (f : Fault) (v : Value) : Prop :=
  f.atBegin = .none ∧ f.atOp = .none ∧ f.atCommit = .none ∧ ¬(f.nomem ∧ v.units.isSome)

instance (f : Fault) (v : Value) : Decidable (f.Spares v) := inferInstanceAs (Decidable (_ ∧ _))

theorem Fault.none_spares (v : Value) : Fault.none.Spares v := ⟨rfl, rfl, rfl, by simp [Fault.none]⟩

namespace Envs

variable (f : Fault) (envs : Envs) (id : EnvId) (key : Bytes)

/-- **What a setter can do**: fail and change nothing, or store the encoding under a valid
key. -/
theorem setValue_cases (v : Value) :
    (∃ rc, envs.setValue f id key v = (.error rc, envs)) ∨
      ValidKey key ∧ envs.setValue f id key v = (.ok (), envs.put (id, key) v.encode) := by
  have hset : ∀ txn', txnSetValue f ⟨false, envs id⟩ key v = .ok txn' →
      ValidKey key ∧ txn' = ⟨false, (envs id).insert key v.encode⟩ := by
    intro txn' h
    rw [txnSetValue_eq] at h
    split_ifs at h
    exact txnPutRaw_eq_ok h
  rw [setValue, storageSetValue_eq]
  obtain ⟨rc, h⟩ | ⟨view, hbody, h⟩ := withWriteTxn_cases f
    (fun txn => txnSetValue f txn key v) (envs id) fun txn' h => by rw [(hset txn' h).2]
  · left
    refine ⟨rc, ?_⟩
    rw [h]
    exact Prod.ext rfl (Function.update_eq_self id envs)
  · right
    obtain ⟨hkey, hview⟩ := hset _ hbody
    obtain rfl : view = (envs id).insert key v.encode := congrArg MdbTxn.view hview
    rw [h]
    exact ⟨hkey, rfl⟩

/-- **What a deletion can do**: fail and change nothing, or remove the key. -/
theorem delete_cases :
    (∃ rc, envs.delete f id key = (.error rc, envs)) ∨
      envs.delete f id key = (.ok (), envs.remove (id, key)) := by
  rw [delete, storageDelete]
  obtain ⟨rc, h⟩ | ⟨view, hbody, h⟩ := withWriteTxn_cases f
    (fun txn => txnDeleteImpl f txn key) (envs id)
    fun txn' h => by rw [txnDeleteImpl_eq_ok h]
  · left
    refine ⟨rc, ?_⟩
    rw [h]
    exact Prod.ext rfl (Function.update_eq_self id envs)
  · right
    obtain rfl : view = (envs id).erase key := congrArg MdbTxn.view (txnDeleteImpl_eq_ok hbody)
    rw [h]
    rfl

variable {key}

/-- **When a setter succeeds**: when it meets no failure. -/
theorem setValue_ok_iff (hkey : ValidKey key) (v : Value) :
    (envs.setValue f id key v).1 = .ok () ↔ f.Spares v := by
  have hput : txnPutRaw f ⟨false, envs id⟩ key v.encode =
      (mdbPut f ⟨false, envs id⟩ key v.encode).mapError mapMdbRc := by
    rw [txnPutRaw, validateKey_of_valid hkey]
    rfl
  rw [setValue, storageSetValue_eq, withWriteTxn_eq, Fault.Spares]
  rcases f.atBegin with _ | err
  · simp only [txnSetValue_eq]
    by_cases hmem : f.nomem ∧ v.units.isSome
    · rw [if_pos hmem]
      exact iff_of_false (by simp) fun h => h.2.2.2 hmem
    · rw [if_neg hmem, hput, mdbPut]
      rcases f.atOp with _ | err
      · simp only [Except.mapError, commitWriteTxn, mdbTxnCommit]
        rcases f.atCommit with _ | err
        · exact iff_of_true rfl (by simpa using hmem)
        · exact iff_of_false (by simp) (by simp)
      · exact iff_of_false (by simp [Except.mapError]) (by simp)
  · exact iff_of_false (by simp) (by simp)

/-- A setter that meets no failure stores the encoding. -/
theorem setValue_spared (hkey : ValidKey key) {v : Value} (hf : f.Spares v) :
    envs.setValue f id key v = (.ok (), envs.put (id, key) v.encode) := by
  have hok := (envs.setValue_ok_iff f id hkey v).mpr hf
  obtain ⟨rc, hset⟩ | ⟨-, hset⟩ := envs.setValue_cases f id key v
  · rw [hset] at hok
    exact absurd hok (by simp)
  · exact hset

/-- A deletion in which nothing fails leaves the key absent; it reports whether it was
there. -/
theorem delete_none (hkey : ValidKey key) :
    (envs.delete .none id key).2.stored = Function.update envs.stored (id, key) none ∧
      ((envs.delete .none id key).1 = .ok () ∨
        (envs.delete .none id key).1 = .error .notFound) := by
  have hdel : txnDeleteImpl .none ⟨false, envs id⟩ key =
      if key ∈ envs id then .ok ⟨false, (envs id).erase key⟩ else .error .notFound := by
    rw [txnDeleteImpl, validateKey_of_valid hkey]
    change (mdbDel .none ⟨false, envs id⟩ key).mapError mapMdbRc = _
    simp only [mdbDel, Fault.none, Bool.false_eq_true, if_false]
    split_ifs <;> rfl
  have hrun := withWriteTxn_eq .none (fun txn => txnDeleteImpl .none txn key) (envs id)
  by_cases hmem : key ∈ envs id
  · rw [if_pos hmem] at hdel
    rw [hdel] at hrun
    have hval : envs.delete .none id key = (.ok (), envs.remove (id, key)) := by
      rw [delete, storageDelete, hrun]
      rfl
    rw [hval]
    exact ⟨envs.stored_remove (id, key), Or.inl rfl⟩
  · rw [if_neg hmem] at hdel
    rw [hdel] at hrun
    have hval : envs.delete .none id key = (.error .notFound, envs) := by
      rw [delete, storageDelete, hrun]
      exact Prod.ext rfl (Function.update_eq_self id envs)
    have habs : envs.stored (id, key) = none := Std.ExtTreeMap.getElem?_eq_none hmem
    rw [hval]
    refine ⟨?_, Or.inr rfl⟩
    rw [← habs, Function.update_eq_self]

/-- **What a setter answers** does not depend on the contents. -/
theorem setValue_fst (f : Fault) (envs envs' : Envs) (id : EnvId) (key : Bytes) (v : Value) :
    (envs'.setValue f id key v).1 = (envs.setValue f id key v).1 := by
  rw [setValue, setValue, storageSetValue_eq, storageSetValue_eq, withWriteTxn_eq, withWriteTxn_eq]
  rcases f.atBegin with _ | err
  · simp only [txnSetValue_eq]
    split_ifs with hmem
    · rfl
    · rw [txnPutRaw, txnPutRaw]
      rcases validateKey key with rc | u
      · rfl
      · simp only [bind, Except.bind, mdbPut]
        rcases f.atOp with _ | err
        · simp only [Except.mapError, commitWriteTxn, mdbTxnCommit]
          rcases f.atCommit with _ | err
          · rfl
          · rfl
        · rfl
  · rfl

/-- **What a deletion answers** depends on whether the key is there. -/
theorem delete_fst (f : Fault) {envs envs' : Envs} {id : EnvId} {key : Bytes}
    (h : envs'.stored (id, key) = envs.stored (id, key)) :
    (envs'.delete f id key).1 = (envs.delete f id key).1 := by
  have hmem : key ∈ envs' id ↔ key ∈ envs id := by
    rw [← stored_ne_none_iff (l := (id, key)), h, stored_ne_none_iff]
  simp only [delete, storageDelete, withWriteTxn_eq]
  rcases f.atBegin with _ | err
  · simp only [txnDeleteImpl]
    rcases validateKey key with rc | u
    · rfl
    · simp only [bind, Except.bind, mdbDel, hmem]
      rcases f.atOp with _ | err
      · by_cases hkey : key ∈ envs id
        · simp only [if_pos hkey, Bool.false_eq_true, if_false, Except.mapError, commitWriteTxn,
            mdbTxnCommit]
          rcases f.atCommit with _ | err
          · rfl
          · rfl
        · simp only [if_neg hkey, Bool.false_eq_true, if_false, Except.mapError]
      · rfl
  · rfl

end Envs

/-! ### Reading -/

/-- Handing a value over never reports a missing key. -/
theorem deliver_ne_notFound (v : Value) (cap : ℕ) : (v.deliver cap).1 ≠ .error .notFound := by
  rw [Value.deliver]
  rcases v.units with _ | n
  · simp
  · simp only
    split_ifs <;> simp

/-- Decoding never reports a missing key. -/
theorem readAs_ne_notFound (ty : StorageType) (cap : ℕ) (data : Bytes) :
    (readAs ty cap data).1 ≠ .error .notFound := by
  rw [readAs]
  rcases short_or_header data with hs | ⟨t, a, b, c, p, rfl⟩
  · rw [decodeHeader_short hs]
    simp
  · rw [decodeHeader_cons]
    by_cases ht : t = ty.tag
    · rw [if_pos ht]
      rcases hv : cValue p ty with _ | v
      · simp [hv]
      · simpa only [hv] using deliver_ne_notFound v cap
    · rw [if_neg ht]
      simp

theorem validateKey_ne_notFound {key : Bytes} {rc : StorageErr} (h : validateKey key = .error rc) :
    rc ≠ .notFound := by
  unfold validateKey at h
  rintro rfl
  split_ifs at h <;> exact absurd h (by simp)

namespace Envs

/-- **A getter**: begin, look the key up, and decode what is there. -/
theorem getAs_eq (envs : Envs) (f : Fault) (id : EnvId) (ty : StorageType) (key : Bytes) (cap : ℕ) :
    envs.getAs f id ty key cap =
      match f.atBegin, validateKey key, f.atOp with
      | some err, _, _ => .error (mapMdbRc err)
      | none, .error rc, _ => .error rc
      | none, .ok _, some err => .error (mapMdbRc err)
      | none, .ok _, none =>
        match envs.stored (id, key) with
        | none => .error .notFound
        | some data => (readAs ty cap data).1 := by
  have hraw {u : Unit} (hkey : validateKey key = .ok u) : txnGetRaw f ⟨true, envs id⟩ key =
      (mdbGet f ⟨true, envs id⟩ key).mapError mapMdbRc := by
    rw [txnGetRaw, hkey]
    rfl
  rw [getAs, storageGetAs_eq, withReadTxn, beginReadTxn, mdbTxnBegin]
  rcases f.atBegin with _ | err
  · show (txnGetAs ty f ⟨true, envs id⟩ key cap).1 = _
    rw [txnGetAs_eq]
    rcases hkey : validateKey key with rc | u
    · rw [txnGetRaw, hkey]
      rfl
    · rw [hraw hkey, mdbGet, stored]
      rcases f.atOp with _ | err
      · rcases (envs id)[key]? with _ | data
        · rfl
        · rfl
      · rfl
  · rfl

/-- **What a getter can answer**: a failure that is not a missing key, or what is stored. -/
theorem getAs_cases (rf : ReadFault) (envs : Envs) (id : EnvId) (ty : StorageType) (key : Bytes)
    (cap : ℕ) :
    (∃ rc, rc ≠ .notFound ∧ envs.getAs rf.fault id ty key cap = .error rc) ∨
      ValidKey key ∧ envs.getAs rf.fault id ty key cap =
        match envs.stored (id, key) with
        | none => .error .notFound
        | some data => (readAs ty cap data).1 := by
  obtain ⟨f, hbegin, hop⟩ := rf
  rw [getAs_eq]
  rcases hb : f.atBegin with _ | err
  · rcases hkey : validateKey key with rc | u
    · exact Or.inl ⟨rc, validateKey_ne_notFound hkey, rfl⟩
    · rcases ho : f.atOp with _ | err
      · exact Or.inr ⟨validKey_of_validateKey hkey, rfl⟩
      · refine Or.inl ⟨mapMdbRc err, fun h => hop ?_, rfl⟩
        rw [ho, mapMdbRc_eq_notFound_iff.mp h]
  · refine Or.inl ⟨mapMdbRc err, fun h => hbegin ?_, rfl⟩
    rw [hb, mapMdbRc_eq_notFound_iff.mp h]

variable {rf : ReadFault} {envs : Envs} {id : EnvId} {ty : StorageType} {key : Bytes} {cap : ℕ}

/-- A getter that returns a value has read it. -/
theorem getAs_ok {v : Value} (h : envs.getAs rf.fault id ty key cap = .ok v) :
    ValidKey key ∧ ∃ data, envs.stored (id, key) = some data ∧ (readAs ty cap data).1 = .ok v := by
  obtain ⟨rc, -, hrc⟩ | ⟨hkey, hget⟩ := getAs_cases rf envs id ty key cap
  · rw [hrc] at h
    exact absurd h (by simp)
  · rw [h] at hget
    rcases hs : envs.stored (id, key) with _ | data
    · rw [hs] at hget
      exact absurd hget (by simp)
    · rw [hs] at hget
      exact ⟨hkey, data, rfl, hget.symm⟩

/-- A getter that finds no key is right. -/
theorem getAs_notFound (h : envs.getAs rf.fault id ty key cap = .error .notFound) :
    ValidKey key ∧ envs.stored (id, key) = none := by
  obtain ⟨rc, hne, hrc⟩ | ⟨hkey, hget⟩ := getAs_cases rf envs id ty key cap
  · rw [hrc] at h
    exact absurd (Except.error.inj h) hne
  · rw [h] at hget
    rcases hs : envs.stored (id, key) with _ | data
    · exact ⟨hkey, rfl⟩
    · rw [hs] at hget
      exact absurd hget.symm (readAs_ne_notFound ty cap data)

end Envs

/-! ### Reading alike -/

/-- **The same typed value, or the same absence**: no getter tells the two apart. -/
def ReadsAlike : Option Bytes → Option Bytes → Prop
  | none, none => True
  | some a, some b => ∀ ty cap, readAs ty cap a = readAs ty cap b
  | _, _ => False

theorem readsAlike_refl (a : Option Bytes) : ReadsAlike a a := by
  rcases a with _ | a
  · trivial
  · exact fun _ _ => rfl

/-- Only absence reads like absence. -/
theorem readsAlike_none_iff {b : Option Bytes} : ReadsAlike none b ↔ b = none := by
  cases b <;> simp [ReadsAlike]

/-- What reads alike is absent alike. -/
theorem ReadsAlike.eq_none_iff {a b : Option Bytes} (h : ReadsAlike a b) :
    b = none ↔ a = none := by
  match a, b, h with
  | none, none, _ => simp
  | some _, some _, _ => simp

/-- **No getter tells apart what reads alike**, whatever fails. -/
theorem Envs.getAs_congr {envs envs' : Envs} {id id' : EnvId} {key : Bytes}
    (h : ReadsAlike (envs.stored (id, key)) (envs'.stored (id', key))) (f : Fault)
    (ty : StorageType) (cap : ℕ) :
    envs.getAs f id ty key cap = envs'.getAs f id' ty key cap := by
  rw [getAs_eq, getAs_eq]
  rcases f.atBegin with _ | err
  · rcases validateKey key with rc | u
    · rfl
    · rcases f.atOp with _ | err
      · rcases ha : envs.stored (id, key) with _ | a
        · rcases hb : envs'.stored (id', key) with _ | b
          · rfl
          · rw [ha, hb] at h
            exact h.elim
        · rcases hb : envs'.stored (id', key) with _ | b
          · rw [ha, hb] at h
            exact h.elim
          · rw [ha, hb] at h
            exact congrArg Prod.fst (h ty cap)
      · rfl
  · rfl

/-- **What a getter answers when nothing fails.** -/
theorem Envs.getAs_none {envs : Envs} {id : EnvId} {key : Bytes} (hkey : ValidKey key)
    (ty : StorageType) (cap : ℕ) :
    envs.getAs .none id ty key cap =
      match envs.stored (id, key) with
      | none => .error .notFound
      | some data => (readAs ty cap data).1 := by
  rw [getAs_eq, validateKey_of_valid hkey]
  rfl

/-- A value that was read and its encoding read alike. -/
theorem readsAlike_encode {ty : StorageType} {cap : ℕ} {data : Bytes} {v : Value}
    (h : (readAs ty cap data).1 = .ok v) : ReadsAlike (some data) (some v.encode) :=
  fun ty' cap' => readAs_eq_encode h ty' cap'

/-- An encoding is read back. -/
theorem exists_readAs_encode (v : Value) :
    ∃ cap, (readAs v.storageType cap v.encode).1 = .ok v := by
  refine ⟨v.units.getD 0, ?_⟩
  rw [readAs_encode, Value.deliver]
  rcases v.units with _ | n
  · rfl
  · simp

/-- Only the encoding of a value reads like it. -/
theorem readsAlike_encode_iff {v w : Value} :
    ReadsAlike (some v.encode) (some w.encode) ↔ v = w := by
  constructor
  · intro h
    obtain ⟨cap, hcap⟩ := exists_readAs_encode v
    rw [h] at hcap
    obtain ⟨a, b, c, p, henc, hp⟩ := readAs_eq_ok hcap
    rw [Value.encode] at henc
    simp only [List.cons_append, List.nil_append, List.cons.injEq] at henc
    obtain ⟨htag, -, -, -, rfl⟩ := henc
    rw [← StorageType.tag_inj htag, cValue_payload] at hp
    exact (Option.some.inj hp).symm
  · rintro rfl
    exact readsAlike_refl _

end AgentxSubagent
