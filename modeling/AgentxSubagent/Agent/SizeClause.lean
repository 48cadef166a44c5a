import AgentxSubagent.Agent.TableGet

/-!
# SIZE clauses of string objects

What `mib2c/mib2c.dbscalar.conf` and `mib2c/mib2c.dbtable.conf` emit for an `OCTET STRING` object,
as a function of its SIZE clause. Three pieces of the templates walk over the alternatives of the
clause: one makes the test of MODE_SET_RESERVE1, one sizes the buffer of MODE_GET, and one the
buffer that MODE_SET_RESERVE2 stashes the old value in. Nothing but these buffers limits what can
be read: a value that RESERVE1 let through and that is longer can be stored, and is then neither
answered nor replaced.

* `AgentxSubagent.lenOk_iff`: the test accepts the lengths of some alternative;
* `AgentxSubagent.fits_of_allows`: with a clause, every length it allows fits the
  buffers;
* `AgentxSubagent.string_object_usable_iff`: without one, a value of more than 256 bytes is accepted
  and the object is stuck; every other accepted value stays readable and replaceable.

The other objects of the templates are in `AgentxSubagent.Syn`, and
`AgentxSubagent.StringObject.dbscalar_reserve2` and its neighbours say that the handlers there are
these.
-/

namespace AgentxSubagent

/-! ### The templates -/

/-- `$sawsize` and `$maxsize`. -/
structure SizeVars where
  sawsize : ℕ
  maxsize : ℕ

/-- The loop of the templates over the alternatives `$s`, `$e` of a SIZE clause. -/
def sizeVars (sizes : List (ℕ × ℕ)) : SizeVars :=
  sizes.foldl (fun v r => ⟨1, if r.2 > v.maxsize then r.2 else v.maxsize⟩) ⟨0, 0⟩

/-- `$buflen`. -/
def sizeBuflen (sizes : List (ℕ × ℕ)) : ℕ :=
  if (sizeVars sizes).sawsize > 0 then (sizeVars sizes).maxsize + 1 else 256

/-- The test that is emitted for one alternative: the lower bound is left out where it is 0. -/
def lenTest (r : ℕ × ℕ) (vlen : ℕ) : Bool :=
  if r.1 > 0 then vlen ≥ r.1 && vlen ≤ r.2 else vlen ≤ r.2

/-- `len_ok` after the tests of all alternatives. -/
def lenOk (sizes : List (ℕ × ℕ)) (vlen : ℕ) : Bool :=
  sizes.foldl (fun lenOk r => if lenTest r vlen then true else lenOk) false

/-- An `OCTET STRING` object: its name, the alternatives of its SIZE clause, which is empty if there
is none, and its storage mode. -/
structure StringObject where
  name : Bytes
  sizes : List (ℕ × ℕ)
  mode : StorageMode
  name_length : 1 ≤ name.length ∧ name.length ≤ 64

/-- A request that net-snmp matched to a row, as the block of a string column uses it: the row, the
varbind, the list data `undo_$c` and the error set so far. -/
structure CellRequest where
  inst : TableInstance
  requestvb : AsnValue
  undo : Option UndoCell
  status : Option SnmpErr

/-- A request as it arrives. -/
def CellRequest.fresh (inst : TableInstance) (vb : AsnValue) : CellRequest := ⟨inst, vb, none, none⟩

/-- `netsnmp_set_request_error`. -/
def CellRequest.setError (r : CellRequest) (e : SnmpErr) : CellRequest :=
  { r with status := some e }

namespace StringObject

variable (o : StringObject)

/-- The check of MODE_SET_RESERVE1, which both templates emit: the error set, if any. -/
def reserve1 : AsnValue → Option SnmpErr
  | .octetStr s =>
    if o.sizes ≠ [] then if lenOk o.sizes s.length then none else some .wrongLength else none
  | _ => some .wrongType

/-- MODE_GET of a scalar. -/
def scalarGet (rf : ReadFault) (envs : Envs) : GetReply :=
  match envs.getAs rf.fault o.mode.env .bytes o.name (sizeBuflen o.sizes) with
  | .error .notFound => .noSuchInstance
  | .error _ => .genErr
  | .ok v => .value .octetStr v

/-- MODE_SET_RESERVE1 of a scalar. -/
def scalarReserve1 (r : ScalarRequest) : ScalarRequest :=
  match o.reserve1 r.requestvb with
  | some e => r.setError e
  | none => r

/-- MODE_SET_RESERVE2 of a scalar. -/
def scalarReserve2 (rf : ReadFault) (envs : Envs) (r : ScalarRequest) : ScalarRequest :=
  if rf.fault.nomem then r.setError .resourceUnavailable
  else
    match envs.getAs rf.fault o.mode.env .bytes o.name (sizeBuflen o.sizes) with
    | .ok v => { r with undo := some v }
    | .error .notFound => { r with undo := some (.bytes []) }
    | .error _ => r.setError .resourceUnavailable

/-- MODE_SET_ACTION of a scalar. -/
def scalarAction (f : Fault) (envs : Envs) (r : ScalarRequest) : ScalarRequest × Envs :=
  match r.requestvb with
  | .octetStr s =>
    match envs.setValue f o.mode.env o.name (.bytes s) with
    | (.error _, envs') => (r.setError .commitFailed, envs')
    | (.ok _, envs') => (r, envs')
  -- RESERVE1 has refused a varbind of another type
  | _ => (r, envs)

/-- MODE_GET of a column, for the row `inst`. -/
def columnGet (rf : ReadFault) (envs : Envs) (inst : TableInstance) : GetReply :=
  match tableCellKey o.name inst (storageKeyMax + 1) with
  | .error _ => .genErr
  | .ok key =>
    match envs.getAs rf.fault o.mode.env .bytes key (sizeBuflen o.sizes) with
    | .error .notFound => .noSuchInstance
    | .error _ => .genErr
    | .ok v => .value .octetStr v

/-- MODE_SET_RESERVE1 of a column. -/
def columnReserve1 (r : CellRequest) : CellRequest :=
  match o.reserve1 r.requestvb with
  | some e => r.setError e
  | none => r

/-- MODE_SET_RESERVE2 of a column. -/
def columnReserve2 (rf : ReadFault) (envs : Envs) (r : CellRequest) : CellRequest :=
  if rf.fault.nomem then r.setError .resourceUnavailable
  else
    match tableCellKey o.name r.inst (storageKeyMax + 1) with
    | .error _ => r.setError .genErr
    | .ok key =>
      match envs.getAs rf.fault o.mode.env .bytes key (sizeBuflen o.sizes) with
      | .ok v => { r with undo := some ⟨key, true, v⟩ }
      | .error .notFound => { r with undo := some ⟨key, false, .bytes []⟩ }
      | .error _ => r.setError .resourceUnavailable

/-- MODE_SET_ACTION of a column. -/
def columnAction (f : Fault) (envs : Envs) (r : CellRequest) : CellRequest × Envs :=
  match tableCellKey o.name r.inst (storageKeyMax + 1) with
  | .error _ => (r.setError .genErr, envs)
  | .ok key =>
    match r.requestvb with
    | .octetStr s =>
      match envs.setValue f o.mode.env key (.bytes s) with
      | (.error _, envs') => (r.setError .commitFailed, envs')
      | (.ok _, envs') => (r, envs')
    -- RESERVE1 has refused a varbind of another type
    | _ => (r, envs)

end StringObject

/-! ### Lengths and buffers -/

/-- **A SIZE clause allows a length**: it lies in one of the alternatives, or there are none. -/
def SizeAllows (sizes : List (ℕ × ℕ)) (len : ℕ) : Prop :=
  sizes = [] ∨ ∃ r ∈ sizes, r.1 ≤ len ∧ len ≤ r.2

theorem lenTest_iff {r : ℕ × ℕ} {vlen : ℕ} : lenTest r vlen = true ↔ r.1 ≤ vlen ∧ vlen ≤ r.2 := by
  rw [lenTest]
  split_ifs with h
  · rw [Bool.and_eq_true, decide_eq_true_iff, decide_eq_true_iff]
  · rw [decide_eq_true_iff]
    omega

/-- **The emitted tests accept the lengths of some alternative.** -/
theorem lenOk_iff {sizes : List (ℕ × ℕ)} {vlen : ℕ} :
    lenOk sizes vlen = true ↔ ∃ r ∈ sizes, r.1 ≤ vlen ∧ vlen ≤ r.2 := by
  -- the flag is never reset, so it only matters whether it is set at some alternative
  have hloop : ∀ (rs : List (ℕ × ℕ)) (ok : Bool),
      rs.foldl (fun lenOk r => if lenTest r vlen then true else lenOk) ok = true ↔
        ok = true ∨ ∃ r ∈ rs, r.1 ≤ vlen ∧ vlen ≤ r.2 := by
    intro rs
    induction rs with
    | nil => simp
    | cons r rs ih =>
      intro ok
      rw [List.foldl_cons, ih]
      by_cases hr : lenTest r vlen = true
      · rw [if_pos hr]
        exact iff_of_true (Or.inl rfl) (Or.inr ⟨r, List.mem_cons_self, lenTest_iff.mp hr⟩)
      · rw [if_neg hr, List.exists_mem_cons_iff, ← lenTest_iff]
        simp [hr]
  rw [lenOk, hloop]
  simp

/-- The loop over the alternatives leaves their greatest upper bound. -/
theorem sizeVars_eq (sizes : List (ℕ × ℕ)) :
    sizeVars sizes = ⟨if sizes = [] then 0 else 1, (sizes.map Prod.snd).foldl max 0⟩ := by
  have hloop : ∀ (rs : List (ℕ × ℕ)) (v : SizeVars),
      rs.foldl (fun v r => ⟨1, if r.2 > v.maxsize then r.2 else v.maxsize⟩) v =
        ⟨if rs = [] then v.sawsize else 1, (rs.map Prod.snd).foldl max v.maxsize⟩ := by
    intro rs
    induction rs with
    | nil => exact fun _ => rfl
    | cons r rs ih =>
      intro v
      have hmax : (if r.2 > v.maxsize then r.2 else v.maxsize) = max v.maxsize r.2 := by
        split_ifs <;> omega
      rw [List.foldl_cons, ih, hmax]
      simp
  exact hloop sizes ⟨0, 0⟩

/-- The buffers are those of `AgentxSubagent.Syn.buflen`. -/
theorem sizeBuflen_eq (sizes : List (ℕ × ℕ)) :
    sizeBuflen sizes = (Syn.octetString sizes).buflen := by
  rw [sizeBuflen, sizeVars_eq]
  rcases sizes with _ | ⟨r, rs⟩
  · rfl
  · rfl

/-- **With a SIZE clause, every length it allows fits the buffers.** -/
theorem fits_of_allows {sizes : List (ℕ × ℕ)} (hne : sizes ≠ []) {len : ℕ}
    (h : SizeAllows sizes len) : len ≤ sizeBuflen sizes := by
  obtain ⟨r, hr, -, hle⟩ := h.resolve_left hne
  have hmem : r.2 ∈ sizes.map Prod.snd := List.mem_map_of_mem hr
  have hmax : r.2 ≤ (sizes.map Prod.snd).foldl max 0 := by
    rw [List.foldl_max_eq_max (List.ne_nil_of_mem hmem)]
    exact le_trans (List.le_max_of_mem hmem) (le_max_right ..)
  rw [sizeBuflen, sizeVars_eq, if_neg hne, if_pos Nat.one_pos]
  exact le_trans (le_trans hle hmax) (Nat.le_succ _)

/-- Without one, the buffers hold 256 bytes. -/
theorem sizeBuflen_nil : sizeBuflen [] = 256 := rfl

/-! ### One object -/

namespace StringObject

variable {o : StringObject} {envs : Envs} {key s : Bytes}

theorem validKey_name (o : StringObject) : ValidKey o.name :=
  ⟨o.name_length.1, le_trans o.name_length.2 (by decide)⟩

/-- **RESERVE1 accepts the lengths the SIZE clause allows.** -/
theorem reserve1_eq_none_iff : o.reserve1 (.octetStr s) = none ↔ SizeAllows o.sizes s.length := by
  rw [reserve1, SizeAllows]
  by_cases hne : o.sizes = []
  · rw [if_neg (not_not_intro hne)]
    exact iff_of_true rfl (Or.inl hne)
  · rw [if_pos hne, ← lenOk_iff]
    rcases lenOk o.sizes s.length with _ | _
    · simp [hne]
    · simp

/-- **What a getter answers where a string is stored**: the string, if it fits the buffer. -/
theorem getAs_stored (hkey : ValidKey key)
    (hstored : envs.stored (o.mode.env, key) = some (Value.bytes s).encode) (cap : ℕ) :
    envs.getAs ReadFault.none.fault o.mode.env .bytes key cap =
      if s.length > cap then .error .tooBig else .ok (.bytes s) := by
  have hread : readAs .bytes cap (Value.bytes s).encode = (Value.bytes s).deliver cap :=
    readAs_encode (.bytes s) cap
  rw [show ReadFault.none.fault = .none from rfl, Envs.getAs_none hkey, hstored]
  simp only [hread, Value.deliver, Value.units]
  split_ifs
  · rfl
  · rfl

/-- What a setter that succeeds has stored. -/
theorem stored_of_setValue {f : Fault} {envs' : Envs}
    (h : envs.setValue f o.mode.env key (.bytes s) = (.ok (), envs')) :
    envs'.stored (o.mode.env, key) = some (Value.bytes s).encode := by
  obtain ⟨rc, hset⟩ | ⟨-, hset⟩ := envs.setValue_cases f o.mode.env key (.bytes s)
  · rw [hset] at h
    exact absurd (congrArg Prod.fst h) (by simp)
  · rw [hset] at h
    rw [← (Prod.mk.inj h).2, Envs.stored_put, Function.update_self]

/-- **What ACTION of a scalar stores**, if it sets no error. -/
theorem stored_of_scalarAction {f : Fault} {r : ScalarRequest} (hvb : r.requestvb = .octetStr s)
    (h : (o.scalarAction f envs r).1.status = none) :
    (o.scalarAction f envs r).2.stored (o.mode.env, o.name) = some (Value.bytes s).encode := by
  rw [scalarAction, hvb] at h ⊢
  simp only at h ⊢
  rcases hset : envs.setValue f o.mode.env o.name (.bytes s) with ⟨rc | u, envs'⟩
  · rw [hset] at h
    exact absurd h (by simp [ScalarRequest.setError])
  · exact stored_of_setValue hset

/-- **What ACTION of a column stores**, if it sets no error; the key of the cell could be built
then. -/
theorem stored_of_columnAction {f : Fault} {r : CellRequest} (hvb : r.requestvb = .octetStr s)
    (h : (o.columnAction f envs r).1.status = none) :
    tableCellKey o.name r.inst (storageKeyMax + 1) = .ok (cellKey o.name r.inst) ∧
      (o.columnAction f envs r).2.stored (o.mode.env, cellKey o.name r.inst) =
        some (Value.bytes s).encode := by
  rw [columnAction] at h ⊢
  rcases hkey : tableCellKey o.name r.inst (storageKeyMax + 1) with rc | key
  · rw [hkey] at h
    exact absurd h (by simp [CellRequest.setError])
  · obtain ⟨rfl, -⟩ := validKey_of_tableCellKey hkey
    rw [hkey] at h
    refine ⟨rfl, ?_⟩
    simp only [hvb] at h ⊢
    rcases hset : envs.setValue f o.mode.env (cellKey o.name r.inst) (.bytes s) with ⟨rc | u, envs'⟩
    · rw [hset] at h
      exact absurd h (by simp [CellRequest.setError])
    · exact stored_of_setValue hset

/-- RESERVE1 of a scalar lets a varbind through when the check does. -/
theorem status_scalarReserve1 (vb : AsnValue) :
    (o.scalarReserve1 (.fresh vb)).status = none ↔ o.reserve1 vb = none := by
  have hvb : (ScalarRequest.fresh vb).requestvb = vb := rfl
  rw [scalarReserve1, hvb]
  rcases o.reserve1 vb with _ | e
  · exact iff_of_true rfl rfl
  · simp [ScalarRequest.setError]

/-- So does that of a column. -/
theorem status_columnReserve1 (inst : TableInstance) (vb : AsnValue) :
    (o.columnReserve1 (.fresh inst vb)).status = none ↔ o.reserve1 vb = none := by
  have hvb : (CellRequest.fresh inst vb).requestvb = vb := rfl
  rw [columnReserve1, hvb]
  rcases o.reserve1 vb with _ | e
  · exact iff_of_true rfl rfl
  · simp [CellRequest.setError]

/-- ACTION of a scalar in which nothing fails. -/
theorem scalarAction_none (o : StringObject) (envs : Envs) (s : Bytes) :
    o.scalarAction .none envs (.fresh (.octetStr s)) =
      (.fresh (.octetStr s), envs.put (o.mode.env, o.name) (Value.bytes s).encode) := by
  have hset := envs.setValue_spared .none o.mode.env o.validKey_name (Fault.none_spares (.bytes s))
  simp only [scalarAction, ScalarRequest.fresh, hset]

/-- ACTION of a column in which nothing fails. -/
theorem columnAction_none {inst : TableInstance}
    (hkey : tableCellKey o.name inst (storageKeyMax + 1) = .ok key) (envs : Envs) (s : Bytes) :
    o.columnAction .none envs (.fresh inst (.octetStr s)) =
      (.fresh inst (.octetStr s), envs.put (o.mode.env, key) (Value.bytes s).encode) := by
  obtain ⟨-, hvalid⟩ := validKey_of_tableCellKey hkey
  have hset := envs.setValue_spared .none o.mode.env hvalid (Fault.none_spares (.bytes s))
  simp only [columnAction, CellRequest.fresh, hkey, hset]

section Stored

variable (hstored : envs.stored (o.mode.env, o.name) = some (Value.bytes s).encode)

include hstored

/-- **A GET of a scalar** that holds a string. -/
theorem scalarGet_stored :
    o.scalarGet .none envs =
      if s.length > sizeBuflen o.sizes then .genErr else .value .octetStr (.bytes s) := by
  rw [scalarGet, getAs_stored o.validKey_name hstored]
  split_ifs
  · rfl
  · rfl

/-- **RESERVE2 of a scalar** that holds a string. -/
theorem scalarReserve2_stored (r : ScalarRequest) :
    o.scalarReserve2 .none envs r =
      if s.length > sizeBuflen o.sizes then r.setError .resourceUnavailable
      else { r with undo := some (.bytes s) } := by
  have hmem : ¬ReadFault.none.fault.nomem = true := Bool.false_ne_true
  rw [scalarReserve2, if_neg hmem, getAs_stored o.validKey_name hstored]
  split_ifs
  · rfl
  · rfl

end Stored

section StoredCell

variable {inst : TableInstance} (hkey : tableCellKey o.name inst (storageKeyMax + 1) = .ok key)
  (hstored : envs.stored (o.mode.env, key) = some (Value.bytes s).encode)

include hkey hstored

/-- **A GET of a cell** that holds a string. -/
theorem columnGet_stored :
    o.columnGet .none envs inst =
      if s.length > sizeBuflen o.sizes then .genErr else .value .octetStr (.bytes s) := by
  obtain ⟨-, hvalid⟩ := validKey_of_tableCellKey hkey
  rw [columnGet, hkey]
  simp only [getAs_stored hvalid hstored]
  split_ifs
  · rfl
  · rfl

/-- **RESERVE2 of a cell** that holds a string. -/
theorem columnReserve2_stored (vb : AsnValue) :
    o.columnReserve2 .none envs (.fresh inst vb) =
      if s.length > sizeBuflen o.sizes then (CellRequest.fresh inst vb).setError .resourceUnavailable
      else { CellRequest.fresh inst vb with undo := some ⟨key, true, .bytes s⟩ } := by
  obtain ⟨-, hvalid⟩ := validKey_of_tableCellKey hkey
  have hinst : (CellRequest.fresh inst vb).inst = inst := rfl
  have hmem : ¬ReadFault.none.fault.nomem = true := Bool.false_ne_true
  rw [columnReserve2, if_neg hmem, hinst, hkey]
  simp only [getAs_stored hvalid hstored]
  split_ifs
  · rfl
  · rfl

end StoredCell

end StringObject

/-! ### Usable objects -/

/-- **A string stays usable in a scalar**: RESERVE1 accepts it if the SIZE clause allows its length,
and once ACTION has stored it, then for as long as it is stored a GET answers it, RESERVE2 of a
later SET stashes it, and ACTION of that SET stores what it brings. -/
structure ScalarUsable (o : StringObject) (s : Bytes) : Prop where
  accepts : (o.scalarReserve1 (.fresh (.octetStr s))).status = none ↔ SizeAllows o.sizes s.length
  stays : SizeAllows o.sizes s.length → ∀ f envs (r : ScalarRequest) (later : Envs),
    r.requestvb = .octetStr s → (o.scalarAction f envs r).1.status = none →
    later.stored (o.mode.env, o.name) =
      (o.scalarAction f envs r).2.stored (o.mode.env, o.name) →
    o.scalarGet .none later = .value .octetStr (.bytes s) ∧
      (∀ vb, o.scalarReserve2 .none later (.fresh vb) =
        { ScalarRequest.fresh vb with undo := some (.bytes s) }) ∧
      ∀ s', (o.scalarAction .none later (.fresh (.octetStr s'))).1.status = none

/-- **A string stays usable in a column**, in whatever row. -/
structure ColumnUsable (o : StringObject) (s : Bytes) : Prop where
  accepts : ∀ inst,
    (o.columnReserve1 (.fresh inst (.octetStr s))).status = none ↔ SizeAllows o.sizes s.length
  stays : SizeAllows o.sizes s.length → ∀ f envs (r : CellRequest) (later : Envs),
    r.requestvb = .octetStr s → (o.columnAction f envs r).1.status = none →
    later.stored (o.mode.env, cellKey o.name r.inst) =
      (o.columnAction f envs r).2.stored (o.mode.env, cellKey o.name r.inst) →
    o.columnGet .none later r.inst = .value .octetStr (.bytes s) ∧
      (∀ vb, o.columnReserve2 .none later (.fresh r.inst vb) =
        { CellRequest.fresh r.inst vb with
          undo := some ⟨cellKey o.name r.inst, true, .bytes s⟩ }) ∧
      ∀ s', (o.columnAction .none later (.fresh r.inst (.octetStr s'))).1.status = none

section Usable

variable {o : StringObject} {s : Bytes}

/-- A string is accepted by a SIZE clause and fits the buffers, or there is no clause and it may be
too long for them. -/
theorem fits_iff (hallows : SizeAllows o.sizes s.length) :
    s.length ≤ sizeBuflen o.sizes ↔ o.sizes ≠ [] ∨ s.length ≤ 256 := by
  by_cases hne : o.sizes = []
  · rw [hne, sizeBuflen_nil]
    simp
  · exact iff_of_true (fits_of_allows hne hallows) (Or.inl hne)

theorem scalarUsable_of_fits (h : SizeAllows o.sizes s.length → s.length ≤ sizeBuflen o.sizes) :
    ScalarUsable o s := by
  refine ⟨?_, fun hallows f envs r later hvb hact hlater => ?_⟩
  · rw [← StringObject.reserve1_eq_none_iff]
    exact StringObject.status_scalarReserve1 _
  · rw [StringObject.stored_of_scalarAction hvb hact] at hlater
    have hfits := Nat.not_lt.mpr (h hallows)
    refine ⟨?_, fun vb => ?_, fun s' => ?_⟩
    · rw [StringObject.scalarGet_stored hlater, if_neg hfits]
    · rw [StringObject.scalarReserve2_stored hlater, if_neg hfits]
    · rw [StringObject.scalarAction_none]
      rfl

theorem columnUsable_of_fits (h : SizeAllows o.sizes s.length → s.length ≤ sizeBuflen o.sizes) :
    ColumnUsable o s := by
  refine ⟨fun inst => ?_, fun hallows f envs r later hvb hact hlater => ?_⟩
  · rw [← StringObject.reserve1_eq_none_iff]
    exact StringObject.status_columnReserve1 inst _
  · obtain ⟨hkey, hstored⟩ := StringObject.stored_of_columnAction hvb hact
    rw [hstored] at hlater
    have hfits := Nat.not_lt.mpr (h hallows)
    refine ⟨?_, fun vb => ?_, fun s' => ?_⟩
    · rw [StringObject.columnGet_stored hkey hlater, if_neg hfits]
    · rw [StringObject.columnReserve2_stored hkey hlater, if_neg hfits]
    · rw [StringObject.columnAction_none hkey]
      rfl

/-- A string that is accepted and does not fit is stored, and not answered. -/
theorem fits_of_scalarUsable (h : ScalarUsable o s) (hallows : SizeAllows o.sizes s.length) :
    s.length ≤ sizeBuflen o.sizes := by
  by_contra hbig
  have hstatus : (o.scalarAction .none (fun _ => ∅) (.fresh (.octetStr s))).1.status = none := by
    rw [o.scalarAction_none]
    rfl
  have hstored := StringObject.stored_of_scalarAction rfl hstatus
  obtain ⟨hget, -⟩ := h.stays hallows .none (fun _ => ∅) (.fresh (.octetStr s)) _ rfl hstatus rfl
  rw [StringObject.scalarGet_stored hstored, if_pos (Nat.lt_of_not_le hbig)] at hget
  exact absurd hget (by simp)

theorem fits_of_columnUsable (h : ColumnUsable o s) (hallows : SizeAllows o.sizes s.length) :
    s.length ≤ sizeBuflen o.sizes := by
  by_contra hbig
  obtain ⟨hkey, -⟩ := tableCellKey_single o.name_length.1 o.name_length.2 1
  have hstatus :
      (o.columnAction .none (fun _ => ∅) (.fresh [1] (.octetStr s))).1.status = none := by
    rw [StringObject.columnAction_none hkey]
    rfl
  obtain ⟨-, hstored⟩ := StringObject.stored_of_columnAction rfl hstatus
  have hget : o.columnGet .none (o.columnAction .none (fun _ => ∅)
      (.fresh [1] (.octetStr s))).2 [1] = .value .octetStr (.bytes s) :=
    (h.stays hallows .none (fun _ => ∅) (.fresh [1] (.octetStr s)) _ rfl hstatus rfl).1
  rw [StringObject.columnGet_stored hkey hstored, if_pos (Nat.lt_of_not_le hbig)] at hget
  exact absurd hget (by simp)

end Usable

/-- **When a string that a SET accepts stays readable and replaceable.** For every `OCTET STRING`
object, with any SIZE clause or none, and every string: the handlers of the scalar template keep it
usable, and so do those of the table template, exactly when the object has a SIZE clause or the
string is no longer than 256 bytes. -/
theorem string_object_usable_iff (o : StringObject) (s : Bytes) :
    (ScalarUsable o s ↔ o.sizes ≠ [] ∨ s.length ≤ 256) ∧
      (ColumnUsable o s ↔ o.sizes ≠ [] ∨ s.length ≤ 256) := by
  have hfits : (SizeAllows o.sizes s.length → s.length ≤ sizeBuflen o.sizes) ↔
      o.sizes ≠ [] ∨ s.length ≤ 256 := by
    constructor
    · intro h
      by_cases hne : o.sizes = []
      · exact (fits_iff (Or.inl hne)).mp (h (Or.inl hne))
      · exact Or.inl hne
    · exact fun h hallows => (fits_iff hallows).mpr h
  exact ⟨⟨fun h => hfits.mp (fits_of_scalarUsable h), fun h => scalarUsable_of_fits (hfits.mpr h)⟩,
    ⟨fun h => hfits.mp (fits_of_columnUsable h), fun h => columnUsable_of_fits (hfits.mpr h)⟩⟩

/-- A string object without a SIZE clause. -/
def plainString : StringObject := ⟨ascii "plainString", [], .persistent, by decide⟩

/-- A string of 257 bytes is accepted and stored there; the GET that follows is answered with
`genErr`, and RESERVE2 of the next SET with `resourceUnavailable`. -/
theorem string_object_stuck :
    ∃ s : Bytes, s.length = 257 ∧ plainString.reserve1 (.octetStr s) = none ∧
      (∃ envs, plainString.scalarAction .none (fun _ => ∅) (.fresh (.octetStr s)) =
          (.fresh (.octetStr s), envs) ∧
        plainString.scalarGet .none envs = .genErr ∧
        (plainString.scalarReserve2 .none envs (.fresh (.octetStr [65]))).status =
          some .resourceUnavailable) ∧
      ¬ScalarUsable plainString s ∧ ¬ColumnUsable plainString s := by
  have hallows : SizeAllows plainString.sizes (List.replicate 257 (65 : UInt8)).length := Or.inl rfl
  have hbig : ¬(List.replicate 257 (65 : UInt8)).length ≤ sizeBuflen plainString.sizes := by
    rw [List.length_replicate]
    decide
  generalize hs : List.replicate 257 (65 : UInt8) = s at hallows hbig
  have hstored : (Envs.put (fun _ => ∅) (plainString.mode.env, plainString.name)
      (Value.bytes s).encode).stored (plainString.mode.env, plainString.name) =
        some (Value.bytes s).encode := by
    rw [Envs.stored_put, Function.update_self]
  refine ⟨s, by rw [← hs, List.length_replicate], rfl,
    ⟨_, plainString.scalarAction_none (fun _ => ∅) s, ?_, ?_⟩,
    fun h => hbig (fits_of_scalarUsable h hallows), fun h => hbig (fits_of_columnUsable h hallows)⟩
  · rw [StringObject.scalarGet_stored hstored, if_pos (Nat.lt_of_not_le hbig)]
  · rw [StringObject.scalarReserve2_stored hstored, if_pos (Nat.lt_of_not_le hbig)]
    rfl

/-! ### The handlers of the objects -/

/-- A string object in the form the other objects have. -/
def StringObject.object (o : StringObject) (defval : Value) : MibObject :=
  ⟨o.name, .octetString o.sizes, o.mode, defval⟩

/-- A string object as a column of a table. -/
def StringObject.column (o : StringObject) (colnum : ℕ) : TableColumn :=
  ⟨colnum, o.name, .octetString o.sizes, .octetStr, o.mode.env⟩

/-- The check of RESERVE1 is the one of `AgentxSubagent.Syn`. -/
theorem StringObject.syn_reserve1 (o : StringObject) (vb : AsnValue) :
    (Syn.octetString o.sizes).reserve1 vb = o.reserve1 vb := by
  cases vb with
  | octetStr s =>
    have hcast : InSome (o.sizes.map fun r => ((r.1 : ℤ), (r.2 : ℤ))) s.length ↔
        SizeAllows o.sizes s.length := by
      simp [InSome, SizeAllows]
    rw [Syn.reserve1]
    by_cases hallows : SizeAllows o.sizes s.length
    · rw [if_pos (hcast.mpr hallows), StringObject.reserve1_eq_none_iff.mpr hallows]
    · have hne : o.sizes ≠ [] := fun h => hallows (Or.inl h)
      have hok : ¬lenOk o.sizes s.length = true := fun h => hallows (Or.inr (lenOk_iff.mp h))
      rw [if_neg fun h => hallows (hcast.mp h), StringObject.reserve1, if_pos hne, if_neg hok]
  | _ => rfl

section Scalar

variable (o : StringObject) (defval : Value) (f : CallFaults) (a : Agent) (r : ScalarRequest)

theorem StringObject.dbscalar_reserve1 :
    dbscalar (o.object defval) id f .reserve1 a r = (o.scalarReserve1 r, a) := by
  simp only [dbscalar, scalarReserve1, object, o.syn_reserve1]
  rcases o.reserve1 r.requestvb with _ | e
  · rfl
  · rfl

theorem StringObject.dbscalar_reserve2 :
    dbscalar (o.object defval) id f .reserve2 a r = (o.scalarReserve2 f.read a.envs r, a) := by
  simp only [dbscalar, scalarReserve2, object, ← sizeBuflen_eq, Syn.type]
  split_ifs
  · rfl
  · rcases a.envs.getAs f.read.fault o.mode.env .bytes o.name (sizeBuflen o.sizes) with rc | v
    · cases rc <;> rfl
    · rfl

theorem StringObject.dbscalar_action :
    dbscalar (o.object defval) id f .action a r =
      ((o.scalarAction f.write a.envs r).1,
        { a with envs := (o.scalarAction f.write a.envs r).2 }) := by
  simp only [dbscalar, scalarAction, object]
  cases r.requestvb with
  | octetStr s =>
    simp only [Syn.newValue]
    rcases a.envs.setValue f.write o.mode.env o.name (.bytes s) with ⟨rc | u, envs'⟩
    · rfl
    · rfl
  | _ => rfl

end Scalar

/-- A GET of a string column. -/
theorem StringObject.getCell_column (o : StringObject) (colnum : ℕ) (rf : ReadFault) (envs : Envs)
    (inst : TableInstance) : getCell rf envs (o.column colnum) inst = o.columnGet rf envs inst := by
  rcases hkey : tableCellKey o.name inst (storageKeyMax + 1) with rc | key
  · simp only [getCell, columnGet, column, hkey]
  · rcases hget : envs.getAs rf.fault o.mode.env .bytes key (sizeBuflen o.sizes) with rc | v
    · cases rc <;> simp only [getCell, columnGet, column, ← sizeBuflen_eq, Syn.type, hkey, hget]
    · simp only [getCell, columnGet, column, ← sizeBuflen_eq, Syn.type, hkey, hget]

/-- `portDescr`, the string column of `portConfigTable`. -/
def StringObject.portDescr (m : Modes) : StringObject :=
  ⟨PortColumn.name .portDescr, [(0, 63)], (PortColumn.object m .portDescr).mode, by decide⟩

/-- What a request for `portDescr` is to its block. -/
def TableRequest.cell (r : TableRequest) (inst : TableInstance) : CellRequest :=
  ⟨inst, r.vb.requestvb, r.undo .portDescr, r.status⟩

section Column

variable (m : Modes) (f : CellFaults) (envs : Envs) {r : TableRequest} {colnum : ℕ}
  (hcol : PortColumn.ofColnum colnum = some .portDescr)

include hcol

/-- The block of RESERVE1. -/
theorem StringObject.cellReserve1_portDescr {t : TableInfo} (ht : r.vb.tableInfo = some t)
    (hctx : r.vb.iteratorContext = true) (hcolnum : t.colnum = colnum) (inst : TableInstance) :
    (cellReserve1 m r).cell inst = (StringObject.portDescr m).columnReserve1 (r.cell inst) := by
  have hsyn : (PortColumn.object m .portDescr).syn.reserve1 r.vb.requestvb =
      (StringObject.portDescr m).reserve1 r.vb.requestvb :=
    (StringObject.portDescr m).syn_reserve1 r.vb.requestvb
  simp only [cellReserve1, ht, hctx, hcolnum, hcol, hsyn, columnReserve1, TableRequest.cell]
  rcases (StringObject.portDescr m).reserve1 r.vb.requestvb with _ | e
  · rfl
  · rfl

variable {inst : TableInstance} (hrow : r.vb.row = some (colnum, inst))

include hrow

/-- The block of RESERVE2. -/
theorem StringObject.cellReserve2_portDescr :
    (cellReserve2 m f envs r).cell inst =
      (StringObject.portDescr m).columnReserve2 f.read envs (r.cell inst) := by
  have hget (key : Bytes) : envs.getAs f.read.fault (PortColumn.object m .portDescr).mode.env
      (PortColumn.object m .portDescr).syn.type key (PortColumn.object m .portDescr).syn.buflen =
      envs.getAs f.read.fault (StringObject.portDescr m).mode.env .bytes key
        (sizeBuflen (StringObject.portDescr m).sizes) := by
    rw [sizeBuflen_eq]
    rfl
  have hname : (StringObject.portDescr m).name = PortColumn.name .portDescr := rfl
  have hinst : (r.cell inst).inst = inst := rfl
  simp only [cellReserve2, hrow, hcol, columnReserve2, hget, hname, hinst]
  split_ifs
  · rfl
  · rcases tableCellKey (PortColumn.name .portDescr) inst (storageKeyMax + 1) with rc | key
    · rfl
    · simp only
      rcases envs.getAs f.read.fault (StringObject.portDescr m).mode.env .bytes key
        (sizeBuflen (StringObject.portDescr m).sizes) with rc | v
      · cases rc <;> rfl
      · rfl

/-- The block of ACTION. -/
theorem StringObject.cellAction_portDescr :
    ((cellAction m f envs r).1.cell inst, (cellAction m f envs r).2) =
      (StringObject.portDescr m).columnAction f.write envs (r.cell inst) := by
  have hname : (StringObject.portDescr m).name = PortColumn.name .portDescr := rfl
  have hmode : (StringObject.portDescr m).mode = (PortColumn.object m .portDescr).mode := rfl
  have hsyn : (PortColumn.object m .portDescr).syn = .octetString [(0, 63)] := rfl
  simp only [cellAction, hrow, hcol, columnAction, hname, hmode, hsyn, TableRequest.cell]
  rcases tableCellKey (PortColumn.name .portDescr) inst (storageKeyMax + 1) with rc | key
  · rfl
  · simp only
    cases hvb : r.vb.requestvb with
    | octetStr s =>
      simp only [Syn.newValue]
      rcases envs.setValue f.write (PortColumn.object m .portDescr).mode.env key (.bytes s)
        with ⟨rc | u, envs'⟩
      · simp [TableRequest.setError, CellRequest.setError, hvb]
      · simp [hvb]
    | _ => simp [Syn.newValue, hvb]

end Column

end AgentxSubagent
