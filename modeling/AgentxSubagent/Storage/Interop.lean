import AgentxSubagent.Storage.Lmdb

/-!
# What the C getters make of stored bytes, and what Rust does

The five getters and the five setters of `src/storage_lmdb.c`, taken together. Each getter
is a raw read followed by a decoding of its own; `AgentxSubagent.readAs` is that decoding,
for every type at once, and `AgentxSubagent.txnGetAs_eq` says so. Each setter is a raw write
of `AgentxSubagent.Value.encode` (`AgentxSubagent.txnSetValue_eq`), the very bytes the Rust
side writes.

Two results compare the two languages.

* `AgentxSubagent.values_interchangeable`: whatever C stores, Rust decodes to the same
  value, and so does the C getter of the matching type, every other one refusing the type.
* `AgentxSubagent.same_acceptance_iff`: on bytes no setter wrote the two part. C looks
  neither at the reserved bytes nor at what follows a fixed-width payload, Rust refuses
  both; `AgentxSubagent.ReadLeniently` names the byte strings on which that shows.
-/

namespace AgentxSubagent

open LittleEndian

/-! ### One getter and one setter for every type -/

/-- The getter of a type, `txn_get_int_impl` to `txn_get_oid_impl`, with the room the caller
offers; the fixed-width ones do not look at it. -/
def txnGetAs (ty : StorageType) (f : Fault) (txn : MdbTxn) (key : Bytes) (cap : ℕ) :
    Except StorageErr Value × ℕ :=
  match ty with
  | .int32 => ((txnGetIntImpl f txn key).map .int32, cap)
  | .uint32 => ((txnGetUintImpl f txn key).map .uint32, cap)
  | .uint64 => ((txnGetU64Impl f txn key).map .uint64, cap)
  | .bytes => let r := txnGetBytesImpl f txn key cap; (r.1.map .bytes, r.2)
  | .oid => let r := txnGetOidImpl f txn key cap; (r.1.map .oid, r.2)

/-- The setter of a value's type, `txn_set_int_impl` to `txn_set_oid_impl`. -/
def txnSetValue (f : Fault) (txn : MdbTxn) (key : Bytes) : Value → Except StorageErr MdbTxn
  | .int32 v => txnSetIntImpl f txn key v
  | .uint32 v => txnSetUintImpl f txn key v
  | .uint64 v => txnSetU64Impl f txn key v
  | .bytes v => txnSetBytesImpl f txn key v
  | .oid subids => txnSetOidImpl f txn key subids

/-- The length a value needs of the caller's buffer; a fixed-width value needs none. -/
def Value.units : Value → Option ℕ
  | .bytes v => some v.length
  | .oid subids => some subids.length
  | _ => none

/-- The value a C getter takes a payload for; `none` is `STORAGE_ERR_INVAL`. Fixed-width
payloads are only checked for a minimal length. -/
def cValue (p : Bytes) : StorageType → Option Value
  | .int32 => if p.length < 4 then none else some (.int32 (getU32le p).toInt32)
  | .uint32 => if p.length < 4 then none else some (.uint32 (getU32le p))
  | .uint64 => if p.length < 8 then none else some (.uint64 (getU64le p))
  | .bytes => some (.bytes p)
  | .oid =>
    if p.length % 4 ≠ 0 then none
    else some (.oid ((List.range (p.length / 4)).map fun i => getU32le (p.drop (i * 4))))

/-- Handing a value to a caller with room for `cap` units. -/
def Value.deliver (v : Value) (cap : ℕ) : Except StorageErr Value × ℕ :=
  match v.units with
  | none => (.ok v, cap)
  | some n => if n > cap then (.error .tooBig, n) else (.ok v, n)

/-- **What the getter of a type makes of stored bytes.** -/
def readAs (ty : StorageType) (cap : ℕ) (data : Bytes) : Except StorageErr Value × ℕ :=
  match decodeHeader data ty with
  | .error rc => (.error rc, cap)
  | .ok p =>
    match cValue p ty with
    | none => (.error .inval, cap)
    | some v => v.deliver cap

/-- **A getter is a raw read and a decoding.** -/
theorem txnGetAs_eq (ty : StorageType) (f : Fault) (txn : MdbTxn) (key : Bytes) (cap : ℕ) :
    txnGetAs ty f txn key cap =
      match txnGetRaw f txn key with
      | .error rc => (.error rc, cap)
      | .ok data => readAs ty cap data := by
  cases hraw : txnGetRaw f txn key with
  | error rc =>
    cases ty <;> simp only [txnGetAs, txnGetIntImpl, txnGetUintImpl, txnGetU64Impl,
      txnGetBytesImpl, txnGetOidImpl, hraw] <;> rfl
  | ok data =>
    cases hdec : decodeHeader data ty with
    | error rc =>
      cases ty <;> simp only [txnGetAs, txnGetIntImpl, txnGetUintImpl, txnGetU64Impl,
        txnGetBytesImpl, txnGetOidImpl, readAs, hraw, hdec, bind, Except.bind] <;> rfl
    | ok p =>
      cases ty <;> simp only [txnGetAs, txnGetIntImpl, txnGetUintImpl, txnGetU64Impl,
        txnGetBytesImpl, txnGetOidImpl, readAs, hraw, hdec, bind, Except.bind, cValue,
        Value.deliver, Value.units]
      case oid =>
        by_cases h4 : p.length % 4 = 0
        · by_cases hn : p.length / 4 > cap
          · simp [h4, hn, Except.map]
          · simp [h4, hn, Except.map]
        · simp [h4, Except.map]
      all_goals split_ifs <;> rfl

/-- **A setter is a raw write of the encoding**, which is the Rust one. -/
theorem txnSetValue_eq (f : Fault) (txn : MdbTxn) (key : Bytes) (v : Value) :
    txnSetValue f txn key v =
      if f.nomem ∧ v.units.isSome then .error .io else txnPutRaw f txn key v.encode := by
  have hoid : putU32le = fun s => leBytes 4 s.toNat := funext putU32le_eq
  cases v <;> simp [txnSetValue, txnSetIntImpl, txnSetUintImpl, txnSetU64Impl, txnSetBytesImpl,
    txnSetOidImpl, Value.units, Value.encode, Value.payload, Value.storageType, encodeHeader,
    putU64le_eq, hoid]

/-! ### Raw reads and writes -/

theorem txnGetRaw_invalid {key : Bytes} {rc : StorageErr} (h : validateKey key = .error rc)
    (f : Fault) (txn : MdbTxn) : txnGetRaw f txn key = .error rc := by
  rw [txnGetRaw, h]
  rfl

/-- A raw read of a valid key in which nothing fails. -/
theorem txnGetRaw_valid {key : Bytes} (h : ValidKey key) (txn : MdbTxn) :
    txnGetRaw .none txn key =
      match txn.view[key]? with
      | none => .error .notFound
      | some data => .ok data := by
  rw [txnGetRaw, validateKey_of_valid h]
  change (mdbGet .none txn key).mapError mapMdbRc = _
  simp only [mdbGet, Fault.none]
  cases txn.view[key]? <;> rfl

theorem txnPutRaw_invalid {key : Bytes} {rc : StorageErr} (h : validateKey key = .error rc)
    (f : Fault) (txn : MdbTxn) (data : Bytes) : txnPutRaw f txn key data = .error rc := by
  rw [txnPutRaw, h]
  rfl

/-- A raw write to a valid key of a write transaction in which nothing fails. -/
theorem txnPutRaw_valid {key : Bytes} (h : ValidKey key) {txn : MdbTxn}
    (hw : txn.rdonly = false) (data : Bytes) :
    txnPutRaw .none txn key data = .ok ⟨false, txn.view.insert key data⟩ := by
  obtain ⟨rdonly, view⟩ := txn
  obtain rfl : rdonly = false := hw
  rw [txnPutRaw, validateKey_of_valid h]
  rfl

/-! ### Decoding a payload, in C -/

/-- The four bytes at the front of a payload are what `get_u32le` reads. -/
theorem getU32le_take {p : Bytes} (h : 4 ≤ p.length) :
    getU32le p = UInt32.ofNat (leNat (p.take 4)) := by
  have hsplit := getU32le_eq (p.take 4) (p.drop 4) (by rw [List.length_take]; omega)
  rwa [List.take_append_drop] at hsplit

/-- The eight bytes at the front of a payload are what `get_u64le` reads. -/
theorem getU64le_take {p : Bytes} (h : 8 ≤ p.length) :
    getU64le p = UInt64.ofNat (leNat (p.take 8)) := by
  have hsplit := getU64le_eq (p.take 8) (p.drop 8) (by rw [List.length_take]; omega)
  rwa [List.take_append_drop] at hsplit

/-- The loop of the OID getter reads the four-byte chunks. -/
theorem range_getU32le_eq : ∀ p : Bytes, p.length % 4 = 0 →
    ((List.range (p.length / 4)).map fun i => getU32le (p.drop (i * 4))) =
      (asChunks4 p).map fun c => UInt32.ofNat (leNat c)
  | [], _ => rfl
  | [_], h | [_, _], h | [_, _, _], h => by simp at h
  | a :: b :: c :: d :: rest, h => by
    have hrest : rest.length % 4 = 0 := by
      simp only [List.length_cons] at h
      omega
    have hlen : (a :: b :: c :: d :: rest).length / 4 = rest.length / 4 + 1 := by
      simp only [List.length_cons]
      omega
    rw [hlen, List.range_succ_eq_map, List.map_cons, List.map_map, asChunks4, List.map_cons,
      ← range_getU32le_eq rest hrest]
    congr 1
    · exact getU32le_eq [a, b, c, d] rest rfl
    · refine List.map_congr_left fun i _ => ?_
      have hdrop : (i + 1) * 4 = i * 4 + 4 := by ring
      simp only [Function.comp_apply, Nat.succ_eq_add_one, hdrop]
      rfl

/-- A payload has at least the width of its type, and a whole number of sub-identifiers. -/
def Fits (p : Bytes) : StorageType → Prop
  | .int32 | .uint32 => 4 ≤ p.length
  | .uint64 => 8 ≤ p.length
  | .bytes => True
  | .oid => p.length % 4 = 0

/-- **What C accepts as a payload.** -/
theorem exists_cValue_iff {p : Bytes} {ty : StorageType} :
    (∃ v, cValue p ty = some v) ↔ Fits p ty := by
  cases ty <;> simp only [cValue, Fits]
  case bytes => simp
  case oid =>
    by_cases h4 : p.length % 4 = 0
    · simp [h4]
    · simp [h4]
  all_goals
    split_ifs with hlen
    · simpa using hlen
    · simpa using hlen

/-- A payload is longer than the width of its type. -/
def Oversized (p : Bytes) : StorageType → Prop
  | .int32 | .uint32 => 4 < p.length
  | .uint64 => 8 < p.length
  | .bytes | .oid => False

instance (p : Bytes) (ty : StorageType) : Decidable (Oversized p ty) :=
  match ty with
  | .int32 | .uint32 => inferInstanceAs (Decidable (4 < p.length))
  | .uint64 => inferInstanceAs (Decidable (8 < p.length))
  | .bytes | .oid => inferInstanceAs (Decidable False)

/-- **C accepts a payload that Rust accepts, as the same value.** -/
theorem cValue_of_ofPayload {p : Bytes} {ty : StorageType} {v : Value}
    (h : Value.ofPayload p ty = some v) : cValue p ty = some v := by
  cases ty with
  | bytes => exact h
  | oid =>
    by_cases h4 : p.length % 4 = 0
    · rw [Value.ofPayload, if_pos h4] at h
      rw [cValue, if_neg (not_not_intro h4), range_getU32le_eq p h4]
      exact h
    · rw [Value.ofPayload, if_neg h4] at h
      exact absurd h (by simp)
  | int32 | uint32 =>
    by_cases h4 : p.length = 4
    · rw [Value.ofPayload, if_pos h4] at h
      rw [cValue, if_neg (by omega), getU32le_take (by omega), List.take_of_length_le (by omega)]
      exact h
    · rw [Value.ofPayload, if_neg h4] at h
      exact absurd h (by simp)
  | uint64 =>
    by_cases h8 : p.length = 8
    · rw [Value.ofPayload, if_pos h8] at h
      rw [cValue, if_neg (by omega), getU64le_take (by omega), List.take_of_length_le (by omega)]
      exact h
    · rw [Value.ofPayload, if_neg h8] at h
      exact absurd h (by simp)

/-- **A payload C accepts is refused by Rust exactly when it is longer than its type.** -/
theorem ofPayload_of_cValue {p : Bytes} {ty : StorageType} {v : Value}
    (h : cValue p ty = some v) :
    Value.ofPayload p ty = if Oversized p ty then none else some v := by
  by_cases ho : Oversized p ty
  · rw [if_pos ho]
    cases ty <;> simp only [Oversized] at ho <;> simp only [Value.ofPayload] <;>
      exact if_neg (by omega)
  · rw [if_neg ho]
    have hne : ∃ w, Value.ofPayload p ty = some w := by
      cases ty <;> simp only [Oversized, not_lt] at ho <;> simp only [cValue] at h <;>
        simp only [Value.ofPayload]
      case bytes => exact ⟨_, rfl⟩
      all_goals
        split_ifs at h with hl
        split_ifs with hr
        · exact ⟨_, rfl⟩
        · omega
    obtain ⟨w, hw⟩ := hne
    rw [hw, ← cValue_of_ofPayload hw, h]

theorem storageType_of_cValue {p : Bytes} {ty : StorageType} {v : Value}
    (h : cValue p ty = some v) : v.storageType = ty := by
  cases ty <;> simp only [cValue] at h <;> try split_ifs at h
  all_goals
    obtain rfl := Option.some.inj h
    rfl

/-- The C getter of the matching type takes the payload of a value for that value. -/
theorem cValue_payload (v : Value) : cValue v.payload v.storageType = some v :=
  cValue_of_ofPayload v.ofPayload_payload

/-! ### Reading stored bytes, in C -/

/-- **The getter of the matching type** delivers an encoded value. -/
theorem readAs_encode (v : Value) (cap : ℕ) :
    readAs v.storageType cap v.encode = v.deliver cap := by
  have hdec : decodeHeader v.encode v.storageType = .ok v.payload := by
    rw [Value.encode]
    exact (decodeHeader_cons _ 0 0 0 v.payload _).trans (if_pos rfl)
  rw [readAs, hdec]
  simp only [cValue_payload]

/-- **Every other getter** refuses the type of an encoded value. -/
theorem readAs_encode_other {v : Value} {ty : StorageType} (h : ty ≠ v.storageType) (cap : ℕ) :
    readAs ty cap v.encode = (.error .typeMismatch, cap) := by
  have hdec : decodeHeader v.encode ty = .error .typeMismatch := by
    rw [Value.encode]
    exact (decodeHeader_cons _ 0 0 0 v.payload _).trans
      (if_neg fun hc => h (StorageType.tag_inj hc).symm)
  rw [readAs, hdec]

/-- A getter that succeeds has read a header of its type and a payload it takes for the
value it returns. -/
theorem readAs_eq_ok {ty : StorageType} {cap : ℕ} {data : Bytes} {v : Value}
    (h : (readAs ty cap data).1 = .ok v) :
    ∃ a b c p, data = ty.tag :: a :: b :: c :: p ∧ cValue p ty = some v := by
  rcases short_or_header data with hs | ⟨t, a, b, c, p, rfl⟩
  · rw [readAs, decodeHeader_short hs] at h
    exact absurd h (by simp)
  · by_cases ht : t = ty.tag
    · rw [readAs, decodeHeader_cons, if_pos ht] at h
      cases hv : cValue p ty with
      | none =>
        simp only [hv] at h
        exact absurd h (by simp)
      | some w =>
        simp only [hv, Value.deliver] at h
        refine ⟨a, b, c, p, by rw [ht], ?_⟩
        cases hu : w.units with
        | none =>
          rw [hu] at h
          rw [hv, Except.ok.inj h]
        | some n =>
          simp only [hu] at h
          split_ifs at h
          rw [hv, Except.ok.inj h]
    · rw [readAs, decodeHeader_cons, if_neg ht] at h
      exact absurd h (by simp)

theorem readAs_cons {ty : StorageType} {a b c : UInt8} {p : Bytes} {v : Value}
    (hv : cValue p ty = some v) (cap : ℕ) :
    readAs ty cap (ty.tag :: a :: b :: c :: p) = v.deliver cap := by
  rw [readAs, decodeHeader_cons, if_pos rfl]
  simp only [hv]

/-- **Rewriting a value that was read changes no reading.** Stored bytes from which some
getter returned `v` and the encoding of `v` look the same to every getter. -/
theorem readAs_eq_encode {ty : StorageType} {cap : ℕ} {data : Bytes} {v : Value}
    (h : (readAs ty cap data).1 = .ok v) (ty' : StorageType) (cap' : ℕ) :
    readAs ty' cap' data = readAs ty' cap' v.encode := by
  obtain ⟨a, b, c, p, rfl, hv⟩ := readAs_eq_ok h
  have hty := storageType_of_cValue hv
  by_cases ht : ty' = ty
  · rw [ht, readAs_cons hv, ← hty, readAs_encode]
  · rw [readAs_encode_other (by rw [hty]; exact ht), readAs, decodeHeader_cons,
      if_neg fun hc => ht (StorageType.tag_inj hc).symm]

/-! ### The two languages -/

/-- **C and Rust write interchangeable values.** For every value, the bytes the C setter
stores are the ones Rust encodes; Rust decodes them to the value; the C getter of its type
returns it to a caller with enough room and the room needed to any other; and every other
getter refuses the type. -/
theorem values_interchangeable (txn : MdbTxn) (hw : txn.rdonly = false) (key : Bytes)
    (hkey : ValidKey key) (v : Value) :
    ∃ txn', txnSetValue .none txn key v = .ok txn' ∧ txn'.view[key]? = some v.encode ∧
      Value.decode v.encode = .ok v ∧
      (∀ cap, txnGetAs v.storageType .none txn' key cap =
        match v.units with
        | none => (.ok v, cap)
        | some n => if n ≤ cap then (.ok v, n) else (.error .tooBig, n)) ∧
      ∀ ty, ty ≠ v.storageType → ∀ cap,
        txnGetAs ty .none txn' key cap = (.error .typeMismatch, cap) := by
  have hget : ∀ ty cap, txnGetAs ty .none ⟨false, txn.view.insert key v.encode⟩ key cap =
      readAs ty cap v.encode := by
    intro ty cap
    rw [txnGetAs_eq, txnGetRaw_valid hkey]
    simp
  refine ⟨⟨false, txn.view.insert key v.encode⟩, ?_, by simp, v.decode_encode, fun cap => ?_,
    fun ty hty cap => ?_⟩
  · rw [txnSetValue_eq, if_neg (by simp [Fault.none]), txnPutRaw_valid hkey hw]
  · rw [hget, readAs_encode, Value.deliver]
    cases v.units with
    | none => rfl
    | some n =>
      by_cases hn : n ≤ cap
      · simp [hn]
      · simp [hn, Nat.lt_of_not_le hn]
  · rw [hget, readAs_encode_other hty]

/-- A negative integer, stored in an empty environment by the C setter. -/
theorem values_interchangeable_neg :
    ∃ txn', txnSetValue .none ⟨false, ∅⟩ (ascii "k") (.int32 (-5)) = .ok txn' ∧
      txn'.view[ascii "k"]? = some (Value.int32 (-5)).encode ∧
      Value.decode (Value.int32 (-5)).encode = .ok (.int32 (-5)) ∧
      (∀ cap, txnGetAs .int32 .none txn' (ascii "k") cap = (.ok (.int32 (-5)), cap)) ∧
      ∀ ty, ty ≠ StorageType.int32 → ∀ cap,
        txnGetAs ty .none txn' (ascii "k") cap = (.error .typeMismatch, cap) :=
  values_interchangeable ⟨false, ∅⟩ rfl (ascii "k") (by decide) (.int32 (-5))

/-- **Bytes that C reads and Rust refuses**: a known tag in front of a payload long enough
for it, with a non-zero reserved byte or with bytes past a fixed width. -/
def ReadLeniently : Bytes → Prop
  | t :: a :: b :: c :: p =>
    ∃ ty : StorageType, t = ty.tag ∧ Fits p ty ∧
      (¬(a = 0 ∧ b = 0 ∧ c = 0) ∨ Oversized p ty)
  | _ => False

/-- What Rust makes of a header with a known tag. -/
theorem decode_eq_ok_iff {ty : StorageType} {a b c : UInt8} {p : Bytes} {v : Value} :
    Value.decode (ty.tag :: a :: b :: c :: p) = .ok v ↔
      (a = 0 ∧ b = 0 ∧ c = 0) ∧ Value.ofPayload p ty = some v := by
  by_cases hr : a = 0 ∧ b = 0 ∧ c = 0
  · obtain ⟨rfl, rfl, rfl⟩ := hr
    rw [Value.decode_header_eq_ok]
    simp
  · rw [Value.decode_reserved p hr]
    simp [hr]

/-- Rust accepts nothing without a known tag. -/
theorem exists_tag_of_decode {t a b c : UInt8} {p : Bytes} {v : Value}
    (h : Value.decode (t :: a :: b :: c :: p) = .ok v) : t = v.storageType.tag := by
  by_cases hr : a = 0 ∧ b = 0 ∧ c = 0
  · obtain ⟨rfl, rfl, rfl⟩ := hr
    cases ht : StorageType.fromTag t with
    | none =>
      rw [Value.decode_unknown p ht] at h
      exact absurd h (by simp)
    | some ty =>
      obtain rfl := StorageType.fromTag_eq_some.mp ht
      rw [Value.storageType_ofPayload (Value.decode_header_eq_ok.mp h)]
  · rw [Value.decode_reserved p hr] at h
    exact absurd h (by simp)

/-- What Rust accepts, the C getter of the value's type reads as the same value. -/
theorem readAs_of_decode {data : Bytes} {v : Value} (h : Value.decode data = .ok v) (cap : ℕ) :
    readAs v.storageType cap data = v.deliver cap := by
  rcases short_or_header data with hs | ⟨t, a, b, c, p, rfl⟩
  · rw [Value.decode_short hs] at h
    exact absurd h (by simp)
  · obtain rfl := exists_tag_of_decode h
    exact readAs_cons (cValue_of_ofPayload (decode_eq_ok_iff.mp h).2) cap

/-- A value read out of some bytes needs no more room than they have. -/
theorem deliver_of_le {ty : StorageType} {p : Bytes} {v : Value} (hv : cValue p ty = some v)
    {cap : ℕ} (hcap : p.length ≤ cap) : (v.deliver cap).1 = .ok v := by
  cases ty <;> simp only [cValue] at hv <;> try split_ifs at hv
  all_goals
    obtain rfl := Option.some.inj hv
    simp only [Value.deliver, Value.units]
  · rw [if_neg (by omega)]
  · rw [if_neg (by simp only [List.length_map, List.length_range]; omega)]

/-- **When the two decoders agree on stored bytes**: exactly when the bytes are not among
those that only the C side reads. -/
theorem same_acceptance_iff (txn : MdbTxn) (key : Bytes) (hkey : ValidKey key) (data : Bytes)
    (hdata : txn.view[key]? = some data) :
    (∀ (ty : StorageType) (v : Value) (cap : ℕ), data.length ≤ cap →
      ((txnGetAs ty .none txn key cap).1 = .ok v ↔
        Value.decode data = .ok v ∧ v.storageType = ty)) ↔ ¬ReadLeniently data := by
  have hget : ∀ ty cap, txnGetAs ty .none txn key cap = readAs ty cap data := by
    intro ty cap
    rw [txnGetAs_eq, txnGetRaw_valid hkey, hdata]
  simp only [hget]
  rcases short_or_header data with hs | ⟨t, a, b, c, p, rfl⟩
  · -- without a header neither side accepts anything
    have hnot : ¬ReadLeniently data := by
      match data, hs with
      | [], _ | [_], _ | [_, _], _ | [_, _, _], _ => exact fun h => h
    refine iff_of_true (fun ty v cap _ => ?_) hnot
    rw [readAs, decodeHeader_short hs, Value.decode_short hs]
    simp
  constructor
  · rintro hagree ⟨ty, rfl, hfits, hbad⟩
    obtain ⟨v, hv⟩ := exists_cValue_iff.mpr hfits
    have hlen : p.length ≤ (ty.tag :: a :: b :: c :: p).length := by
      simp only [List.length_cons]
      omega
    have hread : (readAs ty (ty.tag :: a :: b :: c :: p).length
        (ty.tag :: a :: b :: c :: p)).1 = .ok v := by
      rw [readAs_cons hv]
      exact deliver_of_le hv hlen
    obtain ⟨hres, hpay⟩ := decode_eq_ok_iff.mp ((hagree ty v _ le_rfl).mp hread).1
    rcases hbad with hbad | hbad
    · exact hbad hres
    · rw [ofPayload_of_cValue hv, if_pos hbad] at hpay
      exact absurd hpay (by simp)
  · intro hstrict ty v cap hcap
    have hlen : p.length ≤ cap := by
      simp only [List.length_cons] at hcap
      omega
    constructor
    · intro hread
      obtain ⟨a', b', c', p', he, hv⟩ := readAs_eq_ok hread
      simp only [List.cons.injEq] at he
      obtain ⟨rfl, rfl, rfl, rfl, rfl⟩ := he
      have hfits := exists_cValue_iff.mp ⟨v, hv⟩
      refine ⟨decode_eq_ok_iff.mpr ⟨?_, ?_⟩, storageType_of_cValue hv⟩
      · by_contra hres
        exact hstrict ⟨ty, rfl, hfits, Or.inl hres⟩
      · rw [ofPayload_of_cValue hv, if_neg fun ho => hstrict ⟨ty, rfl, hfits, Or.inr ho⟩]
    · rintro ⟨hdec, rfl⟩
      obtain rfl := exists_tag_of_decode hdec
      have hv := cValue_of_ofPayload (decode_eq_ok_iff.mp hdec).2
      rw [readAs_of_decode hdec]
      exact deliver_of_le hv hlen

/-- A transaction in which one integer is stored behind a reserved byte that is not zero. -/
def lenientTxn : MdbTxn := ⟨true, (∅ : Lmdb).insert (ascii "k") [1, 1, 0, 0, 1, 2, 3, 4]⟩

/-- The C getter returns that integer, Rust refuses the bytes. -/
theorem not_same_acceptance :
    ¬((txnGetAs .int32 .none lenientTxn (ascii "k") 8).1 = .ok (.int32 0x04030201) ↔
      Value.decode [1, 1, 0, 0, 1, 2, 3, 4] = .ok (.int32 0x04030201) ∧
        (Value.int32 0x04030201).storageType = .int32) := by
  decide

/-- A transaction in which the same integer is stored as a setter stores it. -/
def encodedTxn : MdbTxn := ⟨true, (∅ : Lmdb).insert (ascii "k") [1, 0, 0, 0, 1, 2, 3, 4]⟩

/-- There the two agree. -/
theorem same_acceptance_encoded :
    ¬ReadLeniently [1, 0, 0, 0, 1, 2, 3, 4] ∧
      ((txnGetAs .int32 .none encodedTxn (ascii "k") 8).1 = .ok (.int32 0x04030201) ↔
        Value.decode [1, 0, 0, 0, 1, 2, 3, 4] = .ok (.int32 0x04030201) ∧
          (Value.int32 0x04030201).storageType = .int32) := by
  have hstrict : ¬ReadLeniently [1, 0, 0, 0, 1, 2, 3, 4] := by
    rintro ⟨ty, htag, -, hbad⟩
    obtain rfl : ty = .int32 := StorageType.tag_inj htag.symm
    revert hbad
    decide
  exact ⟨hstrict, (same_acceptance_iff encodedTxn (ascii "k") (by decide)
    [1, 0, 0, 0, 1, 2, 3, 4] (by simp [encodedTxn])).mpr hstrict .int32 (.int32 0x04030201) 8
    (by decide)⟩

end AgentxSubagent
