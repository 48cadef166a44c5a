import Mathlib.Data.List.Induction
import AgentxSubagent.Lib.LittleEndian

/-!
# Stored values, as C and as Rust write them

A value is stored behind a four-byte header: its type tag and three reserved bytes.
This file holds the two codecs side by side.

* The C one, from `src/storage_lmdb.c`: the little-endian helpers `put_u32le`,
  `get_u32le`, `put_u64le`, `get_u64le` with their shifts, and `encode_header` and
  `decode_header`. The C side has no function that decodes a whole value; its getters, one
  per type, are in `AgentxSubagent.Storage.Lmdb`.
* The Rust one, from `rust-app/src/storage/codec.rs`: `Value::encode` and `Value::decode`.
  Rust's `to_le_bytes` and `from_le_bytes` are the library functions
  `LittleEndian.leBytes` and `LittleEndian.leNat` at the width of the type.

The C helpers are shown to compute the same two library functions
(`AgentxSubagent.putU32le_eq`, `AgentxSubagent.getU32le_eq`, `AgentxSubagent.putU64le_eq`,
`AgentxSubagent.getU64le_eq`); from there on no shift appears in any proof.

A byte string is the list of its bytes, and a C string the list of its bytes before the
terminating NUL. Pointers are never NULL, so the argument checks against NULL are not
embedded.
-/

namespace AgentxSubagent

open LittleEndian

/-- A byte string. -/
abbrev Bytes := List UInt8

/-- The bytes of an ASCII literal of the source. -/
def ascii (s : String) : Bytes := s.toList.map fun c => c.toNat.toUInt8

/-! ### Types, values and error codes -/

/-- The storage types. `STORAGE_TYPE_INVALID`, tag 0, is not among them: no setter writes
it and no getter asks for it. -/
inductive StorageType
  | int32
  | uint32
  | uint64
  | bytes
  | oid
  deriving DecidableEq, Repr

/-- The type tags of `storage_type_t`. -/
def StorageType.tag : StorageType → UInt8
  | .int32 => 1
  | .uint32 => 2
  | .uint64 => 3
  | .bytes => 4
  | .oid => 5

/-- `StorageType::from_tag`. -/
def StorageType.fromTag (tag : UInt8) : Option StorageType :=
  if tag = 1 then some .int32
  else if tag = 2 then some .uint32
  else if tag = 3 then some .uint64
  else if tag = 4 then some .bytes
  else if tag = 5 then some .oid
  else none

@[simp] theorem StorageType.fromTag_tag (ty : StorageType) : fromTag ty.tag = some ty := by
  cases ty <;> rfl

theorem StorageType.fromTag_eq_some {t : UInt8} {ty : StorageType} :
    fromTag t = some ty ↔ t = ty.tag := by
  constructor
  · intro h
    unfold fromTag at h
    split_ifs at h with h1 h2 h3 h4 h5 <;> simp_all [tag] <;> subst h <;> rfl
  · rintro rfl
    exact fromTag_tag ty

theorem StorageType.tag_inj {s t : StorageType} (h : s.tag = t.tag) : s = t := by
  have hs := congrArg fromTag h
  rwa [fromTag_tag, fromTag_tag, Option.some.injEq] at hs

/-- A typed value, as the Rust `Value` enum has it. -/
inductive Value
  | int32 (v : Int32)
  | uint32 (v : UInt32)
  | uint64 (v : UInt64)
  | bytes (v : Bytes)
  /-- A MIB OID: a sequence of sub-identifiers. -/
  | oid (subids : List UInt32)
  deriving DecidableEq

/-- `Value::storage_type`. -/
def Value.storageType : Value → StorageType
  | .int32 _ => .int32
  | .uint32 _ => .uint32
  | .uint64 _ => .uint64
  | .bytes _ => .bytes
  | .oid _ => .oid

/-- The error codes of `storage_rc_t`; `STORAGE_OK` is the success of an `Except`. -/
inductive StorageErr
  | notFound
  | typeMismatch
  | inval
  | tooBig
  | full
  | busy
  | io
  | readOnly
  deriving DecidableEq, Repr

/-- `storage_strerror`. -/
def storageStrerror : StorageErr → Bytes
  | .notFound => ascii "key not found"
  | .typeMismatch => ascii "type mismatch"
  | .inval => ascii "invalid argument"
  | .tooBig => ascii "buffer or key too big"
  | .full => ascii "map or transaction full"
  | .busy => ascii "writer lock contended"
  | .io => ascii "i/o error"
  | .readOnly => ascii "read-only environment"

/-! ### The little-endian helpers of the C side -/

/-- `put_u32le`. -/
def putU32le (v : UInt32) : Bytes :=
  [(v &&& 0xFF).toUInt8, ((v >>> 8) &&& 0xFF).toUInt8,
    ((v >>> 16) &&& 0xFF).toUInt8, ((v >>> 24) &&& 0xFF).toUInt8]

/-- `get_u32le`: the four bytes at the front of `p`. -/
def getU32le (p : Bytes) : UInt32 :=
  (p.getD 0 0).toUInt32 ||| ((p.getD 1 0).toUInt32 <<< 8) |||
    ((p.getD 2 0).toUInt32 <<< 16) ||| ((p.getD 3 0).toUInt32 <<< 24)

/-- The loop of `put_u64le`, with `n` bytes to go. -/
def putU64leLoop : ℕ → UInt64 → Bytes
  | 0, _ => []
  | n + 1, v => (v &&& 0xFF).toUInt8 :: putU64leLoop n (v >>> 8)

/-- `put_u64le`. -/
def putU64le (v : UInt64) : Bytes := putU64leLoop 8 v

/-- The loop of `get_u64le`, about to read the byte below index `i`. -/
def getU64leLoop (p : Bytes) : ℕ → UInt64 → UInt64
  | 0, v => v
  | i + 1, v => getU64leLoop p i ((v <<< 8) ||| (p.getD i 0).toUInt64)

/-- `get_u64le`: the eight bytes at the front of `p`. -/
def getU64le (p : Bytes) : UInt64 := getU64leLoop p 8 0

/-- **`put_u32le` writes the little-endian bytes.** -/
theorem putU32le_eq (v : UInt32) : putU32le v = leBytes 4 v.toNat := by
  have hv := v.toNat_lt
  simp only [putU32le, leBytes, List.cons.injEq, and_true, ← UInt8.toNat_inj,
    UInt32.toNat_toUInt8, UInt32.toNat_and, UInt32.toNat_shiftRight, Nat.toUInt8,
    UInt8.toNat_ofNat', Nat.shiftRight_eq_div_pow]
  simp only [UInt32.reduceToNat, land_255, Nat.reduceMod, Nat.reducePow]
  omega

/-- **`get_u32le` reads the little-endian number** of a four-byte front. -/
theorem getU32le_eq (bs rest : Bytes) (h : bs.length = 4) :
    getU32le (bs ++ rest) = UInt32.ofNat (leNat bs) := by
  match bs, h with
  | [a, b, c, d], _ =>
    have ha := a.toNat_lt
    have hb := b.toNat_lt
    have hc := c.toNat_lt
    have hd := d.toNat_lt
    apply UInt32.toNat_inj.mp
    simp only [getU32le, List.cons_append, List.nil_append, List.getD_cons_zero,
      List.getD_cons_succ, UInt32.toNat_or, UInt32.toNat_shiftLeft, UInt8.toNat_toUInt32,
      UInt32.reduceToNat, UInt32.toNat_ofNat', leNat_cons, leNat_nil, Nat.reduceMod]
    -- each shifted byte stays below `2 ^ 32`, so nothing is cut off
    have hs : ∀ x k : ℕ, x < 256 → k ≤ 24 → x <<< k % 2 ^ 32 = x <<< k := by
      intro x k hx hk
      refine Nat.mod_eq_of_lt ?_
      rw [Nat.shiftLeft_eq]
      calc x * 2 ^ k < 2 ^ 8 * 2 ^ k := Nat.mul_lt_mul_of_pos_right hx (Nat.two_pow_pos k)
        _ = 2 ^ (8 + k) := (Nat.pow_add 2 8 k).symm
        _ ≤ 2 ^ 32 := Nat.pow_le_pow_right (by decide) (by omega)
    rw [hs _ 8 hb (by decide), hs _ 16 hc (by decide), hs _ 24 hd (by decide),
      lor_shiftLeft (k := 8) (by omega), lor_shiftLeft (k := 16) (by omega),
      lor_shiftLeft (k := 24) (by omega)]
    omega

theorem putU64leLoop_eq (n : ℕ) (v : UInt64) : putU64leLoop n v = leBytes n v.toNat := by
  induction n generalizing v with
  | zero => rfl
  | succ n ih =>
    have hbyte : (v &&& 0xFF).toUInt8 = v.toNat.toUInt8 := by
      apply UInt8.toNat_inj.mp
      simp only [UInt64.toNat_toUInt8, UInt64.toNat_and, Nat.toUInt8, UInt8.toNat_ofNat',
        UInt64.reduceToNat, land_255]
      omega
    have hrest : (v >>> 8).toNat = v.toNat / 256 := by
      simp [UInt64.toNat_shiftRight, Nat.shiftRight_eq_div_pow]
    rw [putU64leLoop, leBytes, hbyte, ih, hrest]

/-- **`put_u64le` writes the little-endian bytes.** -/
theorem putU64le_eq (v : UInt64) : putU64le v = leBytes 8 v.toNat := putU64leLoop_eq 8 v

/-- The loop of `get_u64le` shifts what it has by the bytes still to come and adds the
number they denote. -/
theorem getU64leLoop_eq (bs rest : Bytes) (v : UInt64) :
    getU64leLoop (bs ++ rest) bs.length v =
      UInt64.ofNat (v.toNat * 256 ^ bs.length + leNat bs) := by
  induction bs using List.reverseRecOn generalizing rest v with
  | nil => simp [getU64leLoop]
  | append_singleton bs b ih =>
    have hb := b.toNat_lt
    have hget : (bs ++ [b] ++ rest).getD bs.length 0 = b := by simp
    have hle : leNat (bs ++ [b]) = leNat bs + 256 ^ bs.length * b.toNat := by
      rw [leNat_append]
      simp
    have hword : ((v <<< 8) ||| b.toUInt64).toNat = (v.toNat * 256 + b.toNat) % 2 ^ 64 := by
      have hs : v.toNat <<< 8 % 2 ^ 64 = (v.toNat % 2 ^ 56) <<< 8 := by
        rw [Nat.shiftLeft_eq, Nat.shiftLeft_eq]
        omega
      rw [UInt64.toNat_or, UInt64.toNat_shiftLeft, UInt8.toNat_toUInt64]
      simp only [UInt64.reduceToNat, Nat.reduceMod]
      rw [hs, Nat.or_comm, lor_shiftLeft (by omega)]
      omega
    rw [List.length_append, List.length_singleton, getU64leLoop, hget, List.append_assoc,
      ih, hle, hword]
    apply UInt64.toNat_inj.mp
    simp only [UInt64.toNat_ofNat', Nat.pow_succ]
    rw [Nat.add_mod, Nat.mod_mul_mod, ← Nat.add_mod]
    congr 1
    ring

/-- **`get_u64le` reads the little-endian number** of an eight-byte front. -/
theorem getU64le_eq (bs rest : Bytes) (h : bs.length = 8) :
    getU64le (bs ++ rest) = UInt64.ofNat (leNat bs) := by
  have hloop := getU64leLoop_eq bs rest 0
  rw [h] at hloop
  rw [getU64le, hloop]
  simp

/-! ### The header -/

/-- `encode_header`. -/
def encodeHeader (ty : StorageType) : Bytes := [ty.tag, 0, 0, 0]

/-- `decode_header`: the payload behind a header of the expected type. The three reserved
bytes are not looked at. -/
def decodeHeader (data : Bytes) (expected : StorageType) : Except StorageErr Bytes :=
  if data.length < 4 then .error .inval
  else if data.getD 0 0 ≠ expected.tag then .error .typeMismatch
  else .ok (data.drop 4)

theorem decodeHeader_short {data : Bytes} (h : data.length < 4) (ty : StorageType) :
    decodeHeader data ty = .error .inval := if_pos h

theorem decodeHeader_cons (t a b c : UInt8) (p : Bytes) (ty : StorageType) :
    decodeHeader (t :: a :: b :: c :: p) ty =
      if t = ty.tag then .ok p else .error .typeMismatch := by
  have hlen : ¬(t :: a :: b :: c :: p).length < 4 := by simp
  rw [decodeHeader, if_neg hlen, List.getD_cons_zero]
  by_cases ht : t = ty.tag
  · rw [if_neg (not_not_intro ht), if_pos ht]
    rfl
  · rw [if_pos ht, if_neg ht]

/-- A stored byte string is too short for a header, or it is one followed by a payload. -/
theorem short_or_header (data : Bytes) :
    data.length < 4 ∨ ∃ t a b c p, data = t :: a :: b :: c :: p := by
  match data with
  | [] | [_] | [_, _] | [_, _, _] => exact Or.inl (by simp)
  | t :: a :: b :: c :: p => exact Or.inr ⟨t, a, b, c, p, rfl⟩

/-! ### The Rust codec -/

/-- `CodecError`. -/
inductive CodecError
  | bufferTooShort (len : ℕ)
  | reservedNonZero (reserved : Bytes)
  | unknownTag (tag : UInt8)
  | invalidPayloadLength (tag : StorageType) (len : ℕ)
  deriving DecidableEq

/-- The payload `Value::encode` appends to the header. -/
def Value.payload : Value → Bytes
  | .int32 v => leBytes 4 v.toUInt32.toNat
  | .uint32 v => leBytes 4 v.toNat
  | .uint64 v => leBytes 8 v.toNat
  | .bytes v => v
  | .oid subids => subids.flatMap fun s => leBytes 4 s.toNat

/-- `Value::encode`. -/
def Value.encode (v : Value) : Bytes := v.storageType.tag :: ([0, 0, 0] ++ v.payload)

/-- `as_chunks::<4>`: the four-byte chunks of a payload, without what remains. -/
def asChunks4 : Bytes → List Bytes
  | a :: b :: c :: d :: rest => [a, b, c, d] :: asChunks4 rest
  | _ => []

/-- `Value::decode`. -/
def Value.decode (buf : Bytes) : Except CodecError Value :=
  if buf.length < 4 then .error (.bufferTooShort buf.length)
  else
    let tag := buf.getD 0 0
    let reserved := [buf.getD 1 0, buf.getD 2 0, buf.getD 3 0]
    if reserved ≠ [0, 0, 0] then .error (.reservedNonZero reserved)
    else
      match StorageType.fromTag tag with
      | none => .error (.unknownTag tag)
      | some ty =>
        let payload := buf.drop 4
        match ty with
        | .int32 =>
          if payload.length = 4 then .ok (.int32 (UInt32.ofNat (leNat payload)).toInt32)
          else .error (.invalidPayloadLength ty payload.length)
        | .uint32 =>
          if payload.length = 4 then .ok (.uint32 (UInt32.ofNat (leNat payload)))
          else .error (.invalidPayloadLength ty payload.length)
        | .uint64 =>
          if payload.length = 8 then .ok (.uint64 (UInt64.ofNat (leNat payload)))
          else .error (.invalidPayloadLength ty payload.length)
        | .bytes => .ok (.bytes payload)
        | .oid =>
          if payload.length % 4 ≠ 0 then .error (.invalidPayloadLength ty payload.length)
          else .ok (.oid ((asChunks4 payload).map fun c => UInt32.ofNat (leNat c)))

/-- A short buffer is refused. -/
theorem Value.decode_short {buf : Bytes} (h : buf.length < 4) :
    Value.decode buf = .error (.bufferTooShort buf.length) := if_pos h

/-- A header with a non-zero reserved byte is refused. -/
theorem Value.decode_reserved {t a b c : UInt8} (p : Bytes) (h : ¬(a = 0 ∧ b = 0 ∧ c = 0)) :
    Value.decode (t :: a :: b :: c :: p) = .error (.reservedNonZero [a, b, c]) := by
  have hne : [a, b, c] ≠ [0, 0, 0] := by simpa using h
  have hlen : ¬(t :: a :: b :: c :: p).length < 4 := by simp
  rw [Value.decode, if_neg hlen]
  exact if_pos hne

/-- What a payload behind a well-formed header decodes to: the value its type gives it, or
nothing. -/
def Value.ofPayload (payload : Bytes) : StorageType → Option Value
  | .int32 =>
    if payload.length = 4 then some (.int32 (UInt32.ofNat (leNat payload)).toInt32) else none
  | .uint32 => if payload.length = 4 then some (.uint32 (UInt32.ofNat (leNat payload))) else none
  | .uint64 => if payload.length = 8 then some (.uint64 (UInt64.ofNat (leNat payload))) else none
  | .bytes => some (.bytes payload)
  | .oid =>
    if payload.length % 4 = 0 then
      some (.oid ((asChunks4 payload).map fun c => UInt32.ofNat (leNat c)))
    else none

/-- **What Rust accepts**: a header with zero reserved bytes and a known tag, and a payload
of the type's exact shape. -/
theorem Value.decode_header_eq_ok {ty : StorageType} {p : Bytes} {v : Value} :
    Value.decode (ty.tag :: 0 :: 0 :: 0 :: p) = .ok v ↔ Value.ofPayload p ty = some v := by
  have hlen : ¬(ty.tag :: 0 :: 0 :: 0 :: p).length < 4 := by simp
  rw [Value.decode, if_neg hlen]
  simp only [List.getD_cons_zero, List.getD_cons_succ, ne_eq, not_true_eq_false, if_false,
    StorageType.fromTag_tag, List.drop_succ_cons, List.drop_zero]
  cases ty with
  | bytes => simp [Value.ofPayload]
  | oid =>
    by_cases h : p.length % 4 = 0
    · simp [Value.ofPayload, h]
    · simp [Value.ofPayload, h]
  | _ =>
    simp only [Value.ofPayload]
    split_ifs <;> simp

/-- An unknown tag is refused. -/
theorem Value.decode_unknown {t : UInt8} (p : Bytes) (h : StorageType.fromTag t = none) :
    Value.decode (t :: 0 :: 0 :: 0 :: p) = .error (.unknownTag t) := by
  have hlen : ¬(t :: 0 :: 0 :: 0 :: p).length < 4 := by simp
  rw [Value.decode, if_neg hlen]
  simp [h]

theorem Value.storageType_ofPayload {p : Bytes} {ty : StorageType} {v : Value}
    (h : Value.ofPayload p ty = some v) : v.storageType = ty := by
  cases ty <;> simp only [Value.ofPayload] at h <;> try split_ifs at h
  all_goals
    obtain rfl := Option.some.inj h
    rfl

/-! ### The round trip -/

theorem ofNat_leNat_leBytes_u32 (v : UInt32) : UInt32.ofNat (leNat (leBytes 4 v.toNat)) = v := by
  rw [leNat_leBytes, Nat.mod_eq_of_lt (by simpa using v.toNat_lt), UInt32.ofNat_toNat]

theorem ofNat_leNat_leBytes_u64 (v : UInt64) : UInt64.ofNat (leNat (leBytes 8 v.toNat)) = v := by
  rw [leNat_leBytes, Nat.mod_eq_of_lt (by simpa using v.toNat_lt), UInt64.ofNat_toNat]

/-- The chunks of a concatenation of four-byte words are the words. -/
theorem asChunks4_flatMap (subids : List UInt32) :
    asChunks4 (subids.flatMap fun s => leBytes 4 s.toNat) =
      subids.map fun s => leBytes 4 s.toNat := by
  induction subids with
  | nil => rfl
  | cons s rest ih =>
    rw [List.flatMap_cons, List.map_cons, ← ih]
    rfl

theorem length_flatMap_leBytes (subids : List UInt32) :
    (subids.flatMap fun s => leBytes 4 s.toNat).length = 4 * subids.length := by
  induction subids with
  | nil => rfl
  | cons s rest ih =>
    rw [List.flatMap_cons, List.length_append, ih, leBytes_length, List.length_cons]
    omega

/-- The payload of a value has the shape its type asks for, and gives the value back. -/
theorem Value.ofPayload_payload (v : Value) : Value.ofPayload v.payload v.storageType = some v := by
  cases v with
  | int32 v => simp [Value.ofPayload, Value.payload, Value.storageType, ofNat_leNat_leBytes_u32]
  | uint32 v => simp [Value.ofPayload, Value.payload, Value.storageType, ofNat_leNat_leBytes_u32]
  | uint64 v => simp [Value.ofPayload, Value.payload, Value.storageType, ofNat_leNat_leBytes_u64]
  | bytes v => rfl
  | oid subids =>
    have hmod : (subids.flatMap fun s => leBytes 4 s.toNat).length % 4 = 0 := by
      rw [length_flatMap_leBytes]
      omega
    simp only [Value.ofPayload, Value.payload, Value.storageType, if_pos hmod, asChunks4_flatMap,
      List.map_map, Option.some.injEq, Value.oid.injEq]
    exact List.map_id'' ofNat_leNat_leBytes_u32 subids

/-- **Rust decodes what it encodes.** -/
theorem Value.decode_encode (v : Value) : Value.decode v.encode = .ok v :=
  Value.decode_header_eq_ok.mpr v.ofPayload_payload

end AgentxSubagent
