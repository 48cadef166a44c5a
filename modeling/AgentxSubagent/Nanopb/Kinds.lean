import AgentxSubagent.Nanopb.Fields

/-!
# The kinds of fields

`decode_basic_field` and `encode_field` of nanopb for the kinds of fields the messages of the
subagent have, each with what it encodes and what it makes of that when it decodes it:

* `AgentxSubagent.Nanopb.varintField`: integers. How a 64-bit number off the wire is narrowed,
  and how one is widened to it, is an `AgentxSubagent.Nanopb.IntKind`;
* `AgentxSubagent.Nanopb.bytesField` and `stringField`: bytes and C strings of bounded size;
* `AgentxSubagent.Nanopb.submessageField`: a message that is there or not. An optional field and
  a field of a `oneof` are both of this kind; what makes them different is where it is noted
  that the message is there.

A field that has its default is not encoded, and a message that is there already is not
cleared before more of it is decoded.
-/

namespace AgentxSubagent.Nanopb

open Consume Wire

variable {σ τ α : Type}

/-! ### Integers -/

/-- How an integer field is told from the 64 bits on the wire. -/
structure IntKind (α : Type) where
  zero : α
  extend : α → UInt64
  clamp : UInt64 → Except DecodeErr α
  clamp_extend : ∀ v, clamp (extend v) = .ok v
  extend_eq_zero : ∀ v, extend v = 0 ↔ v = zero

/-- The 64 bits of an `int32_t`, its sign extended. -/
def extendInt32 (v : Int32) : UInt64 := v.toInt64.toUInt64

theorem toNat_extendInt32 (v : Int32) : (extendInt32 v).toNat = (v.toInt % 2 ^ 64).toNat := by
  have h := v.toInt_toInt64
  rw [← Int64.toInt_toBitVec, BitVec.toInt_eq_toNat_bmod] at h
  have hmod : ((v.toInt64.toBitVec.toNat : ℤ).bmod (2 ^ 64)) % ((2 ^ 64 : ℕ) : ℤ) =
      (v.toInt64.toBitVec.toNat : ℤ) % ((2 ^ 64 : ℕ) : ℤ) := Int.bmod_emod
  have hlt := v.toInt64.toBitVec.isLt
  rw [h] at hmod
  change v.toInt64.toBitVec.toNat = _
  omega

/-- The lower half of the 64 bits of an `int32_t` is that number. -/
theorem toInt32_extendInt32 (v : Int32) : (extendInt32 v).toUInt32.toInt32 = v := by
  have hle := v.le_toInt
  have hlt := v.toInt_lt
  have hnonneg := Int.emod_nonneg v.toInt (show (2 : ℤ) ^ 64 ≠ 0 by norm_num)
  apply Int32.toInt_inj.mp
  rw [← Int32.toInt_toBitVec, UInt32.toBitVec_toInt32, BitVec.toInt_eq_toNat_bmod,
    UInt32.toNat_toBitVec, UInt64.toNat_toUInt32, toNat_extendInt32, Int.bmod_def]
  norm_num at *
  omega

/-- `PB_LTYPE_VARINT` of 32 bits. The upper half of a number is cut off. -/
def int32Kind : IntKind Int32 where
  zero := 0
  extend := extendInt32
  clamp := fun value => .ok value.toUInt32.toInt32
  clamp_extend := fun v => congrArg Except.ok (toInt32_extendInt32 v)
  extend_eq_zero := fun v => by
    constructor
    · intro h
      rw [← toInt32_extendInt32 v, h]
      rfl
    · rintro rfl
      rfl

/-- `PB_LTYPE_UVARINT` of 32 bits. A number that does not fit is an error. -/
def uint32Kind : IntKind UInt32 where
  zero := 0
  extend := UInt32.toUInt64
  clamp := fun value =>
    if value.toUInt32.toUInt64 ≠ value then .error .integerTooLarge else .ok value.toUInt32
  clamp_extend := fun v => by simp
  extend_eq_zero := fun v => by
    rw [← UInt64.toNat_inj, ← UInt32.toNat_inj, UInt32.toNat_toUInt64]
    rfl

/-- `PB_LTYPE_UVARINT` of 64 bits. -/
def uint64Kind : IntKind UInt64 where
  zero := 0
  extend := id
  clamp := .ok
  clamp_extend := fun _ => rfl
  extend_eq_zero := fun _ => Iff.rfl

/-- A number as the kind has it, off the wire. -/
def giveClamped (kind : IntKind α) (slot : Slot σ α) (m : σ) (value : UInt64) : Istream σ :=
  match kind.clamp value with
  | .error err => fail err
  | .ok v => give (slot.set v m)

/-- A singular integer field: `pb_dec_varint` and `pb_enc_varint`. -/
def varintField [DecidableEq α] (kind : IntKind α) (tag : ℕ) (slot : Slot σ α) : PbField σ where
  tag := tag
  decode := fun wireType m =>
    if wireType ≠ pbWtVarint then fail .wrongWireType
    else andThen pbDecodeVarint (giveClamped kind slot m)
  encode := fun m =>
    if slot.get m = kind.zero then .ok
    else (pbEncodeTag pbWtVarint tag).andThen (pbEncodeVarint (kind.extend (slot.get m)))
  isLocal := fun wireType m => (local_fail _).ite (local_pbDecodeVarint.andThen fun value => by
    rw [giveClamped]
    cases kind.clamp value with
    | error err => exact local_fail err
    | ok v => exact local_give _)

/-! ### Bytes and strings -/

/-- A singular field of bytes: `pb_dec_bytes` and `pb_enc_bytes`. -/
def bytesField (max tag : ℕ) (slot : Slot σ (PbBytes max)) : PbField σ where
  tag := tag
  decode := fun wireType m =>
    if wireType ≠ pbWtString then fail .wrongWireType
    else
      andThen pbDecodeVarint32 fun size =>
        -- `PB_SIZE_MAX`, and the size of the struct, which starts with two bytes of length
        if 65535 < size.toNat then fail .bytesOverflow
        else if h : max + 2 < size.toNat + 2 then fail .bytesOverflow
        else
          andThen (pbRead size.toNat) fun bs =>
            give (slot.set ⟨bs.1, by rw [bs.2]; omega⟩ m)
  encode := fun m =>
    if (slot.get m).bytes = [] then .ok
    else (pbEncodeTag pbWtString tag).andThen (pbEncodeString (slot.get m).bytes)
  isLocal := fun wireType m => by
    refine (local_fail _).ite (local_pbDecodeVarint32.andThen fun size => (local_fail _).ite ?_)
    split_ifs
    · exact local_fail _
    · exact (local_takeExactly _ _).andThen fun bs => local_give _

/-- A singular string field: `pb_dec_string` and `pb_enc_string`. -/
def stringField (size tag : ℕ) (slot : Slot σ (CString size)) : PbField σ where
  tag := tag
  decode := fun wireType m =>
    if wireType ≠ pbWtString then fail .wrongWireType
    else
      andThen pbDecodeVarint32 fun length =>
        if length = 0xFFFFFFFF then fail .sizeTooLarge
        else if h : size < length.toNat + 1 then fail .stringOverflow
        else
          andThen (pbRead length.toNat) fun bs =>
            give (slot.set (.ofRead bs.1 (by rw [bs.2]; omega)) m)
  encode := fun m =>
    if (slot.get m).text = [] then .ok
    else (pbEncodeTag pbWtString tag).andThen (pbEncodeString (slot.get m).text)
  isLocal := fun wireType m => by
    refine (local_fail _).ite (local_pbDecodeVarint32.andThen fun size => (local_fail _).ite ?_)
    split_ifs
    · exact local_fail _
    · exact (local_takeExactly _ _).andThen fun bs => local_give _

/-! ### Messages in messages -/

/-- A message out of its substream, on top of what is there of it. -/
def giveDecoded (desc : PbMsgdesc τ) (get : σ → Option τ) (put : τ → σ → σ) (m : σ)
    (substream : List UInt8) : Istream σ :=
  match desc.decodeInner substream ((get m).getD desc.initZero) with
  | .error err => fail err
  | .ok v => give (put v m)

/-- A message that may be there: `pb_dec_submessage` and `pb_enc_submessage`. -/
def submessageField (desc : PbMsgdesc τ) (tag : ℕ) (get : σ → Option τ) (put : τ → σ → σ) :
    PbField σ where
  tag := tag
  decode := fun wireType m =>
    if wireType ≠ pbWtString then fail .wrongWireType
    else andThen pbMakeStringSubstream (giveDecoded desc get put m)
  encode := fun m =>
    match get m with
    | none => .ok
    | some v => (pbEncodeTag pbWtString tag).andThen (pbEncodeSubmessage (desc.pbEncode v))
  isLocal := fun wireType m =>
    (local_fail _).ite (local_pbMakeStringSubstream.andThen fun substream => by
      rw [giveDecoded]
      cases desc.decodeInner substream ((get m).getD desc.initZero) with
      | error err => exact local_fail err
      | ok v => exact local_give _)

/-- An optional message. Its `has_` flag is set, and what there is of it is added to: of a
message that was not there that is nothing, since the struct was zero from the start. -/
def optionalField (desc : PbMsgdesc τ) (tag : ℕ) (slot : Slot σ (Option τ)) : PbField σ :=
  submessageField desc tag slot.get fun v => slot.set (some v)

/-- A message of a `oneof`. `get` finds it when `which_` has its tag; otherwise the union is
cleared, and `put` sets `which_`. -/
def oneofField (desc : PbMsgdesc τ) (tag : ℕ) (get : σ → Option τ) (put : τ → σ → σ) : PbField σ :=
  submessageField desc tag get put

/-! ### What is encoded -/

section Encode

variable {tag : ℕ} (htag : tag < 2 ^ 16) (m : σ)

include htag

theorem encode_varintField [DecidableEq α] (kind : IntKind α) (slot : Slot σ α) :
    (varintField kind tag slot).encode m =
      pbWrite (wire (uintField tag (kind.extend (slot.get m)).toNat)) := by
  have hzero : (kind.extend (slot.get m)).toNat = 0 ↔ slot.get m = kind.zero := by
    rw [← kind.extend_eq_zero, ← UInt64.toNat_inj]
    rfl
  rw [varintField, uintField]
  by_cases h : slot.get m = kind.zero
  · simp only [if_pos h, if_pos (hzero.mpr h), wire_nil, pbWrite_nil]
  · simp only [if_neg h, if_neg (h ∘ hzero.mp), wire_cons, wire_nil, List.append_nil, Field.wire]
    rw [pbEncodeTag_eq (by decide) (by omega), pbEncodeVarint_eq, pbWrite_append]
    rfl

/-- What stands behind its length, with a tag in front. -/
theorem pbEncodeTag_append {bs : List UInt8} {enc : Encoder}
    (henc : enc = pbWrite (varint bs.length ++ bs)) :
    (pbEncodeTag pbWtString tag).andThen enc = pbWrite (wire [⟨tag, .bytes bs⟩]) := by
  rw [pbEncodeTag_eq (by decide) (by omega), henc, pbWrite_append, wire_cons, wire_nil,
    List.append_nil]
  rfl

theorem encode_bytesField {max : ℕ} (hmax : max < 2 ^ 64) (slot : Slot σ (PbBytes max)) :
    (bytesField max tag slot).encode m = pbWrite (wire (Wire.bytesField tag (slot.get m).bytes)) := by
  have hle := (slot.get m).length_le
  rw [bytesField, Wire.bytesField]
  by_cases h : (slot.get m).bytes = []
  · simp only [if_pos h, wire_nil, pbWrite_nil]
  · simp only [if_neg h]
    exact pbEncodeTag_append htag (pbEncodeString_eq (by omega))

theorem encode_stringField {size : ℕ} (hsize : size < 2 ^ 64) (slot : Slot σ (CString size)) :
    (stringField size tag slot).encode m = pbWrite (wire (Wire.bytesField tag (slot.get m).text)) := by
  have hlt := (slot.get m).length_lt
  rw [stringField, Wire.bytesField]
  by_cases h : (slot.get m).text = []
  · simp only [if_pos h, wire_nil, pbWrite_nil]
  · simp only [if_neg h]
    exact pbEncodeTag_append htag (pbEncodeString_eq (by omega))

/-- A message under a tag, if it is there. -/
def submessageRecords (records : τ → List Field) (tag : ℕ) : Option τ → List Field
  | none => []
  | some v => messageField tag (records v)

theorem encode_submessageField {desc : PbMsgdesc τ} {records : τ → List Field}
    (hdesc : desc.Writes records) (hlen : ∀ v, (wire (records v)).length < 2 ^ 64)
    (get : σ → Option τ) (put : τ → σ → σ) :
    (submessageField desc tag get put).encode m =
      pbWrite (wire (submessageRecords records tag (get m))) := by
  rcases hget : get m with _ | v
  · simp only [submessageField, hget]
    exact pbWrite_nil.symm
  · simp only [submessageField, hget]
    exact pbEncodeTag_append htag (pbEncodeSubmessage_eq (hdesc v) (hlen v))

end Encode

/-! ### What is decoded of it -/

namespace PbMsgdesc

variable {desc : PbMsgdesc σ} {tag : ℕ} {m : σ}

/-- A field that was left out because it had its default leaves its slot as it is. -/
theorem decodeInner_varint [DecidableEq α] (kind : IntKind α) (slot : Slot σ α)
    (hfind : desc.fields.find? (·.tag = tag) = some (varintField kind tag slot)) (v : α)
    (t : List UInt8) :
    desc.decodeInner (wire (uintField tag (kind.extend v).toNat) ++ t) m =
      desc.decodeInner t (slot.set (if v = kind.zero then slot.get m else v) m) := by
  have hzero : (kind.extend v).toNat = 0 ↔ v = kind.zero := by
    rw [← kind.extend_eq_zero, ← UInt64.toNat_inj]
    rfl
  rw [uintField]
  by_cases h : v = kind.zero
  · rw [if_pos (hzero.mpr h), wire_nil, List.nil_append, if_pos h, slot.set_get]
  · have hreads : Reads ((varintField kind tag slot).decode pbWtVarint m)
        (varint (kind.extend v).toNat) (slot.set v m) := by
      have hnum := reads_pbDecodeVarint (kind.extend v).toNat_lt
      rw [UInt64.ofNat_toNat] at hnum
      refine (hnum.andThen (f := giveClamped kind slot m) ?_).of_append_nil
      rw [giveClamped, kind.clamp_extend]
      exact reads_give _
    rw [if_neg (h ∘ hzero.mp), wire_cons, wire_nil, List.append_nil, if_neg h]
    exact decodeInner_record (by decide) hfind hreads t

theorem decodeInner_bytes {max : ℕ} (hmax : max ≤ 65535) (slot : Slot σ (PbBytes max))
    (hfind : desc.fields.find? (·.tag = tag) = some (bytesField max tag slot)) (v : PbBytes max)
    (t : List UInt8) :
    desc.decodeInner (wire (Wire.bytesField tag v.bytes) ++ t) m =
      desc.decodeInner t (slot.set (if v.bytes = [] then slot.get m else v) m) := by
  have hle := v.length_le
  rw [Wire.bytesField]
  split_ifs with h
  · rw [wire_nil, List.nil_append, slot.set_get]
  · have hreads : Reads ((bytesField max tag slot).decode pbWtString m)
        (varint v.bytes.length ++ v.bytes) (slot.set v m) := by
      refine reads_behind_length (by omega) fun size hsize => ?_
      rw [if_neg (by omega), dif_neg (by omega)]
      exact ((reads_takeExactly _ hsize.symm).andThen (f := fun bs => give (slot.set ⟨bs.1, _⟩ m))
        (reads_give _)).of_append_nil
    rw [wire_cons, wire_nil, List.append_nil]
    exact decodeInner_record (by decide) hfind hreads t

/-- Bytes that fit are decoded to the C string they begin with. -/
theorem decodeInner_string {size : ℕ} (hsize : size ≤ 65535) (slot : Slot σ (CString size))
    (hfind : desc.fields.find? (·.tag = tag) = some (stringField size tag slot)) {bs : List UInt8}
    (hlt : bs.length < size) (t : List UInt8) :
    desc.decodeInner (wire (Wire.bytesField tag bs) ++ t) m =
      desc.decodeInner t (slot.set (if bs = [] then slot.get m else .ofRead bs hlt) m) := by
  rw [Wire.bytesField]
  split_ifs with h
  · rw [wire_nil, List.nil_append, slot.set_get]
  · have hreads : Reads ((stringField size tag slot).decode pbWtString m)
        (varint bs.length ++ bs) (slot.set (.ofRead bs hlt) m) := by
      refine reads_behind_length (by omega) fun length hlength => ?_
      have hne : length ≠ 0xFFFFFFFF := by
        rintro rfl
        have hmax : (0xFFFFFFFF : UInt32).toNat = 4294967295 := rfl
        omega
      rw [if_neg hne, dif_neg (by omega)]
      exact ((reads_takeExactly .endOfStream hlength.symm).andThen
        (f := fun bs => give (slot.set (.ofRead bs.1 (by rw [bs.2]; omega)) m))
        (reads_give _)).of_append_nil
    rw [wire_cons, wire_nil, List.append_nil]
    exact decodeInner_record (by decide) hfind hreads t

theorem decodeInner_cString {size : ℕ} (hsize : size ≤ 65535) (slot : Slot σ (CString size))
    (hfind : desc.fields.find? (·.tag = tag) = some (stringField size tag slot))
    (v : CString size) (t : List UInt8) :
    desc.decodeInner (wire (Wire.bytesField tag v.text) ++ t) m =
      desc.decodeInner t (slot.set (if v.text = [] then slot.get m else v) m) := by
  rw [decodeInner_string hsize slot hfind v.length_lt, CString.ofRead_text]

/-- A message in a message is decoded on top of what is there of it. -/
theorem decodeInner_submessage {sub : PbMsgdesc τ} {get : σ → Option τ} {put : τ → σ → σ}
    (hfind : desc.fields.find? (·.tag = tag) = some (submessageField sub tag get put))
    {fs : List Field} {v : τ} (hlen : (wire fs).length < 2 ^ 32)
    (hsub : sub.decodeInner (wire fs) ((get m).getD sub.initZero) = .ok v) (t : List UInt8) :
    desc.decodeInner (wire (messageField tag fs) ++ t) m = desc.decodeInner t (put v m) := by
  have hreads : Reads ((submessageField sub tag get put).decode pbWtString m)
      (varint (wire fs).length ++ wire fs) (put v m) := by
    refine ((reads_pbMakeStringSubstream hlen).andThen
      (f := giveDecoded sub get put m) ?_).of_append_nil
    rw [giveDecoded, hsub]
    exact reads_give _
  rw [messageField, wire_cons, wire_nil, List.append_nil]
  exact decodeInner_record (by decide) hfind hreads t

/-- A message that may be there, merged into one that may be there. -/
def mergeOption (merge : τ → τ → τ) (zero : τ) (old : Option τ) : Option τ → Option τ
  | none => old
  | some v => some (merge (old.getD zero) v)

/-- An optional message is merged into what is there of it. -/
theorem decodeInner_optional {sub : PbMsgdesc τ} {records : τ → List Field} {merge : τ → τ → τ}
    (hsub : sub.Merges records merge) (slot : Slot σ (Option τ))
    (hfind : desc.fields.find? (·.tag = tag) = some (optionalField sub tag slot)) (v : Option τ)
    (hlen : ∀ w ∈ v, (wire (records w)).length < 2 ^ 32) (t : List UInt8) :
    desc.decodeInner (wire (submessageRecords records tag v) ++ t) m =
      desc.decodeInner t (slot.set (mergeOption merge sub.initZero (slot.get m) v) m) := by
  rcases v with _ | v
  · rw [submessageRecords, wire_nil, List.nil_append, mergeOption, slot.set_get]
  · exact decodeInner_submessage hfind (hlen v rfl) (hsub.decodeInner_wire _ v) t

/-! ### What overflows -/

/-- Decoding fails on every stream that starts with `u`. -/
def FailsOn (desc : PbMsgdesc σ) (m : σ) (u : List UInt8) : Prop :=
  ∀ t, ∃ err, desc.decodeInner (u ++ t) m = .error err

/-- What is decoded may stand in front of what fails. -/
theorem FailsOn.after {m' : σ} {u v : List UInt8}
    (hv : ∀ t, desc.decodeInner (v ++ t) m = desc.decodeInner t m') (hu : desc.FailsOn m' u) :
    desc.FailsOn m (v ++ u) := by
  intro t
  rw [List.append_assoc, hv]
  exact hu t

/-- A record fails when its field does, on whatever follows. -/
theorem failsOn_record {wireType : ℕ} (htype : wireType < 8) {field : PbField σ}
    (hfind : desc.fields.find? (·.tag = tag) = some field) {u : List UInt8}
    (h : ∀ t, ∃ err, field.decode wireType m (u ++ t) = .error err) :
    desc.FailsOn m (varint (8 * tag + wireType) ++ u) := by
  have htag : field.tag = tag := by simpa using List.find?_some hfind
  obtain ⟨hpos, hlt⟩ :=
    desc.tag_bounds _ (List.mem_map_of_mem (f := PbField.tag) (List.mem_of_find?_eq_some hfind))
  rw [htag] at hpos hlt
  intro t
  have hne : varint (8 * tag + wireType) ++ (u ++ t) ≠ [] :=
    List.append_ne_nil_of_left_ne_nil (List.ne_nil_of_length_pos (length_varint_pos _)) _
  obtain ⟨err, herr⟩ := h t
  refine ⟨err, ?_⟩
  rw [decodeInner_eq_fold, List.append_assoc, fold_of_ne_nil hne]
  have hturn : desc.plainStep.read m (varint (8 * tag + wireType) ++ (u ++ t)) = .error err := by
    change andThen pbDecodeTag _ _ = _
    rw [andThen, reads_pbDecodeTag (by omega) htype]
    simp only [plainTagged, if_neg (Nat.ne_of_gt hpos), hfind]
    exact herr
  rw [hturn]

/-- A run of bytes too long for its array fails on its length. -/
theorem failsOn_bytes {max : ℕ} {slot : Slot σ (PbBytes max)}
    (hfind : desc.fields.find? (·.tag = tag) = some (bytesField max tag slot)) {n : ℕ}
    (hn : max < n) : desc.FailsOn m (varint (8 * tag + pbWtString) ++ varint n) := by
  refine failsOn_record (by decide) hfind fun t => ?_
  simp only [bytesField, ne_eq, not_true_eq_false, if_false, andThen]
  rcases hlength : pbDecodeVarint32 (varint n ++ t) with err | ⟨length, rest⟩
  · exact ⟨err, rfl⟩
  · obtain ⟨-, hvalue, -⟩ := pbDecodeVarint32_varint hlength
    simp only
    split_ifs
    · exact ⟨_, rfl⟩
    · exact ⟨_, rfl⟩
    · omega

/-- A text too long for its array fails on its length. -/
theorem failsOn_string {size : ℕ} (hsize : size ≤ 65535) {slot : Slot σ (CString size)}
    (hfind : desc.fields.find? (·.tag = tag) = some (stringField size tag slot)) {n : ℕ}
    (hn : size ≤ n) : desc.FailsOn m (varint (8 * tag + pbWtString) ++ varint n) := by
  refine failsOn_record (by decide) hfind fun t => ?_
  simp only [stringField, ne_eq, not_true_eq_false, if_false, andThen]
  rcases hlength : pbDecodeVarint32 (varint n ++ t) with err | ⟨length, rest⟩
  · exact ⟨err, rfl⟩
  · obtain ⟨-, hvalue, -⟩ := pbDecodeVarint32_varint hlength
    simp only
    split_ifs
    · exact ⟨_, rfl⟩
    · exact ⟨_, rfl⟩
    · omega

/-- A message fails when what it starts with does, as long as that is within its length. A length
of more than ten bytes fails by itself. -/
theorem failsOn_submessage {sub : PbMsgdesc τ} {get : σ → Option τ} {put : τ → σ → σ}
    (hfind : desc.fields.find? (·.tag = tag) = some (submessageField sub tag get put)) {n : ℕ}
    {u : List UInt8} (hu : sub.FailsOn ((get m).getD sub.initZero) u) (hle : u.length ≤ n)
    (hsmall : n < 128 ^ 10 → u.length ≤ 2 ^ 31) :
    desc.FailsOn m (varint (8 * tag + pbWtString) ++ (varint n ++ u)) := by
  refine failsOn_record (by decide) hfind fun t => ?_
  simp only [submessageField, ne_eq, not_true_eq_false, if_false, andThen, pbMakeStringSubstream]
  rw [List.append_assoc]
  rcases hlength : pbDecodeVarint32 (varint n ++ (u ++ t)) with err | ⟨length, rest⟩
  · exact ⟨err, rfl⟩
  · obtain ⟨rfl, hvalue, hdigits⟩ := pbDecodeVarint32_varint hlength
    have hlen := hsmall (lt_of_length_varint_le hdigits)
    simp only [takeExactly]
    split_ifs with hshort
    · exact ⟨_, rfl⟩
    · -- what is cut off for the message starts with `u` all the same
      have htake : (u ++ t).take length.toNat = u ++ t.take (length.toNat - u.length) := by
        rw [List.take_append, List.take_of_length_le (by omega)]
      obtain ⟨err, herr⟩ := hu (t.take (length.toNat - u.length))
      refine ⟨err, ?_⟩
      simp only [give, giveDecoded, htake, herr]
      rfl

end PbMsgdesc

end AgentxSubagent.Nanopb
