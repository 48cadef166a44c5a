import AgentxSubagent.Nanopb.Iterator
import AgentxSubagent.Nanopb.Output
import Mathlib.Data.List.TakeWhile

/-!
# Messages and their fields in nanopb

The upper halves of `third_party/nanopb/pb_decode.c` and `pb_encode.c`: the fields of a message
and the two functions that walk over them, `pb_decode_inner` and `pb_encode`. A message is a
struct, here any type, and its descriptor lists its fields in the order of their tags. Of the
kinds of fields these are the ones the messages of the subagent are made of: integers of 32
and 64 bits, bytes and strings of bounded size, and messages that are optional or in a
`oneof`, all statically allocated.

What follows is true of every message descriptor.

* `AgentxSubagent.Nanopb.PbMsgdesc.decodeInner_append`: bytes behind bytes are decoded into what
  those have left, so a message may be cut and merged at every record;
* `AgentxSubagent.Nanopb.PbMsgdesc.decodeInner_insert`: a field with a tag that the message does not
  have may stand between any two records, if it can be skipped;
* `AgentxSubagent.Nanopb.PbMsgdesc.Writes` and `Merges`: what it is for a message to be encoded as
  a list of wire-format fields, and for these to be merged into a struct when they are decoded;
* `AgentxSubagent.Nanopb.pbEncodeSubmessage_eq`: sizing a submessage first and writing it
  afterwards writes it behind its length.
-/

namespace AgentxSubagent.Nanopb

open Consume Wire

variable {σ τ : Type}

/-! ### What a struct holds -/

/-- A `char` array of size `n` that holds a C string: the bytes before its first NUL, which is
there. -/
@[ext] structure CString (n : ℕ) where
  text : List UInt8
  length_lt : text.length < n
  no_nul : 0 ∉ text
  deriving DecidableEq

/-- `PB_BYTES_ARRAY_T(max)`: as many bytes as its `size` says. -/
@[ext] structure PbBytes (max : ℕ) where
  bytes : List UInt8
  length_le : bytes.length ≤ max
  deriving DecidableEq

/-- An empty string. -/
def CString.empty (n : ℕ) (h : 0 < n) : CString n := ⟨[], h, by simp⟩

/-- No bytes. -/
def PbBytes.empty (max : ℕ) : PbBytes max := ⟨[], Nat.zero_le _⟩

/-- The C string in an array after bytes were put in front of a NUL. -/
def CString.ofRead {n : ℕ} (bs : List UInt8) (h : bs.length < n) : CString n where
  text := bs.takeWhile (· ≠ 0)
  length_lt := lt_of_le_of_lt (List.takeWhile_prefix _).length_le h
  no_nul := fun hmem => absurd (List.mem_takeWhile_imp hmem) (by simp)

theorem CString.ofRead_text {n : ℕ} (s : CString n) : CString.ofRead s.text s.length_lt = s := by
  refine CString.ext ?_
  rw [ofRead, List.takeWhile_eq_self_iff]
  intro b hb
  simpa using fun h : b = 0 => s.no_nul (h ▸ hb)

/-- Where a field lies in the struct of its message. -/
structure Slot (σ α : Type) where
  get : σ → α
  set : α → σ → σ
  set_get : ∀ m, set (get m) m = m

/-- A field of a message: what `decode_field` does to the struct with a wire type, and what
`encode_field` writes for the struct. -/
structure PbField (σ : Type) where
  tag : ℕ
  decode : ℕ → σ → Istream σ
  encode : σ → Encoder
  isLocal : ∀ wireType m, Local (decode wireType m)

/-- `pb_msgdesc_t`, with the struct as `memset` to zero leaves it. The tags are in order, and
they fit `pb_size_t`. -/
structure PbMsgdesc (σ : Type) where
  fields : List (PbField σ)
  initZero : σ
  sorted : (fields.map PbField.tag).Pairwise (· < ·)
  tag_bounds : ∀ tag ∈ fields.map PbField.tag, 0 < tag ∧ tag < 2 ^ 16
  nonempty : fields ≠ []

/-! ### Decoding -/

namespace PbMsgdesc

variable (desc : PbMsgdesc σ)

/-- The tags of the fields. -/
def tags : List ℕ := desc.fields.map PbField.tag

/-- The loop of `pb_decode_inner` behind the tag of a field. The state is the index of the field
iterator and the struct. -/
def decodeTagged (st : ℕ × σ) (wireType tag : ℕ) : Istream (ℕ × σ) :=
  if tag = 0 then fail .zeroTag
  else
    match pbFieldIterFind desc.tags st.1 tag with
    | some (true, index) =>
      match desc.fields[index]? with
      | some field => andThen (field.decode wireType st.2) fun m => give (index, m)
      | none => fail .invalidWireType
    | some (false, index) => andThen (pbSkipField wireType) fun _ => give (index, st.2)
    | none => fail .invalidWireType

/-- One turn of the loop of `pb_decode_inner`. -/
def decodeTurn (st : ℕ × σ) : Istream (ℕ × σ) :=
  andThen pbDecodeTag fun r => desc.decodeTagged st r.1 r.2

/-- What a plain lookup of the field makes of a tag. -/
def plainTagged (m : σ) (wireType tag : ℕ) : Istream σ :=
  if tag = 0 then fail .zeroTag
  else
    match desc.fields.find? (·.tag = tag) with
    | some field => field.decode wireType m
    | none => andThen (pbSkipField wireType) fun _ => give m

/-- One turn with a plain lookup. -/
def plainTurn (m : σ) : Istream σ := andThen pbDecodeTag fun r => desc.plainTagged m r.1 r.2

theorem local_decodeTagged (st : ℕ × σ) (wireType tag : ℕ) :
    Local (desc.decodeTagged st wireType tag) := by
  refine (local_fail _).ite ?_
  rcases hfind : pbFieldIterFind desc.tags st.1 tag with _ | ⟨_ | _, index⟩
  · exact local_fail _
  · exact (local_pbSkipField wireType).andThen fun _ => local_give _
  · rcases hfield : desc.fields[index]? with _ | field
    · simp only [hfield]
      exact local_fail _
    · simp only [hfield]
      exact (field.isLocal wireType st.2).andThen fun _ => local_give _

theorem local_plainTagged (m : σ) (wireType tag : ℕ) : Local (desc.plainTagged m wireType tag) := by
  refine (local_fail _).ite ?_
  rcases hfind : desc.fields.find? (·.tag = tag) with _ | field
  · simp only [hfind]
    exact (local_pbSkipField wireType).andThen fun _ => local_give _
  · simp only [hfind]
    exact field.isLocal wireType m

/-- What starts with a tag takes something off. -/
theorem progress_of_tag {f : ℕ × ℕ → Istream τ} (hlocal : ∀ tag, Local (f tag)) {s rest : List UInt8}
    {b : τ} (h : andThen pbDecodeTag f s = .ok (b, rest)) : rest.length < s.length := by
  obtain ⟨tag, mid, htag, hrest⟩ := andThen_eq_ok.mp h
  exact lt_of_le_of_lt ((hlocal tag).length_le hrest) (length_of_pbDecodeTag htag)

/-- The turns of the loop of `pb_decode_inner`. -/
def decodeStep : Step UInt8 DecodeErr (ℕ × σ) where
  read := desc.decodeTurn
  isLocal := fun st => local_pbDecodeTag.andThen fun r => desc.local_decodeTagged st r.1 r.2
  progress := fun st _ _ _ h _ => progress_of_tag (fun r => desc.local_decodeTagged st r.1 r.2) h

/-- `pb_decode_inner` with `PB_DECODE_NOINIT`: the fields are decoded into the struct as it is. -/
def decodeInner (s : List UInt8) (m : σ) : Except DecodeErr σ :=
  (fold desc.decodeStep s (0, m)).map Prod.snd

/-- `pb_decode`: the struct is set to its defaults first. -/
def pbDecode (s : List UInt8) : Except DecodeErr σ := desc.decodeInner s desc.initZero

/-- The turns with a plain lookup. -/
def plainStep : Step UInt8 DecodeErr σ where
  read := desc.plainTurn
  isLocal := fun m => local_pbDecodeTag.andThen fun r => desc.local_plainTagged m r.1 r.2
  progress := fun m _ _ _ h _ => progress_of_tag (fun r => desc.local_plainTagged m r.1 r.2) h

variable {desc}

theorem find?_eq_some_of_getElem? {index tag : ℕ} {field : PbField σ}
    (hfield : desc.fields[index]? = some field) (htag : field.tag = tag) :
    desc.fields.find? (·.tag = tag) = some field := by
  obtain ⟨hlt, rfl⟩ := List.getElem?_eq_some_iff.mp hfield
  refine List.find?_eq_some_iff_getElem.mpr ⟨by simpa using htag, index, hlt, rfl, fun j hj => ?_⟩
  have hmono := List.pairwise_iff_getElem.mp desc.sorted j index
    (by rw [List.length_map]; omega) (by rwa [List.length_map]) hj
  rw [List.getElem_map, List.getElem_map] at hmono
  simpa using fun h : desc.fields[j].tag = tag => by omega

/-- The search of the iterator finds the field a plain lookup finds. -/
theorem pbFieldIterFind_eq {index : ℕ} (hindex : index < desc.fields.length) (tag : ℕ) :
    (∃ i field, pbFieldIterFind desc.tags index tag = some (true, i) ∧ desc.fields[i]? = some field ∧
        desc.fields.find? (·.tag = tag) = some field) ∨
      (pbFieldIterFind desc.tags index tag = some (false, index) ∧
        desc.fields.find? (·.tag = tag) = none) := by
  have hlen : index < desc.tags.length := by rwa [tags, List.length_map]
  by_cases hmem : tag ∈ desc.tags
  · obtain ⟨i, hi⟩ := List.mem_iff_getElem?.mp hmem
    have hi' := hi
    rw [tags, List.getElem?_map, Option.map_eq_some_iff] at hi'
    obtain ⟨field, hfield, htag⟩ := hi'
    exact Or.inl ⟨i, field, pbFieldIterFind_of_mem desc.sorted hlen hi, hfield,
      find?_eq_some_of_getElem? hfield htag⟩
  · refine Or.inr ⟨pbFieldIterFind_of_not_mem hlen hmem, List.find?_eq_none.mpr fun field hf => ?_⟩
    simpa using fun h : field.tag = tag => hmem (h ▸ List.mem_map_of_mem hf)

/-- One turn does to the struct what the plain turn does. -/
theorem mirrors_decodeTurn {st : ℕ × σ} (hindex : st.1 < desc.fields.length) (s : List UInt8) :
    Mirrors Prod.snd (fun st => st.1 < desc.fields.length) (desc.decodeTurn st s)
      (desc.plainTurn st.2 s) := by
  obtain ⟨index, m⟩ := st
  rw [decodeTurn, plainTurn, andThen, andThen]
  rcases pbDecodeTag s with err | ⟨⟨wireType, tag⟩, mid⟩
  · rfl
  simp only [decodeTagged, plainTagged]
  by_cases hzero : tag = 0
  · simp only [if_pos hzero]
    rfl
  simp only [if_neg hzero]
  obtain ⟨i, field, hfind, hfield, hplain⟩ | ⟨hfind, hplain⟩ := pbFieldIterFind_eq hindex tag
  · simp only [hfind, hfield, hplain, andThen]
    obtain ⟨hi, -⟩ := List.getElem?_eq_some_iff.mp hfield
    rcases field.decode wireType m mid with err | ⟨m', rest⟩
    · rfl
    · exact ⟨hi, rfl⟩
  · simp only [hfind, hplain, andThen]
    rcases pbSkipField wireType mid with err | ⟨-, rest⟩
    · rfl
    · exact ⟨hindex, rfl⟩

/-- **Nothing of the iterator shows in what is decoded.** -/
theorem decodeInner_eq_fold (s : List UInt8) (m : σ) :
    desc.decodeInner s m = fold desc.plainStep s m := by
  have hmap : fold desc.plainStep s (0, m).2 = (fold desc.decodeStep s (0, m)).map Prod.snd :=
    fold_map (fun _ s hst => mirrors_decodeTurn hst s) (List.length_pos_iff.mpr desc.nonempty)
  exact hmap.symm

/-- **Bytes behind bytes are decoded into what those have left.** -/
theorem decodeInner_append {s t : List UInt8} {m m' : σ} (h : desc.decodeInner s m = .ok m') :
    desc.decodeInner (s ++ t) m = desc.decodeInner t m' := by
  rw [decodeInner_eq_fold] at h ⊢
  rw [fold_append h, decodeInner_eq_fold]

@[simp] theorem decodeInner_nil (m : σ) : desc.decodeInner [] m = .ok m := rfl

/-- A field nobody asked for: its tag, and something the decoder can skip. -/
structure Skippable (desc : PbMsgdesc σ) (u : List UInt8) : Prop where
  ne_nil : u ≠ []
  skipped : ∀ m, Reads (desc.plainTurn m) u m

/-- **A field nobody asked for may stand between any two records.** -/
theorem decodeInner_insert {s t u : List UInt8} {m m' : σ} (h : desc.decodeInner s m = .ok m')
    (hu : desc.Skippable u) :
    desc.decodeInner (s ++ (u ++ t)) m = desc.decodeInner (s ++ t) m := by
  rw [decodeInner_eq_fold] at h ⊢
  rw [fold_insert h hu.ne_nil hu.skipped, decodeInner_eq_fold]

/-- A record of a field of the message is decoded into its field. -/
theorem reads_record {tag wireType : ℕ} (htype : wireType < 8) {field : PbField σ}
    (hfind : desc.fields.find? (·.tag = tag) = some field) {m m' : σ} {u : List UInt8}
    (h : Reads (field.decode wireType m) u m') :
    Reads (desc.plainTurn m) (varint (8 * tag + wireType) ++ u) m' := by
  have htag : field.tag = tag := by simpa using List.find?_some hfind
  obtain ⟨hpos, hlt⟩ :=
    desc.tag_bounds _ (List.mem_map_of_mem (f := PbField.tag) (List.mem_of_find?_eq_some hfind))
  rw [htag] at hpos hlt
  refine (reads_pbDecodeTag (by omega) htype).andThen ?_
  simp only [plainTagged, if_neg (Nat.ne_of_gt hpos), hfind]
  exact h

/-- A record of no field of the message is skipped. -/
theorem skippable_record {tag wireType : ℕ} (htag : 0 < tag) (hlt : tag < 2 ^ 29)
    (htype : wireType < 8) (hnot : tag ∉ desc.tags) {u : List UInt8}
    (h : Reads (pbSkipField wireType) u ()) :
    desc.Skippable (varint (8 * tag + wireType) ++ u) where
  ne_nil := by
    have hpos := length_varint_pos (8 * tag + wireType)
    exact List.append_ne_nil_of_left_ne_nil (List.ne_nil_of_length_pos hpos) u
  skipped := by
    intro m
    have hfind : desc.fields.find? (·.tag = tag) = none :=
      List.find?_eq_none.mpr fun field hf => by
        simpa using fun heq : field.tag = tag => hnot (heq ▸ List.mem_map_of_mem hf)
    refine (reads_pbDecodeTag hlt htype).andThen ?_
    simp only [plainTagged, if_neg (Nat.ne_of_gt htag), hfind]
    have hskip := h.andThen (f := fun _ => give m) (reads_give m)
    rwa [List.append_nil] at hskip

/-- Decoding a record and what follows it. -/
theorem decodeInner_record {tag wireType : ℕ} (htype : wireType < 8) {field : PbField σ}
    (hfind : desc.fields.find? (·.tag = tag) = some field) {m m' : σ} {u : List UInt8}
    (h : Reads (field.decode wireType m) u m') (t : List UInt8) :
    desc.decodeInner (varint (8 * tag + wireType) ++ u ++ t) m = desc.decodeInner t m' := by
  have hpos := length_varint_pos (8 * tag + wireType)
  rw [decodeInner_eq_fold, decodeInner_eq_fold]
  exact fold_reads (List.append_ne_nil_of_left_ne_nil (List.ne_nil_of_length_pos hpos) u)
    (reads_record htype hfind h)

/-! ### Encoding -/

/-- The loop of `pb_encode`. -/
def encodeFields : List (PbField σ) → σ → Encoder
  | [], _ => .ok
  | field :: fields, m => (field.encode m).andThen (encodeFields fields m)

/-- `pb_encode`. -/
def pbEncode (desc : PbMsgdesc σ) (m : σ) : Encoder := encodeFields desc.fields m

theorem encodeFields_cons {field : PbField σ} {fields : List (PbField σ)} {m : σ} {fs gs : List Field}
    (h : field.encode m = pbWrite (wire fs)) (hs : encodeFields fields m = pbWrite (wire gs)) :
    encodeFields (field :: fields) m = pbWrite (wire (fs ++ gs)) := by
  rw [encodeFields, h, hs, pbWrite_append, wire_append]

theorem encodeFields_one {field : PbField σ} {m : σ} {fs : List Field}
    (h : field.encode m = pbWrite (wire fs)) : encodeFields [field] m = pbWrite (wire fs) := by
  have hnil : encodeFields ([] : List (PbField σ)) m = pbWrite (wire []) := by
    rw [wire_nil, pbWrite_nil]
    rfl
  have hcons := encodeFields_cons h hnil
  rwa [List.append_nil] at hcons

/-- The message is encoded as a list of wire-format fields. -/
def Writes (desc : PbMsgdesc σ) (records : σ → List Field) : Prop :=
  ∀ m, desc.pbEncode m = pbWrite (wire (records m))

/-- These fields are decoded into a struct by merging the message into it. -/
def Merges (desc : PbMsgdesc σ) (records : σ → List Field) (merge : σ → σ → σ) : Prop :=
  ∀ m v t, desc.decodeInner (wire (records v) ++ t) m = desc.decodeInner t (merge m v)

theorem Merges.decodeInner_wire {records : σ → List Field} {merge : σ → σ → σ}
    (h : desc.Merges records merge) (m v : σ) :
    desc.decodeInner (wire (records v)) m = .ok (merge m v) := by
  have hnil := h m v []
  rwa [List.append_nil, decodeInner_nil] at hnil

/-- On top of nothing that gives the message. -/
theorem Merges.decodeInner_initZero {records : σ → List Field} {merge : σ → σ → σ}
    (h : desc.Merges records merge) {v : σ} (hzero : merge desc.initZero v = v) (t : List UInt8) :
    desc.decodeInner (wire (records v) ++ t) desc.initZero = desc.decodeInner t v := by
  rw [h, hzero]

end PbMsgdesc

/-- `pb_encode_submessage`: `encode` runs on a sizing stream first, and then on a stream that ends
where the size says. -/
def pbEncodeSubmessage (encode : Encoder) : Encoder := fun stream =>
  match encode .sizing with
  | .error err => .error err
  | .ok substream =>
    let size := substream.bytesWritten
    match pbEncodeVarint (UInt64.ofNat size) stream with
    | .error err => .error err
    | .ok stream =>
      if stream.callback = false then
        .ok { stream with bytesWritten := stream.bytesWritten + size }
      else if stream.maxSize < stream.bytesWritten + size then .error .streamFull
      else
        match encode ⟨true, stream.state, size, 0⟩ with
        | .error err => .error err
        | .ok substream =>
          if substream.bytesWritten ≠ size then .error .submsgSizeChanged
          else
            .ok { stream with
              bytesWritten := stream.bytesWritten + substream.bytesWritten
              state := substream.state }

/-- A stream that has been written to holds no more than its size, if it writes at all. -/
theorem bytesWritten_le_of_pbWrite {bs : List UInt8} (hbs : bs ≠ []) {stream stream' : PbOstream}
    (h : pbWrite bs stream = .ok stream') (hcallback : stream'.callback = true) :
    stream'.bytesWritten ≤ stream'.maxSize := by
  rw [pbWrite] at h
  split_ifs at h with hwrite hfull
  · obtain rfl := Except.ok.inj h
    exact Nat.le_of_not_lt hfull
  · obtain rfl := Except.ok.inj h
    exact absurd ⟨hbs, hcallback⟩ hwrite

/-- **A submessage is written behind its length.** Both passes write the same, so the size does
not change between them. -/
theorem pbEncodeSubmessage_eq {encode : Encoder} {bs : List UInt8} (h : encode = pbWrite bs)
    (hlen : bs.length < 2 ^ 64) :
    pbEncodeSubmessage encode = pbWrite (varint bs.length ++ bs) := by
  have hsize : (UInt64.ofNat bs.length).toNat = bs.length := by
    rw [UInt64.toNat_ofNat', Nat.mod_eq_of_lt hlen]
  have hne : varint bs.length ≠ [] := List.ne_nil_of_length_pos (length_varint_pos _)
  funext stream
  rw [← pbWrite_append, Encoder.andThen, pbEncodeSubmessage, h, pbWrite_sizing]
  simp only [pbEncodeVarint_eq, hsize]
  rcases hheader : pbWrite (varint bs.length) stream with err | stream'
  · rfl
  simp only
  rcases Bool.eq_false_or_eq_true stream'.callback with hcallback | hcallback
  · have hle := bytesWritten_le_of_pbWrite hne hheader hcallback
    rcases eq_or_ne bs [] with rfl | hbs
    · simp [pbWrite, hcallback, hle]
    · simp only [pbWrite, hcallback, hbs, ne_eq, not_false_eq_true, and_self, if_true,
        Bool.true_eq_false, if_false, Nat.zero_add, Nat.lt_irrefl, not_true_eq_false]
  · simp [pbWrite, hcallback]

end AgentxSubagent.Nanopb
