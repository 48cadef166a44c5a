import AgentxSubagent.Nanopb.Messages

/-!
# Records of another schema

A client may be built from a newer schema than the server, with fields the server knows nothing
of. `pb_decode` skips them by their wire type (`pb_skip_field`), so what it makes of a message
does not hang on them.

A record is a field number with one of the four payloads that nanopb can skip
(`AgentxSubagent.Nanopb.Record`). What the decoder makes of one is settled by the record alone,
whether it is of a known field (`AgentxSubagent.Nanopb.PbField.Framed`) or not. The result is
`AgentxSubagent.AgentxIpcV1.decodeInner_foreign`: of any sequence of records, only those of fields
in the schema count.
-/

namespace AgentxSubagent.Nanopb

open Consume Wire

variable {σ τ α : Type}

/-! ### Records -/

/-- What a record carries, by its wire type. -/
inductive RecordPayload
  | varint (n : UInt64)
  | fixed64 (bs : List UInt8) (h : bs.length = 8)
  | bytes (bs : List UInt8) (h : bs.length < 2 ^ 32)
  | fixed32 (bs : List UInt8) (h : bs.length = 4)

def RecordPayload.wireType : RecordPayload → ℕ
  | .varint _ => pbWtVarint
  | .fixed64 _ _ => pbWt64bit
  | .bytes _ _ => pbWtString
  | .fixed32 _ _ => pbWt32bit

/-- The bytes behind the tag. -/
def RecordPayload.wire : RecordPayload → List UInt8
  | .varint n => Wire.varint n.toNat
  | .fixed64 bs _ => bs
  | .bytes bs _ => Wire.varint bs.length ++ bs
  | .fixed32 bs _ => bs

/-- A record, with a field number that fits a tag. -/
structure Record where
  number : ℕ
  payload : RecordPayload
  number_pos : 0 < number
  number_lt : number < 2 ^ 29

/-- The bytes of a record. -/
def Record.wire (r : Record) : List UInt8 :=
  varint (8 * r.number + r.payload.wireType) ++ r.payload.wire

theorem RecordPayload.wireType_lt (payload : RecordPayload) : payload.wireType < 8 := by
  cases payload with
  | varint => exact (by decide : pbWtVarint < 8)
  | fixed64 => exact (by decide : pbWt64bit < 8)
  | bytes => exact (by decide : pbWtString < 8)
  | fixed32 => exact (by decide : pbWt32bit < 8)

theorem Record.wire_ne_nil (r : Record) : r.wire ≠ [] :=
  List.append_ne_nil_of_left_ne_nil (List.ne_nil_of_length_pos (length_varint_pos _)) _

/-- `pb_skip_field` takes off what the record carries. -/
theorem reads_pbSkipField (payload : RecordPayload) :
    Reads (pbSkipField payload.wireType) payload.wire () := by
  have hread : ∀ {bs : List UInt8} {n : ℕ}, bs.length = n →
      Reads (andThen (pbRead n) fun _ => give ()) bs () := fun h =>
    ((reads_takeExactly _ h).andThen (reads_give ())).of_append_nil
  cases payload with
  | varint n => exact reads_pbSkipVarint n.toNat
  | fixed64 bs h => exact hread h
  | bytes bs h => exact reads_pbSkipString h
  | fixed32 bs h => exact hread h

/-! ### Fields -/

/-- What is decoded of a field is settled by its record. -/
def PbField.Framed (field : PbField σ) : Prop :=
  ∀ m (payload : RecordPayload), Settled (field.decode payload.wireType m) payload.wire

theorem framed_varintField [DecidableEq α] (kind : IntKind α) (tag : ℕ) (slot : Slot σ α) :
    (varintField kind tag slot).Framed := by
  intro m payload
  cases payload with
  | varint n =>
    have hclamped : Settled (giveClamped kind slot m n) [] := by
      rw [giveClamped]
      cases kind.clamp n with
      | error err => exact settled_fail err []
      | ok v => exact settled_give _
    have hreads := reads_pbDecodeVarint n.toNat_lt
    rw [UInt64.ofNat_toNat] at hreads
    exact (hreads.settled hclamped).of_append_nil
  | fixed64 | bytes | fixed32 => exact settled_fail _ _

theorem framed_submessageField (desc : PbMsgdesc τ) (tag : ℕ) (get : σ → Option τ)
    (put : τ → σ → σ) : (submessageField desc tag get put).Framed := by
  intro m payload
  cases payload with
  | bytes bs h =>
    have hdecoded : Settled (giveDecoded desc get put m bs) [] := by
      rw [giveDecoded]
      cases desc.decodeInner bs ((get m).getD desc.initZero) with
      | error err => exact settled_fail err []
      | ok v => exact settled_give _
    exact ((reads_pbMakeStringSubstream h).settled hdecoded).of_append_nil
  | varint | fixed64 | fixed32 => exact settled_fail _ _

namespace PbMsgdesc

variable {desc : PbMsgdesc σ}

/-- A record of a field of the message settles the turn it is read in. -/
theorem settled_plainTurn (hframed : ∀ field ∈ desc.fields, field.Framed) (m : σ) {r : Record}
    (h : r.number ∈ desc.tags) : Settled (desc.plainTurn m) r.wire := by
  refine (reads_pbDecodeTag r.number_lt r.payload.wireType_lt).settled ?_
  rcases hfind : desc.fields.find? (·.tag = r.number) with _ | field
  · obtain ⟨field, hfield, htag⟩ := List.mem_map.mp h
    exact absurd htag (by simpa using List.find?_eq_none.mp hfind field hfield)
  · simp only [plainTagged, if_neg (Nat.ne_of_gt r.number_pos), hfind]
    exact hframed field (List.mem_of_find?_eq_some hfind) m r.payload

/-- **Only the records of its own fields count.** -/
theorem decodeInner_filter (hframed : ∀ field ∈ desc.fields, field.Framed) (rs : List Record)
    (m : σ) :
    desc.decodeInner (rs.flatMap Record.wire) m =
      desc.decodeInner ((rs.filter (·.number ∈ desc.tags)).flatMap Record.wire) m := by
  rw [decodeInner_eq_fold, decodeInner_eq_fold]
  refine fold_filter Record.wire_ne_nil (fun r n hr => ?_) (fun r n hr => ?_) rs m
  · exact settled_plainTurn hframed n (of_decide_eq_true hr)
  · exact (skippable_record r.number_pos r.number_lt r.payload.wireType_lt
      (of_decide_eq_false hr) (reads_pbSkipField r.payload)).skipped n

end PbMsgdesc

end AgentxSubagent.Nanopb

namespace AgentxSubagent.AgentxIpcV1

open Nanopb

/-- **Of any sequence of records, in any order and however often, the decoder of the server sees
those of the fields it knows**, and it fails exactly when it fails on those alone. The records are
those of the four wire types that `pb_skip_field` takes; it refuses the records of a group. -/
theorem decodeInner_foreign (rs : List Record) (m : Envelope) :
    envelopeMsg.decodeInner (rs.flatMap Record.wire) m =
      envelopeMsg.decodeInner
        ((rs.filter (·.number ∈ [1, 10, 11, 12, 13, 14, 15, 16, 17])).flatMap Record.wire) m := by
  refine PbMsgdesc.decodeInner_filter (fun field hfield => ?_) rs m
  simp only [envelopeMsg, List.mem_cons, List.not_mem_nil, or_false] at hfield
  rcases hfield with rfl | rfl | rfl | rfl | rfl | rfl | rfl | rfl | rfl
  · exact framed_varintField _ _ _
  all_goals exact framed_submessageField _ _ _ _

end AgentxSubagent.AgentxIpcV1
