import AgentxSubagent.Nanopb.Stream

/-!
# The output stream of nanopb

The lower half of `third_party/nanopb/pb_encode.c`. A `pb_ostream_t` either writes to a buffer of
bounded size or only counts (`PB_OSTREAM_SIZING`); an encoder runs on both, first to learn how
long a submessage gets.

The specification of an encoder is one equation: it does what one call of `pb_write` with the
right bytes does, on either kind of stream and whether there is room or not. Such equations
compose (`AgentxSubagent.Nanopb.pbWrite_append`), so nothing has to be said about streams that
are full. The first of them is `AgentxSubagent.Nanopb.pbEncodeVarint_eq`: `pb_encode_varint`,
which cuts a number in two halves of 32 bits to avoid wide shifts, writes it in base 128.
-/

namespace AgentxSubagent.Nanopb

open Wire

/-- What an encoder fails with. -/
inductive EncodeErr
  | streamFull
  | submsgSizeChanged
  deriving DecidableEq

/-- `pb_ostream_t`. A sizing stream has no callback; `state` is what the buffer holds so far. -/
structure PbOstream where
  callback : Bool
  state : List UInt8
  maxSize : ℕ
  bytesWritten : ℕ

/-- `PB_OSTREAM_SIZING`. -/
def PbOstream.sizing : PbOstream := ⟨false, [], 0, 0⟩

/-- `pb_ostream_from_buffer`. -/
def pbOstreamFromBuffer (bufsize : ℕ) : PbOstream := ⟨true, [], bufsize, 0⟩

/-- What writes to a stream. -/
abbrev Encoder := PbOstream → Except EncodeErr PbOstream

/-- `pb_write`. -/
def pbWrite (buf : List UInt8) : Encoder := fun stream =>
  if buf ≠ [] ∧ stream.callback then
    if stream.maxSize < stream.bytesWritten + buf.length then .error .streamFull
    else .ok { stream with
      state := stream.state ++ buf, bytesWritten := stream.bytesWritten + buf.length }
  else .ok { stream with bytesWritten := stream.bytesWritten + buf.length }

/-- Encode, and go on if that went well. -/
def Encoder.andThen (p q : Encoder) : Encoder := fun stream =>
  match p stream with
  | .error err => .error err
  | .ok stream => q stream

/-- **Writing twice is writing once**, also when the stream is full or only counts. -/
theorem pbWrite_append (bs cs : List UInt8) :
    (pbWrite bs).andThen (pbWrite cs) = pbWrite (bs ++ cs) := by
  funext stream
  rw [Encoder.andThen]
  rcases eq_or_ne bs [] with rfl | hbs
  · simp [pbWrite]
  rcases eq_or_ne cs [] with rfl | hcs
  · rw [List.append_nil]
    rcases hbs' : pbWrite bs stream with err | stream'
    · rfl
    · simp [pbWrite]
  rcases stream with ⟨_ | _, state, maxSize, bytesWritten⟩
  · simp [pbWrite, hbs, Nat.add_assoc]
  · simp only [pbWrite, hbs, hcs, ne_eq, not_false_eq_true, and_self, if_true,
      List.append_eq_nil_iff, List.length_append]
    by_cases hfull : maxSize < bytesWritten + bs.length
    · rw [if_pos hfull, if_pos (by omega)]
    · rw [if_neg hfull]
      simp only [and_self, if_true, Nat.add_assoc, List.append_assoc]

theorem pbWrite_nil : pbWrite [] = .ok := by
  funext stream
  simp [pbWrite]

/-- What a sizing stream counts. -/
theorem pbWrite_sizing (bs : List UInt8) :
    pbWrite bs .sizing = .ok { PbOstream.sizing with bytesWritten := bs.length } := by
  simp [pbWrite, PbOstream.sizing]

/-- A buffer with room holds what was written. -/
theorem pbWrite_buffer {bs : List UInt8} {bufsize : ℕ} (h : bs.length ≤ bufsize) :
    pbWrite bs (pbOstreamFromBuffer bufsize) = .ok ⟨true, bs, bufsize, bs.length⟩ := by
  rcases eq_or_ne bs [] with rfl | hbs
  · rfl
  · simp [pbWrite, pbOstreamFromBuffer, hbs, h]

/-- A buffer without room fails. -/
theorem pbWrite_full {bs : List UInt8} {bufsize : ℕ} (h : bufsize < bs.length) :
    pbWrite bs (pbOstreamFromBuffer bufsize) = .error .streamFull := by
  have hbs : bs ≠ [] := List.ne_nil_of_length_pos (by omega)
  simp [pbWrite, pbOstreamFromBuffer, hbs, h]

/-- What a buffer holds after writing to it. -/
theorem state_of_pbWrite {bs : List UInt8} {bufsize : ℕ} {stream : PbOstream}
    (h : pbWrite bs (pbOstreamFromBuffer bufsize) = .ok stream) : stream.state = bs := by
  rcases Nat.lt_or_ge bufsize bs.length with hfull | hfits
  · rw [pbWrite_full hfull] at h
    exact nomatch h
  · rw [pbWrite_buffer hfits] at h
    obtain rfl := Except.ok.inj h
    rfl

/-! ### Varints -/

/-- The first loop of `pb_encode_varint_32`, with `n` of its four turns left: the buffer and
`byte`. -/
def encodeLow : ℕ → List UInt8 → UInt8 → UInt32 → UInt32 → List UInt8 × UInt8
  | 0, buffer, byte, _, _ => (buffer, byte)
  | n + 1, buffer, byte, low, high =>
    if low ≠ 0 ∨ high ≠ 0 then
      encodeLow n (buffer ++ [byte ||| 0x80]) (low &&& 0x7F).toUInt8 (low >>> 7) high
    else (buffer, byte)

/-- The second loop of `pb_encode_varint_32`. The buffer has room for five of its turns. -/
def encodeHigh : ℕ → List UInt8 → UInt8 → UInt32 → List UInt8 × UInt8
  | 0, buffer, byte, _ => (buffer, byte)
  | n + 1, buffer, byte, high =>
    if high ≠ 0 then
      encodeHigh n (buffer ++ [byte ||| 0x80]) (high &&& 0x7F).toUInt8 (high >>> 7)
    else (buffer, byte)

/-- The bytes `pb_encode_varint_32` puts into its buffer. -/
def varint32Buffer (low high : UInt32) : List UInt8 :=
  let r := encodeLow 4 [] (low &&& 0x7F).toUInt8 (low >>> 7) high
  let r :=
    if high ≠ 0 then encodeHigh 5 r.1 (r.2 ||| ((high &&& 0x07) <<< 4).toUInt8) (high >>> 3) else r
  r.1 ++ [r.2]

/-- `pb_encode_varint_32`. -/
def pbEncodeVarint32 (low high : UInt32) : Encoder := pbWrite (varint32Buffer low high)

/-- `pb_encode_varint`. -/
def pbEncodeVarint (value : UInt64) : Encoder :=
  if value ≤ 0x7F then pbWrite [value.toUInt8]
  else pbEncodeVarint32 value.toUInt32 (value >>> 32).toUInt32

/-- `pb_encode_tag`. -/
def pbEncodeTag (wireType fieldNumber : ℕ) : Encoder :=
  pbEncodeVarint (UInt64.ofNat fieldNumber <<< 3 ||| UInt64.ofNat wireType)

/-- `pb_encode_string`. -/
def pbEncodeString (buffer : List UInt8) : Encoder :=
  (pbEncodeVarint (UInt64.ofNat buffer.length)).andThen (pbWrite buffer)

section Bits

variable (low : UInt32)

theorem toNat_low_digit : (low &&& 0x7F).toUInt8.toNat = low.toNat % 128 := by
  have hand : (low &&& 0x7F).toNat = low.toNat % 128 := Nat.and_two_pow_sub_one_eq_mod low.toNat 7
  rw [UInt32.toNat_toUInt8, hand]
  omega

theorem toNat_shiftRight_seven : (low >>> 7).toNat = low.toNat / 128 := by
  rw [UInt32.toNat_shiftRight, show (7 : UInt32).toNat % 32 = 7 from rfl,
    Nat.shiftRight_eq_div_pow]

/-- A digit with its high bit set. -/
theorem or_high {byte : UInt8} (h : byte.toNat < 128) :
    byte ||| 0x80 = (128 + byte.toNat % 128).toUInt8 := by
  have hor := or_mul_two_pow (r := byte.toNat) (d := 1) (i := 7) (by omega)
  apply UInt8.toNat_inj.mp
  rw [UInt8.toNat_or, Nat.toUInt8, UInt8.toNat_ofNat']
  exact hor.trans (by omega)

end Bits

/-- A number of one digit. -/
theorem varint_of_lt {n : ℕ} (h : n < 128) : varint n = [n.toUInt8] := by
  rw [varint, if_pos h]

theorem varint_toNat {byte : UInt8} (h : byte.toNat < 128) : varint byte.toNat = [byte] := by
  rw [varint_of_lt h]
  congr 1
  exact UInt8.toNat_inj.mp (by rw [Nat.toUInt8, UInt8.toNat_ofNat']; omega)

/-- A number of more digits: the last one comes first. -/
theorem varint_digit {byte : UInt8} {n : ℕ} (h : byte.toNat < 128) (hn : 0 < n) :
    varint (byte.toNat + 128 * n) = (byte ||| 0x80) :: varint n := by
  rw [varint, if_neg (by omega), or_high h]
  congr 2
  · omega
  · omega

/-- The loop over the low half, `n` turns before its end: what is still to be written is `byte`,
the rest of the low half and, behind it, the high half. -/
theorem encodeLow_spec (n : ℕ) (buffer : List UInt8) (byte : UInt8) (low high : UInt32)
    (hbyte : byte.toNat < 128) (hlast : n = 0 → byte.toNat < 16)
    (hlow : low.toNat < 2 ^ (7 * n - 3)) :
    (encodeLow n buffer byte low high).2.toNat < 128 ∧
      (high ≠ 0 → (encodeLow n buffer byte low high).2.toNat < 16) ∧
      (encodeLow n buffer byte low high).1 ++
          varint ((encodeLow n buffer byte low high).2.toNat + high.toNat * 16) =
        buffer ++ varint (byte.toNat + 128 * low.toNat + high.toNat * 2 ^ (4 + 7 * n)) := by
  induction n generalizing buffer byte low with
  | zero =>
    have hzero : low.toNat = 0 := by simpa using hlow
    exact ⟨hbyte, fun _ => hlast rfl, by simp [encodeLow, hzero]⟩
  | succ n ih =>
    rw [encodeLow]
    split_ifs with hmore
    · have hdigit := toNat_low_digit low
      have hshift := toNat_shiftRight_seven low
      have hpos : 0 < low.toNat + high.toNat * 2 ^ (4 + 7 * n) := by
        rcases hmore with hne | hne
        · exact Nat.add_pos_left (Nat.pos_of_ne_zero fun h => hne (UInt32.toNat_inj.mp h)) _
        · refine Nat.add_pos_right _ (Nat.mul_pos ?_ (Nat.two_pow_pos _))
          exact Nat.pos_of_ne_zero fun h => hne (UInt32.toNat_inj.mp h)
      have hnext : (low >>> 7).toNat < 2 ^ (7 * n - 3) := by
        rw [hshift]
        cases n with
        | zero => simp only [Nat.reduceAdd, Nat.reduceMul, Nat.reduceSub] at hlow ⊢; omega
        | succ n =>
          have hpow : 2 ^ (7 * (n + 1 + 1) - 3) = 128 * 2 ^ (7 * (n + 1) - 3) := by
            rw [show 7 * (n + 1 + 1) - 3 = 7 + (7 * (n + 1) - 3) by omega, Nat.pow_add]
          omega
      obtain ⟨hlt, hhigh, heq⟩ := ih (buffer ++ [byte ||| 0x80])
        (low &&& 0x7F).toUInt8 (low >>> 7) (by omega)
        (by rintro rfl; simp only [Nat.reduceAdd, Nat.reduceMul, Nat.reduceSub] at hlow; omega) hnext
      refine ⟨hlt, hhigh, heq.trans ?_⟩
      have hvalue : byte.toNat + 128 * low.toNat + high.toNat * 2 ^ (4 + 7 * (n + 1)) =
          byte.toNat + 128 * (low.toNat + high.toNat * 2 ^ (4 + 7 * n)) := by
        rw [show 4 + 7 * (n + 1) = 7 + (4 + 7 * n) by omega, Nat.pow_add]
        ring
      rw [hvalue, varint_digit hbyte hpos, List.append_assoc, List.singleton_append, hdigit, hshift]
      congr 4
      omega
    · push Not at hmore
      obtain ⟨rfl, rfl⟩ := hmore
      exact ⟨hbyte, fun h => absurd rfl h, by simp⟩

/-- The loop over the high half. -/
theorem encodeHigh_spec (n : ℕ) (buffer : List UInt8) {byte : UInt8} {high : UInt32}
    (hbyte : byte.toNat < 128) (hhigh : high.toNat < 2 ^ (7 * n)) :
    (encodeHigh n buffer byte high).1 ++ [(encodeHigh n buffer byte high).2] =
      buffer ++ varint (byte.toNat + 128 * high.toNat) := by
  induction n generalizing buffer byte high with
  | zero =>
    have hzero : high.toNat = 0 := by simpa using hhigh
    simp [encodeHigh, hzero, varint_toNat hbyte]
  | succ n ih =>
    rw [encodeHigh]
    split_ifs with hmore
    · have hdigit := toNat_low_digit high
      have hshift := toNat_shiftRight_seven high
      have hpos : 0 < high.toNat :=
        Nat.pos_of_ne_zero fun h => hmore (UInt32.toNat_inj.mp h)
      have hpow : 2 ^ (7 * (n + 1)) = 128 * 2 ^ (7 * n) := by
        rw [Nat.mul_succ, Nat.pow_add, Nat.mul_comm]
      rw [ih (buffer ++ [byte ||| 0x80]) (by omega) (by omega), varint_digit hbyte hpos,
        List.append_assoc, List.singleton_append, hdigit, hshift]
      congr 3
      omega
    · obtain rfl : high = 0 := not_not.mp hmore
      simp [varint_toNat hbyte]

/-- The two halves together are the number in base 128. -/
theorem varint32Buffer_eq (low high : UInt32) :
    varint32Buffer low high = varint (low.toNat + 2 ^ 32 * high.toNat) := by
  have hlow := low.toNat_lt
  have hhigh := high.toNat_lt
  have hdigit := toNat_low_digit low
  have hshift := toNat_shiftRight_seven low
  obtain ⟨hlt, hsmall, heq⟩ := encodeLow_spec 4 [] (low &&& 0x7F).toUInt8 (low >>> 7) high
    (by omega) (fun h => nomatch h)
    (by simp only [Nat.reduceMul, Nat.reduceSub]; omega)
  have hvalue : low.toNat % 128 + 128 * (low.toNat / 128) + high.toNat * 2 ^ (4 + 7 * 4) =
      low.toNat + 2 ^ 32 * high.toNat := by
    simp only [Nat.reduceMul, Nat.reduceAdd]
    omega
  rw [hdigit, hshift, hvalue, List.nil_append] at heq
  rw [varint32Buffer, ← heq]
  generalize encodeLow 4 [] (low &&& 0x7F).toUInt8 (low >>> 7) high = r at hlt hsmall
  by_cases hzero : high = 0
  · subst hzero
    simp [varint_toNat hlt]
  · -- three bits of the high half share a digit with the last four of the low one
    have hbyte : (r.2 ||| ((high &&& 0x07) <<< 4).toUInt8).toNat =
        r.2.toNat + 16 * (high.toNat % 8) := by
      have hand : (high &&& 0x07).toNat = high.toNat % 8 :=
        Nat.and_two_pow_sub_one_eq_mod high.toNat 3
      have hbits : ((high &&& 0x07) <<< 4).toUInt8.toNat = high.toNat % 8 * 2 ^ 4 := by
        rw [UInt32.toNat_toUInt8, UInt32.toNat_shiftLeft, hand,
          show (4 : UInt32).toNat % 32 = 4 from rfl, Nat.shiftLeft_eq]
        omega
      rw [UInt8.toNat_or, hbits, or_mul_two_pow (hsmall hzero)]
      omega
    have hrest : (high >>> 3).toNat = high.toNat / 8 := by
      rw [UInt32.toNat_shiftRight, show (3 : UInt32).toNat % 32 = 3 from rfl,
        Nat.shiftRight_eq_div_pow]
    have hr := hsmall hzero
    simp only [ne_eq, hzero, not_false_eq_true, if_true]
    rw [encodeHigh_spec 5 r.1 (by omega) (by rw [hrest]; omega), hbyte, hrest]
    congr 2
    omega

/-- **`pb_encode_varint` writes a number in base 128.** -/
theorem pbEncodeVarint_eq (value : UInt64) : pbEncodeVarint value = pbWrite (varint value.toNat) := by
  have hvalue := value.toNat_lt
  rw [pbEncodeVarint]
  split_ifs with hsmall
  · have hlt : value.toNat < 128 := Nat.lt_succ_of_le (UInt64.le_iff_toNat_le.mp hsmall)
    rw [varint_of_lt hlt]
    rfl
  · rw [pbEncodeVarint32, varint32Buffer_eq]
    congr 2
    rw [UInt64.toNat_toUInt32, UInt64.toNat_toUInt32, UInt64.toNat_shiftRight,
      show (32 : UInt64).toNat % 64 = 32 from rfl, Nat.shiftRight_eq_div_pow]
    omega

theorem pbEncodeTag_eq {wireType fieldNumber : ℕ} (htype : wireType < 8)
    (hfield : fieldNumber < 2 ^ 61) :
    pbEncodeTag wireType fieldNumber = pbWrite (varint (8 * fieldNumber + wireType)) := by
  rw [pbEncodeTag, pbEncodeVarint_eq]
  congr 2
  rw [UInt64.toNat_or, UInt64.toNat_shiftLeft, UInt64.toNat_ofNat', UInt64.toNat_ofNat',
    show (3 : UInt64).toNat % 64 = 3 from rfl, Nat.shiftLeft_eq,
    Nat.mod_eq_of_lt (show fieldNumber < 2 ^ 64 by omega), Nat.mod_eq_of_lt (by omega),
    Nat.mod_eq_of_lt (show wireType < 2 ^ 64 by omega), Nat.or_comm,
    or_mul_two_pow (by simpa using htype)]
  omega

theorem pbEncodeString_eq {buffer : List UInt8} (h : buffer.length < 2 ^ 64) :
    pbEncodeString buffer = pbWrite (varint buffer.length ++ buffer) := by
  rw [pbEncodeString, pbEncodeVarint_eq, pbWrite_append, UInt64.toNat_ofNat', Nat.mod_eq_of_lt h]

end AgentxSubagent.Nanopb
