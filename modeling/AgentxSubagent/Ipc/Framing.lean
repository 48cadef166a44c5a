import AgentxSubagent.Lib.Resume
import AgentxSubagent.Storage.Codec

/-!
# Framing on an IPC connection

`service_client` and `drain_frames` of `src/ipc_server.c`: bytes are read into the free end of
a client's buffer, complete frames are handed to `handle_frame` from its front, and what
follows a frame is moved down.

What the two are supposed to compute is `AgentxSubagent.ipcFraming`, a reference parser on
the stream itself: a four-byte big-endian length between 1 and 65536, then that many bytes.

* `AgentxSubagent.drainFrames_eq`: draining the buffer is the reference parser on its valid
  bytes.
* `AgentxSubagent.framing_independent`: however the stream is cut into reads, the payloads
  handed out, the state they lead to, the reason the connection is closed for and the bytes
  left over are those of the reference parser on the whole stream; the buffer never fills
  up.

The handler is a parameter: any function of a state and a payload that says whether the
connection stays open.
-/

namespace AgentxSubagent

open LittleEndian Resume

/-! ### The client buffer -/

/-- `IPC_MAX_FRAME_LEN`. -/
def ipcMaxFrameLen : ℕ := 65536

/-- `IPC_CLIENT_BUF_SIZE`. -/
def ipcClientBufSize : ℕ := (4 + ipcMaxFrameLen) * 2

/-- The buffer of an `ipc_client_t` in use: `len` bytes are valid. -/
structure IpcClient where
  buf : Bytes
  len : ℕ
  size_eq : buf.length = ipcClientBufSize
  len_le : len ≤ ipcClientBufSize

/-- A client just accepted. -/
def IpcClient.fresh : IpcClient :=
  ⟨List.replicate ipcClientBufSize 0, 0, List.length_replicate, Nat.zero_le _⟩

/-- The valid bytes of the buffer. -/
def IpcClient.valid (c : IpcClient) : Bytes := c.buf.take c.len

/-- A successful `read()` into the free end of the buffer. -/
def IpcClient.recv (c : IpcClient) (chunk : Bytes) (h : c.len + chunk.length ≤ ipcClientBufSize) :
    IpcClient where
  buf := c.buf.take c.len ++ chunk ++ c.buf.drop (c.len + chunk.length)
  len := c.len + chunk.length
  size_eq := by
    have hsize := c.size_eq
    simp only [List.length_append, List.length_take, List.length_drop]
    omega
  len_le := h

/-- `memmove` of what follows the first `total` bytes to the front. -/
def IpcClient.shift (c : IpcClient) (total : ℕ) : IpcClient where
  buf := (c.buf.drop total).take (c.len - total) ++ c.buf.drop (c.len - total)
  len := c.len - total
  size_eq := by
    have hsize := c.size_eq
    have hlen := c.len_le
    simp only [List.length_append, List.length_take, List.length_drop]
    omega
  len_le := le_trans (Nat.sub_le _ _) c.len_le

/-- The big-endian length at the front of the buffer. -/
def frameLen (buf : Bytes) : UInt32 :=
  ((buf.getD 0 0).toUInt32 <<< 24) ||| ((buf.getD 1 0).toUInt32 <<< 16) |||
    ((buf.getD 2 0).toUInt32 <<< 8) ||| (buf.getD 3 0).toUInt32

theorem IpcClient.length_valid (c : IpcClient) : c.valid.length = c.len := by
  have hsize := c.size_eq
  have hlen := c.len_le
  rw [IpcClient.valid, List.length_take]
  omega

theorem IpcClient.valid_recv (c : IpcClient) (chunk : Bytes)
    (h : c.len + chunk.length ≤ ipcClientBufSize) : (c.recv chunk h).valid = c.valid ++ chunk := by
  have hlen := c.length_valid
  refine List.take_left' ?_
  show (c.valid ++ chunk).length = c.len + chunk.length
  rw [List.length_append, hlen]

theorem IpcClient.valid_shift (c : IpcClient) (total : ℕ) :
    (c.shift total).valid = c.valid.drop total := by
  have hsize := c.size_eq
  have hlen := c.len_le
  rw [IpcClient.valid.eq_1 c, List.drop_take]
  refine List.take_left' ?_
  show ((c.buf.drop total).take (c.len - total)).length = c.len - total
  rw [List.length_take, List.length_drop]
  omega

/-! ### Reading -/

/-- Why a connection is closed. -/
inductive CloseReason
  | zeroPrefix
  | oversizedPrefix
  | byHandler
  | bufferFull
  | endOfFile
  | readError
  deriving DecidableEq

/-- What `read()` answers. -/
inductive ReadResult
  | data (chunk : Bytes)
  | endOfFile
  | wouldBlock
  | interrupted
  | failed
  deriving DecidableEq

section Server

variable {σ : Type} (handle : σ → Bytes → σ × Bool)

/-- `drain_frames`: a frame takes at least five bytes off, so `fuel` above the length of the
valid bytes bounds the turns. -/
def drainFrames : ℕ → IpcClient → σ → Outcome σ Bytes CloseReason IpcClient
  | 0, c, s => ⟨s, [], .ok c⟩
  | fuel + 1, c, s =>
    if c.len < 4 then ⟨s, [], .ok c⟩
    else
      let n := (frameLen c.buf).toNat
      if n = 0 then ⟨s, [], .error .zeroPrefix⟩
      else if n > ipcMaxFrameLen then ⟨s, [], .error .oversizedPrefix⟩
      else
        let total := 4 + n
        if c.len < total then ⟨s, [], .ok c⟩
        else
          let payload := (c.buf.drop 4).take n
          match handle s payload with
          | (s', false) => ⟨s', [payload], .error .byHandler⟩
          | (s', true) => (drainFrames fuel (c.shift total) s').cons payload

/-- `service_client` on the results its reads give. A read gives at least one byte and no
more than there is room for; on any other result there is no run. -/
def serviceClient : List ReadResult → IpcClient → σ → Option (Outcome σ Bytes CloseReason IpcClient)
  | [], c, s => some ⟨s, [], .ok c⟩
  | r :: rs, c, s =>
    if c.len ≥ ipcClientBufSize then some ⟨s, [], .error .bufferFull⟩
    else
      match r with
      | .data chunk =>
        if h : chunk ≠ [] ∧ c.len + chunk.length ≤ ipcClientBufSize then
          let o := drainFrames handle ((c.recv chunk h.2).len + 1) (c.recv chunk h.2) s
          match o.status with
          | .error _ => some o
          | .ok c' => (serviceClient rs c' o.state).map (Outcome.after o.items)
        else none
      | .endOfFile => some ⟨s, [], .error .endOfFile⟩
      | .wouldBlock => some ⟨s, [], .ok c⟩
      | .interrupted => serviceClient rs c s
      | .failed => some ⟨s, [], .error .readError⟩

/-- The calls of `service_client` on one connection, until it is closed. -/
def serviceCalls :
    List (List ReadResult) → IpcClient → σ → Option (Outcome σ Bytes CloseReason IpcClient)
  | [], c, s => some ⟨s, [], .ok c⟩
  | call :: calls, c, s =>
    match serviceClient handle call c s with
    | none => none
    | some o =>
      match o.status with
      | .error _ => some o
      | .ok c' => (serviceCalls calls c' o.state).map (Outcome.after o.items)

end Server

/-- The bytes one call of `service_client` reads while the connection lasts. -/
def delivered : List ReadResult → Bytes
  | .data chunk :: rs => chunk ++ delivered rs
  | .interrupted :: rs => delivered rs
  | _ => []

@[simp] theorem delivered_nil : delivered [] = [] := rfl

@[simp] theorem delivered_wouldBlock (rs : List ReadResult) :
    delivered (.wouldBlock :: rs) = [] := rfl

/-! ### The reference parser -/

/-- The number a big-endian word denotes. -/
def beNat (bs : Bytes) : ℕ := leNat bs.reverse

/-- The front of a stream of frames. -/
def nextFrame (s : Bytes) : Next UInt8 Bytes CloseReason :=
  if s.length < 4 then .more
  else
    let n := beNat (s.take 4)
    if n = 0 then .fail .zeroPrefix
    else if n > 65536 then .fail .oversizedPrefix
    else if s.length < 4 + n then .more
    else .item ((s.drop 4).take n) (s.drop (4 + n))

section NextFrame

variable {s p rest : Bytes}

/-- When the front of a stream is a frame. -/
theorem nextFrame_eq_item_iff :
    nextFrame s = .item p rest ↔
      1 ≤ beNat (s.take 4) ∧ beNat (s.take 4) ≤ 65536 ∧ 4 + beNat (s.take 4) ≤ s.length ∧
        p = (s.drop 4).take (beNat (s.take 4)) ∧ rest = s.drop (4 + beNat (s.take 4)) := by
  unfold nextFrame
  simp only
  split_ifs with h4 h0 hbig hlen
  · exact iff_of_false (by simp) (by omega)
  · exact iff_of_false (by simp) (by omega)
  · exact iff_of_false (by simp) (by omega)
  · exact iff_of_false (by simp) (by omega)
  · rw [Next.item.injEq]
    constructor
    · rintro ⟨rfl, rfl⟩
      exact ⟨by omega, by omega, by omega, rfl, rfl⟩
    · rintro ⟨-, -, -, rfl, rfl⟩
      exact ⟨rfl, rfl⟩

/-- When the front of a stream is a failure. -/
theorem nextFrame_eq_fail_iff {r : CloseReason} :
    nextFrame s = .fail r ↔
      4 ≤ s.length ∧ (beNat (s.take 4) = 0 ∧ r = .zeroPrefix ∨
        65536 < beNat (s.take 4) ∧ r = .oversizedPrefix) := by
  unfold nextFrame
  simp only
  split_ifs with h4 h0 hbig hlen
  · exact iff_of_false (by simp) (by omega)
  · simp [h0, eq_comm, Nat.le_of_not_lt h4]
  · simp [h0, hbig, eq_comm, Nat.le_of_not_lt h4]
  · exact iff_of_false (by simp) (by omega)
  · exact iff_of_false (by simp) (by omega)

/-- When the front of a stream is not decided yet: there is less than a frame. -/
theorem length_of_nextFrame_more (h : nextFrame s = .more) :
    s.length < 4 ∨ 1 ≤ beNat (s.take 4) ∧ beNat (s.take 4) ≤ 65536 ∧
      s.length < 4 + beNat (s.take 4) := by
  unfold nextFrame at h
  simp only at h
  split_ifs at h with h4 h0 hbig hlen
  · exact Or.inl h4
  · exact Or.inr ⟨by omega, by omega, hlen⟩

end NextFrame

/-- **The reference parser**: repeatedly a big-endian length between 1 and 65536, and then
that many bytes. -/
def ipcFraming : Framing UInt8 Bytes CloseReason where
  next := nextFrame
  item_lt := by
    intro s p rest h
    obtain ⟨-, -, hlen, -, rfl⟩ := nextFrame_eq_item_iff.mp h
    rw [List.length_drop]
    omega
  item_append := by
    intro s p rest h t
    obtain ⟨h1, hmax, hlen, rfl, rfl⟩ := nextFrame_eq_item_iff.mp h
    have htake : (s ++ t).take 4 = s.take 4 := List.take_append_of_le_length (by omega)
    refine nextFrame_eq_item_iff.mpr ?_
    rw [htake]
    refine ⟨h1, hmax, by rw [List.length_append]; omega, ?_, ?_⟩
    · rw [List.drop_append_of_le_length (by omega),
        List.take_append_of_le_length (by rw [List.length_drop]; omega)]
    · rw [List.drop_append_of_le_length (by omega)]
  fail_append := by
    intro s r h t
    obtain ⟨h4, hcase⟩ := nextFrame_eq_fail_iff.mp h
    have htake : (s ++ t).take 4 = s.take 4 := List.take_append_of_le_length h4
    refine nextFrame_eq_fail_iff.mpr ?_
    rw [htake, List.length_append]
    exact ⟨by omega, hcase⟩

/-- The bytes a frame takes on the wire. -/
def frameBytes (payload : Bytes) : Bytes := (leBytes 4 payload.length).reverse ++ payload

/-- A frame read off the front was those bytes. -/
theorem eq_frameBytes_append {s p rest : Bytes} (h : ipcFraming.next s = .item p rest) :
    s = frameBytes p ++ rest := by
  obtain ⟨-, -, hlen, rfl, rfl⟩ := nextFrame_eq_item_iff.mp h
  have hplen : ((s.drop 4).take (beNat (s.take 4))).length = beNat (s.take 4) := by
    rw [List.length_take, List.length_drop]
    omega
  have hhead : leBytes 4 (beNat (s.take 4)) = (s.take 4).reverse := by
    have hlen4 : (s.take 4).reverse.length = 4 := by
      rw [List.length_reverse, List.length_take]
      omega
    have hback := leBytes_leNat (s.take 4).reverse
    rw [hlen4] at hback
    exact hback
  rw [frameBytes, hplen, hhead, List.reverse_reverse, List.append_assoc, ← List.drop_drop,
    List.take_append_drop, List.take_append_drop]

theorem or_reverse (w x y z : UInt32) : w ||| x ||| y ||| z = z ||| y ||| x ||| w := by
  ac_rfl

/-- The reading of the length in the buffer is the big-endian number. -/
theorem frameLen_toNat {buf : Bytes} (h : 4 ≤ buf.length) :
    (frameLen buf).toNat = beNat (buf.take 4) := by
  match buf, h with
  | a :: b :: c :: d :: rest, _ =>
    have hle : frameLen (a :: b :: c :: d :: rest) = getU32le [d, c, b, a] :=
      or_reverse (a.toUInt32 <<< 24) (b.toUInt32 <<< 16) (c.toUInt32 <<< 8) d.toUInt32
    have hword := getU32le_eq [d, c, b, a] [] rfl
    rw [List.append_nil] at hword
    have hlt := leNat_lt [d, c, b, a]
    rw [hle, hword, UInt32.toNat_ofNat', Nat.mod_eq_of_lt (by simpa using hlt)]
    rfl

/-- It is that of the valid bytes, if there are four. -/
theorem IpcClient.frameLen_toNat_valid (c : IpcClient) (h : 4 ≤ c.len) :
    (frameLen c.buf).toNat = beNat (c.valid.take 4) := by
  have hsize := c.size_eq
  have hle := c.len_le
  rw [frameLen_toNat (by omega), IpcClient.valid, List.take_take, Nat.min_eq_left h]

/-- A payload within the valid bytes is cut out of them. -/
theorem IpcClient.payload_valid (c : IpcClient) {n : ℕ} (h : 4 + n ≤ c.len) :
    (c.buf.drop 4).take n = (c.valid.drop 4).take n := by
  have hdrop : c.valid.drop 4 = (c.buf.drop 4).take (c.len - 4) := by
    rw [IpcClient.valid, List.drop_take]
  rw [hdrop, List.take_take, Nat.min_eq_left (by omega)]

/-- **What `drain_frames` cuts off the front is a frame.** -/
theorem IpcClient.valid_eq_frame (c : IpcClient) (h4 : 4 ≤ c.len)
    (h0 : (frameLen c.buf).toNat ≠ 0) (hbig : (frameLen c.buf).toNat ≤ ipcMaxFrameLen)
    (hlen : 4 + (frameLen c.buf).toNat ≤ c.len) :
    c.valid = frameBytes ((c.buf.drop 4).take (frameLen c.buf).toNat) ++
      c.valid.drop (4 + (frameLen c.buf).toNat) := by
  have hvlen := c.length_valid
  rw [c.payload_valid hlen]
  rw [c.frameLen_toNat_valid h4] at h0 hbig hlen ⊢
  refine eq_frameBytes_append (nextFrame_eq_item_iff.mpr ⟨?_, hbig, ?_, rfl, rfl⟩)
  · omega
  · omega

/-! ### Draining refines the reference parser -/

section Refinement

variable {σ : Type} (handle : σ → Bytes → σ × Bool)

/-- The handler as the reference parser takes it: it may end the parse. -/
def refHandle (s : σ) (payload : Bytes) : σ × Option CloseReason :=
  let r := handle s payload
  (r.1, if r.2 then none else some .byHandler)

/-- The outcome of the code with the buffer seen as its valid bytes. -/
def seen (o : Outcome σ Bytes CloseReason IpcClient) : Outcome σ Bytes CloseReason Bytes :=
  ⟨o.state, o.items, o.status.map IpcClient.valid⟩

variable {handle}

/-- **Draining the buffer is the reference parser on its valid bytes.** -/
theorem drainFrames_eq (fuel : ℕ) : ∀ (c : IpcClient) (s : σ), c.len < fuel →
    seen (drainFrames handle fuel c s) = parseAll ipcFraming (refHandle handle) c.valid s := by
  induction fuel with
  | zero => exact fun c s h => absurd h (Nat.not_lt_zero _)
  | succ fuel ih =>
    intro c s hfuel
    have hvlen := c.length_valid
    have hsize := c.size_eq
    have hle := c.len_le
    rw [drainFrames]
    by_cases h4 : c.len < 4
    · rw [if_pos h4]
      exact (parseAll_more (if_pos (hvlen ▸ h4) : nextFrame c.valid = .more) s).symm
    have hn : (frameLen c.buf).toNat = beNat (c.valid.take 4) :=
      c.frameLen_toNat_valid (by omega)
    simp only [if_neg h4, hn]
    by_cases h0 : beNat (c.valid.take 4) = 0
    · rw [if_pos h0]
      exact (parseAll_fail (nextFrame_eq_fail_iff.mpr ⟨by omega, Or.inl ⟨h0, rfl⟩⟩) s).symm
    rw [if_neg h0]
    by_cases hbig : beNat (c.valid.take 4) > ipcMaxFrameLen
    · rw [if_pos hbig]
      exact (parseAll_fail (nextFrame_eq_fail_iff.mpr ⟨by omega, Or.inr ⟨hbig, rfl⟩⟩) s).symm
    rw [if_neg hbig]
    rw [ipcMaxFrameLen] at hbig
    by_cases hlen : c.len < 4 + beNat (c.valid.take 4)
    · rw [if_pos hlen]
      have hmore : nextFrame c.valid = .more := by
        simp [nextFrame, hvlen, h4, h0, hbig, hlen]
      exact (parseAll_more hmore s).symm
    rw [if_neg hlen]
    have hpay : (c.buf.drop 4).take (beNat (c.valid.take 4)) =
        (c.valid.drop 4).take (beNat (c.valid.take 4)) :=
      c.payload_valid (by omega)
    have hitem : ipcFraming.next c.valid = .item ((c.valid.drop 4).take (beNat (c.valid.take 4)))
        (c.valid.drop (4 + beNat (c.valid.take 4))) :=
      nextFrame_eq_item_iff.mpr ⟨by omega, by omega, by omega, rfl, rfl⟩
    -- a whole frame: the handler decides whether draining goes on
    rw [hpay]
    rcases hh : handle s ((c.valid.drop 4).take (beNat (c.valid.take 4))) with ⟨s', _ | _⟩
    · have href : refHandle handle s ((c.valid.drop 4).take (beNat (c.valid.take 4))) =
          (s', some .byHandler) := by
        simp only [refHandle, hh]
        rfl
      rw [parseAll_stop hitem href]
      rfl
    · have href : refHandle handle s ((c.valid.drop 4).take (beNat (c.valid.take 4))) =
          (s', none) := by
        simp only [refHandle, hh]
        rfl
      have hshift := ih (c.shift (4 + beNat (c.valid.take 4))) s' (by
        show c.len - (4 + beNat (c.valid.take 4)) < fuel
        omega)
      rw [IpcClient.valid_shift] at hshift
      rw [parseAll_item hitem href, ← hshift]
      rfl

/-- The state a drain leads to is what the payloads it hands out lead to. -/
theorem drainFrames_state (fuel : ℕ) : ∀ (c : IpcClient) (s : σ),
    (drainFrames handle fuel c s).state =
      (drainFrames handle fuel c s).items.foldl (fun s p => (handle s p).1) s := by
  induction fuel with
  | zero => exact fun c s => rfl
  | succ fuel ih =>
    intro c s
    rw [drainFrames]
    simp only
    split_ifs
    all_goals try rfl
    rcases hh : handle s ((c.buf.drop 4).take (frameLen c.buf).toNat) with ⟨s', _ | _⟩
    · simp [hh]
    · simpa [Outcome.cons, hh] using ih (c.shift (4 + (frameLen c.buf).toNat)) s'

/-- And so is the state a call of `service_client` leads to. -/
theorem serviceClient_state (rs : List ReadResult) :
    ∀ {c : IpcClient} {s : σ} {o : Outcome σ Bytes CloseReason IpcClient},
    serviceClient handle rs c s = some o →
    o.state = o.items.foldl (fun s p => (handle s p).1) s := by
  induction rs with
  | nil =>
    intro c s o h
    obtain rfl := Option.some.inj h
    rfl
  | cons r rs ih =>
    intro c s o h
    by_cases hfull : c.len ≥ ipcClientBufSize
    · rw [serviceClient.eq_def] at h
      simp only [if_pos hfull] at h
      obtain rfl := Option.some.inj h
      rfl
    cases r with
    | interrupted =>
      simp only [serviceClient, if_neg hfull] at h
      exact ih h
    | data chunk =>
      simp only [serviceClient, if_neg hfull] at h
      split_ifs at h with hfit
      have hdrain : (drainFrames handle _ (c.recv chunk hfit.2) s).state = _ :=
        drainFrames_state ((c.recv chunk hfit.2).len + 1) (c.recv chunk hfit.2) s
      generalize drainFrames handle ((c.recv chunk hfit.2).len + 1) (c.recv chunk hfit.2) s = d at *
      rcases hstatus : d.status with reason | c'
      · simp only [hstatus] at h
        obtain rfl := Option.some.inj h
        exact hdrain
      · simp only [hstatus, Option.map_eq_some_iff] at h
        obtain ⟨o', ho', rfl⟩ := h
        rw [Outcome.after, List.foldl_append, ← hdrain]
        exact ih ho'
    | endOfFile | wouldBlock | failed =>
      simp only [serviceClient, if_neg hfull] at h
      obtain rfl := Option.some.inj h
      rfl

/-- A closed connection takes no more input. -/
theorem resume_seen_error {d : Outcome σ Bytes CloseReason IpcClient} {r : CloseReason}
    (h : d.status = .error r) (t : Bytes) :
    resume ipcFraming (refHandle handle) (seen d) t = seen d := by
  simp [resume, seen, h, Except.map]

/-- An open connection goes on with its valid bytes in front of what comes. -/
theorem resume_seen_ok {d o : Outcome σ Bytes CloseReason IpcClient} {c : IpcClient} {t : Bytes}
    (h : d.status = .ok c)
    (ho : seen o = parseAll ipcFraming (refHandle handle) (c.valid ++ t) d.state) :
    resume ipcFraming (refHandle handle) (seen d) t = seen (o.after d.items) := by
  have hok : (seen d).status = .ok c.valid := by
    rw [seen, h]
    rfl
  rw [resume, hok]
  show (parseAll ipcFraming (refHandle handle) (c.valid ++ t) d.state).after d.items = _
  rw [← ho]
  rfl

/-- What is left in an open connection's buffer is less than a frame. -/
theorem nextFrame_of_seen {d : Outcome σ Bytes CloseReason IpcClient} {c : IpcClient}
    {stream : Bytes} {s : σ} (hd : seen d = parseAll ipcFraming (refHandle handle) stream s)
    (h : d.status = .ok c) : nextFrame c.valid = .more := by
  have hok : (seen d).status = .ok c.valid := by
    rw [seen, h]
    rfl
  rw [hd] at hok
  exact next_of_parseAll_ok hok

/-- With less than a frame left, a maximal frame fits the buffer. -/
theorem room_of_more {c : IpcClient} (h : nextFrame c.valid = .more) :
    c.len + (4 + 65536) ≤ ipcClientBufSize := by
  have hlen := c.length_valid
  rw [ipcClientBufSize, ipcMaxFrameLen]
  rcases length_of_nextFrame_more h with h4 | ⟨-, hmax, hlt⟩
  · omega
  · omega

/-- **Reading piece by piece.** A client whose valid bytes the reference parser has held back
goes on as the reference parser does on what is read. -/
theorem serviceClient_eq (rs : List ReadResult) :
    ∀ {c : IpcClient} {s : σ} {o : Outcome σ Bytes CloseReason IpcClient},
    (∀ r ∈ rs, r ≠ .endOfFile ∧ r ≠ .failed) → nextFrame c.valid = .more →
    serviceClient handle rs c s = some o →
    seen o = parseAll ipcFraming (refHandle handle) (c.valid ++ delivered rs) s := by
  induction rs with
  | nil =>
    intro c s o _ hmore h
    obtain rfl := Option.some.inj h
    rw [delivered_nil, List.append_nil, parseAll_more hmore]
    rfl
  | cons r rs ih =>
    intro c s o hclean hmore h
    have hroom := room_of_more hmore
    have hfull : ¬c.len ≥ ipcClientBufSize := by omega
    have hrest : ∀ r' ∈ rs, r' ≠ .endOfFile ∧ r' ≠ .failed :=
      fun r' hr' => hclean r' (List.mem_cons_of_mem r hr')
    cases r with
    | endOfFile => exact absurd rfl (hclean _ (List.mem_cons_self ..)).1
    | failed => exact absurd rfl (hclean _ (List.mem_cons_self ..)).2
    | wouldBlock =>
      simp only [serviceClient, if_neg hfull] at h
      obtain rfl := Option.some.inj h
      rw [delivered_wouldBlock, List.append_nil, parseAll_more hmore]
      rfl
    | interrupted =>
      simp only [serviceClient, if_neg hfull] at h
      exact ih hrest hmore h
    | data chunk =>
      simp only [serviceClient, if_neg hfull] at h
      split_ifs at h with hfit
      -- what was held back and the new bytes are drained as one stream
      have hdrain : seen (drainFrames handle _ (c.recv chunk hfit.2) s) = _ :=
        drainFrames_eq ((c.recv chunk hfit.2).len + 1) _ s (Nat.lt_succ_self _)
      rw [IpcClient.valid_recv] at hdrain
      rw [delivered, ← List.append_assoc, parseAll_append, ← hdrain]
      generalize drainFrames handle ((c.recv chunk hfit.2).len + 1) (c.recv chunk hfit.2) s = d at *
      rcases hstatus : d.status with reason | c'
      · simp only [hstatus] at h
        obtain rfl := Option.some.inj h
        exact (resume_seen_error hstatus _).symm
      · simp only [hstatus, Option.map_eq_some_iff] at h
        obtain ⟨o', ho', rfl⟩ := h
        exact (resume_seen_ok hstatus (ih hrest (nextFrame_of_seen hdrain hstatus) ho')).symm

/-- Reads of at least one byte and at most a maximal frame always find room. -/
theorem serviceClient_isSome (rs : List ReadResult) : ∀ {c : IpcClient} (s : σ),
    (∀ chunk, .data chunk ∈ rs → chunk ≠ [] ∧ chunk.length ≤ 4 + 65536) →
    nextFrame c.valid = .more → ∃ o, serviceClient handle rs c s = some o ∧
      ∀ c', o.status = .ok c' → nextFrame c'.valid = .more := by
  induction rs with
  | nil => exact fun s _ hmore => ⟨_, rfl, fun c' hc' => Except.ok.inj hc' ▸ hmore⟩
  | cons r rs ih =>
    intro c s hchunks hmore
    have hroom := room_of_more hmore
    have hfull : ¬c.len ≥ ipcClientBufSize := by omega
    have hrest : ∀ chunk, .data chunk ∈ rs → chunk ≠ [] ∧ chunk.length ≤ 4 + 65536 :=
      fun chunk hc => hchunks chunk (List.mem_cons_of_mem r hc)
    cases r with
    | endOfFile =>
      exact ⟨⟨s, [], .error .endOfFile⟩, by simp only [serviceClient, if_neg hfull], by simp⟩
    | failed =>
      exact ⟨⟨s, [], .error .readError⟩, by simp only [serviceClient, if_neg hfull], by simp⟩
    | wouldBlock =>
      exact ⟨⟨s, [], .ok c⟩, by simp only [serviceClient, if_neg hfull],
        fun c' hc' => Except.ok.inj hc' ▸ hmore⟩
    | interrupted =>
      simp only [serviceClient, if_neg hfull]
      exact ih s hrest hmore
    | data chunk =>
      obtain ⟨hne, hle⟩ := hchunks chunk (List.mem_cons_self ..)
      have hfit : chunk ≠ [] ∧ c.len + chunk.length ≤ ipcClientBufSize := ⟨hne, by omega⟩
      have hdrain : seen (drainFrames handle _ (c.recv chunk hfit.2) s) = _ :=
        drainFrames_eq ((c.recv chunk hfit.2).len + 1) _ s (Nat.lt_succ_self _)
      simp only [serviceClient, if_neg hfull, dif_pos hfit]
      generalize drainFrames handle ((c.recv chunk hfit.2).len + 1) (c.recv chunk hfit.2) s = d at *
      rcases hstatus : d.status with reason | c'
      · exact ⟨d, rfl, fun c' hc' => absurd (hstatus.symm.trans hc') (by simp)⟩
      · obtain ⟨o, ho, hok⟩ := ih d.state hrest (nextFrame_of_seen hdrain hstatus)
        exact ⟨o.after d.items, by simp only [ho, Option.map_some], hok⟩

/-- **Call after call** the same holds. -/
theorem serviceCalls_eq (calls : List (List ReadResult)) :
    ∀ {c : IpcClient} {s : σ} {o : Outcome σ Bytes CloseReason IpcClient},
    (∀ call ∈ calls, ∀ r ∈ call, r ≠ .endOfFile ∧ r ≠ .failed) → nextFrame c.valid = .more →
    serviceCalls handle calls c s = some o →
    seen o = parseAll ipcFraming (refHandle handle) (c.valid ++ calls.flatMap delivered) s := by
  induction calls with
  | nil =>
    intro c s o _ hmore h
    obtain rfl := Option.some.inj h
    rw [List.flatMap_nil, List.append_nil, parseAll_more hmore]
    rfl
  | cons call calls ih =>
    intro c s o hclean hmore h
    rw [serviceCalls] at h
    rcases hcall : serviceClient handle call c s with _ | d
    · rw [hcall] at h
      exact absurd h (by simp)
    have hd := serviceClient_eq call (hclean call (List.mem_cons_self ..)) hmore hcall
    simp only [hcall] at h
    rw [List.flatMap_cons, ← List.append_assoc, parseAll_append, ← hd]
    rcases hstatus : d.status with reason | c'
    · simp only [hstatus] at h
      obtain rfl := Option.some.inj h
      exact (resume_seen_error hstatus _).symm
    · simp only [hstatus, Option.map_eq_some_iff] at h
      obtain ⟨o', ho', rfl⟩ := h
      refine (resume_seen_ok hstatus (ih ?_ (nextFrame_of_seen hd hstatus) ho')).symm
      exact fun call' hc => hclean call' (List.mem_cons_of_mem call hc)

/-- **Every cut into reads of at least one byte and at most a maximal frame is a run.** -/
theorem serviceCalls_isSome (calls : List (List ReadResult)) : ∀ {c : IpcClient} (s : σ),
    (∀ call ∈ calls, ∀ chunk, .data chunk ∈ call → chunk ≠ [] ∧ chunk.length ≤ 4 + 65536) →
    nextFrame c.valid = .more → ∃ o, serviceCalls handle calls c s = some o := by
  induction calls with
  | nil => exact fun s _ _ => ⟨_, rfl⟩
  | cons call calls ih =>
    intro c s hchunks hmore
    obtain ⟨d, hd, hnext⟩ : ∃ d, serviceClient handle call c s = some d ∧ _ :=
      serviceClient_isSome call s (hchunks call (List.mem_cons_self ..)) hmore
    rcases hstatus : d.status with reason | c'
    · exact ⟨d, by simp only [serviceCalls, hd, hstatus]⟩
    · obtain ⟨o, ho⟩ := ih d.state (fun call' hc => hchunks call' (List.mem_cons_of_mem call hc))
        (hnext c' hstatus)
      exact ⟨o.after d.items, by simp only [serviceCalls, hd, hstatus, ho, Option.map_some]⟩

/-- The reference parser ends for a bad length or at the handler's wish. -/
theorem parseAll_error {stream : Bytes} {s : σ} {r : CloseReason}
    (h : (parseAll ipcFraming (refHandle handle) stream s).status = .error r) :
    r = .zeroPrefix ∨ r = .oversizedPrefix ∨ r = .byHandler := by
  induction hn : stream.length using Nat.strongRecOn generalizing stream s with
  | ind n ih =>
    cases hnext : ipcFraming.next stream with
    | more =>
      rw [parseAll_more hnext] at h
      exact absurd h (by simp)
    | fail r' =>
      rw [parseAll_fail hnext] at h
      obtain rfl := Except.error.inj h
      obtain ⟨-, ⟨-, rfl⟩ | ⟨-, rfl⟩⟩ := nextFrame_eq_fail_iff.mp hnext
      · exact Or.inl rfl
      · exact Or.inr (Or.inl rfl)
    | item p rest =>
      rcases hh : refHandle handle s p with ⟨s', _ | r'⟩
      · rw [parseAll_item hnext hh] at h
        exact ih rest.length (hn ▸ ipcFraming.item_lt hnext) h rfl
      · rw [parseAll_stop hnext hh] at h
        obtain rfl := Except.error.inj h
        rw [refHandle] at hh
        have hsome := congrArg Prod.snd hh
        split_ifs at hsome
        exact Or.inr (Or.inr (Option.some.inj hsome).symm)

end Refinement

/-- **Framing is independent of fragmentation.** For every handler and every way the kernel
cuts the stream of a connection into reads, the payloads handed to the handler, the state
they lead to, the reason for closing and the bytes left in the buffer are those of the
reference parser on the whole stream; the buffer is never full without a frame; and the
frames handed out, followed by what is left, are the stream. -/
theorem framing_independent {σ : Type} (handle : σ → Bytes → σ × Bool) (s : σ)
    (calls : List (List ReadResult))
    (hclean : ∀ call ∈ calls, ∀ r ∈ call, r ≠ .endOfFile ∧ r ≠ .failed)
    (o : Outcome σ Bytes CloseReason IpcClient)
    (h : serviceCalls handle calls .fresh s = some o) :
    seen o = parseAll ipcFraming (refHandle handle) (calls.flatMap delivered) s ∧
      o.status ≠ .error .bufferFull ∧
      ∃ tail, calls.flatMap delivered = o.items.flatMap frameBytes ++ tail ∧
        ∀ c, o.status = .ok c → tail = c.valid := by
  have hmore : nextFrame IpcClient.fresh.valid = .more := rfl
  have hseen := serviceCalls_eq calls hclean hmore h
  rw [show IpcClient.fresh.valid = [] from rfl, List.nil_append] at hseen
  refine ⟨hseen, fun hfull => ?_, ?_⟩
  · have herr : (seen o).status = .error .bufferFull := by
      rw [seen, hfull]
      rfl
    rw [hseen] at herr
    rcases parseAll_error herr with hr | hr | hr
    · exact absurd hr (by simp)
    · exact absurd hr (by simp)
    · exact absurd hr (by simp)
  · obtain ⟨tail, htail, hrest⟩ : ∃ tail, calls.flatMap delivered =
        (parseAll ipcFraming (refHandle handle) _ s).items.flatMap frameBytes ++ tail ∧ _ :=
      items_append_rest (fun hitem => eq_frameBytes_append hitem) (calls.flatMap delivered) s
    rw [← hseen] at htail hrest
    refine ⟨tail, htail, fun c hc => hrest c.valid ?_⟩
    rw [seen, hc]
    rfl

/-- A frame whose header is cut in two, with the start of the next behind it. -/
theorem framing_independent_split :
    ∃ o, serviceCalls (fun (_ : Unit) _ => ((), true))
        [[.data [0, 0], .wouldBlock], [.interrupted, .data [0, 1, 7, 0]]] .fresh () = some o ∧
      seen o = ⟨(), [[7]], .ok [0]⟩ := by
  obtain ⟨o, ho⟩ : ∃ o, serviceCalls (fun (_ : Unit) _ => ((), true))
      [[.data [0, 0], .wouldBlock], [.interrupted, .data [0, 1, 7, 0]]] .fresh () = some o :=
    serviceCalls_isSome _ () (by simp) rfl
  exact ⟨o, ho, (framing_independent _ () _ (by simp) o ho).1.trans rfl⟩

end AgentxSubagent
