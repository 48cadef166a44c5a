import AgentxSubagent.Lib.PrefixScan
import AgentxSubagent.Storage.Lmdb

/-!
# Iteration over the keys with a given front

The iterator of `src/storage_lmdb.c`: `storage_iter_open` takes a snapshot and a cursor,
`storage_iter_next` positions the cursor on the first key not below the front and then moves
it forward, until a key no longer has the front.

What an iterator still has to return is `AgentxSubagent.StorageIter.pending`. A fresh one has
all the keys of the snapshot with the front, in order
(`AgentxSubagent.pending_of_storageIterOpen`), and each call takes one of them off
(`AgentxSubagent.storageIterNext_of_pending_cons`,
`AgentxSubagent.storageIterNext_of_pending_nil`). Where calls may fail, what is returned was still
pending.

The last section is the iteration as its caller sees it, with the two places `storage_iter_next`
writes the key to: `AgentxSubagent.prefix_iteration_exact`.
-/

namespace AgentxSubagent

/-! ### Cursors -/

/-- A cursor over a snapshot: the keys of the snapshot in order, and those after the key it
stands on. A cursor that was never positioned stands on no key. -/
structure MdbCursor where
  keys : List Bytes
  rest : Option (List Bytes)

/-- The cursor operations the iterator uses. -/
inductive CursorOp
  | first
  | setRange (key : Bytes)
  | next

/-- `mdb_cursor_get`. A failed call leaves the cursor where it was; `MDB_NEXT` on a cursor
that was never positioned is `MDB_FIRST`. -/
def mdbCursorGet (fault : Option MdbErr) (c : MdbCursor) (op : CursorOp) :
    Except MdbErr Bytes × MdbCursor :=
  match fault with
  | some err => (.error err, c)
  | none =>
    let ahead :=
      match op with
      | .first => c.keys
      | .setRange key => c.keys.dropWhile fun k => compare k key == .lt
      | .next => c.rest.getD c.keys
    match ahead with
    | [] => (.error .notFound, c)
    | k :: rest => (.ok k, { c with rest := some rest })

/-! ### The iterator -/

/-- Which of the calls of a scan fail: an allocation, beginning the transaction, opening the
cursor, or the cursor call of a given number. -/
structure IterFault where
  nomem : Bool
  atBegin : Option MdbErr
  atCursorOpen : Option MdbErr
  atNext : ℕ → Option MdbErr

/-- Nothing fails. -/
def IterFault.none : IterFault := ⟨false, Option.none, Option.none, fun _ => Option.none⟩

/-- `storage_iter_t`. -/
structure StorageIter where
  txn : MdbTxn
  cursor : MdbCursor
  pfx : Bytes
  started : Bool
  exhausted : Bool

/-- `storage_iter_open`. -/
def storageIterOpen (f : IterFault) (e : MdbEnv) (pfx : Bytes) : Except StorageErr StorageIter :=
  if pfx.length > storageKeyMax then .error .tooBig
  else if f.nomem then .error .io
  else
    match beginReadTxn { Fault.none with atBegin := f.atBegin } e with
    | .error rc => .error rc
    | .ok (txn, _) =>
      match f.atCursorOpen with
      | some err => .error (mapMdbRc err)
      | none => .ok ⟨txn, ⟨txn.view.keys, none⟩, pfx, false, false⟩

/-- The cursor operation of the next call. -/
def StorageIter.op (it : StorageIter) : CursorOp :=
  if !it.started then
    if it.pfx.length > 0 then .setRange it.pfx else .first
  else .next

/-- `storage_iter_next`. Only the end of the range is remembered as the end. -/
def storageIterNext (fault : Option MdbErr) (it : StorageIter) :
    Except StorageErr Bytes × StorageIter :=
  if it.exhausted then (.error .notFound, it)
  else
    match mdbCursorGet fault it.cursor it.op with
    | (.error err, c) =>
      let rc := mapMdbRc err
      (.error rc, { it with cursor := c, started := true, exhausted := rc == .notFound })
    | (.ok key, c) =>
      if it.pfx.length > 0 ∧ (key.length < it.pfx.length ∨ key.take it.pfx.length ≠ it.pfx) then
        (.error .notFound, { it with cursor := c, started := true, exhausted := true })
      else (.ok key, { it with cursor := c, started := true })

/-! ### What is left to return -/

/-- The keys the cursor is about to move over. -/
def StorageIter.ahead (it : StorageIter) : List Bytes :=
  if it.started then it.cursor.rest.getD it.cursor.keys
  else it.cursor.keys.dropWhile fun k => compare k it.pfx == .lt

/-- **The keys the iterator still has to return.** -/
def StorageIter.pending (it : StorageIter) : List Bytes :=
  if it.exhausted then [] else it.ahead.takeWhile fun k => decide (it.pfx <+: k)

/-- The front test of the code, on the length and then on the bytes. -/
theorem front_test_iff (pfx key : Bytes) :
    (pfx.length > 0 ∧ (key.length < pfx.length ∨ key.take pfx.length ≠ pfx)) ↔ ¬pfx <+: key := by
  have htake : pfx <+: key ↔ key.take pfx.length = pfx := by
    rw [List.prefix_iff_eq_take]
    exact eq_comm
  rw [htake]
  constructor
  · rintro ⟨_, hlen | hne⟩
    · intro heq
      have := congrArg List.length heq
      rw [List.length_take] at this
      omega
    · exact hne
  · intro hne
    refine ⟨?_, Or.inr hne⟩
    rcases pfx with _ | ⟨x, pfx⟩
    · exact absurd rfl hne
    · simp

/-- A call in which nothing fails moves the cursor over the first key ahead. -/
theorem mdbCursorGet_op (it : StorageIter) :
    mdbCursorGet none it.cursor it.op =
      match it.ahead with
      | [] => (.error .notFound, it.cursor)
      | k :: rest => (.ok k, { it.cursor with rest := some rest }) := by
  obtain ⟨txn, cursor, pfx, started, exhausted⟩ := it
  cases started with
  | true => rfl
  | false =>
    rcases pfx with _ | ⟨x, pfx⟩
    · -- `MDB_FIRST`: no key is below the empty front
      have hall : cursor.keys.dropWhile (fun k => compare k ([] : Bytes) == .lt) =
          cursor.keys := by
        rcases cursor.keys with _ | ⟨k, keys⟩
        · rfl
        · have hk : (compare k ([] : Bytes) == .lt) = false := by
            cases k <;> simp
          rw [List.dropWhile_cons, hk]
          rfl
      simp only [StorageIter.ahead, Bool.false_eq_true, if_false, hall]
      rfl
    · rfl

/-- **A call takes the first pending key.** -/
theorem storageIterNext_of_pending_cons {it : StorageIter} {k : Bytes} {ks : List Bytes}
    (h : it.pending = k :: ks) :
    ∃ it', storageIterNext none it = (.ok k, it') ∧ it'.pending = ks := by
  have hex : it.exhausted = false := by
    rcases hx : it.exhausted with _ | _
    · rfl
    · rw [StorageIter.pending, hx] at h
      exact absurd h (by simp)
  rw [StorageIter.pending, if_neg (by simp [hex])] at h
  rcases ha : it.ahead with _ | ⟨a, rest⟩
  · rw [ha] at h
    exact absurd h (by simp)
  rw [ha, List.takeWhile_cons] at h
  split_ifs at h with hp
  obtain ⟨rfl, rfl⟩ := List.cons.inj h
  refine ⟨{ it with cursor := { it.cursor with rest := some rest }, started := true }, ?_, ?_⟩
  · rw [storageIterNext, if_neg (by simp [hex]), mdbCursorGet_op, ha]
    simp only
    rw [if_neg]
    rw [front_test_iff]
    exact not_not_intro (by simpa using hp)
  · rw [StorageIter.pending, if_neg (by simp [hex])]
    rfl

/-- **Without a pending key a call reports the end.** -/
theorem storageIterNext_of_pending_nil {it : StorageIter} (h : it.pending = []) :
    ∃ it', storageIterNext none it = (.error .notFound, it') ∧ it'.pending = [] := by
  rcases hex : it.exhausted with _ | _
  · rw [StorageIter.pending, if_neg (by simp [hex])] at h
    rcases ha : it.ahead with _ | ⟨a, rest⟩
    · refine ⟨{ it with started := true, exhausted := true }, ?_, rfl⟩
      rw [storageIterNext, if_neg (by simp [hex]), mdbCursorGet_op, ha]
      rfl
    · rw [ha, List.takeWhile_cons] at h
      split_ifs at h with hp
      refine ⟨{ it with
        cursor := { it.cursor with rest := some rest }
        started := true
        exhausted := true }, ?_, rfl⟩
      rw [storageIterNext, if_neg (by simp [hex]), mdbCursorGet_op, ha]
      simp only
      rw [if_pos ((front_test_iff _ _).mpr (by simpa using hp))]
  · exact ⟨it, by rw [storageIterNext, if_pos hex], h⟩

/-- **A key that is returned was pending**, whatever may fail. -/
theorem pending_of_storageIterNext_ok {fault : Option MdbErr} {it it' : StorageIter} {k : Bytes}
    (h : storageIterNext fault it = (.ok k, it')) : it.pending = k :: it'.pending := by
  rcases fault with _ | err
  · rcases hp : it.pending with _ | ⟨k', ks⟩
    · obtain ⟨it'', hnext, -⟩ := storageIterNext_of_pending_nil hp
      rw [hnext] at h
      exact absurd (congrArg Prod.fst h) (by simp)
    · obtain ⟨it'', hnext, hks⟩ := storageIterNext_of_pending_cons hp
      rw [hnext] at h
      obtain ⟨hk, rfl⟩ := Prod.mk.inj h
      rw [Except.ok.inj hk, hks]
  · rw [storageIterNext] at h
    split_ifs at h
    · exact absurd (congrArg Prod.fst h) (by simp)
    · exact absurd (congrArg Prod.fst h) (by simp [mdbCursorGet])

/-- The iterator `storage_iter_open` makes. -/
def StorageIter.fresh (e : MdbEnv) (pfx : Bytes) : StorageIter :=
  ⟨⟨true, e.committed⟩, ⟨e.committed.keys, none⟩, pfx, false, false⟩

/-- **A fresh iterator has all the keys with the front, in order.** -/
theorem pending_fresh (e : MdbEnv) (pfx : Bytes) :
    (StorageIter.fresh e pfx).pending =
      e.committed.keys.filter fun k => decide (pfx <+: k) :=
  PrefixScan.scan_eq_filter Std.ExtTreeMap.ordered_keys

/-- Nothing failing, a front of at most 255 bytes gives a fresh iterator. -/
theorem pending_of_storageIterOpen (e : MdbEnv) {pfx : Bytes} (h : pfx.length ≤ 255) :
    ∃ it, storageIterOpen .none e pfx = .ok it ∧ it.cursor.keys = e.committed.keys ∧
      it.pending = e.committed.keys.filter fun k => decide (pfx <+: k) := by
  refine ⟨.fresh e pfx, ?_, rfl, pending_fresh e pfx⟩
  rw [storageIterOpen, if_neg (by rw [storageKeyMax]; omega)]
  rfl

/-- An iterator that could be opened, whatever else may fail, is the fresh one. -/
theorem storageIterOpen_eq_ok {f : IterFault} {e : MdbEnv} {pfx : Bytes} {it : StorageIter}
    (h : storageIterOpen f e pfx = .ok it) :
    it = .fresh e pfx := by
  obtain ⟨nomem, atBegin, atCursorOpen, atNext⟩ := f
  rw [storageIterOpen] at h
  split_ifs at h
  rcases atBegin with _ | err
  · rcases atCursorOpen with _ | err
    · exact (Except.ok.inj h).symm
    · exact absurd h (by simp [beginReadTxn, mdbTxnBegin, Except.mapError])
  · exact absurd h (by simp [beginReadTxn, mdbTxnBegin, Except.mapError])

theorem pending_of_storageIterOpen_ok {f : IterFault} {e : MdbEnv} {pfx : Bytes}
    {it : StorageIter} (h : storageIterOpen f e pfx = .ok it) :
    it.pending = e.committed.keys.filter fun k => decide (pfx <+: k) := by
  rw [storageIterOpen_eq_ok h, pending_fresh]

/-! ### Whole iterations -/

/-- What the caller's `*key` and `*keylen` hold: the bytes pointed at, or `NULL`, and a length. -/
structure KeyOut where
  key : Option Bytes
  keylen : ℕ
  deriving DecidableEq

/-- Both after a key was returned. -/
def KeyOut.ofKey (key : Bytes) : KeyOut := ⟨some key, key.length⟩

/-- `storage_iter_open` with a front that may be `NULL`. -/
def storageIterOpenPtr (f : IterFault) (e : MdbEnv) (pfx : Option Bytes) :
    Except StorageErr StorageIter :=
  storageIterOpen f e (pfx.getD [])

/-- `storage_iter_next` with the two places it writes the key to. -/
def storageIterNextInto (fault : Option MdbErr) (it : StorageIter) (out : KeyOut) :
    Except StorageErr Unit × KeyOut × StorageIter :=
  if it.exhausted then (.error .notFound, out, it)
  else
    match mdbCursorGet fault it.cursor it.op with
    | (.error err, c) =>
      let rc := mapMdbRc err
      (.error rc, out, { it with cursor := c, started := true, exhausted := rc == .notFound })
    | (.ok key, c) =>
      if it.pfx.length > 0 ∧ (key.length < it.pfx.length ∨ key.take it.pfx.length ≠ it.pfx) then
        (.error .notFound, out, { it with cursor := c, started := true, exhausted := true })
      else (.ok (), ⟨some key, key.length⟩, { it with cursor := c, started := true })

/-- The key is written where one is returned, and nothing is written otherwise. -/
theorem storageIterNextInto_eq (fault : Option MdbErr) (it : StorageIter) (out : KeyOut) :
    storageIterNextInto fault it out =
      match storageIterNext fault it with
      | (.error rc, it') => (.error rc, out, it')
      | (.ok key, it') => (.ok (), .ofKey key, it') := by
  rw [storageIterNextInto, storageIterNext]
  split_ifs with hex
  · rfl
  rcases mdbCursorGet fault it.cursor it.op with ⟨err | key, c⟩
  · rfl
  · simp only
    split_ifs
    · rfl
    · rfl

/-- The answers to `n` calls of `storage_iter_next`, each with what the two places hold after
it. -/
def iterCalls : ℕ → StorageIter → KeyOut → List (Except StorageErr Unit × KeyOut)
  | 0, _, _ => []
  | n + 1, it, out =>
    let r := storageIterNextInto none it out
    (r.1, r.2.1) :: iterCalls n r.2.2 r.2.1

/-- **Calls return the pending keys in order**, and then report the end and write nothing. -/
theorem iterCalls_eq (n : ℕ) : ∀ (it : StorageIter) (out : KeyOut) (ks : List Bytes),
    it.pending = ks → iterCalls n it out =
      (ks.take n).map (fun k => (.ok (), .ofKey k)) ++
        List.replicate (n - ks.length) (.error .notFound, (ks.map KeyOut.ofKey).getLastD out) := by
  induction n with
  | zero =>
    intro it out ks _
    simp [iterCalls]
  | succ n ih =>
    intro it out ks hpend
    rw [iterCalls, storageIterNextInto_eq]
    rcases ks with _ | ⟨k, ks⟩
    · obtain ⟨it', hnext, hpend'⟩ := storageIterNext_of_pending_nil hpend
      rw [hnext]
      simp only
      rw [ih it' out [] hpend']
      simp [List.replicate_succ]
    · obtain ⟨it', hnext, hpend'⟩ := storageIterNext_of_pending_cons hpend
      rw [hnext]
      simp only
      rw [ih it' (.ofKey k) ks hpend', List.map_cons, List.getLastD_cons, List.take_succ_cons,
        List.length_cons, Nat.add_sub_add_right, List.map_cons, List.cons_append]

/-- **Prefix iteration is exact.** Whatever the environment holds and whatever the front of at most
255 bytes, `NULL` being the empty one, nothing failing: the calls of `storage_iter_next` on a fresh
iterator return the keys that have the front, each once, in strictly increasing order and with
their bytes and length; every later call answers `STORAGE_ERR_NOTFOUND`, and what was written for
the last key, or before the first call, stays. -/
theorem prefix_iteration_exact (e : MdbEnv) (pfx : Option Bytes)
    (hlen : (pfx.getD []).length ≤ 255) (out : KeyOut) :
    ∃ (it : StorageIter) (ks : List Bytes), storageIterOpenPtr .none e pfx = .ok it ∧
      ks.Pairwise (fun a b => compare a b = .lt) ∧
      (∀ k, k ∈ ks ↔ k ∈ e.committed ∧ pfx.getD [] <+: k) ∧
      (∀ k ∈ ks, (pfx.getD []).length ≤ k.length) ∧
      ∀ n, iterCalls n it out =
        (ks.take n).map (fun k => (.ok (), ⟨some k, k.length⟩)) ++
          List.replicate (n - ks.length)
            (.error .notFound, (ks.map fun k => (⟨some k, k.length⟩ : KeyOut)).getLastD out) := by
  obtain ⟨it, hopen, -, hpend⟩ := pending_of_storageIterOpen e hlen
  refine ⟨it, _, hopen, Std.ExtTreeMap.ordered_keys.filter _, fun k => ?_, fun k hk => ?_,
    fun n => iterCalls_eq n it out _ hpend⟩
  · rw [List.mem_filter, Std.ExtTreeMap.mem_keys, decide_eq_true_iff]
  · have hpfx : pfx.getD [] <+: k := of_decide_eq_true (List.mem_filter.mp hk).2
    exact hpfx.length_le

/-- An environment with a key equal to the front, one that goes on above the ASCII range, a shorter
one and one that differs. -/
def fourKeys : MdbEnv :=
  .idle (((((∅ : Lmdb).insert [112] []).insert [112, 46] []).insert [112, 46, 200] []).insert
    [113, 46] [])

/-- The two that have the front are returned, and the call after them is the end. -/
theorem prefix_iteration_fourKeys :
    ∃ (it : StorageIter) (ks : List Bytes),
      storageIterOpenPtr .none fourKeys (some [112, 46]) = .ok it ∧ [112, 46] ∈ ks ∧
      [112, 46, 200] ∈ ks ∧ [112] ∉ ks ∧ [113, 46] ∉ ks ∧
      iterCalls (ks.length + 1) it ⟨none, 0⟩ = ks.map (fun k => (.ok (), ⟨some k, k.length⟩)) ++
        [(.error .notFound, (ks.map fun k => (⟨some k, k.length⟩ : KeyOut)).getLastD ⟨none, 0⟩)] := by
  obtain ⟨it, ks, hopen, -, hmem, -, hcalls⟩ :=
    prefix_iteration_exact fourKeys (some [112, 46]) (by decide) ⟨none, 0⟩
  refine ⟨it, ks, hopen, (hmem _).mpr (by decide), (hmem _).mpr (by decide),
    fun h => absurd ((hmem _).mp h) (by decide), fun h => absurd ((hmem _).mp h) (by decide), ?_⟩
  rw [hcalls, List.take_of_length_le (Nat.le_succ _), Nat.add_sub_cancel_left]
  rfl

end AgentxSubagent
