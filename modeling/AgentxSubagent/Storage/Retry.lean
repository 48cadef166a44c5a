import AgentxSubagent.Storage.Iter

/-!
# Scans that are retried

A caller of `storage_iter_next` may go on after an error: only `STORAGE_ERR_NOTFOUND` is said to be
final, any other code means that the scan failed. What such a caller relies on is that
`STORAGE_ERR_NOTFOUND` is never a failure in disguise (`AgentxSubagent.EndIsTrue`): before it, every
key with the front has been returned.

The iterator remembers that it was started, and not whether the cursor was positioned. The two
differ after a failure of the very first cursor call, which is the one that looks for the front:
the next call goes on from the first key of the environment.

* `AgentxSubagent.pending_started`: once started, a scan that fails loses nothing;
* `AgentxSubagent.scan_end_true_iff`: the end that is reported is the end, except when the first
  cursor call failed, some later one did not, and there are keys with the front and keys below it.
-/

namespace AgentxSubagent

/-- The answers to calls of `storage_iter_next`; each call is given with what its
`mdb_cursor_get` fails with, if it does. -/
def iterAnswers : List (Option MdbErr) → StorageIter → List (Except StorageErr Bytes)
  | [], _ => []
  | fault :: faults, it =>
    let r := storageIterNext fault it
    r.1 :: iterAnswers faults r.2

/-- **The end that is reported is the end**: before an answer `STORAGE_ERR_NOTFOUND`, every key
with the front was returned. -/
def EndIsTrue (e : MdbEnv) (pfx : Bytes) (answers : List (Except StorageErr Bytes)) : Prop :=
  ∀ i, answers[i]? = some (.error .notFound) →
    ∀ k ∈ e.committed, pfx <+: k → .ok k ∈ answers.take i

/-- **The search for the front was lost**: the first cursor call failed and a later one did not,
and the environment has keys with the front and keys below it. -/
structure FrontLost (e : MdbEnv) (pfx : Bytes) (faults : List (Option MdbErr)) : Prop where
  first : ∃ err, faults.head? = some (some err)
  later : none ∈ faults.tail
  within : ∃ k ∈ e.committed, pfx <+: k
  below : ∃ k ∈ e.committed, compare k pfx = .lt

/-! ### One call -/

/-- A failed cursor call leaves an iterator that is started, and otherwise as it was. -/
theorem storageIterNext_failed {it : StorageIter} (hex : it.exhausted = false) {err : MdbErr}
    (herr : err ≠ .notFound) :
    storageIterNext (some err) it = (.error (mapMdbRc err), { it with started := true }) := by
  have hrc : (mapMdbRc err == .notFound) = false :=
    beq_eq_false_iff_ne.mpr fun h => herr (mapMdbRc_eq_notFound_iff.mp h)
  rw [storageIterNext, if_neg (by simp [hex])]
  simp only [mdbCursorGet, hrc, hex]

theorem iterAnswers_failed {it : StorageIter} (hex : it.exhausted = false) {err : MdbErr}
    (herr : err ≠ .notFound) (faults : List (Option MdbErr)) :
    iterAnswers (some err :: faults) it =
      .error (mapMdbRc err) :: iterAnswers faults { it with started := true } := by
  rw [iterAnswers, storageIterNext_failed hex herr]

/-- A call that asks the cursor leaves an iterator that is started. -/
theorem started_storageIterNext (fault : Option MdbErr) {it : StorageIter}
    (hex : it.exhausted = false) : (storageIterNext fault it).2.started = true := by
  rw [storageIterNext, if_neg (by simp [hex])]
  split
  · rfl
  · split_ifs <;> rfl

/-- **What a call can do**, a failure not being `MDB_NOTFOUND`: it returns the first pending key,
it reports the end when there is none, or it fails and moves nothing. -/
theorem storageIterNext_cases {fault : Option MdbErr} (hf : fault ≠ some .notFound)
    (it : StorageIter) :
    (∃ k it', storageIterNext fault it = (.ok k, it') ∧ it.pending = k :: it'.pending ∧
        it'.started = true) ∨
      (∃ it', storageIterNext fault it = (.error .notFound, it') ∧ it.pending = [] ∧
        it'.pending = [] ∧ (it.started = true → it'.started = true)) ∨
      ∃ err, fault = some err ∧ err ≠ .notFound ∧
        storageIterNext fault it = (.error (mapMdbRc err), { it with started := true }) := by
  rcases Bool.eq_false_or_eq_true it.exhausted with hex | hex
  · have hp : it.pending = [] := by rw [StorageIter.pending, if_pos hex]
    exact Or.inr (Or.inl ⟨it, by rw [storageIterNext, if_pos hex], hp, hp, id⟩)
  · have hst := started_storageIterNext fault hex
    rcases fault with _ | err
    · rcases hp : it.pending with _ | ⟨k, ks⟩
      · obtain ⟨it', hnext, hpend⟩ := storageIterNext_of_pending_nil hp
        rw [hnext] at hst
        exact Or.inr (Or.inl ⟨it', hnext, rfl, hpend, fun _ => hst⟩)
      · obtain ⟨it', hnext, hpend⟩ := storageIterNext_of_pending_cons hp
        rw [hnext] at hst
        exact Or.inl ⟨k, it', hnext, by rw [hpend], hst⟩
    · have herr : err ≠ .notFound := fun h => hf (congrArg some h)
      exact Or.inr (Or.inr ⟨err, rfl, herr, storageIterNext_failed hex herr⟩)

/-- **Once started, a scan that fails loses nothing.** -/
theorem pending_started {it : StorageIter} (h : it.started = true) :
    ({ it with started := true } : StorageIter).pending = it.pending := by
  rw [← h]

/-! ### Whole scans -/

/-- **The end is true unless the first cursor call fails**: when it is reported, all that was
pending has been returned. -/
theorem mem_take_of_notFound : ∀ {faults : List (Option MdbErr)} {it : StorageIter},
    (it.started = true ∨ ∀ err, faults.head? ≠ some (some err)) → some .notFound ∉ faults →
    ∀ i, (iterAnswers faults it)[i]? = some (.error .notFound) →
      ∀ k ∈ it.pending, .ok k ∈ (iterAnswers faults it).take i
  | [], _, _, _, i, hi, _, _ => by simp [iterAnswers] at hi
  | fault :: faults, it, hst, hreal, i, hi, k, hk => by
    obtain ⟨hf, hreal'⟩ := List.ne_and_not_mem_of_not_mem_cons hreal
    rw [iterAnswers] at hi ⊢
    obtain ⟨k', it', hnext, hpend, hst'⟩ | ⟨it', hnext, hpend, -⟩ | ⟨err, rfl, herr, hnext⟩ :=
      storageIterNext_cases (Ne.symm hf) it
    · rw [hnext] at hi ⊢
      rw [hpend] at hk
      -- the end is not this answer, so this answer is among those before it
      rcases i with _ | i
      · simp at hi
      · rw [List.take_succ_cons, List.mem_cons]
        obtain rfl | hk := List.mem_cons.mp hk
        · exact Or.inl rfl
        · exact Or.inr (mem_take_of_notFound (Or.inl hst') hreal' i hi k hk)
    · rw [hpend] at hk
      exact absurd hk List.not_mem_nil
    · have hst : it.started = true := hst.resolve_right fun h => h err rfl
      rw [hnext] at hi ⊢
      rw [← pending_started hst] at hk
      rcases i with _ | i
      · have hrc : mapMdbRc err = .notFound := by simpa using hi
        exact absurd (mapMdbRc_eq_notFound_iff.mp hrc) herr
      · rw [List.take_succ_cons]
        exact List.mem_cons_of_mem _ (mem_take_of_notFound (Or.inl rfl) hreal' i hi k hk)

/-- **A started iterator with nothing pending** returns no key, and reports the end at the first
call that does not fail. -/
theorem answers_of_pending_nil : ∀ {faults : List (Option MdbErr)} {it : StorageIter},
    it.started = true → some .notFound ∉ faults → it.pending = [] →
    (∀ k, .ok k ∉ iterAnswers faults it) ∧
      (none ∈ faults → .error .notFound ∈ iterAnswers faults it)
  | [], _, _, _, _ => ⟨fun _ => List.not_mem_nil, fun h => absurd h List.not_mem_nil⟩
  | fault :: faults, it, hst, hreal, hpend => by
    obtain ⟨hf, hreal'⟩ := List.ne_and_not_mem_of_not_mem_cons hreal
    obtain ⟨k', it', -, hcons, -⟩ | ⟨it', hnext, -, hpend', hst'⟩ | ⟨err, rfl, -, hnext⟩ :=
      storageIterNext_cases (Ne.symm hf) it
    · rw [hpend] at hcons
      exact absurd hcons (by simp)
    · obtain ⟨hno, -⟩ := answers_of_pending_nil (hst' hst) hreal' hpend'
      rw [iterAnswers, hnext]
      exact ⟨fun k => by simpa using hno k, fun _ => List.mem_cons_self⟩
    · have hpend' : ({ it with started := true } : StorageIter).pending = [] := by
        rw [pending_started hst, hpend]
      obtain ⟨hno, hend⟩ := answers_of_pending_nil rfl hreal' hpend'
      rw [iterAnswers, hnext]
      refine ⟨fun k => by simpa using hno k, fun h => ?_⟩
      have hlater : none ∈ faults := by simpa using h
      exact List.mem_cons_of_mem _ (hend hlater)

/-- As long as every call fails, the end is not reported. -/
theorem notFound_notMem_of_failing : ∀ {faults : List (Option MdbErr)} {it : StorageIter},
    it.exhausted = false → some .notFound ∉ faults → none ∉ faults →
    .error .notFound ∉ iterAnswers faults it
  | [], _, _, _, _ => List.not_mem_nil
  | none :: _, _, _, _, hall => absurd List.mem_cons_self hall
  | some err :: faults, it, hex, hreal, hall => by
    have herr : err ≠ .notFound := fun h => hreal (by simp [h])
    rw [iterAnswers_failed hex herr, List.mem_cons]
    rintro (h | h)
    · have hrc : mapMdbRc err = .notFound := by simpa using h.symm
      exact herr (mapMdbRc_eq_notFound_iff.mp hrc)
    · exact notFound_notMem_of_failing (by exact hex) (List.not_mem_of_not_mem_cons hreal)
        (List.not_mem_of_not_mem_cons hall) h

/-! ### Scans from the beginning -/

/-- What is pending after the first cursor call failed: the keys with the front that the
environment starts with. -/
theorem pending_frontLost (e : MdbEnv) (pfx : Bytes) :
    ({ StorageIter.fresh e pfx with started := true } : StorageIter).pending =
      e.committed.keys.takeWhile fun k => decide (pfx <+: k) :=
  rfl

/-- These are all of them when no key is below the front. -/
theorem takeWhile_of_not_below {e : MdbEnv} {pfx : Bytes}
    (h : ∀ k ∈ e.committed, compare k pfx ≠ .lt) :
    e.committed.keys.takeWhile (fun k => decide (pfx <+: k)) =
      e.committed.keys.filter fun k => decide (pfx <+: k) :=
  PrefixScan.takeWhile_eq_filter Std.ExtTreeMap.ordered_keys fun k hk =>
    h k (Std.ExtTreeMap.mem_keys.mp hk)

/-- And there are none when one is. -/
theorem takeWhile_of_below {e : MdbEnv} {pfx : Bytes}
    (h : ∃ k ∈ e.committed, compare k pfx = .lt) :
    e.committed.keys.takeWhile (fun k => decide (pfx <+: k)) = [] := by
  obtain ⟨k, hk, hlt⟩ := h
  have hk' : k ∈ e.committed.keys := Std.ExtTreeMap.mem_keys.mpr hk
  have hsorted : e.committed.keys.Pairwise fun a b => compare a b = .lt :=
    Std.ExtTreeMap.ordered_keys
  rcases hkeys : e.committed.keys with _ | ⟨a, keys⟩
  · rfl
  · rw [hkeys] at hk' hsorted
    -- the least key is below the front as well
    have ha : compare a pfx = .lt := by
      obtain rfl | hmem := List.mem_cons.mp hk'
      · exact hlt
      · exact Std.TransCmp.lt_trans ((List.pairwise_cons.mp hsorted).1 k hmem) hlt
    have hnot : ¬pfx <+: a := fun hp => PrefixScan.not_lt_of_isPrefix hp ha
    rw [List.takeWhile_cons, if_neg (by simpa using hnot)]

/-- The keys with the front, as the scan meets them. -/
theorem mem_filter_front {e : MdbEnv} {pfx k : Bytes} (hk : k ∈ e.committed) (hp : pfx <+: k) :
    k ∈ e.committed.keys.filter fun k => decide (pfx <+: k) :=
  List.mem_filter.mpr ⟨Std.ExtTreeMap.mem_keys.mpr hk, decide_eq_true hp⟩

/-- A search for the front that fails leaves an iterator that reports the end too early. -/
theorem not_endIsTrue_of_frontLost {e : MdbEnv} {pfx : Bytes} {faults : List (Option MdbErr)}
    (hreal : some .notFound ∉ faults) (h : FrontLost e pfx faults) :
    ¬EndIsTrue e pfx (iterAnswers faults (.fresh e pfx)) := by
  obtain ⟨⟨err, hfirst⟩, hlater, ⟨k, hk, hpk⟩, hbelow⟩ := h
  obtain ⟨faults, rfl⟩ : ∃ rest, faults = some err :: rest :=
    ⟨faults.tail, (List.cons_head?_tail (Option.mem_def.mpr hfirst)).symm⟩
  have herr : err ≠ .notFound := fun h => hreal (by simp [h])
  rw [iterAnswers_failed rfl herr]
  -- the next call goes on from the first key of the environment, which is below the front
  obtain ⟨hno, hend⟩ := answers_of_pending_nil rfl (List.not_mem_of_not_mem_cons hreal)
    ((pending_frontLost e pfx).trans (takeWhile_of_below hbelow))
  obtain ⟨i, hi⟩ := List.mem_iff_getElem?.mp (hend hlater)
  intro htrue
  have hmem := htrue (i + 1) (by simpa using hi) k hk hpk
  rw [List.take_succ_cons, List.mem_cons] at hmem
  obtain h | h := hmem
  · exact absurd h (by simp)
  · exact hno k (List.mem_of_mem_take h)

/-- **When a failed scan can be mistaken for the end.** For every environment, every front, `NULL`
being the empty one, and calls of `storage_iter_next` of which any may fail with an error other
than `MDB_NOTFOUND`: an answer `STORAGE_ERR_NOTFOUND` comes only after every key with the front was
returned, if and only if it is not the case that the first cursor call failed, a later one did not,
and there are keys with the front and keys below it. -/
theorem scan_end_true_iff (f : IterFault) (e : MdbEnv) (pfx : Option Bytes) (it : StorageIter)
    (hopen : storageIterOpenPtr f e pfx = .ok it) (faults : List (Option MdbErr))
    (hreal : some .notFound ∉ faults) :
    EndIsTrue e (pfx.getD []) (iterAnswers faults it) ↔ ¬FrontLost e (pfx.getD []) faults := by
  have hpend := pending_of_storageIterOpen_ok hopen
  obtain rfl := storageIterOpen_eq_ok hopen
  refine ⟨fun htrue hlost => not_endIsTrue_of_frontLost hreal hlost htrue,
    fun hlost i hi k hk hp => ?_⟩
  by_cases hfirst : ∀ err, faults.head? ≠ some (some err)
  · refine mem_take_of_notFound (Or.inr hfirst) hreal i hi k ?_
    rw [hpend]
    exact mem_filter_front hk hp
  · obtain ⟨err, hfirst⟩ := not_forall_not.mp hfirst
    obtain ⟨faults, rfl⟩ : ∃ rest, faults = some err :: rest :=
      ⟨faults.tail, (List.cons_head?_tail (Option.mem_def.mpr hfirst)).symm⟩
    have herr : err ≠ .notFound := fun h => hreal (by simp [h])
    have hreal' : some .notFound ∉ faults := List.not_mem_of_not_mem_cons hreal
    rw [iterAnswers_failed rfl herr] at hi ⊢
    rcases i with _ | i
    · have hrc : mapMdbRc err = .notFound := by simpa using hi
      exact absurd (mapMdbRc_eq_notFound_iff.mp hrc) herr
    rw [List.getElem?_cons_succ] at hi
    rw [List.take_succ_cons]
    refine List.mem_cons_of_mem _ ?_
    by_cases hlater : none ∈ faults
    · -- some call came through, so no key is below the front and nothing was lost
      have hbelow : ∀ k ∈ e.committed, compare k (pfx.getD []) ≠ .lt := fun a ha hlt =>
        hlost ⟨⟨err, hfirst⟩, hlater, ⟨k, hk, hp⟩, a, ha, hlt⟩
      refine mem_take_of_notFound (Or.inl rfl) hreal' i hi k ?_
      rw [pending_frontLost, takeWhile_of_not_below hbelow]
      exact mem_filter_front hk hp
    · exact absurd (List.mem_of_getElem? hi) (notFound_notMem_of_failing rfl hreal' hlater)

/-- With four keys, a cursor call that fails in the middle of the scan is not taken for the end:
both keys with the front come before it. -/
theorem scan_end_true_middle :
    ∃ it, storageIterOpenPtr .none fourKeys (some [112, 46]) = .ok it ∧
      EndIsTrue fourKeys [112, 46] (iterAnswers [none, some .other, none, none] it) := by
  refine ⟨_, rfl, (scan_end_true_iff .none fourKeys (some [112, 46]) _ rfl
    [none, some .other, none, none] (by decide)).mpr fun h => ?_⟩
  obtain ⟨err, herr⟩ := h.first
  exact absurd herr (by simp)

/-- With the same keys, a first cursor call that fails and is retried: the second call reports the
end, and neither of the two keys with the front was returned. -/
theorem scan_end_false_first :
    ∃ it, storageIterOpenPtr .none fourKeys (some [112, 46]) = .ok it ∧
      iterAnswers [some .other, none] it = [.error .io, .error .notFound] ∧
      [112, 46] ∈ fourKeys.committed ∧
      ¬EndIsTrue fourKeys [112, 46] (iterAnswers [some .other, none] it) := by
  have hans : iterAnswers [some .other, none] (.fresh fourKeys [112, 46]) =
      [.error .io, .error .notFound] := by decide
  have hmem : [112, 46] ∈ fourKeys.committed := by decide
  refine ⟨.fresh fourKeys [112, 46], rfl, hans, hmem, fun htrue => ?_⟩
  rw [hans] at htrue
  exact absurd (htrue 1 rfl [112, 46] hmem (List.prefix_refl _)) (by decide)

end AgentxSubagent
