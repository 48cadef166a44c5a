import AgentxSubagent.Lib.Decimal
import AgentxSubagent.Storage.Lmdb

/-!
# Row instances and cell keys

The first half of `src/table_rows.c`. A row instance is the list of its index
sub-identifiers; its text is dotted decimal, and a cell of the row is stored under the
column's name, a dot and that text.

* `AgentxSubagent.tableInstanceParse_eq_ok_iff`: the hand-written parser accepts exactly the
  canonical texts of instances of 1 to 128 sub-identifiers, and returns the instance.
* `AgentxSubagent.tableInstanceCompare_eq`: the comparator is the lexicographic order.
* `AgentxSubagent.tableCellKey_eq_ok_iff`: when a cell key is built, and
  `AgentxSubagent.cellKey_inj`: for columns without a dot it determines column and instance.
-/

namespace AgentxSubagent

open Decimal

/-- `TABLE_ROW_SUBID_MAX`. -/
def tableRowSubidMax : ℕ := 128

/-- `table_instance_t`: the sub-identifiers in use, in order. -/
abbrev TableInstance := List UInt32

/-- The canonical dotted decimal text of an instance. -/
def instanceText (inst : TableInstance) : Bytes := dotted (inst.map UInt32.toNat)

/-! ### Formatting -/

/-- The loop of `table_instance_format` at entry `i`, with `out` written so far. -/
def tableInstanceFormatLoop (buflen : ℕ) : ℕ → List UInt32 → Bytes → Except StorageErr Bytes
  | _, [], out => .ok out
  | i, subid :: rest, out =>
    let piece := (if i = 0 then [] else [46]) ++ decimal subid.toNat
    if piece.length ≥ buflen - out.length then .error .tooBig
    else tableInstanceFormatLoop buflen (i + 1) rest (out ++ piece)

/-- `table_instance_format`. -/
def tableInstanceFormat (inst : TableInstance) (buflen : ℕ) : Except StorageErr Bytes :=
  if buflen = 0 then .error .inval
  else if inst.length = 0 ∨ inst.length > tableRowSubidMax then .error .inval
  else tableInstanceFormatLoop buflen 0 inst []

/-- `table_cell_key`. -/
def tableCellKey (column : Bytes) (inst : TableInstance) (buflen : ℕ) : Except StorageErr Bytes :=
  if column.length = 0 then .error .inval
  else if column.length + 2 > buflen then .error .tooBig
  else
    match tableInstanceFormat inst (buflen - column.length - 1) with
    | .error rc => .error rc
    | .ok text =>
      let key := column ++ 46 :: text
      if key.length > storageKeyMax then .error .tooBig else .ok key

/-! ### Parsing -/

/-- The digit loop of `table_instance_parse`: the value read, the count of digits and what is
left, or `none` when the value leaves 32 bits. The accumulator has 64. -/
def readDigits : Bytes → ℕ → ℕ → Option (ℕ × ℕ × Bytes)
  | [], value, digits => some (value, digits, [])
  | b :: rest, value, digits =>
    if 48 ≤ b ∧ b ≤ 57 then
      let value := (value * 10 + (b.toNat - 48)) % 2 ^ 64
      if value > 0xFFFFFFFF then none else readDigits rest value (digits + 1)
    else some (value, digits, b :: rest)

/-- The outer loop of `table_instance_parse`, with `inst` read so far. Every turn consumes a
byte, so the length of the text bounds the turns. -/
def tableInstanceParseLoop : ℕ → Bytes → TableInstance → Except StorageErr TableInstance
  | 0, _, inst => .ok inst
  | _ + 1, [], inst => .ok inst
  | fuel + 1, b :: text, inst =>
    if inst.length = tableRowSubidMax then .error .inval
    else
      match readDigits (b :: text) 0 0 with
      | none => .error .inval
      | some (value, digits, rest) =>
        if digits = 0 then .error .inval
        else if digits > 1 ∧ b = 48 then .error .inval
        else
          let inst := inst ++ [value.toUInt32]
          match rest with
          | [] => .ok inst
          | c :: rest =>
            if c ≠ 46 then .error .inval
            else if rest = [] then .error .inval
            else tableInstanceParseLoop fuel rest inst

/-- `table_instance_parse`. -/
def tableInstanceParse (text : Bytes) : Except StorageErr TableInstance :=
  if text.length = 0 then .error .inval else tableInstanceParseLoop text.length text []

/-- **The digit loop reads the digits in front**, unless their value leaves 32 bits; the
64-bit accumulator never wraps. -/
theorem readDigits_eq (s : Bytes) : ∀ v n : ℕ, v ≤ 0xFFFFFFFF →
    readDigits s v n =
      if valueFrom v (s.takeWhile isDigit) ≤ 0xFFFFFFFF then
        some (valueFrom v (s.takeWhile isDigit), n + (s.takeWhile isDigit).length,
          s.dropWhile isDigit)
      else none := by
  induction s with
  | nil =>
    intro v n hv
    simp [readDigits, hv]
  | cons b s ih =>
    intro v n hv
    have hb := b.toNat_lt
    rw [readDigits, List.takeWhile_cons, List.dropWhile_cons]
    by_cases hdig : isDigit b = true
    · have hcond : 48 ≤ b ∧ b ≤ 57 := by simpa [isDigit] using hdig
      have hlt := digitOf_lt hdig
      -- the 64-bit accumulator does not wrap: it held at most 32 bits before this digit
      have hmod : (v * 10 + (b.toNat - 48)) % 2 ^ 64 = v * 10 + digitOf b := by
        rw [digitOf] at hlt ⊢
        omega
      simp only [if_pos hcond, if_pos hdig, hmod, valueFrom_cons, List.length_cons]
      by_cases hbig : v * 10 + digitOf b > 0xFFFFFFFF
      · have hle := le_valueFrom (v * 10 + digitOf b) (s.takeWhile isDigit)
        rw [if_pos hbig, if_neg (by omega)]
      · rw [if_neg hbig, ih _ _ (by omega)]
        simp only [Nat.add_assoc, Nat.add_comm 1]
    · have hcond : ¬(48 ≤ b ∧ b ≤ 57) := by simpa [isDigit] using hdig
      rw [if_neg hcond, if_neg hdig, if_neg hdig]
      simp [hv]

/-- The digits of a numeral in front of something that is not a digit. -/
theorem takeWhile_decimal (n : ℕ) (rest : Bytes) (h : ∀ b ∈ rest.head?, isDigit b = false) :
    (decimal n ++ rest).takeWhile isDigit = decimal n ∧
      (decimal n ++ rest).dropWhile isDigit = rest := by
  have hall : ∀ b ∈ decimal n, isDigit b = true := fun b hb => isDigit_of_mem_decimal hb
  rw [List.takeWhile_append_of_pos hall, List.dropWhile_append_of_pos hall]
  rcases rest with _ | ⟨b, rest⟩
  · simp
  · have hb := h b (by simp)
    simp [hb]

/-- **One turn of the parser** on a text whose leading digits are the numeral of a
sub-identifier. -/
theorem parseLoop_of_decimal {b : UInt8} {text : Bytes} {x : UInt32}
    (hx : (b :: text).takeWhile isDigit = decimal x.toNat) {inst : TableInstance}
    (hlen : inst.length ≠ tableRowSubidMax) (fuel : ℕ) :
    tableInstanceParseLoop (fuel + 1) (b :: text) inst =
      match (b :: text).dropWhile isDigit with
      | [] => .ok (inst ++ [x])
      | c :: rest =>
        if c ≠ 46 then .error .inval
        else if rest = [] then .error .inval
        else tableInstanceParseLoop fuel rest (inst ++ [x]) := by
  have hcan := canonical_decimal x.toNat
  have hxlt := x.toNat_lt
  have hpos := List.length_pos_iff.mpr hcan.ne_nil
  have hhead : ¬(0 + (decimal x.toNat).length > 1 ∧ b = 48) := by
    rintro ⟨hgt, rfl⟩
    refine hcan.lead (by omega) ?_
    rw [← hx, List.takeWhile_cons, if_pos (by decide)]
    rfl
  have hval : x.toNat.toUInt32 = x := by simp
  rw [tableInstanceParseLoop, if_neg hlen, readDigits_eq _ _ _ (by omega), hx, value_decimal,
    if_pos (by omega)]
  simp only [if_neg (by omega : ¬0 + (decimal x.toNat).length = 0), if_neg hhead, hval]
  rcases (b :: text).dropWhile isDigit with _ | ⟨c, rest⟩
  · rfl
  · rfl

/-- **A turn on any other text fails.** -/
theorem parseLoop_of_not_decimal {b : UInt8} {text : Bytes}
    (hx : ∀ x : UInt32, (b :: text).takeWhile isDigit ≠ decimal x.toNat) (inst : TableInstance)
    (fuel : ℕ) : tableInstanceParseLoop (fuel + 1) (b :: text) inst = .error .inval := by
  rw [tableInstanceParseLoop]
  split_ifs with hlen
  · rfl
  rw [readDigits_eq _ _ _ (by omega)]
  split_ifs with hval
  · have hnc : ¬Canonical ((b :: text).takeWhile isDigit) := by
      intro hc
      refine hx (valueFrom 0 ((b :: text).takeWhile isDigit)).toUInt32 ?_
      have hback : (valueFrom 0 ((b :: text).takeWhile isDigit)).toUInt32.toNat =
          valueFrom 0 ((b :: text).takeWhile isDigit) := by
        rw [Nat.toUInt32, UInt32.toNat_ofNat']
        omega
      rw [hback, decimal_value hc]
    simp only [Nat.zero_add]
    split_ifs with h0 h48
    · rfl
    · rfl
    · exfalso
      refine hnc ⟨fun hnil => h0 (by rw [hnil]; rfl),
        fun c hc => List.all_eq_true.mp List.all_takeWhile c hc, ?_⟩
      intro hgt hhead
      refine h48 ⟨hgt, ?_⟩
      rw [List.takeWhile_cons] at hhead
      split_ifs at hhead with hdig
      · exact Option.some.inj hhead
      · exact absurd hhead (by simp)
  · rfl

/-- What the parser accepts is the text of what it has appended. -/
theorem parseLoop_sound (fuel : ℕ) : ∀ {s : Bytes} {inst out : TableInstance}, s ≠ [] →
    s.length ≤ fuel → tableInstanceParseLoop fuel s inst = .ok out →
    ∃ l, l ≠ [] ∧ out = inst ++ l ∧ s = instanceText l ∧
      (inst.length ≤ 128 → out.length ≤ 128) := by
  induction fuel with
  | zero =>
    intro s inst out hs hlen _
    exact absurd (List.length_eq_zero_iff.mp (Nat.le_zero.mp hlen)) hs
  | succ fuel ih =>
    intro s inst out hs hlen h
    obtain ⟨b, text, rfl⟩ := List.exists_cons_of_ne_nil hs
    by_cases hmax : inst.length = tableRowSubidMax
    · rw [tableInstanceParseLoop, if_pos hmax] at h
      exact absurd h (by simp)
    by_cases hx : ∃ x : UInt32, (b :: text).takeWhile isDigit = decimal x.toNat
    · obtain ⟨x, hx⟩ := hx
      have hsplit := List.takeWhile_append_dropWhile (p := isDigit) (l := b :: text)
      rw [parseLoop_of_decimal hx hmax] at h
      -- the text ends after this sub-identifier, or goes on behind a dot
      rcases hrest : (b :: text).dropWhile isDigit with _ | ⟨c, rest⟩
      · rw [hrest] at h hsplit
        obtain rfl := Except.ok.inj h
        refine ⟨[x], by simp, rfl, ?_, fun hle => ?_⟩
        · rw [← hsplit, hx, instanceText]
          simp
        · rw [List.length_append, List.length_singleton]
          rw [tableRowSubidMax] at hmax
          omega
      · rw [hrest] at h hsplit
        simp only at h
        split_ifs at h with hc hnil
        have hle : rest.length ≤ fuel := by
          have := congrArg List.length hsplit
          rw [List.length_append, List.length_cons] at this
          omega
        obtain ⟨l, hl, rfl, hs', hlen'⟩ := ih hnil hle h
        refine ⟨x :: l, by simp, by simp, ?_, fun hle' => hlen' ?_⟩
        · rw [← hsplit, hx, not_not.mp hc, hs']
          obtain ⟨y, l, rfl⟩ := List.exists_cons_of_ne_nil hl
          simp [instanceText]
        · rw [List.length_append, List.length_singleton]
          rw [tableRowSubidMax] at hmax
          omega
    · rw [parseLoop_of_not_decimal (fun x hx' => hx ⟨x, hx'⟩)] at h
      exact absurd h (by simp)

/-- The parser accepts the text of every instance it has room for. -/
theorem parseLoop_complete : ∀ (l : TableInstance) {fuel : ℕ} {inst : TableInstance}, l ≠ [] →
    (instanceText l).length ≤ fuel → (inst ++ l).length ≤ 128 →
    tableInstanceParseLoop fuel (instanceText l) inst = .ok (inst ++ l)
  | [], _, _, hl, _, _ => absurd rfl hl
  | x :: l, fuel, inst, _, hfuel, hlen => by
    have hroom : inst.length ≠ tableRowSubidMax := by
      rw [List.length_append, List.length_cons] at hlen
      rw [tableRowSubidMax]
      omega
    have hne : instanceText (x :: l) ≠ [] := dotted_ne_nil (by simp)
    obtain ⟨b, text, htext⟩ := List.exists_cons_of_ne_nil hne
    obtain ⟨fuel, rfl⟩ : ∃ f, fuel = f + 1 := by
      refine Nat.exists_eq_succ_of_ne_zero ?_
      rintro rfl
      rw [htext, List.length_cons] at hfuel
      omega
    rcases l with _ | ⟨y, l⟩
    · have htw := takeWhile_decimal x.toNat [] (by simp)
      have heq : instanceText [x] = decimal x.toNat ++ [] := by simp [instanceText]
      rw [← heq, htext] at htw
      rw [htext, parseLoop_of_decimal htw.1 hroom, htw.2]
    · have hrest : instanceText (x :: y :: l) = decimal x.toNat ++ 46 :: instanceText (y :: l) := by
        simp [instanceText]
      have htw := takeWhile_decimal x.toNat (46 :: instanceText (y :: l))
        (by simp; decide)
      rw [← hrest, htext] at htw
      have hne' : instanceText (y :: l) ≠ [] := dotted_ne_nil (by simp)
      have hfuel' : (instanceText (y :: l)).length ≤ fuel := by
        have := congrArg List.length hrest
        rw [List.length_append, List.length_cons] at this
        omega
      have hlen' : (inst ++ [x] ++ (y :: l)).length ≤ 128 := by simpa using hlen
      rw [htext, parseLoop_of_decimal htw.1 hroom, htw.2]
      simp only [ne_eq, not_true_eq_false, if_false, if_neg hne']
      rw [parseLoop_complete (y :: l) (by simp) hfuel' hlen']
      simp

/-- **The parser accepts exactly the canonical texts** of instances of 1 to 128
sub-identifiers. -/
theorem tableInstanceParse_eq_ok_iff {text : Bytes} {inst : TableInstance} :
    tableInstanceParse text = .ok inst ↔
      inst ≠ [] ∧ inst.length ≤ 128 ∧ text = instanceText inst := by
  constructor
  · intro h
    rw [tableInstanceParse] at h
    split_ifs at h with h0
    obtain ⟨l, hl, rfl, hs, hlen⟩ := parseLoop_sound _
      (fun hnil => h0 (by rw [hnil]; rfl)) le_rfl h
    exact ⟨hl, hlen (by simp), hs⟩
  · rintro ⟨hne, hlen, rfl⟩
    have htext : instanceText inst ≠ [] := dotted_ne_nil (by simpa using hne)
    rw [tableInstanceParse, if_neg fun h0 => htext (List.length_eq_zero_iff.mp h0),
      parseLoop_complete inst hne le_rfl (by simpa using hlen)]
    rfl

/-! ### Cell keys -/

/-- What is written after the first sub-identifier. -/
theorem instanceText_cons (x : UInt32) (l : TableInstance) :
    instanceText (x :: l) = decimal x.toNat ++ l.flatMap fun y => 46 :: decimal y.toNat := by
  induction l generalizing x with
  | nil => simp [instanceText]
  | cons y l ih =>
    have hcons : instanceText (x :: y :: l) = decimal x.toNat ++ 46 :: instanceText (y :: l) := by
      simp [instanceText]
    rw [hcons, ih y]
    simp

/-- The formatting loop after the first sub-identifier: all of the text, or too big. -/
theorem formatLoop_eq (buflen : ℕ) (l : TableInstance) : ∀ (i : ℕ) (out : Bytes),
    out.length < buflen →
    tableInstanceFormatLoop buflen (i + 1) l out =
      if (out ++ l.flatMap fun y => 46 :: decimal y.toNat).length < buflen then
        .ok (out ++ l.flatMap fun y => 46 :: decimal y.toNat)
      else .error .tooBig := by
  induction l with
  | nil =>
    intro i out hout
    simp [tableInstanceFormatLoop, hout]
  | cons y l ih =>
    intro i out hout
    simp only [tableInstanceFormatLoop, if_neg (Nat.succ_ne_zero i)]
    have hpiece : ([46] ++ decimal y.toNat).length = 1 + (decimal y.toNat).length := by
      rw [List.length_append, List.length_singleton]
    by_cases hbig : ([46] ++ decimal y.toNat).length ≥ buflen - out.length
    · rw [if_pos hbig, if_neg]
      simp only [List.flatMap_cons, List.length_append, List.length_cons]
      omega
    · have hout' : (out ++ ([46] ++ decimal y.toNat)).length < buflen := by
        rw [List.length_append]
        omega
      rw [if_neg hbig, ih (i + 1) _ hout']
      simp

/-- **Formatting writes the text when it fits with its NUL.** -/
theorem tableInstanceFormat_eq {inst : TableInstance} (hne : inst ≠ []) (hlen : inst.length ≤ 128)
    {buflen : ℕ} (hbuf : buflen ≠ 0) :
    tableInstanceFormat inst buflen =
      if (instanceText inst).length < buflen then .ok (instanceText inst) else .error .tooBig := by
  obtain ⟨x, l, rfl⟩ := List.exists_cons_of_ne_nil hne
  have hcond : ¬((x :: l).length = 0 ∨ (x :: l).length > tableRowSubidMax) := by
    rw [tableRowSubidMax, List.length_cons] at *
    omega
  rw [tableInstanceFormat, if_neg hbuf, if_neg hcond, tableInstanceFormatLoop, if_pos rfl,
    List.nil_append, instanceText_cons]
  by_cases hbig : (decimal x.toNat).length ≥ buflen - ([] : Bytes).length
  · rw [if_pos hbig, if_neg]
    rw [List.length_append]
    simp only [List.length_nil] at hbig
    omega
  · simp only [List.length_nil] at hbig
    rw [if_neg (by simpa using hbig), List.nil_append, formatLoop_eq _ _ 0 _ (by omega)]

/-- The key of a cell. -/
def cellKey (column : Bytes) (inst : TableInstance) : Bytes := column ++ 46 :: instanceText inst

/-- The length of a key. -/
theorem length_cellKey (column : Bytes) (inst : TableInstance) :
    (cellKey column inst).length = column.length + 1 + (instanceText inst).length := by
  rw [cellKey, List.length_append, List.length_cons]
  omega

/-- An instance without or with too many sub-identifiers is not formatted. -/
theorem tableInstanceFormat_inval {inst : TableInstance} (h : ¬(inst ≠ [] ∧ inst.length ≤ 128))
    (n : ℕ) : tableInstanceFormat inst n = .error .inval := by
  have hcond : inst.length = 0 ∨ inst.length > tableRowSubidMax := by
    by_contra hc
    rw [not_or, tableRowSubidMax] at hc
    exact h ⟨fun hnil => hc.1 (by rw [hnil]; rfl), by omega⟩
  rw [tableInstanceFormat]
  split_ifs
  · rfl
  · rfl

/-- **When a cell key is built**: for a non-empty column and an instance of 1 to 128
sub-identifiers whose key fits the buffer with its NUL and the limit on keys. -/
theorem tableCellKey_eq_ok_iff {column : Bytes} {inst : TableInstance} {buflen : ℕ} {key : Bytes} :
    tableCellKey column inst buflen = .ok key ↔
      column ≠ [] ∧ inst ≠ [] ∧ inst.length ≤ 128 ∧ key = cellKey column inst ∧
        key.length < buflen ∧ key.length ≤ 255 := by
  have hklen := length_cellKey column inst
  by_cases hinst : inst ≠ [] ∧ inst.length ≤ 128
  · obtain ⟨hne, hlen⟩ := hinst
    have hpos : 0 < (instanceText inst).length :=
      List.length_pos_iff.mpr (dotted_ne_nil (by simpa using hne))
    rw [tableCellKey]
    split_ifs with h0 hbuf
    · exact iff_of_false (by simp) fun h => h.1 (List.length_eq_zero_iff.mp h0)
    · refine iff_of_false (by simp) ?_
      rintro ⟨-, -, -, rfl, hlt, -⟩
      omega
    · have hcol : column ≠ [] := fun h => h0 (by rw [h]; rfl)
      rw [tableInstanceFormat_eq hne hlen (by omega)]
      by_cases hfit : (instanceText inst).length < buflen - column.length - 1
      · rw [if_pos hfit]
        simp only
        rw [← cellKey]
        split_ifs with hmax
        · refine iff_of_false (by simp) ?_
          rintro ⟨-, -, -, rfl, -, hle⟩
          rw [storageKeyMax] at hmax
          omega
        · rw [storageKeyMax] at hmax
          rw [Except.ok.injEq, eq_comm]
          constructor
          · rintro rfl
            exact ⟨hcol, hne, hlen, rfl, by omega, by omega⟩
          · exact fun h => h.2.2.2.1
      · rw [if_neg hfit]
        refine iff_of_false (by simp) ?_
        rintro ⟨-, -, -, rfl, hlt, -⟩
        omega
  · refine iff_of_false ?_ fun h => hinst ⟨h.2.1, h.2.2.1⟩
    rw [tableCellKey]
    split_ifs
    · simp
    · simp
    · rw [tableInstanceFormat_inval hinst]
      simp

/-- The key of a cell with one sub-identifier is built, for a column of at most 64 characters. -/
theorem tableCellKey_single {column : Bytes} (h1 : 1 ≤ column.length) (h64 : column.length ≤ 64)
    (r : UInt32) : tableCellKey column [r] (storageKeyMax + 1) = .ok (cellKey column [r]) ∧
      ValidKey (cellKey column [r]) := by
  have hdigits : (instanceText [r]).length ≤ 10 := by
    rw [instanceText, List.map_singleton, Decimal.dotted_singleton]
    have hlt := r.toNat_lt
    exact Decimal.length_decimal_le (by decide) (by omega)
  have hlen := length_cellKey column [r]
  refine ⟨tableCellKey_eq_ok_iff.mpr ⟨List.length_pos_iff.mp h1, by simp, by simp, rfl, ?_, ?_⟩,
    ?_, ?_⟩
  · rw [hlen, storageKeyMax]
    omega
  all_goals
    rw [hlen]
    omega

/-- **A cell key determines its cell**, for columns without a dot. -/
theorem cellKey_inj {c c' : Bytes} {i i' : TableInstance} (hc : (46 : UInt8) ∉ c)
    (hc' : (46 : UInt8) ∉ c') (h : cellKey c i = cellKey c' i') : c = c' ∧ i = i' := by
  obtain ⟨hcol, htext⟩ := append_cons_inj hc hc' h
  refine ⟨hcol, ?_⟩
  exact (List.map_injective_iff.mpr fun _ _ => UInt32.toNat_inj.mp) (dotted_inj htext)

/-! ### The order of instances -/

/-- The loop of `table_instance_compare`: the verdict of the first difference, if any. -/
def tableInstanceCompareLoop : TableInstance → TableInstance → Option Ordering
  | x :: a, y :: b =>
    if x ≠ y then some (if x < y then .lt else .gt) else tableInstanceCompareLoop a b
  | _, _ => none

/-- `table_instance_compare`, with `-1`, `0` and `1` as orderings. -/
def tableInstanceCompare (a b : TableInstance) : Ordering :=
  match tableInstanceCompareLoop a b with
  | some o => o
  | none => if a.length = b.length then .eq else if a.length < b.length then .lt else .gt

/-- **The comparator is the lexicographic order** of sub-identifiers. -/
theorem tableInstanceCompare_eq (a b : TableInstance) : tableInstanceCompare a b = compare a b := by
  induction a generalizing b with
  | nil => cases b <;> rfl
  | cons x a ih =>
    rcases b with _ | ⟨y, b⟩
    · rfl
    · rw [List.compare_eq_compareLex, List.compareLex_cons_cons, ← List.compare_eq_compareLex,
        ← ih b]
      by_cases hxy : x = y
      · subst hxy
        have hx : compare x x = .eq := Std.ReflCmp.compare_self
        rw [hx]
        simp [tableInstanceCompare, tableInstanceCompareLoop]
      · rw [tableInstanceCompare, tableInstanceCompareLoop, if_pos hxy]
        simp only [compare, compareOfLessAndEq, if_neg hxy]
        by_cases hlt : x < y
        · rw [if_pos hlt]
          rfl
        · rw [if_neg hlt]
          rfl

instance : Std.TransCmp tableInstanceCompare := by
  rw [show tableInstanceCompare = compare from
    funext fun a => funext fun b => tableInstanceCompare_eq a b]
  infer_instance

instance : Std.LawfulEqCmp tableInstanceCompare := by
  rw [show tableInstanceCompare = compare from
    funext fun a => funext fun b => tableInstanceCompare_eq a b]
  infer_instance

end AgentxSubagent
