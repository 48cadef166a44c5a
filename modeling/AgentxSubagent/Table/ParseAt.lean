import AgentxSubagent.Table.Instance

/-!
# Instances in memory

`AgentxSubagent.tableInstanceParse` works on a list of bytes and returns a list of sub-identifiers.
`table_instance_parse` works on positions behind a pointer, adds up digits in a 64-bit accumulator
and fills an array of 128 entries that it hands out by an assignment to `*out`. This file embeds
it as it stands: a read is a read at a position (`AgentxSubagent.readAt`), and a read outside the
bytes given, or an accumulator that leaves 64 bits, would end the run with a fault of its own.

No run does (`AgentxSubagent.tableInstanceParseAt_eq`), and the two descriptions agree.
`AgentxSubagent.instance_text_bijection` then says which texts are accepted, as a grammar, and that
parsing and formatting are inverse to each other.
-/

namespace AgentxSubagent

open Decimal

/-! ### The data -/

/-- `table_instance_t`: an array of sub-identifiers, and how many of them are in use. -/
structure TableInstanceT where
  subid : Fin 128 → UInt32
  len : ℕ

namespace TableInstanceT

/-- The sub-identifiers in use. -/
def subids (inst : TableInstanceT) : List UInt32 := (List.ofFn inst.subid).take inst.len

/-- The instance that has the given sub-identifiers and zeros behind them. -/
def ofSubids (l : List UInt32) : TableInstanceT := ⟨fun i => l.getD i 0, l.length⟩

/-- `inst.subid[inst.len++] = value`. -/
def push (inst : TableInstanceT) (value : UInt32) : TableInstanceT :=
  ⟨fun i => if i.val = inst.len then value else inst.subid i, inst.len + 1⟩

/-- The `memset` of the unused tail. -/
def zeroTail (inst : TableInstanceT) : TableInstanceT :=
  ⟨fun i => if i.val < inst.len then inst.subid i else 0, inst.len⟩

end TableInstanceT

/-- What the pointer leads to: the byte at a position, or `none` where nothing may be read. -/
abbrev Memory := ℕ → Option UInt8

/-- How a run ends early: with a return code, or with a fault. -/
inductive ParseExit
  | returns (rc : StorageErr)
  | overrun
  | overflow
  deriving DecidableEq

/-! ### The code -/

/-- `dotted[pos]`. -/
def readAt (dotted : Memory) (pos : ℕ) : Except ParseExit UInt8 :=
  match dotted pos with
  | some b => .ok b
  | none => .error .overrun

/-- The digit loop at `pos`, with `value` added up so far: the position it stops at and the value.
The first argument bounds its turns. -/
def digitLoopAt (dotted : Memory) (len : ℕ) : ℕ → ℕ → ℕ → Except ParseExit (ℕ × ℕ)
  | 0, pos, value => .ok (pos, value)
  | turns + 1, pos, value =>
    if pos < len then
      match readAt dotted pos with
      | .error exit => .error exit
      | .ok b =>
        if 48 ≤ b ∧ b ≤ 57 then
          let value := value * 10 + (b.toNat - 48)
          if value ≥ 2 ^ 64 then .error .overflow
          else if value > 0xFFFFFFFF then .error (.returns .inval)
          else digitLoopAt dotted len turns (pos + 1) value
        else .ok (pos, value)
    else .ok (pos, value)

/-- The test for a leading zero, which reads the first digit again if there are more. -/
def leadingZeroAt (dotted : Memory) (start digits : ℕ) : Except ParseExit Bool :=
  if digits > 1 then (readAt dotted start).map (· == 48) else .ok false

/-- The outer loop of `table_instance_parse` at `pos`. -/
def parseLoopAt (dotted : Memory) (len : ℕ) :
    ℕ → ℕ → TableInstanceT → Except ParseExit TableInstanceT
  | 0, _, inst => .ok inst
  | turns + 1, start, inst =>
    if start < len then
      if inst.len = tableRowSubidMax then .error (.returns .inval)
      else
        match digitLoopAt dotted len (len - start) start 0 with
        | .error exit => .error exit
        | .ok (pos, value) =>
          let digits := pos - start
          if digits = 0 then .error (.returns .inval)
          else
            match leadingZeroAt dotted start digits with
            | .error exit => .error exit
            | .ok true => .error (.returns .inval)
            | .ok false =>
              let inst := inst.push value.toUInt32
              if pos = len then .ok inst
              else
                match readAt dotted pos with
                | .error exit => .error exit
                | .ok c =>
                  if c ≠ 46 then .error (.returns .inval)
                  else if pos + 1 = len then .error (.returns .inval)
                  else parseLoopAt dotted len turns (pos + 1) inst
    else .ok inst

/-- `table_instance_parse`: its return code and `*out`. The array of its local `inst` starts out
with whatever is on the stack. -/
def tableInstanceParseAt (dotted : Memory) (len : ℕ) (stack : Fin 128 → UInt32)
    (out : TableInstanceT) : Except ParseExit (Except StorageErr Unit × TableInstanceT) :=
  if len = 0 then .ok (.error .inval, out)
  else
    match parseLoopAt dotted len len 0 ⟨stack, 0⟩ with
    | .ok inst => .ok (.ok (), inst.zeroTail)
    | .error (.returns rc) => .ok (.error rc, out)
    | .error exit => .error exit

/-- `table_instance_format` on an instance in memory. -/
def tableInstanceFormatT (inst : TableInstanceT) (buflen : ℕ) : Except StorageErr Bytes :=
  if buflen = 0 then .error .inval
  else if inst.len = 0 ∨ inst.len > tableRowSubidMax then .error .inval
  else tableInstanceFormatLoop buflen 0 inst.subids []

/-! ### No run faults -/

section Loops

variable {dotted : Memory} {text : Bytes} (hmem : ∀ p < text.length, dotted p = text[p]?)

include hmem

/-- A read inside the text. -/
theorem readAt_eq {pos : ℕ} (h : pos < text.length) : readAt dotted pos = .ok text[pos] := by
  rw [readAt, hmem pos h, List.getElem?_eq_getElem h]

/-- **The digit loop reads the digits in front**, inside the text and without an overflow. -/
theorem digitLoopAt_eq (turns : ℕ) : ∀ pos value : ℕ, pos ≤ text.length →
    text.length - pos ≤ turns → value ≤ 0xFFFFFFFF →
    digitLoopAt dotted text.length turns pos value =
      if valueFrom value ((text.drop pos).takeWhile isDigit) ≤ 0xFFFFFFFF then
        .ok (pos + ((text.drop pos).takeWhile isDigit).length,
          valueFrom value ((text.drop pos).takeWhile isDigit))
      else .error (.returns .inval) := by
  induction turns with
  | zero =>
    intro pos value hpos hturns hvalue
    rw [digitLoopAt, List.drop_eq_nil_of_le (by omega)]
    simp [hvalue]
  | succ turns ih =>
    intro pos value hpos hturns hvalue
    rw [digitLoopAt]
    by_cases hlt : pos < text.length
    · have hdrop : text.drop pos = text[pos] :: text.drop (pos + 1) := List.drop_eq_getElem_cons hlt
      rw [if_pos hlt, readAt_eq hmem hlt, hdrop, List.takeWhile_cons]
      simp only
      by_cases hdig : isDigit text[pos] = true
      · have hcond : 48 ≤ text[pos] ∧ text[pos] ≤ 57 := by simpa [isDigit] using hdig
        have hdigit := digitOf_lt hdig
        -- the accumulator held at most 32 bits, so one more digit stays within 64
        have hno : ¬value * 10 + (text[pos].toNat - 48) ≥ 2 ^ 64 := by
          rw [digitOf] at hdigit
          omega
        rw [if_pos hcond, if_neg hno, if_pos hdig, valueFrom_cons, List.length_cons,
          show text[pos].toNat - 48 = digitOf text[pos] from rfl]
        by_cases hbig : value * 10 + digitOf text[pos] > 0xFFFFFFFF
        · have hle := le_valueFrom (value * 10 + digitOf text[pos])
            ((text.drop (pos + 1)).takeWhile isDigit)
          rw [if_pos hbig, if_neg (by omega)]
        · rw [if_neg hbig]
          refine (ih (pos + 1) _ (by omega) (by omega) (by omega)).trans ?_
          refine if_congr Iff.rfl ?_ rfl
          rw [Nat.add_assoc, Nat.add_comm 1]
      · have hcond : ¬(48 ≤ text[pos] ∧ text[pos] ≤ 57) := by simpa [isDigit] using hdig
        rw [if_neg hcond, if_neg hdig]
        simp [hvalue]
    · rw [if_neg hlt, List.drop_eq_nil_of_le (by omega)]
      simp [hvalue]

end Loops

/-- The entries in use are the given sub-identifiers. -/
structure TableInstanceT.Filled (inst : TableInstanceT) (l : List UInt32) : Prop where
  len_eq : inst.len = l.length
  subid_eq : ∀ i : Fin 128, i.val < l.length → inst.subid i = l.getD i 0

namespace TableInstanceT.Filled

variable {inst : TableInstanceT} {l : List UInt32} (h : inst.Filled l)

include h

theorem push (value : UInt32) : (inst.push value).Filled (l ++ [value]) where
  len_eq := by rw [TableInstanceT.push, h.len_eq, List.length_append, List.length_singleton]
  subid_eq := by
    intro i hi
    rw [List.length_append, List.length_singleton] at hi
    simp only [TableInstanceT.push, h.len_eq]
    by_cases hlast : i.val = l.length
    · rw [if_pos hlast, hlast]
      simp
    · have hlt : i.val < l.length := by omega
      rw [if_neg hlast, h.subid_eq i hlt]
      simp [List.getElem?_append_left hlt]

/-- What is handed out depends on the entries in use only. -/
theorem zeroTail_eq : inst.zeroTail = .ofSubids l := by
  rw [zeroTail, ofSubids, h.len_eq]
  congr 1
  funext i
  split_ifs with hi
  · exact h.subid_eq i hi
  · rw [List.getD_eq_default _ _ (by omega)]

end TableInstanceT.Filled

/-- The two loops end alike: with the same return code, or with the same sub-identifiers. -/
inductive EndAlike : Except StorageErr (List UInt32) → Except ParseExit TableInstanceT → Prop
  | returns (rc : StorageErr) : EndAlike (.error rc) (.error (.returns rc))
  | done {inst : TableInstanceT} {l : List UInt32} : inst.Filled l → EndAlike (.ok l) (.ok inst)

/-- What is behind the leading digits. -/
theorem drop_length_takeWhile {α : Type} (p : α → Bool) (l : List α) :
    l.drop (l.takeWhile p).length = l.dropWhile p := by
  have hdrop := congrArg (List.drop (l.takeWhile p).length)
    (List.takeWhile_append_dropWhile (p := p) (l := l))
  rw [List.drop_left] at hdrop
  exact hdrop.symm

section Loops

variable {dotted : Memory} {text : Bytes} (hmem : ∀ p < text.length, dotted p = text[p]?)

include hmem

/-- The test for a leading zero is one on the first byte. -/
theorem leadingZeroAt_eq {start digits : ℕ} (h : start < text.length) :
    leadingZeroAt dotted start digits = .ok (decide (digits > 1 ∧ text[start] = 48)) := by
  rw [leadingZeroAt]
  split_ifs with hd
  · rw [readAt_eq hmem h]
    simp [Except.map, hd, beq_eq_decide]
  · simp [hd]

/-- **The outer loop does what the loop over the list does.** -/
theorem parseLoopAt_eq (turns : ℕ) : ∀ (start : ℕ) (inst : TableInstanceT) (l : List UInt32),
    start ≤ text.length → inst.Filled l →
    EndAlike (tableInstanceParseLoop turns (text.drop start) l)
      (parseLoopAt dotted text.length turns start inst) := by
  induction turns with
  | zero => exact fun start inst l _ h => .done h
  | succ turns ih =>
    intro start inst l hstart h
    by_cases hlt : start < text.length
    swap
    · rw [List.drop_eq_nil_of_le (by omega), tableInstanceParseLoop, parseLoopAt, if_neg hlt]
      exact .done h
    have hdrop : text.drop start = text[start] :: text.drop (start + 1) :=
      List.drop_eq_getElem_cons hlt
    -- what is behind the digits, by its position
    have hrest : (text.drop start).dropWhile isDigit =
        text.drop (start + ((text.drop start).takeWhile isDigit).length) := by
      rw [← drop_length_takeWhile, List.drop_drop]
    have hle : start + ((text.drop start).takeWhile isDigit).length ≤ text.length := by
      have hlen := List.takeWhile_prefix (l := text.drop start) isDigit |>.length_le
      rw [List.length_drop] at hlen
      omega
    rw [parseLoopAt, if_pos hlt, h.len_eq, digitLoopAt_eq hmem _ _ _ hstart le_rfl (by omega)]
    rw [hdrop, tableInstanceParseLoop, ← hdrop, readDigits_eq _ _ _ (by omega), hrest]
    by_cases hmax : l.length = tableRowSubidMax
    · rw [if_pos hmax, if_pos hmax]
      exact .returns _
    rw [if_neg hmax, if_neg hmax]
    by_cases hval : valueFrom 0 ((text.drop start).takeWhile isDigit) ≤ 0xFFFFFFFF
    swap
    · rw [if_neg hval, if_neg hval]
      exact .returns _
    rw [if_pos hval, if_pos hval]
    simp only [Nat.add_sub_cancel_left, Nat.zero_add, leadingZeroAt_eq hmem hlt]
    have hpush := h.push (valueFrom 0 ((text.drop start).takeWhile isDigit)).toUInt32
    generalize ((text.drop start).takeWhile isDigit).length = digits at hle ⊢
    by_cases hzero : digits = 0
    · rw [if_pos hzero, if_pos hzero]
      exact .returns _
    rw [if_neg hzero, if_neg hzero]
    by_cases hlead : digits > 1 ∧ text[start] = 48
    · rw [if_pos hlead, decide_eq_true hlead]
      exact .returns _
    rw [if_neg hlead, decide_eq_false hlead]
    by_cases hend : start + digits = text.length
    · -- the text ends behind this sub-identifier
      rw [List.drop_eq_nil_of_le hend.ge, if_pos hend]
      exact .done hpush
    have hpos : start + digits < text.length := by omega
    rw [List.drop_eq_getElem_cons hpos, if_neg hend, readAt_eq hmem hpos]
    simp only
    by_cases hdot : text[start + digits] = 46
    swap
    · rw [if_pos hdot, if_pos hdot]
      exact .returns _
    rw [if_neg (not_not_intro hdot), if_neg (not_not_intro hdot)]
    by_cases hlast : start + digits + 1 = text.length
    · -- a dot at the end
      rw [if_pos (List.drop_eq_nil_of_le hlast.ge), if_pos hlast]
      exact .returns _
    · rw [if_neg (by rw [List.drop_eq_nil_iff]; omega), if_neg hlast]
      exact ih _ _ _ (by omega) hpush

end Loops

/-- **The code in memory is the code on lists**: it reads inside the bytes it is given, its
accumulator does not leave 64 bits, and it assigns `*out` on success only. -/
theorem tableInstanceParseAt_eq {dotted : Memory} {text : Bytes}
    (hmem : ∀ p < text.length, dotted p = text[p]?) (stack : Fin 128 → UInt32)
    (out : TableInstanceT) :
    tableInstanceParseAt dotted text.length stack out =
      match tableInstanceParse text with
      | .error rc => .ok (.error rc, out)
      | .ok l => .ok (.ok (), .ofSubids l) := by
  rw [tableInstanceParseAt, tableInstanceParse]
  split_ifs with h0
  · rfl
  have hempty : (⟨stack, 0⟩ : TableInstanceT).Filled [] := ⟨rfl, fun i hi => absurd hi (by simp)⟩
  have hloop := parseLoopAt_eq hmem text.length 0 ⟨stack, 0⟩ [] (Nat.zero_le _) hempty
  rw [List.drop_zero] at hloop
  generalize tableInstanceParseLoop text.length text [] = r at hloop ⊢
  generalize parseLoopAt dotted text.length text.length 0 ⟨stack, 0⟩ = r' at hloop ⊢
  cases hloop with
  | returns rc => rfl
  | done h => simp only [h.zeroTail_eq]

/-! ### Texts and instances -/

/-- **The grammar**: one to 128 components separated by single dots, each a non-empty string of
digits without a leading zero, other than `0` itself, of a value of at most 4294967295. The
sub-identifiers are the values. -/
def DottedDecimal (text : Bytes) (l : List UInt32) : Prop :=
  ∃ parts : List Bytes, 1 ≤ parts.length ∧ parts.length ≤ 128 ∧
    text = [46].intercalate parts ∧
    (∀ part ∈ parts, part ≠ [] ∧ (∀ b ∈ part, 48 ≤ b.toNat ∧ b.toNat ≤ 57) ∧
      (1 < part.length → part.head? ≠ some 48) ∧ valueFrom 0 part ≤ 4294967295) ∧
    l = parts.map fun part => (valueFrom 0 part).toUInt32

/-- The grammar describes the canonical texts. -/
theorem dottedDecimal_iff {text : Bytes} {l : List UInt32} :
    DottedDecimal text l ↔ l ≠ [] ∧ l.length ≤ 128 ∧ text = instanceText l := by
  constructor
  · rintro ⟨parts, h1, h128, rfl, hparts, rfl⟩
    refine ⟨?_, by rwa [List.length_map], ?_⟩
    · rw [← List.length_pos_iff, List.length_map]
      exact h1
    · -- each component is the numeral of its value
      rw [instanceText, dotted, List.map_map, List.map_map]
      congr 1
      refine (List.map_id parts).symm.trans (List.map_congr_left fun part hpart => ?_)
      obtain ⟨hne, hdigits, hlead, hval⟩ := hparts part hpart
      have hcan : Canonical part := ⟨hne, fun b hb => isDigit_iff.mpr (hdigits b hb), hlead⟩
      have hback : (valueFrom 0 part).toUInt32.toNat = valueFrom 0 part := by
        rw [Nat.toUInt32, UInt32.toNat_ofNat']
        omega
      rw [Function.comp_apply, Function.comp_apply, hback, decimal_value hcan]
      rfl
  · rintro ⟨hne, h128, rfl⟩
    refine ⟨(l.map UInt32.toNat).map decimal, ?_, ?_, rfl, ?_, ?_⟩
    · rw [List.length_map, List.length_map]
      exact List.length_pos_iff.mpr hne
    · rwa [List.length_map, List.length_map]
    · intro part hpart
      obtain ⟨n, hn, rfl⟩ := List.mem_map.mp hpart
      obtain ⟨x, -, rfl⟩ := List.mem_map.mp hn
      have hcan := canonical_decimal x.toNat
      have hlt := x.toNat_lt
      refine ⟨hcan.ne_nil, fun b hb => isDigit_iff.mp (hcan.digits b hb), hcan.lead, ?_⟩
      rw [value_decimal]
      omega
    · rw [List.map_map, List.map_map]
      refine (List.map_id l).symm.trans (List.map_congr_left fun x _ => ?_)
      rw [Function.comp_apply, Function.comp_apply, value_decimal]
      simp

namespace TableInstanceT

theorem length_subids {inst : TableInstanceT} (h : inst.len ≤ 128) :
    inst.subids.length = inst.len := by
  rw [subids, List.length_take, List.length_ofFn, Nat.min_eq_left h]

theorem subids_ofSubids {l : List UInt32} (h : l.length ≤ 128) : (ofSubids l).subids = l := by
  refine List.ext_getElem (length_subids h) fun i _ hi => ?_
  -- not `simp`: it would write the 128 entries of the array out
  simp only [subids, ofSubids, List.getElem_take, List.getElem_ofFn]
  exact List.getD_eq_getElem l 0 hi

end TableInstanceT

/-- Formatting in memory is formatting the sub-identifiers in use. -/
theorem tableInstanceFormatT_eq {inst : TableInstanceT} (h1 : 1 ≤ inst.len) (h128 : inst.len ≤ 128)
    (buflen : ℕ) : tableInstanceFormatT inst buflen =
      if (instanceText inst.subids).length + 1 ≤ buflen then .ok (instanceText inst.subids)
      else if buflen = 0 then .error .inval else .error .tooBig := by
  have hlen := TableInstanceT.length_subids h128
  have hne : inst.subids ≠ [] := by
    rw [← List.length_pos_iff]
    omega
  by_cases h0 : buflen = 0
  · rw [tableInstanceFormatT, if_pos h0, if_neg (by omega), if_pos h0]
  · have hformat : tableInstanceFormatT inst buflen = tableInstanceFormat inst.subids buflen := by
      rw [tableInstanceFormatT, tableInstanceFormat, hlen]
    rw [hformat, tableInstanceFormat_eq hne (by omega) h0, if_neg h0]
    exact if_congr (by omega) rfl rfl

/-- **What parsing accepts, and what it hands out.** -/
theorem tableInstanceParseAt_spec {dotted : Memory} {text : Bytes} (stack : Fin 128 → UInt32)
    (out : TableInstanceT) (hmem : ∀ p < text.length, dotted p = text[p]?) :
    ∃ rc out', tableInstanceParseAt dotted text.length stack out = .ok (rc, out') ∧
      (rc = .ok () ↔ ∃ l, DottedDecimal text l) ∧
      (∀ l, DottedDecimal text l → out'.len = l.length ∧
        ∀ i : Fin 128, out'.subid i = l.getD i 0) ∧
      (rc ≠ .ok () → out' = out) := by
  rw [tableInstanceParseAt_eq hmem]
  rcases hparse : tableInstanceParse text with rc | l
  · have hno : ∀ l, ¬DottedDecimal text l := by
      intro l hl
      rw [tableInstanceParse_eq_ok_iff.mpr (dottedDecimal_iff.mp hl)] at hparse
      exact absurd hparse (by simp)
    refine ⟨_, out, rfl, ?_, fun l hl => absurd hl (hno l), fun _ => rfl⟩
    exact iff_of_false (by simp) fun ⟨l, hl⟩ => hno l hl
  · have hl := dottedDecimal_iff.mpr (tableInstanceParse_eq_ok_iff.mp hparse)
    refine ⟨_, _, rfl, iff_of_true rfl ⟨l, hl⟩, fun l' hl' => ?_, fun h => absurd rfl h⟩
    -- a text has one value
    have hparse' := tableInstanceParse_eq_ok_iff.mpr (dottedDecimal_iff.mp hl')
    obtain rfl := Except.ok.inj (hparse.symm.trans hparse')
    exact ⟨rfl, fun _ => rfl⟩

/-- **Parsing what was formatted** gives the instance back. -/
theorem tableInstanceParseAt_formatT {inst : TableInstanceT} {buflen : ℕ} (h1 : 1 ≤ inst.len)
    (h128 : inst.len ≤ 128) {text : Bytes} (htext : tableInstanceFormatT inst buflen = .ok text)
    (stack : Fin 128 → UInt32) (out : TableInstanceT) :
    ∃ inst', tableInstanceParseAt (fun p => text[p]?) text.length stack out = .ok (.ok (), inst') ∧
      inst'.len = inst.len ∧ inst'.subids = inst.subids := by
  have hlen := TableInstanceT.length_subids h128
  have hne : inst.subids ≠ [] := by
    rw [← List.length_pos_iff]
    omega
  rw [tableInstanceFormatT_eq h1 h128] at htext
  obtain rfl : instanceText inst.subids = text := by
    split_ifs at htext
    exact Except.ok.inj htext
  rw [tableInstanceParseAt_eq fun _ _ => rfl,
    tableInstanceParse_eq_ok_iff.mpr ⟨hne, by omega, rfl⟩]
  exact ⟨_, rfl, hlen, TableInstanceT.subids_ofSubids (by omega)⟩

/-- **Formatting what was parsed** gives the text back. -/
theorem tableInstanceFormatT_parseAt {text : Bytes} {stack : Fin 128 → UInt32}
    {out inst : TableInstanceT}
    (hparse : tableInstanceParseAt (fun p => text[p]?) text.length stack out = .ok (.ok (), inst))
    {buflen : ℕ} (hbuf : text.length + 1 ≤ buflen) :
    tableInstanceFormatT inst buflen = .ok text := by
  rw [tableInstanceParseAt_eq fun _ _ => rfl] at hparse
  rcases hl : tableInstanceParse text with rc | l
  · rw [hl] at hparse
    exact absurd hparse (by simp)
  rw [hl] at hparse
  obtain rfl : TableInstanceT.ofSubids l = inst := by simpa using hparse
  -- the text that was parsed is the one the values are written as
  obtain ⟨hne, h128, rfl⟩ := tableInstanceParse_eq_ok_iff.mp hl
  have h1 : 1 ≤ (TableInstanceT.ofSubids l).len := List.length_pos_iff.mpr hne
  rw [tableInstanceFormatT_eq h1 h128, TableInstanceT.subids_ofSubids h128, if_pos hbuf]

/-- **Instances and canonical dotted decimal are in bijection.** Parsing reads inside the bytes it
is given and its accumulator stays within 64 bits, whatever is behind them; it succeeds if and only
if they are in the grammar, and then hands out their values with the unused tail zeroed, whatever
was on the stack; on failure `*out` is as it was. Formatting an instance of 1 to 128
sub-identifiers succeeds exactly when the text and its NUL fit, and parsing its output gives the
instance back; and formatting what was parsed, into a buffer with room for the text and its NUL,
gives the text back. -/
theorem instance_text_bijection :
    (∀ (dotted : Memory) (text : Bytes) (stack : Fin 128 → UInt32) (out : TableInstanceT),
      (∀ p < text.length, dotted p = text[p]?) →
      ∃ rc out', tableInstanceParseAt dotted text.length stack out = .ok (rc, out') ∧
        (rc = .ok () ↔ ∃ l, DottedDecimal text l) ∧
        (∀ l, DottedDecimal text l → out'.len = l.length ∧
          ∀ i : Fin 128, out'.subid i = l.getD i 0) ∧
        (rc ≠ .ok () → out' = out)) ∧
    (∀ (inst : TableInstanceT) (buflen : ℕ), 1 ≤ inst.len → inst.len ≤ 128 →
      ((∃ text, tableInstanceFormatT inst buflen = .ok text) ↔
        (instanceText inst.subids).length + 1 ≤ buflen) ∧
      ∀ text, tableInstanceFormatT inst buflen = .ok text → ∀ stack out, ∃ inst',
        tableInstanceParseAt (fun p => text[p]?) text.length stack out = .ok (.ok (), inst') ∧
          inst'.len = inst.len ∧ inst'.subids = inst.subids) ∧
    ∀ (text : Bytes) (stack : Fin 128 → UInt32) (out inst : TableInstanceT),
      tableInstanceParseAt (fun p => text[p]?) text.length stack out = .ok (.ok (), inst) →
      ∀ buflen, text.length + 1 ≤ buflen → tableInstanceFormatT inst buflen = .ok text := by
  refine ⟨?_, ?_, ?_⟩
  · exact fun dotted text stack out hmem => tableInstanceParseAt_spec stack out hmem
  · intro inst buflen h1 h128
    refine ⟨?_, fun text htext => tableInstanceParseAt_formatT h1 h128 htext⟩
    rw [tableInstanceFormatT_eq h1 h128]
    split_ifs
    all_goals simp_all
  · exact fun text stack out inst hparse buflen hbuf => tableInstanceFormatT_parseAt hparse hbuf

end AgentxSubagent
