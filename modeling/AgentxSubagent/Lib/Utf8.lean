import Mathlib.Data.List.Induction

/-!
# ASCII in UTF-8

A byte below 128 is a character of its own: `Utf8.encodeChar_ofNat` says how it is encoded, and
`Utf8.isValidUTF8_append` that such bytes can be put behind any valid text. The one such byte
that ends a string elsewhere is NUL; `Utf8.takeWhile_flatMap_encodeChar` says what is left of a
text there.
-/

namespace Utf8

/-- An ASCII character is one byte. -/
theorem encodeChar_ofNat {b : UInt8} (h : b.toNat < 128) :
    String.utf8EncodeChar (Char.ofNat b.toNat) = [b] := by
  have hvalid : b.toNat.isValidChar := Or.inl (by omega)
  have hval : (Char.ofNat b.toNat).val = b.toUInt32 := by
    rw [Char.ofNat, dif_pos hvalid]
    rfl
  have hsize : (Char.ofNat b.toNat).utf8Size = 1 := by
    rw [Char.utf8Size_eq_one_iff, hval, UInt32.le_iff_toNat_le, UInt8.toNat_toUInt32]
    exact Nat.le_of_lt_succ h
  rw [String.utf8EncodeChar_eq_singleton hsize, hval, UInt8.toUInt8_toUInt32]

/-- **ASCII behind valid text is valid text.** -/
theorem isValidUTF8_append {s : List UInt8} (hs : (ByteArray.mk s.toArray).IsValidUTF8)
    {t : List UInt8} (ht : ∀ b ∈ t, b.toNat < 128) :
    (ByteArray.mk (s ++ t).toArray).IsValidUTF8 := by
  induction t using List.reverseRecOn with
  | nil => simpa using hs
  | append_singleton t b ih =>
    have hb : b.toNat < 128 := ht b (by simp)
    have hrest := ih fun c hc => ht c (by simp [hc])
    have hone : [Char.ofNat b.toNat].utf8Encode = ByteArray.mk [b].toArray := by
      rw [List.utf8Encode_singleton, encodeChar_ofNat hb]
      rfl
    have happ := hrest.append (ByteArray.isValidUTF8_utf8Encode (l := [Char.ofNat b.toNat]))
    rw [hone] at happ
    have heq : ByteArray.mk (s ++ t).toArray ++ ByteArray.mk [b].toArray =
        ByteArray.mk (s ++ (t ++ [b])).toArray := by
      ext1
      rw [ByteArray.data_append, ← List.append_assoc]
      simp
    rwa [heq] at happ

/-- The only character with a NUL in its encoding is the NUL. -/
theorem zero_mem_encodeChar_iff {c : Char} : 0 ∈ String.utf8EncodeChar c ↔ c = Char.ofNat 0 := by
  constructor
  · intro h
    rw [String.utf8EncodeChar] at h
    -- behind the first byte, and in front of more, every byte has its high bit set
    split_ifs at h with h1 h2 h3
    all_goals simp only [List.mem_cons, List.not_mem_nil, or_false, ← UInt8.toNat_inj,
      UInt8.toNat_ofNat', UInt8.toNat_ofNat] at h
    · refine Char.ext (UInt32.toNat_inj.mp ?_)
      show c.val.toNat = 0
      omega
    · omega
    · omega
    · omega
  · rintro rfl
    decide

/-- **A text cut at its first NUL byte is a text**: it is cut at the first NUL character. -/
theorem takeWhile_flatMap_encodeChar (cs : List Char) :
    (cs.flatMap String.utf8EncodeChar).takeWhile (· ≠ 0) =
      (cs.takeWhile (· ≠ Char.ofNat 0)).flatMap String.utf8EncodeChar := by
  induction cs with
  | nil => rfl
  | cons c cs ih =>
    rw [List.flatMap_cons]
    by_cases hc : c = Char.ofNat 0
    · rw [hc, List.takeWhile_cons_of_neg (by simp)]
      rfl
    · have hne : ∀ b ∈ String.utf8EncodeChar c, decide (b ≠ 0) = true := by
        intro b hb
        refine decide_eq_true fun hzero => hc (zero_mem_encodeChar_iff.mp ?_)
        rwa [← hzero]
      rw [List.takeWhile_append_of_pos hne, ih, List.takeWhile_cons_of_pos (by simpa using hc),
        List.flatMap_cons]

end Utf8
