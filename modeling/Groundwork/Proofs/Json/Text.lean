import Groundwork.Json.Value
import Groundwork.Proofs.Bytes
import Groundwork.Proofs.Text
import Mathlib.Tactic.SplitIfs

/-! Texts in JSON documents, and documents as texts. What is written for a text is one string, and it is
read back as the text. What is written for a value is a text, and a text of blanks is no document. -/
namespace Groundwork.Json

open Raw Value

variable {b : UInt8} {piece : List UInt8}

/-- How a byte of a text is written: behind a backslash, as its code, or as it is. -/
inductive Escaped : UInt8 → List UInt8 → Prop
  | short {c : UInt8} (h : isShortEscape c = true) : Escaped (shortEscape c) [0x5C, c]
  | code {b h₃ h₄ : UInt8} (hlow : b < 0x20) (hhex : isHex h₃ = true ∧ isHex h₄ = true)
      (hunit : hexUnit 0x30 0x30 h₃ h₄ = b.toNat) : Escaped b [0x5C, 0x75, 0x30, 0x30, h₃, h₄]
  | plain {b : UInt8} (hquote : b ≠ 0x22) (hback : b ≠ 0x5C) (hhigh : ¬ b < 0x20) : Escaped b [b]

theorem hexByte_facts : ∀ n < 32, isHex (hexByte (n / 16)) = true ∧ isHex (hexByte (n % 16)) = true ∧
    hexUnit 0x30 0x30 (hexByte (n / 16)) (hexByte (n % 16)) = n := by
  decide

theorem escaped_escapeByte (b : UInt8) : Escaped b (escapeByte b) := by
  unfold escapeByte
  split_ifs with hquote hback hb hf hn hr ht hlow
  · subst hquote
    exact .short (c := 0x22) rfl
  · subst hback
    exact .short (c := 0x5C) rfl
  · exact hb ▸ .short (c := 0x62) rfl
  · exact hf ▸ .short (c := 0x66) rfl
  · exact hn ▸ .short (c := 0x6E) rfl
  · exact hr ▸ .short (c := 0x72) rfl
  · exact ht ▸ .short (c := 0x74) rfl
  · obtain ⟨hhigh, hrest, hunit⟩ := hexByte_facts b.toNat (UInt8.lt_iff_toNat_lt.1 hlow)
    exact .code hlow ⟨hhigh, hrest⟩ hunit
  · exact .plain hquote hback hlow

/-! ### The string that is written -/

theorem stringBody_escaped (h : Escaped b piece) (tail : List UInt8) :
    stringBody (piece ++ tail) = (stringBody tail).map fun (s, r) => (piece ++ s, r) := by
  rw [stringBody.eq_def]
  cases h with
  | short h => simp [h]
  | code hlow hhex hunit =>
    have hzero : isHex 0x30 = true := rfl
    have hshort : isShortEscape 0x75 = false := rfl
    simp [hhex, hzero, hshort]
  | plain hquote hback hhigh => simp [hquote, hback, hhigh]

theorem stringBody_flatMap (bytes rest : List UInt8) :
    stringBody (bytes.flatMap escapeByte ++ 0x22 :: rest) = some (bytes.flatMap escapeByte, rest) := by
  induction bytes with
  | nil => simp [stringBody.eq_def]
  | cons b bytes ih =>
    rw [List.flatMap_cons, List.append_assoc, stringBody_escaped (escaped_escapeByte b), ih]
    rfl

/-- The bytes of a text between its quotes. -/
def escaped (s : String) : List UInt8 := s.toUTF8.toList.flatMap escapeByte

theorem stringBody_text (s : String) (rest : List UInt8) :
    stringBody (escaped s ++ 0x22 :: rest) = some (escaped s, rest) :=
  stringBody_flatMap _ rest

/-! ### The text that is read -/

theorem unescape_escaped (h : Escaped b piece) (tail : List UInt8) :
    unescape (piece ++ tail) = (unescape tail).map (b :: ·) := by
  rw [unescape.eq_def]
  cases h with
  | @short c h =>
    have hcode : c ≠ 0x75 := by
      rintro rfl
      cases h
    simp [hcode]
  | code hlow hhex hunit =>
    have hsmall : b.toNat < 32 := UInt8.lt_iff_toNat_lt.1 hlow
    have hbelow : ¬ 0xD800 ≤ b.toNat := by omega
    have hbelow' : ¬ 0xDC00 ≤ b.toNat := by omega
    simp [hunit, hbelow, hbelow', Bytes.utf8EncodeChar_ofNat _ (Nat.lt_trans hsmall (by decide))]
  | plain hquote hback hhigh => simp [hback]

theorem unescape_flatMap (bytes : List UInt8) : unescape (bytes.flatMap escapeByte) = some bytes := by
  induction bytes with
  | nil => rfl
  | cons b bytes ih =>
    rw [List.flatMap_cons, unescape_escaped (escaped_escapeByte b), ih]
    rfl

theorem bodyText_escaped (s : String) : bodyText (escaped s) = .ok s := by
  rw [bodyText, escaped, unescape_flatMap]
  simp only [Bytes.toByteArray_toList, Bytes.fromUTF8?_toUTF8]

/-! ### Texts of blanks -/

/-- Whether a value may start with a byte. -/
def startsValue (b : UInt8) : Bool :=
  b == 0x22 || b == 0x5B || b == 0x7B || b == 0x2D || isDigit b || b == 0x6E || b == 0x74 || b == 0x66

theorem value?_eq_none {bs : List UInt8} (h : ∀ b ∈ (skipSpace bs).head?, startsValue b = false)
    (fuel : Nat) : value? fuel bs = none := by
  cases fuel with
  | zero => rfl
  | succ fuel =>
    rw [value?]
    cases hskip : skipSpace bs with
    | nil => rfl
    | cons b rest =>
      have hb := h b (by rw [hskip]; rfl)
      simp only [startsValue, Bool.or_eq_false_iff, beq_eq_false_iff_ne] at hb
      simp [hb, word?, List.isPrefixOf, Ne.symm]

theorem startsValue_of_ascii :
    ∀ n < 128, Text.isBlank (Char.ofNat n) = true → startsValue n.toUInt8 = false := by
  decide +kernel

theorem not_ascii_facts :
    ∀ n < 256, 128 ≤ n → startsValue n.toUInt8 = false ∧ isSpace n.toUInt8 = false := by
  decide +kernel

/-- Blanks are skipped up to the first that is none to the reader, and no value starts with that one. -/
theorem head_skipSpace_of_blank {cs : List Char} (h : ∀ c ∈ cs, Text.isBlank c = true) :
    ∀ b ∈ (skipSpace (cs.flatMap String.utf8EncodeChar)).head?, startsValue b = false := by
  induction cs with
  | nil =>
    intro b hb
    cases hb
  | cons c cs ih =>
    rw [List.flatMap_cons]
    rcases Nat.lt_or_ge c.toNat 128 with hascii | hbeyond
    · have hstart : startsValue c.toNat.toUInt8 = false :=
        startsValue_of_ascii c.toNat hascii (by rw [Char.ofNat_toNat]; exact h c List.mem_cons_self)
      rw [Bytes.utf8EncodeChar_of_lt hascii, List.singleton_append, skipSpace, List.dropWhile_cons]
      split
      · exact ih fun c hc => h c (.tail _ hc)
      · rintro _ ⟨⟩
        exact hstart
    · have hsize : 0 < (String.utf8EncodeChar c).length := String.length_utf8EncodeChar c ▸ c.utf8Size_pos
      obtain ⟨b, tail, hbytes⟩ := List.exists_cons_of_ne_nil (List.ne_nil_of_length_pos hsize)
      have hb := not_ascii_facts b.toNat b.toNat_lt
        (Bytes.le_of_mem_utf8EncodeChar hbeyond (hbytes ▸ List.mem_cons_self))
      rw [Bytes.toUInt8_toNat] at hb
      rw [hbytes, List.cons_append, skipSpace, List.dropWhile_cons_of_neg (by simp [hb.2])]
      rintro _ ⟨⟩
      exact hb.1

/-- A document is not blank. -/
theorem trim_ne_empty_of_ofText {s : String} {r : Raw} (h : Raw.ofText s = .ok r) : Text.trim s ≠ "" := by
  intro hblank
  obtain ⟨front, back, hs, hfront, hback⟩ := Text.exists_padded s.toList
  have hnothing : Text.trimChars s.toList = [] := by
    simpa [Text.trim] using congrArg String.toList hblank
  rw [hnothing, List.append_nil] at hs
  have hall : ∀ c ∈ s.toList, Text.isBlank c = true := by
    rw [hs]
    exact List.forall_mem_append.2 ⟨hfront, hback⟩
  rw [Raw.ofText, Raw.parse, Bytes.toList_toUTF8,
    value?_eq_none (head_skipSpace_of_blank hall)] at h
  cases h

/-! ### What is written is a text -/

/-- Whether bytes are those of a text. -/
def IsText (bytes : List UInt8) : Prop := ∃ s : String, s.toUTF8.toList = bytes

theorem IsText.append {a b : List UInt8} (ha : IsText a) (hb : IsText b) : IsText (a ++ b) := by
  obtain ⟨s, rfl⟩ := ha
  obtain ⟨t, rfl⟩ := hb
  exact ⟨s ++ t, Bytes.toList_toUTF8_append s t⟩

theorem IsText.flatMap {α : Type} {l : List α} {f : α → List UInt8} (h : ∀ x ∈ l, IsText (f x)) :
    IsText (l.flatMap f) := by
  induction l with
  | nil => exact ⟨"", Bytes.toList_toUTF8_eq_nil.2 rfl⟩
  | cons x l ih => exact (h x List.mem_cons_self).append (ih fun y hy => h y (.tail _ hy))

theorem isText_ascii {bytes : List UInt8} (h : ∀ b ∈ bytes, b.toNat < 128) : IsText bytes := by
  refine ⟨String.ofList (bytes.map fun b => Char.ofNat b.toNat), ?_⟩
  rw [Bytes.toList_toUTF8, String.toList_ofList, List.flatMap_map]
  refine (List.flatMap_congr fun b hb => ?_).trans (List.flatMap_singleton' bytes)
  rw [Bytes.utf8EncodeChar_ofNat b.toNat (h b hb), Bytes.toUInt8_toNat]

theorem isText_singleton {b : UInt8} (h : b.toNat < 128) : IsText [b] :=
  isText_ascii (List.forall_mem_singleton.2 h)

theorem escapeByte_ascii : ∀ n < 128, ∀ b ∈ escapeByte n.toUInt8, b.toNat < 128 := by
  decide +kernel

theorem escapeByte_of_le : ∀ n < 256, 128 ≤ n → escapeByte n.toUInt8 = [n.toUInt8] := by
  decide +kernel

theorem isText_escaped (s : String) : IsText (escaped s) := by
  rw [escaped, Bytes.toList_toUTF8, List.flatMap_assoc]
  refine .flatMap fun c _ => ?_
  rcases Nat.lt_or_ge c.toNat 128 with hascii | hbeyond
  · rw [Bytes.utf8EncodeChar_of_lt hascii, List.flatMap_singleton]
    exact isText_ascii (escapeByte_ascii c.toNat hascii)
  · -- nothing beyond ASCII is escaped
    have hplain : (String.utf8EncodeChar c).flatMap escapeByte = String.utf8EncodeChar c := by
      refine (List.flatMap_congr fun b hb => ?_).trans (List.flatMap_singleton' _)
      have hescape := escapeByte_of_le b.toNat b.toNat_lt (Bytes.le_of_mem_utf8EncodeChar hbeyond hb)
      rwa [Bytes.toUInt8_toNat] at hescape
    refine ⟨String.ofList [c], ?_⟩
    rw [hplain, Bytes.toList_toUTF8, String.toList_ofList, List.flatMap_singleton]

theorem isText_encodeText (s : String) : IsText (encodeText s) := by
  have hquote : IsText [0x22] := isText_singleton (by decide)
  exact (hquote.append (isText_escaped s)).append hquote

end Groundwork.Json
