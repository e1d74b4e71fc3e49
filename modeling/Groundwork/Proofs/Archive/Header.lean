import Mathlib.Algebra.Ring.Nat
import Groundwork.Archive.Writer
import Groundwork.Proofs.Archive.Name

/-! Header blocks. Every field of a header that is written is read back as it was, numbers in octal
or binary notation and the sum included. -/
namespace Groundwork.Archive

variable {lead name sum : List UInt8} {size : Nat}

/-! ### Lengths -/

theorem length_filled {len : Nat} {bytes : List UInt8} (h : bytes.length ≤ len) :
    (filled len bytes).length = len := by
  rw [filled, List.length_append, List.length_replicate, Nat.add_sub_cancel' h]

theorem length_filled_nil (len : Nat) : (filled len []).length = len :=
  length_filled (Nat.zero_le len)

theorem length_octalDigits (count n : Nat) : (octalDigits count n).length = count := by
  induction count generalizing n with
  | zero => rfl
  | succ count ih => simp [octalDigits, ih]

theorem length_binaryDigits (count n : Nat) : (binaryDigits count n).length = count := by
  induction count generalizing n with
  | zero => rfl
  | succ count ih => simp [binaryDigits, ih]

theorem length_octalField (len n : Nat) (h : 0 < len) : (octalField len n).length = len := by
  rw [octalField, List.length_append, length_octalDigits, List.length_singleton,
    Nat.sub_add_cancel h]

theorem length_sizeOctets (n : Nat) : (sizeOctets n).length = 12 := by
  unfold sizeOctets
  split
  · exact length_octalField 12 n (by decide)
  · simp [length_binaryDigits]

/-! ### Octal numbers -/

/-- The characters of a number of so many octal digits. -/
def octalText : Nat → Nat → List Char
  | 0, _ => []
  | count + 1, n => octalText count (n / 8) ++ [Char.ofNat (0x30 + n % 8)]

/-- What holds of the eight digits holds of every octal digit. -/
theorem octalDigit_cases {P : Nat → Prop} (h : ∀ d : Fin 8, P d) (n : Nat) : P (n % 8) :=
  h ⟨n % 8, Nat.mod_lt n (by decide)⟩

theorem toUTF8_octalText (count n : Nat) :
    (String.ofList (octalText count n)).toUTF8.toList = octalDigits count n := by
  induction count generalizing n with
  | zero => exact Bytes.toList_toUTF8_eq_nil.2 rfl
  | succ count ih =>
    have hdigit : (String.ofList [Char.ofNat (0x30 + n % 8)]).toUTF8.toList =
        [(0x30 + n % 8).toUInt8] := by
      refine octalDigit_cases (P := fun d =>
        (String.ofList [Char.ofNat (0x30 + d)]).toUTF8.toList = [(0x30 + d).toUInt8]) ?_ n
      intro d
      rw [Bytes.toList_eq_data]
      revert d
      decide
    rw [octalText, octalDigits, String.ofList_append, Bytes.toList_toUTF8_append, ih, hdigit]

theorem mem_octalText {count n : Nat} {c : Char} (h : c ∈ octalText count n) :
    Header.octalDigit c ∧ !Text.isBlank c ∧ c ≠ '+' := by
  induction count generalizing n with
  | zero => simp [octalText] at h
  | succ count ih =>
    rcases List.mem_append.1 h with h | h
    · exact ih h
    · rw [List.mem_singleton.1 h]
      refine octalDigit_cases (P := fun d => Header.octalDigit (Char.ofNat (0x30 + d)) ∧
        !Text.isBlank (Char.ofNat (0x30 + d)) ∧ Char.ofNat (0x30 + d) ≠ '+') ?_ n
      decide

theorem mem_octalDigits {count n : Nat} {b : UInt8} (h : b ∈ octalDigits count n) :
    b ≠ 0 ∧ b < 0x80 := by
  induction count generalizing n with
  | zero => simp [octalDigits] at h
  | succ count ih =>
    rcases List.mem_append.1 h with h | h
    · exact ih h
    · rw [List.mem_singleton.1 h]
      refine octalDigit_cases (P := fun d => (0x30 + d).toUInt8 ≠ 0 ∧ (0x30 + d).toUInt8 < 0x80)
        ?_ n
      decide

theorem value_octalText (count n : Nat) :
    (octalText count n).foldl (fun n c => n * 8 + (c.toNat - 48)) 0 = n % 8 ^ count := by
  induction count generalizing n with
  | zero => simp [octalText, Nat.mod_one]
  | succ count ih =>
    have hdigit : (Char.ofNat (0x30 + n % 8)).toNat - 48 = n % 8 := by
      refine octalDigit_cases (P := fun d => (Char.ofNat (0x30 + d)).toNat - 48 = d) ?_ n
      decide
    rw [octalText, List.foldl_append, List.foldl_cons, List.foldl_nil, ih, hdigit, Nat.pow_succ,
      Nat.mul_comm (8 ^ count) 8, Nat.mod_mul]
    omega

theorem text_append_zeros {bytes : List UInt8} (h : 0 ∉ bytes) (count : Nat) :
    Header.text (bytes ++ List.replicate count 0) = bytes := by
  unfold Header.text
  rw [List.takeWhile_append_of_pos]
  · simp
  · intro b hb
    have hne : b ≠ 0 := fun he => h (he ▸ hb)
    simpa using hne

/-- A number that fits its octal field is read back. -/
theorem octal?_octalField {count n : Nat} (hcount : 0 < count) (hn : n < 8 ^ count)
    (hbits : n < 2 ^ 64) : Header.octal? (octalField (count + 1) n) = some n := by
  have htext : Header.text (octalField (count + 1) n) = octalDigits count n :=
    text_append_zeros (fun h => (mem_octalDigits h).1 rfl) 1
  have hutf : String.fromUTF8? (octalDigits count n).toByteArray =
      some (String.ofList (octalText count n)) := by
    rw [← toUTF8_octalText, Bytes.toByteArray_toList, Bytes.fromUTF8?_toUTF8]
  have htrim : Text.trimChars (octalText count n) = octalText count n :=
    Text.trimChars_of_no_blank fun c hc => (mem_octalText hc).2.1
  have hlen : (octalText count n).isEmpty = false := by
    obtain ⟨count, rfl⟩ := Nat.exists_eq_add_of_lt hcount
    simp [octalText]
  have hdigits : (octalText count n).all Header.octalDigit = true := by
    rw [List.all_eq_true]
    exact fun c hc => (mem_octalText hc).1
  have hvalue : (octalText count n).foldl (fun n c => n * 8 + (c.toNat - 48)) 0 = n := by
    rw [value_octalText, Nat.mod_eq_of_lt hn]
  have hpow : n < Nat.pow 2 64 := hbits
  unfold Header.octal?
  simp only [htext, hutf, Option.bind_eq_bind, Option.bind_some, String.toList_ofList, htrim]
  split
  · next rest hplus =>
    have hmem : '+' ∈ octalText count n := by simp [hplus]
    exact ((mem_octalText hmem).2.2 rfl).elim
  · rw [hlen, hdigits, hvalue]
    exact if_pos hpow

/-! ### Sizes -/

theorem binaryDigits_add (a b n : Nat) :
    binaryDigits (a + b) n = binaryDigits a (n / 256 ^ b) ++ binaryDigits b n := by
  induction b generalizing n with
  | zero => simp [binaryDigits]
  | succ b ih =>
    rw [← Nat.add_assoc, binaryDigits, binaryDigits, ih, Nat.div_div_eq_div_mul, Nat.pow_succ,
      Nat.mul_comm 256, List.append_assoc]

theorem value_binaryDigits (count n : Nat) :
    (binaryDigits count n).foldl (fun n b => n * 256 + b.toNat) 0 = n % 256 ^ count := by
  induction count generalizing n with
  | zero => simp [binaryDigits, Nat.mod_one]
  | succ count ih =>
    rw [binaryDigits, List.foldl_append, List.foldl_cons, List.foldl_nil, ih, Nat.pow_succ,
      Nat.mul_comm (256 ^ count) 256, Nat.mod_mul]
    have hdigit : (n % 256).toUInt8.toNat = n % 256 := by simp
    rw [hdigit, Nat.mul_comm, Nat.add_comm]

/-- A size of 64 bits is read back, in whichever notation it is written. -/
theorem number?_sizeOctets {n : Nat} (hn : n < 2 ^ 64) :
    Header.number? (sizeOctets n) = some n := by
  unfold sizeOctets
  split
  · next hoctal =>
    have hback : Header.octal? (octalField 12 n) = some n :=
      octal?_octalField (by decide) hoctal hn
    cases hf : octalField 12 n with
    | nil =>
      have hlen := length_octalField 12 n (by decide)
      rw [hf] at hlen
      cases hlen
    | cons b bs =>
      have hb : b < 0x80 := by
        have hmem : b ∈ octalDigits 11 n ++ [0] := by
          have hb : b ∈ octalField 12 n := by simp [hf]
          exact hb
        rcases List.mem_append.1 hmem with h | h
        · exact (mem_octalDigits h).2
        · rw [List.mem_singleton.1 h]
          decide
      rw [hf] at hback
      rw [Header.number?, if_neg (UInt8.not_le.2 hb), hback]
  · have hlast : ((0x80 : UInt8) :: binaryDigits 11 n).drop 4 = binaryDigits 8 n := by
      rw [List.drop_succ_cons, show 11 = 3 + 8 from rfl, binaryDigits_add]
      exact List.drop_left' (length_binaryDigits 3 _)
    have hbits : n < 256 ^ 8 := hn
    simp only [Header.number?, List.length_cons, length_binaryDigits, hlast, value_binaryDigits,
      Nat.mod_eq_of_lt hbits]
    rfl

/-! ### Fields -/

theorem field_append {before field after : List UInt8} {start len : Nat}
    (hb : before.length = start) (hf : field.length = len) :
    Header.field (before ++ (field ++ after)) start len = field := by
  simp [Header.field, ← hb, ← hf]

variable (hlead : lead.length ≤ longestLead) (hname : name.length ≤ longestName)
  (hsum : sum.length = 8)

/-- The part of a header that stands before its sum. -/
def headerFront (name : List UInt8) (size : Nat) : List UInt8 :=
  filled 100 name ++ (octalField 8 memberMode ++ filled 16 []) ++
    (sizeOctets size ++ octalField 12 0)

/-- The part of a header that stands after its sum. -/
def headerBack (lead : List UInt8) : List UInt8 :=
  [0x30] ++ (filled 100 [] ++ (Header.standardMagic ++ (filled 80 [] ++
    (filled 155 lead ++ filled 12 []))))

theorem headerWith_eq (lead name sum : List UInt8) (size : Nat) :
    headerWith lead name sum size = headerFront name size ++ (sum ++ headerBack lead) := by
  simp [headerWith, headerFront, headerBack]

include hname in
theorem length_headerFront : (headerFront name size).length = 148 := by
  have hfill : (filled 100 name).length = 100 := length_filled hname
  simp only [headerFront, List.length_append, hfill, length_filled_nil, length_sizeOctets,
    length_octalField 8 _ (by decide), length_octalField 12 _ (by decide)]

include hlead in
theorem length_headerBack : (headerBack lead).length = 356 := by
  have hfill : (filled 155 lead).length = 155 := length_filled hlead
  simp only [headerBack, List.length_append, hfill, length_filled_nil, Header.standardMagic,
    List.length_cons, List.length_nil]

include hlead hname hsum in
theorem length_headerWith : (headerWith lead name sum size).length = 512 := by
  rw [headerWith_eq, List.length_append, List.length_append, length_headerFront hname,
    length_headerBack hlead, hsum]

include hname in
theorem sizeField_headerWith : (headerWith lead name sum size).sizeField = sizeOctets size := by
  have hfill : (filled 100 name).length = 100 := length_filled hname
  rw [headerWith_eq, headerFront, List.append_assoc, List.append_assoc (sizeOctets size)]
  refine field_append ?_ (length_sizeOctets size)
  simp only [List.length_append, hfill, length_filled_nil, length_octalField 8 _ (by decide)]

include hname in
theorem name_headerWith : (headerWith lead name sum size).name = filled 100 name := by
  rw [headerWith_eq, headerFront, List.append_assoc, List.append_assoc]
  exact @field_append [] _ _ 0 100 rfl (length_filled hname)

include hname hsum in
theorem sum_headerWith : (headerWith lead name sum size).field 148 8 = sum := by
  rw [headerWith_eq]
  exact field_append (length_headerFront hname) hsum

include hname hsum in
theorem kind_headerWith : (headerWith lead name sum size).kind = 0x30 := by
  have hfield : (headerWith lead name sum size).field 156 1 = [0x30] := by
    rw [headerWith_eq, ← List.append_assoc]
    refine field_append ?_ rfl
    rw [List.length_append, length_headerFront hname, hsum]
  rw [Header.kind, hfield]
  rfl

include hname hsum in
theorem magic_headerWith :
    (headerWith lead name sum size).field 257 8 = Header.standardMagic := by
  have hsplit : headerWith lead name sum size =
      (headerFront name size ++ sum ++ [0x30] ++ filled 100 []) ++ (Header.standardMagic ++
        (filled 80 [] ++ (filled 155 lead ++ filled 12 []))) := by
    simp [headerWith_eq, headerBack]
  rw [hsplit]
  refine field_append ?_ rfl
  simp only [List.length_append, length_headerFront hname, hsum, length_filled_nil,
    List.length_cons, List.length_nil]

include hlead hname hsum in
theorem lead_headerWith : (headerWith lead name sum size).lead = filled 155 lead := by
  have hsplit : headerWith lead name sum size =
      (headerFront name size ++ sum ++ [0x30] ++ filled 100 [] ++ Header.standardMagic ++
        filled 80 []) ++ (filled 155 lead ++ filled 12 []) := by
    simp [headerWith_eq, headerBack]
  rw [hsplit]
  refine field_append ?_ (length_filled hlead)
  simp only [List.length_append, length_headerFront hname, hsum, length_filled_nil,
    Header.standardMagic, List.length_cons, List.length_nil]

/-! ### The sum -/

theorem total_le (bytes : List UInt8) : Header.total bytes ≤ 255 * bytes.length := by
  have start (n : Nat) : bytes.foldl (fun n b => n + b.toNat) n ≤ n + 255 * bytes.length := by
    induction bytes generalizing n with
    | nil => simp
    | cons b bytes ih =>
      have hb := b.toNat_lt
      have hrest := ih (n + b.toNat)
      simp only [List.foldl_cons, List.length_cons]
      omega
  simpa [Header.total] using start 0

include hname hsum in
theorem sum_eq_of_parts : (headerWith lead name sum size).sum =
    Header.total (headerFront name size) + 8 * 0x20 + Header.total (headerBack lead) := by
  have hfront : (headerWith lead name sum size).take 148 = headerFront name size := by
    rw [headerWith_eq, ← @length_headerFront name size hname]
    exact List.take_left' rfl
  have hback : (headerWith lead name sum size).drop 156 = headerBack lead := by
    rw [headerWith_eq, ← List.append_assoc]
    refine List.drop_left' ?_
    rw [List.length_append, length_headerFront hname, hsum]
  rw [Header.sum, hfront, hback]

include hlead hname in
theorem isIntact_header : (header lead name size).isIntact := by
  have hblank := @sum_eq_of_parts lead name (List.replicate 8 0x20) size hname rfl
  have hfront := total_le (headerFront name size)
  have hback := total_le (headerBack lead)
  rw [length_headerFront hname] at hfront
  rw [length_headerBack hlead] at hback
  have hlen := length_octalField 8 (headerWith lead name (List.replicate 8 0x20) size).sum
    (by decide)
  rw [Header.isIntact, header, sum_headerWith hname hlen, sum_eq_of_parts hname hlen, ← hblank,
    octal?_octalField (by decide) (by omega) (by omega)]
  simp

/-! ### Headers as they are read -/

include hlead hname in
theorem length_header : (header lead name size).length = blockSize :=
  length_headerWith hlead hname (length_octalField 8 _ (by decide))

include hname in
theorem kind_header : (header lead name size).kind = 0x30 :=
  kind_headerWith hname (length_octalField 8 _ (by decide))

include hname in
theorem isStandard_header : (header lead name size).isStandard = true := by
  rw [Header.isStandard, header, magic_headerWith hname (length_octalField 8 _ (by decide))]
  rfl

include hname in
/-- A header is not taken for the end of the archive. -/
theorem not_all_zero_header : (header lead name size).all (· = 0) = false := by
  rw [Bool.eq_false_iff]
  intro hall
  have hkind : (header lead name size).kind = 0 := by
    rw [Header.kind, Header.field]
    cases hd : ((header lead name size).drop 156).take 1 with
    | nil => rfl
    | cons b bs =>
      have hb : b ∈ header lead name size :=
        List.mem_of_mem_drop (List.mem_of_mem_take (hd ▸ List.mem_cons_self))
      simpa using List.all_eq_true.1 hall b hb
  rw [kind_header hname] at hkind
  exact absurd hkind (by decide)

include hname in
theorem number?_header (hsize : size < 2 ^ 64) :
    Header.number? (header lead name size).sizeField = some size := by
  rw [header, sizeField_headerWith hname, number?_sizeOctets hsize]

include hlead hname in
theorem path_header (hzero : 0 ∉ lead) (hzero' : 0 ∉ name) :
    (header lead name size).path = joined lead name := by
  have hsum := length_octalField 8 (headerWith lead name (List.replicate 8 0x20) size).sum
    (by decide)
  have hlead' : Header.text (header lead name size).lead = lead := by
    rw [header, lead_headerWith hlead hname hsum]
    exact text_append_zeros hzero _
  have hname' : Header.text (header lead name size).name = name := by
    rw [header, name_headerWith hname]
    exact text_append_zeros hzero' _
  rw [Header.path, hlead', hname', isStandard_header hname, joined]
  cases lead <;> rfl

end Groundwork.Archive
