import Groundwork.Base64
import Groundwork.Proofs.Bytes
import Groundwork.Proofs.Text

/-! Decoding gives back what was encoded. -/
namespace Groundwork.Base64

theorem symbol_facts (n : Fin 64) :
    index? (symbol n) = some n.val ∧ symbol n ≠ '=' ∧ Text.isBlank (symbol n) = false := by
  revert n
  decide +kernel

variable {n : Nat}

theorem index?_symbol (h : n < 64) : index? (symbol n) = some n := (symbol_facts ⟨n, h⟩).1

theorem symbol_ne_padding (h : n < 64) : symbol n ≠ '=' := (symbol_facts ⟨n, h⟩).2.1

theorem isBlank_symbol (n : Nat) : Text.isBlank (symbol n) = false := by
  by_cases h : n < 64
  · exact (symbol_facts ⟨n, h⟩).2.2
  · have hbeyond : alphabet.length ≤ n := Nat.le_of_not_lt h
    rw [symbol, List.getD_eq_getElem?_getD, List.getElem?_eq_none hbeyond]
    rfl

/-- Induction on the groups of three bytes. The bits of a group are its symbols of six bits each, and the
bits that a last group leaves unused are zero. -/
theorem decodeChars?_encodeChars (bytes : List UInt8) :
    decodeChars? (encodeChars bytes) = some bytes := by
  fun_induction encodeChars bytes with
  | case1 => rfl
  | case2 a n =>
    have ha := a.toNat_lt
    have hsum : n / 64 * 64 + n % 64 = n := by omega
    have hunused : n % 16 = 0 := by omega
    have hfirst : n / 16 = a.toNat := by omega
    simp [decodeChars?, index?_symbol (show n / 64 < 64 by omega),
      index?_symbol (show n % 64 < 64 by omega), hsum, hunused, hfirst]
  | case3 a b n =>
    have ha := a.toNat_lt
    have hb := b.toNat_lt
    have hsum : (n / 4096 * 64 + n / 64 % 64) * 64 + n % 64 = n := by omega
    have hunused : n % 4 = 0 := by omega
    have hfirst : n / 1024 = a.toNat := by omega
    have hsecond : n / 4 % 256 = b.toNat := by omega
    simp [decodeChars?, index?_symbol (show n / 4096 < 64 by omega),
      index?_symbol (show n / 64 % 64 < 64 by omega), index?_symbol (show n % 64 < 64 by omega),
      symbol_ne_padding (show n % 64 < 64 by omega), hsum, hunused, hfirst, hsecond]
  | case4 a b c rest n ih =>
    have ha := a.toNat_lt
    have hb := b.toNat_lt
    have hc := c.toNat_lt
    have hsum : ((n / 262144 * 64 + n / 4096 % 64) * 64 + n / 64 % 64) * 64 + n % 64 = n := by omega
    have hfirst : n / 65536 = a.toNat := by omega
    have hsecond : n / 256 % 256 = b.toNat := by omega
    have hthird : n % 256 = c.toNat := by omega
    simp [decodeChars?, index?_symbol (show n / 262144 < 64 by omega),
      index?_symbol (show n / 4096 % 64 < 64 by omega), index?_symbol (show n / 64 % 64 < 64 by omega),
      index?_symbol (show n % 64 < 64 by omega), symbol_ne_padding (show n % 64 < 64 by omega),
      hsum, hfirst, hsecond, hthird, ih]

theorem not_isBlank_of_mem_encodeChars {c : Char} {bytes : List UInt8}
    (h : c ∈ encodeChars bytes) : Text.isBlank c = false := by
  fun_induction encodeChars bytes with
  | case1 => cases h
  | case2 a n =>
    simp only [List.mem_cons, List.not_mem_nil, or_false] at h
    rcases h with rfl | rfl | rfl | rfl
    · exact isBlank_symbol _
    · exact isBlank_symbol _
    · rfl
    · rfl
  | case3 a b n =>
    simp only [List.mem_cons, List.not_mem_nil, or_false] at h
    rcases h with rfl | rfl | rfl | rfl
    · exact isBlank_symbol _
    · exact isBlank_symbol _
    · exact isBlank_symbol _
    · rfl
  | case4 a b c rest n ih =>
    rcases List.mem_cons.1 h with rfl | h
    · exact isBlank_symbol _
    · simp only [List.mem_cons] at h
      rcases h with rfl | rfl | rfl | h
      · exact isBlank_symbol _
      · exact isBlank_symbol _
      · exact isBlank_symbol _
      · exact ih h

/-- The decoded text of a key is the key. -/
theorem decode?_encode (bytes : ByteArray) : decode? (encode bytes) = some bytes := by
  have htrim : Text.trimChars (encodeChars bytes.toList) = encodeChars bytes.toList :=
    Text.trimChars_of_no_blank fun c hc => by rw [not_isBlank_of_mem_encodeChars hc]; rfl
  rw [decode?, encode, Text.trim, String.toList_ofList, String.toList_ofList, htrim,
    decodeChars?_encodeChars, Option.map_some, Bytes.toByteArray_toList]

end Groundwork.Base64
