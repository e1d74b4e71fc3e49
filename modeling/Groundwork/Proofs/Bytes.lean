import Groundwork.Text.Utf8

/-! Byte arrays as lists of bytes, and texts as their bytes. -/
namespace Groundwork.Bytes

variable {a b : ByteArray} {l : List UInt8}

theorem toList_loop (b : ByteArray) (i : Nat) (r : List UInt8) :
    ByteArray.toList.loop b i r = r.reverse ++ b.data.toList.drop i := by
  fun_induction ByteArray.toList.loop b i r with
  | case1 i r hi ih =>
    rw [ih, List.drop_eq_getElem_cons (i := i) (by simpa using hi)]
    simp [ByteArray.get!, getElem!_pos b.data i (by simpa using hi)]
  | case2 i r hi => simp [Nat.le_of_not_lt hi]

theorem toList_eq_data (b : ByteArray) : b.toList = b.data.toList := by
  simp [ByteArray.toList, toList_loop]

@[simp] theorem toList_toByteArray (l : List UInt8) : l.toByteArray.toList = l := by
  rw [toList_eq_data, List.toList_data_toByteArray]

@[simp] theorem toByteArray_toList (b : ByteArray) : b.toList.toByteArray = b := by
  apply ByteArray.ext
  rw [List.data_toByteArray, toList_eq_data]

@[simp] theorem toList_append (a b : ByteArray) : (a ++ b).toList = a.toList ++ b.toList := by
  simp [toList_eq_data]

@[simp] theorem length_toList (b : ByteArray) : b.toList.length = b.size := by
  simp [toList_eq_data]

@[simp] theorem toList_extract (b : ByteArray) (i j : Nat) :
    (b.extract i j).toList = (b.toList.take j).drop i := by
  simp [toList_eq_data, ByteArray.data_extract, List.drop_take]

theorem toList_inj : a.toList = b.toList ↔ a = b := by
  constructor
  · intro h
    rw [← toByteArray_toList a, h, toByteArray_toList]
  · rintro rfl
    rfl

theorem toList_toUTF8_inj {s t : String} : s.toUTF8.toList = t.toUTF8.toList ↔ s = t := by
  rw [toList_inj, String.toUTF8_eq_toByteArray, String.toUTF8_eq_toByteArray,
    String.toByteArray_inj]

theorem toList_toUTF8_append (s t : String) :
    (s ++ t).toUTF8.toList = s.toUTF8.toList ++ t.toUTF8.toList := by
  simp

theorem toList_toUTF8_eq_nil {s : String} : s.toUTF8.toList = [] ↔ s = "" := by
  have hempty : "".toUTF8.toList = [] := by
    rw [toList_eq_data]
    rfl
  rw [← hempty, toList_toUTF8_inj]

theorem toList_toUTF8 (s : String) : s.toUTF8.toList = s.toList.flatMap String.utf8EncodeChar := by
  calc s.toUTF8.toList = (String.ofList s.toList).toUTF8.toList := by rw [String.ofList_toList]
    _ = s.toList.flatMap String.utf8EncodeChar := toList_toByteArray _

theorem utf8EncodeChar_ofNat :
    ∀ n < 128, String.utf8EncodeChar (Char.ofNat n) = [n.toUInt8] := by
  decide +kernel

theorem toUInt8_toNat (b : UInt8) : b.toNat.toUInt8 = b := UInt8.ofNat_toNat

theorem utf8EncodeChar_of_lt {c : Char} (h : c.toNat < 128) :
    String.utf8EncodeChar c = [c.toNat.toUInt8] := by
  rw [← utf8EncodeChar_ofNat c.toNat h, Char.ofNat_toNat]

/-- Beyond ASCII no byte of a character is one of an ASCII character. -/
theorem le_of_mem_utf8EncodeChar {c : Char} (hc : 128 ≤ c.toNat) {b : UInt8}
    (hb : b ∈ String.utf8EncodeChar c) : 128 ≤ b.toNat := by
  have hval : c.val.toNat = c.toNat := rfl
  simp only [String.utf8EncodeChar, hval] at hb
  rw [if_neg (by omega)] at hb
  split at hb
  · simp only [List.mem_cons, List.not_mem_nil, or_false] at hb
    rcases hb with rfl | rfl <;> rw [UInt8.toNat_ofNat'] <;> omega
  · split at hb
    · simp only [List.mem_cons, List.not_mem_nil, or_false] at hb
      rcases hb with rfl | rfl | rfl <;> rw [UInt8.toNat_ofNat'] <;> omega
    · simp only [List.mem_cons, List.not_mem_nil, or_false] at hb
      rcases hb with rfl | rfl | rfl | rfl <;> rw [UInt8.toNat_ofNat'] <;> omega

theorem fromUTF8?_toUTF8 (s : String) : String.fromUTF8? s.toUTF8 = some s := by
  have hv : s.toUTF8.IsValidUTF8 := s.isValidUTF8
  unfold String.fromUTF8?
  rw [dif_pos hv]
  rfl

theorem toUTF8_of_fromUTF8? {b : ByteArray} {s : String} (h : String.fromUTF8? b = some s) :
    s.toUTF8 = b := by
  unfold String.fromUTF8? at h
  split at h
  · cases h
    rfl
  · cases h

theorem ofBytesLossy_toUTF8 (s : String) : Text.ofBytesLossy s.toUTF8 = s := by
  rw [Text.ofBytesLossy, fromUTF8?_toUTF8]

end Groundwork.Bytes
