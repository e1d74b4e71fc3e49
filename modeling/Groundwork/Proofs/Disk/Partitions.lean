import Groundwork.Disk
import Groundwork.Proofs.Text

/-! The paths of partitions. What is put behind a device's path does not change whether the device takes
a separator, so two devices share no partition path. -/
namespace Groundwork

variable {device d e : String} {cs : List Char} {i j : Nat}

/-! ### Devices with a separator -/

theorem infix_of_namesMappedOptical (h : namesMappedOptical cs = true) :
    "/mapper/sr".toList <:+: cs := by
  induction cs with
  | nil => cases h
  | cons c cs ih =>
    rw [namesMappedOptical] at h
    split at h
    · next rest hrest => exact ⟨[], rest, (Text.after?_eq_some_iff.1 hrest).symm⟩
    · exact (ih h).trans (List.suffix_cons c cs).isInfix

/-- The first `/mapper/sr` is found where it was, as it ends before what is put behind. -/
theorem namesMappedOptical_append (h : namesMappedOptical cs = true) (ds : List Char) :
    namesMappedOptical (cs ++ ds) = true := by
  induction cs with
  | nil => cases h
  | cons c cs ih =>
    rw [namesMappedOptical] at h
    rw [List.cons_append, namesMappedOptical]
    cases hfirst : Text.after? "/mapper/sr".toList (c :: cs) with
    | some rest =>
      rw [hfirst] at h
      have hmore : Text.after? "/mapper/sr".toList (c :: (cs ++ ds)) = some (rest ++ ds) := by
        rw [Text.after?_eq_some_iff, ← List.append_assoc, ← Text.after?_eq_some_iff.1 hfirst,
          List.cons_append]
      rw [hmore]
      cases rest with
      | nil => cases h
      | cons d rest => exact h
    | none =>
      rw [hfirst] at h
      have hlater : Text.after? "/mapper/sr".toList (c :: (cs ++ ds)) = none := by
        rw [Option.eq_none_iff_forall_ne_some]
        intro rest hrest
        have hlong := (infix_of_namesMappedOptical h).length_le
        have hprefix : "/mapper/sr".toList <+: c :: cs :=
          List.prefix_of_prefix_length_le ⟨rest, (Text.after?_eq_some_iff.1 hrest).symm⟩
            ⟨ds, List.cons_append⟩ (hlong.trans (Nat.le_succ _))
        obtain ⟨tail, htail⟩ := hprefix
        rw [Text.after?_eq_some_iff.2 htail.symm] at hfirst
        cases hfirst
      rw [hlater]
      exact ih h

theorem takesSeparator_append (h : takesSeparator device = true) (more : String) :
    takesSeparator (device ++ more) = true := by
  simp only [takesSeparator, Bool.or_eq_true] at h ⊢
  rcases h with ((hnvme | hmmc) | hloop) | hoptical
  · exact .inl (.inl (.inl (Text.contains_append hnvme more)))
  · exact .inl (.inl (.inr (Text.contains_append hmmc more)))
  · exact .inl (.inr (Text.contains_append hloop more))
  · right
    rw [String.toList_append]
    exact namesMappedOptical_append hoptical _

/-! ### What stands before the number -/

/-- Whether partition numbers stand apart from the path of a device: it takes a separator, or it does
not end in a digit. -/
def SetsApart (device : String) : Prop :=
  takesSeparator device = true ∨ ∀ c ∈ device.toList.getLast?, c.isDigit = false

theorem SetsApart.getLast? (h : SetsApart device) :
    ∀ c ∈ (device ++ partitionSeparator device).toList.getLast?, c.isDigit = false := by
  by_cases htakes : takesSeparator device = true
  · simp [partitionSeparator, htakes]
  · rcases h with hsep | hlast
    · exact absurd hsep htakes
    · simpa [partitionSeparator, htakes] using hlast

/-- A number at the end is told from what stands before it. -/
theorem append_number_inj (hd : ∀ c ∈ d.toList.getLast?, c.isDigit = false)
    (he : ∀ c ∈ e.toList.getLast?, c.isDigit = false) (h : d ++ toString i = e ++ toString j) :
    d = e ∧ i = j := by
  have hdigits (n : Nat) : ∀ c ∈ (toString n).toList, c.isDigit = true := by
    intro c hc
    rw [Nat.toString_eq_ofList_toDigits, String.toList_ofList] at hc
    exact Nat.isDigit_of_mem_toDigits (by decide) (by decide) hc
  have hfront {s : String} (n : Nat) (hs : ∀ c ∈ s.toList.getLast?, c.isDigit = false) :
      (s ++ toString n).toList.rdropWhile Char.isDigit = s.toList := by
    rw [String.toList_append, Text.rdropWhile_append_of_pos (hdigits n)]
    exact Text.rdropWhile_eq_self_iff.2 hs
  have hsame : d = e := by
    rw [← String.toList_inj, ← hfront i hd, h, hfront j he]
  subst hsame
  exact ⟨rfl, Text.eq_of_repr_eq ((String.append_right_inj d).1 h)⟩

theorem append_separator_inj (h : d ++ partitionSeparator d = e ++ partitionSeparator e) : d = e := by
  -- a device without a separator does not become one with it
  have hmixed {s t : String} (hs : takesSeparator s = true) (ht : takesSeparator t = false)
      (heq : s ++ partitionSeparator s = t ++ partitionSeparator t) : False := by
    have hlonger : t = s ++ "p" := by simpa [partitionSeparator, hs, ht, eq_comm] using heq
    rw [hlonger, takesSeparator_append hs] at ht
    cases ht
  cases hd : takesSeparator d with
  | true =>
    cases he : takesSeparator e with
    | true =>
      simp only [partitionSeparator, hd, he, if_true] at h
      exact (String.append_left_inj "p").1 h
    | false => exact (hmixed hd he h).elim
  | false =>
    cases he : takesSeparator e with
    | true => exact (hmixed he hd h.symm).elim
    | false => simpa [partitionSeparator, hd, he] using h

/-- Partitions of different disks never share a path. -/
theorem partitionPath_inj (hd : SetsApart d) (he : SetsApart e) :
    partitionPath d i = partitionPath e j ↔ d = e ∧ i = j := by
  constructor
  · intro h
    obtain ⟨hstem, hindex⟩ := append_number_inj hd.getLast? he.getLast? h
    exact ⟨append_separator_inj hstem, hindex⟩
  · rintro ⟨rfl, rfl⟩
    rfl

theorem partitionPath_inj_mapped : SetsApart "/dev/mapper/sr0" ∧ SetsApart "/dev/mapper/sr" ∧
    (partitionPath "/dev/mapper/sr0" 1 = partitionPath "/dev/mapper/sr" 1 ↔
      "/dev/mapper/sr0" = "/dev/mapper/sr" ∧ 1 = 1) := by
  have htakes : SetsApart "/dev/mapper/sr0" := .inl (by decide +kernel)
  have hlast : "/dev/mapper/sr".toList.getLast? = some 'r' := by decide +kernel
  have hplain : SetsApart "/dev/mapper/sr" := by
    right
    rw [hlast]
    rintro c ⟨⟩
    rfl
  exact ⟨htakes, hplain, partitionPath_inj htakes hplain⟩

/-- A device that ends in a digit and takes no separator may share a path with another one. -/
example : partitionPath "/dev/sda1" 2 = partitionPath "/dev/sda" 12 := by decide +kernel

end Groundwork
