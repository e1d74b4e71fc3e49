import Groundwork.Proofs.Archive.Cut
import Groundwork.Proofs.Seed.Partition

/-! An archive of seeds that was cut off. What is read of it is a bundle only where the cut leaves whole
members or an end, and no file of such a bundle is another one than before. -/
namespace Groundwork.Bundle

open Archive (extent blockSize)

variable {b : Bundle} {archive cut : ByteArray} {n : Nat} {r : Except Failure Bundle}
  {m m' : Machine} {partition : String}

/-- What is read of the first bytes of the archive of a bundle. -/
structure CutReading (b : Bundle) (n : Nat) (r : Except Failure Bundle) : Prop where
  /-- Without its mark an archive is none. -/
  unmarked : n < 262 → r = .ok .empty
  /-- At the end of a member, with its padding, there are the members up to it. -/
  border : 262 ≤ n → ∀ front, front <+: b.files.entries → n = extent front →
    ∃ part, r = .ok part ∧ part.files.entries = front
  /-- One block of the end is enough. -/
  whole : extent b.files.entries + 512 ≤ n → r = .ok b
  /-- In a content the file is named, with what is left of it. -/
  payload : ∀ front name content, front ++ [(name, content)] <+: b.files.entries →
    extent front + 512 ≤ n → n < extent front + 512 + content.size →
    r = .error (.truncatedMember name (n - (extent front + 512)) content.size)
  /-- Everywhere else the archive is broken. -/
  elsewhere : 262 ≤ n → n < extent b.files.entries + 512 →
    (∀ front, front <+: b.files.entries → n ≠ extent front) →
    (∀ front name content, front ++ [(name, content)] <+: b.files.entries →
      ¬ (extent front + 512 ≤ n ∧ n < extent front + 512 + content.size)) →
    ∃ reason, r = .error (.system (.badArchive reason))

/-- Whether a cut leaves something that is read as a bundle. -/
def IsReadable (b : Bundle) (n : Nat) : Prop :=
  n < 262 ∨ (∃ front, front <+: b.files.entries ∧ n = extent front) ∨
    extent b.files.entries + 512 ≤ n

/-- Cases by where the cut is: those that are no error give a front of the files. -/
theorem CutReading.of_ok {part : Bundle} (h : CutReading b n (.ok part)) :
    b.IsReadable n ∧ part.files.entries <+: b.files.entries := by
  by_cases hmark : n < 262
  · have hempty := Except.ok.inj (h.unmarked hmark)
    refine ⟨.inl hmark, ?_⟩
    rw [hempty]
    exact List.nil_prefix
  by_cases hborder : ∃ front, front <+: b.files.entries ∧ n = extent front
  · obtain ⟨front, hfront, hn⟩ := hborder
    obtain ⟨part', hpart, hentries⟩ := h.border (Nat.le_of_not_lt hmark) front hfront hn
    obtain rfl := Except.ok.inj hpart
    exact ⟨.inr (.inl ⟨front, hfront, hn⟩), hentries ▸ hfront⟩
  by_cases hwhole : extent b.files.entries + 512 ≤ n
  · obtain rfl := Except.ok.inj (h.whole hwhole)
    exact ⟨.inr (.inr hwhole), List.prefix_rfl⟩
  obtain ⟨reason, hreason⟩ := h.elsewhere (Nat.le_of_not_lt hmark) (Nat.lt_of_not_le hwhole)
    (fun front hfront hn => hborder ⟨front, hfront, hn⟩) (by
      rintro front name content hfront ⟨hheader, hcontent⟩
      cases h.payload front name content hfront hheader hcontent)
  cases hreason

/-! ### The archive of a bundle -/

theorem exists_holds (h : b.toArchive = (archive, none))
    (hkept : ∀ file ∈ b.files.keys, Archive.storedName file = .ok file) :
    ∃ parts, Archive.Holds parts b.files.entries ∧
      archive.toList = Archive.joinedBytes parts ++ Archive.ending.toList := by
  obtain ⟨parts, hparts, hstored, harchive⟩ := Archive.write_eq_ok h
  rw [mapM_stored_of_kept fun file hfile => hkept file.1 (List.mem_map.2 ⟨file, hfile, rfl⟩)]
    at hstored
  exact ⟨parts, ⟨hparts, (Except.ok.inj hstored).symm⟩, harchive⟩

theorem ofBytes_of_marked (h : Archive.hasMagic cut = true) : Bundle.ofBytes cut =
    ((Archive.members cut).map ofMembers).mapError Archive.Fault.failure := by
  rw [ofBytes, if_pos h]

/-- The mark is in the first header, so a cut behind it leaves an archive. -/
theorem hasMagic_take {parts : List (ByteArray × Archive.Member)} {tail : List UInt8}
    (hparts : ∀ part ∈ parts, Archive.Encodes part.1 part.2) (hne : parts ≠ [])
    (hcut : cut.toList = (Archive.joinedBytes parts ++ tail).take n) (hn : 262 ≤ n) :
    Archive.hasMagic cut = true := by
  cases parts with
  | nil => exact absurd rfl hne
  | cons part parts =>
    have hpart := hparts part List.mem_cons_self
    have hjoined : Archive.joinedBytes (part :: parts) =
        part.1.toList ++ Archive.joinedBytes parts := rfl
    have hlen : 262 ≤ part.1.toList.length := by
      rw [Bytes.length_toList, hpart.size]
      exact Nat.le_trans (by decide) (Nat.le_add_right blockSize _)
    refine hpart.hasMagic ?_
    rw [hcut, hjoined, List.append_assoc, ← List.take_append_of_le_length hlen]
    exact List.take_prefix_take_left hn

/-- A front of the files is a bundle of its own. -/
theorem ofMembers_of_prefix {front : List (String × ByteArray)} (h : front <+: b.files.entries) :
    (ofMembers (front.map Archive.asMember)).files.entries = front := by
  have hpairs : (front.map Archive.asMember).map (fun m => (m.name, m.content)) = front := by
    rw [List.map_map]
    exact List.map_id front
  rw [ofMembers, hpairs]
  exact Dict.entries_ofList_of_prefix h

/-- The cases of a cut, one for each of the places in which it can be. -/
theorem cutReading_of_toArchive (h : b.toArchive = (archive, none))
    (hkept : ∀ file ∈ b.files.keys, Archive.storedName file = .ok file) (hne : b.files.entries ≠ [])
    (hsize : archive.size < 2 ^ 64) (hcut : cut.toList = archive.toList.take n) :
    CutReading b n (ofBytes cut) := by
  obtain ⟨parts, hholds, harchive⟩ := exists_holds h hkept
  have hbound : extent b.files.entries < 2 ^ 64 := by
    rw [← hholds.length]
    exact Nat.lt_of_le_of_lt (Archive.length_joinedBytes_le harchive) hsize
  have hparts : parts ≠ [] := by
    rintro rfl
    exact hne (List.map_eq_nil_iff.1 hholds.2.symm)
  rw [harchive] at hcut
  have hblock : blockSize = 512 := rfl
  have hmarked (hn : 262 ≤ n) := ofBytes_of_marked (hasMagic_take hholds.1 hparts hcut hn)
  constructor
  case unmarked =>
    intro hn
    have hshort : ¬ 262 ≤ cut.size := by
      rw [← Bytes.length_toList, hcut, List.length_take]
      omega
    simp [ofBytes, Archive.hasMagic, hshort]
  case border =>
    rintro hn front hfront rfl
    obtain ⟨back, hback⟩ := hfront
    rw [← hback] at hholds hbound
    refine ⟨_, ?_, ofMembers_of_prefix ⟨back, hback⟩⟩
    rw [hmarked hn, Archive.members_at_border hholds hcut hbound]
    rfl
  case whole =>
    intro hn
    have hzeros : List.replicate blockSize 0 <+:
        Archive.ending.toList.take (n - extent b.files.entries) := by
      refine List.prefix_take_iff.2 ⟨Archive.zeros_prefix_ending, ?_⟩
      rw [List.length_replicate]
      omega
    rw [List.take_append, hholds.length, List.take_of_length_le (by rw [hholds.length]; omega)]
      at hcut
    rw [ofBytes_joinedBytes hholds.1 hcut hzeros (by rwa [hholds.length]), hholds.2]
    refine congrArg Except.ok (congrArg Bundle.mk (Dict.ext ?_))
    exact ofMembers_of_prefix List.prefix_rfl
  case payload =>
    rintro front name content ⟨back, hback⟩ hheader hcontent
    rw [List.append_assoc] at hback
    rw [← hback] at hholds hbound
    obtain ⟨r, rfl⟩ := Nat.exists_eq_add_of_le (Nat.le_of_add_right_le hheader)
    have hread := Archive.members_in_payload hholds hcut (by omega) (by dsimp only; omega) hbound
    rw [hmarked (by omega), hread, Nat.add_sub_add_left]
    rfl
  case elsewhere =>
    intro hn hwhole hborder hpayload
    obtain ⟨reason, hbroken⟩ :=
      Archive.members_elsewhere hholds hcut hwhole hborder hpayload hbound
    refine ⟨reason, ?_⟩
    rw [hmarked hn, hbroken]
    rfl

variable {t : FileTree} {path : String}

/-- A cut-off archive of seeds is not read as another one. -/
theorem onPartition_of_cut (hnormal : ∀ name ∈ b.files.keys, Path.IsNormal name)
    (hne : b.isEmpty = false) (hsize : b.toArchive.1.size < 2 ^ 64)
    (h : (b.store partition).perform m = (.ok (), m'))
    (hread : m'.files.read partition = .ok archive)
    (hcut : t.read path = .ok (archive.extract 0 n)) :
    CutReading b n (onPartition t path) ∧ ∀ part, onPartition t path = .ok part →
      b.IsReadable n ∧ part.files.entries <+: b.files.entries := by
  obtain ⟨hwhole, hwritten⟩ := read_of_store h
  obtain rfl : archive = b.toArchive.1 := Except.ok.inj (hread.symm.trans hwritten)
  have hfound : onPartition t path = ofBytes (b.toArchive.1.extract 0 n) := by
    rw [onPartition, hcut]
    rfl
  have hbytes : (b.toArchive.1.extract 0 n).toList = b.toArchive.1.toList.take n := by
    rw [Bytes.toList_extract, List.drop_zero]
  have hcases := cutReading_of_toArchive (Prod.ext rfl hwhole) (storedName_of_whole hnormal hwhole)
    (List.isEmpty_eq_false_iff.1 hne) hsize hbytes
  rw [hfound]
  refine ⟨hcases, ?_⟩
  intro part hpart
  rw [hpart] at hcases
  exact hcases.of_ok

/-- The cut is behind the first of two bytes. -/
theorem onPartition_of_cut_longSeeds : ∃ m' archive,
    (longSeeds.store "/seeds").perform ⟨partitionTree .empty, [], []⟩ = (.ok (), m') ∧
    m'.files.read "/seeds" = .ok archive ∧
    onPartition (partitionTree (archive.extract 0 513)) "/seeds" =
      .error (.truncatedMember longName 1 2) := by
  obtain ⟨m', h⟩ := perform_store_longSeeds .empty
  have hread := (read_of_store h).2
  have hcut : (partitionTree (longSeeds.toArchive.1.extract 0 513)).read "/seeds" =
    .ok (longSeeds.toArchive.1.extract 0 513) := rfl
  obtain ⟨hcases, -⟩ := onPartition_of_cut isNormal_longSeeds rfl size_longSeeds h hread hcut
  exact ⟨m', _, h, hread,
    hcases.payload [] longName "{}".toUTF8 List.prefix_rfl (by decide) (by decide)⟩

end Groundwork.Bundle
