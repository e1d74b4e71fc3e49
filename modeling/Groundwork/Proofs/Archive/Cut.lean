import Groundwork.Proofs.Archive.RoundTrip

/-! What is read of an archive that was cut off. The reader takes the members before the cut and then
notices where the cut is: inside a header, a content, a padding, or nowhere. -/
namespace Groundwork.Archive

variable {archive cut content : ByteArray} {before after lead short : List UInt8} {place fuel n r : Nat}
  {files front back : List (String × ByteArray)} {parts : List (ByteArray × Member)}

/-! ### At the cut -/

theorem membersFrom_at_end (hsize : archive.size = place) :
    membersFrom archive (fuel + 1) place {} = .ok [] := by
  have hentry : entryAt archive place none = .ok none := by
    rw [entryAt, blockAt, if_neg (by omega), if_pos hsize]
    rfl
  rw [membersFrom]
  simp only [hentry, bind, Except.bind]
  rfl

/-- Where neither a block nor the end of the archive is, the reader has to give up. -/
theorem membersFrom_broken (hblock : archive.size < place + blockSize) (hend : archive.size ≠ place) :
    ∃ reason, membersFrom archive (fuel + 1) place {} = .error (.broken reason) := by
  have hentry : ∃ reason, entryAt archive place none = .error (.broken reason) := by
    rw [entryAt, blockAt]
    by_cases hpast : archive.size < place
    · rw [if_pos hpast]
      exact ⟨_, rfl⟩
    · rw [if_neg hpast, if_neg hend, if_pos hblock]
      exact ⟨_, rfl⟩
  obtain ⟨reason, hreason⟩ := hentry
  refine ⟨reason, ?_⟩
  rw [membersFrom]
  simp only [hreason, bind, Except.bind]

theorem fileOf_cut {stored : String} {size : Nat} (hlead : lead.length ≤ longestLead)
    (hzero : 0 ∉ lead) (hshort : short.length ≤ longestName) (hzero' : 0 ∉ short)
    (hname : joined lead short = stored.toUTF8.toList)
    (harchive : archive.toList = before ++ (header lead short size ++ after))
    (hcut : after.length < size) (next : Nat) :
    fileOf archive ⟨header lead short size, before.length + blockSize, size, size, next⟩ {} =
      .error (.truncated stored after.length size) := by
  have hpath : Description.path {} (header lead short size) = stored.toUTF8.toList := by
    rw [Description.path_empty, path_header hlead hshort hzero hzero', hname]
  have htotal : archive.size = before.length + (blockSize + after.length) := by
    rw [← Bytes.length_toList, harchive, List.length_append, List.length_append,
      length_header hlead hshort]
  have havailable : min size (archive.size - (before.length + blockSize)) = after.length := by
    omega
  simp only [fileOf, hpath, Bytes.toByteArray_toList, Bytes.ofBytesLossy_toUTF8, havailable,
    if_pos hcut]

variable {bytes : ByteArray} {m : Member}

/-- A content that is cut off is noticed with its length so far. -/
theorem Encodes.membersFrom_payload (h : Encodes bytes m)
    (harchive : archive.toList = before ++ bytes.toList.take r) (hheader : blockSize ≤ r)
    (hcontent : r < blockSize + m.content.size) (hbound : before.length + bytes.size < 2 ^ 64) :
    Archive.membersFrom archive (fuel + 1) before.length {} =
      .error (.truncated m.name (r - blockSize) m.content.size) := by
  have hnext := h.size
  have hpad := padded_le_iff (Nat.le_refl (padded m.content.size))
  obtain ⟨lead, short, ⟨hlead, hzero⟩, ⟨hshort, hzero'⟩, hname, hbytes⟩ := h
  have hlen : (header lead short m.content.size).length = blockSize := length_header hlead hshort
  rw [hbytes, List.take_append, List.take_of_length_le (by omega), hlen] at harchive
  have hrest : ((m.content.toList ++
      List.replicate (padded m.content.size - m.content.size) 0).take (r - blockSize)).length =
        r - blockSize := by
    rw [List.length_take, List.length_append, Bytes.length_toList, List.length_replicate]
    omega
  rw [hnext, ← Nat.add_assoc] at hbound
  have hentry := entryAt_member hlead hshort harchive hbound
  have hfile := fileOf_cut hlead hzero hshort hzero' hname harchive (by omega)
    (before.length + blockSize + padded m.content.size)
  rw [hrest] at hfile
  rw [membersFrom_file hentry (kind_header hshort), hfile]
  rfl

/-- A padding that is cut off is noticed when the reader goes on behind it. -/
theorem Encodes.membersFrom_padding (h : Encodes bytes m)
    (harchive : archive.toList = before ++ bytes.toList.take r)
    (hcontent : blockSize + m.content.size ≤ r) (hr : r < bytes.size)
    (hbound : before.length + bytes.size < 2 ^ 64) :
    ∃ reason, Archive.membersFrom archive (fuel + 2) before.length {} =
      .error (.broken reason) := by
  have hsize : archive.size = before.length + r := by
    rw [← Bytes.length_toList, harchive, List.length_append, List.length_take, Bytes.length_toList,
      Nat.min_eq_left (Nat.le_of_lt hr)]
  have hstep := h.membersFrom hcontent (by rw [harchive, List.append_nil]) hbound (fuel + 1)
  obtain ⟨reason, hreason⟩ := @membersFrom_broken archive (before.length + bytes.size) fuel
    (by omega) (by omega)
  refine ⟨reason, ?_⟩
  rw [hstep, hreason]
  rfl

/-! ### Where an archive may be cut -/

/-- How far the members of some files reach: a header and the padded content of each. -/
def extent (files : List (String × ByteArray)) : Nat :=
  (files.map fun file => 512 + (file.2.size + 511) / 512 * 512).sum

theorem extent_append (front back : List (String × ByteArray)) :
    extent (front ++ back) = extent front + extent back := by
  rw [extent, List.map_append, List.sum_append]
  rfl

theorem extent_cons (file : String × ByteArray) (files : List (String × ByteArray)) :
    extent (file :: files) = blockSize + padded file.2.size + extent files := by
  rw [extent, List.map_cons, List.sum_cons]
  rfl

/-- A cut is behind all members, or in the midst of one: induction on the members before the cut. -/
theorem exists_cut (files : List (String × ByteArray)) (n : Nat) : extent files ≤ n ∨
    ∃ front file back r, files = front ++ file :: back ∧ n = extent front + r ∧
      r < blockSize + padded file.2.size := by
  induction files generalizing n with
  | nil => exact .inl (Nat.zero_le n)
  | cons file files ih =>
    by_cases hfirst : n < blockSize + padded file.2.size
    · exact .inr ⟨[], file, files, n, rfl, (Nat.zero_add n).symm, hfirst⟩
    · rcases ih (n - (blockSize + padded file.2.size)) with hpast | hwithin
      · refine .inl ?_
        rw [extent_cons]
        omega
      · obtain ⟨front, inner, back, r, rfl, hn, hr⟩ := hwithin
        refine .inr ⟨file :: front, inner, back, r, rfl, ?_, hr⟩
        rw [extent_cons]
        omega

/-- The member that a file is found as where its name is kept. -/
def asMember (file : String × ByteArray) : Member := ⟨file.1, file.2⟩

/-- The members of an archive, file by file. -/
def Holds (parts : List (ByteArray × Member)) (files : List (String × ByteArray)) : Prop :=
  (∀ part ∈ parts, Encodes part.1 part.2) ∧ parts.map (·.2) = files.map asMember

theorem Holds.split (h : Holds parts (front ++ back)) :
    ∃ ps qs, parts = ps ++ qs ∧ Holds ps front ∧ Holds qs back := by
  obtain ⟨hparts, hfiles⟩ := h
  rw [List.map_append] at hfiles
  obtain ⟨ps, qs, rfl, hps, hqs⟩ := List.map_eq_append_iff.1 hfiles
  obtain ⟨hfront, hback⟩ := List.forall_mem_append.1 hparts
  exact ⟨ps, qs, rfl, ⟨hfront, hps⟩, ⟨hback, hqs⟩⟩

theorem Holds.length (h : Holds parts files) : (joinedBytes parts).length = extent files := by
  induction files generalizing parts with
  | nil =>
    obtain rfl := List.map_eq_nil_iff.1 h.2
    rfl
  | cons file files ih =>
    obtain ⟨hparts, hfiles⟩ := h
    obtain ⟨part, parts, rfl, hfirst, hrest⟩ := List.map_eq_cons_iff.1 hfiles
    obtain ⟨hpart, hparts⟩ := List.forall_mem_cons.1 hparts
    have hsize := hpart.size
    rw [hfirst] at hsize
    have hjoined : joinedBytes (part :: parts) = part.1.toList ++ joinedBytes parts := rfl
    rw [hjoined, List.length_append, Bytes.length_toList, hsize, ih ⟨hparts, hrest⟩, extent_cons]
    rfl

/-- The bytes of an archive from the member on in which a cut is. -/
theorem Holds.split_cons {file : String × ByteArray} (h : Holds parts (front ++ file :: back)) :
    ∃ ps bytes qs, parts = ps ++ (bytes, asMember file) :: qs ∧ Holds ps front ∧
      Encodes bytes (asMember file) := by
  obtain ⟨ps, qs, rfl, hfront, hqs, hback⟩ := h.split
  obtain ⟨⟨bytes, m⟩, qs, rfl, hm, -⟩ := List.map_eq_cons_iff.1 hback
  obtain rfl : m = asMember file := hm
  exact ⟨ps, bytes, qs, rfl, hfront, hqs _ List.mem_cons_self⟩

/-! ### What is read -/

variable {tail : List UInt8} {file : String × ByteArray} {ps : List (ByteArray × Member)}

theorem joinedBytes_append (ps qs : List (ByteArray × Member)) :
    joinedBytes (ps ++ qs) = joinedBytes ps ++ joinedBytes qs :=
  List.flatMap_append

/-- Between two members nothing tells that there should be more. -/
theorem members_at_border (h : Holds parts (front ++ back))
    (hcut : cut.toList = (joinedBytes parts ++ tail).take (extent front))
    (hbound : extent (front ++ back) < 2 ^ 64) : members cut = .ok (front.map asMember) := by
  obtain ⟨ps, qs, rfl, hfront, -⟩ := h.split
  have hlen := hfront.length
  have hbytes : cut.toList = joinedBytes ps ++ [] := by
    rw [hcut, joinedBytes_append, List.append_assoc, ← hlen, List.take_left, List.append_nil]
  rw [extent_append] at hbound
  obtain ⟨fuel, -, hread⟩ := exists_members_eq hfront.1 hbytes (by omega)
  have hend : cut.size = (joinedBytes ps).length := by
    rw [← Bytes.length_toList, hbytes, List.append_nil]
  rw [hread, membersFrom_at_end hend]
  simp [Except.map, hfront.2]

/-- A cut inside a member leaves the members before it and the front of this one. -/
theorem Holds.cut_within (h : Holds parts (front ++ file :: back))
    (hcut : cut.toList = (joinedBytes parts ++ tail).take (extent front + r))
    (hr : r ≤ blockSize + padded file.2.size) :
    ∃ ps bytes, Holds ps front ∧ Encodes bytes (asMember file) ∧
      cut.toList = joinedBytes ps ++ bytes.toList.take r := by
  obtain ⟨ps, bytes, qs, rfl, hfront, hfile⟩ := h.split_cons
  refine ⟨ps, bytes, hfront, hfile, ?_⟩
  have hjoined : joinedBytes ((bytes, asMember file) :: qs) = bytes.toList ++ joinedBytes qs := rfl
  have hsize : r ≤ bytes.toList.length := by
    rw [Bytes.length_toList, hfile.size]
    exact hr
  rw [hcut, joinedBytes_append, hjoined, List.append_assoc, ← hfront.length,
    List.take_length_add_append, List.append_assoc, List.take_append_of_le_length hsize]

theorem members_in_payload (h : Holds parts (front ++ file :: back))
    (hcut : cut.toList = (joinedBytes parts ++ tail).take (extent front + r))
    (hheader : blockSize ≤ r) (hcontent : r < blockSize + file.2.size)
    (hbound : extent (front ++ file :: back) < 2 ^ 64) :
    members cut = .error (.truncated file.1 (r - blockSize) file.2.size) := by
  have hpad := padded_le_iff (Nat.le_refl (padded file.2.size))
  obtain ⟨ps, bytes, hfront, hfile, hbytes⟩ := h.cut_within hcut (by omega)
  have hsize : bytes.size = blockSize + padded file.2.size := hfile.size
  rw [extent_append, extent_cons, ← hfront.length] at hbound
  obtain ⟨fuel, -, hread⟩ := exists_members_eq hfront.1 hbytes (by omega)
  rw [hread, hfile.membersFrom_payload hbytes hheader hcontent (by omega)]
  rfl

theorem members_in_header (h : Holds parts (front ++ file :: back))
    (hcut : cut.toList = (joinedBytes parts ++ tail).take (extent front + r)) (hpos : 0 < r)
    (hheader : r < blockSize) (hbound : extent (front ++ file :: back) < 2 ^ 64) :
    ∃ reason, members cut = .error (.broken reason) := by
  obtain ⟨ps, bytes, hfront, hfile, hbytes⟩ := h.cut_within hcut (by omega)
  have hsize : bytes.size = blockSize + padded file.2.size := hfile.size
  rw [extent_append, extent_cons, ← hfront.length] at hbound
  obtain ⟨fuel, -, hread⟩ := exists_members_eq hfront.1 hbytes (by omega)
  have hend : cut.size = (joinedBytes ps).length + r := by
    rw [← Bytes.length_toList, hbytes, List.length_append, List.length_take, Bytes.length_toList,
      Nat.min_eq_left (by omega)]
  obtain ⟨reason, hreason⟩ := @membersFrom_broken cut (joinedBytes ps).length fuel (by omega)
    (by omega)
  refine ⟨reason, ?_⟩
  rw [hread, hreason]
  rfl

/-- The header and the content are there in full, so there is fuel for the reader to go on. -/
theorem members_in_padding (h : Holds parts (front ++ file :: back))
    (hcut : cut.toList = (joinedBytes parts ++ tail).take (extent front + r))
    (hcontent : blockSize + file.2.size ≤ r) (hr : r < blockSize + padded file.2.size)
    (hbound : extent (front ++ file :: back) < 2 ^ 64) :
    ∃ reason, members cut = .error (.broken reason) := by
  obtain ⟨ps, bytes, hfront, hfile, hbytes⟩ := h.cut_within hcut (Nat.le_of_lt hr)
  have hsize : bytes.size = blockSize + padded file.2.size := hfile.size
  rw [extent_append, extent_cons, ← hfront.length] at hbound
  obtain ⟨fuel, hfuel, hread⟩ := exists_members_eq hfront.1 hbytes (by omega)
  have hrest : 0 < (bytes.toList.take r).length / blockSize := by
    rw [List.length_take, Bytes.length_toList, Nat.min_eq_left (by omega)]
    exact Nat.div_pos (by omega) (by decide)
  obtain ⟨more, rfl⟩ := Nat.exists_eq_add_of_lt (Nat.lt_of_lt_of_le hrest hfuel)
  obtain ⟨reason, hreason⟩ := @Encodes.membersFrom_padding cut (joinedBytes ps) more r bytes
    (asMember file) hfile hbytes hcontent (by omega) (by omega)
  refine ⟨reason, ?_⟩
  rw [hread, Nat.zero_add, hreason]
  rfl

/-- The end of an archive that has no whole block of zeros is not one. -/
theorem members_in_ending (h : Holds parts files)
    (hcut : cut.toList = joinedBytes parts ++ tail) (hpos : 0 < tail.length)
    (htail : tail.length < blockSize) (hbound : extent files < 2 ^ 64) :
    ∃ reason, members cut = .error (.broken reason) := by
  rw [← h.length] at hbound
  obtain ⟨fuel, -, hread⟩ := exists_members_eq h.1 hcut hbound
  have hend : cut.size = (joinedBytes parts).length + tail.length := by
    rw [← Bytes.length_toList, hcut, List.length_append]
  obtain ⟨reason, hreason⟩ := @membersFrom_broken cut (joinedBytes parts).length fuel (by omega)
    (by omega)
  refine ⟨reason, ?_⟩
  rw [hread, hreason]
  rfl

/-- Everywhere but at a border, in a content and behind a whole block of zeros the archive is broken. -/
theorem members_elsewhere (h : Holds parts files)
    (hcut : cut.toList = (joinedBytes parts ++ ending.toList).take n)
    (hwhole : n < extent files + blockSize) (hborder : ∀ front, front <+: files → n ≠ extent front)
    (hpayload : ∀ front name content, front ++ [(name, content)] <+: files →
      ¬ (extent front + blockSize ≤ n ∧ n < extent front + blockSize + content.size))
    (hbound : extent files < 2 ^ 64) : ∃ reason, members cut = .error (.broken reason) := by
  rcases exists_cut files n with hpast | ⟨front, file, back, r, rfl, rfl, hr⟩
  · have hpos : n ≠ extent files := hborder _ List.prefix_rfl
    rw [List.take_append, List.take_of_length_le (by rw [h.length]; omega), h.length] at hcut
    have hlen : (ending.toList.take (n - extent files)).length = n - extent files := by
      rw [List.length_take, Bytes.length_toList, size_ending]
      omega
    exact members_in_ending h hcut (by omega) (by omega) hbound
  · have hfront : front ++ [file] <+: front ++ file :: back := ⟨back, by simp⟩
    have hpos := hborder front ((List.prefix_append _ _).trans hfront)
    have hnot := hpayload front file.1 file.2 hfront
    by_cases hheader : r < blockSize
    · exact members_in_header h hcut (by omega) hheader hbound
    · exact members_in_padding h hcut (by omega) hr hbound

end Groundwork.Archive
