import Groundwork.Archive.Reader
import Groundwork.Proofs.Archive.Header

/-! What is read of an archive that was written. Every file is found again under its stored name, in
the order in which the files were written. -/
namespace Groundwork.Archive

variable {archive content : ByteArray} {before after tail lead short : List UInt8} {name : String}
  {files : List (String × ByteArray)} {parts : List (ByteArray × Member)}

/-- The member that a file is read back as, if the file can be written. -/
def stored (file : String × ByteArray) : Except String Member :=
  (storedName file.1).map fun name => ⟨name, file.2⟩

theorem blockAt_append {block : List UInt8} (hblock : block.length = blockSize)
    (harchive : archive.toList = before ++ (block ++ after)) :
    blockAt archive before.length = .ok (some block) := by
  have hsize : archive.size = before.length + (blockSize + after.length) := by
    rw [← Bytes.length_toList, harchive]
    simp [hblock]
  have hextract : (archive.extract before.length (before.length + blockSize)).toList = block := by
    rw [Bytes.toList_extract, harchive, ← hblock, List.take_length_add_append,
      List.take_append_of_le_length (Nat.le_refl _), List.take_length, List.drop_left]
  have hpos : 0 < blockSize := by decide
  rw [blockAt, if_neg (by omega), if_neg (by omega), if_neg (by omega), hextract]

theorem padded_le_iff {size n : Nat} : padded size ≤ n → size ≤ n := by
  unfold padded blockSize
  omega

/-- The header of a member is found with the size and the place of its content, also if the content
itself is not there. -/
theorem entryAt_member (hlead : lead.length ≤ longestLead) (hshort : short.length ≤ longestName)
    {size : Nat} (harchive : archive.toList = before ++ (header lead short size ++ after))
    (hbound : before.length + blockSize + padded size < 2 ^ 64) :
    entryAt archive before.length none = .ok (some
      ⟨header lead short size, before.length + blockSize, size, size,
        before.length + blockSize + padded size⟩) := by
  have hlen : (header lead short size).length = blockSize := length_header hlead hshort
  have hle := padded_le_iff (Nat.le_refl (padded size))
  have hnumber : Header.number? (header lead short size).sizeField = some size :=
    number?_header hshort (by omega)
  have hnext : ¬ Nat.pow 2 64 ≤ before.length + blockSize + padded size := by
    have hpow : Nat.pow 2 64 = 2 ^ 64 := rfl
    omega
  unfold entryAt
  rw [blockAt_append hlen harchive]
  simp only [bind, Except.bind, not_all_zero_header hshort, isIntact_header hlead hshort, hnumber,
    Option.bind_none, Option.getD_none, if_neg hnext]
  rfl

/-- A member that nothing describes has the name in its header. -/
theorem Description.path_empty (h : Header) : Description.path {} h = h.path :=
  rfl

theorem fileOf_member {stored : String} (hlead : lead.length ≤ longestLead) (hzero : 0 ∉ lead)
    (hshort : short.length ≤ longestName) (hzero' : 0 ∉ short)
    (hname : joined lead short = stored.toUTF8.toList)
    (harchive : archive.toList =
      before ++ (header lead short content.size ++ (content.toList ++ after))) (next : Nat) :
    fileOf archive ⟨header lead short content.size, before.length + blockSize, content.size,
      content.size, next⟩ {} = .ok ⟨stored, content⟩ := by
  have hlen : (header lead short content.size).length = blockSize := length_header hlead hshort
  have hpath : Description.path {} (header lead short content.size) = stored.toUTF8.toList := by
    rw [Description.path_empty, path_header hlead hshort hzero hzero', hname]
  have htotal : archive.size = before.length + (blockSize + (content.size + after.length)) := by
    rw [← Bytes.length_toList, harchive]
    simp [hlen]
  have hcontent : archive.extract (before.length + blockSize)
      (before.length + blockSize + content.size) = content := by
    rw [← Bytes.toList_inj, Bytes.toList_extract, harchive, ← List.append_assoc]
    have hfront : (before ++ header lead short content.size).length =
        before.length + blockSize := by
      rw [List.length_append, hlen]
    rw [← hfront, ← Bytes.length_toList content, List.take_length_add_append,
      List.drop_left, List.take_left]
  have havailable : ¬ min content.size (archive.size - (before.length + blockSize)) <
      content.size := by
    omega
  simp only [fileOf, hpath, Bytes.toByteArray_toList, Bytes.ofBytesLossy_toUTF8, if_neg havailable,
    hcontent]

/-! ### Members -/

theorem toList_zeros (n : Nat) : (zeros n).toList = List.replicate n 0 := by
  rw [zeros, Bytes.toList_eq_data, Array.toList_replicate]

/-- Whether bytes are those of a member as any tool may write it: a header with its name and its
size, the content, and zeros up to the end of a block. -/
def Encodes (bytes : ByteArray) (m : Member) : Prop :=
  ∃ lead short, (lead.length ≤ longestLead ∧ 0 ∉ lead) ∧ (short.length ≤ longestName ∧ 0 ∉ short) ∧
    joined lead short = m.name.toUTF8.toList ∧ bytes.toList = header lead short m.content.size ++
      (m.content.toList ++ List.replicate (padded m.content.size - m.content.size) 0)

theorem toList_parts (lead short : List UInt8) (content : ByteArray) :
    ((header lead short content.size).toByteArray ++ content ++
      zeros (padded content.size - content.size)).toList = header lead short content.size ++
        (content.toList ++ List.replicate (padded content.size - content.size) 0) := by
  rw [Bytes.toList_append, Bytes.toList_append, Bytes.toList_toByteArray, toList_zeros,
    List.append_assoc]

/-- A member under a name that is taken as it is, also if it is one that is never written. -/
def rawMember (name : String) (content : ByteArray) : ByteArray :=
  (header [] name.toUTF8.toList content.size).toByteArray ++ content ++
    zeros (padded content.size - content.size)

/-- Whether a name fits a header as it is. -/
def Fits (name : String) : Prop :=
  name.toUTF8.size ≤ longestName ∧ 0 ∉ name.toUTF8.data.toList

instance (name : String) : Decidable (Fits name) := by
  unfold Fits
  infer_instance

theorem encodes_rawMember (h : Fits name) (content : ByteArray) :
    Encodes (rawMember name content) ⟨name, content⟩ := by
  refine ⟨[], name.toUTF8.toList, ⟨by decide, List.not_mem_nil⟩, ⟨?_, ?_⟩, rfl, toList_parts _ _ _⟩
  · rw [Bytes.length_toList]
    exact h.1
  · rw [Bytes.toList_eq_data]
    exact h.2

/-- A member that is written stands under its stored name. -/
theorem encodes_member {bytes : ByteArray} (h : member name content = .ok bytes) :
    ∃ stored, storedName name = .ok stored ∧ Encodes bytes ⟨stored, content⟩ := by
  unfold member at h
  cases hd : divide name with
  | error e => simp [hd, bind, Except.bind] at h
  | ok parts =>
    obtain ⟨lead, short⟩ := parts
    obtain ⟨hlead, hshort, stored, hj, -⟩ := divide_eq_ok hd
    simp only [hd, bind, Except.bind, Except.ok.injEq] at h
    refine ⟨stored, storedName_eq_ok.2 ⟨_, hd, hj⟩, lead, short, hlead, hshort, hj, ?_⟩
    rw [← h, toList_parts]

theorem member_isOk : (member name content).isOk = (storedName name).isOk := by
  rw [storedName_isOk, member]
  cases divide name <;> rfl

theorem Encodes.size {bytes : ByteArray} {m : Member} (h : Encodes bytes m) :
    bytes.size = blockSize + padded m.content.size := by
  obtain ⟨lead, short, ⟨hlead, -⟩, ⟨hshort, -⟩, -, hbytes⟩ := h
  have hpad : m.content.size ≤ padded m.content.size := padded_le_iff (Nat.le_refl _)
  rw [← Bytes.length_toList, hbytes, List.length_append, List.length_append,
    length_header hlead hshort, Bytes.length_toList, List.length_replicate,
    Nat.add_sub_cancel' hpad]

/-- The reader takes the file of a plain header and goes on at the next one. -/
theorem membersFrom_file {e : Entry} {place : Nat}
    (hentry : entryAt archive place none = .ok (some e)) (hkind : e.header.kind = 0x30)
    (fuel : Nat) : membersFrom archive (fuel + 1) place {} = (do
      let m ← fileOf archive e {}
      (membersFrom archive fuel e.next {}).map (m :: ·)) := by
  rw [membersFrom]
  simp only [hentry, bind, Except.bind, Entry.isFile, hkind]
  cases fileOf archive e {} with
  | error fault => simp
  | ok m =>
    cases membersFrom archive fuel e.next {} with
    | error fault => simp [Except.map]
    | ok ms => simp [Except.map]

/-- A part of a member that begins with its header and its content, split at their borders. -/
theorem take_member {size r : Nat} (hlen : (header lead short size).length = blockSize)
    (hcontent : content.size = size) (hr : blockSize + size ≤ r) :
    (header lead short size ++
      (content.toList ++ List.replicate (padded size - size) 0)).take r =
    header lead short size ++
      (content.toList ++ (List.replicate (padded size - size) 0).take (r - (blockSize + size))) := by
  rw [List.take_append, List.take_of_length_le (by omega), List.take_append,
    List.take_of_length_le (by rw [Bytes.length_toList]; omega), hlen, Bytes.length_toList, hcontent,
    Nat.sub_sub]

/-- One step of the reader: it reads a member, of which the padding need not be there, and goes on
behind the place where the padding ends. -/
theorem Encodes.membersFrom {bytes : ByteArray} {m : Member} (h : Encodes bytes m) {r : Nat}
    (hr : blockSize + m.content.size ≤ r)
    (harchive : archive.toList = before ++ (bytes.toList.take r ++ after))
    (hbound : before.length + bytes.size < 2 ^ 64) (fuel : Nat) :
    Archive.membersFrom archive (fuel + 1) before.length {} =
      (Archive.membersFrom archive fuel (before.length + bytes.size) {}).map (m :: ·) := by
  have hnext := h.size
  obtain ⟨lead, short, ⟨hlead, hzero⟩, ⟨hshort, hzero'⟩, hname, hbytes⟩ := h
  rw [hbytes, take_member (length_header hlead hshort) rfl hr, List.append_assoc,
    List.append_assoc] at harchive
  rw [hnext, ← Nat.add_assoc] at hbound
  have hentry := entryAt_member hlead hshort harchive hbound
  have hfile := fileOf_member hlead hzero hshort hzero' hname harchive (before.length + bytes.size)
  rw [Nat.add_assoc, ← hnext] at hentry
  rw [membersFrom_file hentry (kind_header hshort), hfile]
  rfl

/-! ### Archives -/

/-- The bytes of some members, one behind the other. -/
def joinedBytes (parts : List (ByteArray × Member)) : List UInt8 :=
  parts.flatMap fun part => part.1.toList

/-- The reader stops at a block of zeros, whatever stands behind it. -/
theorem membersFrom_zeros (fuel : Nat) (htail : List.replicate blockSize 0 <+: tail)
    (harchive : archive.toList = before ++ tail) :
    membersFrom archive fuel before.length {} = .ok [] := by
  obtain ⟨after, rfl⟩ := htail
  cases fuel with
  | zero => rfl
  | succ fuel =>
    have hentry : entryAt archive before.length none = .ok none := by
      unfold entryAt
      rw [blockAt_append List.length_replicate harchive]
      simp [bind, Except.bind]
    rw [membersFrom]
    simp only [hentry, bind, Except.bind]
    rfl

theorem zeros_prefix_ending : List.replicate blockSize 0 <+: ending.toList := by
  rw [ending, toList_zeros, Nat.two_mul, ← List.replicate_append_replicate]
  exact List.prefix_append _ _

/-- Induction on the members that are still to be read: the reader takes them one by one and goes on
with what stands behind them. -/
theorem membersFrom_joinedBytes (hparts : ∀ part ∈ parts, Encodes part.1 part.2)
    (harchive : archive.toList = before ++ (joinedBytes parts ++ tail))
    (hbound : before.length + (joinedBytes parts).length < 2 ^ 64) (fuel : Nat) :
    membersFrom archive (fuel + parts.length) before.length {} =
      (membersFrom archive fuel (before.length + (joinedBytes parts).length) {}).map
        (parts.map (·.2) ++ ·) := by
  induction parts generalizing before with
  | nil =>
    cases hrest : membersFrom archive fuel before.length {} with
    | error e => simp [joinedBytes, hrest, Except.map]
    | ok ms => simp [joinedBytes, hrest, Except.map]
  | cons part parts ih =>
    obtain ⟨hpart, hparts⟩ := List.forall_mem_cons.1 hparts
    have hjoined : joinedBytes (part :: parts) = part.1.toList ++ joinedBytes parts := rfl
    have hlen : (joinedBytes (part :: parts)).length = part.1.size + (joinedBytes parts).length := by
      rw [hjoined, List.length_append, Bytes.length_toList]
    have hwhole : blockSize + part.2.content.size ≤ part.1.size := by
      have hpad := padded_le_iff (Nat.le_refl (padded part.2.content.size))
      rw [hpart.size]
      omega
    rw [hjoined, List.append_assoc] at harchive
    have hstep : membersFrom archive (fuel + parts.length + 1) before.length {} =
        (membersFrom archive (fuel + parts.length) (before.length + part.1.size) {}).map
          (part.2 :: ·) := by
      have htake : part.1.toList.take part.1.size = part.1.toList :=
        List.take_of_length_le (Nat.le_of_eq (Bytes.length_toList _))
      rw [← htake] at harchive
      exact hpart.membersFrom hwhole harchive (by omega) _
    rw [← List.append_assoc] at harchive
    have hrest := ih hparts harchive (by rw [List.length_append, Bytes.length_toList]; omega)
    rw [List.length_append, Bytes.length_toList] at hrest
    rw [List.length_cons, ← Nat.add_assoc, hstep, hrest, hlen, Nat.add_assoc]
    cases membersFrom archive fuel
        (before.length + (part.1.size + (joinedBytes parts).length)) {} with
    | error e => rfl
    | ok ms => rfl

/-- Every member takes a block at least, so there is fuel for all of them. -/
theorem length_mul_blockSize_le (hparts : ∀ part ∈ parts, Encodes part.1 part.2) :
    parts.length * blockSize ≤ (joinedBytes parts).length := by
  induction parts with
  | nil => simp
  | cons part parts ih =>
    obtain ⟨hpart, hparts⟩ := List.forall_mem_cons.1 hparts
    have hsize := hpart.size
    have hrest := ih hparts
    rw [joinedBytes, List.flatMap_cons, List.length_append, List.length_cons, Nat.succ_mul,
      Bytes.length_toList]
    rw [joinedBytes] at hrest
    omega

theorem length_joinedBytes_le (harchive : archive.toList = joinedBytes parts ++ tail) :
    (joinedBytes parts).length ≤ archive.size := by
  rw [← Bytes.length_toList, harchive, List.length_append]
  exact Nat.le_add_right _ _

/-- The reader is given fuel for every member, and for every block that stands behind them. -/
theorem exists_members_eq (hparts : ∀ part ∈ parts, Encodes part.1 part.2)
    (harchive : archive.toList = joinedBytes parts ++ tail)
    (hbound : (joinedBytes parts).length < 2 ^ 64) :
    ∃ fuel, tail.length / blockSize ≤ fuel ∧ members archive =
      (membersFrom archive (fuel + 1) (joinedBytes parts).length {}).map (parts.map (·.2) ++ ·) := by
  have hcount : parts.length + tail.length / blockSize ≤ archive.size / blockSize := by
    have hle := length_mul_blockSize_le hparts
    have htail := Nat.div_mul_le_self tail.length blockSize
    rw [Nat.le_div_iff_mul_le (by decide), Nat.add_mul, ← Bytes.length_toList, harchive,
      List.length_append]
    omega
  obtain ⟨more, hmore⟩ := Nat.exists_eq_add_of_le hcount
  refine ⟨tail.length / blockSize + more, Nat.le_add_right _ _, ?_⟩
  have hread := @membersFrom_joinedBytes archive [] tail parts hparts harchive
    (by rwa [List.length_nil, Nat.zero_add]) (tail.length / blockSize + more + 1)
  rw [List.length_nil, Nat.zero_add] at hread
  rw [members, hmore, ← hread]
  exact congrArg (membersFrom archive · 0 {}) (by omega)

/-- An archive is read in full, also one with names that are never written here, and whatever stands
behind its first block of zeros. -/
theorem members_joinedBytes (hparts : ∀ part ∈ parts, Encodes part.1 part.2)
    (harchive : archive.toList = joinedBytes parts ++ tail)
    (htail : List.replicate blockSize 0 <+: tail) (hbound : (joinedBytes parts).length < 2 ^ 64) :
    members archive = .ok (parts.map (·.2)) := by
  obtain ⟨fuel, -, hread⟩ := exists_members_eq hparts harchive hbound
  rw [hread, membersFrom_zeros _ htail harchive]
  simp [Except.map]

/-- An archive that does not break off is made of its files under their stored names. -/
theorem append_eq_ok {written : ByteArray} (h : append written files = (archive, none)) :
    ∃ parts, (∀ part ∈ parts, Encodes part.1 part.2) ∧
      files.mapM stored = .ok (parts.map (·.2)) ∧
      archive.toList = written.toList ++ (joinedBytes parts ++ ending.toList) := by
  induction files generalizing written with
  | nil =>
    refine ⟨[], by simp, rfl, ?_⟩
    rw [← (Prod.mk.inj h).1, Bytes.toList_append, joinedBytes, List.flatMap_nil, List.nil_append]
  | cons file files ih =>
    obtain ⟨name, content⟩ := file
    rw [append] at h
    cases hm : member name content with
    | error reason => simp [hm] at h
    | ok bytes =>
      simp only [hm] at h
      obtain ⟨parts, hparts, hstored, harchive⟩ := ih h
      obtain ⟨stored', hname, hbytes⟩ := encodes_member hm
      refine ⟨(bytes, ⟨stored', content⟩) :: parts, List.forall_mem_cons.2 ⟨hbytes, hparts⟩, ?_, ?_⟩
      · rw [List.mapM_cons, hstored, stored, hname]
        rfl
      · rw [harchive, joinedBytes, joinedBytes, List.flatMap_cons, Bytes.toList_append]
        simp only [List.append_assoc]

theorem write_eq_ok (h : write files = (archive, none)) :
    ∃ parts, (∀ part ∈ parts, Encodes part.1 part.2) ∧
      files.mapM stored = .ok (parts.map (·.2)) ∧
      archive.toList = joinedBytes parts ++ ending.toList := by
  obtain ⟨parts, hparts, hstored, harchive⟩ := append_eq_ok h
  exact ⟨parts, hparts, hstored, by simpa using harchive⟩

theorem size_ending : ending.size = 2 * blockSize := by
  rw [ending, ← Bytes.length_toList, toList_zeros, List.length_replicate]

/-- The size of an archive of some files. -/
def archiveSize (files : List (String × ByteArray)) : Nat :=
  (files.map fun file => blockSize + padded file.2.size).sum + 2 * blockSize

theorem size_append {written : ByteArray} (h : append written files = (archive, none)) :
    archive.size = written.size + archiveSize files := by
  induction files generalizing written with
  | nil =>
    rw [← (Prod.mk.inj h).1, ByteArray.size_append, size_ending]
    rfl
  | cons file files ih =>
    obtain ⟨name, content⟩ := file
    rw [append] at h
    cases hm : member name content with
    | error reason => simp [hm] at h
    | ok bytes =>
      simp only [hm] at h
      obtain ⟨_, -, hbytes⟩ := encodes_member hm
      rw [ih h, ByteArray.size_append, hbytes.size]
      simp only [archiveSize, List.map_cons, List.sum_cons]
      omega

theorem size_write (h : write files = (archive, none)) : archive.size = archiveSize files := by
  rw [size_append h, ByteArray.size_empty, Nat.zero_add]

/-- An archive as other tools write it, with names that are taken as they are. -/
def rawArchive (files : List (String × ByteArray)) : ByteArray :=
  files.foldr (fun file rest => rawMember file.1 file.2 ++ rest) ending

/-- The members of such an archive. -/
def rawParts (files : List (String × ByteArray)) : List (ByteArray × Member) :=
  files.map fun file => (rawMember file.1 file.2, ⟨file.1, file.2⟩)

theorem encodes_of_mem_rawParts (h : ∀ file ∈ files, Fits file.1) :
    ∀ part ∈ rawParts files, Encodes part.1 part.2 := by
  intro part hpart
  obtain ⟨file, hfile, rfl⟩ := List.mem_map.1 hpart
  exact encodes_rawMember (h file hfile) file.2

theorem toList_rawArchive (files : List (String × ByteArray)) :
    (rawArchive files).toList = joinedBytes (rawParts files) ++ ending.toList := by
  induction files with
  | nil => rw [rawArchive, rawParts, joinedBytes, List.foldr_nil, List.map_nil, List.flatMap_nil,
      List.nil_append]
  | cons file files ih =>
    rw [rawArchive, rawParts] at ih
    rw [rawArchive, List.foldr_cons, Bytes.toList_append, ih]
    simp [rawParts, joinedBytes]

theorem size_rawArchive (h : ∀ file ∈ files, Fits file.1) :
    (rawArchive files).size = archiveSize files := by
  induction files with
  | nil => exact size_ending
  | cons file files ih =>
    obtain ⟨hfile, hfiles⟩ := List.forall_mem_cons.1 h
    have hrest := ih hfiles
    rw [rawArchive, archiveSize] at hrest
    rw [rawArchive, List.foldr_cons, ByteArray.size_append, (encodes_rawMember hfile file.2).size,
      hrest]
    simp only [archiveSize, List.map_cons, List.sum_cons]
    omega

theorem append_eq_none_iff (written : ByteArray) (files : List (String × ByteArray)) :
    (append written files).2 = none ↔ ∀ file ∈ files, (storedName file.1).isOk := by
  induction files generalizing written with
  | nil => simp [append]
  | cons file files ih =>
    obtain ⟨name, content⟩ := file
    have hok : (member name content).isOk = (storedName name).isOk := member_isOk
    rw [append, List.forall_mem_cons, ← hok]
    cases hm : member name content with
    | error reason => simp [Except.isOk, Except.toBool]
    | ok bytes => simp [ih, Except.isOk, Except.toBool]

/-- An archive does not break off if and only if all of the names can be written. -/
theorem write_eq_none_iff (files : List (String × ByteArray)) :
    (write files).2 = none ↔ ∀ file ∈ files, (storedName file.1).isOk :=
  append_eq_none_iff .empty files

/-! ### The mark of an archive -/

theorem hasMagic_header (hlead : lead.length ≤ longestLead) (hshort : short.length ≤ longestName)
    {size : Nat} (harchive : (header lead short size).take 262 <+: archive.toList) :
    hasMagic archive = true := by
  have hlen : ((header lead short size).take 262).length = 262 := by
    rw [List.length_take, length_header hlead hshort]
    rfl
  have hmagic : (header lead short size).field 257 8 = Header.standardMagic := by
    have hstandard : (header lead short size).isStandard = true := isStandard_header hshort
    simpa [Header.isStandard] using hstandard
  have hsize : 262 ≤ archive.size := by
    have hle := harchive.length_le
    rwa [hlen, Bytes.length_toList] at hle
  obtain ⟨after, hafter⟩ := harchive
  have hextract : (archive.extract 257 262).toList = Header.standardMagic.take 5 := by
    rw [← hmagic, Header.field, List.take_take, Bytes.toList_extract, ← hafter,
      List.take_append_of_le_length (Nat.le_of_eq hlen.symm), List.take_take, List.drop_take]
    rfl
  rw [hasMagic, hextract, decide_eq_true hsize]
  rfl

/-- The mark stands in the first header. -/
theorem Encodes.hasMagic {bytes : ByteArray} {m : Member} (h : Encodes bytes m)
    (harchive : bytes.toList.take 262 <+: archive.toList) : Archive.hasMagic archive = true := by
  obtain ⟨lead, short, ⟨hlead, -⟩, ⟨hshort, -⟩, -, hbytes⟩ := h
  have hlen : (header lead short m.content.size).length = blockSize := length_header hlead hshort
  rw [hbytes, List.take_append_of_le_length (by rw [hlen]; decide)] at harchive
  exact hasMagic_header hlead hshort harchive

/-- Only an archive without members is not known as an archive. -/
theorem hasMagic_joinedBytes (hparts : ∀ part ∈ parts, Encodes part.1 part.2)
    (harchive : archive.toList = joinedBytes parts ++ tail)
    (htail : List.replicate blockSize 0 <+: tail) : Archive.hasMagic archive = !parts.isEmpty := by
  cases parts with
  | nil =>
    obtain ⟨after, rfl⟩ := htail
    have hextract : (archive.extract 257 262).toList = List.replicate 5 0 := by
      rw [Bytes.toList_extract, harchive, joinedBytes, List.flatMap_nil, List.nil_append,
        List.take_append_of_le_length (by rw [List.length_replicate]; decide), List.take_replicate,
        List.drop_replicate]
      rfl
    simp [Archive.hasMagic, hextract]
  | cons part parts =>
    have hjoined : joinedBytes (part :: parts) = part.1.toList ++ joinedBytes parts := rfl
    refine (hparts part List.mem_cons_self).hasMagic ?_
    rw [harchive, hjoined, List.append_assoc]
    exact (List.take_prefix _ _).trans (List.prefix_append _ _)

end Groundwork.Archive
