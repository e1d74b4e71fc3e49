import Groundwork.Proofs.Seed
import Groundwork.Proofs.Action

/-! Seeds on a partition. An archive takes the front of its partition, and what stands behind it says
nothing about the seeds. -/
namespace Groundwork.Bundle

variable {b : Bundle} {m m' : Machine} {partition name : String}

/-- Whether a name is held by two fields of its header, without the separator between them. -/
def IsDivided (name : String) : Prop :=
  ∃ above below, name = above ++ "/" ++ below ∧ above.utf8ByteSize ≤ 155 ∧
    below.utf8ByteSize ≤ 100 ∧
    Archive.divide name = .ok (above.toUTF8.toList, below.toUTF8.toList)

theorem isDivided_of_isNormal (h : Path.IsNormal name) (hok : (Archive.divide name).isOk)
    (hlong : 100 < name.utf8ByteSize) : IsDivided name := by
  rcases Archive.divide_of_isNormal h hok with ⟨-, hshort⟩ | ⟨-, above, below, hname, hdivide⟩
  · exact absurd hlong (Nat.not_lt_of_le hshort)
  · obtain ⟨⟨hlead, -⟩, ⟨hrest, -⟩, -⟩ := Archive.divide_eq_ok hdivide
    rw [Bytes.length_toList] at hlead hrest
    exact ⟨above, below, hname, hlead, hrest, hdivide⟩

/-- What a store that succeeds leaves on its partition is the whole archive. -/
theorem read_of_store (h : (b.store partition).perform m = (.ok (), m')) :
    b.toArchive.2 = none ∧ m'.files.read partition = .ok b.toArchive.1 := by
  obtain ⟨hwhole, t, hover, rfl⟩ := perform_store_eq_ok.1 h
  exact ⟨hwhole, read_overwrite hover⟩

theorem storedName_of_whole (hnormal : ∀ name ∈ b.files.keys, Path.IsNormal name)
    (hwhole : b.toArchive.2 = none) :
    ∀ name ∈ b.files.keys, Archive.storedName name = .ok name := by
  intro name hname
  exact Archive.storedName_of_isNormal (hnormal name hname) (toArchive_eq_none_iff.1 hwhole name hname)

/-- A bundle of ordinary relative names that was written comes back as it was, whatever the partition
held before and whatever stands behind the archive. A name too long for one field is divided on the
way. Places on a partition are numbers of 64 bits, so no archive is larger. -/
theorem onPartition_of_store (hnormal : ∀ name ∈ b.files.keys, Path.IsNormal name)
    (hsize : b.toArchive.1.size < 2 ^ 64) (h : (b.store partition).perform m = (.ok (), m')) :
    ∃ archive, m'.files.read partition = .ok archive ∧
      (∀ (stale : ByteArray) (t : FileTree) (path : String),
        t.read path = .ok (archive ++ stale) → onPartition t path = .ok b) ∧
      ∀ name ∈ b.files.keys, 100 < name.utf8ByteSize → IsDivided name := by
  obtain ⟨hwhole, hread⟩ := read_of_store h
  refine ⟨b.toArchive.1, hread, ?_, ?_⟩
  · intro stale t path hfound
    have harchive : b.toArchive = (b.toArchive.1, none) := Prod.ext rfl hwhole
    have hfront : b.toArchive.1.toList <+: (b.toArchive.1 ++ stale).toList := by
      rw [Bytes.toList_append]
      exact List.prefix_append _ _
    have hback := ofBytes_of_kept harchive hsize hfront (storedName_of_whole hnormal hwhole)
    exact onPartition_eq_ok.2 ⟨_, hfound, hback⟩
  · intro name hname hlong
    have hok := toArchive_eq_none_iff.1 hwhole name hname
    rw [Archive.storedName_isOk] at hok
    exact isDivided_of_isNormal (hnormal name hname) hok hlong

/-- A tree with nothing but a partition. -/
def partitionTree (content : ByteArray) : FileTree := ⟨[(["seeds"], .file content 0o644)], []⟩

/-- A name of two pieces that are too long for one field together. -/
def longName : String :=
  String.ofList (List.replicate 50 'a') ++ "/" ++ String.ofList (List.replicate 50 'b')

def longSeeds : Bundle := ⟨Dict.ofList [(longName, "{}".toUTF8)]⟩

theorem whole_longSeeds : longSeeds.toArchive.2 = none := by
  rw [toArchive_eq_none_iff]
  decide +kernel

theorem isNormal_longSeeds : ∀ name ∈ longSeeds.files.keys, Path.IsNormal name := by
  decide +kernel

theorem size_longSeeds : longSeeds.toArchive.1.size < 2 ^ 64 := by
  have harchive : longSeeds.toArchive = (longSeeds.toArchive.1, none) := by
    rw [← whole_longSeeds]
  rw [Archive.size_write harchive]
  decide +kernel

theorem perform_store_longSeeds (old : ByteArray) : ∃ m',
    (longSeeds.store "/seeds").perform ⟨partitionTree old, [], []⟩ = (.ok (), m') :=
  ⟨_, perform_store_eq_ok.2 ⟨whole_longSeeds, partitionTree longSeeds.toArchive.1, rfl, rfl⟩⟩

theorem onPartition_of_store_longSeeds : ∃ m' archive,
    (longSeeds.store "/seeds").perform ⟨partitionTree "old".toUTF8, [], []⟩ = (.ok (), m') ∧
    m'.files.read "/seeds" = .ok archive ∧
    onPartition (partitionTree (archive ++ "stale".toUTF8)) "/seeds" = .ok longSeeds ∧
    IsDivided longName := by
  obtain ⟨m', h⟩ := perform_store_longSeeds "old".toUTF8
  obtain ⟨archive, hread, hback, hdivided⟩ :=
    onPartition_of_store isNormal_longSeeds size_longSeeds h
  exact ⟨m', archive, h, hread, hback "stale".toUTF8 (partitionTree (archive ++ "stale".toUTF8)) _ rfl,
    hdivided longName (by decide +kernel) (by decide +kernel)⟩

end Groundwork.Bundle
