import Groundwork.Proofs.FileTree
import Groundwork.Proofs.Path
import Groundwork.Proofs.Registry
import Groundwork.Registry.Sources

/-! One layer of the registry. From a mapped device the disk is worked out by a link alone, from the
device below it by its attributes; a whole disk is the same disk on both ways only where its directory
stands directly below one that is named `block`. -/
namespace Groundwork

namespace Path

variable {path other : String}

/-- The last component and the one before it, the last one first. -/
def lastTwo (path : String) : List Component := (components path).reverse.take 2

theorem parentName?_congr (h : lastTwo path = lastTwo other) :
    parentName? path = parentName? other := by
  have hlast (p : String) : (components p).dropLast.getLast? = (lastTwo p).tail.head? := by
    rw [lastTwo, ← List.drop_one, List.drop_take, List.head?_take, if_neg (by decide),
      List.drop_one, List.tail_reverse, List.head?_reverse]
  unfold parentName?
  rw [hlast, hlast, h]

end Path

namespace Registry

variable {r : Registry} {anchor above entry mapped slave link own root : String}

/-- Whether the file system of a path is on the device of an entry. -/
def IsOn (r : Registry) (anchor entry : String) : Prop :=
  ∃ n, r.deviceNumber anchor = .ok n ∧ r.findEntry n = .ok entry

/-- A mapped device whose first slave is no mapped device. The link to the slave and the registry's own
link to it end alike, as both lead to the one directory of the device. -/
structure Stacked (r : Registry) (mapped slave link own : String) : Prop where
  not_partition : r.has (mapped ++ "/partition") = false
  first : ∃ first rest, r.list (mapped ++ "/slaves") = .ok (first :: rest) ∧
    r.link (mapped ++ "/slaves/" ++ first) = .ok link
  name : Path.fileName? link = some slave
  not_mapped : Text.startsWith slave "dm-" = false
  own_link : r.link slave = .ok own
  same_end : Path.lastTwo own = Path.lastTwo link

theorem baseOf_partition (hpart : r.has (entry ++ "/partition") = true)
    (hlink : r.link entry = .ok own) :
    r.baseOf entry = .ok (.disk (parentDisk entry own)) := by
  rw [baseOf, if_pos hpart, hlink]
  rfl

theorem baseOf_whole (hpart : r.has (entry ++ "/partition") = false)
    (hslaves : r.list (entry ++ "/slaves") = .ok []) : r.baseOf entry = .ok (.disk entry) := by
  rw [baseOf, if_neg (by simp [hpart]), hslaves]
  rfl

theorem Stacked.baseOf (h : Stacked r mapped slave link own) :
    r.baseOf mapped = .ok (.disk (parentDisk slave link)) := by
  obtain ⟨first, rest, hslaves, hlink⟩ := h.first
  rw [Registry.baseOf, if_neg (by simp [h.not_partition]), hslaves]
  simp only [ask, Action.ok_mapError, bind, Except.bind, hlink, h.name, h.not_mapped]
  rfl

theorem parentDisk_congr (h : Path.parentName? own = Path.parentName? link) :
    parentDisk slave own = parentDisk slave link := by
  rw [parentDisk, h, parentDisk]

theorem parentDisk_eq_self_iff : parentDisk slave link = slave ↔ Path.parentName? link = none ∨
    Path.parentName? link = some "block" ∨ Path.parentName? link = some slave := by
  unfold parentDisk
  cases hparent : Path.parentName? link with
  | none => simp
  | some parent =>
    by_cases hblock : parent = "block"
    · simp [hblock]
    · simp [hblock]

theorem isName_parentDisk (h : Path.IsName slave) : Path.IsName (parentDisk slave link) := by
  unfold parentDisk
  cases hparent : Path.parentName? link with
  | none => exact h
  | some parent =>
    by_cases hblock : parent = "block"
    · simpa [hblock] using h
    · simpa [hblock] using Path.isName_of_parentName? hparent

theorem diskOf_of_base {name : String} {layers : Nat} (h : r.baseOf entry = .ok (.disk name)) :
    r.diskOf layers entry = .ok name := by
  cases layers <;> rw [diskOf, h] <;> rfl

theorem underlyingDevice_of_base {name : String} (hon : r.IsOn anchor entry)
    (h : r.baseOf entry = .ok (.disk name)) :
    r.underlyingDevice anchor root = .ok (Path.join root name) := by
  obtain ⟨n, hnumber, hentry⟩ := hon
  have hdisk : r.diskOf mappedLayers entry = .ok name := diskOf_of_base h
  simp only [underlyingDevice, hnumber, ask, Action.ok_mapError, bind, Except.bind, hentry, hdisk]

/-- What is resolved from a mapped device and what is resolved from the device below it. The two are
the same disk for every partition, and for a whole disk if and only if the directory above its own is
named `block` or like the disk, or has no name. -/
theorem underlyingDevice_mapped_iff (h : Stacked r mapped slave link own)
    (hmapped : r.IsOn above mapped) (hslave : r.IsOn anchor slave)
    (hbelow : r.has (slave ++ "/partition") = true ∨ r.list (slave ++ "/slaves") = .ok []) :
    r.underlyingDevice above root = .ok (Path.join root (parentDisk slave link)) ∧
    (r.has (slave ++ "/partition") = true →
      r.underlyingDevice anchor root = .ok (Path.join root (parentDisk slave link))) ∧
    (r.has (slave ++ "/partition") = false →
      r.underlyingDevice anchor root = .ok (Path.join root slave)) ∧
    (r.underlyingDevice above root = r.underlyingDevice anchor root ↔
      r.has (slave ++ "/partition") = true ∨ Path.parentName? link = none ∨
        Path.parentName? link = some "block" ∨ Path.parentName? link = some slave) := by
  have hfrom : r.underlyingDevice above root = .ok (Path.join root (parentDisk slave link)) :=
    underlyingDevice_of_base hmapped h.baseOf
  have hpartition (hpart : r.has (slave ++ "/partition") = true) :
      r.underlyingDevice anchor root = .ok (Path.join root (parentDisk slave link)) := by
    rw [← parentDisk_congr (Path.parentName?_congr h.same_end)]
    exact underlyingDevice_of_base hslave (baseOf_partition hpart h.own_link)
  have hwhole (hpart : r.has (slave ++ "/partition") = false) :
      r.underlyingDevice anchor root = .ok (Path.join root slave) := by
    have hslaves : r.list (slave ++ "/slaves") = .ok [] := by
      rcases hbelow with hpart' | hslaves
      · rw [hpart] at hpart'
        cases hpart'
      · exact hslaves
    exact underlyingDevice_of_base hslave (baseOf_whole hpart hslaves)
  refine ⟨hfrom, hpartition, hwhole, ?_⟩
  rw [hfrom]
  cases hpart : r.has (slave ++ "/partition") with
  | true => simp [hpartition hpart]
  | false =>
    have hname := Path.isName_of_fileName? h.name
    rw [hwhole hpart, Except.ok.injEq, Path.join_inj (isName_parentDisk hname) hname,
      parentDisk_eq_self_iff]
    simp

/-! ### A whole disk under another directory -/

/-- A mapped device on a whole disk of a controller that has a directory of its own. -/
def controllerTree : FileTree where
  nodes := [(["devices", "nvme", "nvme0", "nvme0n1"], .directory),
    (["devices", "nvme", "nvme0", "nvme0n1", "dev"], .file "259:0\n".toUTF8 0o644),
    (["devices", "nvme", "nvme0", "nvme0n1", "slaves"], .directory),
    (["devices", "nvme", "nvme0"], .directory), (["devices", "nvme"], .directory),
    (["devices"], .directory), (["sys"], .directory), (["sys", "dm-1"], .directory),
    (["sys", "dm-1", "dev"], .file "253:1\n".toUTF8 0o644), (["sys", "dm-1", "slaves"], .directory),
    (["sys", "dm-1", "slaves", "nvme0n1"], .link "../../../devices/nvme/nvme0/nvme0n1"),
    (["sys", "nvme0n1"], .link "../devices/nvme/nvme0/nvme0n1")]
  start := []

def controller : Registry :=
  controllerTree.registry "/sys" fun path =>
    if path = "/mnt" then .ok ⟨259, 0⟩ else .ok ⟨253, 1⟩

theorem stacked_controller : Stacked controller "dm-1" "nvme0n1"
    "../../../devices/nvme/nvme0/nvme0n1" "../devices/nvme/nvme0/nvme0n1" where
  not_partition := by decide +kernel
  first := ⟨"nvme0n1", [], Action.eq_ok_of_toOption (by decide +kernel),
    Action.eq_ok_of_toOption (by decide +kernel)⟩
  name := by decide +kernel
  not_mapped := by decide +kernel
  own_link := Action.eq_ok_of_toOption (by decide +kernel)
  same_end := by decide +kernel

theorem entries_controller : controller.entries = .ok ["dm-1", "nvme0n1"] := by
  have hfind : controllerTree.find "/sys" true = .ok (["sys"], .directory) := rfl
  have hbelow : controllerTree.below ["sys"] = ["dm-1", "nvme0n1"] := by decide +kernel
  refine FileTree.list_eq_ok.2 ⟨_, hfind, ?_⟩
  rw [hbelow]
  exact (List.mergeSort_of_pairwise (by decide +kernel)).symm

theorem isOn_controller : controller.IsOn "/usr/bin/strata" "dm-1" ∧
    controller.IsOn "/mnt" "nvme0n1" := by
  have hmapped : ["dm-1", "nvme0n1"].find? (controller.entryHas ⟨253, 1⟩) = some "dm-1" := by
    decide +kernel
  have hdisk : ["dm-1", "nvme0n1"].find? (controller.entryHas ⟨259, 0⟩) = some "nvme0n1" := by
    decide +kernel
  constructor
  · refine ⟨_, rfl, ?_⟩
    rw [findEntry, entries_controller]
    simp only [ask, Action.ok_mapError, bind, Except.bind, hmapped]
  · refine ⟨_, rfl, ?_⟩
    rw [findEntry, entries_controller]
    simp only [ask, Action.ok_mapError, bind, Except.bind, hdisk]

theorem slaves_controller : controller.list ("nvme0n1" ++ "/slaves") = .ok [] :=
  Action.eq_ok_of_toOption (by decide +kernel)

/-- The mapped device leads to the controller, which is no disk. -/
theorem whole_disk_is_missed :
    Stacked controller "dm-1" "nvme0n1" "../../../devices/nvme/nvme0/nvme0n1"
      "../devices/nvme/nvme0/nvme0n1" ∧
    controller.IsOn "/usr/bin/strata" "dm-1" ∧ controller.IsOn "/mnt" "nvme0n1" ∧
    controller.list ("nvme0n1" ++ "/slaves") = .ok [] ∧
    controller.underlyingDevice "/usr/bin/strata" "/dev" = .ok "/dev/nvme0" ∧
    controller.underlyingDevice "/mnt" "/dev" = .ok "/dev/nvme0n1" :=
  ⟨stacked_controller, isOn_controller.1, isOn_controller.2, slaves_controller,
    underlyingDevice_of_base isOn_controller.1 stacked_controller.baseOf,
    underlyingDevice_of_base isOn_controller.2 (baseOf_whole (by decide +kernel) slaves_controller)⟩

theorem underlyingDevice_mapped_controller :
    controller.underlyingDevice "/usr/bin/strata" "/dev" ≠ controller.underlyingDevice "/mnt" "/dev" := by
  obtain ⟨-, -, -, hiff⟩ := @underlyingDevice_mapped_iff _ _ _ _ _ _ _ "/dev" stacked_controller
    isOn_controller.1 isOn_controller.2 (.inr slaves_controller)
  rw [ne_eq, hiff]
  decide +kernel

end Registry

end Groundwork
