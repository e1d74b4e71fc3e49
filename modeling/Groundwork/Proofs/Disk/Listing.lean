import Groundwork.Disk.Listing
import Groundwork.Machine.Scripted
import Groundwork.Proofs.Bytes
import Groundwork.Proofs.Course
import Groundwork.Proofs.Registry
import Groundwork.Proofs.Text

/-! What an enumeration of disks finds. Of the disks that the queries list one after the other, each that
no earlier one is the same disk as is kept; the first query that brings no listing ends it. -/
namespace Groundwork

variable {env : Environment} {m : Machine} {c : DiskClass} {cs : List DiskClass} {d : Disk}
  {ds earlier known kept : List Disk} {e : Failure}

/-- The disks that a query lists. It fails if the tool does, or if its answer cannot be read. -/
def Attempt.listing (env : Environment) (a : Attempt) : Except Failure (List Disk) :=
  (a.checked env).bind fun o => Disk.ofListing o.stdout

namespace Disk

/-! ### Disks that are listed again -/

/-- The components of the kernel name, by which disks are told apart. -/
def place (d : Disk) : List Path.Component := Path.components d.kernelName

theorem same_iff {d e : Disk} : d.same e = true ↔ d.place = e.place := by
  simp [same, isAt, Path.same, place]

theorem isAt_congr {d e : Disk} (h : d.place = e.place) (path : String) :
    d.isAt path = e.isAt path := by
  rw [isAt, isAt, Path.same, Path.same, ← place, ← place, h]

/-- The disks of a list that are the same disk as no earlier one, in their order. The first list holds
what came before, whether it was kept or not. -/
inductive Unrepeated : List Disk → List Disk → List Disk → Prop
  | nil (earlier : List Disk) : Unrepeated earlier [] []
  | first {earlier ds kept : List Disk} {d : Disk} (hnew : ∀ e ∈ earlier, e.place ≠ d.place)
      (rest : Unrepeated (earlier ++ [d]) ds kept) : Unrepeated earlier (d :: ds) (d :: kept)
  | again {earlier ds kept : List Disk} {d e : Disk} (hearlier : e ∈ earlier)
      (hsame : e.place = d.place) (rest : Unrepeated (earlier ++ [d]) ds kept) :
      Unrepeated earlier (d :: ds) kept

theorem addNew_of_mem {e : Disk} (he : e ∈ known) (hsame : e.place = d.place) :
    addNew known d = known := by
  have hany : known.any (·.same d) = true := List.any_eq_true.2 ⟨e, he, same_iff.2 hsame⟩
  rw [addNew, if_pos hany]

theorem addNew_of_new (hnew : ∀ e ∈ known, e.place ≠ d.place) : addNew known d = known ++ [d] := by
  rw [addNew, if_neg]
  intro hany
  obtain ⟨e, he, hsame⟩ := List.any_eq_true.1 hany
  exact hnew e he (same_iff.1 hsame)

/-- What is known stands for all that came earlier: the same disks are in both. -/
theorem foldl_addNew (hknown : ∀ p, (∃ e ∈ known, e.place = p) ↔ ∃ e ∈ earlier, e.place = p) :
    ∃ kept, ds.foldl addNew known = known ++ kept ∧ Unrepeated earlier ds kept := by
  induction ds generalizing known earlier with
  | nil => exact ⟨[], (List.append_nil known).symm, .nil earlier⟩
  | cons d ds ih =>
    rw [List.foldl_cons]
    by_cases hd : ∃ e ∈ earlier, e.place = d.place
    · obtain ⟨e, he, hsame⟩ := hd
      obtain ⟨e', he', hsame'⟩ := (hknown d.place).2 ⟨e, he, hsame⟩
      rw [addNew_of_mem he' hsame']
      have hmore (p : List Path.Component) :
          (∃ e ∈ known, e.place = p) ↔ ∃ e ∈ earlier ++ [d], e.place = p := by
        rw [hknown]
        simp only [List.mem_append, List.mem_singleton, or_and_right, exists_or, exists_eq_left]
        constructor
        · exact .inl
        · rintro (h | rfl)
          · exact h
          · exact ⟨e, he, hsame⟩
      obtain ⟨kept, hfold, hkept⟩ := ih hmore
      exact ⟨kept, hfold, .again he hsame hkept⟩
    · have hnew : ∀ e ∈ earlier, e.place ≠ d.place := fun e he hsame => hd ⟨e, he, hsame⟩
      have hfresh : ∀ e ∈ known, e.place ≠ d.place :=
        fun e he hsame => hd ((hknown d.place).1 ⟨e, he, hsame⟩)
      rw [addNew_of_new hfresh]
      have hmore (p : List Path.Component) :
          (∃ e ∈ known ++ [d], e.place = p) ↔ ∃ e ∈ earlier ++ [d], e.place = p := by
        simp only [List.mem_append, or_and_right, exists_or, hknown]
      obtain ⟨kept, hfold, hkept⟩ := ih hmore
      exact ⟨d :: kept, by rw [hfold, List.append_assoc, List.singleton_append], .first hnew hkept⟩

namespace Unrepeated

theorem sublist (h : Unrepeated earlier ds kept) : kept.Sublist ds := by
  induction h with
  | nil => exact .slnil
  | first _ _ ih => exact ih.cons_cons _
  | again _ _ _ ih => exact ih.cons _

theorem place_ne (h : Unrepeated earlier ds kept) :
    ∀ d ∈ kept, ∀ e ∈ earlier, e.place ≠ d.place := by
  induction h with
  | nil => simp
  | first hnew _ ih =>
    intro d hd e he
    rcases List.mem_cons.1 hd with rfl | hd
    · exact hnew e he
    · exact ih d hd e (List.mem_append_left _ he)
  | again _ _ _ ih => exact fun d hd e he => ih d hd e (List.mem_append_left _ he)

theorem pairwise (h : Unrepeated earlier ds kept) : kept.Pairwise (·.place ≠ ·.place) := by
  induction h with
  | nil => exact .nil
  | first _ rest ih =>
    exact .cons (fun e he => rest.place_ne e he _ (List.mem_append_right _ (.head _))) ih
  | again _ _ _ ih => exact ih

/-- A path that was not listed earlier leads to the same disk before and after. -/
theorem find? (h : Unrepeated earlier ds kept) {path : String}
    (hpath : ∀ e ∈ earlier, e.isAt path = false) :
    kept.find? (·.isAt path) = ds.find? (·.isAt path) := by
  induction h with
  | nil => rfl
  | @first earlier ds kept d _ _ ih =>
    rw [List.find?_cons, List.find?_cons]
    cases hd : d.isAt path with
    | true => rfl
    | false => exact ih (List.forall_mem_append.2 ⟨hpath, List.forall_mem_singleton.2 hd⟩)
  | @again earlier ds kept d e he hsame _ ih =>
    have hd : d.isAt path = false := by rw [← isAt_congr hsame path, hpath e he]
    rw [List.find?_cons, hd]
    exact ih (List.forall_mem_append.2 ⟨hpath, List.forall_mem_singleton.2 hd⟩)

end Unrepeated

/-- What is made of the disks that were listed. -/
structure Gathers (listed disks : List Disk) : Prop where
  unrepeated : Unrepeated [] listed disks
  order : disks.Sublist listed
  once : disks.Pairwise (·.place ≠ ·.place)
  /-- Every path that was listed leads to the disk that was listed for it first. -/
  first : ∀ path, disks.find? (·.isAt path) = listed.find? (·.isAt path)

theorem gathers_foldl_addNew (listed : List Disk) : Gathers listed (listed.foldl addNew []) := by
  obtain ⟨kept, hfold, hkept⟩ := @foldl_addNew listed [] [] fun _ => Iff.rfl
  rw [List.nil_append] at hfold
  rw [hfold]
  exact ⟨hkept, hkept.sublist, hkept.pairwise, fun path => hkept.find? (by simp)⟩

/-! ### The queries -/

theorem perform_ofClass (env : Environment) (c : DiskClass) (m : Machine) :
    (ofClass env c).perform m =
      (Attempt.listing env ⟨m, c.query⟩, Attempt.after env ⟨m, c.query⟩) := by
  unfold ofClass Attempt.listing
  rw [Action.perform_bind, Action.perform_runChecked]
  cases Attempt.checked env ⟨m, c.query⟩ <;> rfl

/-- The disks of some classes, added to those that are known. -/
def gather (env : Environment) (known : List Disk) (cs : List DiskClass) : Action (List Disk) :=
  cs.foldlM (fun known c => do return (← ofClass env c).foldl addNew known) known

theorem gather_of_ok (h : Attempt.listing env ⟨m, c.query⟩ = .ok ds) :
    (gather env known (c :: cs)).perform m =
      (gather env (ds.foldl addNew known) cs).perform (Attempt.after env ⟨m, c.query⟩) := by
  have hclass := perform_ofClass env c m
  rw [h] at hclass
  rw [gather, List.foldlM_cons, bind_assoc, Action.perform_bind_of_ok _ hclass, pure_bind, gather]

theorem gather_of_error (h : Attempt.listing env ⟨m, c.query⟩ = .error e) :
    (gather env known (c :: cs)).perform m = (.error e, Attempt.after env ⟨m, c.query⟩) := by
  have hclass := perform_ofClass env c m
  rw [h] at hclass
  rw [gather, List.foldlM_cons, bind_assoc, Action.perform_bind_of_error _ hclass]

theorem listing_of_checked {a : Attempt} {o : Output} (ho : a.checked env = .ok o)
    (hlisting : ofListing o.stdout = .ok ds) : a.listing env = .ok ds := by
  rw [Attempt.listing, ho]
  exact hlisting

/-- A tool that answers with blanks has listed no disk. -/
theorem listing_of_blank {a : Attempt} {o : Output} (ho : a.checked env = .ok o)
    (hblank : ∀ c ∈ o.stdout.toList, Text.isBlank c = true) : a.listing env = .ok [] := by
  have htrim : Text.trim o.stdout = "" := by
    rw [Text.trim, Text.trimChars, List.dropWhile_eq_nil_iff.2 hblank]
    rfl
  exact listing_of_checked ho (by rw [ofListing, if_pos htrim])

/-! ### Enumeration -/

/-- The queries of an enumeration, each put to the machine that the one before it has left. -/
def nvmeQuery (m : Machine) : Attempt :=
  ⟨m, ⟨"lsblk", ["-N", "-iJnpb", "-e", "1,2", "-o", "KNAME,ID_LINK,SIZE"]⟩⟩

def scsiQuery (env : Environment) (m : Machine) : Attempt :=
  ⟨(nvmeQuery m).after env, ⟨"lsblk", ["-S", "-iJnpb", "-e", "1,2", "-o", "KNAME,ID_LINK,SIZE"]⟩⟩

def virtualQuery (env : Environment) (m : Machine) : Attempt :=
  ⟨(scsiQuery env m).after env, ⟨"lsblk", ["-v", "-iJnpb", "-e", "1,2", "-o", "KNAME,ID_LINK,SIZE"]⟩⟩

theorem all_after_nvme {ns : List Disk} (hnvme : (nvmeQuery m).listing env = .ok ns) :
    (all env).perform m =
      (gather env (ns.foldl addNew []) [.scsi, .virtual]).perform (scsiQuery env m).machine :=
  gather_of_ok hnvme

theorem all_after_scsi {ns ss : List Disk} (hnvme : (nvmeQuery m).listing env = .ok ns)
    (hscsi : (scsiQuery env m).listing env = .ok ss) :
    (all env).perform m =
      (gather env ((ns ++ ss).foldl addNew []) [.virtual]).perform (virtualQuery env m).machine := by
  rw [all_after_nvme hnvme, List.foldl_append]
  exact gather_of_ok hscsi

theorem all_of_listed {ns ss vs : List Disk} (hnvme : (nvmeQuery m).listing env = .ok ns)
    (hscsi : (scsiQuery env m).listing env = .ok ss)
    (hvirtual : (virtualQuery env m).listing env = .ok vs) :
    (all env).perform m =
      (.ok ((ns ++ ss ++ vs).foldl addNew []), (virtualQuery env m).after env) := by
  refine (all_after_scsi hnvme hscsi).trans ((gather_of_ok hvirtual).trans ?_)
  rw [← List.foldl_append]
  rfl

/-- Enumeration in full. The first query that fails ends it, with its failure; if none does, the disks
of the three listings are gathered. A listing of blanks holds none. -/
theorem all_gathers (env : Environment) (m : Machine) :
    (∀ e, (nvmeQuery m).listing env = .error e →
      (all env).perform m = (.error e, (nvmeQuery m).after env)) ∧
    (∀ ns e, (nvmeQuery m).listing env = .ok ns → (scsiQuery env m).listing env = .error e →
      (all env).perform m = (.error e, (scsiQuery env m).after env)) ∧
    (∀ ns ss e, (nvmeQuery m).listing env = .ok ns → (scsiQuery env m).listing env = .ok ss →
      (virtualQuery env m).listing env = .error e →
      (all env).perform m = (.error e, (virtualQuery env m).after env)) ∧
    (∀ ns ss vs, (nvmeQuery m).listing env = .ok ns → (scsiQuery env m).listing env = .ok ss →
      (virtualQuery env m).listing env = .ok vs →
      ∃ disks, (all env).perform m = (.ok disks, (virtualQuery env m).after env) ∧
        Gathers (ns ++ ss ++ vs) disks) ∧
    ∀ (a : Attempt) (o : Output), a.checked env = .ok o →
      (∀ c ∈ o.stdout.toList, Text.isBlank c = true) → a.listing env = .ok [] := by
  refine ⟨?_, ?_, ?_, ?_, fun a o => listing_of_blank⟩
  · intro e hnvme
    exact gather_of_error hnvme
  · intro ns e hnvme hscsi
    rw [all_after_nvme hnvme]
    exact gather_of_error hscsi
  · intro ns ss e hnvme hscsi hvirtual
    rw [all_after_scsi hnvme hscsi]
    exact gather_of_error hvirtual
  · intro ns ss vs hnvme hscsi hvirtual
    exact ⟨_, all_of_listed hnvme hscsi hvirtual, gathers_foldl_addNew _⟩

/-! ### A disk under two spellings -/

def nvmeListing : String :=
  "\x7b\"blockdevices\":[\x7b\"kname\":\"/dev/nvme0n1\",\"id-link\":\"nvme-a\",\"size\":1\x7d]\x7d"

def scsiListing : String :=
  "\x7b\"blockdevices\":[\x7b\"kname\":\"/dev/sda\",\"id-link\":\"usb-b\",\"size\":\"2\"\x7d," ++
    "\x7b\"kname\":\"/dev//sda\",\"id-link\":null,\"size\":3\x7d]\x7d"

/-- The SCSI query lists one disk twice, and the virtual query prints a blank line. -/
def respelledEnvironment : Environment :=
  Script.environment {
    registry := fun _ => .sample
    answers := [(⟨"lsblk", ["-N"]⟩, ⟨some 0, nvmeListing, ""⟩),
      (⟨"lsblk", ["-S"]⟩, ⟨some 0, scsiListing, ""⟩),
      (⟨"lsblk", ["-v"]⟩, ⟨some 0, "\n", ""⟩)] } "/usr/bin/strata"

def idleMachine : Machine := ⟨.empty, [], []⟩

theorem ofListing_of_solid {listing : String} (h : Text.trimChars listing.toList ≠ []) :
    ofListing listing = ((Json.Raw.parse listing.toUTF8.data.toList).bind listOfRaw).mapError
      fun e => .serialization e.message := by
  have hnotblank : Text.trim listing ≠ "" := by
    rw [← String.ofList_toList (s := listing)]
    exact Text.trim_ofList_ne_empty h
  rw [ofListing, if_neg hnotblank, Json.Raw.ofText, Bytes.toList_eq_data]

theorem ofListing_nvmeListing : ofListing nvmeListing = .ok [⟨"/dev/nvme0n1", "nvme-a", 1⟩] := by
  rw [ofListing_of_solid (by decide +kernel)]
  exact Action.eq_ok_of_toOption (by decide +kernel)

theorem ofListing_scsiListing :
    ofListing scsiListing = .ok [⟨"/dev/sda", "usb-b", 2⟩, ⟨"/dev//sda", "", 3⟩] := by
  rw [ofListing_of_solid (by decide +kernel)]
  exact Action.eq_ok_of_toOption (by decide +kernel)

theorem all_gathers_respelled :
    (nvmeQuery idleMachine).listing respelledEnvironment = .ok [⟨"/dev/nvme0n1", "nvme-a", 1⟩] ∧
    (scsiQuery respelledEnvironment idleMachine).listing respelledEnvironment =
      .ok [⟨"/dev/sda", "usb-b", 2⟩, ⟨"/dev//sda", "", 3⟩] ∧
    (virtualQuery respelledEnvironment idleMachine).listing respelledEnvironment = .ok [] ∧
    ∃ disks, (all respelledEnvironment).perform idleMachine =
        (.ok disks, (virtualQuery respelledEnvironment idleMachine).after respelledEnvironment) ∧
      Gathers [⟨"/dev/nvme0n1", "nvme-a", 1⟩, ⟨"/dev/sda", "usb-b", 2⟩, ⟨"/dev//sda", "", 3⟩]
        disks := by
  obtain ⟨-, -, -, hgathers, hblank⟩ := all_gathers respelledEnvironment idleMachine
  have hnvme := @listing_of_checked respelledEnvironment _ (nvmeQuery idleMachine)
    ⟨some 0, nvmeListing, ""⟩ rfl ofListing_nvmeListing
  have hscsi := @listing_of_checked respelledEnvironment _
    (scsiQuery respelledEnvironment idleMachine) ⟨some 0, scsiListing, ""⟩ rfl ofListing_scsiListing
  have hvirtual := hblank (virtualQuery respelledEnvironment idleMachine) ⟨some 0, "\n", ""⟩ rfl
    (List.forall_mem_singleton.2 rfl)
  exact ⟨hnvme, hscsi, hvirtual, hgathers _ _ _ hnvme hscsi hvirtual⟩

/-- The first spelling stays, with its stable ID and its size. -/
example : [⟨"/dev/sda", "usb-b", 2⟩, ⟨"/dev//sda", "", 3⟩].foldl addNew [] =
    [⟨"/dev/sda", "usb-b", 2⟩] := by decide

end Disk

end Groundwork
