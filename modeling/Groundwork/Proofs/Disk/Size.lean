import Groundwork.Disk.Listing
import Groundwork.Proofs.Json.Counter
import Groundwork.Proofs.Json.Place

/-! Sizes in listings of disks. What a listing has for a size counts as the number that it is, however it is
written, and a listing with something else in its place is refused as a whole. -/
namespace Groundwork.Disk

open Json

variable {r : Raw} {n : Nat} {d : Disk} {v : Value}

/-- Whether a listing may have a document for a size. -/
inductive Measures : Raw → Nat → Prop
  | missing : Measures .null 0
  | counts {r : Raw} {n : Nat} (h : r.Counts n) : Measures r n

theorem sizeOfRaw_eq_ok_iff : sizeOfRaw r = .ok n ↔ Measures r n := by
  have hcounter : r.counter = .ok n ↔ r.Counts n := counter_eq_ok_iff
  cases r with
  | null =>
    constructor
    · intro h
      cases h
      exact .missing
    · intro h
      cases h with
      | missing => rfl
      | counts h => cases h
  | _ =>
    refine hcounter.trans ⟨.counts, fun h => ?_⟩
    cases h with
    | counts h => exact h

/-! ### One size in a listing -/

/-- The fields of a listed disk. -/
def fieldNames : List String := ["kname", "id-link", "size"]

/-- Where a size stands in a listing. -/
structure SizePlace where
  listing : FieldSlot ["blockdevices"] "blockdevices"
  front : List Raw
  entry : FieldSlot fieldNames "size"
  back : List Raw

namespace SizePlace

variable (place : SizePlace)

/-- The listing with a size. -/
def fill (r : Raw) : Raw :=
  place.listing.fill (.array (place.front ++ place.entry.fill r :: place.back))

/-- Whether disks are listed as the entries say, and one of them with the size that is given. -/
def Shows (disks : Nat → List Disk) : Prop :=
  ∃ (before : List Disk) (d : Disk) (after : List Disk), place.front.mapM ofRaw = .ok before ∧
    place.back.mapM ofRaw = .ok after ∧ disks = fun size => before ++ { d with size := size } :: after

theorem carries_entry : Carries sizeOfRaw (fun r => ofRaw (place.entry.fill r))
    (fun put => ∃ d : Disk, put = fun size => { d with size := size }) := by
  refine (carries_ofRaw (by decide) (by decide) place.entry).bind_part ?_
  rintro _ ⟨gap, rfl⟩
  simp only [gap.required_fill_of_ne _ (show "size" ≠ "kname" by decide),
    gap.defaulting_fill_of_ne _ (show "size" ≠ "id-link" by decide), gap.defaulting_fill]
  refine .bind_left _ fun kernelName _ => .bind_left _ fun stableId _ => ?_
  refine ((Carries.refl sizeOfRaw).map fun size => Disk.mk kernelName (stableId.getD "") size).mono ?_
  rintro _ ⟨_, rfl, rfl⟩
  exact ⟨⟨kernelName, stableId.getD "", 0⟩, rfl⟩

theorem carries_fill : Carries sizeOfRaw (fun r => listOfRaw (place.fill r)) place.Shows := by
  refine ((carries_ofRaw (by decide) (by decide) place.listing).comp _).bind_part ?_
  rintro _ ⟨gap, rfl⟩
  simp only [gap.defaulting_fill, Raw.items]
  refine (place.carries_entry.mapM place.front place.back).mono ?_
  rintro _ ⟨_, before, after, ⟨d, rfl⟩, hbefore, hafter, rfl⟩
  exact ⟨before, d, after, hbefore, hafter, rfl⟩

end SizePlace

theorem ofListing_of_ofText {listing : String} (h : Raw.ofText listing = .ok r) :
    ofListing listing = (listOfRaw r).mapError fun e => .serialization e.message := by
  rw [ofListing, if_neg (trim_ne_empty_of_ofText h), h]
  rfl

theorem takesNumber_size (place : SizePlace) :
    TakesNumber ofListing place.fill Measures place.Shows :=
  takesNumber_of_carries place.carries_fill (fun _ _ => sizeOfRaw_eq_ok_iff) fun _ _ => ofListing_of_ofText

/-! ### Listings that are written -/

/-- Whether a value is what a listing has for a disk. -/
inductive Written : Disk → Value → Prop
  | entry {kernelName stableId : String} {size : Nat} {v : Value} (hsize : v.Counts size) :
    Written ⟨kernelName, stableId, size⟩
      (.object [("id-link", .string stableId), ("kname", .string kernelName), ("size", v)])

/-- The value of a listing with entries. -/
def listing (entries : List Value) : Value := .object [("blockdevices", .array entries)]

theorem Written.exists_raw (h : Written d v) : ∃ r, Spells v.encode r ∧ ofRaw r = .ok d := by
  cases h with
  | @entry kernelName stableId size v hsize =>
    obtain ⟨r, hspells, hcounts⟩ := hsize.exists_raw
    have hms : List.Forall₂ WrittenMember
        [("id-link", .string stableId), ("kname", .string kernelName), ("size", v)]
        [(_, .string _), (_, .string _), (_, r)] :=
      .cons ⟨rfl, spells_string stableId⟩ (.cons ⟨rfl, spells_string kernelName⟩
        (.cons ⟨rfl, hspells⟩ .nil))
    refine ⟨.object _, spells_encode_object hms, ?_⟩
    have hfields : Fields.ofRaw fieldNames (.object _) = .ok ⟨_, false⟩ :=
      fields_of_written hms rfl
    have hread : sizeOfRaw r = .ok size := sizeOfRaw_eq_ok_iff.2 (.counts hcounts)
    refine bind_eq_ok.2 ⟨_, hfields, bind_eq_ok.2 ⟨_, bodyText_escaped kernelName,
      bind_eq_ok.2 ⟨some stableId, ?_, bind_eq_ok.2 ⟨size, hread, rfl⟩⟩⟩⟩
    exact congrArg (Except.map some) (bodyText_escaped stableId)

/-- A listing of disks, each with its size written as a number or as a text, is read as the disks. -/
theorem exists_listing {disks : List Disk} {entries : List Value} (h : List.Forall₂ Written disks entries) :
    ∃ text : String, text.toUTF8.toList = (listing entries).encode ∧ ofListing text = .ok disks := by
  obtain ⟨rs, hspells, hread⟩ := exists_between h fun _ _ => Written.exists_raw
  have hms : List.Forall₂ WrittenMember [("blockdevices", .array entries)] [(_, .array rs)] :=
    .cons ⟨rfl, spells_encode_array hspells⟩ .nil
  obtain ⟨text, htext, hdocument⟩ := (spells_encode_object hms).exists_text
  have hfields : Fields.ofRaw ["blockdevices"] (.object _) = .ok ⟨_, false⟩ :=
    fields_of_written hms rfl
  have hlist : listOfRaw (.object _) = .ok disks :=
    bind_eq_ok.2 ⟨_, hfields, mapM_eq_ok_iff.2 hread.flip⟩
  refine ⟨text, htext, ?_⟩
  rw [ofListing_of_ofText hdocument, hlist]
  rfl

end Groundwork.Disk
