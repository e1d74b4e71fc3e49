import Groundwork.Proofs.Action
import Groundwork.Proofs.Disk.Size
import Groundwork.Proofs.Pool.Counter

/-! The numbers that tools report. A number is the same to the readers of both tools whether it is written
in digits or as a text of digits, and they refuse a document with a number that they cannot hold. -/
namespace Groundwork

open Json

/-- What counts as a number in the reports of pools and in the listings of disks, wherever it stands. An
integer does without a minus sign and below `2 ^ 64`, a text if it is such a number after trimming, and a
fraction does not. Where there is no number, the document is refused; where there is one, the document is read
as with any other number in the place, and that number is what was written. For all pools and all disks, and
for every way to write their numbers, there is a document that is read as them. -/
theorem numbers_read_alike :
    (∀ negative n, ∃ r, Spells (sign negative ++ digitBytes n) r ∧
      ∀ m, r.Counts m ↔ negative = false ∧ m = n ∧ n < 2 ^ 64) ∧
    (∀ s, ∃ r, Spells (Value.encodeText s) r ∧
      ∀ m, r.Counts m ↔ Decimal.Writes (Text.trimChars s.toList) m ∧ m < 2 ^ 64) ∧
    (∀ num : Numeral, num.fraction ≠ [] ∨ num.exponent ≠ none → ∀ m, ¬ (Raw.number num).Counts m) ∧
    (∀ place : Pool.CounterPlace, TakesNumber Pool.ofReport place.fill Raw.Counts place.Shows) ∧
    (∀ place : Disk.SizePlace, TakesNumber Disk.ofListing place.fill Disk.Measures place.Shows) ∧
    (∀ (pools : Dict Pool) (entries : List (String × Value)),
      List.Forall₂ (fun e f => e.1 = f.1 ∧ Pool.Written e.2 f.2) pools.entries entries →
      ∃ text : String, text.toUTF8.toList = (Pool.report entries).encode ∧
        Pool.ofReport text = .ok (pools.entries.map (·.2))) ∧
    ∀ (disks : List Disk) (entries : List Value), List.Forall₂ Disk.Written disks entries →
      ∃ text : String, text.toUTF8.toList = (Disk.listing entries).encode ∧
        Disk.ofListing text = .ok disks :=
  ⟨exists_integer, exists_text, fun _ => not_counts_of_real, Pool.takesNumber_counter,
    Disk.takesNumber_size, fun _ _ => Pool.exists_report, fun _ _ => Disk.exists_listing⟩

/-! ### The greatest counter and one beyond -/

def greatest : Nat := 18446744073709551615

/-- A pool with a value for the counter of what was examined. -/
def tankEntry (examined : Value) : Value :=
  .object [("name", .string "tank"), ("scan_stats", Pool.scanValue none .scanning examined (.string " 7 ")),
    ("state", .string "ONLINE")]

def tankReport (examined : Value) : Value := Pool.report [("tank", tankEntry examined)]

def tank : Pool := ⟨"tank", "ONLINE", none, some ⟨.scanning, greatest, 7⟩⟩

/-- The greatest counter as a text, with blanks of two kinds and a plus sign. -/
def paddedGreatest : Value :=
  .string (String.ofList (['\t', '\u00a0'] ++ "+18446744073709551615".toList ++ ['\n']))

/-- The place of the counter. -/
def examinedPlace : Pool.CounterPlace where
  report := .member [] (escaped "pools") (bodyText_escaped "pools") []
  front := []
  key := escaped "tank"
  entry := .member [(escaped "name", .string (escaped "tank"))] (escaped "scan_stats")
    (bodyText_escaped "scan_stats") [(escaped "state", .string (escaped "ONLINE"))]
  scanFront := []
  counter := .examined
  counterKey := escaped "examined"
  counterKey_eq := bodyText_escaped "examined"
  scanBack := [(escaped "function", .null), (escaped "state", .string (escaped "scanning")),
    (escaped "to_examine", .string (escaped " 7 "))]
  back := []

theorem exists_tankReport {v : Value} {r : Raw} (h : Spells v.encode r) :
    ∃ text : String, text.toUTF8.toList = (tankReport v).encode ∧
      Raw.ofText text = .ok (examinedPlace.fill r) := by
  have hscan : Spells (Pool.scanValue none .scanning v (.string " 7 ")).encode (examinedPlace.scan r) :=
    spells_encode_object (.cons ⟨rfl, h⟩ (.cons ⟨rfl, spells_null⟩ (.cons ⟨rfl, spells_string _⟩
      (.cons ⟨rfl, spells_string _⟩ .nil))))
  have hentry : Spells (tankEntry v).encode (examinedPlace.entry.fill (examinedPlace.scan r)) :=
    spells_encode_object (.cons ⟨rfl, spells_string _⟩ (.cons ⟨rfl, hscan⟩
      (.cons ⟨rfl, spells_string _⟩ .nil)))
  have hreport : Spells (tankReport v).encode (examinedPlace.fill r) :=
    spells_encode_object (.cons ⟨rfl, spells_encode_object (.cons ⟨rfl, hentry⟩ .nil)⟩ .nil)
  exact hreport.exists_text

theorem counts_paddedGreatest : paddedGreatest.Counts greatest := by
  have hdigits : Decimal.unsigned? 64 "+18446744073709551615".toList = some greatest := by
    decide +kernel
  have hfront : ∀ c ∈ ['\t', '\u00a0'], Text.isBlank c = true :=
    List.forall_mem_cons.2 ⟨rfl, List.forall_mem_singleton.2 rfl⟩
  have hback : ∀ c ∈ ['\n'], Text.isBlank c = true := List.forall_mem_singleton.2 rfl
  exact .text hfront hback (Decimal.unsigned?_eq_some_iff.1 hdigits).1 (by decide)

theorem counts_seven : (Value.string " 7 ").Counts 7 := by
  have hdigits : Decimal.unsigned? 64 "7".toList = some 7 := by decide +kernel
  have hblank : ∀ c ∈ [' '], Text.isBlank c = true := List.forall_mem_singleton.2 rfl
  exact @Value.Counts.text [' '] "7".toList [' '] 7 hblank hblank
    (Decimal.unsigned?_eq_some_iff.1 hdigits).1 (by decide)

theorem numbers_read_alike_tank :
    (∃ text : String, text.toUTF8.toList = (tankReport paddedGreatest).encode ∧
      Pool.ofReport text = .ok [tank]) ∧
    (∃ text : String, text.toUTF8.toList = (tankReport (.number (.whole greatest))).encode ∧
      Pool.ofReport text = .ok [tank]) ∧
    (∃ text : String, text.toUTF8.toList = (tankReport (.number (.whole (greatest + 1)))).encode ∧
      ∃ e, Pool.ofReport text = .error e) ∧
    ∃ text : String, text.toUTF8.toList = (Disk.listing [.object [("id-link", .string "ata-a"),
        ("kname", .string "/dev/sda"), ("size", paddedGreatest)]]).encode ∧
      Disk.ofListing text = .ok [⟨"/dev/sda", "ata-a", greatest⟩] := by
  obtain ⟨hinteger, -, -, hcounter, -, hreport, hlisting⟩ := numbers_read_alike
  have hdigits (n : Nat) : (Value.number (.whole n)).encode = sign false ++ digitBytes n := by
    rw [Value.encode]
    rfl
  obtain ⟨text, htext, hread⟩ := hreport (Dict.ofList [("tank", tank)])
    [("tank", tankEntry paddedGreatest)] (.cons ⟨rfl, .scanned counts_paddedGreatest counts_seven⟩ .nil)
  refine ⟨⟨text, htext, hread⟩, ?_, ?_, hlisting _ _ (.cons (.entry counts_paddedGreatest) .nil)⟩
  · -- the text that was read and the digits stand for one number in one place
    obtain ⟨padded, hpadded, hpaddedCounts⟩ := counts_paddedGreatest.exists_raw
    obtain ⟨text', htext', hdocument⟩ := exists_tankReport hpadded
    obtain rfl := Bytes.toList_toUTF8_inj.1 (htext.trans htext'.symm)
    obtain ⟨plain, hplain, hplainCounts⟩ := hinteger false greatest
    obtain ⟨other, hother, hotherDocument⟩ := exists_tankReport ((hdigits greatest).symm ▸ hplain)
    refine ⟨other, hother, ?_⟩
    rcases (hcounter examinedPlace).takes with ⟨e, he⟩ | ⟨put, -, hput⟩
    · cases hread.symm.trans (he _ _ _ hdocument hpaddedCounts)
    · rw [hput _ _ _ hotherDocument ((hplainCounts greatest).2 ⟨rfl, rfl, by decide⟩),
        ← hput _ _ _ hdocument hpaddedCounts, hread]
      rfl
  · obtain ⟨plain, hplain, hplainCounts⟩ := hinteger false (greatest + 1)
    obtain ⟨other, hother, hdocument⟩ := exists_tankReport ((hdigits (greatest + 1)).symm ▸ hplain)
    refine ⟨other, hother, (hcounter examinedPlace).refuses _ _ hdocument fun n hn => ?_⟩
    exact absurd ((hplainCounts n).1 hn).2.2 (by decide)

end Groundwork
