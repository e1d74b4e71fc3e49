import Groundwork.Proofs.Install.Sequence
import Groundwork.Proofs.Partition.Listing

/-! Entries that are read from one table and made again in another one. What the tool lists of an entry
comes through, except for what is lost at the ends of its name, and for listings that seem to say that
there is no entry. -/
namespace Groundwork.PartitionTable

variable {env : Environment} {disk code : String} {index : Nat} {m : Machine} {d : Details}
  {lines : List String} {o : Output}

/-- The command that makes an entry with given details. -/
def identityCommand (target : String) (index : Nat) (d : Details) (code : String) : Command :=
  ⟨"sgdisk", ["-n", s!"{index}::+{(d.entry index).size}", "-u", s!"{index}:{d.guid.text}",
    "-t", s!"{index}:{code}", "-c", s!"{index}:{d.name}", target]⟩

/-- Whether an entry is read as it is, and is then made on any disk with one command that names its
index, size, identifier, type and name. -/
def KeepsIdentity (env : Environment) (disk : String) (index : Nat) (d : Details) (code : String)
    (m : Machine) : Prop :=
  ∃ p, ((info env disk index).perform m).1 = .ok p ∧ p = d.entry index ∧ p.typeCode? = some code ∧
    ∀ target m', ∃ a, a.command = identityCommand target index d code ∧
      Course env Machine.Reports m' [a] ((create env target p).perform m').2 ∧
      ((create env target p).perform m').1 = (a.checked env).map fun _ => ()

/-- What is read from a listing. -/
theorem perform_info_of_lists (hlists : d.Lists lines)
    (hanswer : Attempt.checked env ⟨m, infoCommand disk index⟩ = .ok o)
    (hout : o.stdout = String.intercalate "\n" lines) : (info env disk index).perform m =
      (if o.mentions noPartitionMark then .error (Action.commandFailure (infoCommand disk index) o)
        else .ok { d.entry index with name := String.ofList (dropQuotes d.name.toList) },
      Attempt.after env ⟨m, infoCommand disk index⟩) := by
  rw [perform_info, Attempt.listed, hanswer, Action.ok_bind, hout, hlists.entryOf]

theorem keepsIdentity_iff_read (hknown : typeCode? d.typeName = some code) :
    KeepsIdentity env disk index d code m ↔
      ((info env disk index).perform m).1 = .ok (d.entry index) := by
  constructor
  · rintro ⟨p, hread, rfl, -⟩
    exact hread
  · intro hread
    refine ⟨_, hread, rfl, hknown, ?_⟩
    intro target m'
    have hcode : (d.entry index).typeCode? = some code := hknown
    refine ⟨creation target (d.entry index) code m', rfl, ?_⟩
    rw [perform_create, hcode]
    exact ⟨.quiet (.logged _ _) (.ask _ (.refl _)), rfl⟩

theorem keepsIdentity_iff (hlists : d.Lists lines) (hknown : typeCode? d.typeName = some code)
    (hanswer : Attempt.checked env ⟨m, infoCommand disk index⟩ = .ok o)
    (hout : o.stdout = String.intercalate "\n" lines) :
    KeepsIdentity env disk index d code m ↔ o.mentions noPartitionMark = false ∧
      d.name.toList.head? ≠ some '\'' ∧ d.name.toList.getLast? ≠ some '\'' := by
  rw [keepsIdentity_iff_read hknown, perform_info_of_lists hlists hanswer hout,
    ← dropQuotes_eq_self_iff]
  cases hmark : o.mentions noPartitionMark with
  | true => simp
  | false =>
    rw [if_neg (by simp), eq_self, true_and, Except.ok.injEq]
    constructor
    · intro hsame
      have hname := congrArg (·.name.toList) hsame
      simpa [Details.entry] using hname
    · intro hname
      rw [hname, String.ofList_toList]
      rfl

/-- An entry of a known type keeps its identity, whatever it is named and whatever else stands in the
listing, if and only if its name neither begins nor ends with a quote and nothing in the answer reads
like the message for an entry that is not there. -/
theorem identity_kept_iff (hlists : d.Lists lines) (hknown : typeCode? d.typeName = some code)
    (hanswer : Attempt.checked env ⟨m, ⟨"sgdisk", ["-i", toString index, disk]⟩⟩ = .ok o)
    (hout : o.stdout = String.intercalate "\n" lines) :
    (KeepsIdentity env disk index d code m ↔ o.mentions "does not exist" = false ∧
      d.name.toList.head? ≠ some '\'' ∧ d.name.toList.getLast? ≠ some '\'') ∧
    (info env disk index).perform m =
      (if o.mentions "does not exist" then .error (Action.commandFailure (infoCommand disk index) o)
        else .ok { d.entry index with name := String.ofList (dropQuotes d.name.toList) },
      Attempt.after env ⟨m, ⟨"sgdisk", ["-i", toString index, disk]⟩⟩) :=
  ⟨keepsIdentity_iff hlists hknown hanswer hout, perform_info_of_lists hlists hanswer hout⟩

/-! ### A table with one entry -/

def namedDetails (name : String) : Details where
  code := ⟨List.replicate 32 ⟨12, by decide⟩, rfl⟩
  typeName := "EFI system partition"
  guid := ⟨List.replicate 32 ⟨3, by decide⟩, rfl⟩
  sectors := 204800
  size := "100.0 MiB"
  name

def namedOutput (name : String) : Output :=
  ⟨some 0, String.intercalate "\n" (namedDetails name).listing, ""⟩

/-- A machine whose tool lists one entry under a given name. -/
def namedEnvironment (name : String) : Environment :=
  Script.environment {
    registry := fun _ => .sample
    answers := [(⟨"sgdisk", ["-i"]⟩, namedOutput name)] } "/usr/bin/strata"

theorem lists_namedDetails (name : String) (hname : '\n' ∉ name.toList) :
    (namedDetails name).Lists (namedDetails name).listing :=
  Details.lists_listing (by simp [namedDetails]) (by simp [namedDetails]) hname

def emptyMachine : Machine := ⟨⟨[], []⟩, [], []⟩

theorem checked_namedEnvironment (name : String) : Attempt.checked (namedEnvironment name)
    ⟨emptyMachine, infoCommand "/dev/sda" 1⟩ = .ok (namedOutput name) := rfl

theorem mentions_namedOutput (name text : String) : (namedOutput name).mentions text =
    (Text.occursIn text.toList ("\n".toList.intercalate ((namedDetails name).listing.map String.toList)) ||
      Text.contains "" text) := by
  rw [Output.mentions, namedOutput, Text.contains, String.toList_intercalate]

theorem identity_kept_namedDetails : (namedDetails "it's (a) name: b").Lists
      (namedDetails "it's (a) name: b").listing ∧
    KeepsIdentity (namedEnvironment "it's (a) name: b") "/dev/sda" 1 (namedDetails "it's (a) name: b")
      "EF00" emptyMachine := by
  have hlists := lists_namedDetails "it's (a) name: b" (by decide)
  have hmark : (namedOutput "it's (a) name: b").mentions noPartitionMark = false := by
    rw [mentions_namedOutput]
    decide +kernel
  refine ⟨hlists, (identity_kept_iff hlists rfl (checked_namedEnvironment _) rfl).1.2 ⟨hmark, ?_⟩⟩
  exact ⟨by decide, by decide⟩

/-- A quote at the end of a name gets lost on the way to the other disk, and a name can make it seem
that there is no entry. -/
theorem named_entries_lost :
    ((namedDetails "esp'").Lists (namedDetails "esp'").listing ∧
      Attempt.checked (namedEnvironment "esp'") ⟨emptyMachine, infoCommand "/dev/sda" 1⟩ =
        .ok (namedOutput "esp'") ∧
      ¬ KeepsIdentity (namedEnvironment "esp'") "/dev/sda" 1 (namedDetails "esp'") "EF00"
        emptyMachine) ∧
    (namedDetails "does not exist").Lists (namedDetails "does not exist").listing ∧
      Attempt.checked (namedEnvironment "does not exist") ⟨emptyMachine, infoCommand "/dev/sda" 1⟩ =
        .ok (namedOutput "does not exist") ∧
      ¬ KeepsIdentity (namedEnvironment "does not exist") "/dev/sda" 1
        (namedDetails "does not exist") "EF00" emptyMachine := by
  have hquoted := lists_namedDetails "esp'" (by decide)
  have hhidden := lists_namedDetails "does not exist" (by decide)
  refine ⟨⟨hquoted, checked_namedEnvironment _, ?_⟩, hhidden, checked_namedEnvironment _, ?_⟩
  · intro hkept
    obtain ⟨-, -, hlast⟩ := (keepsIdentity_iff hquoted rfl (checked_namedEnvironment _) rfl).1 hkept
    exact hlast (by decide)
  · intro hkept
    obtain ⟨hmark, -⟩ := (keepsIdentity_iff hhidden rfl (checked_namedEnvironment _) rfl).1 hkept
    rw [mentions_namedOutput] at hmark
    exact absurd hmark (by decide +kernel)

end Groundwork.PartitionTable
