import Groundwork.Proofs.Registry.Layers
import Mathlib.Logic.Relation

/-! Mapped devices on top of each other. From the entry of a path at most one other mapped device is
entered, so that at most two slave links are followed, whatever the slaves of all entries are. -/
namespace Groundwork.Registry

open Relation (ReflTransGen TransGen)

variable {r r' : Registry} {anchor root entry upper lower slave link disk : String}
  {cause : SystemError} {layers : Nat}

/-! ### One layer -/

/-- Whether a name is that of a mapped device. -/
def IsMapped (name : String) : Prop := "dm-".toList <+: name.toList

instance (name : String) : Decidable (IsMapped name) :=
  inferInstanceAs (Decidable ("dm-".toList <+: name.toList))

/-- Whether an entry that is no partition has slaves, and where the link to the first one leads. -/
structure FirstSlave (r : Registry) (entry link : String) : Prop where
  not_partition : r.has (entry ++ "/partition") = false
  first : ∃ first rest, r.list (entry ++ "/slaves") = .ok (first :: rest) ∧
    r.link (entry ++ "/slaves/" ++ first) = .ok link

/-- Whether an entry stands on another one, by the link to its first slave. -/
structure StandsOn (r : Registry) (upper lower link : String) : Prop extends
    FirstSlave r upper link where
  name : Path.fileName? link = some lower

/-- Whether an entry stands on a mapped device. -/
def Enters (r : Registry) (upper lower : String) : Prop :=
  ∃ link, r.StandsOn upper lower link ∧ IsMapped lower

/-- The disk of a slave: the directory above it by its link, or the slave itself if that directory is
`block` or has no name. -/
inductive LiesOn (slave link : String) : String → Prop
  | above {parent : String} (h : Path.parentName? link = some parent) (hdisk : parent ≠ "block") :
      LiesOn slave link parent
  | whole (h : ∀ parent, Path.parentName? link = some parent → parent = "block") :
      LiesOn slave link slave

/-- An entry about which the registry has no answer: there is no link to a partition, no directory of
slaves, or no link to the first of them. -/
inductive Breaks (r : Registry) (entry : String) (cause : SystemError) : Prop
  | partition (hpart : r.has (entry ++ "/partition") = true) (h : r.link entry = .error cause)
  | slaves (hpart : r.has (entry ++ "/partition") = false)
      (h : r.list (entry ++ "/slaves") = .error cause)
  | slave {first : String} {rest : List String} (hpart : r.has (entry ++ "/partition") = false)
      (hslaves : r.list (entry ++ "/slaves") = .ok (first :: rest))
      (h : r.link (entry ++ "/slaves/" ++ first) = .error cause)

theorem LiesOn.parentDisk_eq (h : LiesOn slave link disk) : parentDisk slave link = disk := by
  unfold parentDisk
  cases h with
  | above hparent hdisk => simp [hparent, hdisk]
  | whole hblock =>
    cases hparent : Path.parentName? link with
    | none => rfl
    | some parent => simp [hblock parent hparent]

theorem baseOf_of_standsOn (h : StandsOn r entry slave link) : r.baseOf entry =
    if Text.startsWith slave "dm-" then .ok (.mapped slave)
    else .ok (.disk (parentDisk slave link)) := by
  obtain ⟨first, rest, hslaves, hlink⟩ := h.first
  rw [baseOf, if_neg (by simp [h.not_partition]), hslaves]
  simp only [ask, Action.ok_mapError, bind, Except.bind, hlink, h.name]

theorem baseOf_of_unnamed (h : FirstSlave r entry link) (hname : Path.fileName? link = none) :
    r.baseOf entry = .error (.deviceNotFound s!"unreadable slave link {link}") := by
  obtain ⟨first, rest, hslaves, hlink⟩ := h.first
  rw [baseOf, if_neg (by simp [h.not_partition]), hslaves]
  simp only [ask, Action.ok_mapError, bind, Except.bind, hlink, hname]

theorem baseOf_of_enters (h : Enters r upper lower) : r.baseOf upper = .ok (.mapped lower) := by
  obtain ⟨link, hstands, hmapped⟩ := h
  rw [baseOf_of_standsOn hstands]
  exact if_pos ((Text.startsWith_iff _ _).2 hmapped)

theorem baseOf_of_liesOn (h : StandsOn r entry slave link) (hplain : ¬ IsMapped slave)
    (hdisk : LiesOn slave link disk) : r.baseOf entry = .ok (.disk disk) := by
  rw [baseOf_of_standsOn h, ← hdisk.parentDisk_eq]
  exact if_neg fun hmapped => hplain ((Text.startsWith_iff _ _).1 hmapped)

theorem baseOf_of_breaks (h : Breaks r entry cause) : r.baseOf entry = .error (.system cause) := by
  cases h with
  | partition hpart h =>
    rw [baseOf, if_pos hpart, h]
    rfl
  | slaves hpart h =>
    rw [baseOf, if_neg (by simp [hpart]), h]
    rfl
  | slave hpart hslaves h =>
    rw [baseOf, if_neg (by simp [hpart]), hslaves]
    simp only [ask, Action.ok_mapError, bind, Except.bind, h]
    rfl

theorem diskOf_of_mapped (h : r.baseOf upper = .ok (.mapped lower)) :
    r.diskOf (layers + 1) upper = r.diskOf layers lower := by
  rw [diskOf, h]
  rfl

theorem enters_of_baseOf (h : r.baseOf upper = .ok (.mapped lower)) : Enters r upper lower := by
  cases hpart : r.has (upper ++ "/partition") with
  | true =>
    cases hlink : r.link upper with
    | error e =>
      rw [baseOf_of_breaks (.partition hpart hlink)] at h
      cases h
    | ok link =>
      rw [baseOf_partition hpart hlink] at h
      cases h
  | false =>
    cases hslaves : r.list (upper ++ "/slaves") with
    | error e =>
      rw [baseOf_of_breaks (.slaves hpart hslaves)] at h
      cases h
    | ok names =>
      cases names with
      | nil =>
        rw [baseOf_whole hpart hslaves] at h
        cases h
      | cons first rest =>
        cases hlink : r.link (upper ++ "/slaves/" ++ first) with
        | error e =>
          rw [baseOf_of_breaks (.slave hpart hslaves hlink)] at h
          cases h
        | ok link =>
          have hfirst : FirstSlave r upper link := ⟨hpart, first, rest, hslaves, hlink⟩
          cases hname : Path.fileName? link with
          | none =>
            rw [baseOf_of_unnamed hfirst hname] at h
            cases h
          | some slave =>
            rw [baseOf_of_standsOn ⟨hfirst, hname⟩] at h
            by_cases hmapped : Text.startsWith slave "dm-" = true
            · rw [if_pos hmapped] at h
              cases h
              exact ⟨link, ⟨hfirst, hname⟩, (Text.startsWith_iff _ _).1 hmapped⟩
            · rw [if_neg hmapped] at h
              cases h

/-! ### What is looked at

The answers about few entries decide, and about each of them only the first slave counts. -/

/-- Whether another registry answers alike about one entry and the link to its first slave. -/
structure AgreesOn (r r' : Registry) (entry : String) : Prop where
  partition : r'.has (entry ++ "/partition") = r.has (entry ++ "/partition")
  own : r'.link entry = r.link entry
  slaves : r'.list (entry ++ "/slaves") = r.list (entry ++ "/slaves")
  first : ∀ first rest, r.list (entry ++ "/slaves") = .ok (first :: rest) →
    r'.link (entry ++ "/slaves/" ++ first) = r.link (entry ++ "/slaves/" ++ first)

/-- Whether another registry finds the same entry for a path. -/
structure AgreesAbove (r r' : Registry) (anchor : String) : Prop where
  deviceNumber : r'.deviceNumber anchor = r.deviceNumber anchor
  entries : r'.entries = r.entries
  numbers : ∀ entry, r'.read (entry ++ "/dev") = r.read (entry ++ "/dev")

theorem AgreesOn.baseOf_eq (h : AgreesOn r r' entry) : r'.baseOf entry = r.baseOf entry := by
  unfold baseOf
  rw [h.partition, h.own, h.slaves]
  cases hslaves : r.list (entry ++ "/slaves") with
  | error e => rfl
  | ok names =>
    cases names with
    | nil => rfl
    | cons first rest =>
      simp only [ask, Action.ok_mapError, bind, Except.bind, h.first first rest hslaves]

theorem AgreesAbove.findEntry_eq (h : AgreesAbove r r' anchor) (n : DeviceNumber) :
    r'.findEntry n = r.findEntry n := by
  have hnumbers : r'.entryHas n = r.entryHas n := by
    funext entry
    rw [entryHas, h.numbers, entryHas]
  rw [findEntry, h.entries, hnumbers, findEntry]

/-- Induction on the number of mapped devices that may still follow. Each of them is one step of the
chain. -/
theorem diskOf_local (r : Registry) (layers : Nat) (entry : String) :
    ∃ below, below.length ≤ layers ∧ (entry :: below).IsChain (Enters r) ∧
      ∀ r', (∀ e ∈ entry :: below, AgreesOn r r' e) →
        r'.diskOf layers entry = r.diskOf layers entry := by
  induction layers generalizing entry with
  | zero =>
    refine ⟨[], le_rfl, .singleton _, fun r' hagrees => ?_⟩
    rw [diskOf, (hagrees entry List.mem_cons_self).baseOf_eq, diskOf]
  | succ layers ih =>
    cases hbase : r.baseOf entry with
    | error e =>
      refine ⟨[], Nat.zero_le _, .singleton _, fun r' hagrees => ?_⟩
      rw [diskOf, (hagrees entry List.mem_cons_self).baseOf_eq, diskOf, hbase]
      rfl
    | ok base =>
      cases base with
      | disk name =>
        refine ⟨[], Nat.zero_le _, .singleton _, fun r' hagrees => ?_⟩
        have hbase' := (hagrees entry List.mem_cons_self).baseOf_eq.trans hbase
        rw [diskOf_of_base hbase', diskOf_of_base hbase]
      | mapped lower =>
        obtain ⟨below, hlen, hchain, hlocal⟩ := ih lower
        refine ⟨lower :: below, Nat.succ_le_succ hlen,
          .cons_cons (enters_of_baseOf hbase) hchain, fun r' hagrees => ?_⟩
        have hbase' := (hagrees entry List.mem_cons_self).baseOf_eq.trans hbase
        rw [diskOf_of_mapped hbase', diskOf_of_mapped hbase]
        exact hlocal r' fun e he => hagrees e (List.mem_cons_of_mem _ he)

/-- At most two entries are looked at, the one of the path and the mapped device below it. -/
theorem underlyingDevice_local (r : Registry) (anchor root : String) :
    ∃ visited : List String, visited.length ≤ mappedLayers + 1 ∧ visited.IsChain (Enters r) ∧
      (∀ entry ∈ visited.head?, r.IsOn anchor entry) ∧
      ∀ r', AgreesAbove r r' anchor → (∀ e ∈ visited, AgreesOn r r' e) →
        r'.underlyingDevice anchor root = r.underlyingDevice anchor root := by
  cases hnumber : r.deviceNumber anchor with
  | error e =>
    refine ⟨[], Nat.zero_le _, .nil, by simp, fun r' habove _ => ?_⟩
    rw [underlyingDevice, habove.deviceNumber, underlyingDevice, hnumber]
    rfl
  | ok n =>
    cases hentry : r.findEntry n with
    | error e =>
      refine ⟨[], Nat.zero_le _, .nil, by simp, fun r' habove _ => ?_⟩
      have hentry' := (habove.findEntry_eq n).trans hentry
      simp only [underlyingDevice, habove.deviceNumber, hnumber, ask, Action.ok_mapError, bind,
        Except.bind, hentry', hentry]
    | ok entry =>
      obtain ⟨below, hlen, hchain, hlocal⟩ := r.diskOf_local mappedLayers entry
      refine ⟨entry :: below, Nat.succ_le_succ hlen, hchain, ?_, fun r' habove hagrees => ?_⟩
      · simpa using ⟨n, hnumber, hentry⟩
      · have hentry' := (habove.findEntry_eq n).trans hentry
        simp only [underlyingDevice, habove.deviceNumber, hnumber, ask, Action.ok_mapError, bind,
          Except.bind, hentry', hentry, hlocal r' hagrees]

/-! ### Chains -/

/-- The entries that are looked at: that of the path and the mapped device that it stands on. -/
def Visited (r : Registry) (entry e : String) : Prop := e = entry ∨ Enters r entry e

theorem underlyingDevice_of_isOn (hon : r.IsOn anchor entry) :
    r.underlyingDevice anchor root = (r.diskOf mappedLayers entry).map (Path.join root) := by
  obtain ⟨n, hnumber, hentry⟩ := hon
  simp only [underlyingDevice, hnumber, ask, Action.ok_mapError, bind, Except.bind, hentry]
  cases r.diskOf mappedLayers entry <;> rfl

theorem diskOf_zero_of_enters (h : Enters r upper lower) : r.diskOf 0 upper =
    .error (.deviceNotFound s!"mapped device chain below {upper} is too deep") := by
  rw [diskOf, baseOf_of_enters h]
  rfl

/-- An entry that stands on no mapped device ends the way, with a disk or with a failure. -/
theorem diskOf_of_ends {answer : Except Failure String} (h : r.baseOf entry = answer.map .disk) :
    r.diskOf layers entry = answer := by
  cases answer with
  | error e => cases layers <;> rw [diskOf, h] <;> rfl
  | ok name => exact diskOf_of_base h

theorem diskOf_of_visited {e : String} {answer : Except Failure String} (hvisited : Visited r entry e)
    (h : r.baseOf e = answer.map .disk) : r.diskOf mappedLayers entry = answer := by
  rcases hvisited with rfl | henters
  · exact diskOf_of_ends h
  · rw [mappedLayers, diskOf_of_mapped (baseOf_of_enters henters)]
    exact diskOf_of_ends h

/-- An entry with a ring of mapped devices below it stands on one, and that one on another. -/
theorem enters_twice_of_ring {e : String} (hto : ReflTransGen (Enters r) entry e)
    (hring : TransGen (Enters r) e e) : ∃ middle lower, Enters r entry middle ∧
      Enters r middle lower := by
  have hnext {a : String} (hto : ReflTransGen (Enters r) a e) : ∃ b, Enters r a b ∧
      ReflTransGen (Enters r) b e := by
    rcases hto.cases_head with rfl | hstep
    · obtain ⟨b, hb, hback⟩ := TransGen.head'_iff.1 hring
      exact ⟨b, hb, hback⟩
    · exact hstep
  obtain ⟨middle, hmiddle, hmore⟩ := hnext hto
  obtain ⟨lower, hlower, -⟩ := hnext hmore
  exact ⟨middle, lower, hmiddle, hlower⟩

/-! ### The first slave by name -/

/-- Whether a registry lists every directory in ascending order. -/
def Ascending (r : Registry) : Prop :=
  ∀ path names, r.list path = .ok names → names.Pairwise (· ≤ ·)

theorem ascending_registry (t : FileTree) (root : String)
    (deviceNumber : String → Except SystemError DeviceNumber) :
    (t.registry root deviceNumber).Ascending := by
  intro path names hnames
  obtain ⟨dir, -, rfl⟩ := FileTree.list_eq_ok.1 hnames
  exact Text.ascending_mergeSort _

theorem ascending_distinctNames (names : List String) :
    (distinctNames names).Pairwise (· ≤ ·) := by
  refine (Text.ascending_mergeSort names).sublist ?_
  unfold distinctNames
  induction names.mergeSort (· ≤ ·) with
  | nil => exact .slnil
  | cons name names ih =>
    rw [List.foldr_cons]
    split
    · exact ih.cons name
    · exact ih.cons_cons name

theorem ascending_table (t : RegistryTable) : t.registry.Ascending := by
  intro path names hnames
  simp only [RegistryTable.registry] at hnames
  split at hnames
  · cases hnames
  · cases hnames
    exact ascending_distinctNames _

theorem FirstSlave.least (h : FirstSlave r entry link) (hascending : r.Ascending) :
    ∃ names first, r.list (entry ++ "/slaves") = .ok names ∧ first ∈ names ∧
      (∀ name ∈ names, first ≤ name) ∧ r.link (entry ++ "/slaves/" ++ first) = .ok link := by
  obtain ⟨first, rest, hslaves, hlink⟩ := h.first
  refine ⟨_, first, hslaves, List.mem_cons_self, ?_, hlink⟩
  have hrest := (List.pairwise_cons.1 (hascending _ _ hslaves)).1
  exact List.forall_mem_cons.2 ⟨String.le_refl first, hrest⟩

/-- However the entries stand on each other, at most two slave links are followed. A device at which
they end gives its disk, a third mapped device and every ring of them is refused, and what the registry
cannot answer on the way is reported. -/
theorem underlyingDevice_bounded (r : Registry) (anchor root : String) :
    (∃ visited : List String, visited.length ≤ 2 ∧ visited.IsChain (Enters r) ∧
      (∀ entry ∈ visited.head?, r.IsOn anchor entry) ∧
      ∀ r', AgreesAbove r r' anchor → (∀ e ∈ visited, AgreesOn r r' e) →
        r'.underlyingDevice anchor root = r.underlyingDevice anchor root) ∧
    (∀ entry, r.IsOn anchor entry →
      (∀ e slave link disk, Visited r entry e → StandsOn r e slave link → ¬ IsMapped slave →
        LiesOn slave link disk →
        r.underlyingDevice anchor root = .ok (Path.join root disk)) ∧
      (∀ middle lower, Enters r entry middle → Enters r middle lower →
        r.underlyingDevice anchor root =
          .error (.deviceNotFound s!"mapped device chain below {middle} is too deep")) ∧
      (∀ e, ReflTransGen (Enters r) entry e → TransGen (Enters r) e e →
        ∃ why, r.underlyingDevice anchor root = .error (.deviceNotFound why)) ∧
      (∀ e cause, Visited r entry e → Breaks r e cause →
        r.underlyingDevice anchor root = .error (.system cause))) ∧
    (r.Ascending → ∀ e link, FirstSlave r e link → ∃ names first,
      r.list (e ++ "/slaves") = .ok names ∧ first ∈ names ∧ (∀ name ∈ names, first ≤ name) ∧
      r.link (e ++ "/slaves/" ++ first) = .ok link) := by
  refine ⟨r.underlyingDevice_local anchor root, fun entry hon => ?_,
    fun hascending e link h => h.least hascending⟩
  have htoo_deep {middle lower : String} (hmiddle : Enters r entry middle)
      (hlower : Enters r middle lower) : r.underlyingDevice anchor root =
        .error (.deviceNotFound s!"mapped device chain below {middle} is too deep") := by
    rw [underlyingDevice_of_isOn hon, mappedLayers, diskOf_of_mapped (baseOf_of_enters hmiddle),
      diskOf_zero_of_enters hlower]
    rfl
  refine ⟨?_, fun middle lower => htoo_deep, ?_, ?_⟩
  · intro e slave link disk hvisited hstands hplain hdisk
    have hends : r.diskOf mappedLayers entry = .ok disk :=
      diskOf_of_visited hvisited (baseOf_of_liesOn hstands hplain hdisk)
    rw [underlyingDevice_of_isOn hon, hends]
    rfl
  · intro e hto hring
    obtain ⟨middle, lower, hmiddle, hlower⟩ := enters_twice_of_ring hto hring
    exact ⟨_, htoo_deep hmiddle hlower⟩
  · intro e cause hvisited hbreaks
    have hends : r.diskOf mappedLayers entry = .error (.system cause) :=
      diskOf_of_visited hvisited (baseOf_of_breaks hbreaks)
    rw [underlyingDevice_of_isOn hon, hends]
    rfl

/-! ### A stack, a ring and a gap -/

/-- Verity on a mapped image, two devices on each other, and one whose slaves cannot be listed. -/
def stackTable : RegistryTable where
  anchors := [("/image", ⟨253, 1⟩), ("/verity", ⟨253, 2⟩), ("/ring", ⟨253, 3⟩), ("/gap", ⟨253, 5⟩)]
  entries := ["dm-1", "dm-2", "dm-3", "dm-4", "dm-5"]
  attributes := [("dm-1/dev", "253:1"), ("dm-2/dev", "253:2"), ("dm-3/dev", "253:3"),
    ("dm-4/dev", "253:4"), ("dm-5/dev", "253:5")]
  members := [("dm-1/slaves", "sda"), ("dm-1/slaves", "loop0"), ("dm-2/slaves", "dm-1"),
    ("dm-3/slaves", "dm-4"), ("dm-4/slaves", "dm-3")]
  links := [("dm-1/slaves/loop0", "../../../devices/virtual/block/loop0"),
    ("dm-2/slaves/dm-1", "../../dm-1"), ("dm-3/slaves/dm-4", "../../dm-4"),
    ("dm-4/slaves/dm-3", "../../dm-3")]

def stack : Registry := stackTable.registry

theorem isOn_stack (n : DeviceNumber) (hnumber : (stack.deviceNumber anchor).toOption = some n)
    (hentry : ["dm-1", "dm-2", "dm-3", "dm-4", "dm-5"].find? (stack.entryHas n) = some entry) :
    stack.IsOn anchor entry := by
  have hentries : stack.entries = .ok ["dm-1", "dm-2", "dm-3", "dm-4", "dm-5"] :=
    congrArg Except.ok <| by
      simp [distinctNames, stackTable, List.mergeSort, List.MergeSort.Internal.splitInTwo]
  refine ⟨n, Action.eq_ok_of_toOption hnumber, ?_⟩
  rw [findEntry, hentries]
  simp only [ask, Action.ok_mapError, bind, Except.bind, hentry]

theorem enters_stack (h : stack.has (upper ++ "/partition") = false ∧
    (stack.list (upper ++ "/slaves")).toOption = some [lower] ∧
    (stack.link (upper ++ "/slaves/" ++ lower)).toOption = some ("../../" ++ lower) ∧
    Path.fileName? ("../../" ++ lower) = some lower ∧ IsMapped lower) : stack.Enters upper lower := by
  obtain ⟨hpart, hslaves, hlink, hname, hmapped⟩ := h
  have hfirst : FirstSlave stack upper ("../../" ++ lower) :=
    ⟨hpart, lower, [], Action.eq_ok_of_toOption hslaves, Action.eq_ok_of_toOption hlink⟩
  exact ⟨_, ⟨hfirst, hname⟩, hmapped⟩

theorem standsOn_stack :
    stack.StandsOn "dm-1" "loop0" "../../../devices/virtual/block/loop0" := by
  have hslaves : distinctNames ["sda", "loop0"] = ["loop0", "sda"] := by
    simp [distinctNames, List.mergeSort, List.MergeSort.Internal.splitInTwo]
  refine ⟨⟨by decide +kernel, "loop0", ["sda"], congrArg Except.ok hslaves, ?_⟩, by decide +kernel⟩
  exact Action.eq_ok_of_toOption (by decide +kernel)

theorem underlyingDevice_bounded_stack :
    stack.underlyingDevice "/image" "/dev" = .ok "/dev/loop0" ∧
    stack.underlyingDevice "/verity" "/dev" = .ok "/dev/loop0" ∧
    (∃ why, stack.underlyingDevice "/ring" "/dev" = .error (.deviceNotFound why)) ∧
    stack.underlyingDevice "/gap" "/dev" = .error (.system (.noAttribute "dm-5/slaves")) ∧
    ∃ names first, stack.list ("dm-1" ++ "/slaves") = .ok names ∧ first ∈ names ∧
      (∀ name ∈ names, first ≤ name) ∧
      stack.link ("dm-1" ++ "/slaves/" ++ first) = .ok "../../../devices/virtual/block/loop0" := by
  have hloop (anchor entry : String) (hon : stack.IsOn anchor entry)
      (hvisited : stack.Visited entry "dm-1") :
      stack.underlyingDevice anchor "/dev" = .ok "/dev/loop0" := by
    have hjoin : Path.join "/dev" "loop0" = "/dev/loop0" := by decide +kernel
    have hblock (parent : String)
        (h : Path.parentName? "../../../devices/virtual/block/loop0" = some parent) :
        parent = "block" := by
      have hparent : Path.parentName? "../../../devices/virtual/block/loop0" = some "block" := by
        decide +kernel
      rw [hparent] at h
      exact (Option.some.inj h).symm
    rw [← hjoin]
    exact ((underlyingDevice_bounded stack anchor "/dev").2.1 entry hon).1 "dm-1" "loop0" _ "loop0"
      hvisited standsOn_stack (by decide +kernel) (.whole hblock)
  have hverity : stack.Enters "dm-2" "dm-1" := enters_stack (by decide +kernel)
  have hdown : stack.Enters "dm-3" "dm-4" := enters_stack (by decide +kernel)
  have hup : stack.Enters "dm-4" "dm-3" := enters_stack (by decide +kernel)
  have hgap : stack.Breaks "dm-5" (.noAttribute "dm-5/slaves") :=
    .slaves (by decide +kernel) rfl
  have hring : stack.IsOn "/ring" "dm-3" := isOn_stack ⟨253, 3⟩ (by decide +kernel) (by decide +kernel)
  have hbroken : stack.IsOn "/gap" "dm-5" := isOn_stack ⟨253, 5⟩ (by decide +kernel) (by decide +kernel)
  have himage : stack.IsOn "/image" "dm-1" := isOn_stack ⟨253, 1⟩ (by decide +kernel) (by decide +kernel)
  have hupper : stack.IsOn "/verity" "dm-2" := isOn_stack ⟨253, 2⟩ (by decide +kernel) (by decide +kernel)
  exact ⟨hloop "/image" "dm-1" himage (.inl rfl), hloop "/verity" "dm-2" hupper (.inr hverity),
    ((underlyingDevice_bounded stack "/ring" "/dev").2.1 "dm-3" hring).2.2.1 "dm-3" .refl
      (.head hdown (.single hup)),
    ((underlyingDevice_bounded stack "/gap" "/dev").2.1 "dm-5" hbroken).2.2.2 "dm-5" _ (.inl rfl) hgap,
    (underlyingDevice_bounded stack "/image" "/dev").2.2 (ascending_table _) "dm-1" _
      standsOn_stack.toFirstSlave⟩

end Groundwork.Registry
