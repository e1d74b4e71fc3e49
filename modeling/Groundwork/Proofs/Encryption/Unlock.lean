import Groundwork.Proofs.Encryption.Keyring

/-! Unlocking all drives at boot. Each drive with a key is visited once, in the order of the IDs, and what
becomes of it depends on the drive alone: the visit to another one neither stops it nor changes it. -/
namespace Groundwork.Encryption

variable {env : Environment} {paths : Paths} {m m₁ m' : Machine} {t t₀ : FileTree} {id : String}
  {ids unlocked : List String} {as front : List Attempt} {found : Bool}

/-- Where a drive is found by its ID. -/
def drivePath (paths : Paths) (id : String) : String := Path.join paths.byId id

/-! ### One drive -/

/-- How the visit to a drive goes: whether the drive is unlocked, the attempts to open it, and the machine
behind the visit. -/
inductive Visit (env : Environment) (paths : Paths) (id : String) (m : Machine) :
    Bool → List Attempt → Machine → Prop
  | absent (habsent : m.files.has (drivePath paths id) = false) :
      Visit env paths id m false []
        (m.record (.logged .warning s!"Couldn't find encrypted drive {drivePath paths id}"))
  | mapped (hpresent : m.files.has (drivePath paths id) = true)
      (hmapped : m.files.has (paths.mappedDevice id) = true) : Visit env paths id m true [] m
  | opened (hpresent : m.files.has (drivePath paths id) = true)
      (hunmapped : m.files.has (paths.mappedDevice id) = false)
      (hopen : (opening paths (drivePath paths id) id m).succeeds env = true) :
      Visit env paths id m true [opening paths (drivePath paths id) id m]
        ((opening paths (drivePath paths id) id m).after env)
  | refused {e : Failure} (hpresent : m.files.has (drivePath paths id) = true)
      (hunmapped : m.files.has (paths.mappedDevice id) = false)
      (hopen : (opening paths (drivePath paths id) id m).checked env = .error e) :
      Visit env paths id m false [opening paths (drivePath paths id) id m]
        (((opening paths (drivePath paths id) id m).after env).record (.logged .warning
          s!"Couldn't unlock encrypted drive {drivePath paths id}: {e.message}"))

/-- No drive stops the unlocking. -/
theorem visit_decryptDrive (env : Environment) (paths : Paths) (id : String) (m : Machine) :
    ∃ found front m', (decryptDrive env paths id).perform m = (.ok found, m') ∧
      Visit env paths id m found front m' := by
  unfold decryptDrive
  rw [Action.perform_bind_of_ok _ (Action.perform_get m)]
  cases hpresent : m.files.has (drivePath paths id) with
  | false =>
    rw [drivePath] at hpresent
    rw [hpresent]
    exact ⟨false, [], _, rfl, .absent hpresent⟩
  | true =>
    rw [if_neg (by rw [← drivePath, hpresent]; decide),
      Action.perform_bind_of_ok _ (Action.perform_attempt _ m), perform_unlock]
    cases hmapped : m.files.has (paths.mappedDevice id) with
    | true => exact ⟨true, [], m, rfl, .mapped hpresent hmapped⟩
    | false =>
      rw [if_neg (by decide)]
      cases hopen : (opening paths (drivePath paths id) id m).checked env with
      | ok o =>
        rw [drivePath] at hopen
        rw [hopen]
        exact ⟨true, _, _, rfl, .opened hpresent hmapped (Attempt.succeeds_of_checked hopen)⟩
      | error e =>
        have hrefused := Visit.refused hpresent hmapped hopen
        rw [drivePath] at hopen
        rw [hopen]
        exact ⟨false, _, _, rfl, hrefused⟩

/-- Whether a drive is there and not mapped yet. -/
def isLocked (paths : Paths) (t : FileTree) (id : String) : Bool :=
  t.has (drivePath paths id) && !t.has (paths.mappedDevice id)

/-- Whether a change makes no drive of a list but one appear, go away or be mapped, and leaves all key
files alone. -/
structure SparesOthers (paths : Paths) (ids : List String) (id : String) (t t' : FileTree) : Prop where
  present : ∀ other ∈ ids, other ≠ id →
    t'.has (drivePath paths other) = t.has (drivePath paths other)
  mapped : ∀ other ∈ ids, other ≠ id →
    t'.has (paths.mappedDevice other) = t.has (paths.mappedDevice other)
  keys : KeepsKeys paths t t'

theorem SparesOthers.refl (paths : Paths) (ids : List String) (id : String) (t : FileTree) :
    SparesOthers paths ids id t t := ⟨fun _ _ _ => rfl, fun _ _ _ => rfl, .refl paths t⟩

/-- Whether an attempt to open a drive is about this drive alone. -/
def OpensAlone (env : Environment) (paths : Paths) (ids : List String) (a : Attempt) : Prop :=
  ∀ id, a.command = ⟨"cryptsetup",
      ["open", "--type=luks", "-d", paths.keyFile id, drivePath paths id, "luks-" ++ id]⟩ →
    SparesOthers paths ids id a.machine.files (a.after env).files

theorem OpensAlone.tail {a : Attempt} (h : OpensAlone env paths (id :: ids) a) :
    OpensAlone env paths ids a := by
  intro opened hopened
  obtain ⟨hpresent, hmapped, hkeys⟩ := h opened hopened
  exact ⟨fun other hother => hpresent other (.tail _ hother),
    fun other hother => hmapped other (.tail _ hother), hkeys⟩

namespace Visit

theorem course (h : Visit env paths id m found front m') :
    Course env Machine.Reports m front m' := by
  have hask : Course env Machine.Reports m [opening paths (drivePath paths id) id m]
      ((opening paths (drivePath paths id) id m).after env) :=
    .quiet (.logged _ _) (.ask _ (.refl _))
  cases h with
  | absent => exact .quiet (.logged _ _) (.refl _)
  | mapped => exact .refl m
  | opened => exact hask
  | refused => exact hask.append (.quiet (.logged _ _) (.refl _))

theorem commands (h : Visit env paths id m found front m') : front.map (·.command) =
    if isLocked paths m.files id then [openCommand paths (drivePath paths id) id] else [] := by
  cases h with
  | absent habsent => simp [isLocked, habsent]
  | mapped _ hmapped => simp [isLocked, hmapped]
  | opened hpresent hunmapped => simp [isLocked, hpresent, hunmapped, opening]
  | refused hpresent hunmapped => simp [isLocked, hpresent, hunmapped, opening]

theorem command_of_mem (h : Visit env paths id m found front m') {a : Attempt} (ha : a ∈ front) :
    a.command = openCommand paths (drivePath paths id) id := by
  have hcommand := List.mem_map_of_mem (f := (·.command)) ha
  rw [h.commands] at hcommand
  split at hcommand
  · exact List.mem_singleton.1 hcommand
  · cases hcommand

theorem found_iff (h : Visit env paths id m found front m') : found = true ↔
    m.files.has (drivePath paths id) = true ∧
      (m.files.has (paths.mappedDevice id) = true ∨ ∃ a ∈ front, a.succeeds env = true) := by
  cases h with
  | absent habsent => simp [habsent]
  | mapped hpresent hmapped => simp [hpresent, hmapped]
  | opened hpresent hunmapped hopen => simp [hpresent, hunmapped, hopen]
  | refused hpresent hunmapped hopen =>
    simp [hpresent, hunmapped, Attempt.not_succeeds_of_checked hopen]

theorem sparesOthers (h : Visit env paths id m found front m')
    (halone : ∀ a ∈ front, OpensAlone env paths ids a) : SparesOthers paths ids id m.files m'.files := by
  cases h with
  | absent => exact .refl paths ids id _
  | mapped => exact .refl paths ids id _
  | opened => exact halone _ List.mem_cons_self id rfl
  | refused => exact halone _ List.mem_cons_self id rfl

end Visit

/-! ### All drives -/

/-- How a round of visits goes: which drives are unlocked, all attempts, and the machine behind the last
visit. -/
inductive Round (env : Environment) (paths : Paths) :
    Machine → List String → List String → List Attempt → Machine → Prop
  | done (m : Machine) : Round env paths m [] [] [] m
  | visit {id : String} {ids unlocked : List String} {found : Bool} {front as : List Attempt}
      {m m₁ m' : Machine} (first : Visit env paths id m found front m₁)
      (rest : Round env paths m₁ ids unlocked as m') :
      Round env paths m (id :: ids) (cond found (id :: unlocked) unlocked) (front ++ as) m'

theorem round_filterAuxM (env : Environment) (paths : Paths) (ids kept : List String) (m : Machine) :
    ∃ unlocked as m', (List.filterAuxM (decryptDrive env paths) ids kept).perform m =
      (.ok (unlocked.reverse ++ kept), m') ∧ Round env paths m ids unlocked as m' := by
  induction ids generalizing kept m with
  | nil => exact ⟨[], [], m, rfl, .done m⟩
  | cons id ids ih =>
    obtain ⟨found, front, m₁, hfirst, hvisit⟩ := visit_decryptDrive env paths id m
    obtain ⟨unlocked, as, m', hrest, hround⟩ := ih (cond found (id :: kept) kept) m₁
    refine ⟨_, _, m', ?_, .visit hvisit hround⟩
    rw [List.filterAuxM, Action.perform_bind_of_ok _ hfirst, hrest]
    cases found <;> simp

namespace Round

theorem course (h : Round env paths m ids unlocked as m') :
    Course env Machine.Reports m as m' := by
  induction h with
  | done m => exact .refl m
  | visit first _ ih => exact first.course.append ih

theorem sublist (h : Round env paths m ids unlocked as m') : unlocked.Sublist ids := by
  induction h with
  | done => exact List.Sublist.refl _
  | @visit id ids unlocked found front as m m₁ m' first rest ih =>
    cases found with
    | true => exact ih.cons_cons id
    | false => exact ih.cons id

/-- Whether drives stand as they did in some earlier files. -/
def StandAs (paths : Paths) (ids : List String) (t₀ t : FileTree) : Prop :=
  ∀ id ∈ ids, t.has (drivePath paths id) = t₀.has (drivePath paths id) ∧
    t.has (paths.mappedDevice id) = t₀.has (paths.mappedDevice id)

theorem StandAs.visit (h : StandAs paths (id :: ids) t₀ t) {t' : FileTree} (hnew : id ∉ ids)
    (hspared : SparesOthers paths (id :: ids) id t t') : StandAs paths ids t₀ t' := by
  intro other hother
  obtain ⟨hpresent, hmapped⟩ := h other (.tail _ hother)
  have hne : other ≠ id := fun heq => hnew (heq ▸ hother)
  exact ⟨(hspared.present other (.tail _ hother) hne).trans hpresent,
    (hspared.mapped other (.tail _ hother) hne).trans hmapped⟩

theorem exists_of_mem (h : Round env paths m ids unlocked as m') {a : Attempt} (ha : a ∈ as) :
    ∃ id ∈ ids, a.command = openCommand paths (drivePath paths id) id := by
  induction h with
  | done => cases ha
  | @visit id ids unlocked found front as m m₁ m' first rest ih =>
    rcases List.mem_append.1 ha with ha | ha
    · exact ⟨id, List.mem_cons_self, first.command_of_mem ha⟩
    · obtain ⟨other, hother, hcommand⟩ := ih ha
      exact ⟨other, .tail _ hother, hcommand⟩

theorem keepsKeys (h : Round env paths m ids unlocked as m')
    (halone : ∀ a ∈ as, OpensAlone env paths ids a) : KeepsKeys paths m.files m'.files := by
  induction h with
  | done m => exact .refl paths m.files
  | visit first _ ih =>
    rw [List.forall_mem_append] at halone
    exact (first.sparesOthers halone.1).keys.trans (ih fun a ha => (halone.2 a ha).tail)

/-- Opened are the drives that are locked at the start. -/
theorem commands (h : Round env paths m ids unlocked as m') (hnodup : ids.Nodup)
    (halone : ∀ a ∈ as, OpensAlone env paths ids a) (hstand : StandAs paths ids t₀ m.files) :
    as.map (·.command) =
      (ids.filter (isLocked paths t₀)).map fun id => openCommand paths (drivePath paths id) id := by
  induction h with
  | done => rfl
  | @visit id ids unlocked found front as m m₁ m' first rest ih =>
    rw [List.forall_mem_append] at halone
    obtain ⟨hnew, hnodup⟩ := List.nodup_cons.1 hnodup
    obtain ⟨hpresent, hmapped⟩ := hstand id List.mem_cons_self
    have hlocked : isLocked paths m.files id = isLocked paths t₀ id := by
      rw [isLocked, isLocked, hpresent, hmapped]
    rw [List.map_append, first.commands, hlocked, ih hnodup (fun a ha => (halone.2 a ha).tail)
      (hstand.visit hnew (first.sparesOthers halone.1)), List.filter_cons]
    cases isLocked paths t₀ id <;> rfl

/-- Unlocked are the drives that are mapped at the start, and those that are opened. -/
theorem mem_unlocked_iff (h : Round env paths m ids unlocked as m') (hnodup : ids.Nodup)
    (halone : ∀ a ∈ as, OpensAlone env paths ids a) (hstand : StandAs paths ids t₀ m.files)
    {other : String} (hother : other ∈ ids) : other ∈ unlocked ↔
      t₀.has (drivePath paths other) = true ∧ (t₀.has (paths.mappedDevice other) = true ∨
        ∃ a ∈ as, a.command = openCommand paths (drivePath paths other) other ∧
          a.succeeds env = true) := by
  induction h with
  | done => cases hother
  | @visit id ids unlocked found front as m m₁ m' first rest ih =>
    rw [List.forall_mem_append] at halone
    obtain ⟨hnew, hnodup⟩ := List.nodup_cons.1 hnodup
    rcases List.mem_cons.1 hother with rfl | hother
    · -- The attempts of later visits open other drives.
      have hlater : ∀ a ∈ as, a.command ≠ openCommand paths (drivePath paths other) other := by
        intro a ha heq
        obtain ⟨id', hid', hcommand⟩ := rest.exists_of_mem ha
        exact hnew (openCommand_inj (heq.symm.trans hcommand) ▸ hid')
      obtain ⟨hpresent, hmapped⟩ := hstand other List.mem_cons_self
      have hmem : other ∈ cond found (other :: unlocked) unlocked ↔ found = true := by
        have hnot : other ∉ unlocked := fun hmem => hnew (rest.sublist.subset hmem)
        cases found <;> simp [hnot]
      rw [hmem, first.found_iff, hpresent, hmapped]
      refine and_congr_right fun _ => or_congr_right ⟨?_, ?_⟩
      · rintro ⟨a, ha, hopened⟩
        exact ⟨a, List.mem_append_left as ha, first.command_of_mem ha, hopened⟩
      · rintro ⟨a, ha, hcommand, hopened⟩
        rcases List.mem_append.1 ha with ha | ha
        · exact ⟨a, ha, hopened⟩
        · exact absurd hcommand (hlater a ha)
    · have hne : other ≠ id := fun heq => hnew (heq ▸ hother)
      have hmem : other ∈ cond found (id :: unlocked) unlocked ↔ other ∈ unlocked := by
        cases found <;> simp [hne]
      rw [hmem, ih hnodup (fun a ha => (halone.2 a ha).tail)
        (hstand.visit hnew (first.sparesOthers halone.1)) hother]
      refine and_congr_right fun _ => or_congr_right ⟨?_, ?_⟩
      · rintro ⟨a, ha, hopened⟩
        exact ⟨a, List.mem_append_right front ha, hopened⟩
      · rintro ⟨a, ha, hcommand, hopened⟩
        rcases List.mem_append.1 ha with ha | ha
        · exact absurd (openCommand_inj (hcommand.symm.trans (first.command_of_mem ha))) hne
        · exact ⟨a, ha, hcommand, hopened⟩

end Round

/-! ### The key directory -/

/-- Whether a drive has a key file. -/
def HasKeyFile (paths : Paths) (t : FileTree) (id : String) : Prop :=
  id ≠ "" ∧ ∃ names, t.list paths.keys = .ok names ∧ "luks." ++ id ++ ".key" ∈ names

/-- Without a key directory there are no keys. -/
theorem exists_keyIds (hsound : t.Sound)
    (hdir : ∀ e, t.list paths.keys = .error e → e.kind = .notFound) :
    ∃ ids, keyIds paths t = .ok ids ∧ ids.Pairwise (· < ·) ∧
      ∀ id, id ∈ ids ↔ HasKeyFile paths t id := by
  cases hlist : t.list paths.keys with
  | ok names =>
    obtain ⟨ids, hids, hascending, hmem⟩ := keyIds_of_list hsound hlist
    refine ⟨ids, hids, hascending, ?_⟩
    intro id
    have hname : Paths.keyFileName id = "luks." ++ id ++ ".key" := rfl
    simp [hmem id, HasKeyFile, hlist, hname, and_comm]
  | error e =>
    refine ⟨[], ?_, List.Pairwise.nil, ?_⟩
    · rw [keyIds, hlist]
      exact if_pos (hdir e hlist)
    · intro id
      simp [HasKeyFile, hlist]

theorem round_decryptDrives (env : Environment) (h : keyIds paths m.files = .ok ids) :
    ∃ unlocked as m', (decryptDrives env paths).perform m = (.ok unlocked, m') ∧
      Round env paths m ids unlocked as m' := by
  have hstored : (storedIds paths).perform m = (.ok ids, m) := by
    rw [storedIds, Action.perform_bind_of_ok _ (Action.perform_get m), Action.perform_ofExcept, h]
  obtain ⟨unlocked, as, m', hloop, hround⟩ := round_filterAuxM env paths ids [] m
  refine ⟨unlocked, as, m', ?_, hround⟩
  rw [decryptDrives, Action.perform_bind_of_ok _ hstored, List.filterM,
    Action.perform_bind_of_ok _ hloop, List.append_nil, Action.perform_pure, List.reverse_reverse]

/-- Unlocking all drives always succeeds. Each drive with a key is visited once, in the order of the IDs,
and looked for when its turn comes. As long as the opening of a drive is about this drive alone, opened
are those that are there and not mapped at the start, each of them once; reported are those that are
mapped at the start or are opened; and no key file changes. -/
theorem decryptDrives_best_effort (hsound : m.files.Sound)
    (hdir : ∀ e, m.files.list paths.keys = .error e → e.kind = .notFound) :
    ∃ ids unlocked as m', (decryptDrives env paths).perform m = (.ok unlocked, m') ∧
      ids.Pairwise (· < ·) ∧ (∀ id, id ∈ ids ↔ HasKeyFile paths m.files id) ∧
      unlocked.Pairwise (· < ·) ∧ Round env paths m ids unlocked as m' ∧ LeftAlone env m m' as ∧
      ((∀ a ∈ as, OpensAlone env paths ids a) →
        as.map (·.command) = (ids.filter (isLocked paths m.files)).map (fun id => ⟨"cryptsetup",
          ["open", "--type=luks", "-d", paths.keyFile id, drivePath paths id, "luks-" ++ id]⟩) ∧
        (∀ id, id ∈ unlocked ↔ HasKeyFile paths m.files id ∧
          m.files.has (drivePath paths id) = true ∧
            (m.files.has (paths.mappedDevice id) = true ∨
              ∃ a ∈ as, a.command = ⟨"cryptsetup", ["open", "--type=luks", "-d", paths.keyFile id,
                  drivePath paths id, "luks-" ++ id]⟩ ∧
                a.succeeds env = true)) ∧
        KeepsKeys paths m.files m'.files) := by
  obtain ⟨ids, hids, hascending, hmem⟩ := exists_keyIds hsound hdir
  obtain ⟨unlocked, as, m', hrun, hround⟩ := round_decryptDrives env hids
  have hnodup : ids.Nodup := hascending.nodup
  have hstand : Round.StandAs paths ids m.files m.files := fun _ _ => ⟨rfl, rfl⟩
  refine ⟨ids, unlocked, as, m', hrun, hascending, hmem, hascending.sublist hround.sublist, hround,
    hround.course.leftAlone, ?_⟩
  intro halone
  refine ⟨hround.commands hnodup halone hstand, ?_, hround.keepsKeys halone⟩
  intro id
  rw [← hmem id]
  constructor
  · intro hunlocked
    have hid := hround.sublist.subset hunlocked
    exact ⟨hid, (hround.mem_unlocked_iff hnodup halone hstand hid).1 hunlocked⟩
  · rintro ⟨hid, hopened⟩
    exact (hround.mem_unlocked_iff hnodup halone hstand hid).2 hopened

/-! ### A machine with a drive in each state -/

/-- Tools of which one refuses to open a drive. -/
def pickyEnvironment : Environment :=
  Script.environment {
    registry := fun _ => .sample
    answers := [(⟨"cryptsetup", ["open", "--type=luks", "-d", "/var/lib/strata/luks.foreign.key"]⟩,
      ⟨some 2, "", "No key available with this passphrase."⟩)] } "/usr/bin/strata"

/-- A machine with keys for a drive that is away, two that are locked, and one that is mapped. -/
def drivesMachine : Machine :=
  ⟨⟨[(["dev"], .directory), (["dev", "disk"], .directory), (["dev", "disk", "by-id"], .directory),
    (["dev", "disk", "by-id", "mapped"], .file .empty FileTree.defaultMode),
    (["dev", "disk", "by-id", "locked"], .file .empty FileTree.defaultMode),
    (["dev", "disk", "by-id", "foreign"], .file .empty FileTree.defaultMode),
    (["dev", "disk", "by-id", "keyless"], .file .empty FileTree.defaultMode),
    (["dev", "mapper"], .directory),
    (["dev", "mapper", "luks-mapped"], .file .empty FileTree.defaultMode),
    (["var"], .directory), (["var", "lib"], .directory), (["var", "lib", "strata"], .directory),
    (["var", "lib", "strata", "luks.mapped.key"], .file .empty keyMode),
    (["var", "lib", "strata", "luks.locked.key"], .file .empty keyMode),
    (["var", "lib", "strata", "luks.foreign.key"], .file .empty keyMode),
    (["var", "lib", "strata", "luks.away.key"], .file .empty keyMode),
    (["var", "lib", "strata", "luks..key"], .file .empty keyMode),
    (["var", "lib", "strata", "notes"], .file .empty keyMode)], []⟩, [], []⟩

theorem sound_drivesMachine : drivesMachine.files.Sound where
  grounded := by
    refine FileTree.grounded_of_nodes ?_
    intro e he
    simp only [drivesMachine, List.mem_cons, List.not_mem_nil, or_false] at he
    rcases he with rfl | rfl | rfl | rfl | rfl | rfl | rfl | rfl | rfl | rfl | rfl | rfl | rfl |
      rfl | rfl | rfl | rfl | rfl <;> rfl
  once := by decide

theorem opensAlone_pickyEnvironment (ids : List String) (a : Attempt) :
    OpensAlone pickyEnvironment {} ids a := fun id _ => .refl {} ids id a.machine.files

theorem hasKeyFile_drivesMachine (hid : id ≠ "")
    (hmem : Paths.keyFileName id ∈ drivesMachine.files.below ["var", "lib", "strata"]) :
    HasKeyFile {} drivesMachine.files id :=
  ⟨hid, _, FileTree.list_eq_ok.2 ⟨["var", "lib", "strata"], rfl, rfl⟩, List.mem_mergeSort.2 hmem⟩

theorem decryptDrives_best_effort_drivesMachine :
    ∃ unlocked as m', (decryptDrives pickyEnvironment {}).perform drivesMachine = (.ok unlocked, m') ∧
      "mapped" ∈ unlocked ∧ "locked" ∈ unlocked ∧ "foreign" ∉ unlocked ∧ "away" ∉ unlocked ∧
      openCommand {} "/dev/disk/by-id/foreign" "foreign" ∈ as.map (·.command) ∧
      LeftAlone pickyEnvironment drivesMachine m' as := by
  have hdir : ∀ e, drivesMachine.files.list ({} : Paths).keys = .error e → e.kind = .notFound := by
    obtain ⟨-, names, hnames, -⟩ := @hasKeyFile_drivesMachine "away" (by decide) (by decide)
    intro e he
    rw [hnames] at he
    cases he
  obtain ⟨ids, unlocked, as, m', hrun, -, hids, -, -, halone, hexact⟩ :=
    @decryptDrives_best_effort pickyEnvironment {} _ sound_drivesMachine hdir
  obtain ⟨hcommands, hunlocked, -⟩ := hexact fun a _ => opensAlone_pickyEnvironment ids a
  have hopened (id : String) (hkey : HasKeyFile {} drivesMachine.files id)
      (hlocked : isLocked {} drivesMachine.files id = true) :
      openCommand {} (drivePath {} id) id ∈ as.map (·.command) := by
    rw [hcommands]
    exact List.mem_map.2 ⟨id, List.mem_filter.2 ⟨(hids id).2 hkey, hlocked⟩, rfl⟩
  refine ⟨unlocked, as, m', hrun, ?_, ?_, ?_, ?_, ?_, halone⟩
  · exact (hunlocked _).2 ⟨hasKeyFile_drivesMachine (by decide) (by decide), by decide,
      .inl (by decide)⟩
  · have hlocked := hopened "locked"
      (hasKeyFile_drivesMachine (by decide) (by decide)) (by decide)
    obtain ⟨⟨m, c⟩, ha, rfl⟩ := List.mem_map.1 hlocked
    exact (hunlocked _).2 ⟨hasKeyFile_drivesMachine (by decide) (by decide), by decide,
      .inr ⟨_, ha, rfl, rfl⟩⟩
  · intro hmem
    obtain ⟨-, -, hmapped | ⟨⟨m, c⟩, -, rfl, hsucceeds⟩⟩ := (hunlocked _).1 hmem
    · exact absurd hmapped (by decide)
    · cases hsucceeds
  · intro hmem
    exact absurd ((hunlocked _).1 hmem).2.1 (by decide)
  · exact hopened "foreign" (hasKeyFile_drivesMachine (by decide) (by decide)) (by decide)

end Groundwork.Encryption
