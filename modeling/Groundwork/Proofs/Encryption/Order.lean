import Groundwork.Proofs.Encryption.Import
import Groundwork.Proofs.FileTree.Directory

/-! In which order a drive is encrypted. Its key is in its file before the drive is formatted with it,
and from the wipe on every failure is marked. -/
namespace Groundwork.Encryption

variable {env : Environment} {paths : Paths} {m m₁ m₂ m' : Machine} {path device id : String}
  {key : ByteArray} {as : List Attempt} {r : Except Failure KeyRecord} {e : Failure}

/-! ### The steps of an encryption -/

/-- The commands of an encryption, in their order. -/
def plan (paths : Paths) (device id : String) : List Command :=
  [⟨"wipefs", ["-a", device]⟩, ⟨"sgdisk", ["-Z", device]⟩,
    ⟨"cryptsetup", ["luksFormat", "-q", device, paths.keyFile id]⟩,
    ⟨"cryptsetup", ["open", "--type=luks", "-d", paths.keyFile id, device, "luks-" ++ id]⟩]

theorem plan_eq (paths : Paths) (device id : String) : plan paths device id =
    [wipeCommand device, PartitionTable.zapCommand device, formatCommand device (paths.keyFile id),
      openCommand paths device id] := rfl

/-- The key that is drawn on a machine. -/
def drawn (env : Environment) (m : Machine) : ByteArray := ⟨(env.freshKey m).toArray⟩

theorem size_drawn (env : Environment) (m : Machine) : (drawn env m).size = keyLength :=
  (env.freshKey m).size_toArray

def wiping (device : String) (m : Machine) : Attempt :=
  ⟨m.record (.logged .info s!"Wiping {device} for encryption"), wipeCommand device⟩

def zapping (env : Environment) (device : String) (m : Machine) : Attempt :=
  ⟨((wiping device m).after env).record (.logged .info s!"Zapping partition table on {device}"),
    PartitionTable.zapCommand device⟩

def formatting (paths : Paths) (device id : String) (m : Machine) : Attempt :=
  ⟨m.record (.logged .info s!"Formatting {device} as an encrypted volume"),
    formatCommand device (paths.keyFile id)⟩

@[simp] theorem files_formatting (paths : Paths) (device id : String) (m : Machine) :
    (formatting paths device id m).machine.files = m.files := rfl

/-- The storing of the key that is drawn when the table has been zapped. -/
def storing (env : Environment) (paths : Paths) (id : String) (zap : Attempt) :
    Except Failure Unit × Machine :=
  (writeKey (paths.keyFile id) (drawn env (zap.after env))).perform (zap.after env)

def stepText : String := "Encrypting the drive"

/-- The record of a drive that was encrypted. -/
def recordFor (env : Environment) (paths : Paths) (id : String) (zap : Attempt) : KeyRecord :=
  ⟨id, paths.keyFile id, drawn env (zap.after env)⟩

/-- How far an encryption comes: the attempts that it makes, its result and the machine behind it. -/
inductive Encrypts (env : Environment) (paths : Paths) (device id : String) (m : Machine) :
    List Attempt → Except Failure KeyRecord → Machine → Prop
  | unwiped {e : Failure} (hwipe : (wiping device m).checked env = .error e) :
      Encrypts env paths device id m [wiping device m] (.error e) ((wiping device m).after env)
  | unzapped {e : Failure} (hwipe : (wiping device m).succeeds env = true)
      (hzap : (zapping env device m).answer env = .error e) :
      Encrypts env paths device id m [wiping device m, zapping env device m]
        (.error (e.mark stepText)) ((zapping env device m).after env)
  | unstored {e : Failure} {m₁ : Machine} (hwipe : (wiping device m).succeeds env = true)
      (hzap : ((zapping env device m).call? env).isSome = true)
      (hstore : storing env paths id (zapping env device m) = (.error e, m₁)) :
      Encrypts env paths device id m [wiping device m, zapping env device m]
        (.error (e.mark stepText)) m₁
  | unformatted {e : Failure} {m₁ : Machine} (hwipe : (wiping device m).succeeds env = true)
      (hzap : ((zapping env device m).call? env).isSome = true)
      (hstore : storing env paths id (zapping env device m) = (.ok (), m₁))
      (hformat : (formatting paths device id m₁).checked env = .error e) :
      Encrypts env paths device id m
        [wiping device m, zapping env device m, formatting paths device id m₁]
        (.error (e.mark stepText)) ((formatting paths device id m₁).after env)
  | mapped {m₁ m₂ : Machine} (hwipe : (wiping device m).succeeds env = true)
      (hzap : ((zapping env device m).call? env).isSome = true)
      (hstore : storing env paths id (zapping env device m) = (.ok (), m₁))
      (hformat : (formatting paths device id m₁).succeeds env = true)
      (hformatted : (formatting paths device id m₁).after env = m₂)
      (hmapped : m₂.files.has (paths.mappedDevice id) = true) :
      Encrypts env paths device id m
        [wiping device m, zapping env device m, formatting paths device id m₁]
        (.ok (recordFor env paths id (zapping env device m))) m₂
  | unopened {e : Failure} {m₁ m₂ : Machine} (hwipe : (wiping device m).succeeds env = true)
      (hzap : ((zapping env device m).call? env).isSome = true)
      (hstore : storing env paths id (zapping env device m) = (.ok (), m₁))
      (hformat : (formatting paths device id m₁).succeeds env = true)
      (hformatted : (formatting paths device id m₁).after env = m₂)
      (hmapped : m₂.files.has (paths.mappedDevice id) = false)
      (hopen : (opening paths device id m₂).checked env = .error e) :
      Encrypts env paths device id m
        [wiping device m, zapping env device m, formatting paths device id m₁,
          opening paths device id m₂]
        (.error (e.mark stepText)) ((opening paths device id m₂).after env)
  | opened {m₁ m₂ : Machine} (hwipe : (wiping device m).succeeds env = true)
      (hzap : ((zapping env device m).call? env).isSome = true)
      (hstore : storing env paths id (zapping env device m) = (.ok (), m₁))
      (hformat : (formatting paths device id m₁).succeeds env = true)
      (hformatted : (formatting paths device id m₁).after env = m₂)
      (hmapped : m₂.files.has (paths.mappedDevice id) = false)
      (hopen : (opening paths device id m₂).succeeds env = true) :
      Encrypts env paths device id m
        [wiping device m, zapping env device m, formatting paths device id m₁,
          opening paths device id m₂]
        (.ok (recordFor env paths id (zapping env device m)))
        ((opening paths device id m₂).after env)

theorem perform_zap (m : Machine) :
    (PartitionTable.zap env device).perform ((wiping device m).after env) =
      (((zapping env device m).answer env).map fun _ => (), (zapping env device m).after env) := by
  rw [PartitionTable.zap, Action.perform_bind_of_ok _ (Action.perform_logInfo _ _),
    Action.perform_bind, Action.perform_run_eq, zapping]
  cases Attempt.answer env ⟨_, PartitionTable.zapCommand device⟩ <;> rfl

theorem perform_wipe (m : Machine) : (Action.runChecked env (wipeCommand device)).perform
      (m.record (.logged .info s!"Wiping {device} for encryption")) =
    ((wiping device m).checked env, (wiping device m).after env) := Action.perform_runChecked _ _

theorem perform_format (m : Machine) :
    (Action.runChecked env (formatCommand device (paths.keyFile id))).perform
      (m.record (.logged .info s!"Formatting {device} as an encrypted volume")) =
    ((formatting paths device id m).checked env, (formatting paths device id m).after env) :=
  Action.perform_runChecked _ _

/-- What follows the wipe comes to an end of its own, before it is marked. -/
theorem encrypts_formatAndUnlock (hwipe : (wiping device m).succeeds env = true)
    {r : Except Failure KeyRecord} (h : (formatAndUnlock env paths device id).perform
      ((wiping device m).after env) = (r, m')) :
    ∃ as, Encrypts env paths device id m as (r.mapError (Failure.mark stepText)) m' := by
  have hzapped := @perform_zap env device m
  rw [formatAndUnlock] at h
  dsimp only at h
  cases hzap : (zapping env device m).answer env with
  | error e =>
    rw [hzap] at hzapped
    rw [Action.perform_bind_of_error _ hzapped] at h
    cases h
    exact ⟨_, .unzapped hwipe hzap⟩
  | ok o =>
    have hanswered : ((zapping env device m).call? env).isSome = true := by
      rw [← Attempt.isOk_answer, hzap]
      rfl
    rw [hzap] at hzapped
    rw [Action.perform_bind_of_ok _ hzapped, Action.perform_bind_of_ok _ (Action.perform_get _)] at h
    cases hstore : storing env paths id (zapping env device m) with
    | mk r₁ m₁ =>
      have hwritten : (writeKey (paths.keyFile id) ⟨(env.freshKey
          ((zapping env device m).after env)).toArray⟩).perform ((zapping env device m).after env) =
          (r₁, m₁) := hstore
      cases r₁ with
      | error e =>
        rw [Action.perform_bind_of_error _ hwritten] at h
        cases h
        exact ⟨_, .unstored hwipe hanswered hstore⟩
      | ok _ =>
        have hformatted := @perform_format env paths device id m₁
        rw [Action.perform_bind_of_ok _ hwritten,
          Action.perform_bind_of_ok _ (Action.perform_logInfo _ m₁)] at h
        cases hformat : (formatting paths device id m₁).checked env with
        | error e =>
          rw [hformat] at hformatted
          rw [Action.perform_bind_of_error _ hformatted] at h
          cases h
          exact ⟨_, .unformatted hwipe hanswered hstore hformat⟩
        | ok o =>
          have hpassed := Attempt.succeeds_of_checked hformat
          rw [hformat] at hformatted
          rw [Action.perform_bind_of_ok _ hformatted, Action.perform_bind, perform_unlock] at h
          cases hmapped : ((formatting paths device id m₁).after env).files.has
              (paths.mappedDevice id) with
          | true =>
            rw [hmapped, if_pos rfl] at h
            cases h
            exact ⟨_, .mapped hwipe hanswered hstore hpassed rfl hmapped⟩
          | false =>
            rw [hmapped, if_neg Bool.false_ne_true] at h
            cases hopen : (opening paths device id ((formatting paths device id m₁).after env)).checked
                env with
            | error e =>
              rw [hopen] at h
              cases h
              exact ⟨_, .unopened hwipe hanswered hstore hpassed rfl hmapped hopen⟩
            | ok o =>
              rw [hopen] at h
              cases h
              exact ⟨_, .opened hwipe hanswered hstore hpassed rfl hmapped (Attempt.succeeds_of_checked hopen)⟩

theorem encrypts_encrypt (hid : paths.stableId device = .ok id) (m : Machine) :
    ∃ as, Encrypts env paths device id m as ((encrypt env paths device).perform m).1
      ((encrypt env paths device).perform m).2 := by
  have hask : (Action.ofExcept (paths.stableId device)).perform m = (.ok id, m) := by
    rw [Action.perform_ofExcept, hid]
  have hwiped := @perform_wipe env device m
  rw [encrypt, Action.perform_bind_of_ok _ hask,
    Action.perform_bind_of_ok _ (Action.perform_logInfo _ m)]
  cases hwipe : (wiping device m).checked env with
  | error e =>
    rw [hwipe] at hwiped
    rw [Action.perform_bind_of_error _ hwiped]
    exact ⟨_, .unwiped hwipe⟩
  | ok o =>
    rw [hwipe] at hwiped
    rw [Action.perform_bind_of_ok _ hwiped, Action.perform_marking]
    exact encrypts_formatAndUnlock (Attempt.succeeds_of_checked hwipe) rfl

/-! ### What happens between the tools -/

/-- Whether a key was put into its file: directories were made on the way to it, and the file took the
place that its path then led to. -/
def Keyed (t t' : FileTree) (path : String) (key : ByteArray) : Prop :=
  ∃ room place, FileTree.Grown t room ∧ room.locate path false = .ok place ∧
    t'.node? place = some (.file key 0o600) ∧ ∀ q, q ≠ place → t'.node? q = room.node? q

theorem writeKey_changes {r : Except Failure Unit} (h : (writeKey path key).perform m = (r, m')) :
    (∃ e, r = .error e) ∧ FileTree.Grown m.files m'.files ∨
      r = .ok () ∧ Keyed m.files m'.files path key := by
  rcases perform_writeKey path key m with
    ⟨e, m₁, hwrite, -, hgrown, -⟩ | ⟨m₁, place, hroom, hl, hp, hwrite⟩
  · cases hwrite.symm.trans h
    exact .inl ⟨⟨e, rfl⟩, hgrown⟩
  · cases hwrite.symm.trans h
    have hgrown := grown_makeRoom path m
    rw [hroom] at hgrown
    have hne := FileTree.ne_root_of_node? hp
    refine .inr ⟨rfl, m₁.files, place, hgrown, hl, ?_, ?_⟩
    · rw [Machine.files_wrote, FileTree.node?_set hne, if_pos rfl]
      rfl
    · intro q hq
      rw [Machine.files_wrote, FileTree.node?_set hne, if_neg hq]

theorem calls_writeKey (path : String) (key : ByteArray) :
    Action.Within (fun m m' => m'.calls = m.calls) (writeKey path key) := by
  have hchains : Machine.Chains fun m m' => m'.calls = m.calls := ⟨fun _ => rfl, fun h h' => h'.trans h⟩
  have hpath : Action.Within (fun m m' => m'.calls = m.calls) (Action.makePath (roomOf path)) := by
    intro m
    rw [Action.perform_makePath]
    simp only [Machine.calls]
  have hroom : Action.Within (fun m m' => m'.calls = m.calls) (makeRoom path) :=
    .bind hchains hpath fun _ => .consult hchains _
  exact .bind hchains hroom fun _ => .alter hchains fun m t _ => Machine.calls_wrote m path t

/-- A step between two tools. It runs none, and it makes only directories or stores the key that is
drawn. -/
structure Between (env : Environment) (path : String) (m m' : Machine) : Prop where
  calls : m'.calls = m.calls
  files : FileTree.Grown m.files m'.files ∨ Keyed m.files m'.files path (drawn env m)

theorem between_logged (env : Environment) (path : String) (m : Machine) (level : Level)
    (text : String) : Between env path m (m.record (.logged level text)) :=
  ⟨by simp [Machine.calls], .inl (.refl _)⟩

theorem between_storing {zap : Attempt} {r : Except Failure Unit}
    (h : storing env paths id zap = (r, m₁)) :
    Between env (paths.keyFile id) (zap.after env) m₁ := by
  refine ⟨(calls_writeKey _ _).of_eq h, ?_⟩
  rcases writeKey_changes h with ⟨-, hgrown⟩ | ⟨-, hkeyed⟩
  · exact .inl hgrown
  · exact .inr hkeyed

theorem keyed_of_storing {zap : Attempt} (h : storing env paths id zap = (.ok (), m₁)) :
    Keyed (zap.after env).files m₁.files (paths.keyFile id) (drawn env (zap.after env)) := by
  rcases writeKey_changes h with ⟨⟨e, he⟩, -⟩ | ⟨-, hkeyed⟩
  · cases he
  · exact hkeyed

/-- The attempts of an encryption, with nothing but the storing of the key between them. -/
theorem Encrypts.course (h : Encrypts env paths device id m as r m') :
    Course env (Between env (paths.keyFile id)) m as m' := by
  have hwipe {as : List Attempt}
      (hrest : Course env (Between env (paths.keyFile id)) ((wiping device m).after env) as m') :
      Course env (Between env (paths.keyFile id)) m (wiping device m :: as) m' :=
    .quiet (between_logged _ _ m _ _) (.ask _ hrest)
  have hzap {as : List Attempt}
      (hrest : Course env (Between env (paths.keyFile id)) ((zapping env device m).after env) as m') :
      Course env (Between env (paths.keyFile id)) m
        (wiping device m :: zapping env device m :: as) m' :=
    hwipe (.quiet (between_logged _ _ _ _ _) (.ask _ hrest))
  have hformat {m₁ : Machine} {as : List Attempt}
      (hstore : storing env paths id (zapping env device m) = (.ok (), m₁))
      (hrest : Course env (Between env (paths.keyFile id))
        ((formatting paths device id m₁).after env) as m') :
      Course env (Between env (paths.keyFile id)) m
        (wiping device m :: zapping env device m :: formatting paths device id m₁ :: as) m' :=
    hzap (.quiet (between_storing hstore) (.quiet (between_logged _ _ m₁ _ _) (.ask _ hrest)))
  cases h with
  | unwiped => exact hwipe (.refl _)
  | unzapped => exact hzap (.refl _)
  | unstored _ _ hstore => exact hzap (.quiet (between_storing hstore) (.refl _))
  | unformatted _ _ hstore => exact hformat hstore (.refl _)
  | mapped _ _ hstore _ hformatted => exact hformat hstore (hformatted ▸ .refl _)
  | unopened _ _ hstore _ hformatted =>
    exact hformat hstore (hformatted ▸ .quiet (between_logged _ _ _ _ _) (.ask _ (.refl _)))
  | opened _ _ hstore _ hformatted =>
    exact hformat hstore (hformatted ▸ .quiet (between_logged _ _ _ _ _) (.ask _ (.refl _)))

theorem Encrypts.commands (h : Encrypts env paths device id m as r m') :
    as.map (·.command) <+: plan paths device id := by
  cases h <;> simp [plan_eq, wiping, zapping, formatting, opening]

/-! ### Properties -/

/-- Whether a key is in the file that a name stood for when the key was put there. The name leads to the
file, unless the key took the place of a link on the way to itself. -/
def Holds (before t : FileTree) (path : String) (key : ByteArray) : Prop :=
  ∃ place, before.locate path false = .ok place ∧ t.node? place = some (.file key 0o600) ∧
    (t.read path = .ok key ∨ (∃ target, before.node? place = some (.link target)) ∧
      ∃ e, t.locate path false = .error e)

theorem holds_of_writeKey (h : (writeKey path key).perform m = (.ok (), m')) :
    Holds ((makeRoom path).perform m).2.files m'.files path key := by
  rcases perform_writeKey path key m with ⟨e, m₁, hwrite, -⟩ | ⟨m₁, place, hroom, hl, hp, hwrite⟩
  · cases hwrite.symm.trans h
  · cases hwrite.symm.trans h
    have hfiled := FileTree.filed_set hp key keyMode
    have hnode : (m₁.files.set place (.file key keyMode)).node? place = some (.file key keyMode) := by
      rw [FileTree.node?_set (FileTree.ne_root_of_node? hp), if_pos rfl]
    rw [hroom]
    dsimp only [Machine.files_wrote]
    refine ⟨place, hl, hnode, ?_⟩
    rcases hfiled.locate hl with hl' | hlost
    · have hl'' := FileTree.locate_true_of_false hl' (by simp [hnode])
      have hfind := FileTree.find_eq_ok.2 ⟨hl'', hnode⟩
      exact .inl (FileTree.read_eq_ok.2 ⟨place, keyMode, hfind⟩)
    · exact .inr hlost

/-- What an encryption keeps to. -/
structure InOrder (env : Environment) (paths : Paths) (device id : String) (m : Machine)
    (as : List Attempt) (r : Except Failure KeyRecord) (m' : Machine) : Prop where
  /-- The run makes the attempts, and between them it does nothing but store the key. -/
  course : Course env (Between env (paths.keyFile id)) m as m'
  /-- The tools are asked for in the order of the plan, -/
  asked : as.map (·.command) <+: plan paths device id
  /-- and those that are installed run in that order. -/
  ran : m'.commands = m.commands ++ ran env as ∧ ran env as <+: plan paths device id
  wiped : ∃ wipe, as[0]? = some wipe ∧ wipe.machine.files = m.files
  zapped_iff : (∃ zap, as[1]? = some zap) ↔ ∃ wipe, as[0]? = some wipe ∧ wipe.succeeds env = true
  /-- The exit code of the zapping does not matter. -/
  formatted_iff : (∃ format, as[2]? = some format) ↔ ∃ zap m₁, as[1]? = some zap ∧
    (zap.call? env).isSome = true ∧ storing env paths id zap = (.ok (), m₁)
  opened_iff : (∃ unlock, as[3]? = some unlock) ↔ ∃ format, as[2]? = some format ∧
    format.succeeds env = true ∧
      ((format.after env).files.find (Path.join paths.mapper ("luks-" ++ id)) true).isOk = false
  stored : ∀ zap format, as[1]? = some zap → as[2]? = some format →
    Holds ((makeRoom (paths.keyFile id)).perform (zap.after env)).2.files format.machine.files
      (paths.keyFile id) (drawn env (zap.after env))
  succeeds_iff : (∃ record, r = .ok record) ↔ ∃ format, as[2]? = some format ∧
    format.succeeds env = true ∧ ∀ unlock, as[3]? = some unlock → unlock.succeeds env = true
  record : ∀ zap record, as[1]? = some zap → r = .ok record →
    record = ⟨id, paths.keyFile id, drawn env (zap.after env)⟩ ∧ record.key.size = 32
  /-- If the last tools leave the files alone, the key that is recorded is stored in the end, and
  nothing else has changed since the zapping. -/
  kept : ∀ zap record, as[1]? = some zap → r = .ok record →
    (∀ a ∈ as.drop 2, ∀ o t, env.tool a.machine a.command = some (o, t) → t = a.machine.files) →
    Keyed (zap.after env).files m'.files record.keyFile record.key
  marked_iff : ∀ e, r = .error e →
    (Marked e ↔ ∃ wipe, as[0]? = some wipe ∧ wipe.succeeds env = true)
  /-- A failure without a mark has changed nothing, whatever the wiping did. -/
  untouched : ∀ e, r = .error e → Unmarked e → m'.files = m.files ∨
    ∃ wipe o, as = [wipe] ∧ env.tool wipe.machine ⟨"wipefs", ["-a", device]⟩ = some (o, m'.files)

/-- Only the last tool may be missing. -/
theorem Encrypts.answered (h : Encrypts env paths device id m as r m') :
    ∀ a ∈ as.dropLast, (a.call? env).isSome = true := by
  cases h with
  | unwiped => simp
  | unzapped hwipe => simp [Attempt.isSome_call?_of_succeeds hwipe]
  | unstored hwipe => simp [Attempt.isSome_call?_of_succeeds hwipe]
  | unformatted hwipe hzap => simp [Attempt.isSome_call?_of_succeeds hwipe, hzap]
  | mapped hwipe hzap => simp [Attempt.isSome_call?_of_succeeds hwipe, hzap]
  | unopened hwipe hzap _ hformat =>
    simp [Attempt.isSome_call?_of_succeeds hwipe, hzap, Attempt.isSome_call?_of_succeeds hformat]
  | opened hwipe hzap _ hformat =>
    simp [Attempt.isSome_call?_of_succeeds hwipe, hzap, Attempt.isSome_call?_of_succeeds hformat]

theorem Encrypts.inOrder (h : Encrypts env paths device id m as r m') :
    InOrder env paths device id m as r m' where
  course := h.course
  asked := h.commands
  ran := by
    refine ⟨?_, (ran_prefix_of_answered h.answered).trans h.commands⟩
    rw [Machine.commands, h.course.calls fun _ _ hq => hq.calls, List.map_append]
    rfl
  wiped := by cases h <;> exact ⟨_, rfl, rfl⟩
  zapped_iff := by
    cases h with
    | unwiped hwipe => simp [Attempt.not_succeeds_of_checked hwipe]
    | unzapped hwipe => simp [hwipe]
    | unstored hwipe => simp [hwipe]
    | unformatted hwipe => simp [hwipe]
    | mapped hwipe => simp [hwipe]
    | unopened hwipe => simp [hwipe]
    | opened hwipe => simp [hwipe]
  formatted_iff := by
    cases h with
    | unwiped => simp
    | unzapped _ hzap => simp [← Attempt.isOk_answer, hzap, Except.isOk, Except.toBool]
    | unstored _ hzap hstore => simp [hzap, hstore]
    | unformatted _ hzap hstore => simp [hzap, hstore]
    | mapped _ hzap hstore => simp [hzap, hstore]
    | unopened _ hzap hstore => simp [hzap, hstore]
    | opened _ hzap hstore => simp [hzap, hstore]
  opened_iff := by
    have hhas (t : FileTree) : (t.find (Path.join paths.mapper ("luks-" ++ id)) true).isOk =
        t.has (paths.mappedDevice id) := rfl
    cases h with
    | unwiped => simp
    | unzapped => simp
    | unstored => simp
    | unformatted _ _ _ hformat => simp [Attempt.not_succeeds_of_checked hformat]
    | mapped _ _ _ hformat hformatted hmapped => simp [hhas, hformat, hformatted, hmapped]
    | unopened _ _ _ hformat hformatted hmapped => simp [hhas, hformat, hformatted, hmapped]
    | opened _ _ _ hformat hformatted hmapped => simp [hhas, hformat, hformatted, hmapped]
  stored := by
    have hstored {m₁ : Machine} (hstore : storing env paths id (zapping env device m) = (.ok (), m₁)) :
        Holds ((makeRoom (paths.keyFile id)).perform ((zapping env device m).after env)).2.files
          (formatting paths device id m₁).machine.files (paths.keyFile id)
          (drawn env ((zapping env device m).after env)) := by
      have hholds := holds_of_writeKey hstore
      rwa [← files_formatting paths device id m₁] at hholds
    cases h with
    | unwiped => simp
    | unzapped => simp
    | unstored => simp
    | unformatted _ _ hstore => simpa using hstored hstore
    | mapped _ _ hstore => simpa using hstored hstore
    | unopened _ _ hstore => simpa using hstored hstore
    | opened _ _ hstore => simpa using hstored hstore
  succeeds_iff := by
    cases h with
    | unwiped => simp
    | unzapped => simp
    | unstored => simp
    | unformatted _ _ _ hformat => simp [Attempt.not_succeeds_of_checked hformat]
    | mapped _ _ _ hformat => simp [hformat]
    | unopened _ _ _ hformat _ _ hopen => simp [Attempt.not_succeeds_of_checked hopen]
    | opened _ _ _ hformat _ _ hopen => simp [hformat, hopen]
  record := by
    cases h with
    | unwiped => simp
    | unzapped => simp
    | unstored => simp
    | unformatted => simp
    | mapped => simp [recordFor, size_drawn, keyLength]
    | unopened => simp
    | opened => simp [recordFor, size_drawn, keyLength]
  kept := by
    cases h with
    | unwiped => simp
    | unzapped => simp
    | unstored => simp
    | unformatted => simp
    | @mapped m₁ _ _ _ hstore _ hformatted =>
      rintro zap record ⟨⟩ ⟨⟩ htools
      have hfiles : m'.files = m₁.files := by
        rw [← hformatted]
        exact Attempt.files_after_of_kept (htools _ (by simp))
      rw [hfiles]
      exact keyed_of_storing hstore
    | unopened => simp
    | @opened m₁ m₂ _ _ hstore _ hformatted =>
      rintro zap record ⟨⟩ ⟨⟩ htools
      have hopened : ((opening paths device id m₂).after env).files = m₂.files :=
        Attempt.files_after_of_kept (htools _ (by simp))
      have hfiles : m₂.files = m₁.files := by
        rw [← hformatted]
        exact Attempt.files_after_of_kept (htools _ (by simp))
      rw [hopened, hfiles]
      exact keyed_of_storing hstore
  marked_iff := by
    have hmarked (e : Failure) : Marked (e.mark stepText) := Failure.isUntouched_mark stepText e
    cases h with
    | @unwiped e hwipe =>
      rintro _ ⟨⟩
      have hunmarked : Unmarked e := (wiping device m).unmarked_checked env e hwipe
      have hnot : ¬ Marked e := fun hmark => Bool.noConfusion (hunmarked.symm.trans hmark)
      simp [hnot, Attempt.not_succeeds_of_checked hwipe]
    | unzapped hwipe => simp [hwipe, hmarked]
    | unstored hwipe => simp [hwipe, hmarked]
    | unformatted hwipe => simp [hwipe, hmarked]
    | mapped hwipe => simp
    | unopened hwipe => simp [hwipe, hmarked]
    | opened hwipe => simp
  untouched := by
    have hmarked (e : Failure) : ¬ Unmarked (e.mark stepText) := by
      intro hunmarked
      rw [Unmarked, Failure.isUntouched_mark] at hunmarked
      cases hunmarked
    cases h with
    | unwiped hwipe =>
      intro e _ _
      rcases @Attempt.files_after env (wiping device m) with hsame | ⟨o, htool⟩
      · exact .inl hsame
      · exact .inr ⟨_, o, rfl, htool⟩
    | unzapped => simp [hmarked]
    | unstored => simp [hmarked]
    | unformatted => simp [hmarked]
    | mapped => simp
    | unopened => simp [hmarked]
    | opened => simp

/-- An encryption is refused for the path of its drive and does nothing, or it keeps to its order. -/
theorem encrypt_in_order (env : Environment) (paths : Paths) (device : String) (m : Machine) :
    (∃ e, paths.stableId device = .error e ∧ Unmarked e ∧
      (encrypt env paths device).perform m = (.error e, m)) ∨
    ∃ id as, paths.stableId device = .ok id ∧
      InOrder env paths device id m as ((encrypt env paths device).perform m).1
        ((encrypt env paths device).perform m).2 := by
  cases hid : paths.stableId device with
  | error e =>
    refine .inl ⟨e, rfl, unmarked_stableId paths device e hid, ?_⟩
    rw [encrypt, Action.perform_bind_of_error _ (by rw [Action.perform_ofExcept, hid])]
  | ok id =>
    obtain ⟨as, hencrypts⟩ := encrypts_encrypt hid m
    exact .inr ⟨id, as, rfl, hencrypts.inOrder⟩

end Groundwork.Encryption
