import Groundwork.Proofs.CommandLine.Session
import Groundwork.Proofs.Install.Seeds
import Groundwork.Proofs.Spared

/-! The decision that the daemon takes when the machine has started: whether the boot media asks for an
installation. Media that cannot be read asks for none. -/
namespace Groundwork

variable {α : Type} {env : Environment} {config : Config} {t : FileTree} {bundle : Bundle}
  {options : InstallOptions}

/-! ### The request on the boot media -/

/-- Whether the seeds ask for an installation. Of the files of the seed the first one counts, in the
format of its own extension. -/
inductive Bundle.Requests (b : Bundle) (options : InstallOptions) : Prop
  | json {payload : ByteArray} (hfile : b.files.get? "install.json" = some payload)
    (hread : InstallOptions.ofJson payload.toList = .ok options)
  | yaml {payload : ByteArray} (hjson : b.files.get? "install.json" = none)
    (hfile : b.files.get? "install.yaml" = some payload)
    (hread : InstallOptions.ofYaml payload = .ok options)
  | yml {payload : ByteArray} (hjson : b.files.get? "install.json" = none)
    (hyaml : b.files.get? "install.yaml" = none)
    (hfile : b.files.get? "install.yml" = some payload)
    (hread : InstallOptions.ofYaml payload = .ok options)

theorem Bundle.get?_installSeed (b : Bundle) : b.get? Source.installSeed =
    ((b.files.get? "install.json").map ("install.json", ·)).or
      (((b.files.get? "install.yaml").map ("install.yaml", ·)).or
        ((b.files.get? "install.yml").map ("install.yml", ·))) := by
  have hjson : Seed.fileName Source.installSeed "json" = "install.json" := by decide
  have hyaml : Seed.fileName Source.installSeed "yaml" = "install.yaml" := by decide
  have hyml : Seed.fileName Source.installSeed "yml" = "install.yml" := by decide
  simp only [get?, Seed.extensions, List.findSome?_cons, List.findSome?_nil, hjson, hyaml, hyml]
  cases b.files.get? "install.json" <;> cases b.files.get? "install.yaml" <;>
    cases b.files.get? "install.yml" <;> rfl

theorem Bundle.requests_iff : bundle.installOptions? Source.installSeed = .ok (some options) ↔
    bundle.Requests options := by
  obtain ⟨hsplit, hsplit', hsplit''⟩ : Seed.splitName? "install.json" = some ("install", "json") ∧
      Seed.splitName? "install.yaml" = some ("install", "yaml") ∧
      Seed.splitName? "install.yml" = some ("install", "yml") := by decide +kernel
  have hread {ε : Type} {r : Except ε InstallOptions} {f : ε → Failure} :
      (r.map some).mapError f = .ok (some options) ↔ r = .ok options := by
    cases r <;> simp [Except.map]
  have hcause {r : Except Json.Error InstallOptions} :
      r.mapError Json.Error.message = .ok options ↔ r = .ok options := by
    cases r <;> simp
  unfold installOptions?
  rw [get?_installSeed]
  constructor
  · intro h
    cases hjson : bundle.files.get? "install.json" with
    | some payload =>
      simp only [hjson, Option.map_some, Option.some_or, hsplit, hread, hcause] at h
      exact .json hjson h
    | none =>
      cases hyaml : bundle.files.get? "install.yaml" with
      | some payload =>
        simp only [hjson, hyaml, Option.map_some, Option.map_none, Option.none_or, Option.some_or,
          hsplit', hread] at h
        exact .yaml hjson hyaml h
      | none =>
        cases hyml : bundle.files.get? "install.yml" with
        | some payload =>
          simp only [hjson, hyaml, hyml, Option.map_some, Option.map_none, Option.none_or, hsplit'',
            hread] at h
          exact .yml hjson hyaml hyml h
        | none =>
          rw [hjson, hyaml, hyml] at h
          cases h
  · rintro (⟨hfile, h⟩ | ⟨hjson, hfile, h⟩ | ⟨hjson, hyaml, hfile, h⟩)
    · simp only [hfile, Option.map_some, Option.some_or, hsplit]
      exact hread.2 (hcause.2 h)
    · simp only [hjson, hfile, Option.map_some, Option.map_none, Option.none_or, Option.some_or,
        hsplit']
      exact hread.2 h
    · simp only [hjson, hyaml, hfile, Option.map_some, Option.map_none, Option.none_or, hsplit'']
      exact hread.2 h

/-- What does not begin like an archive asks for nothing. -/
theorem Bundle.not_requests_of_not_hasMagic {bytes : ByteArray}
    (hmagic : Archive.hasMagic bytes = false) (h : ofBytes bytes = .ok bundle) :
    ¬ bundle.Requests options := by
  cases (Install.ofBytes_of_not_archive hmagic).symm.trans h
  rintro (⟨hfile, -⟩ | ⟨-, hfile, -⟩ | ⟨-, -, hfile, -⟩) <;> cases hfile

namespace Source

theorem optionsOn_eq_some_iff {partition : String} :
    optionsOn t partition = .ok (some options) ↔ ∃ bytes bundle, t.read partition = .ok bytes ∧
      Bundle.ofBytes bytes = .ok bundle ∧ bundle.Requests options := by
  unfold optionsOn
  cases hbundle : Bundle.onPartition t partition with
  | ok bundle =>
    obtain ⟨bytes, hread, hbytes⟩ := Bundle.onPartition_eq_ok.1 hbundle
    constructor
    · intro h
      exact ⟨bytes, bundle, hread, hbytes, Bundle.requests_iff.1 h⟩
    · rintro ⟨bytes', bundle', hread', hbytes', hrequests⟩
      cases hread.symm.trans hread'
      cases hbytes.symm.trans hbytes'
      exact Bundle.requests_iff.2 hrequests
  | error e =>
    constructor
    · intro h
      cases e with
      | system e =>
        dsimp only at h
        split at h <;> cases h
      | _ => cases h
    · rintro ⟨bytes, bundle, hread, hbytes, -⟩
      cases hbundle.symm.trans (Bundle.onPartition_eq_ok.2 ⟨bytes, hread, hbytes⟩)

/-- Whether the boot media asks for an installation. -/
def Pending (env : Environment) (config : Config) (t : FileTree) (options : InstallOptions) : Prop :=
  ∃ source bytes bundle, Detected env config t source ∧
    t.read (partitionPath source.device config.layout.seed) = .ok bytes ∧
    Bundle.ofBytes bytes = .ok bundle ∧ bundle.Requests options

/-- The look for a request never fails. -/
theorem perform_pendingInstall (env : Environment) (config : Config) (m : Machine) :
    ∃ request? m', (pendingInstall env config).perform m = (.ok request?, m') ∧
      m.Spared env (fun _ => False) m' ∧
      ∀ options, request? = some options ↔ Pending env config m.files options := by
  have hlogged (level : Level) (text : String) (m : Machine) :
      m.Spared env (fun _ => False) (m.record (.logged level text)) :=
    .record (v := .logged level text) trivial m
  unfold pendingInstall
  rw [Action.perform_bind, Action.perform_attempt]
  rcases @detect_cases env config m with ⟨source, text, h, hdetected⟩ | ⟨e, h, -, hnone⟩
  · have hlook : (Action.attempt (source.installOptions config)).perform
        (m.record (.logged .info text)) =
          (.ok (optionsOn m.files (partitionPath source.device config.layout.seed)),
            m.record (.logged .info text)) := rfl
    have hpending (options : InstallOptions) : Pending env config m.files options ↔
        optionsOn m.files (partitionPath source.device config.layout.seed) = .ok (some options) := by
      rw [optionsOn_eq_some_iff]
      constructor
      · rintro ⟨source', bytes, bundle, hdetected', hrest⟩
        cases hdetected.unique hdetected'
        exact ⟨bytes, bundle, hrest⟩
      · rintro ⟨bytes, bundle, hrest⟩
        exact ⟨source, bytes, bundle, hdetected, hrest⟩
    rw [h]
    dsimp only
    rw [Action.perform_bind_of_ok _ hlook]
    cases hoptions : optionsOn m.files (partitionPath source.device config.layout.seed) with
    | ok request? =>
      refine ⟨request?, _, rfl, hlogged _ _ _, fun options => ?_⟩
      rw [hpending, hoptions, Except.ok.injEq]
    | error e =>
      refine ⟨none, _, rfl, (hlogged _ _ _).trans (hlogged .warning _ _), fun options => ?_⟩
      rw [hpending, hoptions]
      simp
  · rw [h]
    refine ⟨none, _, rfl, hlogged .warning _ m, fun options => ⟨nofun, ?_⟩⟩
    rintro ⟨source, -, -, hdetected, -⟩
    exact absurd hdetected (hnone source)

end Source

/-! ### A machine without a request -/

namespace Boot

/-- The commands of a machine that is installed already: they unlock a drive with its stored key, list
the pools, and read the status of one. -/
inductive Serves (paths : Paths) : Command → Prop
  | unlock (device id : String) : Serves paths
    ⟨"cryptsetup", ["open", "--type=luks", "-d", paths.keyFile id, device, "luks-" ++ id]⟩
  | list : Serves paths ⟨"zpool", ["list", "-H", "-o", "name"]⟩
  | status (pool : String) : Serves paths ⟨"zpool", ["status", "-j", "--json-int", pool]⟩

variable {paths : Paths} {watch : PoolWatch}

/-- Whether nothing comes of a step but commands of a machine that is installed. -/
abbrev Quiet (env : Environment) (paths : Paths) (a : Action α) : Prop :=
  a.Within (Machine.Spared env (Serves paths))

namespace Quiet

theorem bind {β : Type} {a : Action α} {f : α → Action β} (ha : Quiet env paths a)
    (hf : ∀ x, Quiet env paths (f x)) : Quiet env paths (a >>= f) :=
  Action.Within.bind (Machine.Spared.chains env (Serves paths)) ha hf

theorem still {a : Action α} (h : ∀ m, (a.perform m).2 = m) : Quiet env paths a :=
  Machine.Spared.still h

theorem logged (level : Level) (text : String) :
    Quiet env paths (Action.note (.logged level text)) :=
  Machine.Spared.logged level text

theorem runChecked {c : Command} (hc : Serves paths c) : Quiet env paths (Action.runChecked env c) :=
  Machine.Spared.runChecked hc

end Quiet

open Quiet

theorem quiet_unlock (device id : String) :
    Quiet env paths (Encryption.unlock env paths device id) := by
  refine (still fun _ => rfl).bind fun m => ?_
  split
  · exact still fun _ => rfl
  · exact (logged _ _).bind fun _ => (runChecked (.unlock device id)).bind fun _ => still fun _ => rfl

theorem quiet_decryptDrive (id : String) :
    Quiet env paths (Encryption.decryptDrive env paths id) := by
  refine (still fun _ => rfl).bind fun m => ?_
  split
  · exact (logged _ _).bind fun _ => still fun _ => rfl
  · have hattempt : Quiet env paths (Action.attempt
        (Encryption.unlock env paths (Path.join paths.byId id) id)) :=
      Action.Within.attempt (quiet_unlock _ id)
    refine hattempt.bind fun r => ?_
    cases r with
    | ok _ => exact still fun _ => rfl
    | error e => exact (logged _ _).bind fun _ => still fun _ => rfl

theorem quiet_unlockDrives : Quiet env config.paths (unlockDrives env config) := by
  have hstored : Quiet env config.paths (Encryption.storedIds config.paths) := still fun _ => rfl
  have hdecrypt : Quiet env config.paths (Encryption.decryptDrives env config.paths) :=
    hstored.bind fun ids => Action.Within.filterM (Machine.Spared.chains _ _) quiet_decryptDrive ids
  exact hdecrypt.bind fun _ => logged _ _

theorem quiet_check (pool : String) : Quiet env paths (Pool.check env pool) := by
  have hhealth : Quiet env paths (Pool.health env pool) :=
    (runChecked (.status pool)).bind fun _ =>
      bind (Action.Within.ofExcept (Machine.Spared.chains _ _) _) fun _ => still fun _ => rfl
  refine bind (Action.Within.attempt hhealth) fun r => ?_
  split
  · exact still fun _ => rfl
  · exact (logged _ _).bind fun _ => still fun _ => rfl
  · exact (logged _ _).bind fun _ => still fun _ => rfl

theorem quiet_logHealth : Quiet env paths (Pool.logHealth env watch) := by
  have hnames : Quiet env paths (Pool.names env watch) :=
    (runChecked .list).bind fun _ => still fun _ => rfl
  have hchecks (names : List String) : Quiet env paths (names.mapM (Pool.check env)) :=
    Action.Within.mapM (Machine.Spared.chains _ _) quiet_check names
  have hpoll : Quiet env paths (Pool.poll env watch) :=
    hnames.bind fun names => (hchecks names).bind fun _ => still fun _ => rfl
  exact hpoll.bind fun _ => Action.Within.forM (Machine.Spared.chains _ _) fun _ _ => logged _ _

theorem quiet_serve : Quiet env config.paths (serve env config true) :=
  quiet_unlockDrives.bind fun _ => quiet_logHealth

end Boot

theorem pending_diskMachine_iff {seed : ByteArray} :
    Source.Pending Install.damagedEnvironment {} (Install.diskMachine seed).files options ↔
      ∃ bundle, Bundle.ofBytes seed = .ok bundle ∧ bundle.Requests options := by
  have hdetect : Action.Yields (Install.diskMachine seed).files
      (Source.detect Install.damagedEnvironment {}) Install.damagedPlan.source
      (Install.diskMachine seed).files :=
    @Install.yields_detect_damagedEnvironment _ ["boot"] 8 rfl
  obtain ⟨m₁, hsource, -⟩ := hdetect (Install.diskMachine seed) rfl
  have hdetected := Source.detected_of_detect hsource
  have hread := (Install.read_diskFiles "boot".toUTF8 seed "older".toUTF8 .empty).2.1
  constructor
  · rintro ⟨source, bytes, bundle, hdetected', hfound, hbytes, hrequests⟩
    cases hdetected.unique hdetected'
    cases hread.symm.trans hfound
    exact ⟨bundle, hbytes, hrequests⟩
  · rintro ⟨bundle, hbytes, hrequests⟩
    exact ⟨_, seed, bundle, hdetected, hread, hbytes, hrequests⟩

end Groundwork
