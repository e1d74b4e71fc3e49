import Groundwork.Encryption
import Groundwork.Machine.Scripted
import Groundwork.Proofs.Course
import Groundwork.Proofs.FileTree.Room
import Groundwork.Proofs.Registry

/-! What a failed import of a drive leaves behind. Its key is stored before the drive is tried, and
taken away again when the drive does not open; a key that it replaced does not come back. -/
namespace Groundwork

variable {env : Environment} {paths : Paths} {m m' : Machine} {path device id keyText : String}
  {key : ByteArray} {place : Location} {e : Failure}

/-- Whether a place holds the same file or link in two trees, or neither in both of them. -/
def FileTree.KeepsFile (t t' : FileTree) (place : Location) : Prop :=
  ∀ n, n.isDirectory = false → (t'.node? place = some n ↔ t.node? place = some n)

theorem FileTree.Grown.keepsFile {t t' : FileTree} (h : Grown t t') (place : Location) :
    KeepsFile t t' place := fun _ hn => h.node?_eq_some_iff hn

namespace Encryption

/-! ### The steps of an import -/

theorem grown_makeRoom (path : String) (m : Machine) :
    FileTree.Grown m.files ((makeRoom path).perform m).2.files := by
  have hgrown := FileTree.grown_makePath m.files (roomOf path)
  unfold makeRoom
  rw [Action.perform_bind, Action.perform_makePath]
  cases (m.files.makePath (roomOf path)).2 with
  | error e => simpa only [Action.error_mapError] using hgrown
  | ok _ => simpa only [Action.ok_mapError, Action.perform_consult] using hgrown

theorem mechanical_makeRoom (path : String) :
    Action.FailsOnly Failure.Mechanical (makeRoom path) :=
  (Action.mechanical_makePath _).bind fun _ => Action.mechanical_consult _

/-- A key is put in the place of what was there, or only directories are made. -/
theorem perform_writeKey (path : String) (key : ByteArray) (m : Machine) :
    (∃ e m', (writeKey path key).perform m = (.error e, m') ∧ e.isUntouched = true ∧
      FileTree.Grown m.files m'.files ∧
      ∀ m₁, (makeRoom path).perform m = (.ok (), m₁) → ∃ cause,
        m₁.files.replace path key keyMode = .error cause) ∨
    ∃ m₁ place, (makeRoom path).perform m = (.ok (), m₁) ∧
      m₁.files.locate path false = .ok place ∧ m₁.files.node? place ≠ some .directory ∧
      (writeKey path key).perform m =
        (.ok (), m₁.wrote path (m₁.files.set place (.file key keyMode))) := by
  have hgrown := grown_makeRoom path m
  have hunmarked := (mechanical_makeRoom path).unmarked m
  unfold writeKey
  rw [Action.perform_bind]
  cases hroom : (makeRoom path).perform m with
  | mk r m₁ =>
    rw [hroom] at hgrown hunmarked
    cases r with
    | error e =>
      refine .inl ⟨e, m₁, rfl, hunmarked e rfl, hgrown, ?_⟩
      intro m₂ h
      cases h
    | ok _ =>
      dsimp only
      rw [Action.perform_alter]
      cases hreplace : m₁.files.replace path key keyMode with
      | error cause =>
        refine .inl ⟨_, m₁, rfl, rfl, hgrown, ?_⟩
        intro m₂ h
        cases h
        exact ⟨cause, hreplace⟩
      | ok t =>
        obtain ⟨place, hl, hp, rfl⟩ := FileTree.replace_eq_ok hreplace
        exact .inr ⟨m₁, place, rfl, hl, hp, rfl⟩

/-- The attempt to open a drive. -/
def opening (paths : Paths) (device id : String) (m : Machine) : Attempt :=
  ⟨m.record (.logged .info s!"Unlocking {device} as {Paths.mappedName id}"),
    openCommand paths device id⟩

theorem openCommand_inj {id id' device device' : String}
    (h : openCommand paths device id = openCommand paths device' id') : id = id' := by
  have hmapped := congrArg (·.arguments.getLast?) h
  exact (String.append_right_inj "luks-").1 (Option.some.inj hmapped)

theorem perform_unlock (device id : String) (m : Machine) :
    (unlock env paths device id).perform m =
      if m.files.has (paths.mappedDevice id) then (.ok (), m)
      else (((opening paths device id m).checked env).map fun _ => (),
        (opening paths device id m).after env) := by
  unfold unlock
  rw [Action.perform_bind_of_ok _ (Action.perform_get m)]
  split
  · rfl
  · rw [Action.perform_bind_of_ok _ (Action.perform_logInfo _ m), Action.perform_bind,
      Action.perform_runChecked, opening]
    cases Attempt.checked env ⟨_, openCommand paths device id⟩ <;> rfl

/-- A drive that does not open leaves the files alone if the tool does. -/
theorem unlock_eq_error
    (htool : ∀ m o t, env.tool m (openCommand paths device id) = some (o, t) → t = m.files)
    (h : (unlock env paths device id).perform m = (.error e, m')) :
    m'.files = m.files ∧ e.isUntouched = true := by
  rw [perform_unlock] at h
  split at h
  · cases h
  · obtain ⟨hr, rfl⟩ := Prod.mk.inj h
    refine ⟨Attempt.files_after_of_kept fun o t => htool _ o t, ?_⟩
    have hunmarked := (opening paths device id m).unmarked_checked env
    exact (hunmarked.map _) e hr

/-- The files after a key was taken away, if it could be. -/
theorem perform_dropKey (keyFile : String) (m : Machine) : ∃ m',
    (dropKey keyFile).perform m = (.ok (), m') ∧ m'.calls = m.calls ∧
      m'.files = ((m.files.unlink keyFile).toOption.getD m.files) := by
  unfold dropKey
  rw [Action.perform_bind_of_ok _ (Action.perform_attempt _ m), Action.perform_alter]
  cases m.files.unlink keyFile with
  | error e => exact ⟨_, rfl, by simp [Machine.calls], rfl⟩
  | ok t => exact ⟨_, rfl, Machine.calls_wrote m keyFile t, rfl⟩

/-- The trial of a key that is stored, which is taken away if the drive does not open. -/
def trial (env : Environment) (paths : Paths) (device id : String) : Action Unit := do
  match ← Action.attempt (unlock env paths device id) with
  | .ok () => return
  | .error e =>
    dropKey (paths.keyFile id)
    throw e

theorem importDrive_eq : importDrive env paths device keyText = (do
    let id ← Action.ofExcept (paths.stableId device)
    let key ← Action.ofExcept (decodeKey keyText)
    writeKey (paths.keyFile id) key
    trial env paths device id) := rfl

theorem trial_eq_error
    (htool : ∀ m o t, env.tool m (openCommand paths device id) = some (o, t) → t = m.files)
    (h : (trial env paths device id).perform m = (.error e, m')) : e.isUntouched = true ∧
      m'.files = (m.files.unlink (paths.keyFile id)).toOption.getD m.files := by
  rw [trial, Action.perform_bind_of_ok _ (Action.perform_attempt _ m)] at h
  cases hunlock : (unlock env paths device id).perform m with
  | mk r m₁ =>
    rw [hunlock] at h
    cases r with
    | ok _ => cases h
    | error e' =>
      obtain ⟨hfiles, hunmarked⟩ := unlock_eq_error htool hunlock
      obtain ⟨m₂, hdrop, -, hdropped⟩ := perform_dropKey (paths.keyFile id) m₁
      simp only [Action.perform_bind_of_ok _ hdrop, Action.perform_throw] at h
      cases h
      rw [hdropped, hfiles]
      exact ⟨hunmarked, rfl⟩

/-! ### Failures -/

theorem unmarked_stableId (paths : Paths) (device : String) :
    FailsOnly Unmarked (paths.stableId device) := by
  unfold Paths.stableId
  split
  · exact .ok _
  · exact .error rfl

theorem failsOnly_decodeKey {P : Failure → Prop} (hspelling : ∀ why, P (.invalidInput why))
    (hlength : ∀ n, P (.invalidKeyLength n)) (keyText : String) :
    FailsOnly P (decodeKey keyText) := by
  unfold decodeKey
  split
  · exact .error (hspelling _)
  · split
    · exact .ok _
    · exact .error (hlength _)

theorem unmarked_decodeKey (keyText : String) : FailsOnly Unmarked (decodeKey keyText) :=
  failsOnly_decodeKey (fun _ => rfl) (fun _ => rfl) keyText

/-- The ID of a drive, the key for it, and the machine on which there is room for the key. -/
structure Stores (paths : Paths) (m : Machine) (device keyText id : String) (key : ByteArray)
    (m₁ : Machine) : Prop where
  drive : paths.stableId device = .ok id
  spelled : decodeKey keyText = .ok key
  room : (makeRoom (paths.keyFile id)).perform m = (.ok (), m₁)

/-- Whether storing a drive's key takes the place of something that stood there. -/
def Replaces (paths : Paths) (m : Machine) (device keyText : String) (place : Location) : Prop :=
  ∃ id key m₁ n, Stores paths m device keyText id key m₁ ∧
    m₁.files.find (paths.keyFile id) false = .ok (place, n) ∧ n.isDirectory = false

namespace Stores

variable {m₁ : Machine} {t : FileTree} {q : Location}

theorem replaces_iff (h : Stores paths m device keyText id key m₁) :
    Replaces paths m device keyText place ↔
      ∃ n, m₁.files.find (paths.keyFile id) false = .ok (place, n) ∧ n.isDirectory = false := by
  constructor
  · rintro ⟨id', key', m₂, n, h', hfind, hn⟩
    have hdrive := h'.drive
    rw [h.drive] at hdrive
    cases hdrive
    have hroom := h'.room
    rw [h.room] at hroom
    cases hroom
    exact ⟨n, hfind, hn⟩
  · rintro ⟨n, hfind, hn⟩
    exact ⟨id, key, m₁, n, h, hfind, hn⟩

theorem grown (h : Stores paths m device keyText id key m₁) :
    FileTree.Grown m.files m₁.files := by
  have hgrown := grown_makeRoom (paths.keyFile id) m
  rwa [h.room] at hgrown

/-- When the key has been stored and taken away again, a file is kept unless the key replaced it. -/
theorem keepsFile_iff (h : Stores paths m device keyText id key m₁) (hg : m.files.Grounded)
    (hl : m₁.files.locate (paths.keyFile id) false = .ok place)
    (hp : m₁.files.node? place ≠ some .directory)
    (ht : t = m₁.files.set place (.file key keyMode)) (q : Location) :
    FileTree.KeepsFile m.files ((t.unlink (paths.keyFile id)).toOption.getD t) q ↔
      ¬ Replaces paths m device keyText q := by
  obtain ⟨hothers, hplace⟩ := FileTree.node?_unlink_set (h.grown.grounded hg) hl hp key keyMode
  rw [← ht] at hothers hplace
  rw [h.replaces_iff]
  by_cases hq : q = place
  · subst hq
    constructor
    · rintro hkeeps ⟨n, hfind, hn⟩
      obtain ⟨-, hold⟩ := FileTree.find_eq_ok.1 hfind
      have hafter := (hkeeps n hn).2 ((h.grown.node?_eq_some_iff hn).1 hold)
      rcases hplace with hnone | ⟨⟨target, hlink⟩, hnew⟩
      · rw [hnone] at hafter
        cases hafter
      · rw [hold] at hlink
        cases hlink
        rw [hnew] at hafter
        cases hafter
    · intro hnew n hn
      rw [← h.grown.node?_eq_some_iff hn]
      rcases hplace with hgone | ⟨⟨target, hlink⟩, -⟩
      · rw [hgone]
        refine iff_of_false (by simp) fun hold => hnew ⟨n, FileTree.find_eq_ok.2 ⟨hl, hold⟩, hn⟩
      · exact (hnew ⟨.link target, FileTree.find_eq_ok.2 ⟨hl, hlink⟩, rfl⟩).elim
  · refine iff_of_true ?_ ?_
    · intro n hn
      rw [hothers q hq]
      exact h.grown.node?_eq_some_iff hn
    · rintro ⟨n, hfind, -⟩
      rw [(FileTree.find_eq_ok.1 hfind).1] at hl
      exact hq (Except.ok.inj hl)

end Stores

/-- A key that is not stored replaces nothing. -/
theorem not_replaces (h : ∀ id key m₁, ¬ Stores paths m device keyText id key m₁)
    (place : Location) : ¬ Replaces paths m device keyText place := by
  rintro ⟨id, key, m₁, _, hstores, -⟩
  exact h id key m₁ hstores

/-- A key is stored in its place, or it replaces nothing. -/
theorem store_cases (hid : paths.stableId device = .ok id) (hkey : decodeKey keyText = .ok key)
    (m : Machine) :
    (∃ e m', (writeKey (paths.keyFile id) key).perform m = (.error e, m') ∧ e.isUntouched = true ∧
      FileTree.Grown m.files m'.files ∧ ∀ place, ¬ Replaces paths m device keyText place) ∨
    ∃ m₁ place, Stores paths m device keyText id key m₁ ∧
      m₁.files.locate (paths.keyFile id) false = .ok place ∧
      m₁.files.node? place ≠ some .directory ∧
      (writeKey (paths.keyFile id) key).perform m =
        (.ok (), m₁.wrote (paths.keyFile id) (m₁.files.set place (.file key keyMode))) := by
  rcases perform_writeKey (paths.keyFile id) key m with
    ⟨e, m', hwrite, hunmarked, hgrown, hfails⟩ | ⟨m₁, place, hroom, hl, hp, hwrite⟩
  · refine .inl ⟨e, m', hwrite, hunmarked, hgrown, ?_⟩
    rintro place ⟨id', _, m₁, n, hstores, hfind, hn⟩
    have hdrive := hstores.drive
    rw [hid] at hdrive
    cases hdrive
    obtain ⟨cause, hcause⟩ := hfails m₁ hstores.room
    rw [FileTree.replace_of_find hfind hn] at hcause
    cases hcause
  · exact .inr ⟨m₁, place, ⟨hid, hkey, hroom⟩, hl, hp, hwrite⟩

/-- A failed import has no mark, and it keeps a file if and only if storing the key did not take its
place. So all files are as before if and only if the drive had no key, or the failure came before
its key was replaced. -/
theorem import_failure (hg : m.files.Grounded)
    (htool : ∀ id m o t, env.tool m (openCommand paths device id) = some (o, t) → t = m.files)
    (h : (importDrive env paths device keyText).perform m = (.error e, m')) :
    e.isUntouched = true ∧ ∀ place,
      FileTree.KeepsFile m.files m'.files place ↔ ¬ Replaces paths m device keyText place := by
  have hbefore (hgrown : FileTree.Grown m.files m'.files)
      (hnot : ∀ place, ¬ Replaces paths m device keyText place) (place : Location) :
      FileTree.KeepsFile m.files m'.files place ↔ ¬ Replaces paths m device keyText place :=
    iff_of_true (hgrown.keepsFile place) (hnot place)
  rw [importDrive_eq, Action.perform_bind, Action.perform_ofExcept] at h
  cases hid : paths.stableId device with
  | error e' =>
    rw [hid] at h
    cases h
    refine ⟨unmarked_stableId paths device e hid, hbefore (.refl _) (not_replaces ?_)⟩
    intro id key m₁ hstores
    cases hid.symm.trans hstores.drive
  | ok id =>
    simp only [hid, Action.perform_bind, Action.perform_ofExcept] at h
    cases hkey : decodeKey keyText with
    | error e' =>
      rw [hkey] at h
      cases h
      refine ⟨unmarked_decodeKey keyText e hkey, hbefore (.refl _) (not_replaces ?_)⟩
      intro id key m₁ hstores
      cases hkey.symm.trans hstores.spelled
    | ok key =>
      simp only [hkey] at h
      rcases store_cases hid hkey m with
        ⟨e', m₁, hwrite, hunmarked, hgrown, hnot⟩ | ⟨m₁, place, hstores, hl, hp, hwrite⟩
      · rw [hwrite] at h
        cases h
        exact ⟨hunmarked, hbefore hgrown hnot⟩
      · rw [hwrite] at h
        obtain ⟨hunmarked, hfiles⟩ := trial_eq_error (htool id) h
        refine ⟨hunmarked, fun q => ?_⟩
        rw [hfiles, Machine.files_wrote]
        exact hstores.keepsFile_iff hg hl hp rfl q

/-! ### A key that is lost -/

/-- No drive opens with any key. -/
def lockedEnvironment : Environment :=
  Script.environment {
    registry := fun _ => .sample
    answers := [(⟨"cryptsetup", ["open"]⟩,
      ⟨some 2, "", "No key available with this passphrase."⟩)] } "/usr/bin/strata"

def keyPlace : Location := ["var", "lib", "strata", "luks.disk.key"]

/-- A machine that holds the key of a drive. -/
def keyedMachine : Machine :=
  ⟨⟨[(["var"], .directory), (["var", "lib"], .directory), (["var", "lib", "strata"], .directory),
    (keyPlace, .file "key".toUTF8 keyMode)], []⟩, [], []⟩

def zeroKey : String := "AAAAAAAAAAAAAAAAAAAAAAAAAAAAAAAAAAAAAAAAAAA="

theorem grounded_keyedMachine : keyedMachine.files.Grounded := by
  refine FileTree.grounded_of_nodes ?_
  intro e he
  simp only [keyedMachine, List.mem_cons, List.not_mem_nil, or_false] at he
  rcases he with rfl | rfl | rfl | rfl <;> rfl

theorem import_keyedMachine : ∃ e m',
    (importDrive lockedEnvironment {} "/dev/disk/by-id/disk" zeroKey).perform keyedMachine =
      (.error e, m') ∧ e.isUntouched = true ∧ m'.files.node? keyPlace = none := by
  have hends : (match (importDrive lockedEnvironment {} "/dev/disk/by-id/disk" zeroKey).perform
      keyedMachine with
    | (.ok _, _) => false
    | (.error e, m') => e.isUntouched && (m'.files.node? keyPlace).isNone) = true := by
    decide +kernel
  cases hrun : (importDrive lockedEnvironment {} "/dev/disk/by-id/disk" zeroKey).perform
      keyedMachine with
  | mk r m' =>
    rw [hrun] at hends
    cases r with
    | ok _ => cases hends
    | error e =>
      obtain ⟨hunmarked, hgone⟩ := Bool.and_eq_true_iff.1 hends
      exact ⟨e, m', rfl, hunmarked, Option.isNone_iff_eq_none.1 hgone⟩

/-- The key that was there before is gone, after a failure that tells of no change. -/
theorem failed_import_loses_key : ∃ e m',
    (importDrive lockedEnvironment {} "/dev/disk/by-id/disk" zeroKey).perform keyedMachine =
      (.error e, m') ∧ e.isUntouched = true ∧
    ¬ FileTree.KeepsFile keyedMachine.files m'.files keyPlace := by
  obtain ⟨e, m', hrun, hunmarked, hgone⟩ := import_keyedMachine
  refine ⟨e, m', hrun, hunmarked, ?_⟩
  intro hkeeps
  have hafter := (hkeeps (.file "key".toUTF8 keyMode) rfl).2 rfl
  rw [hgone] at hafter
  cases hafter

theorem import_failure_keyedMachine : ∃ e m',
    (importDrive lockedEnvironment {} "/dev/disk/by-id/disk" zeroKey).perform keyedMachine =
      (.error e, m') ∧ e.isUntouched = true ∧ ∀ place,
    FileTree.KeepsFile keyedMachine.files m'.files place ↔
      ¬ Replaces {} keyedMachine "/dev/disk/by-id/disk" zeroKey place := by
  obtain ⟨e, m', hrun, -⟩ := import_keyedMachine
  have htool (id : String) (m : Machine) (o : Output) (t : FileTree)
      (h : lockedEnvironment.tool m (openCommand {} "/dev/disk/by-id/disk" id) = some (o, t)) :
      t = m.files := by
    cases h
    rfl
  have hfailure := import_failure grounded_keyedMachine htool hrun
  exact ⟨e, m', hrun, hfailure⟩

end Encryption

end Groundwork
