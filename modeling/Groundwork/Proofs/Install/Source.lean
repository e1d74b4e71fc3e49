import Groundwork.Install.Source
import Groundwork.Proofs.Registry

/-! The media that the running system was booted from. It is made out by looking at the files and the
registry, and only what was found is recorded. -/
namespace Groundwork

variable {env : Environment} {config : Config}

theorem perform_systemDisk (paths : Paths) (m : Machine) : (systemDisk env paths).perform m =
    ((env.registry m.files).underlyingDevice (paths.anchor.getD env.program) paths.deviceRoot, m) :=
  rfl

theorem perform_isReadOnly (directory : String) (m : Machine) :
    (isReadOnly env directory).perform m =
      (((m.files.scratch directory).mapError .system).map fun _ => env.isSealed directory, m) := by
  unfold isReadOnly
  rw [Action.perform_bind, Action.perform_consult]
  cases m.files.scratch directory <;> rfl

namespace Source

/-- What the files tell of the boot media. -/
inductive Detected (env : Environment) (config : Config) (t : FileTree) : Source → Prop
  | optical (hmount : t.has config.paths.bootMount = false)
    (hdrive : t.has config.paths.opticalDevice = true) :
    Detected env config t ⟨config.paths.opticalMapped, true, true⟩
  | plain {device : String}
    (hplain : t.has config.paths.bootMount = true ∨ t.has config.paths.opticalDevice = false)
    (hdevice : (env.registry t).underlyingDevice (config.paths.anchor.getD env.program)
      config.paths.deviceRoot = .ok device)
    (hmount : t.scratch config.paths.bootMount = .ok ()) :
    Detected env config t ⟨device, env.isSealed config.paths.bootMount, false⟩

theorem Detected.unique {t : FileTree} {source source' : Source}
    (h : Detected env config t source) (h' : Detected env config t source') : source' = source := by
  cases h with
  | optical hmount hdrive =>
    cases h' with
    | optical => rfl
    | plain hplain => simp [hmount, hdrive] at hplain
  | plain hplain hdevice =>
    cases h' with
    | optical hmount hdrive => simp [hmount, hdrive] at hplain
    | plain _ hdevice' => rw [Except.ok.inj (hdevice'.symm.trans hdevice)]

theorem Detected.exists_device {t : FileTree} {source : Source} (h : Detected env config t source)
    (hplain : t.has config.paths.bootMount = true ∨ t.has config.paths.opticalDevice = false) :
    (∃ device, (env.registry t).underlyingDevice (config.paths.anchor.getD env.program)
      config.paths.deviceRoot = .ok device) ∧ t.scratch config.paths.bootMount = .ok () := by
  cases h with
  | optical hmount hdrive => simp [hmount, hdrive] at hplain
  | plain _ hdevice hmount => exact ⟨⟨_, hdevice⟩, hmount⟩

/-- The media is made out and logged, or it is not to be made out and nothing is recorded. -/
theorem detect_cases (m : Machine) :
    (∃ source text, (detect env config).perform m = (.ok source, m.record (.logged .info text)) ∧
      Detected env config m.files source) ∨
    ∃ e, (detect env config).perform m = (.error e, m) ∧ Unmarked e ∧
      ∀ source, ¬ Detected env config m.files source := by
  unfold detect
  rw [Action.perform_bind_of_ok _ (Action.perform_get m)]
  dsimp only
  split
  case isTrue hoptical =>
    obtain ⟨hmount, hdrive⟩ : m.files.has config.paths.bootMount = false ∧
        m.files.has config.paths.opticalDevice = true := by simpa using hoptical
    exact .inl ⟨_, _, rfl, .optical hmount hdrive⟩
  case isFalse hoptical =>
    have hplain : m.files.has config.paths.bootMount = true ∨
        m.files.has config.paths.opticalDevice = false := by
      simpa only [Bool.not_eq_true, Bool.and_eq_false_iff, Bool.not_eq_false'] using hoptical
    have hdisk := @perform_systemDisk env config.paths m
    have hsealed := @perform_isReadOnly env config.paths.bootMount m
    cases hdevice : (env.registry m.files).underlyingDevice (config.paths.anchor.getD env.program)
        config.paths.deviceRoot with
    | error e =>
      rw [hdevice] at hdisk
      refine .inr ⟨e, Action.perform_bind_of_error _ hdisk,
        Registry.unmarked_underlyingDevice _ _ _ e hdevice, fun source h => ?_⟩
      obtain ⟨⟨device, hfound⟩, -⟩ := h.exists_device hplain
      cases hdevice.symm.trans hfound
    | ok device =>
      rw [hdevice] at hdisk
      rw [Action.perform_bind_of_ok _ hdisk]
      cases hmount : m.files.scratch config.paths.bootMount with
      | error e =>
        rw [hmount] at hsealed
        refine .inr ⟨.system e, Action.perform_bind_of_error _ hsealed, rfl, fun source h => ?_⟩
        cases hmount.symm.trans (h.exists_device hplain).2
      | ok _ =>
        rw [hmount] at hsealed
        rw [Action.perform_bind_of_ok _ hsealed]
        exact .inl ⟨_, _, rfl, .plain hplain hdevice hmount⟩

theorem detected_of_detect {source : Source} {m m' : Machine}
    (h : (detect env config).perform m = (.ok source, m')) : Detected env config m.files source := by
  rcases @detect_cases env config m with ⟨source', text, h', hdetected⟩ | ⟨e, h', -, -⟩
  · rw [h] at h'
    cases h'
    exact hdetected
  · rw [h] at h'
    cases h'

theorem within_detect {R : Machine → Machine → Prop} (hrefl : ∀ m, R m m)
    (hlogged : ∀ m text, R m (m.record (.logged .info text))) :
    Action.Within R (detect env config) := by
  intro m
  rcases @detect_cases env config m with ⟨source, text, h, -⟩ | ⟨e, h, -, -⟩
  · rw [h]
    exact hlogged m text
  · rw [h]
    exact hrefl m

end Source

end Groundwork
