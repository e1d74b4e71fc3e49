import Groundwork.Install.Target
import Groundwork.Proofs.Text
import Mathlib.Data.List.Basic

/-! Which disk an installation is aimed at, and how a selection fails. -/
namespace Groundwork

variable {t : FileTree} {paths : Paths} {source : Source} {candidates : List Disk}
  {selector : Option String} {wanted : String} {d e : Disk}

/-- The drives that are told by their kernel names: `sr` and a number. -/
def OpticalName (device : String) : Prop :=
  ∃ number : List Char, number ≠ [] ∧ (∀ c ∈ number, '0' ≤ c ∧ c ≤ '9') ∧
    device.toList = "/dev/sr".toList ++ number

theorem isOpticalDrive_iff (device : String) :
    isOpticalDrive device = true ↔ OpticalName device := by
  unfold isOpticalDrive OpticalName
  cases h : Text.after? "/dev/sr".toList device.toList with
  | none =>
    constructor
    · intro hfalse
      cases hfalse
    · rintro ⟨number, -, -, heq⟩
      rw [Text.after?_eq_some_iff.2 heq] at h
      cases h
  | some rest =>
    have heq := Text.after?_eq_some_iff.1 h
    constructor
    · intro hrest
      simp only [Bool.and_eq_true, Bool.not_eq_true', List.isEmpty_eq_false_iff, List.all_eq_true,
        decide_eq_true_eq] at hrest
      exact ⟨rest, hrest.1, hrest.2, heq⟩
    · rintro ⟨number, hne, hdigits, heq'⟩
      obtain rfl : rest = number := List.append_cancel_left (heq.symm.trans heq')
      simpa using ⟨hne, hdigits⟩

namespace Disk

/-! ### What may be chosen -/

/-- The disks that the system may be installed to. -/
structure Eligible (paths : Paths) (source : Source) (d : Disk) : Prop where
  notSource : Path.components d.kernelName ≠ Path.components source.device
  notDrive : source.optical = true →
    Path.components d.kernelName ≠ Path.components paths.opticalDevice
  named : d.stableId ≠ ""
  physical : ∀ opening ∈ ["usb-Linux_Virtual_", "usb-Cisco_"],
    ¬ opening.toList <+: d.stableId.toList
  disk : ¬ OpticalName d.kernelName

theorem isEligible_iff : d.isEligible paths source = true ↔ Eligible paths source d := by
  have hphysical : (!virtualMedia.any (Text.startsWith d.stableId)) = true ↔
      ∀ opening ∈ virtualMedia, ¬ opening.toList <+: d.stableId.toList := by
    simp only [Bool.not_eq_true', List.any_eq_false, Text.startsWith_iff]
  have hdisk : (!isOpticalDrive d.kernelName) = true ↔ ¬ OpticalName d.kernelName := by
    rw [Bool.not_eq_true', ← isOpticalDrive_iff, Bool.not_eq_true]
  have hsource : (!d.isAt source.device) = true ↔
      Path.components d.kernelName ≠ Path.components source.device := by simp [isAt, Path.same]
  have hdrive : (!(source.optical && d.isAt paths.opticalDevice)) = true ↔
      (source.optical = true → Path.components d.kernelName ≠ Path.components paths.opticalDevice) := by
    simp [isAt, Path.same, imp_iff_not_or]
  have hnamed : (d.stableId != "") = true ↔ d.stableId ≠ "" := by simp
  unfold isEligible
  rw [Bool.and_eq_true, Bool.and_eq_true, Bool.and_eq_true, Bool.and_eq_true, hsource, hdrive,
    hnamed, hphysical, hdisk]
  constructor
  · rintro ⟨⟨⟨⟨hsource, hdrive⟩, hnamed⟩, hphysical⟩, hdisk⟩
    exact ⟨hsource, hdrive, hnamed, hphysical, hdisk⟩
  · rintro ⟨hsource, hdrive, hnamed, hphysical, hdisk⟩
    exact ⟨⟨⟨⟨hsource, hdrive⟩, hnamed⟩, hphysical⟩, hdisk⟩

/-- A selector stands for the disks whose stable ID it is a part of, and for the disk that it is
another name of. -/
inductive Selects (t : FileTree) (paths : Paths) (wanted : String) (d : Disk) : Prop
  | part (h : wanted.toList <:+: d.stableId.toList)
  | alias {x y : String} (hwanted : t.readLink (Path.join paths.byId wanted) = .ok x)
      (hstable : t.readLink (Path.join paths.byId d.stableId) = .ok y)
      (h : Path.components x = Path.components y)

theorem matchesSelector_iff : d.matchesSelector t paths wanted = true ↔ Selects t paths wanted d := by
  rw [matchesSelector, Bool.or_eq_true, Text.contains_iff]
  constructor
  · rintro (hpart | halias)
    · exact .part hpart
    · unfold linkedAlike at halias
      split at halias
      · next x y hx hy => exact .alias hx hy (by simpa [Path.same] using halias)
      · cases halias
  · rintro (hpart | ⟨hx, hy, heq⟩)
    · exact .inl hpart
    · right
      unfold linkedAlike
      rw [hx, hy]
      simpa [Path.same] using heq

/-! ### The disk that is chosen -/

/-- With a selector, the first eligible disk that it stands for; without one, the only eligible entry
of the list. Entries that are not eligible may stand anywhere. -/
inductive Chosen (t : FileTree) (paths : Paths) (source : Source) (candidates : List Disk) :
    Option String → Disk → Prop
  | first {wanted : String} {front back : List Disk} {d : Disk}
      (entries : candidates = front ++ d :: back) (eligible : Eligible paths source d)
      (selected : Selects t paths wanted d)
      (earlier : ∀ e ∈ front, Eligible paths source e → ¬ Selects t paths wanted e) :
      Chosen t paths source candidates (some wanted) d
  | only {front back : List Disk} {d : Disk}
      (entries : candidates = front ++ d :: back) (eligible : Eligible paths source d)
      (others : ∀ e ∈ front ++ back, ¬ Eligible paths source e) :
      Chosen t paths source candidates none d

/-- Nothing was selected, and two entries are eligible. -/
def Contested (paths : Paths) (source : Source) (candidates : List Disk)
    (selector : Option String) : Prop :=
  selector = none ∧ ∃ d e, [d, e].Sublist candidates ∧ Eligible paths source d ∧
    Eligible paths source e

/-- The disks that may be chosen, in the order of the list. -/
abbrev eligible (paths : Paths) (source : Source) (candidates : List Disk) : List Disk :=
  candidates.filter (·.isEligible paths source)

theorem find?_eligible_iff :
    (eligible paths source candidates).find? (·.matchesSelector t paths wanted) = some d ↔
      Chosen t paths source candidates (some wanted) d := by
  simp only [List.find?_filter, List.find?_eq_some_iff_append, decide_eq_true_eq,
    Bool.not_eq_true', decide_eq_false_iff_not, isEligible_iff, matchesSelector_iff]
  constructor
  · rintro ⟨⟨heligible, hselects⟩, front, back, heq, hfront⟩
    exact .first heq heligible hselects fun e he heligible hselects =>
      hfront e he ⟨heligible, hselects⟩
  · rintro ⟨heq, heligible, hselects, hearlier⟩
    exact ⟨⟨heligible, hselects⟩, _, _, heq, fun e he h => hearlier e he h.1 h.2⟩

theorem eligible_eq_singleton_iff :
    eligible paths source candidates = [d] ↔ Chosen t paths source candidates none d := by
  have hnone (ds : List Disk) :
      ds.filter (·.isEligible paths source) = [] ↔ ∀ e ∈ ds, ¬ Eligible paths source e := by
    simp only [List.filter_eq_nil_iff, isEligible_iff]
  constructor
  · intro h
    obtain ⟨front, back, rfl, hfront, hd, hback⟩ := List.filter_eq_cons_iff.1 h
    refine .only rfl (isEligible_iff.1 hd) fun e he => ?_
    rcases List.mem_append.1 he with he | he
    · exact fun heligible => hfront e he (isEligible_iff.2 heligible)
    · exact (hnone back).1 hback e he
  · rintro (_ | ⟨rfl, heligible, hothers⟩)
    rw [eligible, List.filter_append, List.filter_cons_of_pos (by exact isEligible_iff.2 heligible),
      (hnone _).2 fun e he => hothers e (List.mem_append_left _ he),
      (hnone _).2 fun e he => hothers e (List.mem_append_right _ he)]
    rfl

theorem contested_none_iff : Contested paths source candidates none ↔
    2 ≤ (eligible paths source candidates).length := by
  constructor
  · rintro ⟨-, d, e, hsub, hd, he⟩
    have hfiltered := (hsub.filter (·.isEligible paths source)).length_le
    simpa [isEligible_iff.2 hd, isEligible_iff.2 he] using hfiltered
  · intro h
    match hds : eligible paths source candidates, h with
    | d :: e :: rest, _ =>
      have hsub : [d, e].Sublist (eligible paths source candidates) := by
        rw [hds]
        exact ((List.nil_sublist rest).cons_cons e).cons_cons d
      have hmem {x : Disk} (hx : x ∈ [d, e]) : Eligible paths source x :=
        isEligible_iff.1 (List.mem_filter.1 (hsub.subset hx)).2
      exact ⟨rfl, d, e, hsub.trans List.filter_sublist, hmem (by simp), hmem (by simp)⟩

/-! ### The answer -/

/-- What a pick gives: the disk that is chosen, a refusal of two disks, or nothing. -/
inductive Picks (t : FileTree) (paths : Paths) (source : Source) (candidates : List Disk)
    (selector : Option String) : Except Failure Disk → Prop
  | disk {d : Disk} (h : Chosen t paths source candidates selector d) :
      Picks t paths source candidates selector (.ok d)
  | refusal (why : String) (h : Contested paths source candidates selector) :
      Picks t paths source candidates selector (.error (.ambiguousTarget why))
  | nothing (why : String) (hchosen : ∀ d, ¬ Chosen t paths source candidates selector d)
      (hcontested : ¬ Contested paths source candidates selector) :
      Picks t paths source candidates selector (.error (.noCandidate why))

theorem picks_pick (t : FileTree) (paths : Paths) (source : Source) (candidates : List Disk)
    (selector : Option String) : Picks t paths source candidates selector
      (pick t paths (eligible paths source candidates) selector) := by
  cases selector with
  | some wanted =>
    rw [pick]
    cases h : (eligible paths source candidates).find? (·.matchesSelector t paths wanted) with
    | some d => exact .disk (find?_eligible_iff.1 h)
    | none =>
      refine .nothing _ (fun d hd => ?_) fun hcontested => by cases hcontested.1
      rw [find?_eligible_iff.2 hd] at h
      cases h
  | none =>
    cases hds : eligible paths source candidates with
    | nil =>
      refine .nothing _ (fun d hd => ?_) fun hcontested => ?_
      · rw [eligible_eq_singleton_iff.2 hd] at hds
        cases hds
      · have := contested_none_iff.1 hcontested
        rw [hds] at this
        exact absurd this (by simp)
    | cons d ds =>
      cases ds with
      | nil => exact .disk (eligible_eq_singleton_iff.1 hds)
      | cons e ds => exact .refusal _ (contested_none_iff.2 (by rw [hds]; simp))

theorem Chosen.unique (h : Chosen t paths source candidates selector d)
    (h' : Chosen t paths source candidates selector e) : d = e := by
  cases selector with
  | some wanted => exact Option.some.inj ((find?_eligible_iff.2 h).symm.trans (find?_eligible_iff.2 h'))
  | none =>
    have hsame := (eligible_eq_singleton_iff.2 h).symm.trans (eligible_eq_singleton_iff.2 h')
    exact List.singleton_inj.1 hsame

theorem Chosen.not_contested (h : Chosen t paths source candidates selector d) :
    ¬ Contested paths source candidates selector := by
  intro hcontested
  obtain rfl := hcontested.1
  have := contested_none_iff.1 hcontested
  rw [eligible_eq_singleton_iff.2 h] at this
  exact absurd this (by simp)

theorem Chosen.isEligible (h : Chosen t paths source candidates selector d) :
    d.isEligible paths source = true := by
  cases h with
  | first _ heligible => exact isEligible_iff.2 heligible
  | only _ heligible => exact isEligible_iff.2 heligible

theorem Contested.length (h : Contested paths source candidates selector) :
    2 ≤ candidates.length := by
  obtain ⟨-, d, e, hsub, -, -⟩ := h
  exact hsub.length_le

theorem selectTarget_of_pick {config : Config} {failure : Failure} (hlong : 2 ≤ candidates.length)
    (h : pick t config.paths (eligible config.paths source candidates) selector = .error failure) :
    selectTarget t config source candidates selector = .error failure := by
  rw [selectTarget, if_neg (by omega), h]
  rfl

theorem selectTarget_of_pick_ok {config : Config} (hlong : 2 ≤ candidates.length)
    (h : pick t config.paths (eligible config.paths source candidates) selector = .ok d) :
    selectTarget t config source candidates selector =
      if d.size < config.minimumTarget then
        .error (.targetTooSmall d.text config.minimumTarget
          (Text.commaSeparated (candidates.map sizedText)))
      else .ok d := by
  rw [selectTarget, if_neg (by omega), h]
  rfl

theorem chosen_of_selectTarget {config : Config}
    (h : selectTarget t config source candidates selector = .ok d) :
    Chosen t config.paths source candidates selector d := by
  have hlong : 2 ≤ candidates.length := by
    by_cases hlength : candidates.length < 2
    · rw [selectTarget, if_pos hlength] at h
      cases h
    · omega
  have hpicks := picks_pick t config.paths source candidates selector
  generalize hp : pick t config.paths (eligible config.paths source candidates) selector = p
    at hpicks
  cases hpicks with
  | disk hchosen =>
    rw [selectTarget_of_pick_ok hlong hp] at h
    split at h
    · cases h
    · cases h
      exact hchosen
  | refusal =>
    rw [selectTarget_of_pick hlong hp] at h
    cases h
  | nothing =>
    rw [selectTarget_of_pick hlong hp] at h
    cases h

/-- Selection in full. A list of fewer than two entries holds no target; entries that may not be
chosen count for that and for nothing else. -/
theorem selectTarget_complete (t : FileTree) (config : Config) (source : Source)
    (candidates : List Disk) (selector : Option String) :
    (∀ d, selectTarget t config source candidates selector = .ok d ↔
      2 ≤ candidates.length ∧ Chosen t config.paths source candidates selector d ∧
        config.minimumTarget ≤ d.size) ∧
    ((∃ why, selectTarget t config source candidates selector = .error (.ambiguousTarget why)) ↔
      Contested config.paths source candidates selector) ∧
    ((∃ target minimum detected, selectTarget t config source candidates selector =
        .error (.targetTooSmall target minimum detected)) ↔
      2 ≤ candidates.length ∧ ∃ d, Chosen t config.paths source candidates selector d ∧
        d.size < config.minimumTarget) ∧
    ((∃ why, selectTarget t config source candidates selector = .error (.noCandidate why)) ↔
      candidates.length < 2 ∨ (∀ d, ¬ Chosen t config.paths source candidates selector d) ∧
        ¬ Contested config.paths source candidates selector) := by
  by_cases hlength : candidates.length < 2
  · have hcontested : ¬ Contested config.paths source candidates selector := by
      intro h
      have := h.length
      omega
    simp [selectTarget, hlength, hcontested, Nat.not_le.2 hlength]
  · have hlong : 2 ≤ candidates.length := by omega
    have hpicks := picks_pick t config.paths source candidates selector
    generalize hp : pick t config.paths (eligible config.paths source candidates) selector = p
      at hpicks
    cases hpicks with
    | @disk d hchosen =>
      have hlone (e : Disk) : Chosen t config.paths source candidates selector e ↔ d = e := by
        constructor
        · intro h
          exact hchosen.unique h
        · intro h
          exact h ▸ hchosen
      rw [selectTarget_of_pick_ok hlong hp]
      by_cases hsize : d.size < config.minimumTarget
      · simp [hsize, hlone, hchosen.not_contested, hlong, hlength]
      · simp [hsize, hlone, hchosen.not_contested, hlong, hlength, Nat.not_lt.1 hsize]
    | refusal why hcontested =>
      have hnone (d : Disk) : ¬ Chosen t config.paths source candidates selector d :=
        fun h => h.not_contested hcontested
      rw [selectTarget_of_pick hlong hp]
      simp [hnone, hcontested, hlong, hlength]
    | nothing why hchosen hcontested =>
      rw [selectTarget_of_pick hlong hp]
      simp [hchosen, hcontested]

end Disk

end Groundwork
