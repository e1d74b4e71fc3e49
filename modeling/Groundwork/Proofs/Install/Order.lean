import Groundwork.Proofs.Disk.Listing
import Groundwork.Proofs.Install.Progress
import Groundwork.Proofs.Install.Selection
import Groundwork.Proofs.Install.Sequence

/-! The order of the commands of an installation, and the disks that they are aimed at. -/
namespace Groundwork.Install

open PartitionTable

variable {env : Environment} {config : Config} {options : InstallOptions} {m m' : Machine}
  {plan : InstallPlan} {entries : Nat → Partition × String} {wipes : Bool}

/-! ### Looking for the source and the target -/

/-- Whether a query was answered with a listing of disks. -/
def lists (env : Environment) (a : Attempt) : Bool :=
  ((a.checked env).bind fun o => Disk.ofListing o.stdout).isOk

theorem succeeds_of_lists {a : Attempt} (h : lists env a = true) : a.succeeds env = true := by
  rw [← Attempt.isOk_checked]
  unfold lists at h
  cases hc : a.checked env with
  | error e =>
    rw [hc] at h
    cases h
  | ok o => rfl

theorem obeys_disks (m : Machine) :
    Obeys env (lists env) (Disk.all env) (Disk.listings) m := by
  have hclass (c : DiskClass) (m : Machine) :
      Obeys env (lists env) (Disk.ofClass env c) [c.query] m :=
    .of_attempt (by rw [Disk.perform_ofClass]; rfl) (by rw [Disk.perform_ofClass])
  exact Obeys.foldlM (fun _ c m => (hclass c m).bind fun _ _ _ => .pure _) _ _ m

/-- The source is found without a tool. -/
theorem course_detect : Action.Within (fun m m' => Course env Machine.Reports m [] m')
    (Source.detect env config) :=
  Source.within_detect .refl fun _ _ => .quiet (.logged _ _) (.refl _)

/-- The queries come in turn until one fails. If a target is chosen then all have succeeded. -/
theorem scout_cases (m : Machine) : ∃ r m' as,
    (scout env config options).perform m = (r, m') ∧ Course env Machine.Reports m as m' ∧
    as.map (·.command) <+: Disk.listings ∧
    (∀ a ∈ as.dropLast, a.succeeds env = true) ∧
    ∀ plan, r = .ok plan → as.map (·.command) = Disk.listings ∧
      (∀ a ∈ as, a.succeeds env = true) ∧
      ∃ t, Disk.selectTarget t config plan.source plan.candidates options.selector =
        .ok plan.target := by
  have hopened : Course env Machine.Reports m [] (m.record (.told (.message "Starting install"))) :=
    .quiet (.told _) (.refl _)
  rw [scout, Action.perform_bind_of_ok _ (Action.perform_announce _ m), Action.perform_bind, plan,
    Action.perform_bind]
  have hdetect := @course_detect env config (m.record (.told (.message "Starting install")))
  cases hd : (Source.detect env config).perform (m.record (.told (.message "Starting install"))) with
  | mk r m₁ =>
    rw [hd] at hdetect
    have hfound := hopened.append hdetect
    cases r with
    | error e =>
      exact ⟨_, _, [], rfl, hfound, List.nil_prefix, by simp, fun plan h => by cases h⟩
    | ok source =>
      obtain ⟨as, hcourse, hfollows⟩ := @obeys_disks env m₁
      have hasked := hfound.append hcourse
      simp only [Action.perform_bind]
      cases hall : (Disk.all env).perform m₁ with
      | mk r m₂ =>
        rw [hall] at hasked hfollows
        have hpassed (a : Attempt) (ha : a ∈ as.dropLast) : a.succeeds env = true :=
          succeeds_of_lists (hfollows.passes_of_mem_dropLast a ha)
        cases r with
        | error e =>
          exact ⟨_, _, as, rfl, hasked, hfollows.isPrefix, hpassed, fun _ h => by cases h⟩
        | ok candidates =>
          obtain ⟨hlength, hlisted⟩ := hfollows.done_iff.1 rfl
          have hwhole : as.map (·.command) = Disk.listings :=
            hfollows.isPrefix.eq_of_length (by rw [List.length_map, hlength])
          simp only [Action.perform_get, Action.perform_ofExcept]
          cases hs : Disk.selectTarget m₂.files config source candidates options.selector with
          | error e =>
            exact ⟨_, _, as, rfl, hasked, hfollows.isPrefix, hpassed, fun _ h => by cases h⟩
          | ok target =>
            have hended := hasked.append (.quiet (.logged .info
              s!"Installing from {source.device} to {target.text}") (.refl _))
            rw [List.append_nil] at hended
            refine ⟨_, _, as, rfl, hended, hfollows.isPrefix, hpassed, ?_⟩
            intro plan h
            cases h
            exact ⟨hwhole, fun a ha => succeeds_of_lists (hlisted a ha), m₂.files, hs⟩

/-! ### Up to the last partition -/

/-- What an installation asks for once it has chosen its target, and the machine afterwards. -/
structure Prepared (env : Environment) (config : Config) (options : InstallOptions)
    (m m' : Machine) (plan : InstallPlan) (entries : Nat → Partition × String) (wipes done : Bool)
    (as : List Attempt) : Prop where
  scouted : ∃ m₁, (scout env config options).perform m = (.ok plan, m₁)
  eligible : plan.target.isEligible config.paths plan.source = true
  course : Course env Machine.Reports m as m'
  asked : Follows (goesOn env config options plan entries) (sequence config plan entries wipes) as
    done
  numbered : ∀ index, (entries index).1.index = index
  wiped : ∃ a ∈ as, a.command = checkCommand plan.target.kernelName ∧
    wipes = (options.forceInstall || a.tableState? env == some .damaged)

theorem nodup_partitionNumbers (source : Source) : (partitionNumbers config source).Nodup :=
  List.nodup_range'

theorem obeys_prepare (env : Environment) (options : InstallOptions) (plan : InstallPlan)
    (wipes : Bool) (m : Machine) : ∃ entries : Nat → Partition × String,
      (∀ index, (entries index).1.index = index) ∧
      Obeys env (goesOn env config options plan entries)
        (prepare env config plan.source plan.target.kernelName wipes)
        (releasing config plan.target.kernelName wipes ++
          cloning entries (tableDisk config plan.source) plan.target.kernelName
            (partitionNumbers config plan.source)) m := by
  obtain ⟨entries, hnumbered, hcreations⟩ := @obeys_creations config plan env options
    (partitionNumbers config plan.source) (fun _ h => h) (nodup_partitionNumbers plan.source)
    ((teardown env config plan.source plan.target.kernelName wipes).perform m).2
  refine ⟨entries, hnumbered, ((obeys_teardown wipes m).marking _).bind fun x m₁ hp => ?_⟩
  rw [Action.perform_marking] at hp
  obtain ⟨-, rfl⟩ := Prod.mk.inj hp
  exact hcreations

/-- Behind the choice of the target, an installation prepares that, and is ready when all of its
partitions are made. -/
theorem makeReady_cases {r : Except Failure InstallPlan}
    (h : (makeReady env config options).perform m = (r, m')) :
    (∃ e as, r = .error e ∧ Course env Machine.Reports m as m' ∧
      as.map (·.command) <+: Disk.listings ∧
      ∀ a ∈ as.dropLast, a.succeeds env = true) ∨
    ∃ plan entries wipes done as, Prepared env config options m m' plan entries wipes done as ∧
      ((done = false ∧ ∃ e, r = .error e) ∨ (done = true ∧ r = .ok plan)) := by
  obtain ⟨r₁, m₁, as, hscout, hcourse, hasked, hsucceed, hall⟩ := @scout_cases env config options m
  rw [makeReady, Action.perform_bind, hscout] at h
  cases r₁ with
  | error e =>
    cases h
    exact .inl ⟨e, as, rfl, hcourse, hasked, hsucceed⟩
  | ok plan =>
    obtain ⟨hqueries, hsucceed, t, hselect⟩ := hall plan rfl
    obtain ⟨r₂, m₂, hexamine, hcheck, hpass, hwipes⟩ :=
      @examine_cases env options plan.target.kernelName m₁
    dsimp only at h
    rw [Action.perform_bind, hexamine] at h
    -- the queries pass whatever the entries will be
    have hfirst (entries : Nat → Partition × String) :
        Follows (goesOn env config options plan entries) (Disk.listings) as
          true := by
      rw [← hqueries]
      refine .of_forall fun a ha => ?_
      have hquery : a.command ∈ Disk.listings :=
        hqueries ▸ List.mem_map.2 ⟨a, ha, rfl⟩
      obtain ⟨c, -, hc⟩ := List.mem_map.1 hquery
      rw [goesOn_of_plain, hsucceed a ha] <;> rw [← hc] <;>
        simp [IsPlain, checkCommand, zapCommand, discardCommand, unmountCommand,
          infoCommand, tool]
    let examined : Attempt := ⟨m₁, checkCommand plan.target.kernelName⟩
    have hstate (entries : Nat → Partition × String) :
        goesOn env config options plan entries examined = r₂.isOk :=
      (goesOn_check m₁).trans hpass.symm
    have hmem (bs : List Attempt) : examined ∈ as ++ examined :: bs := by simp
    cases r₂ with
    | error e =>
      cases h
      refine .inr ⟨plan, undescribed, _, false, as ++ [examined], {
        scouted := ⟨m₁, hscout⟩
        eligible := (Disk.chosen_of_selectTarget hselect).isEligible
        course := hcourse.append hcheck
        asked := (hfirst _).append (.stopped (hstate _))
        numbered := fun _ => rfl
        wiped := ⟨examined, hmem [], rfl, rfl⟩ }, .inl ⟨rfl, e, rfl⟩⟩
    | ok wipes =>
      obtain ⟨entries, hnumbered, bs, hcourse', hfollows⟩ :=
        @obeys_prepare config env options plan wipes m₂
      have hprepared : Prepared env config options m
          ((prepare env config plan.source plan.target.kernelName wipes).perform m₂).2 plan entries
          wipes _ (as ++ examined :: bs) := {
        scouted := ⟨m₁, hscout⟩
        eligible := (Disk.chosen_of_selectTarget hselect).isEligible
        course := hcourse.append (hcheck.append hcourse')
        asked := (hfirst _).append (.passed (hstate _) hfollows)
        numbered := hnumbered
        wiped := ⟨examined, hmem bs, rfl, hwipes wipes rfl⟩ }
      dsimp only at h
      rw [Action.perform_bind] at h
      cases hp : (prepare env config plan.source plan.target.kernelName wipes).perform m₂ with
      | mk r₃ m₃ =>
        rw [hp] at h hprepared
        cases r₃ with
        | error e =>
          cases h
          exact .inr ⟨plan, entries, wipes, false, _, hprepared, .inl ⟨rfl, e, rfl⟩⟩
        | ok _ =>
          cases h
          exact .inr ⟨plan, entries, wipes, true, _, hprepared, .inr ⟨rfl, rfl⟩⟩

/-- An installation that is ready furnishes its target. -/
theorem perform_cases {r : Except Failure (Option Nat)}
    (h : (Install.perform env config options).perform m = (r, m')) :
    (∃ e as, r = .error e ∧ Course env Machine.Reports m as m' ∧
      as.map (·.command) <+: Disk.listings ∧
      ∀ a ∈ as.dropLast, a.succeeds env = true) ∨
    ∃ plan entries wipes done as m₁,
      Prepared env config options m m₁ plan entries wipes done as ∧
      ((done = false ∧ m' = m₁ ∧ ∃ e, r = .error e) ∨ (done = true ∧
        (furnish env config options plan.source plan.target.kernelName).perform m₁ = (r, m'))) := by
  rw [perform_eq_phases, Action.perform_bind] at h
  cases hready : (makeReady env config options).perform m with
  | mk r₁ m₁ =>
    rw [hready] at h
    rcases makeReady_cases hready with ⟨e, as, rfl, hfailed⟩ |
      ⟨plan, entries, wipes, done, as, hprepared, ⟨hd, e, rfl⟩ | ⟨hd, rfl⟩⟩
    · cases h
      exact .inl ⟨e, as, rfl, hfailed⟩
    · cases h
      exact .inr ⟨plan, entries, wipes, done, as, _, hprepared, .inl ⟨hd, rfl, e, rfl⟩⟩
    · exact .inr ⟨plan, entries, wipes, done, as, m₁, hprepared, .inr ⟨hd, h⟩⟩

/-! ### The whole installation -/

/-- Whether a machine came from another one without a tool. -/
def Unasked (m m' : Machine) : Prop :=
  ∃ events, m'.history = m.history ++ events ∧ ∀ v ∈ events, ∀ call, v ≠ .ran call

theorem chains_unasked : Machine.Chains Unasked where
  refl m := ⟨[], by simp, by simp⟩
  trans := by
    rintro m m₁ m' ⟨front, hfront, hf⟩ ⟨back, hback, hb⟩
    refine ⟨front ++ back, by rw [hback, hfront, List.append_assoc], ?_⟩
    intro v hv
    rcases List.mem_append.1 hv with hv | hv
    · exact hf v hv
    · exact hb v hv

theorem unasked_record {v : Event} (hv : ∀ call, v ≠ .ran call) (m : Machine) :
    Unasked m (m.record v) := ⟨[v], rfl, by simpa using hv⟩

theorem admits_unasked (paths : List String) : Machine.Admits env paths Unasked where
  toChains := chains_unasked
  record m _ hv := unasked_record hv m
  refill m path _ _ _ t _ _ _ _ := ⟨[.wrote path], rfl, by simp⟩
  elapse m := ⟨[], by simp, by simp⟩
  arm m _ := ⟨[], by simp, by simp⟩

theorem calls_of_unasked (h : Unasked m m') : m'.calls = m.calls := by
  obtain ⟨events, hevents, hnone⟩ := h
  rw [Machine.calls, hevents, List.filterMap_append]
  refine (congrArg _ (List.filterMap_eq_nil_iff.2 ?_)).trans (List.append_nil _)
  intro v hv
  cases v with
  | ran call => exact (hnone _ hv call rfl).elim
  | _ => rfl

/-- Whether a command changes a disk: it discards blocks, or it does more to a table than look. -/
def changesDisk (c : Command) : Bool :=
  c.program == "blkdiscard" ||
    (c.program == "sgdisk" && !c.arguments.head?.any fun a => a == "-v" || a == "-i")

/-- Whether a plan is broken off at an attempt. -/
def StopsAt (as : List Attempt) (done : Bool) (a : Attempt) : Prop :=
  done = false ∧ as.getLast? = some a

/-- An installation that has chosen its target, by what it asks for and where it stops. -/
structure Ordered (env : Environment) (config : Config) (options : InstallOptions)
    (m m' : Machine) (r : Except Failure (Option Nat)) (plan : InstallPlan)
    (entries : Nat → Partition × String) (wipes done : Bool) (as : List Attempt) : Prop where
  scouted : ∃ m₁, (scout env config options).perform m = (.ok plan, m₁)
  /-- The commands of the sequence in turn, until one does not pass. -/
  asked : Follows (goesOn env config options plan entries) (sequence config plan entries wipes) as
    done
  /-- The tools that are installed have run, and no other ones. -/
  ran : m'.calls = m.calls ++ as.filterMap (Attempt.call? env)
  finished : r.isOk = true → done = true
  /-- The target is wiped by force, or for a damaged table. -/
  wiped : ∃ a ∈ as, a.command = ⟨"sgdisk", ["-v", plan.target.kernelName]⟩ ∧
    wipes = (options.forceInstall || a.tableState? env == some .damaged)
  numbered : ∀ index, (entries index).1.index = index
  /-- What is made after a look at an entry is what that look has described. -/
  described : ∀ a ∈ as, ¬ StopsAt as done a → ∀ index ∈ partitionNumbers config plan.source,
    a.command = ⟨"sgdisk", ["-i", toString index, tableDisk config plan.source]⟩ →
      a.described? env index = some (entries index)
  /-- Tools that wipe stop nothing, whatever they exit with. -/
  wipeGoesOn : ∀ a ∈ as, a.command = ⟨"sgdisk", ["-Z", plan.target.kernelName]⟩ ∨
    a.command = ⟨"blkdiscard", ["-f", plan.target.kernelName]⟩ → (a.answer env).isOk = true →
      ¬ StopsAt as done a
  unmountStops : ∀ a ∈ as, a.command = ⟨"umount", [config.paths.bootMount]⟩ →
    a.succeeds env = false → (StopsAt as done a ↔ plan.source.readOnly = false)
  failureStops : ∀ a ∈ as, a.command ≠ ⟨"sgdisk", ["-Z", plan.target.kernelName]⟩ →
    a.command ≠ ⟨"blkdiscard", ["-f", plan.target.kernelName]⟩ →
    a.command ≠ ⟨"umount", [config.paths.bootMount]⟩ →
    (a.command = ⟨"sgdisk", ["-v", plan.target.kernelName]⟩ →
      a.tableState? env ≠ some .damaged) →
    a.succeeds env = false → StopsAt as done a
  /-- No file is written before all commands are done, and then no tool runs any more. -/
  written : ∃ front back, m'.history = m.history ++ (front ++ back) ∧
    (∀ v ∈ front, ∀ path, v ≠ .wrote path) ∧ (∀ v ∈ back, ∀ call, v ≠ .ran call) ∧
    (done = false → ∀ v ∈ back, ∀ path, v ≠ .wrote path)
  /-- Only the target is changed by a tool. -/
  aim : ∀ a ∈ as, changesDisk a.command = true →
    a.command.arguments.getLast? = some plan.target.kernelName
  elsewhere : Path.components plan.target.kernelName ≠ Path.components plan.source.device
  offDrive : plan.source.optical = true →
    Path.components plan.target.kernelName ≠ Path.components config.paths.opticalDevice

/-- An installation that ends well has asked for all of its commands. -/
theorem Ordered.commands {done : Bool} {as : List Attempt} {r : Except Failure (Option Nat)}
    (h : Ordered env config options m m' r plan entries wipes done as) (hok : r.isOk = true) :
    as.map (·.command) = sequence config plan entries wipes :=
  h.asked.isPrefix.eq_of_length
    (by rw [List.length_map, (h.asked.done_iff.1 (h.finished hok)).1])

theorem aim_of_mem_sequence {c : Command} (h : c ∈ sequence config plan entries wipes)
    (hc : changesDisk c = true) : c.arguments.getLast? = some plan.target.kernelName := by
  rcases List.mem_append.1 h with h | h
  · obtain ⟨flag, -, rfl⟩ := List.mem_map.1 h
    cases hc
  · rcases List.mem_cons.1 h with rfl | h
    · simp [changesDisk] at hc
    · rcases List.mem_append.1 h with h | h
      · rcases List.mem_append.1 h with h | h
        · cases wipes with
          | false => cases h
          | true =>
            rcases List.mem_cons.1 h with rfl | h
            · rfl
            · rw [List.mem_singleton.1 h]
              rfl
        · rcases List.mem_cons.1 h with rfl | h
          · cases hc
          · rw [List.mem_singleton.1 h] at hc
            cases hc
      · obtain ⟨index, -, rfl | rfl⟩ := mem_cloning h
        · simp [changesDisk, infoCommand, tool] at hc
        · rfl

theorem written_of_reports {as : List Attempt}
    (h : Course env Machine.Reports m as m') : ∃ events, m'.history = m.history ++ events ∧
      ∀ v ∈ events, ∀ path, v ≠ .wrote path := by
  obtain ⟨events, hevents, hall⟩ := h.history
  refine ⟨events, hevents, ?_⟩
  rintro v hv path rfl
  rcases hall _ hv with ⟨_, h⟩ | ⟨_, _, h⟩ | ⟨_, h⟩ <;> cases h

theorem Prepared.ordered {m₁ : Machine} {done : Bool} {as : List Attempt}
    {r : Except Failure (Option Nat)}
    (h : Prepared env config options m m₁ plan entries wipes done as)
    (hafter : Unasked m₁ m') (hstops : done = false → (∃ e, r = .error e) ∧
      ∃ events, m'.history = m₁.history ++ events ∧ ∀ v ∈ events, ∀ path, v ≠ .wrote path) :
    Ordered env config options m m' r plan entries wipes done as := by
  have hstop (a : Attempt) (ha : a ∈ as) :
      StopsAt as done a ↔ goesOn env config options plan entries a = false := h.asked.stops_iff ha
  have hreports := h.course.calls fun _ _ hq => hq.calls
  have heligible := Disk.isEligible_iff.1 h.eligible
  exact {
    scouted := h.scouted, asked := h.asked, wiped := h.wiped, numbered := h.numbered
    elsewhere := heligible.notSource, offDrive := heligible.notDrive
    ran := by rw [calls_of_unasked hafter, hreports]
    finished := by
      intro hok
      cases hd : done with
      | true => rfl
      | false =>
        obtain ⟨⟨e, rfl⟩, -⟩ := hstops hd
        cases hok
    described := by
      rintro ⟨m, c⟩ ha hgoes index hindex rfl
      have hpass := Bool.of_not_eq_false fun hfail => hgoes ((hstop _ ha).2 hfail)
      exact eq_of_beq ((goesOn_info m hindex).symm.trans hpass)
    wipeGoesOn := by
      rintro ⟨m, c⟩ ha hc hanswer hstopped
      have hfail := (hstop _ ha).1 hstopped
      rw [goesOn_wipe hc, hanswer] at hfail
      cases hfail
    unmountStops := by
      rintro ⟨m, c⟩ ha rfl hfail
      have hgoes := @goesOn_unmount env config options plan entries m
      rw [unmountCommand, hfail, Bool.false_or] at hgoes
      rw [hstop _ ha, hgoes]
    failureStops := by
      intro a ha hzap hdiscard hunmount hdamaged hfail
      rw [hstop _ ha]
      exact not_goesOn_of_fails hzap hdiscard hunmount hdamaged hfail
    written := by
      obtain ⟨front, hfront, hunwritten⟩ := written_of_reports h.course
      obtain ⟨back, hback, hunasked⟩ := hafter
      refine ⟨front, back, by rw [hback, hfront, List.append_assoc], hunwritten, hunasked, ?_⟩
      intro hd
      obtain ⟨-, events, hevents, hnone⟩ := hstops hd
      rw [List.append_cancel_left (hback.symm.trans hevents)]
      exact hnone
    aim := by
      intro a ha hchanges
      exact aim_of_mem_sequence (h.asked.isPrefix.subset (List.mem_map.2 ⟨a, ha, rfl⟩)) hchanges }

/-- For every answer of the tools, an installation keeps to the sequence, unless it fails before it
has chosen a target: then it has asked only for the disks, and left the machine alone. -/
theorem run_commands {r : Except Failure (Option Nat)}
    (h : (Install.run env config options).perform m = (r, m')) :
    (∃ e as, r = .error e ∧ LeftAlone env m m' as ∧
      as.map (·.command) <+: Disk.listings ∧
      ∀ a ∈ as.dropLast, a.succeeds env = true) ∨
    ∃ plan entries wipes done as, Ordered env config options m m' r plan entries wipes done as := by
  obtain ⟨m₁, hp, hend⟩ := perform_of_run h
  have hcourse : Course env Machine.Reports m₁ [] m' := by
    rcases hend with rfl | ⟨e, -, rfl⟩
    · exact .refl _
    · exact .quiet (.told _) (.refl _)
  have hunasked : Unasked m₁ m' := by
    rcases hend with rfl | ⟨e, -, rfl⟩
    · exact chains_unasked.refl _
    · exact unasked_record (by simp) m₁
  rcases perform_cases hp with ⟨e, as, rfl, hasks, hasked, hsucceed⟩ |
    ⟨plan, entries, wipes, done, as, m₂, hprepared, ⟨hd, rfl, hfails⟩ | ⟨hd, hfurnish⟩⟩
  · have hwhole := hasks.append hcourse
    rw [List.append_nil] at hwhole
    exact .inl ⟨e, as, rfl, hwhole.leftAlone, hasked, hsucceed⟩
  · exact .inr ⟨plan, entries, wipes, done, as,
      hprepared.ordered hunasked fun _ => ⟨hfails, written_of_reports hcourse⟩⟩
  · have hafter : Unasked m₂ m₁ := (furnish_within (admits_unasked _)).of_eq hfurnish
    refine .inr ⟨plan, entries, wipes, done, as,
      hprepared.ordered (chains_unasked.trans hafter hunasked) ?_⟩
    intro hnot
    rw [hd] at hnot
    cases hnot

theorem run_commands_diskMachine :
    (∃ r m', (Install.run damagedEnvironment (cloneConfig 2) { forceReboot := true }).perform
        (diskMachine "seed".toUTF8) = (r, m') ∧ r.isOk = true ∧
      ∃ plan entries wipes done as, Ordered damagedEnvironment (cloneConfig 2)
        { forceReboot := true } (diskMachine "seed".toUTF8) m' r plan entries wipes done as) ∧
    ∃ r m', (Install.run damagedEnvironment opticalConfig opticalOptions).perform opticalMachine =
        (r, m') ∧ r.isOk = true ∧
      ∃ plan entries wipes done as, Ordered damagedEnvironment opticalConfig opticalOptions
          opticalMachine m' r plan entries wipes done as ∧ plan.source = ⟨"/dev/mapper/sr0", true, true⟩ ∧
        [⟨"sgdisk", ["-i", "1", "/dev/sr0"]⟩, ⟨"sgdisk", ["-i", "2", "/dev/sr0"]⟩].Sublist
          (as.map (·.command)) := by
  constructor
  · obtain ⟨m', hrun⟩ := run_diskMachine_plain
    refine ⟨_, m', hrun, rfl, ?_⟩
    rcases run_commands hrun with ⟨e, as, he, -⟩ | hordered
    · cases he
    · exact hordered
  · obtain ⟨m', hrun⟩ := run_opticalMachine
    refine ⟨_, m', hrun, rfl, ?_⟩
    rcases run_commands hrun with ⟨e, as, he, -⟩ | ⟨plan, entries, wipes, done, as, hordered⟩
    · cases he
    · have hplan : plan = opticalPlan := by
        obtain ⟨m₁, hscout⟩ := hordered.scouted
        obtain ⟨m₂, hthis, -⟩ := yields_scout yields_plan_opticalMachine opticalMachine rfl
        exact Except.ok.inj (Prod.mk.inj (hscout.symm.trans hthis)).1
      subst hplan
      refine ⟨_, entries, wipes, done, as, hordered, rfl, ?_⟩
      rw [hordered.commands rfl]
      refine .trans ?_ (List.sublist_append_right _ _)
      refine .cons _ (.trans ?_ (List.sublist_append_right _ _))
      exact .cons_cons _ (.cons _ (.cons_cons _ (.cons _ .slnil)))

end Groundwork.Install
