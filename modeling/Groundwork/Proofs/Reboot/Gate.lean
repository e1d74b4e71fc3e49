import Groundwork.Proofs.Install.Media
import Groundwork.Proofs.Reset.Steps

/-! The gate before a reboot, for both workflows that end in one. -/
namespace Groundwork

variable {env : Environment} {config : Config} {request : ResetRequest}

namespace Reset

theorem works_writeSeeds : Action.Works (writeSeeds env config request) := by
  have hstore (b : Bundle) (disk : String) : Action.Works (do
      (request.mergeInto b).store (partitionPath disk config.layout.seed)
      return disk) :=
    Action.Works.bind (records_store (fun _ => trivial) trivial _) fun _ => .still fun _ => rfl
  refine (Action.Works.ofExcept _).bind fun _ => (works_systemDisk _).bind fun disk => ?_
  dsimp only
  split
  · exact hstore .empty disk
  · exact (works_load _).bind fun b => hstore b disk

variable (env config request) in
/-- All of a reset but its end. -/
def work : Action Unit := do
  let disk ← writeSeeds env config request
  clearChip env request.allowChipFailure
  config.layout.resetTargets.forM fun index =>
    Action.marking "Deleting data partitions" (PartitionTable.delete env disk index)

theorem run_eq_work : run env config request = (do
    work env config request
    Install.finish config.delays.reset) := by
  simp only [run, work, bind_assoc]

theorem works_work : Action.Works (work env config request) := by
  have hclear : Action.Works (clearChip env request.allowChipFailure) := by
    refine (Action.Works.logged _ _).bind fun _ =>
      Action.Works.bind (Action.Within.attempt (Action.Works.runChecked _)) fun r => ?_
    split
    · exact .still fun _ => rfl
    · split
      · exact .logged _ _
      · exact .still fun _ => rfl
  exact works_writeSeeds.bind fun _ => hclear.bind fun _ =>
    .forM fun _ => (PartitionTable.works_delete _ _).marking _

theorem run_gated (env : Environment) (config : Config) (request : ResetRequest) (m : Machine) :
    ∃ r m', (run env config request).perform m = (r, m') ∧
      Gated env Event.IsWork config.delays.reset [] m m' r.toOption := by
  rw [run_eq_work]
  rcases hwork : (work env config request).perform m with ⟨e | _, m₁⟩
  · exact ⟨_, _, Action.perform_bind_of_error _ hwork,
      gated_of_cases (.inl ⟨rfl, works_work.of_eq hwork⟩)⟩
  · exact ⟨_, _, (Action.perform_bind_of_ok _ hwork).trans (Install.perform_finish _ _),
      gated_of_cases (.inr ⟨rfl, m₁, works_work.of_eq hwork, rfl⟩)⟩

end Reset

/-- A reboot comes of an installation or a reset if and only if that succeeds: once, after the sleep
of the configured delay, and after one flush of the disks that follows all the work. An installation
flushes them only when the media is seen to be gone, unless its reboot is forced. -/
theorem reboot_gate (env : Environment) (config : Config) (options : InstallOptions)
    (request : ResetRequest) (m : Machine) :
    (∃ r m', (Install.run env config options).perform m = (r, m') ∧
      Install.Ends env config options m r m' ∧
      Gated env Event.IsOpen config.delays.install [.told .done] m m' r.toOption.join) ∧
    ∃ r m', (Reset.run env config request).perform m = (r, m') ∧
      Gated env Event.IsWork config.delays.reset [] m m' r.toOption := by
  obtain ⟨r, m', hrun, hends⟩ := Install.run_ends env config options m
  exact ⟨⟨r, m', hrun, hends, hends.gated⟩, Reset.run_gated env config request m⟩

end Groundwork
