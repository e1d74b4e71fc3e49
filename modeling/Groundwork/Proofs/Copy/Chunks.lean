import Groundwork.Machine.Scripted
import Groundwork.Proofs.Copy
import Groundwork.Proofs.Registry

/-! The course of a copy. All chunks but the last are full however the reads come back, so the same is
written each time, and the progress is told at the same positions: at every tenth chunk. -/
namespace Groundwork.Copy

variable {env : Environment} {source target : String} {content old : ByteArray} {m : Machine}

/-- How many chunks of a mebibyte a content of some size is read in. The last may be a short one. -/
def chunkCount (size : Nat) : Nat := (size + 1048575) / 1048576

/-- The positions at which the progress of a copy is told: one for each full group of ten chunks. -/
def milestones (size : Nat) : List Nat :=
  (List.range (chunkCount size / 10)).map fun group => min (10 * 1048576 * (group + 1)) size

/-- The events of a copy: each of the chunks is written, and every tenth is reported. -/
def copying (target : String) (size : Nat) : List Event :=
  (List.range (chunkCount size)).flatMap fun index =>
    .wrote target :: if (index + 1) % 10 = 0 then
      [.told (.progress (min (1048576 * (index + 1)) size) size)] else []

theorem lt_chunkCount_iff {count size : Nat} : count < chunkCount size ↔ 1048576 * count < size := by
  unfold chunkCount
  omega

/-- What happens is what is still ahead of all the events. Induction on the chunks: before each of them
the position is behind a number of full chunks, or the copy is at its end. -/
theorem course_chunks {position count : Nat} {ds : List Delivery} (hds : ∀ d ∈ ds, d ≠ .upTo 0)
    (hposition : position = min (1048576 * count) content.size) :
    course target content.size position count (chunks content position ds) =
      (List.range' count (chunkCount content.size - count)).flatMap fun index =>
        .wrote target :: if (index + 1) % 10 = 0 then
          [.told (.progress (min (1048576 * (index + 1)) content.size) content.size)] else [] := by
  have hroom : chunkSize = 1048576 := rfl
  fun_induction chunks content position ds generalizing count with
  | case1 position ds hnone =>
    obtain ⟨next, hfrom, hto, hchunk, hfull⟩ :=
      @fillChunk_extract content position chunkSize ds (by omega)
    obtain ⟨hnext, -⟩ := hfull hds
    rw [hchunk, ByteArray.size_extract] at hnone
    have hend : chunkCount content.size - count = 0 := by
      have hcount : ¬ count < chunkCount content.size := by
        rw [lt_chunkCount_iff]
        omega
      omega
    rw [hend, course, List.range'_zero, List.flatMap_nil]
  | case2 position ds hsome ih =>
    obtain ⟨next, hfrom, hto, hchunk, hfull⟩ :=
      @fillChunk_extract content position chunkSize ds (by omega)
    obtain ⟨hnext, hleft⟩ := hfull hds
    have hsize : position + (fillChunk content position chunkSize ds).1.size = next := by
      rw [hchunk, ByteArray.size_extract]
      omega
    rw [hchunk, ByteArray.size_extract] at hsome
    have hcount : count < chunkCount content.size := lt_chunkCount_iff.2 (by omega)
    have hahead : chunkCount content.size - count = chunkCount content.size - (count + 1) + 1 := by
      omega
    have hwhole : position = 1048576 * count := by omega
    have hbehind : next = min (1048576 * (count + 1)) content.size := by
      rw [hnext, hwhole, hroom, Nat.mul_succ]
    rw [hsize] at ih
    rw [course, hsize, ih (fun d hd => hds d (hleft hd)) hbehind, hahead, List.range'_succ,
      List.flatMap_cons, reported, chunksPerReport, hbehind, List.cons_append]

/-! ### The reports -/

/-- What an event tells the operator. -/
def notice? : Event → Option Notice
  | .told n => some n
  | _ => none

theorem notices_copying (target : String) (size : Nat) :
    (copying target size).filterMap notice? =
      (milestones size).map fun position => .progress position size := by
  unfold copying milestones
  generalize chunkCount size = chunks
  induction chunks with
  | zero => rfl
  | succ chunks ih =>
    rw [List.range_succ, List.flatMap_append, List.filterMap_append, ih, List.flatMap_singleton]
    by_cases hgroup : (chunks + 1) % 10 = 0
    · have hdiv : (chunks + 1) / 10 = chunks / 10 + 1 := by omega
      have hwhole : 10 * 1048576 * (chunks / 10 + 1) = 1048576 * (chunks + 1) := by omega
      rw [if_pos hgroup, hdiv, List.range_succ]
      simp only [List.map_append, List.map_singleton, hwhole]
      rfl
    · have hdiv : (chunks + 1) / 10 = chunks / 10 := by omega
      rw [if_neg hgroup, hdiv]
      exact List.append_nil _

theorem ascending_milestones (size : Nat) : (milestones size).Pairwise (· < ·) := by
  unfold milestones
  refine List.pairwise_map.2 (List.Pairwise.imp_of_mem ?_ List.pairwise_lt_range)
  intro group group' _ hgroup' hlt
  -- A group that has one behind it ends before the content does.
  have hcount : 10 * (group + 1) < chunkCount size := by
    rw [List.mem_range] at hgroup'
    omega
  have hbefore := lt_chunkCount_iff.1 hcount
  omega

theorem le_of_mem_milestones {position size : Nat} (h : position ∈ milestones size) :
    position ≤ size := by
  obtain ⟨group, -, rfl⟩ := List.mem_map.1 h
  exact Nat.min_le_right _ _

/-- A copy between files that are there succeeds however the reads come back, and leaves the source's
content over the old one. It writes chunk after chunk, and its progress is told at every tenth, so at
positions that rise and stay within the content. Without a target it fails and makes none. -/
theorem contents_in_chunks (env : Environment) (source target : String) (m : Machine) :
    (∀ content old, (∀ d ∈ env.deliveries source, d ≠ .upTo 0) →
      m.files.read source = .ok content → m.files.read target = .ok old →
      ∃ m' place, (contents env source target).perform m = (.ok (), m') ∧
        m'.files.read target = .ok (content ++ old.extract content.size old.size) ∧
        m.files.locate target true = .ok place ∧
        (∀ q, q ≠ place → m'.files.node? q = m.files.node? q) ∧
        m'.history = m.history ++ copying target content.size) ∧
    (∀ size, (copying target size).filterMap notice? =
        (milestones size).map (fun position => .progress position size) ∧
      (milestones size).Pairwise (· < ·) ∧ ∀ position ∈ milestones size, position ≤ size) ∧
    (m.files.has target = false → ∃ e, (contents env source target).perform m = (.error e, m)) := by
  refine ⟨?_, fun size => ⟨notices_copying target size, ascending_milestones size,
    fun _ => le_of_mem_milestones⟩, perform_contents_of_not_has⟩
  intro content old hdeliveries hread hold
  obtain ⟨place, mode, hfind⟩ := FileTree.read_eq_ok.1 hold
  have hopen := FileTree.openExisting_eq_ok.2 hfind
  obtain ⟨hrefilled, hplace⟩ := FileTree.refilled_of_openExisting hopen
    (overlay content old content.size)
  refine ⟨_, place, perform_contents hdeliveries hread hopen, ?_, hplace, hrefilled.others, ?_⟩
  · rw [← overlay_size]
    exact hrefilled.read hplace
  · have hcourse := @course_chunks target content 0 0 _ hdeliveries (by omega)
    rw [Nat.sub_zero, ← List.range_eq_range'] at hcourse
    rw [copying, ← hcourse]

/-! ### A short tenth chunk -/

/-- Nine full chunks and a short one. -/
def shortOfTen : ByteArray := ⟨Array.replicate (9 * chunkSize + 5) 7⟩

def hastyEnvironment : Environment :=
  { Script.environment { registry := fun _ => .sample } "/usr/bin/strata" with
    deliveries := fun _ => [.interrupted, .upTo 3, .interrupted, .upTo 1] }

def copyMachine : Machine :=
  ⟨⟨[(["a"], .file shortOfTen FileTree.defaultMode),
    (["b"], .file (shortOfTen ++ shortOfTen) FileTree.defaultMode)], []⟩, [], []⟩

theorem contents_in_chunks_copyMachine :
    (∀ d ∈ hastyEnvironment.deliveries "/a", d ≠ .upTo 0) ∧
    copyMachine.files.read "/a" = .ok shortOfTen ∧
    copyMachine.files.read "/b" = .ok (shortOfTen ++ shortOfTen) ∧
    (∃ m', (contents hastyEnvironment "/a" "/b").perform copyMachine = (.ok (), m') ∧
      m'.files.read "/b" = .ok (shortOfTen ++
        (shortOfTen ++ shortOfTen).extract shortOfTen.size (shortOfTen ++ shortOfTen).size) ∧
      m'.history = List.replicate 10 (.wrote "/b") ++
        [.told (.progress shortOfTen.size shortOfTen.size)]) ∧
    copyMachine.files.has "/c" = false ∧
    ∃ e, (contents hastyEnvironment "/a" "/c").perform copyMachine = (.error e, copyMachine) := by
  have hdeliveries : ∀ d ∈ hastyEnvironment.deliveries "/a", d ≠ .upTo 0 := by
    intro d hd
    simp only [hastyEnvironment, List.mem_cons, List.not_mem_nil, or_false] at hd
    rcases hd with rfl | rfl | rfl | rfl <;> simp
  have hread : copyMachine.files.read "/a" = .ok shortOfTen := rfl
  have hold : copyMachine.files.read "/b" = .ok (shortOfTen ++ shortOfTen) := rfl
  have hsize : shortOfTen.size = 9437189 := Array.size_replicate
  have hmissing : copyMachine.files.has "/c" = false := rfl
  obtain ⟨hcopies, -, -⟩ := contents_in_chunks hastyEnvironment "/a" "/b" copyMachine
  obtain ⟨m', place, hrun, hleft, -, -, hhistory⟩ := hcopies _ _ hdeliveries hread hold
  obtain ⟨-, -, hfails⟩ := contents_in_chunks hastyEnvironment "/a" "/c" copyMachine
  refine ⟨hdeliveries, hread, hold, ⟨m', hrun, hleft, ?_⟩, hmissing, hfails hmissing⟩
  rw [hhistory, hsize]
  rfl

end Groundwork.Copy
