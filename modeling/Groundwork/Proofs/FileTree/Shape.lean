import Groundwork.Proofs.FileTree

/-! Trees that differ at most in the contents of files. The ways through them are the same, so what
is filled under some paths leaves what other paths lead to. -/
namespace Groundwork.FileTree

variable {t t' t'' : FileTree} {paths : List String} {path : String} {place q : Location}
  {content : ByteArray}

/-- Whether a tree came from another one by new contents for files that were there. -/
structure SameShape (t t' : FileTree) : Prop where
  start : t'.start = t.start
  nodes : ∀ q, t'.node? q = t.node? q ∨ ∃ old new mode,
    t.node? q = some (.file old mode) ∧ t'.node? q = some (.file new mode)

namespace SameShape

theorem refl (t : FileTree) : SameShape t t := ⟨rfl, fun _ => .inl rfl⟩

theorem trans (h : SameShape t t') (h' : SameShape t' t'') : SameShape t t'' where
  start := h'.start.trans h.start
  nodes := by
    intro q
    rcases h.nodes q with hq | ⟨old, new, mode, hold, hnew⟩
    · rw [← hq]
      exact h'.nodes q
    · rcases h'.nodes q with hq' | ⟨old', new', mode', hold', hnew'⟩
      · exact .inr ⟨old, new, mode, hold, hq'.trans hnew⟩
      · rw [hnew] at hold'
        cases hold'
        exact .inr ⟨old, new', mode, hold, hnew'⟩

theorem walk_eq (h : SameShape t t') (follow : Bool) (at' : Location) (steps : List String) :
    t'.walk follow at' steps = t.walk follow at' steps := by
  induction steps generalizing at' with
  | nil => rfl
  | cons step rest ih =>
    simp only [walk, ih]
    rcases h.nodes (at' ++ [step]) with hq | ⟨old, new, mode, hold, hnew⟩
    · rw [hq]
    · rw [hold, hnew]

theorem trace_eq (h : SameShape t t') (follow : Bool) (links : Nat) (at' : Location)
    (steps : List String) : t'.trace follow links at' steps = t.trace follow links at' steps := by
  induction links generalizing at' steps with
  | zero => simp only [trace, h.walk_eq]
  | succ links ih =>
    unfold trace
    simp only [h.walk_eq, ih]

theorem locate_eq (h : SameShape t t') (path : String) (follow : Bool) :
    t'.locate path follow = t.locate path follow := by
  simp only [locate, h.start, h.trace_eq]

/-- A file that can be read can still be read. -/
theorem exists_read (h : SameShape t t') (hread : t.read path = .ok content) :
    ∃ new, t'.read path = .ok new := by
  obtain ⟨place, mode, hfind⟩ := read_eq_ok.1 hread
  obtain ⟨hl, hn⟩ := find_eq_ok.1 hfind
  rw [← h.locate_eq] at hl
  rcases h.nodes place with hsame | ⟨old, new, mode', hold, hnew⟩
  · exact ⟨content, read_eq_ok.2 ⟨place, mode, find_eq_ok.2 ⟨hl, hsame.trans hn⟩⟩⟩
  · exact ⟨new, read_eq_ok.2 ⟨place, mode', find_eq_ok.2 ⟨hl, hnew⟩⟩⟩

/-- A path that leads nowhere still does so. -/
theorem find_error {e : SystemError} {follow : Bool} (h : SameShape t t')
    (hfind : t.find path follow = .error e) : t'.find path follow = .error e := by
  unfold find at hfind ⊢
  rw [h.locate_eq]
  cases hl : t.locate path follow with
  | error e' =>
    rw [hl] at hfind
    exact hfind
  | ok place =>
    rw [hl] at hfind
    rcases h.nodes place with hsame | ⟨old, new, mode, hold, -⟩
    · simp only [bind, Except.bind, hsame] at hfind ⊢
      exact hfind
    · simp only [bind, Except.bind, hold] at hfind
      cases hfind

end SameShape

/-- Whether a path leads to no place that one of some other paths leads to. -/
def Apart (t : FileTree) (path : String) (paths : List String) : Prop :=
  ∀ q, t.locate path true = .ok q → ∀ p ∈ paths, t.locate p true ≠ .ok q

theorem apart_iff : t.Apart path paths ↔ ∀ q ∈ (t.locate path true).toOption, ∀ p ∈ paths,
    (t.locate p true).toOption ≠ some q := by
  have hplace (p : String) (q : Location) :
      (t.locate p true).toOption = some q ↔ t.locate p true = .ok q := by
    cases t.locate p true <;> simp [Except.toOption]
  simp only [Apart, Option.mem_def, ne_eq, hplace]

instance (t : FileTree) (path : String) (paths : List String) : Decidable (t.Apart path paths) :=
  decidable_of_iff _ apart_iff.symm

theorem Apart.mono {fewer : List String} (h : t.Apart path paths) (hsub : fewer ⊆ paths) :
    t.Apart path fewer := fun q hq p hp => h q hq p (hsub hp)

theorem SameShape.apart_iff (h : SameShape t t') : t'.Apart path paths ↔ t.Apart path paths := by
  simp only [Apart, h.locate_eq]

/-- Whether a tree came from another one by new contents for the files that some paths lead to. -/
structure Filled (paths : List String) (t t' : FileTree) : Prop where
  shape : SameShape t t'
  others : ∀ q, (∀ path ∈ paths, t.locate path true ≠ .ok q) → t'.node? q = t.node? q

namespace Filled

theorem refl (paths : List String) (t : FileTree) : Filled paths t t := ⟨.refl t, fun _ _ => rfl⟩

theorem trans (h : Filled paths t t') (h' : Filled paths t' t'') : Filled paths t t'' where
  shape := h.shape.trans h'.shape
  others := by
    intro q hq
    rw [h'.others q, h.others q hq]
    intro path hpath
    rw [h.shape.locate_eq]
    exact hq path hpath

theorem of_refilled (h : Refilled t t' place content) (hl : t.locate path true = .ok place)
    {old : ByteArray} (hread : t.read path = .ok old) (hp : path ∈ paths) :
    Filled paths t t' := by
  obtain ⟨at', mode', hfind⟩ := read_eq_ok.1 hread
  obtain ⟨hl', hold⟩ := find_eq_ok.1 hfind
  rw [hl] at hl'
  cases hl'
  obtain ⟨mode, hbefore, hnew⟩ := h.file
  constructor
  · refine ⟨h.start, fun q => ?_⟩
    by_cases hq : q = place
    · rcases hbefore with hnone | ⟨old', hold'⟩
      · rw [hold] at hnone
        cases hnone
      · exact .inr ⟨old', content, mode, hq ▸ hold', hq ▸ hnew⟩
    · exact .inl (h.others q hq)
  · intro q hq
    refine h.others q ?_
    rintro rfl
    exact hq path hp hl

/-- A file that none of the paths leads to reads as before. -/
theorem read_eq (h : Filled paths t t') (hapart : t.Apart path paths) :
    t'.read path = t.read path := by
  unfold read find
  rw [h.shape.locate_eq]
  cases hl : t.locate path true with
  | error e => rfl
  | ok q => simp only [bind, Except.bind, h.others q (hapart q hl)]

end Filled

end Groundwork.FileTree
