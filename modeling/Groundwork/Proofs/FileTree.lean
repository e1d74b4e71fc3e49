import Groundwork.FileTree

/-! What a file tree holds after a change, and that a change of one file leaves the ways to all
places as they were. -/
namespace Groundwork.FileTree

variable {t t' : FileTree} {p q place : Location} {content : ByteArray} {path : String}

theorem lookup_setNode (p : Location) (n : Node) (nodes : List (Location × Node)) (q : Location) :
    (setNode p n nodes).lookup q = if q = p then some n else nodes.lookup q := by
  induction nodes with
  | nil =>
    rw [setNode]
    by_cases hq : q = p
    · simp [hq]
    · simp [List.lookup_cons, hq, beq_false_of_ne hq]
  | cons e rest ih =>
    obtain ⟨k, v⟩ := e
    rw [setNode]
    by_cases hk : k = p
    · subst hk
      by_cases hq : q = k
      · simp [hq]
      · simp [List.lookup_cons, hq, beq_false_of_ne hq]
    · by_cases hq : q = k
      · subst hq
        simp [hk]
      · simp [List.lookup_cons, hk, beq_false_of_ne hq, ih]

theorem setNode_self {n : Node} {nodes : List (Location × Node)}
    (h : nodes.lookup p = some n) : setNode p n nodes = nodes := by
  induction nodes with
  | nil => cases h
  | cons e rest ih =>
    obtain ⟨k, v⟩ := e
    rw [setNode]
    by_cases hk : k = p
    · subst hk
      simp only [List.lookup_cons, beq_self_eq_true, Option.some.injEq] at h
      simp [h]
    · have hb : (p == k) = false := by simpa using Ne.symm hk
      simp only [List.lookup_cons, hb] at h
      simp [hk, ih h]

theorem setNode_setNode (p : Location) (n n' : Node) (nodes : List (Location × Node)) :
    setNode p n' (setNode p n nodes) = setNode p n' nodes := by
  induction nodes with
  | nil => simp [setNode]
  | cons e rest ih =>
    by_cases hk : e.1 = p
    · simp [setNode, hk]
    · simp [setNode, hk, ih]

theorem map_fst_setNode (p : Location) (n : Node) (nodes : List (Location × Node)) :
    (setNode p n nodes).map (·.1) =
      if p ∈ nodes.map (·.1) then nodes.map (·.1) else nodes.map (·.1) ++ [p] := by
  induction nodes with
  | nil => rfl
  | cons e rest ih =>
    rw [setNode]
    by_cases hk : e.1 = p
    · simp [hk]
    · simp only [hk, if_false, List.map_cons, ih, List.mem_cons, Ne.symm hk, false_or]
      split <;> rfl

theorem node?_set (hp : p ≠ []) (t : FileTree) (n : Node) (q : Location) :
    (t.set p n).node? q = if q = p then some n else t.node? q := by
  by_cases hq : q = []
  · subst hq
    simp [node?, Ne.symm hp]
  · simp only [node?, hq, if_false, set, lookup_setNode]

@[simp] theorem start_set (t : FileTree) (p : Location) (n : Node) :
    (t.set p n).start = t.start := rfl

theorem node?_root (t : FileTree) : t.node? [] = some .directory := rfl

theorem find_eq_ok {follow : Bool} {n : Node} : t.find path follow = .ok (place, n) ↔
    t.locate path follow = .ok place ∧ t.node? place = some n := by
  unfold find
  cases hl : t.locate path follow with
  | error e => simp [bind, Except.bind]
  | ok at' =>
    cases hn : t.node? at' with
    | none =>
      simp only [bind, Except.bind, hn, Except.ok.injEq]
      constructor
      · intro h
        cases h
      · rintro ⟨rfl, h⟩
        rw [hn] at h
        cases h
    | some n' =>
      simp only [bind, Except.bind, hn, Except.ok.injEq, Prod.mk.injEq]
      constructor
      · rintro ⟨rfl, rfl⟩
        exact ⟨rfl, hn⟩
      · rintro ⟨rfl, h⟩
        rw [hn] at h
        exact ⟨rfl, Option.some.inj h⟩

/-- A tree that another one becomes when the file at a place gets a new content, or is made. -/
structure Refilled (t t' : FileTree) (place : Location) (content : ByteArray) : Prop where
  start : t'.start = t.start
  file : ∃ mode, (t.node? place = none ∨ ∃ old, t.node? place = some (.file old mode)) ∧
    t'.node? place = some (.file content mode)
  others : ∀ q, q ≠ place → t'.node? q = t.node? q

namespace Refilled

/-- A walk that comes to an end does not go through the file, so it goes on as before. -/
theorem walk (h : Refilled t t' place content) (follow : Bool) (at' : Location)
    (steps : List String) (w : Walk) (hw : t.walk follow at' steps = .ok w) :
    t'.walk follow at' steps = .ok w := by
  induction steps generalizing at' with
  | nil => exact hw
  | cons step rest ih =>
    simp only [FileTree.walk] at hw ⊢
    split
    · next hs => exact ih _ (by simpa [hs] using hw)
    · next hs =>
      simp only [hs, if_false] at hw
      split
      · next hs' => exact ih _ (by simpa [hs'] using hw)
      · next hs' =>
        simp only [hs', if_false] at hw
        split
        · next hl => simp [hl] at hw
        · next hl =>
          simp only [hl, if_false] at hw
          by_cases hp : at' ++ [step] = place
          · obtain ⟨mode, hold, hnew⟩ := h.file
            rw [hp, hnew]
            rw [hp] at hw
            obtain hold | ⟨old, hold⟩ := hold
            · cases rest with
              | nil => simpa [hold] using hw
              | cons next rest => simp [hold] at hw
            · simpa [hold] using hw
          · rw [h.others _ hp]
            cases hn : t.node? (at' ++ [step]) with
            | none => simpa [hn] using hw
            | some n =>
              cases n with
              | directory => exact ih _ (by simpa [hn] using hw)
              | file old mode => simpa [hn] using hw
              | link target => simpa [hn] using hw

theorem trace (h : Refilled t t' place content) (follow : Bool) (links : Nat) (at' : Location)
    (steps : List String) (goal : Location) (ht : t.trace follow links at' steps = .ok goal) :
    t'.trace follow links at' steps = .ok goal := by
  induction links generalizing at' steps with
  | zero =>
    simp only [FileTree.trace] at ht ⊢
    cases hw : t.walk follow at' steps with
    | error e => simp [hw] at ht
    | ok w => rw [h.walk follow at' steps w hw]; simpa [hw] using ht
  | succ links ih =>
    unfold FileTree.trace at ht ⊢
    cases hw : t.walk follow at' steps with
    | error e => simp [hw] at ht
    | ok w =>
      rw [h.walk follow at' steps w hw]
      rw [hw] at ht
      cases w with
      | arrived to' => exact ht
      | redirected from' target rest => exact ih _ _ ht

theorem locate (h : Refilled t t' place content) {follow : Bool} {goal : Location}
    (hl : t.locate path follow = .ok goal) : t'.locate path follow = .ok goal := by
  unfold FileTree.locate at hl ⊢
  rw [h.start]
  split
  · next hs => simp [hs] at hl
  · next hs =>
    rw [if_neg hs] at hl
    split
    · next hs' => simp [hs'] at hl
    · next hs' =>
      rw [if_neg hs'] at hl
      split
      · next hs'' => simp [hs''] at hl
      · next hs'' =>
        rw [if_neg hs''] at hl
        exact h.trace _ _ _ _ _ hl

/-- The new content is what reading gives. -/
theorem read (h : Refilled t t' place content) (hl : t.locate path true = .ok place) :
    t'.read path = .ok content := by
  obtain ⟨mode, -, hnew⟩ := h.file
  simp [FileTree.read, FileTree.find, h.locate hl, hnew, bind, Except.bind]

/-- A tree is as before if and only if the file had the content already. -/
theorem unchanged_iff (h : Refilled t t' place content) (hl : t.locate path true = .ok place) :
    (∀ q, t'.node? q = t.node? q) ↔ t.read path = .ok content := by
  obtain ⟨mode, hold, hnew⟩ := h.file
  have hread : t.read path = .ok content ↔ t.node? place = some (.file content mode) := by
    obtain hold | ⟨old, hold⟩ := hold <;>
      simp [FileTree.read, FileTree.find, hl, hold, bind, Except.bind]
  rw [hread]
  constructor
  · intro hsame
    rw [← hsame place, hnew]
  · intro hwas q
    by_cases hq : q = place
    · rw [hq, hnew, hwas]
    · exact h.others q hq

end Refilled

/-- What is opened for a fresh start and then filled is a file with just that content. -/
theorem refilled_of_create {t₁ : FileTree} (h : t.create path = .ok (place, t₁))
    (content : ByteArray) :
    Refilled t (t₁.refill place content) place content ∧ t.locate path true = .ok place := by
  unfold create at h
  cases hl : t.locate path true with
  | error e => simp [hl, bind, Except.bind] at h
  | ok at' =>
    simp only [hl, bind, Except.bind] at h
    cases hn : t.node? at' with
    | none =>
      have hp : at' ≠ [] := by
        intro he
        rw [he, node?_root] at hn
        cases hn
      cases hnew : t.newPlace at' with
      | error e => simp [hn, hnew] at h
      | ok fresh =>
        have hfresh : fresh = at' := by
          unfold newPlace at hnew
          split at hnew <;> simp_all
        subst hfresh
        simp only [hn, hnew, Except.ok.injEq, Prod.mk.injEq] at h
        obtain ⟨rfl, rfl⟩ := h
        refine ⟨⟨?_, ⟨defaultMode, .inl hn, ?_⟩, ?_⟩, rfl⟩ <;>
          simp +contextual [refill, node?_set hp]
    | some n =>
      have hp : ∀ c mode, n = .file c mode → at' ≠ [] := by
        intro c mode hc he
        rw [he, node?_root] at hn
        cases hn
        cases hc
      cases n with
      | directory => simp [hn] at h
      | link target => simp [hn] at h
      | file old mode =>
        have hp := hp old mode rfl
        simp only [hn, Except.ok.injEq, Prod.mk.injEq] at h
        obtain ⟨rfl, rfl⟩ := h
        refine ⟨⟨?_, ⟨mode, .inr ⟨old, hn⟩, ?_⟩, ?_⟩, rfl⟩ <;>
          simp +contextual [refill, node?_set hp]

/-! ### A file that is there -/

theorem read_eq_ok : t.read path = .ok content ↔
    ∃ place mode, t.find path true = .ok (place, .file content mode) := by
  unfold read
  cases hf : t.find path true with
  | error e => simp [bind, Except.bind]
  | ok r =>
    obtain ⟨place, n⟩ := r
    cases n <;> simp [bind, Except.bind]

theorem list_eq_ok {names : List String} : t.list path = .ok names ↔
    ∃ place, t.find path true = .ok (place, .directory) ∧
      names = (t.below place).mergeSort (· ≤ ·) := by
  unfold list
  cases hf : t.find path true with
  | error e => simp [bind, Except.bind]
  | ok r =>
    obtain ⟨place, n⟩ := r
    cases n <;> simp [bind, Except.bind, eq_comm]

theorem openExisting_eq_ok {mode : Nat} : t.openExisting path = .ok (place, content, mode) ↔
    t.find path true = .ok (place, .file content mode) := by
  unfold openExisting
  cases hf : t.find path true with
  | error e => simp [bind, Except.bind]
  | ok r =>
    obtain ⟨at', n⟩ := r
    cases n <;> simp [bind, Except.bind]

theorem ne_root_of_openExisting {old : ByteArray} {mode : Nat}
    (h : t.openExisting path = .ok (place, old, mode)) : place ≠ [] := by
  obtain ⟨-, hn⟩ := find_eq_ok.1 (openExisting_eq_ok.1 h)
  rintro rfl
  rw [node?_root] at hn
  cases hn

theorem refilled_of_openExisting {old : ByteArray} {mode : Nat}
    (h : t.openExisting path = .ok (place, old, mode)) (content : ByteArray) :
    Refilled t (t.refill place content) place content ∧ t.locate path true = .ok place := by
  obtain ⟨hl, hn⟩ := find_eq_ok.1 (openExisting_eq_ok.1 h)
  have hp := ne_root_of_openExisting h
  refine ⟨⟨?_, ⟨mode, .inr ⟨old, hn⟩, ?_⟩, ?_⟩, hl⟩ <;> simp +contextual [refill, hn, node?_set hp]

theorem refill_eq_set {old : ByteArray} {mode : Nat} (h : t.node? place = some (.file old mode))
    (content : ByteArray) : t.refill place content = t.set place (.file content mode) := by
  rw [refill, h]

/-- To give a file what it holds changes nothing. -/
theorem refill_self {old : ByteArray} {mode : Nat}
    (h : t.openExisting path = .ok (place, old, mode)) : t.refill place old = t := by
  obtain ⟨-, hn⟩ := find_eq_ok.1 (openExisting_eq_ok.1 h)
  rw [refill_eq_set hn, set]
  rw [node?, if_neg (ne_root_of_openExisting h)] at hn
  rw [setNode_self hn]

theorem refill_refill {old : ByteArray} {mode : Nat}
    (h : t.openExisting path = .ok (place, old, mode)) (content new : ByteArray) :
    (t.refill place content).refill place new = t.refill place new := by
  obtain ⟨-, hn⟩ := find_eq_ok.1 (openExisting_eq_ok.1 h)
  have hthen : (t.set place (.file content mode)).node? place = some (.file content mode) := by
    rw [node?_set (ne_root_of_openExisting h), if_pos rfl]
  rw [refill_eq_set hn, refill_eq_set hn, refill_eq_set hthen, set, set, setNode_setNode, set]

theorem openExisting_refill {old : ByteArray} {mode : Nat}
    (h : t.openExisting path = .ok (place, old, mode)) (content : ByteArray) :
    (t.refill place content).openExisting path = .ok (place, content, mode) := by
  obtain ⟨hrefilled, hl⟩ := refilled_of_openExisting h content
  obtain ⟨-, hn⟩ := find_eq_ok.1 (openExisting_eq_ok.1 h)
  refine openExisting_eq_ok.2 (find_eq_ok.2 ⟨hrefilled.locate hl, ?_⟩)
  rw [refill_eq_set hn, node?_set (ne_root_of_openExisting h), if_pos rfl]

end Groundwork.FileTree
