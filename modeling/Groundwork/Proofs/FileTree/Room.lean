import Groundwork.Proofs.FileTree

/-! Room for a new file. Directories are made around it, and it can be taken away again; the files
that were there before are left as they were. -/
namespace Groundwork.FileTree

variable {t t' t'' : FileTree} {place q : Location} {path : String} {n : Node} {e : SystemError}

/-- Whatever stands somewhere stands in a directory. -/
def Grounded (t : FileTree) : Prop :=
  ∀ q n, t.node? q = some n → q ≠ [] → t.node? q.dropLast = some .directory

theorem grounded_of_nodes (h : ∀ e ∈ t.nodes, t.node? e.1.dropLast = some .directory) :
    t.Grounded := by
  intro q n hq hroot
  rw [node?, if_neg hroot] at hq
  obtain ⟨front, back, hnodes, -⟩ := List.lookup_eq_some_iff.1 hq
  exact h (q, n) (by simp [hnodes])

theorem Grounded.nothing_in (h : t.Grounded) (hp : t.node? place ≠ some .directory)
    (step : String) : t.node? (place ++ [step]) = none := by
  cases hn : t.node? (place ++ [step]) with
  | none => rfl
  | some n =>
    have habove := h _ n hn (by simp)
    rw [List.dropLast_concat] at habove
    exact (hp habove).elim

/-- Below a place that is no directory there is nothing. Induction on the steps that lead down. -/
theorem Grounded.nothing_below (h : t.Grounded) (hp : t.node? place ≠ some .directory)
    (step : String) (steps : Location) : t.node? (place ++ step :: steps) = none := by
  induction steps generalizing place step with
  | nil => exact h.nothing_in hp step
  | cons step' steps ih =>
    have hnext : t.node? (place ++ [step]) ≠ some .directory := by
      rw [h.nothing_in hp step]
      simp
    simpa using ih hnext step'

/-! ### Directories -/

/-- A tree that another one becomes when directories are made in it. -/
structure Grown (t t' : FileTree) : Prop where
  grounded : t.Grounded → t'.Grounded
  nodes : ∀ q, t'.node? q = t.node? q ∨ (t.node? q = none ∧ t'.node? q = some .directory)

namespace Grown

theorem refl (t : FileTree) : Grown t t := ⟨id, fun _ => .inl rfl⟩

theorem trans (h : Grown t t') (h' : Grown t' t'') : Grown t t'' where
  grounded := h'.grounded ∘ h.grounded
  nodes := by
    intro q
    rcases h.nodes q with hq | ⟨hnone, hq⟩
    · rw [← hq]
      exact h'.nodes q
    · rcases h'.nodes q with hq' | ⟨hnone', -⟩
      · exact .inr ⟨hnone, hq'.trans hq⟩
      · rw [hq] at hnone'
        cases hnone'

/-- What is no directory is there before if and only if it is there after. -/
theorem node?_eq_some_iff (h : Grown t t') (hn : n.isDirectory = false) :
    t'.node? q = some n ↔ t.node? q = some n := by
  rcases h.nodes q with hq | ⟨hnone, hq⟩
  · rw [hq]
  · rw [hnone, hq]
    constructor
    · intro hd
      cases hd
      cases hn
    · intro hd
      cases hd

end Grown

theorem newPlace_eq_ok {p : Location} (h : t.newPlace place = .ok p) :
    p = place ∧ t.node? place.dropLast = some .directory := by
  unfold newPlace at h
  split at h
  · next hd => exact ⟨(Except.ok.inj h).symm, hd⟩
  · cases h
  · cases h

theorem ne_root_of_node? (h : t.node? place ≠ some .directory) : place ≠ [] := by
  rintro rfl
  exact h (node?_root t)

theorem grown_set (hp : t.node? place = none) (habove : t.node? place.dropLast = some .directory) :
    Grown t (t.set place .directory) := by
  have hne : place ≠ [] := by
    rintro rfl
    rw [node?_root] at hp
    cases hp
  constructor
  · intro hg q n hq hroot
    rw [node?_set hne] at hq ⊢
    split
    · rfl
    · by_cases hqp : q = place
      · rwa [hqp]
      · rw [if_neg hqp] at hq
        exact hg q n hq hroot
  · intro q
    rw [node?_set hne]
    split
    · next hq => exact .inr ⟨hq ▸ hp, rfl⟩
    · exact .inl rfl

theorem grown_makeDirectory (h : t.makeDirectory path = .ok t') : Grown t t' := by
  unfold makeDirectory at h
  cases hl : t.locate path false with
  | error e => simp [hl, bind, Except.bind] at h
  | ok at' =>
    simp only [hl, bind, Except.bind] at h
    cases hn : t.node? at' with
    | some n => simp [hn] at h
    | none =>
      cases hnew : t.newPlace at' with
      | error e => simp [hn, hnew] at h
      | ok p =>
        obtain ⟨rfl, habove⟩ := newPlace_eq_ok hnew
        simp only [hn, hnew, Except.ok.injEq] at h
        exact h ▸ grown_set hn habove

theorem grown_ensureDirectory (t : FileTree) (path : String) :
    Grown t (t.ensureDirectory path).1 := by
  unfold ensureDirectory
  cases hm : t.makeDirectory path with
  | ok t' => exact grown_makeDirectory hm
  | error e => exact .refl t

/-- Induction on the number of directories that may be made above. -/
theorem grown_makeDirectories (depth : Nat) (t : FileTree) (path : String) :
    Grown t (makeDirectories depth t path).1 := by
  induction depth generalizing t path with
  | zero => exact grown_ensureDirectory t path
  | succ depth ih =>
    unfold makeDirectories
    split
    · exact .refl t
    · split
      · next above _ _ =>
        split
        · have habove := ih t above
          split
          · next t₁ heq =>
            rw [heq] at habove
            exact habove.trans (grown_ensureDirectory t₁ path)
          · next t₁ e heq =>
            rw [heq] at habove
            exact habove
        · exact grown_ensureDirectory t path
      · exact grown_ensureDirectory t path

theorem grown_makePath (t : FileTree) (path : String) : Grown t (t.makePath path).1 :=
  grown_makeDirectories _ t path

/-! ### A file that is put somewhere and taken away -/

theorem lookup_filter_not_prefix (nodes : List (Location × Node)) (p q : Location) :
    (nodes.filter fun e => !p.isPrefixOf e.1).lookup q =
      if p.isPrefixOf q then none else nodes.lookup q := by
  induction nodes with
  | nil => simp
  | cons e nodes ih =>
    obtain ⟨k, v⟩ := e
    by_cases hq : q = k
    · subst hq
      cases hp : p.isPrefixOf q <;> simp [hp, ih]
    · have hb : (q == k) = false := by simpa using hq
      cases hp : p.isPrefixOf k <;> simp [hp, ih, List.lookup_cons, hb]

theorem node?_cut (hp : place ≠ []) (t : FileTree) (q : Location) :
    (t.cut place).node? q = if place <+: q then none else t.node? q := by
  by_cases hq : q = []
  · subst hq
    simp [node?, hp]
  · simp only [node?, hq, if_false, cut, lookup_filter_not_prefix, List.isPrefixOf_iff_prefix]

/-- A file that was put where no directory stood, and is taken away. -/
theorem node?_cut_set (hg : t.Grounded) (hp : t.node? place ≠ some .directory) (n : Node)
    (q : Location) :
    ((t.set place n).cut place).node? q = if q = place then none else t.node? q := by
  have hne := ne_root_of_node? hp
  rw [node?_cut hne, node?_set hne]
  by_cases hpre : place <+: q
  · obtain ⟨steps, rfl⟩ := hpre
    cases steps with
    | nil => simp
    | cons step steps => simp [hg.nothing_below hp step steps]
  · have hqp : q ≠ place := by
      rintro rfl
      exact hpre List.prefix_rfl
    simp [hpre, hqp]

/-- A tree that another one becomes when a file is put in a place where no directory was. -/
structure Filed (t t' : FileTree) (place : Location) : Prop where
  start : t'.start = t.start
  file : ∃ content mode, t'.node? place = some (.file content mode)
  others : ∀ q, q ≠ place → t'.node? q = t.node? q
  old : t.node? place ≠ some .directory

namespace Filed

/-- A walk that follows no link at its end comes to the same end, unless it went through a link that
the file has replaced. -/
theorem walk (h : Filed t t' place) (at' : Location) (steps : List String) (w : Walk)
    (hw : t.walk false at' steps = .ok w) : t'.walk false at' steps = .ok w ∨
      (∃ target, t.node? place = some (.link target)) ∧ ∃ e, t'.walk false at' steps = .error e := by
  induction steps generalizing at' with
  | nil => exact .inl hw
  | cons step rest ih =>
    simp only [FileTree.walk] at hw ⊢
    split
    · next hs => exact ih _ (by simpa [hs] using hw)
    · next hs =>
      simp only [hs, if_false] at hw
      split
      · next hs' => exact ih _ (by simpa [hs'] using hw)
      · next hs' =>
        simp only [hs', if_false] at hw
        split
        · next hl => simp [hl] at hw
        · next hl =>
          simp only [hl, if_false] at hw
          by_cases hp : at' ++ [step] = place
          · obtain ⟨content, mode, hnew⟩ := h.file
            rw [hp, hnew]
            rw [hp] at hw
            cases hold : t.node? place with
            | none => cases rest <;> simp_all
            | some n =>
              cases n with
              | directory => exact (h.old hold).elim
              | file c m => cases rest <;> simp_all
              | link target =>
                cases rest with
                | nil => exact .inl (by simpa [hold] using hw)
                | cons next rest => exact .inr ⟨⟨target, rfl⟩, _, rfl⟩
          · rw [h.others _ hp]
            cases hn : t.node? (at' ++ [step]) with
            | none => exact .inl (by simpa [hn] using hw)
            | some n =>
              cases n with
              | directory => exact ih _ (by simpa [hn] using hw)
              | file c m => exact .inl (by simpa [hn] using hw)
              | link target => exact .inl (by simpa [hn] using hw)

theorem trace (h : Filed t t' place) (links : Nat) (at' : Location) (steps : List String)
    (goal : Location) (ht : t.trace false links at' steps = .ok goal) :
    t'.trace false links at' steps = .ok goal ∨
      (∃ target, t.node? place = some (.link target)) ∧
        ∃ e, t'.trace false links at' steps = .error e := by
  induction links generalizing at' steps with
  | zero =>
    unfold FileTree.trace at ht ⊢
    cases hw : t.walk false at' steps with
    | error e => simp [hw] at ht
    | ok w =>
      rw [hw] at ht
      rcases h.walk at' steps w hw with hw' | ⟨hlink, e, hw'⟩
      · exact .inl (by rw [hw']; exact ht)
      · exact .inr ⟨hlink, e, by rw [hw']⟩
  | succ links ih =>
    unfold FileTree.trace at ht ⊢
    cases hw : t.walk false at' steps with
    | error e => simp [hw] at ht
    | ok w =>
      rw [hw] at ht
      rcases h.walk at' steps w hw with hw' | ⟨hlink, e, hw'⟩
      · rw [hw']
        cases w with
        | arrived to' => exact .inl ht
        | redirected from' target rest => exact ih _ _ ht
      · exact .inr ⟨hlink, e, by rw [hw']⟩

theorem locate (h : Filed t t' place) {goal : Location} (hl : t.locate path false = .ok goal) :
    t'.locate path false = .ok goal ∨
      (∃ target, t.node? place = some (.link target)) ∧ ∃ e, t'.locate path false = .error e := by
  unfold FileTree.locate at hl ⊢
  rw [h.start]
  split
  · next hs => simp [hs] at hl
  · next hs =>
    rw [if_neg hs] at hl
    split
    · next hs' => simp [hs'] at hl
    · next hs' =>
      rw [if_neg hs'] at hl
      split
      · next hs'' => simp [hs''] at hl
      · next hs'' =>
        rw [if_neg hs''] at hl
        exact h.trace _ _ _ _ hl

/-- A file is taken away by its name, unless it replaced a link on the way to itself. -/
theorem unlink (h : Filed t t' place) (hl : t.locate path false = .ok place) :
    t'.unlink path = .ok (t'.cut place) ∨
      (∃ target, t.node? place = some (.link target)) ∧ ∃ e, t'.unlink path = .error e := by
  obtain ⟨content, mode, hnew⟩ := h.file
  rcases h.locate hl with hl' | ⟨hlink, e, hl'⟩
  · exact .inl (by simp [FileTree.unlink, find, hl', hnew, bind, Except.bind])
  · exact .inr ⟨hlink, e, by simp [FileTree.unlink, find, hl', bind, Except.bind]⟩

end Filed

/-- A file is put in a place by a change of its node. -/
theorem filed_set (hp : t.node? place ≠ some .directory) (content : ByteArray) (mode : Nat) :
    Filed t (t.set place (.file content mode)) place := by
  have hne := ne_root_of_node? hp
  constructor
  · exact start_set t place _
  · exact ⟨content, mode, by simp [node?_set hne]⟩
  · intro q hq
    simp [node?_set hne, hq]
  · exact hp

/-- A file that was put somewhere and taken away by its name: the place is empty, or the name went
through a link that the file replaced, and the file stays. Nothing else has changed. -/
theorem node?_unlink_set (hg : t.Grounded) (hl : t.locate path false = .ok place)
    (hp : t.node? place ≠ some .directory) (content : ByteArray) (mode : Nat) :
    let t₁ := t.set place (.file content mode)
    let t₂ := (t₁.unlink path).toOption.getD t₁
    (∀ q, q ≠ place → t₂.node? q = t.node? q) ∧ (t₂.node? place = none ∨
      (∃ target, t.node? place = some (.link target)) ∧
        t₂.node? place = some (.file content mode)) := by
  intro t₁ t₂
  have hne := ne_root_of_node? hp
  rcases (filed_set hp content mode).unlink hl with hu | ⟨hlink, e, hu⟩
  · have ht₂ : t₂ = t₁.cut place := by simp [t₂, t₁, hu, Except.toOption]
    have hcut := node?_cut_set hg hp (.file content mode)
    rw [ht₂]
    constructor
    · intro q hq
      rw [hcut, if_neg hq]
    · exact .inl (by rw [hcut, if_pos rfl])
  · have ht₂ : t₂ = t₁ := by simp [t₂, t₁, hu, Except.toOption]
    rw [ht₂]
    constructor
    · intro q hq
      rw [node?_set hne, if_neg hq]
    · exact .inr ⟨hlink, by rw [node?_set hne, if_pos rfl]⟩

/-- What a finished file takes the place of: nothing, or something that is no directory. -/
theorem replace_eq_ok {content : ByteArray} {mode : Nat}
    (h : t.replace path content mode = .ok t') : ∃ place, t.locate path false = .ok place ∧
      t.node? place ≠ some .directory ∧ t' = t.set place (.file content mode) := by
  unfold replace at h
  cases hl : t.locate path false with
  | error e => simp [hl, bind, Except.bind] at h
  | ok at' =>
    simp only [hl, bind, Except.bind] at h
    refine ⟨at', rfl, ?_⟩
    cases hn : t.node? at' with
    | none =>
      cases hnew : t.newPlace at' with
      | error e => simp [hn, hnew] at h
      | ok p =>
        obtain ⟨rfl, -⟩ := newPlace_eq_ok hnew
        simp only [hn, hnew, Except.ok.injEq] at h
        exact ⟨by simp, h.symm⟩
    | some n =>
      cases n with
      | directory => simp [hn] at h
      | file c m =>
        simp only [hn, Except.ok.injEq] at h
        exact ⟨by simp, h.symm⟩
      | link target =>
        simp only [hn, Except.ok.injEq] at h
        exact ⟨by simp, h.symm⟩

theorem replace_of_find (h : t.find path false = .ok (place, n)) (hn : n.isDirectory = false)
    (content : ByteArray) (mode : Nat) :
    t.replace path content mode = .ok (t.set place (.file content mode)) := by
  obtain ⟨hl, hnode⟩ := find_eq_ok.1 h
  cases n with
  | directory => cases hn
  | file c m => simp [replace, hl, hnode, bind, Except.bind]
  | link target => simp [replace, hl, hnode, bind, Except.bind]

end Groundwork.FileTree
