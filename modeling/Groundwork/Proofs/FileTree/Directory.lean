import Groundwork.Proofs.FileTree.Room
import Groundwork.Proofs.Path

/-! Names in a directory. A path that leads to a directory leads, with one more name behind it, to a
place directly in that directory; and it goes on leading there while only files come and go. -/
namespace Groundwork.FileTree

variable {t : FileTree} {path base name above : String} {place dir p at' : Location} {n : Node}
  {follow : Bool} {links : Nat} {todo more rest : List String} {target : String} {w : Walk}

/-! ### Walks that go on -/

/-- A walk through some steps and then through more of them. In the midst of a path every link is
followed, so the first steps are walked as if their last link were to be followed; the walk goes on
where they arrive, or it is turned away there because that is no directory. -/
theorem walk_append (t : FileTree) (hmore : more ≠ [] ∨ follow = true) (at' : Location)
    (todo : List String) :
    (∃ p, t.walk true at' todo = .ok (.arrived p) ∧
      (t.walk follow at' (todo ++ more) = t.walk follow p more ∨
        t.node? p ≠ some .directory ∧ ∃ e, t.walk follow at' (todo ++ more) = .error e)) ∨
    (∃ p target rest, t.walk true at' todo = .ok (.redirected p target rest) ∧
      t.walk follow at' (todo ++ more) = .ok (.redirected p target (rest ++ more))) ∨
    ∃ e, t.walk true at' todo = .error e ∧ t.walk follow at' (todo ++ more) = .error e := by
  induction todo generalizing at' with
  | nil => exact .inl ⟨at', rfl, .inl rfl⟩
  | cons step rest ih =>
    rw [List.cons_append]
    simp only [walk]
    by_cases hs : step = "."
    · simp only [if_pos hs]
      exact ih at'
    by_cases hs' : step = ".."
    · simp only [if_neg hs, if_pos hs']
      exact ih at'.dropLast
    by_cases hl : longestName < step.utf8ByteSize
    · simp only [if_neg hs, if_neg hs', if_pos hl]
      exact .inr (.inr ⟨_, rfl, rfl⟩)
    simp only [if_neg hs, if_neg hs', if_neg hl]
    cases hn : t.node? (at' ++ [step]) with
    | none =>
      cases rest with
      | nil =>
        refine .inl ⟨_, rfl, ?_⟩
        cases more with
        | nil => exact .inl rfl
        | cons next more => exact .inr ⟨by simp [hn], _, rfl⟩
      | cons next rest => exact .inr (.inr ⟨_, rfl, rfl⟩)
    | some n =>
      cases n with
      | directory => exact ih (at' ++ [step])
      | file content mode =>
        cases rest with
        | nil =>
          refine .inl ⟨_, rfl, ?_⟩
          cases more with
          | nil => exact .inl rfl
          | cons next more => exact .inr ⟨by simp [hn], _, rfl⟩
        | cons next rest => exact .inr (.inr ⟨_, rfl, rfl⟩)
      | link target =>
        have hgoes : ((rest ++ more).isEmpty && !follow) = false := by
          rcases hmore with hmore | hfollow
          · simp [hmore]
          · simp [hfollow]
        simp only [Bool.not_true, Bool.and_false, Bool.false_eq_true, if_false, hgoes]
        exact .inr (.inl ⟨_, _, _, rfl, rfl⟩)

theorem walk_append_of_arrived (hmore : more ≠ [] ∨ follow = true)
    (h : t.walk true at' todo = .ok (.arrived p)) (hp : t.node? p = some .directory) :
    t.walk follow at' (todo ++ more) = t.walk follow p more := by
  rcases walk_append t hmore at' todo with
    ⟨p', hw, hgoes | ⟨hnot, -⟩⟩ | ⟨p', target, rest, hw, -⟩ | ⟨e, hw, -⟩
  · cases hw.symm.trans h
    exact hgoes
  · cases hw.symm.trans h
    exact absurd hp hnot
  · cases hw.symm.trans h
  · cases hw.symm.trans h

theorem walk_append_of_redirected (hmore : more ≠ [] ∨ follow = true)
    (h : t.walk true at' todo = .ok (.redirected p target rest)) :
    t.walk follow at' (todo ++ more) = .ok (.redirected p target (rest ++ more)) := by
  rcases walk_append t hmore at' todo with ⟨p', hw, -⟩ | ⟨p', target', rest', hw, hgoes⟩ | ⟨e, hw, -⟩
  · cases hw.symm.trans h
  · cases hw.symm.trans h
    exact hgoes
  · cases hw.symm.trans h

/-- A dot at the end of a path adds nothing to where it leads. -/
theorem walk_of_append_dot (h : t.walk true at' (todo ++ ["."]) = .ok w) :
    (∃ p, w = .arrived p ∧ t.walk true at' todo = .ok (.arrived p)) ∨
    ∃ p target rest, w = .redirected p target (rest ++ ["."]) ∧
      t.walk true at' todo = .ok (.redirected p target rest) := by
  rcases @walk_append true ["."] t (.inr rfl) at' todo with
    ⟨p, hw, hgoes | ⟨-, e, hgoes⟩⟩ | ⟨p, target, rest, hw, hgoes⟩ | ⟨e, -, hgoes⟩
  · have hdot : t.walk true p ["."] = .ok (.arrived p) := rfl
    rw [hgoes, hdot] at h
    exact .inl ⟨p, (Except.ok.inj h).symm, hw⟩
  · cases hgoes.symm.trans h
  · exact .inr ⟨p, target, rest, (Except.ok.inj (hgoes.symm.trans h)).symm, hw⟩
  · cases hgoes.symm.trans h

/-! ### Traces -/

theorem trace_of_arrived (h : t.walk follow at' todo = .ok (.arrived p)) :
    t.trace follow links at' todo = .ok p := by
  unfold trace
  rw [h]

theorem trace_of_redirected (h : t.walk follow at' todo = .ok (.redirected p target rest)) :
    t.trace follow (links + 1) at' todo =
      t.trace follow links (origin p target) (steps target ++ rest) := by
  rw [trace, h]

/-- What a trace that succeeds did first. -/
theorem trace_eq_ok (h : t.trace follow links at' todo = .ok place) :
    t.walk follow at' todo = .ok (.arrived place) ∨ ∃ p target rest fewer, links = fewer + 1 ∧
      t.walk follow at' todo = .ok (.redirected p target rest) ∧
      t.trace follow fewer (origin p target) (steps target ++ rest) = .ok place := by
  unfold trace at h
  cases hw : t.walk follow at' todo with
  | error e => simp [hw] at h
  | ok w =>
    cases w with
    | arrived p =>
      simp only [hw] at h
      cases h
      exact .inl rfl
    | redirected p target rest =>
      cases links with
      | zero => simp [hw] at h
      | succ fewer =>
        simp only [hw] at h
        exact .inr ⟨p, target, rest, fewer, rfl, rfl, h⟩

/-- Behind a path that leads to a directory a path goes on from there, with fewer links to follow. -/
theorem trace_append (hmore : more ≠ [] ∨ follow = true)
    (h : t.trace true links at' todo = .ok dir) (hdir : t.node? dir = some .directory) :
    ∃ fewer, t.trace follow links at' (todo ++ more) = t.trace follow fewer dir more := by
  induction links generalizing at' todo with
  | zero =>
    rcases trace_eq_ok h with hw | ⟨p, target, rest, fewer, hlinks, -⟩
    · refine ⟨0, ?_⟩
      unfold trace
      rw [walk_append_of_arrived hmore hw hdir]
    · cases hlinks
  | succ links ih =>
    rcases trace_eq_ok h with hw | ⟨p, target, rest, fewer, hlinks, hw, hrest⟩
    · refine ⟨links + 1, ?_⟩
      unfold trace
      rw [walk_append_of_arrived hmore hw hdir]
    · cases hlinks
      rw [trace_of_redirected (walk_append_of_redirected hmore hw), ← List.append_assoc]
      exact ih hrest

theorem trace_of_append_dot (h : t.trace true links at' (todo ++ ["."]) = .ok dir) :
    t.trace true links at' todo = .ok dir := by
  induction links generalizing at' todo with
  | zero =>
    rcases trace_eq_ok h with hw | ⟨p, target, rest, fewer, hlinks, -⟩
    · rcases walk_of_append_dot hw with ⟨p, hp, hw'⟩ | ⟨p, target, rest, hp, -⟩
      · cases hp
        exact trace_of_arrived hw'
      · cases hp
    · cases hlinks
  | succ links ih =>
    rcases trace_eq_ok h with hw | ⟨p, target, rest, fewer, hlinks, hw, hrest⟩
    · rcases walk_of_append_dot hw with ⟨p, hp, hw'⟩ | ⟨p, target, rest, hp, -⟩
      · cases hp
        exact trace_of_arrived hw'
      · cases hp
    · cases hlinks
      rcases walk_of_append_dot hw with ⟨p, hp, -⟩ | ⟨p, target, before, hp, hw'⟩
      · cases hp
      · cases hp
        rw [trace_of_redirected hw']
        rw [← List.append_assoc] at hrest
        exact ih hrest

/-- A directory is reached with any number of dots at the end, or with none. -/
theorem trace_dots (hdir : t.node? dir = some .directory) (count : Nat) :
    t.trace true links at' (todo ++ List.replicate count ".") = .ok dir ↔
      t.trace true links at' todo = .ok dir := by
  induction count with
  | zero => rw [List.replicate_zero, List.append_nil]
  | succ count ih =>
    rw [List.replicate_succ', ← List.append_assoc, ← ih]
    constructor
    · exact trace_of_append_dot
    · intro h
      obtain ⟨fewer, hgoes⟩ := @trace_append _ _ _ true _ _ ["."] (.inr rfl) h hdir
      rw [hgoes]
      exact trace_of_arrived rfl

/-- One name in a directory leads to its place, unless it is a link that is followed. -/
theorem trace_name (hname : Path.IsName name)
    (hlink : follow = false ∨ ∀ target, t.node? (dir ++ [name]) ≠ some (.link target)) :
    t.trace follow links dir [name] =
      if longestName < name.utf8ByteSize then .error .nameTooLong else .ok (dir ++ [name]) := by
  by_cases hlong : longestName < name.utf8ByteSize
  · have hwalk : t.walk follow dir [name] = .error .nameTooLong := by
      simp [walk, hname.ne_here, hname.ne_up, hlong]
    unfold trace
    rw [hwalk, if_pos hlong]
  · have hwalk : t.walk follow dir [name] = .ok (.arrived (dir ++ [name])) := by
      simp only [walk, hname.ne_here, hname.ne_up, hlong, if_false, List.isEmpty_nil, if_true]
      cases hn : t.node? (dir ++ [name]) with
      | none => rfl
      | some n =>
        cases n with
        | directory => rfl
        | file content mode => rfl
        | link target =>
          rcases hlink with hfollow | hnot
          · simp [hfollow]
          · exact absurd hn (hnot target)
    rw [trace_of_arrived hwalk, if_neg hlong]

/-! ### Paths -/

/-- Pieces that are no components are no steps, or dots. -/
theorem exists_steps_eq {front silent : List String} (hpieces : Path.pieces path = front ++ silent)
    (hsilent : ∀ p ∈ silent, Path.component? p = none) :
    ∃ count, steps path = front.filter (· ≠ "") ++ List.replicate count "." := by
  have hdots : ∀ p ∈ silent.filter (· ≠ ""), p = "." := by
    intro p hp
    obtain ⟨hmem, hne⟩ := List.mem_filter.1 hp
    have hp := hsilent p hmem
    unfold Path.component? at hp
    split at hp
    · next hs =>
      rcases hs with hempty | hdot
      · simp [hempty] at hne
      · exact hdot
    · split at hp <;> cases hp
  have hfilter := List.eq_replicate_iff.2 ⟨rfl, hdots⟩
  unfold steps
  rw [hpieces]
  dsimp only
  rw [List.filter_append, hfilter]
  by_cases hend : 1 < (front ++ silent).length ∧ (front ++ silent).getLast? = some ""
  · refine ⟨(silent.filter (· ≠ "")).length + 1, ?_⟩
    rw [if_pos hend, List.append_assoc, ← List.replicate_succ']
  · refine ⟨(silent.filter (· ≠ "")).length, ?_⟩
    rw [if_neg hend, List.append_nil]

theorem trace_steps_iff {front silent : List String} (hpieces : Path.pieces path = front ++ silent)
    (hsilent : ∀ p ∈ silent, Path.component? p = none) (hdir : t.node? dir = some .directory) :
    t.trace true links at' (steps path) = .ok dir ↔
      t.trace true links at' (front.filter (· ≠ "")) = .ok dir := by
  obtain ⟨count, hsteps⟩ := exists_steps_eq hpieces hsilent
  rw [hsteps, trace_dots hdir]

/-- Whether a text can be given to the file system as a path. -/
def IsSpelled (path : String) : Prop :=
  path ≠ "" ∧ path.toList.any (·.toNat = 0) = false ∧ path.utf8ByteSize ≤ longestPath

theorem locate_eq_ok_iff : t.locate path follow = .ok place ↔ IsSpelled path ∧
    t.trace follow mostLinks (origin t.start path) (steps path) = .ok place := by
  unfold locate IsSpelled
  by_cases hempty : path = ""
  · simp [hempty]
  by_cases hzero : path.toList.any (·.toNat = 0) = true
  · rw [if_neg hempty, if_pos hzero]
    simp [hzero]
  · by_cases hlong : longestPath < path.utf8ByteSize
    · rw [if_neg hempty, if_neg hzero, if_pos hlong]
      simp [Nat.not_le_of_lt hlong]
    · rw [if_neg hempty, if_neg hzero, if_neg hlong]
      simp [hempty, hzero, Nat.le_of_not_lt hlong]

theorem IsSpelled.of_prefix (h : IsSpelled path) (hne : above ≠ "")
    (hstart : above.toList <+: path.toList) : IsSpelled above := by
  obtain ⟨-, hzero, hlong⟩ := h
  obtain ⟨rest, hrest⟩ := hstart
  have hpath : path = above ++ String.ofList rest := by
    apply String.toList_inj.1
    simp [hrest]
  refine ⟨hne, ?_, ?_⟩
  · rw [← hrest, List.any_append, Bool.or_eq_false_iff] at hzero
    exact hzero.1
  · rw [hpath, String.utf8ByteSize_append] at hlong
    omega

/-- The path above a name in a directory leads to the directory. -/
theorem find_parent (hbase : t.find base true = .ok (dir, .directory)) (hname : Path.IsName name) :
    ∃ above, Path.parent? (Path.join base name) = some above ∧ above ≠ "" ∧
      t.find above true = .ok (dir, .directory) := by
  obtain ⟨hl, hdir⟩ := find_eq_ok.1 hbase
  obtain ⟨hspelled, htrace⟩ := locate_eq_ok_iff.1 hl
  obtain ⟨above, front, silent, silent', hparent, hne, habsolute, hstart, habove, hbefore, hsilent,
    hsilent'⟩ := Path.parent?_join hspelled.1 hname
  refine ⟨above, hparent, hne, find_eq_ok.2 ⟨locate_eq_ok_iff.2 ⟨?_, ?_⟩, hdir⟩⟩
  · rcases hstart with rfl | hstart
    · exact ⟨by decide, by decide, by decide⟩
    · exact hspelled.of_prefix hne hstart
  · have horigin : origin t.start above = origin t.start base := by
      rw [origin, habsolute, origin]
    rw [horigin, trace_steps_iff habove hsilent hdir]
    exact (trace_steps_iff hbefore hsilent' hdir).1 htrace

/-- Whether a file of a name can be put into the directory that a path leads to. -/
def CanHold (base name : String) : Prop :=
  IsSpelled (Path.join base name) ∧ name.utf8ByteSize ≤ longestName

/-- Behind the path of a directory a name is walked from there. -/
theorem exists_trace_join (hbase : t.find base true = .ok (dir, .directory))
    (hname : Path.IsName name) (follow : Bool) : ∃ fewer,
    t.trace follow mostLinks (origin t.start (Path.join base name)) (steps (Path.join base name)) =
      t.trace follow fewer dir [name] := by
  obtain ⟨hl, hdir⟩ := find_eq_ok.1 hbase
  obtain ⟨hspelled, htrace⟩ := locate_eq_ok_iff.1 hl
  obtain ⟨init, hne, hjoin, hpieces⟩ := Path.pieces_join hspelled.1 hname
  have hsteps : steps (Path.join base name) = init.filter (· ≠ "") ++ [name] := by
    unfold steps
    have hlast : (init ++ [name]).getLast? ≠ some "" := by
      rw [List.getLast?_concat]
      exact fun h => hname.ne_empty (Option.some.inj h)
    have hloud : [name].filter (· ≠ "") = [name] := by simp [hname.ne_empty]
    rw [hjoin]
    dsimp only
    rw [if_neg fun hend => hlast hend.2, List.filter_append, hloud, List.append_nil]
  have hfront : t.trace true mostLinks (origin t.start base) (init.filter (· ≠ "")) = .ok dir := by
    rcases hpieces with hsame | hmore
    · have hsame' : Path.pieces base = init ++ [] := by rw [hsame, List.append_nil]
      exact (trace_steps_iff hsame' (by simp) hdir).1 htrace
    · refine (trace_steps_iff hmore ?_ hdir).1 htrace
      intro p hp
      rw [List.mem_singleton.1 hp]
      rfl
  have horigin : origin t.start (Path.join base name) = origin t.start base := by
    rw [origin, Path.isAbsolute_join hspelled.1 hname, origin]
  rw [hsteps, horigin]
  exact trace_append (.inl (by simp)) hfront hdir

/-- A name that leads somewhere can be held by the directory. -/
theorem canHold_of_locate (hbase : t.find base true = .ok (dir, .directory))
    (hname : Path.IsName name) (h : t.locate (Path.join base name) follow = .ok place) :
    CanHold base name := by
  obtain ⟨hspelled, htrace⟩ := locate_eq_ok_iff.1 h
  obtain ⟨fewer, hgoes⟩ := exists_trace_join hbase hname follow
  refine ⟨hspelled, Nat.le_of_not_lt ?_⟩
  intro hlong
  have hwalk : t.walk follow dir [name] = .error .nameTooLong := by
    simp [walk, hname.ne_here, hname.ne_up, hlong]
  rw [hgoes] at htrace
  unfold trace at htrace
  rw [hwalk] at htrace
  cases htrace

/-- A name behind the path of a directory leads to its place in the directory. -/
theorem locate_join_iff (hbase : t.find base true = .ok (dir, .directory)) (hname : Path.IsName name)
    (hlink : follow = false ∨ ∀ target, t.node? (dir ++ [name]) ≠ some (.link target)) :
    t.locate (Path.join base name) follow = .ok place ↔
      CanHold base name ∧ place = dir ++ [name] := by
  obtain ⟨fewer, hgoes⟩ := exists_trace_join hbase hname follow
  rw [locate_eq_ok_iff, hgoes, trace_name hname hlink, CanHold]
  by_cases hlong : longestName < name.utf8ByteSize
  · rw [if_pos hlong]
    constructor
    · rintro ⟨-, herror⟩
      cases herror
    · rintro ⟨⟨-, hshort⟩, -⟩
      exact absurd hshort (Nat.not_le_of_lt hlong)
  · rw [if_neg hlong, Except.ok.injEq]
    constructor
    · rintro ⟨hspelled', rfl⟩
      exact ⟨⟨hspelled', Nat.le_of_not_lt hlong⟩, rfl⟩
    · rintro ⟨⟨hspelled', -⟩, rfl⟩
      exact ⟨hspelled', rfl⟩

/-! ### A directory that is there already -/

/-- Where a walk follows the link in its last step, it comes to that link when it does not. -/
theorem walk_false_of_true (h : t.walk true at' todo = .ok w) : t.walk false at' todo = .ok w ∨
    ∃ q target, t.walk false at' todo = .ok (.arrived q) ∧ t.node? q = some (.link target) := by
  induction todo generalizing at' with
  | nil => exact .inl h
  | cons step rest ih =>
    simp only [walk] at h ⊢
    by_cases hs : step = "."
    · rw [if_pos hs] at h ⊢
      exact ih h
    by_cases hs' : step = ".."
    · rw [if_neg hs, if_pos hs'] at h ⊢
      exact ih h
    by_cases hl : longestName < step.utf8ByteSize
    · rw [if_neg hs, if_neg hs', if_pos hl] at h
      cases h
    rw [if_neg hs, if_neg hs', if_neg hl] at h ⊢
    cases hn : t.node? (at' ++ [step]) with
    | none =>
      rw [hn] at h
      exact .inl h
    | some n =>
      rw [hn] at h
      cases n with
      | directory => exact ih h
      | file content mode => exact .inl h
      | link target =>
        cases rest with
        | nil => exact .inr ⟨_, target, rfl, hn⟩
        | cons next rest => exact .inl h

theorem exists_trace_false (h : t.trace true links at' todo = .ok dir)
    (hdir : t.node? dir = some .directory) :
    ∃ q n, t.trace false links at' todo = .ok q ∧ t.node? q = some n := by
  induction links generalizing at' todo with
  | zero =>
    rcases trace_eq_ok h with hw | ⟨p, target, rest, fewer, hlinks, -⟩
    · rcases walk_false_of_true hw with hw' | ⟨q, target, hw', hq⟩
      · exact ⟨dir, _, trace_of_arrived hw', hdir⟩
      · exact ⟨q, _, trace_of_arrived hw', hq⟩
    · cases hlinks
  | succ links ih =>
    rcases trace_eq_ok h with hw | ⟨p, target, rest, fewer, hlinks, hw, hrest⟩
    · rcases walk_false_of_true hw with hw' | ⟨q, target, hw', hq⟩
      · exact ⟨dir, _, trace_of_arrived hw', hdir⟩
      · exact ⟨q, _, trace_of_arrived hw', hq⟩
    · cases hlinks
      rcases walk_false_of_true hw with hw' | ⟨q, target', hw', hq⟩
      · rw [trace_of_redirected hw']
        exact ih hrest
      · exact ⟨q, _, trace_of_arrived hw', hq⟩

/-- A way that does not follow a link at its end is the same way if it ends at no link. -/
theorem walk_true_of_false (h : t.walk false at' todo = .ok w)
    (hend : ∀ p, w = .arrived p → ∀ target, t.node? p ≠ some (.link target)) :
    t.walk true at' todo = .ok w := by
  induction todo generalizing at' with
  | nil => exact h
  | cons step rest ih =>
    simp only [walk] at h ⊢
    by_cases hs : step = "."
    · rw [if_pos hs] at h ⊢
      exact ih h
    by_cases hs' : step = ".."
    · rw [if_neg hs, if_pos hs'] at h ⊢
      exact ih h
    by_cases hl : longestName < step.utf8ByteSize
    · rw [if_neg hs, if_neg hs', if_pos hl] at h
      cases h
    rw [if_neg hs, if_neg hs', if_neg hl] at h ⊢
    cases hn : t.node? (at' ++ [step]) with
    | none =>
      rw [hn] at h
      exact h
    | some n =>
      rw [hn] at h
      cases n with
      | directory => exact ih h
      | file content mode => exact h
      | link target =>
        cases rest with
        | nil => exact absurd hn (hend _ (Except.ok.inj h).symm target)
        | cons next rest => exact h

theorem trace_true_of_false (h : t.trace false links at' todo = .ok place)
    (hend : ∀ target, t.node? place ≠ some (.link target)) :
    t.trace true links at' todo = .ok place := by
  induction links generalizing at' todo with
  | zero =>
    rcases trace_eq_ok h with hw | ⟨p, target, rest, fewer, hlinks, -⟩
    · refine trace_of_arrived (walk_true_of_false hw ?_)
      rintro p ⟨⟩
      exact hend
    · cases hlinks
  | succ links ih =>
    rcases trace_eq_ok h with hw | ⟨p, target, rest, fewer, hlinks, hw, hrest⟩
    · refine trace_of_arrived (walk_true_of_false hw ?_)
      rintro p ⟨⟩
      exact hend
    · cases hlinks
      rw [trace_of_redirected (walk_true_of_false hw (by rintro p ⟨⟩))]
      exact ih hrest

theorem locate_true_of_false (h : t.locate path false = .ok place)
    (hend : ∀ target, t.node? place ≠ some (.link target)) : t.locate path true = .ok place := by
  obtain ⟨hspelled, htrace⟩ := locate_eq_ok_iff.1 h
  exact locate_eq_ok_iff.2 ⟨hspelled, trace_true_of_false htrace hend⟩

theorem ensureDirectory_of_find (h : t.find path true = .ok (dir, .directory)) :
    t.makeDirectory path = .error .alreadyThere ∧ t.ensureDirectory path = (t, .ok ()) := by
  obtain ⟨hl, hdir⟩ := find_eq_ok.1 h
  obtain ⟨hspelled, htrace⟩ := locate_eq_ok_iff.1 hl
  obtain ⟨q, n, hgoes, hq⟩ := exists_trace_false htrace hdir
  have hl' : t.locate path false = .ok q := locate_eq_ok_iff.2 ⟨hspelled, hgoes⟩
  have hmake : t.makeDirectory path = .error .alreadyThere := by
    rw [makeDirectory, hl']
    simp only [bind, Except.bind, hq]
  have hthere : t.isDirectory path = true := by
    rw [isDirectory, h]
  exact ⟨hmake, by rw [ensureDirectory, hmake]; simp [hthere]⟩

/-- Making a path to a directory that is there changes nothing. -/
theorem makePath_of_find (h : t.find path true = .ok (dir, .directory)) :
    t.makePath path = (t, .ok ()) := by
  obtain ⟨hmake, hensure⟩ := ensureDirectory_of_find h
  unfold makePath
  cases (Path.components path).length with
  | zero => exact hensure
  | succ depth =>
    unfold makeDirectories
    split
    · rfl
    · rw [hmake]
      split
      · next e above herror _ =>
        cases herror
        rw [if_neg (by decide)]
        exact hensure
      · exact hensure

end Groundwork.FileTree
