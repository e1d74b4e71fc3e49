import Groundwork.Proofs.FileTree.Directory

/-! Files that come and go. A path to a directory leads there as before, whatever happens to the files of
a tree; and a tree that is in order stays so. -/
namespace Groundwork.FileTree

variable {t t' : FileTree} {path name : String} {place dir at' : Location} {n : Node}
  {follow : Bool} {links : Nat} {todo rest : List String} {target : String} {w : Walk}

/-- Whether no path leads on: there is nothing, or a file. -/
def IsEnd (o : Option Node) : Prop := o = none ∨ ∃ content mode, o = some (.file content mode)

theorem IsEnd.ne_directory {o : Option Node} (h : IsEnd o) : o ≠ some .directory := by
  rintro rfl
  rcases h with hnone | ⟨content, mode, hfile⟩
  · cases hnone
  · cases hfile

theorem IsEnd.ne_link {o : Option Node} (h : IsEnd o) (target : String) :
    o ≠ some (.link target) := by
  rintro rfl
  rcases h with hnone | ⟨content, mode, hfile⟩
  · cases hnone
  · cases hfile

/-- A tree in which at most files have come, gone or changed. -/
structure SameWays (t t' : FileTree) : Prop where
  start : t'.start = t.start
  nodes : ∀ q, t'.node? q = t.node? q ∨ IsEnd (t.node? q) ∧ IsEnd (t'.node? q)

namespace SameWays

theorem walk (h : SameWays t t') (hw : t.walk follow at' todo = .ok w) :
    t'.walk follow at' todo = .ok w ∨ ∃ p, w = .arrived p ∧ IsEnd (t.node? p) := by
  induction todo generalizing at' with
  | nil => exact .inl hw
  | cons step rest ih =>
    simp only [FileTree.walk] at hw ⊢
    by_cases hs : step = "."
    · rw [if_pos hs] at hw ⊢
      exact ih hw
    by_cases hs' : step = ".."
    · rw [if_neg hs, if_pos hs'] at hw ⊢
      exact ih hw
    by_cases hl : longestName < step.utf8ByteSize
    · rw [if_neg hs, if_neg hs', if_pos hl] at hw
      cases hw
    rw [if_neg hs, if_neg hs', if_neg hl] at hw ⊢
    rcases h.nodes (at' ++ [step]) with hsame | ⟨hend, -⟩
    · rw [hsame]
      cases hn : t.node? (at' ++ [step]) with
      | none =>
        rw [hn] at hw
        exact .inl hw
      | some n =>
        rw [hn] at hw
        cases n with
        | directory => exact ih hw
        | file content mode => exact .inl hw
        | link target => exact .inl hw
    · refine .inr ⟨at' ++ [step], ?_, hend⟩
      rcases hend with hnone | ⟨content, mode, hfile⟩
      · rw [hnone] at hw
        cases rest with
        | nil => exact (Except.ok.inj hw).symm
        | cons next rest => cases hw
      · rw [hfile] at hw
        cases rest with
        | nil => exact (Except.ok.inj hw).symm
        | cons next rest => cases hw

theorem trace (h : SameWays t t') (ht : t.trace follow links at' todo = .ok place)
    (hplace : ¬ IsEnd (t.node? place)) : t'.trace follow links at' todo = .ok place := by
  have harrived (hw : t.walk follow at' todo = .ok (.arrived place)) :
      t'.trace follow links at' todo = .ok place := by
    rcases h.walk hw with hw' | ⟨p, hp, hend⟩
    · exact trace_of_arrived hw'
    · cases hp
      exact absurd hend hplace
  induction links generalizing at' todo with
  | zero =>
    rcases trace_eq_ok ht with hw | ⟨p, target, rest, fewer, hlinks, -⟩
    · exact harrived hw
    · cases hlinks
  | succ links ih =>
    rcases trace_eq_ok ht with hw | ⟨p, target, rest, fewer, hlinks, hw, hrest⟩
    · exact harrived hw
    · cases hlinks
      rcases h.walk hw with hw' | ⟨p', hp, -⟩
      · rw [trace_of_redirected hw']
        refine ih hrest ?_
        intro hw₁
        rcases h.walk hw₁ with hw₁' | ⟨p', hp, hend⟩
        · exact trace_of_arrived hw₁'
        · cases hp
          exact absurd hend hplace
      · cases hp

theorem find (h : SameWays t t') (hf : t.find path true = .ok (dir, .directory)) :
    t'.find path true = .ok (dir, .directory) := by
  obtain ⟨hl, hdir⟩ := find_eq_ok.1 hf
  obtain ⟨hspelled, htrace⟩ := locate_eq_ok_iff.1 hl
  have hnot : ¬ IsEnd (t.node? dir) := fun hend => hend.ne_directory hdir
  have hdir' : t'.node? dir = some .directory := by
    rcases h.nodes dir with hsame | ⟨hend, -⟩
    · rw [hsame, hdir]
    · exact absurd hend hnot
  refine find_eq_ok.2 ⟨locate_eq_ok_iff.2 ⟨hspelled, ?_⟩, hdir'⟩
  rw [h.start]
  exact h.trace htrace hnot

end SameWays

theorem sameWays_set (hp : place ≠ []) (hend : IsEnd (t.node? place)) (content : ByteArray)
    (mode : Nat) : SameWays t (t.set place (.file content mode)) where
  start := start_set t place _
  nodes := by
    intro q
    rw [node?_set hp]
    by_cases hq : q = place
    · rw [if_pos hq, hq]
      exact .inr ⟨hend, .inr ⟨content, mode, rfl⟩⟩
    · rw [if_neg hq]
      exact .inl rfl

/-- A file that is taken away leaves no other place empty. -/
theorem node?_cut_of_isEnd (hg : t.Grounded) (hp : place ≠ []) (hend : IsEnd (t.node? place))
    (q : Location) : (t.cut place).node? q = if q = place then none else t.node? q := by
  rw [node?_cut hp]
  by_cases hq : q = place
  · rw [if_pos hq, if_pos (hq ▸ List.prefix_rfl)]
  · rw [if_neg hq]
    by_cases hbelow : place <+: q
    · obtain ⟨steps, rfl⟩ := hbelow
      cases steps with
      | nil => exact absurd (List.append_nil _) hq
      | cons step steps =>
        rw [hg.nothing_below hend.ne_directory step steps]
        simp
    · rw [if_neg hbelow]

theorem sameWays_cut (hg : t.Grounded) (hp : place ≠ []) (hend : IsEnd (t.node? place)) :
    SameWays t (t.cut place) where
  start := rfl
  nodes := by
    intro q
    rw [node?_cut_of_isEnd hg hp hend]
    by_cases hq : q = place
    · rw [if_pos hq, hq]
      exact .inr ⟨hend, .inl rfl⟩
    · rw [if_neg hq]
      exact .inl rfl

/-- A tree as a file system has it: whatever stands somewhere stands in a directory, and every place
is listed once. -/
structure Sound (t : FileTree) : Prop where
  grounded : t.Grounded
  once : (t.nodes.map (·.1)).Nodup

theorem Sound.set (h : t.Sound) (hp : t.node? place ≠ some .directory)
    (habove : t.node? place.dropLast = some .directory) (n : Node) : (t.set place n).Sound := by
  have hne := ne_root_of_node? hp
  constructor
  · intro q n' hq hroot
    rw [node?_set hne] at hq ⊢
    have hparent : q.dropLast ≠ place := by
      rintro hparent
      by_cases hqp : q = place
      · have hlen := congrArg List.length hparent
        rw [hqp, List.length_dropLast] at hlen
        have hpos := List.length_pos_iff.2 hne
        omega
      · rw [if_neg hqp] at hq
        exact hp (hparent ▸ h.grounded q n' hq hroot)
    rw [if_neg hparent]
    by_cases hqp : q = place
    · rwa [hqp]
    · rw [if_neg hqp] at hq
      exact h.grounded q n' hq hroot
  · rw [FileTree.set, map_fst_setNode]
    split
    · exact h.once
    · next hnew =>
      refine List.nodup_append.2 ⟨h.once, by simp, ?_⟩
      rintro q hq q' hq' rfl
      exact hnew (List.mem_singleton.1 hq' ▸ hq)

theorem Sound.cut (h : t.Sound) (hp : place ≠ []) : (t.cut place).Sound := by
  constructor
  · intro q n hq hroot
    rw [node?_cut hp] at hq ⊢
    by_cases hbelow : place <+: q
    · rw [if_pos hbelow] at hq
      cases hq
    · rw [if_neg hbelow] at hq
      rw [if_neg fun habove => hbelow (habove.trans (List.dropLast_prefix q))]
      exact h.grounded q n hq hroot
  · exact h.once.sublist ((List.filter_sublist).map _)

theorem eq_concat_of_below {q : Location} (h : (match q.getLast? with
    | some last => if q.dropLast = dir then some last else none
    | none => none) = some name) : q = dir ++ [name] := by
  split at h
  · next last hlast =>
    split at h
    · next hdir =>
      cases h
      obtain ⟨front, rfl⟩ := List.getLast?_eq_some_iff.1 hlast
      rw [List.dropLast_concat] at hdir
      rw [hdir]
    · cases h
  · cases h

/-- A name that is listed in a directory has a place there. -/
theorem exists_node?_of_mem_below (h : name ∈ t.below dir) :
    ∃ n, t.node? (dir ++ [name]) = some n := by
  obtain ⟨⟨q, n⟩, he, hname⟩ := List.mem_filterMap.1 h
  obtain rfl := eq_concat_of_below hname
  rw [node?, if_neg (by simp)]
  cases hl : t.nodes.lookup (dir ++ [name]) with
  | some found => exact ⟨found, rfl⟩
  | none =>
    rw [List.lookup_eq_none_iff] at hl
    have hnot := hl _ he
    simp at hnot

theorem mem_below_of_node? {n : Node} (h : t.node? (dir ++ [name]) = some n) :
    name ∈ t.below dir := by
  rw [node?, if_neg (by simp)] at h
  obtain ⟨before, after, hnodes, -⟩ := List.lookup_eq_some_iff.1 h
  refine List.mem_filterMap.2 ⟨(dir ++ [name], n), by simp [hnodes], ?_⟩
  rw [List.getLast?_concat]
  exact if_pos List.dropLast_concat

theorem Sound.nodup_below (h : t.Sound) (dir : Location) : (t.below dir).Nodup := by
  have hplaces := List.pairwise_map.1 h.once
  refine List.Pairwise.filterMap _ ?_ hplaces
  rintro e e' hne name hname name' hname' rfl
  have he : e.1 = dir ++ [name] := eq_concat_of_below hname
  have he' : e'.1 = dir ++ [name] := eq_concat_of_below hname'
  exact hne (he.trans he'.symm)

end Groundwork.FileTree
