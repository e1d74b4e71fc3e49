import Groundwork.Path
import Groundwork.Proofs.Text

/-! A path is its pieces with separators between them; what stands before its last component is a
beginning of it that ends before a separator. -/
namespace Groundwork

namespace Path

variable {path above : String} {ps qs : List String}

theorem intercalate_split (cs : List Char) :
    String.intercalate "/" ((Text.split '/' cs).map String.ofList) = String.ofList cs := by
  induction cs with
  | nil => simp [Text.split]
  | cons c cs ih =>
    simp only [Text.split]
    cases hs : Text.split '/' cs with
    | nil => exact (Text.split_ne_nil '/' cs hs).elim
    | cons piece pieces =>
      rw [hs, List.map_cons] at ih
      split
      · next hc =>
        rw [List.map_cons, List.map_cons, String.intercalate_cons_cons, ih, hc]
        apply String.toList_inj.1
        simp
      · have hsplit : String.ofList (c :: piece) = String.ofList [c] ++ String.ofList piece := by
          apply String.toList_inj.1
          simp
        rw [List.map_cons, hsplit, String.intercalate_cons_append, ih]
        apply String.toList_inj.1
        simp

theorem intercalate_pieces (path : String) : String.intercalate "/" (pieces path) = path := by
  rw [pieces, intercalate_split, String.ofList_toList]

theorem pieces_ne_nil (path : String) : pieces path ≠ [] := by
  simpa [pieces] using Text.split_ne_nil '/' path.toList

theorem pieces_of_not_mem (h : '/' ∉ path.toList) : pieces path = [path] := by
  simp [pieces, Text.split_of_not_mem h]

theorem pieces_append (above below : String) :
    pieces (above ++ "/" ++ below) = pieces above ++ pieces below := by
  simp [pieces, Text.split_append_cons]

/-- A path with a separator at its end has an empty last piece. -/
theorem pieces_of_getLast? (h : path.toList.getLast? = some '/') :
    ∃ init, pieces path = init ++ [""] ∧ init ≠ [] := by
  obtain ⟨cs, hcs⟩ := List.getLast?_eq_some_iff.1 h
  refine ⟨(Text.split '/' cs).map String.ofList, ?_, ?_⟩
  · simp [pieces, hcs, Text.split_append_cons, Text.split]
  · simpa using Text.split_ne_nil '/' cs

theorem sublist_intercalate (h : ps.Sublist qs) :
    (String.intercalate "/" ps).toList.Sublist (String.intercalate "/" qs).toList := by
  induction h with
  | slnil => simp
  | @cons ps qs q h ih =>
    cases qs with
    | nil => simp [List.sublist_nil.1 h]
    | cons q' qs =>
      rw [String.intercalate_cons_cons]
      simpa using ih.trans (List.sublist_append_right (q.toList ++ ['/']) _)
  | @cons_cons ps qs p h ih =>
    cases qs with
    | nil => simp [List.sublist_nil.1 h]
    | cons q' qs =>
      cases ps with
      | nil => simp [String.intercalate_cons_cons]
      | cons p' ps =>
        rw [String.intercalate_cons_cons, String.intercalate_cons_cons]
        simpa using ih

theorem not_mem_of_mem_pieces {piece : String} (h : piece ∈ pieces path) : '/' ∉ piece.toList := by
  obtain ⟨cs, hcs, rfl⟩ := List.mem_map.1 h
  rw [String.toList_ofList]
  exact Text.not_mem_of_mem_split hcs

/-- Pieces that are put together come apart again. -/
theorem pieces_intercalate (hne : ps ≠ []) (h : ∀ p ∈ ps, '/' ∉ p.toList) :
    pieces (String.intercalate "/" ps) = ps := by
  induction ps with
  | nil => exact (hne rfl).elim
  | cons p ps ih =>
    obtain ⟨hp, hps⟩ := List.forall_mem_cons.1 h
    cases ps with
    | nil =>
      rw [String.intercalate_singleton]
      exact pieces_of_not_mem hp
    | cons q ps =>
      rw [String.intercalate_cons_cons, pieces_append, pieces_of_not_mem hp, ih (by simp) hps]
      rfl

theorem intercalate_prefix (h : ps <+: qs) :
    (String.intercalate "/" ps).toList <+: (String.intercalate "/" qs).toList := by
  obtain ⟨rest, rfl⟩ := h
  by_cases hps : ps = []
  · simp [hps]
  by_cases hrest : rest = []
  · simp [hrest]
  · rw [String.intercalate_append_of_ne_nil hps hrest, String.toList_append, String.toList_append,
      List.append_assoc]
    exact List.prefix_append _ _

/-- What is dropped at the end are pieces that are no components. -/
theorem exists_dropSilent_append (ps : List String) :
    ∃ silent, ps = dropSilent ps ++ silent ∧ ∀ p ∈ silent, component? p = none := by
  refine ⟨(ps.reverse.takeWhile fun p => (component? p).isNone).reverse, ?_, ?_⟩
  · unfold dropSilent
    rw [← List.reverse_append, List.takeWhile_append_dropWhile, List.reverse_reverse]
  · intro p hp
    have hsilent := List.all_takeWhile (p := fun p => (component? p).isNone) (l := ps.reverse)
    rw [List.all_eq_true] at hsilent
    simpa using hsilent p (List.mem_reverse.1 hp)

theorem dropSilent_concat {piece : String} (h : component? piece ≠ none) (ps : List String) :
    dropSilent (ps ++ [piece]) = ps ++ [piece] := by
  have hloud : (component? piece).isNone = false := by
    cases hc : component? piece with
    | none => exact absurd hc h
    | some c => rfl
  simp [dropSilent, hloud]

/-- The path above a last component, from the pieces. -/
theorem parent?_of_pieces {first last : String} {init : List String}
    (h : pieces path = first :: (init ++ [last])) (hlast : component? last ≠ none) :
    parent? path = if first = "" ∧ dropSilent init = [] then some "/"
      else some (String.intercalate "/" (first :: dropSilent init)) := by
  have hshown := dropSilent_concat hlast init
  unfold parent?
  rw [h]
  simp only [hshown]
  cases hwhole : init ++ [last] with
  | nil => simp at hwhole
  | cons shown more =>
    simp only
    rw [← hwhole, List.dropLast_concat]
    by_cases hfirst : first = ""
    · subst hfirst
      cases dropSilent init <;> rfl
    · rw [if_neg fun hboth => hfirst hboth.1]
      split
      · exact absurd rfl hfirst
      · rfl

theorem dropSilent_prefix (ps : List String) : dropSilent ps <+: ps := by
  unfold dropSilent
  have h := List.dropWhile_suffix (l := ps.reverse) fun p => (component? p).isNone
  simpa using List.reverse_prefix.2 h

/-- What stands before the last component is the root, nothing, or ends before a separator. -/
theorem parent?_eq_some (h : parent? path = some above) :
    above = "/" ∨ above = "" ∨ ∃ rest, path.toList = above.toList ++ '/' :: rest := by
  unfold parent? at h
  cases hp : pieces path with
  | nil => simp [hp] at h
  | cons first rest =>
    simp only [hp] at h
    cases hs : dropSilent rest with
    | nil => by_cases hf : first = "" <;> simp_all
    | cons shown more =>
      simp only [hs] at h
      obtain ⟨silent, hsilent⟩ := dropSilent_prefix rest
      obtain ⟨gap, hgap⟩ := dropSilent_prefix (shown :: more).dropLast
      have hparts : rest = dropSilent (shown :: more).dropLast ++
          (gap ++ [(shown :: more).getLast (by simp)] ++ silent) := by
        rw [← List.append_assoc, ← List.append_assoc, hgap, List.dropLast_concat_getLast, ← hs,
          hsilent]
      split at h
      · exact .inl (Option.some.inj h).symm
      · refine .inr (.inr ⟨(String.intercalate "/"
          (gap ++ [(shown :: more).getLast (by simp)] ++ silent)).toList, ?_⟩)
        have hpath := intercalate_pieces path
        rw [hp, hparts, ← List.cons_append, String.intercalate_append_of_ne_nil (by simp)
          (by simp)] at hpath
        rw [← Option.some.inj h, ← hpath]
        simp

/-! ### Paths of ordinary names -/

/-- Whether a path is relative and made of ordinary names, with one separator between them. -/
def IsNormal (path : String) : Prop :=
  ∀ piece ∈ pieces path, piece ≠ "" ∧ piece ≠ "." ∧ piece ≠ ".."

instance (path : String) : Decidable (IsNormal path) := List.decidableBAll _ _

theorem component?_eq_name {piece : String} (h : piece ≠ "" ∧ piece ≠ "." ∧ piece ≠ "..") :
    component? piece = some (.name piece) := by
  simp [component?, h]

theorem filterMap_component? (h : ∀ piece ∈ ps, piece ≠ "" ∧ piece ≠ "." ∧ piece ≠ "..") :
    ps.filterMap component? = ps.map .name := by
  induction ps with
  | nil => rfl
  | cons p ps ih =>
    obtain ⟨hp, hps⟩ := List.forall_mem_cons.1 h
    rw [List.filterMap_cons_some (component?_eq_name hp), ih hps, List.map_cons]

/-- Whether a text can stand in a path as the name of a file. -/
structure IsName (text : String) : Prop where
  ne_empty : text ≠ ""
  ne_here : text ≠ "."
  ne_up : text ≠ ".."
  not_mem : '/' ∉ text.toList

theorem IsName.isNormal {text : String} (h : IsName text) : IsNormal text := by
  intro piece hpiece
  rw [pieces_of_not_mem h.not_mem, List.mem_singleton] at hpiece
  subst hpiece
  exact ⟨h.ne_empty, h.ne_here, h.ne_up⟩

theorem isNormal_append {below : String} :
    IsNormal (above ++ "/" ++ below) ↔ IsNormal above ∧ IsNormal below := by
  rw [IsNormal, pieces_append, List.forall_mem_append, IsNormal, IsNormal]

/-- Every piece of such a path is a component. -/
theorem IsNormal.components (h : IsNormal path) :
    components path = (pieces path).map .name := by
  unfold IsNormal at h
  unfold Path.components
  cases hp : pieces path with
  | nil => exact (pieces_ne_nil path hp).elim
  | cons first rest =>
    rw [hp] at h
    obtain ⟨hfirst, hrest⟩ := List.forall_mem_cons.1 h
    simp [filterMap_component? hrest, hfirst, component?_eq_name hfirst]

theorem isName_of_component? {piece text : String} (hpiece : piece ∈ pieces path)
    (h : component? piece = some (.name text)) : IsName text := by
  unfold component? at h
  split at h
  · cases h
  · next hsilent =>
    split at h
    · cases h
    · next hup =>
      cases h
      rw [not_or] at hsilent
      exact ⟨hsilent.1, hsilent.2, hup, not_mem_of_mem_pieces hpiece⟩

/-- The components of a path that are names can stand in any path. -/
theorem isName_of_mem_components {text : String} (h : .name text ∈ components path) :
    IsName text := by
  unfold components at h
  cases hp : pieces path with
  | nil => simp [hp] at h
  | cons first rest =>
    simp only [hp, List.mem_append] at h
    rcases h with hopening | hrest
    · have hfirst : component? first = some (.name text) := by
        by_cases he : first = ""
        · cases rest <;> simp [he] at hopening
        · by_cases hd : first = "."
          · simp [hd] at hopening
          · simpa [he, hd, eq_comm] using hopening
      exact isName_of_component? (hp ▸ List.mem_cons_self) hfirst
    · obtain ⟨piece, hpiece, hname⟩ := List.mem_filterMap.1 hrest
      exact isName_of_component? (hp ▸ List.mem_cons_of_mem _ hpiece) hname

/-- What is below a path begins with its components. -/
theorem below?_eq_some_iff {base : String} {rest : List Component} :
    below? base path = some rest ↔ components path = components base ++ rest := by
  unfold below?
  split
  · next h =>
    obtain ⟨behind, hbehind⟩ := List.isPrefixOf_iff_prefix.1 h
    rw [← hbehind, List.drop_left, Option.some.injEq, List.append_right_inj]
  · next h =>
    constructor
    · intro hnone
      cases hnone
    · intro hwhole
      exact absurd (List.isPrefixOf_iff_prefix.2 ⟨rest, hwhole.symm⟩) h

theorem isName_of_fileName? {text : String} (h : fileName? path = some text) : IsName text := by
  unfold fileName? at h
  split at h
  · next last hlast =>
    cases h
    exact isName_of_mem_components (List.mem_of_getLast? hlast)
  · cases h

theorem isName_of_parentName? {text : String} (h : parentName? path = some text) :
    IsName text := by
  unfold parentName? at h
  split at h
  · next last hlast =>
    cases h
    exact isName_of_mem_components (List.dropLast_subset _ (List.mem_of_getLast? hlast))
  · cases h

theorem IsName.isAbsolute {text : String} (h : IsName text) : isAbsolute text = false := by
  unfold Path.isAbsolute
  cases hs : text.toList with
  | nil => rfl
  | cons c cs =>
    have hc : c ≠ '/' := by
      rintro rfl
      exact h.not_mem (hs ▸ List.mem_cons_self)
    simpa using hc

/-- Different names give different places in a directory. -/
theorem join_inj {base name other : String} (h : IsName name) (h' : IsName other) :
    join base name = join base other ↔ name = other := by
  constructor
  · intro hjoin
    simp only [join, h.isAbsolute, h'.isAbsolute, Bool.false_or] at hjoin
    split at hjoin
    · exact hjoin
    · split at hjoin
      · exact (String.append_right_inj base).1 hjoin
      · exact (String.append_right_inj (base ++ "/")).1 hjoin
  · rintro rfl
    rfl

theorem IsName.component? {text : String} (h : IsName text) :
    component? text = some (.name text) :=
  component?_eq_name ⟨h.ne_empty, h.ne_here, h.ne_up⟩

variable {base name : String}

/-- A name is put behind the pieces of a path; an empty piece at its end makes room for it. -/
theorem pieces_join (hbase : base ≠ "") (hname : IsName name) : ∃ init, init ≠ [] ∧
    pieces (join base name) = init ++ [name] ∧ (pieces base = init ∨ pieces base = init ++ [""]) := by
  have hrelative : ¬ (isAbsolute name || base == "") = true := by
    simp [hname.isAbsolute, hbase]
  by_cases hend : base.toList.getLast? = some '/'
  · obtain ⟨init, hinit, hne⟩ := pieces_of_getLast? hend
    have hjoin : join base name = base ++ name := by
      rw [join, if_neg hrelative, if_pos (by simp [hend])]
    obtain ⟨cs, hcs⟩ := List.getLast?_eq_some_iff.1 hend
    have hsplit : base ++ name = String.ofList cs ++ "/" ++ name := by
      apply String.toList_inj.1
      simp [hcs]
    have hfront : pieces base = pieces (String.ofList cs) ++ [""] := by
      have hbase' : base = String.ofList cs ++ "/" ++ "" := by
        apply String.toList_inj.1
        simp [hcs]
      rw [hbase', pieces_append]
      rfl
    have hcs' : pieces (String.ofList cs) = init := by
      rw [hinit] at hfront
      exact (List.append_cancel_right hfront).symm
    refine ⟨init, hne, ?_, .inr hinit⟩
    rw [hjoin, hsplit, pieces_append, hcs', pieces_of_not_mem hname.not_mem]
  · have hjoin : join base name = base ++ "/" ++ name := by
      rw [join, if_neg hrelative, if_neg (by simpa using hend)]
    refine ⟨pieces base, pieces_ne_nil base, ?_, .inl rfl⟩
    rw [hjoin, pieces_append, pieces_of_not_mem hname.not_mem]

theorem join_of_empty (name : String) : join "" name = name := by
  simp [join]

theorem isAbsolute_of_pieces (hbase : base ≠ "") {rest : List String} (h : pieces base = "" :: rest) :
    isAbsolute base = true := by
  have hwhole := intercalate_pieces base
  rw [h] at hwhole
  cases rest with
  | nil =>
    rw [String.intercalate_singleton] at hwhole
    exact absurd hwhole.symm hbase
  | cons next rest =>
    rw [← hwhole, String.intercalate_cons_cons]
    simp [isAbsolute]

theorem isAbsolute_join (hbase : base ≠ "") (hname : IsName name) :
    isAbsolute (join base name) = isAbsolute base := by
  have hfront : ∃ rest, (join base name).toList = base.toList ++ rest := by
    unfold join
    rw [if_neg (by simp [hname.isAbsolute, hbase])]
    split
    · exact ⟨name.toList, String.toList_append⟩
    · exact ⟨"/".toList ++ name.toList, by simp⟩
  obtain ⟨rest, hrest⟩ := hfront
  unfold isAbsolute
  rw [hrest]
  cases hs : base.toList with
  | nil => exact absurd (String.toList_inj.1 hs) hbase
  | cons c cs => rfl

theorem components_join (hname : IsName name) (base : String) :
    components (join base name) = components base ++ [.name name] := by
  by_cases hbase : base = ""
  · have hempty : components "" = [] := by decide
    rw [hbase, join_of_empty, hname.isNormal.components, pieces_of_not_mem hname.not_mem, hempty]
    rfl
  · obtain ⟨init, hne, hjoin, hpieces⟩ := pieces_join hbase hname
    cases init with
    | nil => exact absurd rfl hne
    | cons first init =>
      have hlast : ∀ last, component? last = none → [last].filterMap component? = [] := by
        intro last hnone
        rw [List.filterMap_cons_none hnone]
        rfl
      have hrest : ∃ rest, pieces base = first :: rest ∧
          rest.filterMap component? = init.filterMap component? := by
        rcases hpieces with hsame | hmore
        · exact ⟨init, hsame, rfl⟩
        · refine ⟨init ++ [""], hmore, ?_⟩
          rw [List.filterMap_append, hlast "" rfl, List.append_nil]
      obtain ⟨rest, hpieces, hrest⟩ := hrest
      have hroot : first = "" → rest.isEmpty = false := by
        rintro rfl
        cases rest with
        | nil =>
          have hwhole := intercalate_pieces base
          rw [hpieces, String.intercalate_singleton] at hwhole
          exact absurd hwhole.symm hbase
        | cons next rest => rfl
      unfold components
      rw [hjoin, hpieces, List.cons_append]
      simp only [List.filterMap_append, hrest, List.filterMap_cons_some hname.component?,
        List.filterMap_nil]
      by_cases hfirst : first = ""
      · simp [hfirst, hroot hfirst]
      · simp [hfirst]

theorem pieces_intercalate_of_prefix {front : List String} (hne : front ≠ [])
    (h : front <+: pieces base) : pieces (String.intercalate "/" front) = front :=
  pieces_intercalate hne fun _ hp => not_mem_of_mem_pieces (h.subset hp)

theorem isAbsolute_of_prefix {above : String} (hne : above ≠ "")
    (h : above.toList <+: base.toList) : isAbsolute above = isAbsolute base := by
  obtain ⟨rest, hrest⟩ := h
  unfold isAbsolute
  rw [← hrest]
  cases habove : above.toList with
  | nil => exact absurd (String.toList_inj.1 habove) hne
  | cons c cs => rfl

/-- What is left of a path without the name at its end: it leads where the path before the name led,
perhaps with other pieces that are no components at its end. -/
theorem parent?_join (hbase : base ≠ "") (hname : IsName name) : ∃ above front silent silent',
    parent? (join base name) = some above ∧ above ≠ "" ∧ isAbsolute above = isAbsolute base ∧
    (above = "/" ∨ above.toList <+: base.toList) ∧
    pieces above = front ++ silent ∧ pieces base = front ++ silent' ∧
    (∀ p ∈ silent, component? p = none) ∧ ∀ p ∈ silent', component? p = none := by
  obtain ⟨init, hne, hjoin, hpieces⟩ := pieces_join hbase hname
  cases init with
  | nil => exact absurd rfl hne
  | cons first init =>
    have hloud : component? name ≠ none := by simp [hname.component?]
    obtain ⟨silent, hinit, hsilent⟩ := exists_dropSilent_append init
    have hbefore : ∃ silent', pieces base = first :: (dropSilent init ++ silent') ∧
        ∀ p ∈ silent', component? p = none := by
      rcases hpieces with hsame | hmore
      · exact ⟨silent, by rw [hsame, ← hinit], hsilent⟩
      · refine ⟨silent ++ [""], ?_, ?_⟩
        · rw [hmore, List.cons_append, ← List.append_assoc, ← hinit]
        · intro p hp
          rcases List.mem_append.1 hp with hp | hp
          · exact hsilent p hp
          · rw [List.mem_singleton.1 hp]
            rfl
    obtain ⟨silent', hbefore, hsilent'⟩ := hbefore
    have hparent := parent?_of_pieces hjoin hloud
    by_cases hroot : first = "" ∧ dropSilent init = []
    · rw [if_pos hroot] at hparent
      obtain ⟨rfl, hnone⟩ := hroot
      rw [hnone] at hbefore
      refine ⟨"/", [""], [""], silent', hparent, by decide, ?_, .inl rfl, by decide, hbefore, ?_,
        hsilent'⟩
      · rw [isAbsolute_of_pieces hbase hbefore]
        decide
      · intro p hp
        rw [List.mem_singleton.1 hp]
        rfl
    · rw [if_neg hroot] at hparent
      have hfront : first :: dropSilent init <+: pieces base :=
        ⟨silent', by rw [hbefore, List.cons_append]⟩
      have hpieces' := pieces_intercalate_of_prefix (List.cons_ne_nil _ _) hfront
      have hstart := intercalate_prefix hfront
      rw [intercalate_pieces] at hstart
      have hnonempty : String.intercalate "/" (first :: dropSilent init) ≠ "" := by
        intro hempty
        have hnone : pieces "" = [""] := by decide
        rw [hempty, hnone] at hpieces'
        obtain ⟨hfirst, hnone⟩ := List.cons.inj hpieces'
        exact hroot ⟨hfirst.symm, hnone.symm⟩
      refine ⟨_, first :: dropSilent init, [], silent', hparent, hnonempty,
        isAbsolute_of_prefix hnonempty hstart, .inr hstart, ?_,
        by rw [hbefore, List.cons_append], by simp, hsilent'⟩
      rw [hpieces', List.append_nil]

/-- Such a path does not end with a separator. -/
theorem IsNormal.getLast?_ne (h : IsNormal path) : path.toList.getLast? ≠ some '/' := by
  intro hlast
  obtain ⟨init, hinit, -⟩ := pieces_of_getLast? hlast
  exact (h "" (by simp [hinit])).1 rfl

end Path

end Groundwork
