import Groundwork.Archive.Writer
import Groundwork.Proofs.Bytes
import Groundwork.Proofs.Path

/-! The names of archived files. A name that is written loses only pieces without meaning, so it is
read back as itself or as a shorter one. -/
namespace Groundwork.Archive

variable {name path stored : String} {lead short bytes : List UInt8} {longest : Nat}

/-- The two parts of a name put together again. -/
def joined (lead short : List UInt8) : List UInt8 :=
  if lead.isEmpty then short else lead ++ 0x2F :: short

/-- The name under which a file is found again, if its name can be written. -/
def storedName (name : String) : Except String String :=
  (divide name).map fun parts => Text.ofBytesLossy (joined parts.1 parts.2).toByteArray

theorem shown_of_pieces {alone : Bool} {ps : List String} {texts : List (Option String)}
    (h : (ps.filterMap Path.component?).mapM (componentText? alone) = .ok texts) :
    (texts.filterMap id).Sublist ps ∧ ∀ p ∈ texts.filterMap id, p ≠ "" := by
  induction ps generalizing texts with
  | nil =>
    cases h
    simp
  | cons p ps ih =>
    have skip (h : (ps.filterMap Path.component?).mapM (componentText? alone) = .ok texts) :
        (texts.filterMap id).Sublist (p :: ps) ∧ ∀ p ∈ texts.filterMap id, p ≠ "" :=
      ⟨(ih h).1.cons p, (ih h).2⟩
    by_cases hs : p = "" ∨ p = "."
    · have hc : Path.component? p = none := by simp [Path.component?, hs]
      rw [List.filterMap_cons_none hc] at h
      exact skip h
    · by_cases hu : p = ".."
      · have hc : Path.component? p = some .up := by simp [Path.component?, hu]
        rw [List.filterMap_cons_some hc, List.mapM_cons] at h
        simp [componentText?, bind, Except.bind] at h
      · have hc : Path.component? p = some (.name p) := by simp [Path.component?, hs, hu]
        rw [List.filterMap_cons_some hc, List.mapM_cons] at h
        cases ht : (ps.filterMap Path.component?).mapM (componentText? alone) with
        | error e => simp [componentText?, ht, bind, Except.bind] at h
        | ok more =>
          simp only [componentText?, ht, bind, Except.bind, pure, Except.pure] at h
          cases h
          obtain ⟨hsub, hne⟩ := ih ht
          refine ⟨hsub.cons_cons p, ?_⟩
          intro q hq
          rcases List.mem_cons.1 hq with rfl | hq
          · exact fun he => hs (.inl he)
          · exact hne q hq

theorem shown_of_components {alone : Bool} {texts : List (Option String)}
    (h : (Path.components path).mapM (componentText? alone) = .ok texts) :
    (texts.filterMap id).Sublist (Path.pieces path) ∧ ∀ p ∈ texts.filterMap id, p ≠ "" := by
  unfold Path.components at h
  cases hp : Path.pieces path with
  | nil => exact (Path.pieces_ne_nil path hp).elim
  | cons first rest =>
    simp only [hp] at h
    by_cases he : first = ""
    · cases rest with
      | nil =>
        simp only [he, List.isEmpty_nil, if_true, List.filterMap_nil, List.append_nil] at h
        cases h
        simp
      | cons next rest =>
        simp [he, List.mapM_cons, componentText?, bind, Except.bind] at h
    · by_cases hd : first = "."
      · rw [if_neg he, if_pos hd, List.singleton_append, List.mapM_cons] at h
        cases ht : (rest.filterMap Path.component?).mapM (componentText? alone) with
        | error e => simp [componentText?, ht, bind, Except.bind] at h
        | ok more =>
          obtain ⟨hsub, hne⟩ := shown_of_pieces ht
          simp only [componentText?, ht, bind, Except.bind, pure, Except.pure] at h
          cases h
          cases alone with
          | false => exact ⟨hsub.cons first, hne⟩
          | true =>
            refine ⟨hd ▸ hsub.cons_cons ".", ?_⟩
            intro q hq
            rcases List.mem_cons.1 hq with rfl | hq
            · simp
            · exact hne q hq
      · simp only [he, hd, if_false] at h
        refine @shown_of_pieces alone _ _ ?_
        rw [← h, List.filterMap_cons]
        cases Path.component? first <;> rfl

theorem intercalate_ne_empty {ps : List String} (h : ps ≠ []) (hne : ∀ p ∈ ps, p ≠ "") :
    String.intercalate "/" ps ≠ "" := by
  cases ps with
  | nil => exact (h rfl).elim
  | cons p ps =>
    have hp := hne p (by simp)
    cases ps with
    | nil => simpa using hp
    | cons q ps => simp [String.intercalate_cons_cons, hp]

theorem shown_sublist_path {shown : List String} (hshown : shown ≠ [])
    (hsub : shown.Sublist (Path.pieces path)) (hne : ∀ p ∈ shown, p ≠ "") :
    (String.intercalate "/" shown ++
      if path.toList.getLast? = some '/' then "/" else "").toList.Sublist path.toList := by
  split
  · next hend =>
    obtain ⟨init, hinit, -⟩ := Path.pieces_of_getLast? hend
    have hsub' : shown.Sublist init := by
      rw [hinit] at hsub
      obtain ⟨l₁, l₂, hl, h₁, h₂⟩ := List.sublist_append_iff.1 hsub
      have hnil : l₂ = [] := by
        cases l₂ with
        | nil => rfl
        | cons q qs =>
          have hq : q = "" := by simpa using h₂.subset List.mem_cons_self
          exact (hne q (by simp [hl]) hq).elim
      rw [hl, hnil, List.append_nil]
      exact h₁
    have hall := Path.sublist_intercalate (hsub'.append_right [""])
    rw [← hinit, Path.intercalate_pieces,
      String.intercalate_append_of_ne_nil hshown (by simp)] at hall
    simpa using hall
  · have hall := Path.sublist_intercalate hsub
    rw [Path.intercalate_pieces] at hall
    simpa using hall

/-- What is archived of a path is a text that is left when some of its characters are dropped. -/
theorem archivedName_eq_ok (h : archivedName longest path = .ok bytes) :
    ∃ s : String, bytes = s.toUTF8.toList ∧ s.toList.Sublist path.toList ∧ s ≠ "" ∧
      bytes.length ≤ longest ∧ 0 ∉ bytes := by
  unfold archivedName at h
  cases ht : (Path.components path).mapM
      (componentText? (decide ((Path.components path).length = 1))) with
  | error e => simp [ht, bind, Except.bind] at h
  | ok texts =>
    obtain ⟨hsub, hne⟩ := shown_of_components ht
    simp only [ht, bind, Except.bind] at h
    by_cases hshown : texts.filterMap id = []
    · rw [if_pos (List.isEmpty_iff.2 hshown)] at h
      cases h
    · have hpath := shown_sublist_path hshown hsub hne
      have hbase := intercalate_ne_empty hshown hne
      rw [if_neg fun hempty => hshown (List.isEmpty_iff.1 hempty)] at h
      generalize (if path.toList.getLast? = some '/' then "/" else "") = tail at h hpath
      split at h
      · cases h
      · next hlen =>
        split at h
        · cases h
        · next hzero =>
          refine ⟨_, (Except.ok.inj h).symm, hpath,
            fun hempty => hbase (String.append_eq_empty_iff.1 hempty).1, ?_, ?_⟩
          · rw [← Except.ok.inj h]
            exact Nat.le_of_not_lt hlen
          · rw [← Except.ok.inj h]
            simpa using hzero

theorem archivedName_root (longest : Nat) (bytes : List UInt8) :
    archivedName longest "/" ≠ .ok bytes := by
  have hp : Path.components "/" = [.root] := by decide
  simp [archivedName, hp, componentText?, bind, Except.bind]

theorem archivedName_empty (longest : Nat) (bytes : List UInt8) :
    archivedName longest "" ≠ .ok bytes := by
  have hp : Path.components "" = [] := by decide
  simp [archivedName, hp, bind, Except.bind, pure, Except.pure]

theorem leadOf_eq_some {fuel : Nat} {above : String} (h : leadOf fuel path = some above) :
    above = "/" ∨ above = "" ∨ ∃ rest, path.toList = above.toList ++ '/' :: rest := by
  induction fuel generalizing path with
  | zero => cases h
  | succ fuel ih =>
    unfold leadOf at h
    cases hp : Path.parent? path with
    | none => simp [hp] at h
    | some near =>
      have hnear := Path.parent?_eq_some hp
      simp only [hp] at h
      split at h
      · exact Option.some.inj h ▸ hnear
      · next hlong =>
        have hproper : ∃ rest, path.toList = near.toList ++ '/' :: rest := by
          rcases hnear with rfl | rfl | hrest
          · exact (hlong (by decide)).elim
          · exact (hlong (by decide)).elim
          · exact hrest
        obtain ⟨rest, hrest⟩ := hproper
        rcases ih h with ha | ha | ⟨more, hmore⟩
        · exact .inl ha
        · exact .inr (.inl ha)
        · refine .inr (.inr ⟨more ++ '/' :: rest, ?_⟩)
          rw [hrest, hmore]
          simp

/-- A name goes into one field as it is archived, or it is divided at one of its separators and each
part is archived by itself. -/
theorem divide_cases {parts : List UInt8 × List UInt8} (h : divide name = .ok parts) :
    (name.utf8ByteSize ≤ longestName ∧ parts.1 = [] ∧
      archivedName longestName name = .ok parts.2) ∨
    longestName < name.utf8ByteSize ∧ ∃ above rest, name = above ++ "/" ++ rest ∧
      archivedName longestLead above = .ok parts.1 ∧
      archivedName longestName rest = .ok parts.2 := by
  unfold divide at h
  split at h
  · next hshort =>
    cases ha : archivedName longestName name with
    | error e => simp [ha, bind, Except.bind] at h
    | ok bytes =>
      simp only [ha, bind, Except.bind] at h
      cases h
      exact .inl ⟨hshort, rfl, rfl⟩
  · next hlong =>
    split at h
    · cases h
    · next above habove =>
      cases hl : archivedName longestLead above with
      | error e => simp [hl, bind, Except.bind] at h
      | ok lead =>
        have hrest : ∃ rest, name.toList = above.toList ++ '/' :: rest := by
          rcases leadOf_eq_some habove with rfl | rfl | hrest
          · exact (archivedName_root _ _ hl).elim
          · exact (archivedName_empty _ _ hl).elim
          · exact hrest
        obtain ⟨rest, hrest⟩ := hrest
        have hdrop : name.toList.drop (above.toList.length + 1) = rest := by
          rw [hrest]
          simp
        cases hr : archivedName longestName (String.ofList rest) with
        | error e => simp [hl, hdrop, hr, bind, Except.bind] at h
        | ok short =>
          simp only [hl, hdrop, hr, bind, Except.bind] at h
          cases h
          refine .inr ⟨Nat.lt_of_not_le hlong, above, String.ofList rest, ?_, hl, hr⟩
          apply String.toList_inj.1
          simp [hrest]

/-- Both parts of a name fit their fields, and together they make a text that is left when some
characters of the name are dropped. -/
theorem divide_eq_ok (h : divide name = .ok (lead, short)) :
    (lead.length ≤ longestLead ∧ 0 ∉ lead) ∧ (short.length ≤ longestName ∧ 0 ∉ short) ∧
      ∃ s : String, joined lead short = s.toUTF8.toList ∧ s.toList.Sublist name.toList := by
  rcases divide_cases h with ⟨-, hnone, ha⟩ | ⟨-, above, rest, rfl, hl, hr⟩
  · obtain ⟨s, hs, hsub, -, hlen, hzero⟩ := archivedName_eq_ok ha
    dsimp only at hnone
    subst hnone
    exact ⟨⟨by simp, by simp⟩, ⟨hlen, hzero⟩, s, hs, hsub⟩
  · obtain ⟨s₁, hs₁, hsub₁, hne₁, hlen₁, hzero₁⟩ := archivedName_eq_ok hl
    obtain ⟨s₂, hs₂, hsub₂, -, hlen₂, hzero₂⟩ := archivedName_eq_ok hr
    dsimp only at hs₁ hs₂
    refine ⟨⟨hlen₁, hzero₁⟩, ⟨hlen₂, hzero₂⟩, s₁ ++ "/" ++ s₂, ?_, ?_⟩
    · have hlead : lead.isEmpty = false := by
        rw [hs₁, List.isEmpty_eq_false_iff]
        exact fun he => hne₁ (Bytes.toList_toUTF8_eq_nil.1 he)
      have hslash : "/".toUTF8.toList = [0x2F] := by
        rw [Bytes.toList_eq_data]
        rfl
      rw [joined, hlead, Bytes.toList_toUTF8_append, Bytes.toList_toUTF8_append, ← hs₁, ← hs₂,
        hslash]
      simp
    · simpa using hsub₁.append ((List.Sublist.refl ['/']).append hsub₂)

theorem storedName_eq_ok : storedName name = .ok stored ↔
    ∃ parts, divide name = .ok parts ∧ joined parts.1 parts.2 = stored.toUTF8.toList := by
  unfold storedName
  cases hd : divide name with
  | error e => simp [Except.map]
  | ok parts =>
    obtain ⟨-, -, s, hs, -⟩ := @divide_eq_ok _ parts.1 parts.2 hd
    simp only [Except.map, Except.ok.injEq, exists_eq_left', hs, Bytes.toByteArray_toList,
      Bytes.ofBytesLossy_toUTF8, Bytes.toList_toUTF8_inj]

/-- Stored under a name is what can be written; no other trouble comes from names. -/
theorem storedName_isOk : (storedName name).isOk = (divide name).isOk := by
  unfold storedName
  cases divide name <;> rfl

theorem storedName_sublist (h : storedName name = .ok stored) :
    stored.toList.Sublist name.toList := by
  obtain ⟨⟨lead, short⟩, hd, hj⟩ := storedName_eq_ok.1 h
  obtain ⟨-, -, s, hs, hsub⟩ := divide_eq_ok hd
  have he : s = stored := Bytes.toList_toUTF8_inj.1 (hs.symm.trans hj)
  exact he ▸ hsub

/-- A name that is not kept becomes a shorter one. -/
theorem storedName_length_lt (h : storedName name = .ok stored) (hne : stored ≠ name) :
    stored.length < name.length := by
  have hsub := storedName_sublist h
  rw [← String.length_toList, ← String.length_toList]
  refine Nat.lt_of_le_of_ne hsub.length_le ?_
  intro hlen
  exact hne (String.toList_inj.1 (hsub.eq_of_length hlen))

/-! ### Names that are kept -/

theorem mapM_componentText? (alone : Bool) (ps : List String) :
    (ps.map Path.Component.name).mapM (componentText? alone) = .ok (ps.map some) := by
  induction ps with
  | nil => rfl
  | cons p ps ih =>
    rw [List.map_cons, List.mapM_cons, ih]
    rfl

/-- A path of ordinary names is archived as it is, if it fits. -/
theorem archivedName_of_isNormal (h : Path.IsNormal path) (hok : (archivedName longest path).isOk) :
    archivedName longest path = .ok path.toUTF8.toList := by
  have hshown : ((Path.pieces path).map some).filterMap id = Path.pieces path := by
    simp [List.filterMap_map]
  have hne : (Path.pieces path).isEmpty = false := by
    rw [List.isEmpty_eq_false_iff]
    exact Path.pieces_ne_nil path
  simp only [archivedName, h.components, mapM_componentText?, bind, Except.bind, hshown, hne,
    Path.intercalate_pieces, if_neg h.getLast?_ne, String.append_empty, Bool.false_eq_true,
    if_false] at hok ⊢
  split
  · next hlong =>
    simp only [if_pos hlong] at hok
    cases hok
  · next hlong =>
    simp only [if_neg hlong] at hok
    split
    · next hzero =>
      simp only [if_pos hzero] at hok
      cases hok
    · rfl

/-- A name of ordinary names is put into one field, or divided at one of its separators. -/
theorem divide_of_isNormal (h : Path.IsNormal name) (hok : (divide name).isOk) :
    divide name = .ok ([], name.toUTF8.toList) ∧ name.utf8ByteSize ≤ longestName ∨
    longestName < name.utf8ByteSize ∧ ∃ above below, name = above ++ "/" ++ below ∧
      divide name = .ok (above.toUTF8.toList, below.toUTF8.toList) := by
  have hkept {longest : Nat} {path : String} {bytes : List UInt8} (hpath : Path.IsNormal path)
      (ha : archivedName longest path = .ok bytes) : bytes = path.toUTF8.toList := by
    have hsame := archivedName_of_isNormal hpath (by rw [ha]; rfl)
    exact Except.ok.inj (ha.symm.trans hsame)
  cases hdivide : divide name with
  | error e =>
    rw [hdivide] at hok
    cases hok
  | ok parts =>
    obtain ⟨lead, short⟩ := parts
    rcases divide_cases hdivide with ⟨hshort, hnone, ha⟩ | ⟨hlong, above, below, rfl, hl, hr⟩
    · obtain rfl : lead = [] := hnone
      obtain rfl := hkept h ha
      exact .inl ⟨rfl, hshort⟩
    · rw [Path.isNormal_append] at h
      obtain rfl := hkept h.1 hl
      obtain rfl := hkept h.2 hr
      exact .inr ⟨hlong, above, below, rfl, rfl⟩

/-- A name of ordinary names that can be written at all is kept. -/
theorem storedName_of_isNormal (h : Path.IsNormal name) (hok : (storedName name).isOk) :
    storedName name = .ok name := by
  rw [storedName_isOk] at hok
  rcases divide_of_isNormal h hok with ⟨hdivide, -⟩ | ⟨-, above, below, rfl, hdivide⟩
  · exact storedName_eq_ok.2 ⟨_, hdivide, rfl⟩
  · have habove : above.toUTF8.toList ≠ [] := by
      rw [ne_eq, Bytes.toList_toUTF8_eq_nil]
      rintro rfl
      exact (h "" (by rw [Path.pieces_append]; exact List.mem_append_left _ (by decide))).1 rfl
    have hslash : "/".toUTF8.toList = [0x2F] := by
      rw [Bytes.toList_eq_data]
      rfl
    refine storedName_eq_ok.2 ⟨_, hdivide, ?_⟩
    rw [joined, List.isEmpty_eq_false_iff.2 habove, Bytes.toList_toUTF8_append,
      Bytes.toList_toUTF8_append, hslash]
    simp

end Groundwork.Archive
