import Groundwork.Json.Decode
import Groundwork.Proofs.Dict
import Mathlib.Data.List.Forall2

/-! How a decoded document comes apart. Where the whole is accepted, so is every part that was asked for. -/
namespace Groundwork.Json

variable {ε ε' α β : Type} {r : Raw} {name : String}

/-! ### Results -/

theorem bind_eq_ok {a : Except ε α} {f : α → Except ε β} {y : β} :
    a >>= f = .ok y ↔ ∃ x, a = .ok x ∧ f x = .ok y := by
  cases a <;> simp [bind, Except.bind]

theorem map_eq_ok {a : Except ε α} {f : α → β} {y : β} :
    a.map f = .ok y ↔ ∃ x, a = .ok x ∧ f x = y := by
  cases a <;> simp [Except.map]

theorem mapError_eq_ok {a : Except ε α} {f : ε → ε'} {x : α} : a.mapError f = .ok x ↔ a = .ok x := by
  cases a <;> simp [Except.mapError]

theorem mapM_eq_ok_iff {f : α → Except ε β} {l : List α} {l' : List β} :
    l.mapM f = .ok l' ↔ List.Forall₂ (fun x y => f x = .ok y) l l' := by
  induction l generalizing l' with
  | nil =>
    rw [List.mapM_nil, List.forall₂_nil_left_iff]
    simp [pure, Except.pure, eq_comm]
  | cons x l ih =>
    simp only [List.mapM_cons, bind_eq_ok, ih, List.forall₂_cons_left_iff]
    constructor
    · rintro ⟨y, hy, ys, hys, h⟩
      exact ⟨y, ys, hy, hys, (Except.ok.inj h).symm⟩
    · rintro ⟨y, ys, hy, hys, rfl⟩
      exact ⟨y, hy, ys, hys, rfl⟩

theorem exists_of_mem_right {R : α → β → Prop} {l : List α} {l' : List β} {y : β}
    (h : List.Forall₂ R l l') (hy : y ∈ l') : ∃ x ∈ l, R x y := by
  induction h with
  | nil => cases hy
  | cons hhead _ ih =>
    rcases List.mem_cons.1 hy with rfl | hy
    · exact ⟨_, List.mem_cons_self, hhead⟩
    · obtain ⟨x, hx, hxy⟩ := ih hy
      exact ⟨x, .tail _ hx, hxy⟩

theorem exists_of_mem_left {R : α → β → Prop} {l : List α} {l' : List β} {x : α}
    (h : List.Forall₂ R l l') (hx : x ∈ l) : ∃ y ∈ l', R x y :=
  exists_of_mem_right h.flip hx

/-- Lists that are related step by step, through a list between them. -/
theorem exists_between {γ : Type} {R : α → β → Prop} {S : β → γ → Prop} {T : α → γ → Prop}
    {l : List α} {l' : List β} (h : List.Forall₂ R l l') (hstep : ∀ x y, R x y → ∃ z, S y z ∧ T x z) :
    ∃ l'', List.Forall₂ S l' l'' ∧ List.Forall₂ T l l'' := by
  induction h with
  | nil => exact ⟨[], .nil, .nil⟩
  | cons hxy _ ih =>
    obtain ⟨z, hyz, hxz⟩ := hstep _ _ hxy
    obtain ⟨l'', hS, hT⟩ := ih
    exact ⟨z :: l'', .cons hyz hS, .cons hxz hT⟩

/-! ### Members and dictionaries -/

theorem members_eq_ok {members : List (String × Raw)} :
    r.members = .ok members ↔ ∃ ms, r = .object ms ∧
      List.Forall₂ (fun m e => bodyText m.1 = .ok e.1 ∧ m.2 = e.2) ms members := by
  cases r with
  | object ms =>
    simp only [Raw.members, mapM_eq_ok_iff, bind_eq_ok, Raw.object.injEq, exists_eq_left',
      Except.ok.injEq, Prod.ext_iff]
    simp
  | _ => simp [Raw.members]

theorem dictionary_eq_ok {f : Raw → Except Error α} {d : Dict α} :
    r.dictionary f = .ok d ↔ ∃ members fields, r.members = .ok members ∧
      List.Forall₂ (fun m e => m.1 = e.1 ∧ f m.2 = .ok e.2) members fields ∧ Dict.ofList fields = d := by
  simp only [Raw.dictionary, bind_eq_ok, mapM_eq_ok_iff, Except.ok.injEq, Prod.ext_iff]
  simp [and_comm]

/-- Which value stands under a name where it is written last. -/
inductive LastOf (name : String) (value : Raw) : List (List UInt8 × Raw) → Prop
  | here {key : List UInt8} {ms : List (List UInt8 × Raw)} (hkey : bodyText key = .ok name)
    (hlast : ∀ m ∈ ms, bodyText m.1 ≠ .ok name) : LastOf name value ((key, value) :: ms)
  | later {m : List UInt8 × Raw} {ms : List (List UInt8 × Raw)} (h : LastOf name value ms) :
    LastOf name value (m :: ms)

theorem LastOf.exists_key {value : Raw} {ms : List (List UInt8 × Raw)} (h : LastOf name value ms) :
    ∃ key, (key, value) ∈ ms ∧ bodyText key = .ok name := by
  induction h with
  | here hkey _ => exact ⟨_, List.mem_cons_self, hkey⟩
  | later _ ih =>
    obtain ⟨key, hm, hkey⟩ := ih
    exact ⟨key, .tail _ hm, hkey⟩

theorem lastOf_cons_of_later {value : Raw} {m : List UInt8 × Raw} {ms : List (List UInt8 × Raw)}
    (h : ∃ m' ∈ ms, bodyText m'.1 = .ok name) : LastOf name value (m :: ms) ↔ LastOf name value ms := by
  obtain ⟨m', hm', hname⟩ := h
  constructor
  · intro hvalue
    cases hvalue with
    | here _ hlast => exact (hlast m' hm' hname).elim
    | later hvalue => exact hvalue
  · exact .later

theorem lastOf_cons_of_last {value : Raw} {m : List UInt8 × Raw} {ms : List (List UInt8 × Raw)}
    (h : ∀ m' ∈ ms, bodyText m'.1 ≠ .ok name) :
    LastOf name value (m :: ms) ↔ bodyText m.1 = .ok name ∧ m.2 = value := by
  constructor
  · intro hvalue
    cases hvalue with
    | here hkey _ => exact ⟨hkey, rfl⟩
    | later hvalue =>
      obtain ⟨key, hm', hkey⟩ := hvalue.exists_key
      exact (h _ hm' hkey).elim
  · rintro ⟨hkey, rfl⟩
    exact .here hkey h

theorem get?_ofList_iff {f : Raw → Except Error α} {ms : List (List UInt8 × Raw)}
    {fields : List (String × α)} {x : α}
    (h : List.Forall₂ (fun m e => bodyText m.1 = .ok e.1 ∧ f m.2 = .ok e.2) ms fields) :
    (Dict.ofList fields).get? name = some x ↔ ∃ value, LastOf name value ms ∧ f value = .ok x := by
  rw [Dict.get?_ofList]
  induction h generalizing x with
  | nil =>
    constructor
    · intro h
      cases h
    · rintro ⟨_, ⟨⟩, -⟩
  | @cons m e ms fields hm hms ih =>
    rw [List.reverse_cons, List.find?_append]
    cases hfind : fields.reverse.find? (·.1 = name) with
    | some later =>
      obtain ⟨value, hvalue, -⟩ := (ih (x := later.2)).1 (by rw [hfind, Option.map_some])
      obtain ⟨key, hm', hname⟩ := hvalue.exists_key
      simp only [lastOf_cons_of_later ⟨_, hm', hname⟩]
      rw [Option.some_or, ← hfind, ih]
    | none =>
      have hlast : ∀ m' ∈ ms, bodyText m'.1 ≠ .ok name := by
        intro m' hm' hname
        obtain ⟨e', he', hkey', -⟩ := exists_of_mem_left hms hm'
        have hother := List.find?_eq_none.1 hfind e' (List.mem_reverse.2 he')
        exact hother (decide_eq_true (Except.ok.inj (hkey'.symm.trans hname)))
      simp only [lastOf_cons_of_last hlast, Option.none_or, List.find?_singleton, hm.1,
        Except.ok.injEq, decide_eq_true_eq]
      split
      · next he => simp [he, hm.2]
      · next he => simp [he]

theorem entries_of_dictionary {f : Raw → Except Error α} {ms : List (List UInt8 × Raw)} {d : Dict α}
    (h : (Raw.object ms).dictionary f = .ok d) : ∃ fields, d = Dict.ofList fields ∧
      List.Forall₂ (fun m e => bodyText m.1 = .ok e.1 ∧ f m.2 = .ok e.2) ms fields := by
  obtain ⟨members, fields, hmembers, hfields, rfl⟩ := dictionary_eq_ok.1 h
  obtain ⟨_, ⟨⟩, hms⟩ := members_eq_ok.1 hmembers
  refine ⟨fields, rfl, ?_⟩
  clear h hmembers
  induction hms generalizing fields with
  | nil =>
    cases hfields
    exact .nil
  | cons hm _ ih =>
    cases hfields with
    | cons he hfields => exact .cons ⟨he.1 ▸ hm.1, hm.2 ▸ he.2⟩ (ih _ hfields)

theorem dictionary_of_entries {f : Raw → Except Error α} {ms : List (List UInt8 × Raw)}
    {fields : List (String × α)}
    (h : List.Forall₂ (fun m e => bodyText m.1 = .ok e.1 ∧ f m.2 = .ok e.2) ms fields) :
    (Raw.object ms).dictionary f = .ok (Dict.ofList fields) := by
  obtain ⟨members, hfields, hmembers⟩ := exists_between
    (S := fun e z => z.1 = e.1 ∧ f z.2 = .ok e.2) (T := fun m z => bodyText m.1 = .ok z.1 ∧ m.2 = z.2)
    h fun m e hme => ⟨(e.1, m.2), ⟨rfl, hme.2⟩, hme.1, rfl⟩
  exact dictionary_eq_ok.2 ⟨members, fields, members_eq_ok.2 ⟨ms, rfl, hmembers⟩, hfields.flip, rfl⟩

/-- A dictionary holds, under each key, the value that is written last. -/
theorem get?_dictionary {f : Raw → Except Error α} {ms : List (List UInt8 × Raw)} {d : Dict α} {x : α}
    (h : (Raw.object ms).dictionary f = .ok d) :
    d.get? name = some x ↔ ∃ value, LastOf name value ms ∧ f value = .ok x := by
  obtain ⟨fields, rfl, hfields⟩ := entries_of_dictionary h
  exact get?_ofList_iff hfields

/-- The values of a dictionary are all accepted, those that are written over as well. -/
theorem exists_of_dictionary {f : Raw → Except Error α} {ms : List (List UInt8 × Raw)} {d : Dict α}
    {value : Raw} (h : (Raw.object ms).dictionary f = .ok d) (hlast : LastOf name value ms) :
    ∃ x, f value = .ok x := by
  obtain ⟨fields, -, hfields⟩ := entries_of_dictionary h
  obtain ⟨key, hm, -⟩ := hlast.exists_key
  obtain ⟨e, -, -, hx⟩ := exists_of_mem_left hfields hm
  exact ⟨e.2, hx⟩

/-! ### Fields -/

/-- Where a record has a value for a field: at a member of that name, or at the place of the field in the
array of them all. -/
inductive FieldOf (names : List String) (name : String) : Raw → Raw → Prop
  | member {ms : List (List UInt8 × Raw)} {key : List UInt8} {value : Raw} (h : (key, value) ∈ ms)
    (hkey : bodyText key = .ok name) : FieldOf names name (.object ms) value
  | item {rs : List Raw} {i : Nat} {value : Raw} (hname : names[i]? = some name)
    (h : rs[i]? = some value) : FieldOf names name (.array rs) value

theorem repeated?_eq_none_iff {l : List String} : Fields.repeated? l = none ↔ l.Nodup := by
  induction l with
  | nil => simp [Fields.repeated?]
  | cons x l ih =>
    rw [Fields.repeated?, List.nodup_cons, ← ih]
    split <;> simp_all

theorem find?_key_iff {l : List (String × α)} {v : α} (hnodup : (l.map (·.1)).Nodup) :
    (l.find? (·.1 = name)).map (·.2) = some v ↔ (name, v) ∈ l := by
  induction l with
  | nil => simp
  | cons e l ih =>
    rw [List.map_cons, List.nodup_cons] at hnodup
    rw [List.find?_cons, List.mem_cons]
    split
    · next he =>
      obtain rfl : e.1 = name := of_decide_eq_true he
      rw [Option.map_some, Option.some.injEq]
      constructor
      · rintro rfl
        exact .inl rfl
      · rintro (h | h)
        · exact congrArg Prod.snd h.symm
        · exact (hnodup.1 (List.mem_map.2 ⟨_, h, rfl⟩)).elim
    · next he =>
      have hkey : e.1 ≠ name := of_decide_eq_false he
      rw [ih hnodup.2]
      constructor
      · exact .inr
      · rintro (rfl | h)
        · exact (hkey rfl).elim
        · exact h

theorem prefix_zip_keys (names : List String) (l : List α) : (names.zip l).map (·.1) <+: names := by
  induction names generalizing l with
  | nil => exact List.prefix_rfl
  | cons name names ih =>
    cases l with
    | nil => exact List.nil_prefix
    | cons v l => exact (List.prefix_cons_inj name).2 (ih l)

variable {names : List String} {fs : Fields} {value : Raw}

theorem Fields.ofMembers_eq_ok {members : List (String × Raw)} :
    Fields.ofMembers names members = .ok fs ↔
      ((members.filter (·.1 ∈ names)).map (·.1)).Nodup ∧
        fs = ⟨members.filter (·.1 ∈ names), false⟩ := by
  rw [Fields.ofMembers, ← repeated?_eq_none_iff]
  cases Fields.repeated? ((members.filter (·.1 ∈ names)).map (·.1)) with
  | none => simp [eq_comm]
  | some name => simp

/-- A record has at most one value for each of its fields, and that one is found. -/
theorem Fields.get?_eq_some_iff (hnames : names.Nodup) (hname : name ∈ names)
    (h : Fields.ofRaw names r = .ok fs) : fs.get? name = some value ↔ FieldOf names name r value := by
  cases r with
  | array rs =>
    rw [Fields.ofRaw] at h
    split at h
    · cases h
      have hnodup : ((names.zip rs).map (·.1)).Nodup := hnames.sublist (prefix_zip_keys names rs).sublist
      rw [Fields.get?, find?_key_iff hnodup, List.mem_iff_getElem?]
      simp only [List.getElem?_zip_eq_some]
      constructor
      · rintro ⟨i, hi, hvalue⟩
        exact .item hi hvalue
      · intro hfield
        cases hfield with
        | @item _ i _ hi hvalue => exact ⟨i, hi, hvalue⟩
    · cases h
  | object ms =>
    obtain ⟨members, hmembers, h⟩ := bind_eq_ok.1 h
    obtain ⟨_, ⟨⟩, hms⟩ := members_eq_ok.1 hmembers
    obtain ⟨hnodup, rfl⟩ := Fields.ofMembers_eq_ok.1 h
    rw [Fields.get?, find?_key_iff hnodup, List.mem_filter]
    simp only [hname, decide_true, and_true]
    constructor
    · intro hvalue
      obtain ⟨⟨key, _⟩, hm, hkey, rfl⟩ := exists_of_mem_right hms hvalue
      exact .member hm hkey
    · intro hfield
      cases hfield with
      | member hm hkey =>
        obtain ⟨⟨_, _⟩, he, hkey', rfl⟩ := exists_of_mem_left hms hm
        cases hkey.symm.trans hkey'
        exact he
  | _ =>
    obtain ⟨members, hmembers, -⟩ := bind_eq_ok.1 h
    cases hmembers

theorem Fields.defaulting_eq_ok {default x : α} {f : Raw → Except Error α} :
    fs.defaulting name default f = .ok x ↔
      (∃ value, fs.get? name = some value ∧ f value = .ok x) ∨ (fs.get? name = none ∧ default = x) := by
  rw [Fields.defaulting]
  cases fs.get? name <;> simp

end Groundwork.Json
