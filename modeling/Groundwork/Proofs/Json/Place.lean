import Groundwork.Proofs.Json.Decode

/-! Documents with one place left open. What such a document is read as depends on what stands in the place
only through how that part is read. -/
namespace Groundwork.Json

variable {ε α β γ δ ρ σ : Type} {f : ρ → Except ε α} {g : ρ → Except ε β}
  {puts puts' : (α → β) → Prop}

/-- How reading `g` a document goes by reading `f` a part of it. Either the document is refused whatever
stands there, before or after the part is looked at; or it is accepted exactly if the part is, and what was
read is put in its place. -/
inductive Carries (f : ρ → Except ε α) (g : ρ → Except ε β) (puts : (α → β) → Prop) : Prop
  | before (e : ε) (h : ∀ r, g r = .error e)
  | after (e : ε) (h : ∀ r, g r = f r >>= fun _ => .error e)
  | puts (put : α → β) (hput : puts put) (h : ∀ r, g r = (f r).map put)

namespace Carries

theorem refl (f : ρ → Except ε α) : Carries f f (· = id) :=
  .puts id rfl fun r => by cases f r <;> rfl

theorem mono (h : Carries f g puts) (hmono : ∀ put, puts put → puts' put) : Carries f g puts' := by
  cases h with
  | before e h => exact .before e h
  | after e h => exact .after e h
  | puts put hput h => exact .puts put (hmono put hput) h

theorem comp (h : Carries f g puts) (x : σ → ρ) :
    Carries (fun s => f (x s)) (fun s => g (x s)) puts := by
  cases h with
  | before e h => exact .before e fun s => h (x s)
  | after e h => exact .after e fun s => h (x s)
  | puts put hput h => exact .puts put hput fun s => h (x s)

/-- A step that is the same whatever stands in the place. -/
theorem bind_left (a : Except ε γ) {g : γ → ρ → Except ε β} (h : ∀ x, a = .ok x → Carries f (g x) puts) :
    Carries f (fun r => a >>= fun x => g x r) puts := by
  cases a with
  | error e => exact .before e fun _ => rfl
  | ok x => exact h x rfl

/-- Such a step after the one that reads the part. -/
theorem bind_right (h : Carries f g puts) (a : Except ε γ) (join : β → γ → δ) :
    Carries f (fun r => g r >>= fun y => a >>= fun x => pure (join y x))
      (fun put => ∃ p x, puts p ∧ a = .ok x ∧ put = fun v => join (p v) x) := by
  cases h with
  | before e h => exact .before e fun r => by rw [h]; rfl
  | after e h => exact .after e fun r => by rw [h]; cases f r <;> rfl
  | puts p hp h =>
    cases a with
    | error e => exact .after e fun r => by rw [h]; cases f r <;> rfl
    | ok x => exact .puts _ ⟨p, x, hp, rfl, rfl⟩ fun r => by rw [h]; cases f r <;> rfl

theorem map (h : Carries f g puts) (q : β → γ) :
    Carries f (fun r => (g r).map q) (fun put => ∃ p, puts p ∧ put = fun v => q (p v)) := by
  cases h with
  | before e h => exact .before e fun r => by rw [h]; rfl
  | after e h => exact .after e fun r => by rw [h]; cases f r <;> rfl
  | puts p hp h => exact .puts _ ⟨p, hp, rfl⟩ fun r => by rw [h]; cases f r <;> rfl

/-- A step that takes what stands in the place as it is. -/
theorem bind_part {x : ρ → σ} {g : ρ → Except ε β} {puts : (σ → β) → Prop}
    {k : ρ → β → Except ε γ} {puts' : (α → γ) → Prop}
    (h : Carries (fun r => Except.ok (x r)) g puts)
    (hk : ∀ put, puts put → Carries f (fun r => k r (put (x r))) puts') :
    Carries f (fun r => g r >>= k r) puts' := by
  cases h with
  | before e h => exact .before e fun r => by rw [h]; rfl
  | after e h => exact .before e fun r => by rw [h]; rfl
  | puts put hput h =>
    have hstep : (fun r => g r >>= k r) = fun r => k r (put (x r)) := by
      funext r
      rw [h]
      rfl
    rw [hstep]
    exact hk put hput

/-- One item of many. -/
theorem mapM {F : σ → Except ε β} {x : ρ → σ} (h : Carries f (fun r => F (x r)) puts)
    (front back : List σ) : Carries f (fun r => (front ++ x r :: back).mapM F)
      (fun put => ∃ p ys zs, puts p ∧ front.mapM F = .ok ys ∧ back.mapM F = .ok zs ∧
        put = fun v => ys ++ p v :: zs) := by
  have hsplit (r : ρ) : (front ++ x r :: back).mapM F = front.mapM F >>= fun ys => F (x r) >>= fun y =>
      back.mapM F >>= fun zs => pure (ys ++ y :: zs) := by
    simp only [List.mapM_append, List.mapM_cons, bind_assoc, pure_bind]
  simp only [hsplit]
  refine bind_left _ fun ys hys => (bind_right h _ fun y zs => ys ++ y :: zs).mono ?_
  rintro put ⟨p, zs, hp, hzs, rfl⟩
  exact ⟨p, ys, zs, hp, hys, hzs, rfl⟩

end Carries

/-! ### Members -/

theorem bind_ok_eq_map (a : Except ε α) (q : α → β) : (a >>= fun x => Except.ok (q x)) = a.map q := by
  cases a <;> rfl

theorem keys_eq_of_mapM {F : Raw → Except Error β} {members : List (String × Raw)}
    {fields : List (String × β)}
    (h : (members.mapM fun m => (F m.2).map fun y => (m.1, y)) = .ok fields) :
    fields.map (·.1) = members.map (·.1) := by
  rw [← List.forall₂_eq_eq_eq, List.forall₂_map_left_iff, List.forall₂_map_right_iff]
  refine (mapM_eq_ok_iff.1 h).flip.imp fun e m hm => ?_
  obtain ⟨_, -, rfl⟩ := map_eq_ok.1 hm
  rfl

theorem members_object (ms : List (List UInt8 × Raw)) :
    (Raw.object ms).members = ms.mapM fun m => (bodyText m.1).map fun name => (name, m.2) := by
  rw [Raw.members]
  refine congrArg (fun F => ms.mapM F) (funext fun m => ?_)
  obtain ⟨key, r⟩ := m
  exact bind_ok_eq_map (bodyText key) _

/-- The members of an object, one of which is open. -/
theorem carries_members (front back : List (List UInt8 × Raw)) (key : List UInt8) :
    Carries Except.ok (fun r => (Raw.object (front ++ (key, r) :: back)).members)
      (fun put => ∃ name ys zs, bodyText key = .ok name ∧ (Raw.object front).members = .ok ys ∧
        (Raw.object back).members = .ok zs ∧ put = fun r => ys ++ (name, r) :: zs) := by
  have hmember : Carries (Except.ok : Raw → Except Error Raw)
      (fun r => (bodyText key).map fun name => (name, r))
      (fun put => ∃ name, bodyText key = .ok name ∧ put = fun r => (name, r)) := by
    cases hkey : bodyText key with
    | error e => exact .before e fun _ => rfl
    | ok name => exact .puts _ ⟨name, rfl, rfl⟩ fun _ => rfl
  simp only [members_object]
  refine (Carries.mapM (x := fun r => (key, r)) hmember front back).mono ?_
  rintro put ⟨p, ys, zs, ⟨name, hkey, rfl⟩, hys, hzs, rfl⟩
  exact ⟨name, ys, zs, hkey, hys, hzs, rfl⟩

theorem mem_names_iff {ms : List (List UInt8 × Raw)} {members : List (String × Raw)} {name : String}
    (h : (Raw.object ms).members = .ok members) :
    name ∈ members.map (·.1) ↔ ∃ m ∈ ms, bodyText m.1 = .ok name := by
  obtain ⟨_, ⟨⟩, hms⟩ := members_eq_ok.1 h
  rw [List.mem_map]
  constructor
  · rintro ⟨e, he, rfl⟩
    obtain ⟨m, hm, hkey, -⟩ := exists_of_mem_right hms he
    exact ⟨m, hm, hkey⟩
  · rintro ⟨m, hm, hname⟩
    obtain ⟨e, he, hkey, -⟩ := exists_of_mem_left hms hm
    exact ⟨e, he, Except.ok.inj (hkey.symm.trans hname)⟩

/-- A dictionary, one of whose entries is open. -/
theorem carries_dictionary {f : ρ → Except Error α} {F : Raw → Except Error β} {x : ρ → Raw}
    (h : Carries f (fun r => F (x r)) puts) (front back : List (List UInt8 × Raw)) (key : List UInt8) :
    Carries f (fun r => (Raw.object (front ++ (key, x r) :: back)).dictionary F)
      (fun put => ∃ p name ys zs, puts p ∧ bodyText key = .ok name ∧
        (name ∈ zs.map (·.1) ↔ ∃ m ∈ back, bodyText m.1 = bodyText key) ∧
        put = fun v => Dict.ofList (ys ++ (name, p v) :: zs)) := by
  simp only [Raw.dictionary, bind_ok_eq_map]
  refine ((carries_members front back key).comp x).bind_part ?_
  rintro put ⟨name, ys, zs, hkey, -, hzs, rfl⟩
  refine (((h.map fun y => (name, y)).mapM (x := fun r => (name, x r)) ys zs).map Dict.ofList).mono ?_
  rintro put ⟨_, ⟨_, ys', zs', ⟨p, hp, rfl⟩, -, hzs', rfl⟩, rfl⟩
  refine ⟨p, name, ys', zs', hp, hkey, ?_, rfl⟩
  rw [keys_eq_of_mapM hzs', mem_names_iff hzs, hkey]

/-! ### Fields -/

/-- The fields of a record, one of which is open. -/
structure Fields.Gap (name : String) where
  front : List (String × Raw)
  back : List (String × Raw)
  positional : Bool
  fresh : ∀ e ∈ front, e.1 ≠ name

namespace Fields.Gap

variable {name other : String} (gap : Fields.Gap name) (r : Raw)

def fill : Fields := ⟨gap.front ++ (name, r) :: gap.back, gap.positional⟩

/-- The other fields. -/
def rest : Fields := ⟨gap.front ++ gap.back, gap.positional⟩

theorem get?_fill : (gap.fill r).get? name = some r := by
  have hfront : gap.front.find? (·.1 = name) = none :=
    List.find?_eq_none.2 fun e he => by simpa using gap.fresh e he
  simp [Fields.get?, fill, List.find?_append, hfront]

theorem get?_fill_of_ne (h : name ≠ other) : (gap.fill r).get? other = gap.rest.get? other := by
  simp [Fields.get?, fill, rest, List.find?_append, h]

theorem required_fill (F : Raw → Except Error α) : (gap.fill r).required name F = F r := by
  rw [Fields.required, get?_fill]

theorem defaulting_fill (default : α) (F : Raw → Except Error α) :
    (gap.fill r).defaulting name default F = F r := by
  rw [Fields.defaulting, get?_fill]

theorem optional_fill (F : Raw → Except Error α) : (gap.fill r).optional name F = r.nullable F := by
  rw [Fields.optional, get?_fill]

theorem required_fill_of_ne (h : name ≠ other) (F : Raw → Except Error α) :
    (gap.fill r).required other F = gap.rest.required other F := by
  rw [Fields.required, get?_fill_of_ne gap r h, ← Fields.required]

theorem defaulting_fill_of_ne (h : name ≠ other) (default : α) (F : Raw → Except Error α) :
    (gap.fill r).defaulting other default F = gap.rest.defaulting other default F := by
  rw [Fields.defaulting, get?_fill_of_ne gap r h, ← Fields.defaulting]

theorem optional_fill_of_ne (h : name ≠ other) (F : Raw → Except Error α) :
    (gap.fill r).optional other F = gap.rest.optional other F := by
  rw [Fields.optional, get?_fill_of_ne gap r h]
  rfl

end Fields.Gap

/-- A place for the value of a field in a record. -/
inductive FieldSlot (names : List String) (name : String)
  | member (front : List (List UInt8 × Raw)) (key : List UInt8) (hkey : bodyText key = .ok name)
    (back : List (List UInt8 × Raw))
  | item (front : List Raw) (hname : names[front.length]? = some name) (back : List Raw)

def FieldSlot.fill {names : List String} {name : String} : FieldSlot names name → Raw → Raw
  | member front key _ back, r => .object (front ++ (key, r) :: back)
  | item front _ back, r => .array (front ++ r :: back)

variable {names : List String} {name : String}

theorem carries_ofMembers (hname : name ∈ names) (front back : List (String × Raw)) :
    Carries Except.ok (fun r => Fields.ofMembers names (front ++ (name, r) :: back))
      (fun put => ∃ gap : Fields.Gap name, put = gap.fill) := by
  have hknown (r : Raw) : (front ++ (name, r) :: back).filter (·.1 ∈ names) =
      front.filter (·.1 ∈ names) ++ (name, r) :: back.filter (·.1 ∈ names) := by
    simp [List.filter_append, hname]
  simp only [Fields.ofMembers, hknown, List.map_append, List.map_cons]
  cases hrepeated : Fields.repeated? ((front.filter (·.1 ∈ names)).map (·.1) ++
      name :: (back.filter (·.1 ∈ names)).map (·.1)) with
  | some other => exact .before _ fun _ => rfl
  | none =>
    have hnodup := repeated?_eq_none_iff.1 hrepeated
    refine .puts _ ⟨⟨front.filter (·.1 ∈ names), back.filter (·.1 ∈ names), false, ?_⟩, rfl⟩
      fun _ => rfl
    intro e he heq
    have hdisjoint := List.disjoint_of_nodup_append hnodup
    exact hdisjoint (List.mem_map.2 ⟨e, he, heq⟩) List.mem_cons_self

/-- A record whose fields are told by their names is taken apart into them, one of which is open. -/
theorem carries_ofRaw (hnames : names.Nodup) (hname : name ∈ names) (slot : FieldSlot names name) :
    Carries Except.ok (fun r => Fields.ofRaw names (slot.fill r))
      (fun put => ∃ gap : Fields.Gap name, put = gap.fill) := by
  cases slot with
  | member front key hkey back =>
    refine Carries.bind_part (k := fun _ => Fields.ofMembers names) (carries_members front back key) ?_
    rintro put ⟨_, ys, zs, hname', -, -, rfl⟩
    cases hkey.symm.trans hname'
    exact carries_ofMembers hname ys zs
  | item front hitem back =>
    obtain ⟨hlt, hget⟩ := List.getElem?_eq_some_iff.1 hitem
    have hsplit : names = names.take front.length ++ name :: names.drop (front.length + 1) := by
      rw [← hget, List.getElem_cons_drop, List.take_append_drop]
    have hzip (r : Raw) : names.zip (front ++ r :: back) = (names.take front.length).zip front ++
        (name, r) :: (names.drop (front.length + 1)).zip back := by
      conv_lhs => rw [hsplit]
      rw [List.zip_append (by simp; omega), List.zip_cons_cons]
    simp only [FieldSlot.fill, Fields.ofRaw, hzip, List.length_append, List.length_cons]
    split
    · refine .puts _ ⟨⟨(names.take front.length).zip front,
        (names.drop (front.length + 1)).zip back, true, ?_⟩, rfl⟩ fun _ => rfl
      intro e he heq
      have hbefore : name ∈ names.take front.length := heq ▸ (List.of_mem_zip he).1
      rw [hsplit] at hnames
      exact List.disjoint_of_nodup_append hnames hbefore List.mem_cons_self
    · exact .before _ fun _ => rfl

/-! ### Numbers in a place -/

/-- Whether reading a text takes the number that stands in one place of its document. The text is refused
if there is none. If there is one, it alone counts and not how it is written: either the text is refused
whatever number it is, or it is accepted whatever number it is. -/
structure TakesNumber (read : String → Except ε β) (place : Raw → Raw) (number : Raw → Nat → Prop)
    (puts : (Nat → β) → Prop) : Prop where
  refuses : ∀ text r, Raw.ofText text = .ok (place r) → (∀ n, ¬ number r n) → ∃ e, read text = .error e
  takes : (∃ e, ∀ text r n, Raw.ofText text = .ok (place r) → number r n → read text = .error e) ∨
    ∃ put, puts put ∧
      ∀ text r n, Raw.ofText text = .ok (place r) → number r n → read text = .ok (put n)

theorem takesNumber_of_carries {read : String → Except ε β} {place : Raw → Raw}
    {number : Raw → Nat → Prop} {puts : (Nat → β) → Prop} {f : Raw → Except Error Nat}
    {F : Raw → Except Error β} {report : Error → ε} (h : Carries f (fun r => F (place r)) puts)
    (hnumber : ∀ r n, f r = .ok n ↔ number r n)
    (hread : ∀ text r, Raw.ofText text = .ok r → read text = (F r).mapError report) :
    TakesNumber read place number puts := by
  constructor
  · intro text r htext hnone
    have hpart : ∃ e, f r = .error e := by
      cases hr : f r with
      | error e => exact ⟨e, rfl⟩
      | ok n => exact (hnone n ((hnumber r n).1 hr)).elim
    obtain ⟨e, he⟩ := hpart
    rw [hread text _ htext]
    cases h with
    | before e' h => exact ⟨report e', by rw [h]; rfl⟩
    | after e' h => exact ⟨report e, by rw [h, he]; rfl⟩
    | puts put hput h => exact ⟨report e, by rw [h, he]; rfl⟩
  · have hpart {r : Raw} {n : Nat} (hn : number r n) : f r = .ok n := (hnumber r n).2 hn
    cases h with
    | before e h =>
      refine .inl ⟨report e, fun text r n htext _ => ?_⟩
      rw [hread text _ htext, h]
      rfl
    | after e h =>
      refine .inl ⟨report e, fun text r n htext hn => ?_⟩
      rw [hread text _ htext, h, hpart hn]
      rfl
    | puts put hput h =>
      refine .inr ⟨put, hput, fun text r n htext hn => ?_⟩
      rw [hread text _ htext, h, hpart hn]
      rfl

end Groundwork.Json
