import Groundwork.Proofs.Json.Decode
import Groundwork.Proofs.Json.Number
import Groundwork.Proofs.Json.Text

/-! Values and the documents that are written for them. A value whose numbers are integers is read back
from what is written for it, as long as it is not nested too deeply. -/
namespace Groundwork.Json

open Raw Value

/-- Whether every number of a document is an integer. -/
inductive Raw.Integral : Raw → Prop
  | null : Integral .null
  | bool (b : Bool) : Integral (.bool b)
  | number {n : Numeral} (h : n.IsInteger) : Integral (.number n)
  | string (body : List UInt8) : Integral (.string body)
  | array {items : List Raw} (h : ∀ r ∈ items, Integral r) : Integral (.array items)
  | object {members : List (List UInt8 × Raw)} (h : ∀ m ∈ members, Integral m.2) :
    Integral (.object members)

/-- Whether a value has only integers for numbers, has its keys in order and is nested at most as deep
as given. -/
inductive Value.Fits : Nat → Value → Prop
  | null (depth : Nat) : Fits depth .null
  | bool (depth : Nat) (b : Bool) : Fits depth (.bool b)
  | number (depth : Nat) {n : Number} (h : n.IsInteger) : Fits depth (.number n)
  | string (depth : Nat) (text : String) : Fits depth (.string text)
  | array {depth : Nat} {items : List Value} (h : ∀ v ∈ items, Fits depth v) :
    Fits (depth + 1) (.array items)
  | object {depth : Nat} (fields : Dict Value) (h : ∀ f ∈ fields.entries, Fits depth f.2) :
    Fits (depth + 1) (.object fields.entries)

variable {depth : Nat} {rest : List UInt8}

theorem Value.Fits.mono {depth' : Nat} {v : Value} (h : Fits depth v) (hle : depth ≤ depth') :
    Fits depth' v := by
  induction h generalizing depth' with
  | null => exact .null _
  | bool => exact .bool _ _
  | number _ h => exact .number _ h
  | string => exact .string _ _
  | array _ ih =>
    cases depth' with
    | zero => omega
    | succ depth' => exact .array fun v hv => ih v hv (Nat.le_of_succ_le_succ hle)
  | object fields _ ih =>
    cases depth' with
    | zero => omega
    | succ depth' => exact .object fields fun f hf => ih f hf (Nat.le_of_succ_le_succ hle)

/-! ### From a document to its value -/

theorem Value.ofItems_eq_ok {rs : List Raw} {vs : List Value} :
    ofItems depth rs = .ok vs ↔ List.Forall₂ (fun r v => ofRaw depth r = .ok v) rs vs := by
  rw [← mapM_eq_ok_iff]
  suffices h : ofItems depth rs = rs.mapM (ofRaw depth) by rw [h]
  induction rs with
  | nil => rfl
  | cons r rs ih =>
    rw [ofItems, ih, List.mapM_cons]
    rfl

theorem Value.ofMembers_eq_ok {ms : List (List UInt8 × Raw)} {fields : List (String × Value)} :
    Value.ofMembers depth ms = .ok fields ↔
      List.Forall₂ (fun m f => bodyText m.1 = .ok f.1 ∧ ofRaw depth m.2 = .ok f.2) ms fields := by
  induction ms generalizing fields with
  | nil =>
    rw [Value.ofMembers, Except.ok.injEq, List.forall₂_nil_left_iff]
    exact eq_comm
  | cons m ms ih =>
    simp only [Value.ofMembers, bind_eq_ok, ih, List.forall₂_cons_left_iff, Except.ok.injEq]
    constructor
    · rintro ⟨k, hk, v, hv, rest, hrest, rfl⟩
      exact ⟨(k, v), rest, ⟨hk, hv⟩, hrest, rfl⟩
    · rintro ⟨⟨k, v⟩, rest, ⟨hk, hv⟩, hrest, rfl⟩
      exact ⟨k, hk, v, hv, rest, hrest, rfl⟩

/-- A document of integers stands for a value that is no deeper than the document may be. -/
theorem Raw.Integral.fits {r : Raw} {v : Value} (h : r.Integral) (hv : ofRaw depth r = .ok v) :
    v.Fits depth := by
  induction h generalizing depth v with
  | null =>
    rw [ofRaw] at hv
    cases hv
    exact .null depth
  | bool b =>
    rw [ofRaw] at hv
    cases hv
    exact .bool depth b
  | number h =>
    obtain ⟨n, hn, hinteger⟩ := h.exists_number
    rw [ofRaw, hn] at hv
    cases hv
    exact .number depth hinteger
  | string body =>
    rw [ofRaw, map_eq_ok] at hv
    obtain ⟨text, -, rfl⟩ := hv
    exact .string depth text
  | array _ ih =>
    cases depth with
    | zero => cases hv
    | succ depth =>
      rw [ofRaw, map_eq_ok] at hv
      obtain ⟨vs, hvs, rfl⟩ := hv
      refine .array fun v hv => ?_
      obtain ⟨r, hr, hrv⟩ := exists_of_mem_right (ofItems_eq_ok.1 hvs) hv
      exact ih r hr hrv
  | object _ ih =>
    cases depth with
    | zero => cases hv
    | succ depth =>
      rw [ofRaw, map_eq_ok] at hv
      obtain ⟨fields, hfields, rfl⟩ := hv
      refine .object _ fun f hf => ?_
      have hmem : f ∈ fields := Dict.mem_of_mem_ofList hf
      obtain ⟨m, hm, -, hmv⟩ := exists_of_mem_right (ofMembers_eq_ok.1 hfields) hmem
      exact ih m hm hmv

theorem Value.isObject_of_ofRaw {r : Raw} {v : Value} (h : ofRaw depth r = .ok v) :
    v.isObject = true ↔ ∃ members, r = .object members := by
  cases r with
  | null | bool =>
    rw [ofRaw] at h
    cases h
    simp [isObject]
  | number | string =>
    rw [ofRaw, map_eq_ok] at h
    obtain ⟨_, -, rfl⟩ := h
    simp [isObject]
  | array =>
    cases depth with
    | zero => cases h
    | succ depth =>
      rw [ofRaw, map_eq_ok] at h
      obtain ⟨_, -, rfl⟩ := h
      simp [isObject]
  | object members =>
    cases depth with
    | zero => cases h
    | succ depth =>
      rw [ofRaw, map_eq_ok] at h
      obtain ⟨_, -, rfl⟩ := h
      exact iff_of_true rfl ⟨members, rfl⟩

/-! ### From a value to its document -/

theorem encodeItems_eq (vs : List Value) : encodeItems vs = vs.map encode := by
  induction vs with
  | nil => rfl
  | cons v vs ih => rw [encodeItems, ih, List.map_cons]

theorem encodeFields_eq (fields : List (String × Value)) :
    encodeFields fields = fields.map fun f => encodeText f.1 ++ 0x3A :: encode f.2 := by
  induction fields with
  | nil => rfl
  | cons f fields ih => rw [encodeFields, ih, List.map_cons]

/-- Whether bytes are read as one document, whatever stands after them. -/
structure Spells (bytes : List UInt8) (r : Raw) : Prop where
  head : ∃ b tail, bytes = b :: tail ∧ isSpace b = false ∧ b ≠ 0x5D
  reads : ∀ fuel rest, bytes.length ≤ fuel → Closed rest → value? fuel (bytes ++ rest) = some (r, rest)

/-- Whether bytes are read as one member of an object. -/
structure SpellsMember (piece : List UInt8) (m : List UInt8 × Raw) : Prop where
  split : ∃ bytes, piece = 0x22 :: (m.1 ++ 0x22 :: 0x3A :: bytes) ∧ Spells bytes m.2
  key : ∀ rest, stringBody (m.1 ++ 0x22 :: rest) = some (m.1, rest)

theorem skipSpace_cons {b : UInt8} (hb : isSpace b = false) (tail : List UInt8) :
    skipSpace (b :: tail) = b :: tail :=
  List.dropWhile_cons_of_neg (by simp [hb])

theorem closed_cons {b : UInt8} (hb : b = 0x2C ∨ b = 0x5D ∨ b = 0x7D) (tail : List UInt8) :
    Closed (b :: tail) := by
  rintro _ ⟨⟩
  rcases hb with rfl | rfl | rfl <;> decide

theorem separated_cons_cons (piece next : List UInt8) (pieces : List (List UInt8)) :
    separated (piece :: next :: pieces) = piece ++ 0x2C :: separated (next :: pieces) := rfl

/-- An item is read first, and what follows it decides whether there are more. -/
theorem items?_append {piece : List UInt8} {r : Raw} (h : Spells piece r) {fuel : Nat}
    (hfuel : piece.length ≤ fuel) (hrest : Closed rest) : items? (fuel + 1) (piece ++ rest) =
      match skipSpace rest with
      | 0x2C :: more => (items? fuel more).map fun (rs, after) => (r :: rs, after)
      | 0x5D :: after => some ([r], after)
      | _ => none := by
  rw [items?, h.reads fuel rest hfuel hrest]
  rfl

/-- By induction on the items. The bytes of an item and its comma leave room for one more call. -/
theorem items?_separated {pieces : List (List UInt8)} {rs : List Raw}
    (h : List.Forall₂ Spells pieces rs) (hne : pieces ≠ []) (fuel : Nat)
    (hfuel : (separated pieces).length < fuel) (rest : List UInt8) :
    items? fuel (separated pieces ++ 0x5D :: rest) = some (rs, rest) := by
  induction h generalizing fuel with
  | nil => exact (hne rfl).elim
  | @cons piece r pieces rs hpiece hpieces ih =>
    obtain ⟨fuel, rfl⟩ := Nat.exists_eq_succ_of_ne_zero (Nat.ne_zero_of_lt hfuel)
    cases hpieces with
    | nil =>
      rw [separated] at hfuel ⊢
      rw [items?_append hpiece (by omega) (closed_cons (by decide) _), skipSpace_cons rfl]
      rfl
    | @cons next r' pieces rs hnext hpieces =>
      rw [separated_cons_cons, List.length_append, List.length_cons] at hfuel
      have hmore := ih (List.cons_ne_nil _ _) fuel (by omega)
      rw [separated_cons_cons, List.append_assoc, List.cons_append,
        items?_append hpiece (by omega) (closed_cons (by decide) _), skipSpace_cons rfl]
      simp only [hmore, Option.map_some]

/-- A member is read first, and what follows it decides whether there are more. -/
theorem members?_append {piece : List UInt8} {m : List UInt8 × Raw} (h : SpellsMember piece m)
    {fuel : Nat} (hfuel : piece.length ≤ fuel) (hrest : Closed rest) :
    members? (fuel + 1) (piece ++ rest) =
      match skipSpace rest with
      | 0x2C :: more => (members? fuel more).map fun (ms, after) => (m :: ms, after)
      | 0x7D :: after => some ([m], after)
      | _ => none := by
  obtain ⟨⟨bytes, rfl, hbytes⟩, hkey⟩ := h
  rw [List.length_cons, List.length_append, List.length_cons, List.length_cons] at hfuel
  rw [members?, List.cons_append, List.append_assoc, List.cons_append, List.cons_append]
  simp only [skipSpace_cons (b := 0x22) rfl, hkey, Option.bind_eq_bind, Option.bind_some,
    skipSpace_cons (b := 0x3A) rfl]
  rw [hbytes.reads fuel rest (by omega) hrest]
  rfl

theorem members?_separated {pieces : List (List UInt8)} {ms : List (List UInt8 × Raw)}
    (h : List.Forall₂ SpellsMember pieces ms) (hne : pieces ≠ []) (fuel : Nat)
    (hfuel : (separated pieces).length < fuel) (rest : List UInt8) :
    members? fuel (separated pieces ++ 0x7D :: rest) = some (ms, rest) := by
  induction h generalizing fuel with
  | nil => exact (hne rfl).elim
  | @cons piece m pieces ms hpiece hpieces ih =>
    obtain ⟨fuel, rfl⟩ := Nat.exists_eq_succ_of_ne_zero (Nat.ne_zero_of_lt hfuel)
    cases hpieces with
    | nil =>
      rw [separated] at hfuel ⊢
      rw [members?_append hpiece (by omega) (closed_cons (by decide) _), skipSpace_cons rfl]
      rfl
    | @cons next m' pieces ms hnext hpieces =>
      rw [separated_cons_cons, List.length_append, List.length_cons] at hfuel
      have hmore := ih (List.cons_ne_nil _ _) fuel (by omega)
      rw [separated_cons_cons, List.append_assoc, List.cons_append,
        members?_append hpiece (by omega) (closed_cons (by decide) _), skipSpace_cons rfl]
      simp only [hmore, Option.map_some]

theorem spells_cons {b : UInt8} {tail : List UInt8} {r : Raw} (hspace : isSpace b = false)
    (hclose : b ≠ 0x5D) (h : ∀ fuel rest, tail.length ≤ fuel → Closed rest →
      value? (fuel + 1) (b :: (tail ++ rest)) = some (r, rest)) : Spells (b :: tail) r := by
  refine ⟨⟨b, tail, rfl, hspace, hclose⟩, fun fuel rest hfuel hrest => ?_⟩
  cases fuel with
  | zero => cases hfuel
  | succ fuel => exact h fuel rest (Nat.le_of_succ_le_succ hfuel) hrest

theorem spells_null : Spells (encode .null) .null := by
  refine spells_cons rfl (by decide) fun fuel rest _ _ => ?_
  rw [value?, skipSpace_cons rfl]
  rfl

theorem spells_bool (b : Bool) : Spells (encode (.bool b)) (.bool b) := by
  cases b with
  | false =>
    refine spells_cons rfl (by decide) fun fuel rest _ _ => ?_
    rw [value?, skipSpace_cons rfl]
    rfl
  | true =>
    refine spells_cons rfl (by decide) fun fuel rest _ _ => ?_
    rw [value?, skipSpace_cons rfl]
    rfl

theorem spells_text (s : String) : Spells (encodeText s) (.string (escaped s)) := by
  change Spells (0x22 :: (escaped s ++ [0x22])) _
  refine spells_cons rfl (by decide) fun fuel rest _ _ => ?_
  rw [value?, List.append_assoc, List.singleton_append, skipSpace_cons rfl]
  simp only [stringBody_text]
  rfl

theorem spells_string (s : String) : Spells (encode (.string s)) (.string (escaped s)) := by
  rw [encode]
  exact spells_text s

theorem isSpace_of_isDigit {b : UInt8} (h : isDigit b = true) : isSpace b = false := by
  rw [Bool.eq_false_iff]
  intro hspace
  simp only [isSpace, Bool.or_eq_true, beq_iff_eq] at hspace
  rcases hspace with ((rfl | rfl) | rfl) | rfl <;> cases h

theorem spells_number {bytes : List UInt8} {n : Numeral} (h : WritesNumeral bytes n) :
    Spells bytes (.number n) := by
  obtain ⟨⟨b, tail, rfl, hb⟩, hreads⟩ := h
  have hne : ∀ c, c ≠ 0x2D → isDigit c = false → b ≠ c := by
    rintro c hminus hdigit rfl
    rcases hb with hb | hb
    · exact hminus hb
    · exact absurd hb (by simp [hdigit])
  have hspace : isSpace b = false := by
    rcases hb with rfl | hb
    · rfl
    · exact isSpace_of_isDigit hb
  refine spells_cons hspace (hne _ (by decide) rfl) fun fuel rest _ hrest => ?_
  rw [value?, skipSpace_cons hspace]
  simp only
  rw [if_neg (hne _ (by decide) rfl), if_neg (hne _ (by decide) rfl), if_neg (hne _ (by decide) rfl),
    if_pos hb, ← List.cons_append, hreads rest hrest]
  rfl

theorem exists_separated {piece : List UInt8} {b : UInt8} (h : ∃ tail, piece = b :: tail)
    (pieces : List (List UInt8)) : ∃ tail, separated (piece :: pieces) = b :: tail := by
  obtain ⟨tail, rfl⟩ := h
  cases pieces with
  | nil => exact ⟨_, rfl⟩
  | cons next pieces => exact ⟨_, rfl⟩

theorem value?_bracket {b : UInt8} (hspace : isSpace b = false) (hclose : b ≠ 0x5D) (fuel : Nat)
    (tail : List UInt8) : value? (fuel + 1) (0x5B :: b :: tail) =
      (items? fuel (b :: tail)).map fun (rs, r) => (.array rs, r) := by
  rw [value?, skipSpace_cons rfl]
  simp [skipSpace_cons hspace, hclose]

theorem value?_brace {b : UInt8} (hspace : isSpace b = false) (hclose : b ≠ 0x7D) (fuel : Nat)
    (tail : List UInt8) : value? (fuel + 1) (0x7B :: b :: tail) =
      (members? fuel (b :: tail)).map fun (ms, r) => (.object ms, r) := by
  rw [value?, skipSpace_cons rfl]
  simp [skipSpace_cons hspace, hclose]

theorem spells_array {pieces : List (List UInt8)} {rs : List Raw} (h : List.Forall₂ Spells pieces rs) :
    Spells (0x5B :: (separated pieces ++ [0x5D])) (.array rs) := by
  refine spells_cons rfl (by decide) fun fuel rest hfuel _ => ?_
  rw [List.length_append, List.length_singleton] at hfuel
  have hitems := fun hne => items?_separated h hne fuel (by omega) rest
  rw [List.append_assoc, List.singleton_append]
  cases h with
  | nil => rfl
  | @cons piece r pieces rs hpiece _ =>
    obtain ⟨b, tail, hhead, hspace, hclose⟩ := hpiece.head
    obtain ⟨tail, hseparated⟩ := exists_separated ⟨tail, hhead⟩ pieces
    have hitems := hitems (List.cons_ne_nil _ _)
    rw [hseparated, List.cons_append] at hitems ⊢
    rw [value?_bracket hspace hclose, hitems]
    rfl

theorem spells_object {pieces : List (List UInt8)} {ms : List (List UInt8 × Raw)}
    (h : List.Forall₂ SpellsMember pieces ms) :
    Spells (0x7B :: (separated pieces ++ [0x7D])) (.object ms) := by
  refine spells_cons rfl (by decide) fun fuel rest hfuel _ => ?_
  rw [List.length_append, List.length_singleton] at hfuel
  have hmembers := fun hne => members?_separated h hne fuel (by omega) rest
  rw [List.append_assoc, List.singleton_append]
  cases h with
  | nil => rfl
  | @cons piece m pieces ms hpiece _ =>
    obtain ⟨bytes, hhead, -⟩ := hpiece.split
    obtain ⟨tail, hseparated⟩ := exists_separated ⟨_, hhead⟩ pieces
    have hmembers := hmembers (List.cons_ne_nil _ _)
    rw [hseparated, List.cons_append] at hmembers ⊢
    rw [value?_brace rfl (by decide), hmembers]
    rfl

theorem spellsMember_encode (key : String) {bytes : List UInt8} {r : Raw} (h : Spells bytes r) :
    SpellsMember (encodeText key ++ 0x3A :: bytes) (escaped key, r) := by
  refine ⟨⟨bytes, ?_, h⟩, stringBody_text key⟩
  rw [encodeText, List.append_assoc, List.cons_append]
  rfl

theorem spells_encode_array {items : List Value} {rs : List Raw}
    (h : List.Forall₂ (fun v r => Spells v.encode r) items rs) :
    Spells (Value.array items).encode (.array rs) := by
  rw [encode, encodeItems_eq]
  exact spells_array (List.forall₂_map_left_iff.2 h)

/-- Whether a member of an object is the one that is written for a field. -/
structure WrittenMember (f : String × Value) (m : List UInt8 × Raw) : Prop where
  key_eq : m.1 = escaped f.1
  spells : Spells f.2.encode m.2

theorem WrittenMember.bodyText_key {f : String × Value} {m : List UInt8 × Raw} (h : WrittenMember f m) :
    bodyText m.1 = .ok f.1 := by
  rw [h.key_eq, bodyText_escaped]

/-- The members that are written for fields are read under the names of the fields. -/
theorem members_of_written {fields : List (String × Value)} {ms : List (List UInt8 × Raw)}
    (h : List.Forall₂ WrittenMember fields ms) :
    (Raw.object ms).members = .ok (List.zipWith (fun f m => (f.1, m.2)) fields ms) := by
  refine members_eq_ok.2 ⟨ms, rfl, ?_⟩
  induction h with
  | nil => exact .nil
  | cons hm _ ih => exact .cons ⟨hm.bodyText_key, rfl⟩ ih

theorem fields_of_written {names : List String} {fields : List (String × Value)}
    {ms : List (List UInt8 × Raw)} {found : Fields} (h : List.Forall₂ WrittenMember fields ms)
    (hfound : Fields.ofMembers names (List.zipWith (fun f m => (f.1, m.2)) fields ms) = .ok found) :
    Fields.ofRaw names (.object ms) = .ok found :=
  bind_eq_ok.2 ⟨_, members_of_written h, hfound⟩

theorem spells_encode_object {fields : List (String × Value)} {ms : List (List UInt8 × Raw)}
    (h : List.Forall₂ WrittenMember fields ms) : Spells (Value.object fields).encode (.object ms) := by
  rw [encode, encodeFields_eq]
  refine spells_object (List.forall₂_map_left_iff.2 (h.imp fun f m hm => ?_))
  obtain ⟨key, r⟩ := m
  obtain rfl := hm.key_eq
  exact spellsMember_encode f.1 hm.spells

/-- The document that bytes spell is the one that they are parsed as. -/
theorem Spells.parse {bytes : List UInt8} {r : Raw} (h : Spells bytes r) : Raw.parse bytes = .ok r := by
  have hread := h.reads (2 * bytes.length + 2) [] (by omega) closed_nil
  rw [List.append_nil] at hread
  rw [Raw.parse, hread]
  rfl

/-! ### What is written is a text -/

theorem isText_separated {pieces : List (List UInt8)} (h : ∀ piece ∈ pieces, IsText piece) :
    IsText (separated pieces) := by
  induction pieces with
  | nil => exact isText_ascii (by simp [separated])
  | cons piece pieces ih =>
    obtain ⟨hpiece, hpieces⟩ := List.forall_mem_cons.1 h
    cases pieces with
    | nil => exact hpiece
    | cons next pieces =>
      have hcomma : IsText [0x2C] := isText_singleton (by decide)
      have hrest := (hpiece.append hcomma).append (ih hpieces)
      rwa [List.append_assoc] at hrest

theorem isText_enclosed {front back : UInt8} {bytes : List UInt8} (hfront : front.toNat < 128)
    (hback : back.toNat < 128) (h : IsText bytes) : IsText (front :: (bytes ++ [back])) := by
  have hopen : IsText [front] := isText_singleton hfront
  exact hopen.append (h.append (isText_singleton hback))

/-- By induction on the value. -/
theorem isText_encode (v : Value) : IsText v.encode := by
  cases v with
  | null => exact isText_ascii (by decide +kernel)
  | bool b => cases b <;> exact isText_ascii (by decide +kernel)
  | number n =>
    rw [encode]
    exact ⟨n.text, rfl⟩
  | string s =>
    rw [encode]
    exact isText_encodeText s
  | array items =>
    rw [encode, encodeItems_eq]
    refine isText_enclosed (by decide) (by decide) (isText_separated fun piece hpiece => ?_)
    obtain ⟨v, hv, rfl⟩ := List.mem_map.1 hpiece
    exact isText_encode v
  | object fields =>
    rw [encode, encodeFields_eq]
    refine isText_enclosed (by decide) (by decide) (isText_separated fun piece hpiece => ?_)
    obtain ⟨f, hf, rfl⟩ := List.mem_map.1 hpiece
    have hcolon : IsText [0x3A] := isText_singleton (by decide)
    exact (isText_encodeText f.1).append (hcolon.append (isText_encode f.2))
termination_by sizeOf v
decreasing_by
  · have := List.sizeOf_lt_of_mem hv
    simp
    omega
  · have := List.sizeOf_lt_of_mem hf
    obtain ⟨k, v⟩ := f
    simp at this ⊢
    omega

/-- What is written for a value is a text that is read as a document spelled by it. -/
theorem Spells.exists_text {v : Value} {r : Raw} (h : Spells v.encode r) :
    ∃ text : String, text.toUTF8.toList = v.encode ∧ Raw.ofText text = .ok r := by
  obtain ⟨text, htext⟩ := isText_encode v
  refine ⟨text, htext, ?_⟩
  rw [Raw.ofText, htext, h.parse]

/-! ### Round trip -/

theorem exists_forall₂ {α β : Type} {R : α → β → Prop} {l : List α} (h : ∀ x ∈ l, ∃ y, R x y) :
    ∃ l', List.Forall₂ R l l' := by
  induction l with
  | nil => exact ⟨[], .nil⟩
  | cons x l ih =>
    obtain ⟨y, hy⟩ := h x List.mem_cons_self
    obtain ⟨l', hl'⟩ := ih fun x hx => h x (.tail _ hx)
    exact ⟨y :: l', .cons hy hl'⟩

/-- What is written for a value is one document, and the document stands for the value. -/
theorem Value.Fits.exists_document {v : Value} (h : v.Fits depth) :
    ∃ r, Spells v.encode r ∧ ofRaw depth r = .ok v := by
  induction h with
  | null depth => exact ⟨.null, spells_null, by rw [ofRaw]⟩
  | bool depth b => exact ⟨.bool b, spells_bool b, by rw [ofRaw]⟩
  | number depth h =>
    obtain ⟨n, hwrites, hnumber⟩ := h.exists_numeral
    refine ⟨.number n, ?_, ?_⟩
    · rw [encode]
      exact spells_number hwrites
    · rw [ofRaw, hnumber]
      rfl
  | string depth text =>
    refine ⟨.string (escaped text), spells_string text, ?_⟩
    rw [ofRaw, bodyText_escaped]
    rfl
  | @array depth items _ ih =>
    obtain ⟨rs, hrs⟩ := exists_forall₂ ih
    refine ⟨.array rs, spells_encode_array (hrs.imp fun _ _ h => h.1), ?_⟩
    · have hitems : ofItems depth rs = .ok items :=
        ofItems_eq_ok.2 (hrs.flip.imp fun _ _ h => h.2)
      rw [ofRaw, hitems]
      rfl
  | @object depth fields _ ih =>
    have hfields : ∀ f ∈ fields.entries, ∃ m : List UInt8 × Raw,
        WrittenMember f m ∧ ofRaw depth m.2 = .ok f.2 := by
      intro f hf
      obtain ⟨r, hspells, hvalue⟩ := ih f hf
      exact ⟨(_, r), ⟨rfl, hspells⟩, hvalue⟩
    obtain ⟨ms, hms⟩ := exists_forall₂ hfields
    refine ⟨.object ms, spells_encode_object (hms.imp fun _ _ h => h.1), ?_⟩
    · have hmembers : Value.ofMembers depth ms = .ok fields.entries :=
        ofMembers_eq_ok.2 (hms.flip.imp fun _ _ h => ⟨h.1.bodyText_key, h.2⟩)
      rw [ofRaw, hmembers]
      exact congrArg (fun d : Dict Value => Except.ok (Value.object d.entries)) (Dict.ofList_entries fields)

/-- What is written for a value that is not nested too deeply is read back as the value. -/
theorem Value.Fits.parse_encode {v : Value} (h : v.Fits depthLimit) : Value.parse v.encode = .ok v := by
  obtain ⟨r, hspells, hvalue⟩ := h.exists_document
  rw [Value.parse, hspells.parse]
  exact hvalue

end Groundwork.Json
