import Groundwork.Partition.Table
import Groundwork.Proofs.Text

/-! What the partitioning tool says of an entry. The listing has a line for each detail, and the entry is
read from those lines, whatever stands on the others. -/
namespace Groundwork

/-! ### Identifiers as the tool writes them -/

namespace Guid

/-- The digits of an identifier, in upper case. -/
def spelled (g : Guid) : List Char := g.digits.map fun d => (hexChar d).toUpper

def inGroups (cs : List Char) : List Char :=
  cs.take 8 ++ '-' :: ((cs.drop 8).take 4 ++ '-' :: ((cs.drop 12).take 4 ++
    '-' :: ((cs.drop 16).take 4 ++ '-' :: (cs.drop 20).take 12)))

theorem toList_upperAscii_text (g : Guid) :
    (Text.upperAscii g.text).toList = inGroups g.spelled := by
  simp [Text.upperAscii, text, spelled, inGroups, List.map_take, List.map_drop,
    Function.comp_def]

theorem mem_of_mem_inGroups {c : Char} {cs : List Char} (h : c ∈ inGroups cs) : c = '-' ∨ c ∈ cs := by
  simp only [inGroups, List.mem_append, List.mem_cons] at h
  rcases h with h | h | h | h | h | h | h | h | h
  all_goals first | exact .inl h | exact .inr (List.mem_of_mem_drop (List.mem_of_mem_take h)) |
    exact .inr (List.mem_of_mem_take h)

/-- Digits and hyphens are all that an identifier is written with. -/
theorem mem_upperAscii_text {g : Guid} {c : Char} (h : c ∈ (Text.upperAscii g.text).toList) :
    c ∈ "-0123456789ABCDEF".toList := by
  have hdigit : ∀ d : Fin 16, (hexChar d).toUpper ∈ "-0123456789ABCDEF".toList := by decide
  rw [toList_upperAscii_text] at h
  rcases mem_of_mem_inGroups h with rfl | h
  · decide
  · obtain ⟨d, -, rfl⟩ := List.mem_map.1 h
    exact hdigit d

theorem hexDigit?_toUpper_hexChar (d : Fin 16) : hexDigit? (hexChar d).toUpper = some d := by
  revert d
  decide

theorem mapM_spelled (digits : List (Fin 16)) :
    (digits.map fun d => (hexChar d).toUpper).mapM hexDigit? = some digits := by
  induction digits with
  | nil => rfl
  | cons d digits ih => simp [List.mapM_cons, hexDigit?_toUpper_hexChar, ih]

theorem ofHyphenated?_inGroups (g : Guid) : ofHyphenated? (inGroups g.spelled) = some g := by
  have hlen : g.spelled.length = 32 := by rw [spelled, List.length_map, g.length_eq]
  have hyphen {cs : List Char} (h : cs ⊆ g.spelled) : '-' ∉ cs := by
    intro hmem
    obtain ⟨d, -, hd⟩ := List.mem_map.1 (h hmem)
    revert d
    decide
  have hpart (i n : Nat) : (g.spelled.drop i).take n ⊆ g.spelled :=
    fun _ h => List.mem_of_mem_drop (List.mem_of_mem_take h)
  have hall : g.spelled.take 8 ++ (g.spelled.drop 8).take 4 ++ (g.spelled.drop 12).take 4 ++
      (g.spelled.drop 16).take 4 ++ (g.spelled.drop 20).take 12 = g.spelled := by
    rw [← List.take_add, ← List.take_add, ← List.take_add, ← List.take_add]
    exact List.take_of_length_le (by omega)
  have hdigits : ofDigits? g.spelled = some g := by
    rw [ofDigits?, spelled, mapM_spelled]
    exact dif_pos g.length_eq
  rw [ofHyphenated?, inGroups, Text.split_append_cons, Text.split_append_cons,
    Text.split_append_cons, Text.split_append_cons, Text.split_of_not_mem (hyphen (hpart 8 4)),
    Text.split_of_not_mem (hyphen (hpart 12 4)), Text.split_of_not_mem (hyphen (hpart 16 4)),
    Text.split_of_not_mem (hyphen (hpart 20 12)),
    Text.split_of_not_mem (hyphen (List.take_subset 8 g.spelled))]
  dsimp only [List.singleton_append]
  rw [hall, if_pos (by simp [hlen]), hdigits]

/-- An identifier in upper case is read as it is. -/
theorem parse?_upperAscii_text (g : Guid) : parse? (Text.upperAscii g.text) = some g := by
  have hmem {c : Char} (h : c ∈ (Text.upperAscii g.text).toList) := mem_upperAscii_text h
  have hscheme (opening : List Char) (hu : 'U' ∈ opening ∨ 'u' ∈ opening) :
      Text.after? opening (Text.upperAscii g.text).toList = none := by
    cases hafter : Text.after? opening (Text.upperAscii g.text).toList with
    | none => rfl
    | some rest =>
      have hcs := Text.after?_eq_some_iff.1 hafter
      rcases hu with hu | hu
      · exact absurd (hmem (hcs ▸ List.mem_append_left rest hu)) (by decide)
      · exact absurd (hmem (hcs ▸ List.mem_append_left rest hu)) (by decide)
  have hdigits : ofDigits? (inGroups g.spelled) = none := by
    have hfails : (inGroups g.spelled).mapM hexDigit? = none := by
      simp [inGroups, List.mapM_append, List.mapM_cons, hexDigit?]
    rw [ofDigits?, hfails]
  unfold parse?
  dsimp only
  split
  · next rest hbrace => exact absurd (hmem (hbrace ▸ List.mem_cons_self)) (by decide)
  · rw [hscheme _ (.inr (by decide)), hscheme _ (.inl (by decide)), toList_upperAscii_text,
      ofHyphenated?_inGroups, hdigits]
    rfl

end Guid

namespace PartitionTable

variable {lines : List String} {index : Nat} {cs : List Char}

/-! ### Lines and fields -/

theorem field?_ofList (cs : List Char) (label : String) : field? (String.ofList cs) label =
    ((Text.lineChars cs).findSome? fun line =>
      Text.after? label.toList (Text.trimChars line)).map Text.trimChars := by
  rw [field?, Text.lines, String.toList_ofList, List.findSome?_map]
  simp only [Function.comp_def, String.toList_ofList]

/-- A field is looked for line by line. -/
theorem field?_intercalate {label : String} (hlabel : label ≠ "")
    (hlines : ∀ line ∈ lines, '\n' ∉ line.toList) :
    field? (String.intercalate "\n" lines) label = (lines.findSome? fun line =>
      Text.after? label.toList (Text.trimChars line.toList)).map Text.trimChars := by
  have hempty : Text.after? label.toList (Text.trimChars []) = none := by
    cases hafter : Text.after? label.toList (Text.trimChars []) with
    | none => rfl
    | some rest =>
      have hnil : label.toList ++ rest = [] := (Text.after?_eq_some_iff.1 hafter).symm
      exact absurd (String.toList_eq_nil_iff.1 (List.append_eq_nil_iff.1 hnil).1) hlabel
  rw [← String.ofList_toList (s := String.intercalate "\n" lines), field?_ofList,
    Text.findSome?_lineChars (f := fun line => Text.after? label.toList (Text.trimChars line)) hempty
      (fun line => by rw [Text.trimChars_dropReturn]), String.toList_intercalate]
  by_cases hne : lines = []
  · subst hne
    simp [Text.split, hempty]
  · have hsplit : Text.split '\n' ("\n".toList.intercalate (lines.map String.toList)) =
        lines.map String.toList :=
      Text.split_intercalate (by simpa using hne) (by simpa using hlines)
    rw [hsplit, List.findSome?_map]
    rfl

/-- The entry of a listing that has all of the fields. -/
theorem entryOf_of_fields {listing : String} {typeName unique name size : List Char} {guid : Guid}
    (htype : (field? listing "Partition GUID code:").bind parenthesized? = some typeName)
    (hunique : field? listing "Partition unique GUID:" = some unique)
    (hguid : Guid.parse? (String.ofList unique) = some guid)
    (hname : field? listing "Partition name:" = some name)
    (hsize : (field? listing "Partition size:").bind parenthesized? = some size) :
    entryOf index listing = .ok {
      index, guid
      typeName := String.ofList typeName
      name := String.ofList (dropQuotes name)
      size := String.ofList (size.filter fun c => !Text.isBlank c) } := by
  unfold entryOf
  rw [htype, hunique, hname, hsize]
  simp only [bind, Except.bind, hguid]
  rfl

/-- What stands in parentheses may hold parentheses itself. -/
theorem parenthesized?_eq {front inner : List Char} (h : '(' ∉ front) :
    parenthesized? (front ++ '(' :: (inner ++ [')'])) = some inner := by
  have hopen : Text.cutFirst '(' (front ++ '(' :: (inner ++ [')'])) = some (front, inner ++ [')']) :=
    Text.cutFirst_eq_some_iff.2 ⟨rfl, h⟩
  have hclose : Text.cutLast ')' (inner ++ [')']) = some (inner, []) :=
    Text.cutLast_eq_some_iff.2 ⟨rfl, by simp⟩
  rw [parenthesized?, hopen]
  simp only [Option.bind_eq_bind, Option.bind_some, hclose]

/-- With the quotes around a name go those that it begins or ends with. -/
theorem dropQuotes_quoted (name : List Char) :
    dropQuotes ('\'' :: (name ++ ['\''])) = dropQuotes name := by
  have hquote : ∀ c ∈ ['\''], decide (c = '\'') = true := List.forall_mem_singleton.2 rfl
  exact Text.trimmed_padded (p := fun c => c = '\'') hquote hquote

theorem dropQuotes_eq_self_iff (name : List Char) :
    dropQuotes name = name ↔ name.head? ≠ some '\'' ∧ name.getLast? ≠ some '\'' := by
  have hself : dropQuotes name = name ↔ _ := Text.trimmed_eq_self_iff (p := fun c => c = '\'')
  rw [hself]
  refine and_congr ?_ ?_
  · cases name.head? <;> simp
  · cases name.getLast? <;> simp

/-! ### Details of an entry -/

/-- What the tool says of an entry, each on a line of its own. -/
inductive Field
  | type
  | unique
  | size
  | name
  deriving DecidableEq

def Field.label : Field → String
  | type => "Partition GUID code:"
  | unique => "Partition unique GUID:"
  | size => "Partition size:"
  | name => "Partition name:"

/-- No line begins with two labels. -/
theorem Field.eq_of_prefix {f f' : Field} (h : f.label.toList <+: cs)
    (h' : f'.label.toList <+: cs) : f = f' := by
  rcases List.prefix_or_prefix_of_prefix h h' with hlabels | hlabels
  · revert hlabels
    cases f <;> cases f' <;> decide
  · revert hlabels
    cases f <;> cases f' <;> decide

theorem Field.trimChars_label (f : Field) : Text.trimChars f.label.toList = f.label.toList := by
  cases f <;> decide

/-- An entry as it stands in a table. -/
structure Details where
  /-- The identifier of the type. -/
  code : Guid
  typeName : String
  guid : Guid
  sectors : Nat
  /-- With its unit, for instance `100.0 MiB`. -/
  size : String
  name : String

namespace Details

variable {d : Details} {f : Field}

/-- What stands behind the label of a field. -/
def value (d : Details) : Field → String
  | .type => s!" {Text.upperAscii d.code.text} ({d.typeName})"
  | .unique => s!" {Text.upperAscii d.guid.text}"
  | .size => s!" {d.sectors} sectors ({d.size})"
  | .name => s!" '{d.name}'"

/-- Whether a line shows a field, with blanks around it. -/
def Shows (d : Details) (f : Field) (line : String) : Prop :=
  ∃ front back : List Char, (∀ c ∈ front, Text.isBlank c = true) ∧
    (∀ c ∈ back, Text.isBlank c = true) ∧
    line.toList = front ++ (f.label.toList ++ (d.value f).toList) ++ back

/-- Whether lines are a listing of an entry: every field is shown, and what else there is begins with
none of the labels. -/
structure Lists (d : Details) (lines : List String) : Prop where
  unbroken : ∀ line ∈ lines, '\n' ∉ line.toList
  complete : ∀ f, ∃ line ∈ lines, d.Shows f line
  alone : ∀ line ∈ lines, (∃ f, d.Shows f line) ∨
    ∀ f : Field, ¬ f.label.toList <+: Text.trimChars line.toList

theorem Shows.trimChars {line : String} (h : d.Shows f line) : Text.trimChars line.toList =
    f.label.toList ++ Text.trimRight (d.value f).toList := by
  obtain ⟨front, back, hfront, hback, hline⟩ := h
  rw [hline, Text.trimChars_padded hfront hback,
    Text.trimChars_append (by cases f <;> decide) f.trimChars_label]

/-- Every field is found. -/
theorem Lists.field? (h : d.Lists lines) (f : Field) :
    field? (String.intercalate "\n" lines) f.label = some (Text.trimChars (d.value f).toList) := by
  have hshown {line : String} (hline : d.Shows f line) :
      Text.after? f.label.toList (Text.trimChars line.toList) =
        some (Text.trimRight (d.value f).toList) :=
    Text.after?_eq_some_iff.2 hline.trimChars
  have hfound : (lines.findSome? fun line =>
      Text.after? f.label.toList (Text.trimChars line.toList)) =
        some (Text.trimRight (d.value f).toList) := by
    cases hsome : lines.findSome? fun line =>
        Text.after? f.label.toList (Text.trimChars line.toList) with
    | none =>
      obtain ⟨line, hmem, hline⟩ := h.complete f
      have hnone := List.findSome?_eq_none_iff.1 hsome line hmem
      rw [hshown hline] at hnone
      cases hnone
    | some rest =>
      obtain ⟨line, hmem, hafter⟩ := List.exists_of_findSome?_eq_some hsome
      have hlabel : f.label.toList <+: Text.trimChars line.toList :=
        ⟨rest, (Text.after?_eq_some_iff.1 hafter).symm⟩
      rcases h.alone line hmem with ⟨f', hline⟩ | hother
      · have hsame : f = f' := Field.eq_of_prefix hlabel ⟨_, hline.trimChars.symm⟩
        subst hsame
        rw [← hafter, hshown hline]
      · exact absurd hlabel (hother f)
  rw [field?_intercalate (by cases f <;> decide) h.unbroken, hfound, Option.map_some,
    Text.trimChars_trimRight]

/-- The entry with these details. Its size is written without the blank before the unit. -/
def entry (d : Details) (index : Nat) : Partition where
  index
  typeName := d.typeName
  guid := d.guid
  name := d.name
  size := String.ofList (d.size.toList.filter fun c => !Text.isBlank c)

theorem toList_value_type (d : Details) : (d.value .type).toList =
    (' ' :: ((Text.upperAscii d.code.text).toList ++ [' '])) ++ '(' :: (d.typeName.toList ++ [')']) := by
  simp [value, toString]

theorem toList_value_unique (d : Details) : (d.value .unique).toList =
    [' '] ++ (Text.upperAscii d.guid.text).toList := by
  simp [value, toString]

theorem toList_value_size (d : Details) : (d.value .size).toList =
    (' ' :: (d.sectors.repr.toList ++ " sectors ".toList)) ++ '(' :: (d.size.toList ++ [')']) := by
  simp [value, toString]

theorem toList_value_name (d : Details) : (d.value .name).toList =
    [' '] ++ '\'' :: (d.name.toList ++ ['\'']) := by
  simp [value, toString]

theorem parenthesized?_trimChars {front inner : List Char} (hfront : '(' ∉ front) :
    parenthesized? (Text.trimChars (front ++ '(' :: (inner ++ [')']))) = some inner := by
  rw [Text.trimChars_append_solid (by simp) (Text.trimChars_enclosed rfl rfl inner)]
  exact parenthesized?_eq fun hmem => hfront ((List.dropWhile_suffix _).subset hmem)

/-- All details are read from a listing, but for the quotes at the ends of the name. -/
theorem Lists.entryOf (h : d.Lists lines) (index : Nat) :
    entryOf index (String.intercalate "\n" lines) =
      .ok { d.entry index with name := String.ofList (dropQuotes d.name.toList) } := by
  have htype : (PartitionTable.field? (String.intercalate "\n" lines) "Partition GUID code:").bind
      parenthesized? = some d.typeName.toList := by
    refine (congrArg (·.bind parenthesized?) (h.field? .type)).trans ?_
    rw [Option.bind_some, toList_value_type]
    refine parenthesized?_trimChars ?_
    intro hmem
    simp only [List.mem_cons, List.mem_append, List.not_mem_nil, or_false] at hmem
    rcases hmem with hmem | hmem | hmem
    · exact absurd hmem (by decide)
    · exact absurd (Guid.mem_upperAscii_text hmem) (by decide)
    · exact absurd hmem (by decide)
  have hunique : Text.trimChars (d.value .unique).toList = (Text.upperAscii d.guid.text).toList := by
    have hblank : ("-0123456789ABCDEF".toList.all fun c => !Text.isBlank c) = true := by decide
    rw [toList_value_unique, ← List.append_nil ([' '] ++ _),
      Text.trimChars_padded (List.forall_mem_singleton.2 rfl) (by simp)]
    exact Text.trimChars_of_no_blank fun c hc =>
      List.all_eq_true.1 hblank c (Guid.mem_upperAscii_text hc)
  have hname : Text.trimChars (d.value .name).toList = '\'' :: (d.name.toList ++ ['\'']) := by
    rw [toList_value_name, Text.trimChars_append_solid (by simp) (Text.trimChars_enclosed rfl rfl _)]
    rfl
  have hsize : (PartitionTable.field? (String.intercalate "\n" lines) "Partition size:").bind
      parenthesized? = some d.size.toList := by
    refine (congrArg (·.bind parenthesized?) (h.field? .size)).trans ?_
    rw [Option.bind_some, toList_value_size]
    refine parenthesized?_trimChars ?_
    intro hmem
    simp only [List.mem_cons, List.mem_append, Nat.toList_repr] at hmem
    rcases hmem with hmem | hmem | hmem
    · exact absurd hmem (by decide)
    · exact absurd (Nat.isDigit_of_mem_toDigits (by decide) (by decide) hmem) (by decide)
    · exact absurd hmem (by decide)
  have hguid : Guid.parse? (String.ofList (Text.trimChars (d.value .unique).toList)) = some d.guid := by
    rw [hunique, String.ofList_toList, Guid.parse?_upperAscii_text]
  rw [entryOf_of_fields htype (h.field? .unique) hguid (h.field? .name) hsize, hname, dropQuotes_quoted,
    String.ofList_toList]
  rfl

/-! ### A listing of any entry -/

def line (d : Details) (f : Field) : String := f.label ++ d.value f

/-- The lines of a listing, with some that say nothing of the entry's identity. -/
def listing (d : Details) : List String :=
  [d.line .type, d.line .unique, "First sector: 2048 (at 1024.0 KiB)", "\t" ++ d.line .size ++ "\r",
    "Attribute flags: 0000000000000000", d.line .name, ""]

theorem shows_padded {front back : String} (hfront : ∀ c ∈ front.toList, Text.isBlank c = true)
    (hback : ∀ c ∈ back.toList, Text.isBlank c = true) : d.Shows f (front ++ d.line f ++ back) :=
  ⟨front.toList, back.toList, hfront, hback, by simp [line]⟩

theorem shows_line (d : Details) (f : Field) : d.Shows f (d.line f) :=
  ⟨[], [], by simp, by simp, by simp [line]⟩

theorem unbroken_line (htype : '\n' ∉ d.typeName.toList) (hsize : '\n' ∉ d.size.toList)
    (hname : '\n' ∉ d.name.toList) (f : Field) : '\n' ∉ (d.line f).toList := by
  have hguid (g : Guid) : '\n' ∉ (Text.upperAscii g.text).toList := fun hmem =>
    absurd (Guid.mem_upperAscii_text hmem) (by decide)
  have hsectors : '\n' ∉ d.sectors.repr.toList := by
    rw [Nat.toList_repr]
    exact fun hmem => absurd (Nat.isDigit_of_mem_toDigits (by decide) (by decide) hmem) (by decide)
  rw [line, String.toList_append, List.mem_append, not_or]
  refine ⟨by cases f <;> decide, ?_⟩
  cases f with
  | type => simp [toList_value_type, hguid, htype]
  | unique => simp [toList_value_unique, hguid]
  | size => simpa [toList_value_size, hsize] using hsectors
  | name => simp [toList_value_name, hname]

/-- Every entry without line feeds has a listing. -/
theorem lists_listing (htype : '\n' ∉ d.typeName.toList) (hsize : '\n' ∉ d.size.toList)
    (hname : '\n' ∉ d.name.toList) : d.Lists d.listing := by
  have hpadded : d.Shows .size ("\t" ++ d.line .size ++ "\r") :=
    shows_padded (List.forall_mem_singleton.2 rfl) (List.forall_mem_singleton.2 rfl)
  have hline := unbroken_line htype hsize hname
  refine ⟨by simp [listing, hline], ?_, ?_⟩
  · intro f
    cases f with
    | type => exact ⟨_, by simp [listing], shows_line d .type⟩
    | unique => exact ⟨_, by simp [listing], shows_line d .unique⟩
    | size => exact ⟨_, by simp [listing], hpadded⟩
    | name => exact ⟨_, by simp [listing], shows_line d .name⟩
  · intro line hmem
    simp only [listing, List.mem_cons, List.not_mem_nil, or_false] at hmem
    rcases hmem with rfl | rfl | rfl | rfl | rfl | rfl | rfl
    · exact .inl ⟨.type, shows_line d .type⟩
    · exact .inl ⟨.unique, shows_line d .unique⟩
    · exact .inr (by intro f; cases f <;> decide)
    · exact .inl ⟨.size, hpadded⟩
    · exact .inr (by intro f; cases f <;> decide)
    · exact .inl ⟨.name, shows_line d .name⟩
    · exact .inr (by intro f; cases f <;> decide)

end Details

end PartitionTable

end Groundwork
