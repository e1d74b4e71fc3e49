import Groundwork.Yaml.Scalar
/-!
The tokens of a YAML stream. Indentation becomes tokens that open and close blocks, and a key that
shows itself only by its colon gets a token in front of it afterwards.
-/
namespace Groundwork.Yaml

inductive Token
  | streamEnd
  | version (major minor : Nat)
  | tagHandle (handle lead : String)
  | documentStart
  | documentEnd
  | blockSequence
  | blockMapping
  | blockEnd
  | flowSequence
  | flowSequenceEnd
  | flowMapping
  | flowMappingEnd
  | blockEntry
  | flowEntry
  | key
  | value
  | alias (name : String)
  | anchor (name : String)
  | tag (handle suffix : String)
  | scalar (text : String) (style : Style)
  deriving DecidableEq, Repr

/-- A place where a key may have begun. -/
structure KeyStart where
  /-- Whether nothing but a key can stand there. -/
  required : Bool
  /-- The number of tokens before it. -/
  before : Nat
  index : Nat
  line : Nat
  column : Nat

structure Scan where
  cursor : Cursor
  tokens : List Token := []
  /-- One possible key for each flow collection that is open, the innermost first, and one for the
  blocks around them. -/
  starts : List (Option KeyStart) := [none]
  /-- Indentations of the open blocks, the innermost first, each as its column plus one. -/
  indents : List Nat := []
  keyAllowed : Bool := true
  finished : Bool := false

namespace Scan

def inFlow (s : Scan) : Bool := 1 < s.starts.length

/-- The indentation of the innermost block plus one; zero outside all blocks. -/
def indent (s : Scan) : Nat := s.indents.headD 0

def put (s : Scan) (t : Token) : Scan := { s with tokens := s.tokens ++ [t] }

/-- Takes a token of so many characters. -/
def take (s : Scan) (n : Nat) (t : Token) : Scan := { s.put t with cursor := s.cursor.skip n }

/-- Passes over blanks, comments and line breaks up to the next token. -/
def toToken : Nat → Scan → Scan
  | 0, s => s
  | fuel + 1, s =>
    let tabs := s.inFlow || !s.keyAllowed
    let c := s.cursor
    let c := if c.index = 0 && c.isAt '\uFEFF' then c.skip 1 else c
    let c := (c.takeWhile fun x => x = ' ' || (tabs && x = '\t')).2
    let c := if c.isAt '#' then c.skipLine else c
    if c.onBreak then
      toToken fuel { s with cursor := c.skipBreak, keyAllowed := s.keyAllowed || !s.inFlow }
    else { s with cursor := c }

/-- The longest a key without an indicator may be. -/
def longestKey : Nat := 1024

/-- Gives up the places where a key can no longer have begun. -/
def forgetStale (s : Scan) : Reading Scan := do
  let starts ← s.starts.mapM fun k =>
    match k with
    | none => .ok none
    | some k =>
      if k.line < s.cursor.line ∨ k.index + longestKey < s.cursor.index then
        if k.required then .error "could not find expected ':'" else .ok none
      else .ok (some k)
  .ok { s with starts }

def removeStart (s : Scan) : Reading Scan :=
  match s.starts with
  | some k :: rest =>
    if k.required then .error "could not find expected ':'"
    else .ok { s with starts := none :: rest }
  | _ => .ok s

def saveStart (s : Scan) : Reading Scan :=
  let c := s.cursor
  if s.keyAllowed then do
    let s ← s.removeStart
    let required := !s.inFlow && s.indent = c.column + 1
    .ok { s with
      starts := some ⟨required, s.tokens.length, c.index, c.line, c.column⟩ :: s.starts.tail }
  else .ok s

/-- Opens a block if the column is deeper than the innermost one. The token goes to the given place
or to the end. -/
def roll (s : Scan) (column : Nat) (place : Option Nat) (t : Token) : Scan :=
  if s.inFlow || column + 1 ≤ s.indent then s
  else
    let tokens := match place with
      | some n => s.tokens.insertIdx n t
      | none => s.tokens ++ [t]
    { s with tokens, indents := (column + 1) :: s.indents }

/-- Closes the blocks that are deeper than a column, which is given plus one. -/
def unroll (s : Scan) (column : Nat) : Scan :=
  if s.inFlow then s
  else
    let closed := (s.indents.takeWhile (column < ·)).length
    { s with
      tokens := s.tokens ++ List.replicate closed .blockEnd
      indents := s.indents.drop closed }

/-! ### Directives, anchors and tags -/

def versionNumber (c : Cursor) : Reading (Nat × Cursor) :=
  let (digits, c) := c.takeWhile Char.isDigit
  if digits.isEmpty then .error "did not find expected version number"
  else if 9 < digits.length then .error "found extremely long version number"
  else .ok (digits.foldl (fun n d => n * 10 + (d.toNat - 48)) 0, c)

def tagHandle (directive : Bool) (c : Cursor) : Reading (List Char × Cursor) :=
  if !c.isAt '!' then .error "did not find expected '!'"
  else
    let (word, c) := (c.skip 1).takeWhile isWordChar
    let handle := '!' :: word
    if c.isAt '!' then .ok (handle ++ ['!'], c.skip 1)
    else if directive && handle ≠ ['!'] then .error "did not find expected '!'"
    else .ok (handle, c)

def isUriChar (brackets : Bool) (c : Char) : Bool :=
  isWordChar c || ";/?:@&=+$.%!~*'()".toList.contains c || (brackets && [',', '[', ']'].contains c)

/-- Bytes written as percent escapes; they have to spell one character. -/
def uriEscape : Nat → List UInt8 → Cursor → Reading (Char × Cursor)
  | 0, _, _ => .error "did not find URI escaped octet"
  | fuel + 1, bytes, c =>
    match c.rest with
    | '%' :: a :: b :: _ =>
      match hexNumber? [a, b] with
      | none => .error "did not find URI escaped octet"
      | some n =>
        let bytes := bytes ++ [n.toUInt8]
        match (String.fromUTF8? bytes.toByteArray).bind (·.toList.head?) with
        | some x => .ok (x, c.skip 3)
        | none => uriEscape fuel bytes (c.skip 3)
    | _ => .error "did not find URI escaped octet"

def uri (brackets : Bool) : Nat → List Char → Cursor → Reading (List Char × Cursor)
  | 0, text, c => .ok (text, c)
  | fuel + 1, text, c =>
    match c.peek with
    | none => .ok (text, c)
    | some x =>
      if !isUriChar brackets x then .ok (text, c)
      else if x = '%' then do
        let (y, c) ← uriEscape 4 [] c
        uri brackets fuel (text ++ [y]) c
      else uri brackets fuel (text ++ [x]) (c.skip 1)

def tagUri (brackets : Bool) (head : List Char) (c : Cursor) : Reading (List Char × Cursor) := do
  let (text, d) ← uri brackets (c.rest.length + 1) [] c
  if head.isEmpty && text.isEmpty then .error "did not find expected tag URI"
  else .ok (head.drop 1 ++ text, d)

def tag (s : Scan) : Reading Scan := do
  let c := s.cursor
  let (handle, suffix, c) ←
    if c.next = some '<' then do
      let (suffix, c) ← tagUri true [] (c.skip 2)
      if c.isAt '>' then .ok ([], suffix, c.skip 1) else .error "did not find the expected '>'"
    else do
      let (handle, c) ← tagHandle false c
      if 1 < handle.length ∧ handle.getLast? = some '!' then
        let (suffix, c) ← tagUri false [] c
        .ok (handle, suffix, c)
      else
        let (suffix, c) ← tagUri false handle c
        if suffix.isEmpty then .ok ([], ['!'], c) else .ok (['!'], suffix, c)
  if endsWord c.peek || (s.inFlow && c.isAt ',') then
    .ok { s.put (.tag (String.ofList handle) (String.ofList suffix)) with cursor := c }
  else .error "did not find expected whitespace or line break"

def anchor (isAlias : Bool) (s : Scan) : Reading Scan :=
  let (name, c) := (s.cursor.skip 1).takeWhile isWordChar
  let ends := endsWord c.peek || c.peek.any fun x => "?:,]\x7d%@\x60".toList.contains x
  if name.isEmpty || !ends then .error "did not find expected alphabetic or numeric character"
  else
    let text := String.ofList name
    .ok { s.put (if isAlias then .alias text else .anchor text) with cursor := c }

def directive (s : Scan) : Reading Scan := do
  let (name, c) := (s.cursor.skip 1).takeWhile isWordChar
  if name.isEmpty then .error "could not find expected directive name"
  else if !endsWord c.peek then .error "found unexpected non-alphabetical character"
  else
    let (t, c) ←
      if name = "YAML".toList then do
        let (major, c) ← versionNumber c.skipBlanks
        if !c.isAt '.' then .error "did not find expected digit or '.' character"
        else
          let (minor, c) ← versionNumber (c.skip 1)
          .ok (Token.version major minor, c)
      else if name = "TAG".toList then do
        let (handle, c) ← tagHandle true c.skipBlanks
        if !c.onBlank then .error "did not find expected whitespace"
        else
          let (lead, c) ← tagUri true [] c.skipBlanks
          if !endsWord c.peek then .error "did not find expected whitespace or line break"
          else .ok (Token.tagHandle (String.ofList handle) (String.ofList lead), c)
      else .error "found unknown directive name"
    let c := c.skipBlanks
    let c := if c.isAt '#' then c.skipLine else c
    if !endsLine c.peek then .error "did not find expected comment or line break"
    else .ok { s.put t with cursor := c.skipBreak }

/-! ### One token after the other -/

/-- The end of all blocks, before a directive or a mark between documents. -/
def closeDocument (s : Scan) : Reading Scan := do
  let s ← (s.unroll 0).removeStart
  .ok { s with keyAllowed := false }

def openFlow (s : Scan) (t : Token) : Reading Scan := do
  let s ← s.saveStart
  .ok ({ s with starts := none :: s.starts, keyAllowed := true }.take 1 t)

def closeFlow (s : Scan) (t : Token) : Reading Scan := do
  let s ← s.removeStart
  let starts := if s.inFlow then s.starts.tail else s.starts
  .ok ({ s with starts, keyAllowed := false }.take 1 t)

def blockEntry (s : Scan) : Reading Scan := do
  if !s.inFlow && !s.keyAllowed then
    .error "block sequence entries are not allowed in this context"
  else
    let s ← (s.roll s.cursor.column none .blockSequence).removeStart
    .ok ({ s with keyAllowed := true }.take 1 .blockEntry)

def explicitKey (s : Scan) : Reading Scan := do
  if !s.inFlow && !s.keyAllowed then .error "mapping keys are not allowed in this context"
  else
    let s ← (s.roll s.cursor.column none .blockMapping).removeStart
    .ok ({ s with keyAllowed := !s.inFlow }.take 1 .key)

def valueMark (s : Scan) : Reading Scan :=
  match s.starts with
  | some k :: rest =>
    let s := { s with
      tokens := s.tokens.insertIdx k.before .key, starts := none :: rest, keyAllowed := false }
    .ok ((s.roll k.column (some k.before) .blockMapping).take 1 .value)
  | _ =>
    if s.inFlow then .ok ({ s with keyAllowed := false }.take 1 .value)
    else if !s.keyAllowed then .error "mapping values are not allowed in this context"
    else
      let s := s.roll s.cursor.column none .blockMapping
      .ok ({ s with keyAllowed := true }.take 1 .value)

def quoted (single : Bool) (s : Scan) : Reading Scan := do
  let s ← s.saveStart
  let (text, c) ← quotedScalar single s.cursor
  let style := if single then Style.singleQuoted else .doubleQuoted
  .ok { s.put (.scalar (String.ofList text) style) with cursor := c, keyAllowed := false }

def block (literal : Bool) (s : Scan) : Reading Scan := do
  let s ← s.removeStart
  let (text, c) ← blockScalar literal s.indent s.cursor
  let style := if literal then Style.literal else .folded
  .ok { s.put (.scalar (String.ofList text) style) with cursor := c, keyAllowed := true }

def plain (s : Scan) : Reading Scan := do
  let s ← s.saveStart
  let (text, broken, c) ← plainScalar s.inFlow s.indent s.cursor
  .ok { s.put (.scalar (String.ofList text) .plain) with cursor := c, keyAllowed := broken }

def startsPlain (s : Scan) (x : Char) : Bool :=
  let c := s.cursor
  !(isBlank x || "-?:,[]\x7b\x7d#&*!|>'\"%@\x60".toList.contains x) ||
    (x = '-' && !(c.next.any isBlank)) ||
    (!s.inFlow && (x = '?' || x = ':') && !endsWord c.next)

/-- Takes the token at the cursor. -/
def step (s : Scan) : Reading Scan := do
  let s ← (s.toToken (s.cursor.rest.length + 1)).forgetStale
  let s := s.unroll (s.cursor.column + 1)
  let c := s.cursor
  match c.peek with
  | none =>
    let s ← s.closeDocument
    .ok { s.put .streamEnd with finished := true }
  | some x =>
    let wordEnds := endsWord c.next
    if c.column = 0 && x = '%' then do (← s.closeDocument).directive
    else if c.onMark ['-', '-', '-'] then do .ok ((← s.closeDocument).take 3 .documentStart)
    else if c.onMark ['.', '.', '.'] then do .ok ((← s.closeDocument).take 3 .documentEnd)
    else if x = '[' then s.openFlow .flowSequence
    else if x = '\x7b' then s.openFlow .flowMapping
    else if x = ']' then s.closeFlow .flowSequenceEnd
    else if x = '\x7d' then s.closeFlow .flowMappingEnd
    else if x = ',' then do
      .ok ({ ← s.removeStart with keyAllowed := true }.take 1 .flowEntry)
    else if x = '-' && wordEnds then s.blockEntry
    else if x = '?' && (s.inFlow || wordEnds) then s.explicitKey
    else if x = ':' && (s.inFlow || wordEnds) then s.valueMark
    else if x = '*' || x = '&' then do
      anchor (x = '*') { ← s.saveStart with keyAllowed := false }
    else if x = '!' then do tag { ← s.saveStart with keyAllowed := false }
    else if x = '|' && !s.inFlow then s.block true
    else if x = '>' && !s.inFlow then s.block false
    else if x = '\'' then s.quoted true
    else if x = '"' then s.quoted false
    else if s.startsPlain x then s.plain
    else .error "found character that cannot start any token"

def steps : Nat → Scan → Reading (List Token)
  | 0, s => .ok s.tokens
  | fuel + 1, s => if s.finished then .ok s.tokens else do steps fuel (← s.step)

end Scan

/-- The tokens of a stream, which ends with the token for its end. -/
def tokens (text : String) : Reading (List Token) :=
  let chars := text.toList
  if chars.all isAllowed then
    Scan.steps (chars.length + 2) { cursor := { rest := chars } }
  else .error "control characters are not allowed"

end Groundwork.Yaml
