import Groundwork.Yaml.Cursor
/-!
The scalars of YAML: plain, quoted, and in blocks. Line breaks inside a scalar are folded to blanks
unless its style keeps them.
-/
namespace Groundwork.Yaml

inductive Style
  | plain
  | singleQuoted
  | doubleQuoted
  | literal
  | folded
  deriving DecidableEq, Repr

/-- Blanks and line breaks that stand between two words of a scalar. -/
structure Gap where
  spaces : List Char := []
  /-- The first line break, then the others. -/
  firstBreak : List Char := []
  laterBreaks : List Char := []
  broken : Bool := false

/-- What a gap becomes: one break is a blank, more of them lose the first. -/
def Gap.text (g : Gap) : List Char :=
  if g.broken then
    if g.firstBreak.head? = some '\n' then
      (if g.laterBreaks.isEmpty then [' '] else g.laterBreaks)
    else g.firstBreak ++ g.laterBreaks
  else g.spaces

/-- Takes blanks and breaks. In a block, tabs may not stand for indentation. -/
def takeGap (indent : Option Nat) : Nat → Gap → Cursor → Reading (Gap × Cursor)
  | 0, g, c => .ok (g, c)
  | fuel + 1, g, c =>
    match c.peek with
    | none => .ok (g, c)
    | some x =>
      if isBlank x then
        if g.broken && x = '\t' && indent.any (c.column < ·) then
          .error "found a tab character that violates indentation"
        else takeGap indent fuel (if g.broken then g else { g with spaces := g.spaces ++ [x] })
          (c.skip 1)
      else if isBreak x then
        let (br, c) := c.takeBreak
        if g.broken then takeGap indent fuel { g with laterBreaks := g.laterBreaks ++ br } c
        else takeGap indent fuel { g with spaces := [], firstBreak := br, broken := true } c
      else .ok (g, c)

/-! ### Plain scalars -/

def isFlowIndicator (c : Char) : Bool := [',', '[', ']', '\x7b', '\x7d'].contains c

/-- The word of a plain scalar that stands here, and what follows it. -/
def plainWord (flow : Bool) : List Char → Reading (List Char)
  | [] => .ok []
  | x :: rest =>
    if isBlank x || isBreak x then .ok []
    else if flow && x = ':' && rest.head?.any (fun y => y = '?' || isFlowIndicator y) then
      .error "found unexpected ':'"
    else if (x = ':' && endsWord rest.head?) || (flow && isFlowIndicator x) then .ok []
    else do .ok (x :: (← plainWord flow rest))

/-- Words with the gaps between them. The flag says whether a line ended after the last word. -/
def plainWords (flow : Bool) (indent : Nat) :
    Nat → List Char → Gap → Cursor → Reading (List Char × Bool × Cursor)
  | 0, text, g, c => .ok (text, g.broken, c)
  | fuel + 1, text, g, c =>
    if c.onDocumentMark || c.isAt '#' then .ok (text, g.broken, c)
    else do
      let word ← plainWord flow c.rest
      let text := if word.isEmpty then text else text ++ g.text ++ word
      let g := if word.isEmpty then g else {}
      let c := c.skip word.length
      if !(c.onBlank || c.onBreak) then .ok (text, g.broken, c)
      else
        let (g, c) ← takeGap (some indent) (c.rest.length + 1) g c
        if !flow && c.column < indent then .ok (text, g.broken, c)
        else plainWords flow indent fuel text g c

def plainScalar (flow : Bool) (indent : Nat) (c : Cursor) : Reading (List Char × Bool × Cursor) :=
  plainWords flow indent (c.rest.length + 1) [] {} c

/-! ### Quoted scalars -/

def hexValue? (c : Char) : Option Nat :=
  if '0' ≤ c && c ≤ '9' then some (c.toNat - 48)
  else if 'a' ≤ c && c ≤ 'f' then some (c.toNat - 87)
  else if 'A' ≤ c && c ≤ 'F' then some (c.toNat - 55)
  else none

def hexNumber? (cs : List Char) : Option Nat :=
  cs.foldlM (fun n c => (hexValue? c).map (n * 16 + ·)) 0

/-- What a single character after a backslash stands for. -/
def escapes : List (Char × Nat) :=
  [('0', 0), ('a', 7), ('b', 8), ('t', 9), ('\t', 9), ('n', 10), ('v', 11), ('f', 12), ('r', 13),
   ('e', 27), (' ', 32), ('"', 34), ('/', 47), ('\\', 92), ('N', 0x85), ('_', 0xA0), ('L', 0x2028),
   ('P', 0x2029)]

def escapeLength (c : Char) : Nat :=
  if c = 'x' then 2 else if c = 'u' then 4 else if c = 'U' then 8 else 0

/-- The escape whose backslash stands here. -/
def escape (c : Cursor) : Reading (Char × Cursor) :=
  match c.next with
  | none => .error "found unknown escape character"
  | some x =>
    match escapes.lookup x with
    | some n => .ok (Char.ofNat n, c.skip 2)
    | none =>
      let len := escapeLength x
      if len = 0 then .error "found unknown escape character"
      else
        let digits := (c.rest.drop 2).take len
        match hexNumber? digits with
        | none => .error "did not find expected hexdecimal number"
        | some n =>
          if digits.length < len then .error "did not find expected hexdecimal number"
          else if (0xD800 ≤ n ∧ n ≤ 0xDFFF) ∨ 0x10FFFF < n then
            .error "found invalid Unicode character escape code"
          else .ok (Char.ofNat n, c.skip (2 + len))

/-- The characters up to a blank, the closing quote or an escaped line break, which is flagged. -/
def quotedWord (single : Bool) : Nat → List Char → Cursor → Reading (List Char × Bool × Cursor)
  | 0, word, c => .ok (word, false, c)
  | fuel + 1, word, c =>
    match c.peek with
    | none => .ok (word, false, c)
    | some x =>
      if isBlank x || isBreak x then .ok (word, false, c)
      else if single && x = '\'' then
        if c.next = some '\'' then quotedWord single fuel (word ++ ['\'']) (c.skip 2)
        else .ok (word, false, c)
      else if !single && x = '"' then .ok (word, false, c)
      else if !single && x = '\\' then
        if c.next.any isBreak then .ok (word, true, (c.skip 1).skipBreak)
        else do
          let (y, c) ← escape c
          quotedWord single fuel (word ++ [y]) c
      else quotedWord single fuel (word ++ [x]) (c.skip 1)

def quotedWords (single : Bool) : Nat → List Char → Cursor → Reading (List Char × Cursor)
  | 0, _, _ => .error "found unexpected end of stream"
  | fuel + 1, text, c =>
    if c.onDocumentMark then .error "found unexpected document indicator"
    else if c.isDone then .error "found unexpected end of stream"
    else do
      let (word, broken, c) ← quotedWord single (c.rest.length + 1) [] c
      if !broken && c.isAt (if single then '\'' else '"') then .ok (text ++ word, c.skip 1)
      else
        let (g, c) ← takeGap none (c.rest.length + 1) { broken } c
        quotedWords single fuel (text ++ word ++ g.text) c

/-- The scalar whose opening quote stands here. -/
def quotedScalar (single : Bool) (c : Cursor) : Reading (List Char × Cursor) :=
  quotedWords single (c.rest.length + 2) [] (c.skip 1)

/-! ### Block scalars -/

inductive Chomping
  | clip
  | strip
  | keep
  deriving DecidableEq

/-- The indicators after the style of a block scalar, in either order. -/
def blockIndicators (c : Cursor) : Reading (Chomping × Nat × Cursor) :=
  let chomp? (c : Cursor) : Option (Chomping × Cursor) :=
    if c.isAt '+' then some (.keep, c.skip 1)
    else if c.isAt '-' then some (.strip, c.skip 1)
    else none
  let digit? (c : Cursor) : Reading (Nat × Cursor) :=
    match c.peek with
    | some x =>
      if x = '0' then .error "found an indentation indicator equal to 0"
      else if x.isDigit then .ok (x.toNat - 48, c.skip 1)
      else .ok (0, c)
    | none => .ok (0, c)
  match chomp? c with
  | some (ch, c) => do
    let (n, c) ← digit? c
    .ok (ch, n, c)
  | none => do
    let (n, c) ← digit? c
    if n = 0 then .ok (.clip, 0, c)
    else match chomp? c with
      | some (ch, c) => .ok (ch, n, c)
      | none => .ok (.clip, n, c)

/-- Takes indentation and empty lines. An indentation of zero is still to be found: it is the widest
one of the lines taken. Returns the breaks and that width. -/
def blockBreaks (indent : Nat) : Nat → Nat → List Char → Cursor → Reading (List Char × Nat × Cursor)
  | 0, widest, breaks, c => .ok (breaks, widest, c)
  | fuel + 1, widest, breaks, c =>
    let wanted := if indent = 0 then c.rest.length else indent - c.column
    let spaces := (c.rest.take wanted).takeWhile (· = ' ')
    let c := c.skip spaces.length
    let widest := max widest c.column
    if (indent = 0 || c.column < indent) && c.isAt '\t' then
      .error "found a tab character where an indentation space is expected"
    else if c.onBreak then
      let (br, c) := c.takeBreak
      blockBreaks indent fuel widest (breaks ++ br) c
    else .ok (breaks, widest, c)

/-- The lines of a block, and the break and the empty lines after the last one. -/
def blockLines (literal : Bool) (indent : Nat) :
    Nat → (text firstBreak laterBreaks : List Char) → Bool → Cursor →
      Reading (List Char × List Char × List Char × Cursor)
  | 0, text, first, later, _, c => .ok (text, first, later, c)
  | fuel + 1, text, first, later, blank, c =>
    if c.column ≠ indent || c.isDone then .ok (text, first, later, c)
    else do
      let startsBlank := c.onBlank
      let joint :=
        if !literal && first.head? = some '\n' && !blank && !startsBlank then
          (if later.isEmpty then [' '] else later)
        else first ++ later
      let (line, c) := c.takeWhile fun x => !isBreak x
      let (first, c) := c.takeBreak
      let (later, _, c) ← blockBreaks indent (c.rest.length + 1) 0 [] c
      blockLines literal indent fuel (text ++ joint ++ line) first later startsBlank c

/-- The scalar whose block indicator stands here. The indentation of the enclosing block is one less
than `least`. -/
def blockScalar (literal : Bool) (least : Nat) (c : Cursor) : Reading (List Char × Cursor) := do
  let (chomping, increment, c) ← blockIndicators (c.skip 1)
  let c := c.skipBlanks
  let c := if c.isAt '#' then c.skipLine else c
  if !endsLine c.peek then .error "did not find expected comment or line break"
  else
    let c := c.skipBreak
    let given := if increment = 0 then 0 else (least - 1) + increment
    let (later, widest, c) ← blockBreaks given (c.rest.length + 1) 0 [] c
    let indent := if given = 0 then max widest (max least 1) else given
    let (text, first, later, c) ←
      blockLines literal indent (c.rest.length + 1) [] [] later false c
    let text := if chomping = .strip then text else text ++ first
    .ok (if chomping = .keep then text ++ later else text, c)

end Groundwork.Yaml
