/-!
Places in a YAML stream and the classes of its characters. A reading fails with the reason as text.
-/
namespace Groundwork.Yaml

abbrev Reading (α : Type) := Except String α

def isBlank (c : Char) : Bool := c = ' ' || c = '\t'

def isBreak (c : Char) : Bool :=
  c = '\r' || c = '\n' || c.toNat = 0x85 || c.toNat = 0x2028 || c.toNat = 0x2029

/-- Whether a character ends a word; so does the end of the stream. -/
def endsWord : Option Char → Bool
  | none => true
  | some c => isBlank c || isBreak c

def endsLine : Option Char → Bool
  | none => true
  | some c => isBreak c

def isWordChar (c : Char) : Bool := c.isAlphanum || c = '_' || c = '-'

/-- Characters that a stream may hold. -/
def isAllowed (c : Char) : Bool :=
  let n := c.toNat
  n = 9 || n = 10 || n = 13 || (0x20 ≤ n && n ≤ 0x7E) || n = 0x85 || (0xA0 ≤ n && n ≤ 0xD7FF) ||
    (0xE000 ≤ n && n ≤ 0xFFFD) || 0x10000 ≤ n

structure Cursor where
  rest : List Char
  index : Nat := 0
  line : Nat := 0
  column : Nat := 0

namespace Cursor

def peek (c : Cursor) : Option Char := c.rest.head?

def peekAt (c : Cursor) (n : Nat) : Option Char := c.rest[n]?

def next (c : Cursor) : Option Char := c.peekAt 1

def isAt (c : Cursor) (x : Char) : Bool := c.peek == some x

def isDone (c : Cursor) : Bool := c.rest.isEmpty

def onBlank (c : Cursor) : Bool := c.peek.any isBlank

def onBreak (c : Cursor) : Bool := c.peek.any isBreak

/-- Passes over characters of one line. -/
def skip (c : Cursor) (n : Nat) : Cursor :=
  let n := min n c.rest.length
  { c with rest := c.rest.drop n, index := c.index + n, column := c.column + n }

/-- Passes over a line break and returns it as it counts in a text. -/
def takeBreak (c : Cursor) : List Char × Cursor :=
  let after (n : Nat) : Cursor :=
    { rest := c.rest.drop n, index := c.index + n, line := c.line + 1, column := 0 }
  match c.rest with
  | '\r' :: '\n' :: _ => (['\n'], after 2)
  | x :: _ =>
    if isBreak x then
      (if x.toNat = 0x2028 || x.toNat = 0x2029 then [x] else ['\n'], after 1)
    else ([], c)
  | [] => ([], c)

def skipBreak (c : Cursor) : Cursor := c.takeBreak.2

/-- Takes the characters of a class that stand here. None of them is a line break. -/
def takeWhile (c : Cursor) (p : Char → Bool) : List Char × Cursor :=
  let word := c.rest.takeWhile p
  (word, c.skip word.length)

def skipBlanks (c : Cursor) : Cursor := (c.takeWhile isBlank).2

/-- Passes over what is left of the line. -/
def skipLine (c : Cursor) : Cursor := (c.takeWhile fun x => !isBreak x).2

/-- Whether one of the marks between documents stands here. -/
def onMark (c : Cursor) (mark : List Char) : Bool :=
  c.column = 0 && mark.isPrefixOf c.rest && endsWord (c.peekAt 3)

def onDocumentMark (c : Cursor) : Bool :=
  c.onMark ['-', '-', '-'] || c.onMark ['.', '.', '.']

end Cursor

end Groundwork.Yaml
