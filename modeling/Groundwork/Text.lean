/-!
Text as the tools print it: blanks, lines, first and last separators, and fragments.
Every operation is defined on the characters of a text.
-/
namespace Groundwork.Text

/-- The characters of the Unicode property `White_Space`. -/
def isBlank (c : Char) : Bool :=
  let n := c.toNat
  (9 ≤ n && n ≤ 13) || n == 0x20 || n == 0x85 || n == 0xA0 || n == 0x1680 ||
    (0x2000 ≤ n && n ≤ 0x200A) || n == 0x2028 || n == 0x2029 || n == 0x202F ||
    n == 0x205F || n == 0x3000

/-- Drops the blanks at the end. -/
def trimRight (cs : List Char) : List Char := (cs.reverse.dropWhile isBlank).reverse

/-- Drops the blanks at both ends. -/
def trimChars (cs : List Char) : List Char := trimRight (cs.dropWhile isBlank)

def trim (s : String) : String := String.ofList (trimChars s.toList)

/-- The pieces between the separators; there is one more piece than there are separators. -/
def split (sep : Char) : List Char → List (List Char)
  | [] => [[]]
  | c :: cs =>
    if c = sep then [] :: split sep cs
    else match split sep cs with
      | [] => [[c]]
      | piece :: pieces => (c :: piece) :: pieces

/-- What stands before and after the first separator. -/
def cutFirst (sep : Char) : List Char → Option (List Char × List Char)
  | [] => none
  | c :: cs =>
    if c = sep then some ([], cs)
    else (cutFirst sep cs).map fun (a, b) => (c :: a, b)

/-- What stands before and after the last separator. -/
def cutLast (sep : Char) (cs : List Char) : Option (List Char × List Char) :=
  (cutFirst sep cs.reverse).map fun (b, a) => (a.reverse, b.reverse)

/-- A line loses one carriage return at its end. -/
def dropReturn (line : List Char) : List Char :=
  match line.reverse with
  | '\r' :: rest => rest.reverse
  | _ => line

/-- The lines of a text. The last line counts only if it is not empty. -/
def lineChars (cs : List Char) : List (List Char) :=
  let pieces := split '\n' cs
  let whole := if pieces.getLast? = some [] then pieces.dropLast else pieces
  whole.map dropReturn

def lines (s : String) : List String := (lineChars s.toList).map String.ofList

/-- Whether the needle occurs somewhere in the text. -/
def occursIn (needle : List Char) : List Char → Bool
  | [] => needle.isEmpty
  | c :: cs => needle.isPrefixOf (c :: cs) || occursIn needle cs

def contains (s needle : String) : Bool := occursIn needle.toList s.toList

/-- What follows the opening in a text that starts with it. -/
def after? (opening : List Char) (cs : List Char) : Option (List Char) :=
  if opening.isPrefixOf cs then some (cs.drop opening.length) else none

def startsWith (s opening : String) : Bool := opening.toList.isPrefixOf s.toList

/-- What precedes the ending in a text that ends with it. -/
def before? (ending : List Char) (cs : List Char) : Option (List Char) :=
  if ending.isSuffixOf cs then some (cs.take (cs.length - ending.length)) else none

/-- ASCII letters in upper case, all other characters unchanged. -/
def upperAscii (s : String) : String := String.ofList (s.toList.map Char.toUpper)

def commaSeparated (parts : List String) : String := String.intercalate ", " parts

end Groundwork.Text
