import Groundwork.Text.HiddenTable
import Groundwork.Text.LowerCase
/-!
Texts in double quotes, with escapes for what would not show. Paths escape single quotes as well.
-/
namespace Groundwork.Text

def hexDigits (n : Nat) : List Char := Nat.toDigits 16 n

def isHidden (c : Char) : Bool := c.toNat < 0x20 || c.toNat = 0x7F || isWithin hiddenRanges c

def braced (n : Nat) : List Char := ['\\', 'u', '\x7b'] ++ hexDigits n ++ ['\x7d']

def quotedChar (single : Bool) (c : Char) : List Char :=
  if c.toNat = 0 then ['\\', '0']
  else if c = '\t' then ['\\', 't']
  else if c = '\r' then ['\\', 'r']
  else if c = '\n' then ['\\', 'n']
  else if c = '"' || c = '\\' || (single && c = '\'') then ['\\', c]
  else if isHidden c then braced c.toNat
  else [c]

def quotedWith (single : Bool) (s : String) : String :=
  String.ofList ('"' :: s.toList.flatMap (quotedChar single) ++ ['"'])

def quoted (s : String) : String := quotedWith false s

def quotedPath (path : String) : String := quotedWith true path

end Groundwork.Text
