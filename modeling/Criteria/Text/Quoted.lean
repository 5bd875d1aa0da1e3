import Criteria.Text.Digits
import Criteria.Text.Glyphs

/-! Text between double quotes, so that every character can be seen.

A quote, a backslash and the four common controls are written with a backslash.
Anything without a glyph of its own, or that would attach to the character before
it, is written by its code point in braces. All else stands for itself. -/
namespace Criteria.Text

/-- Letters that hold an empty place in a Hangul syllable. -/
def hangulFillers : List Char := ['\u115f', '\u1160', '\u3164', '\uffa0']

/-- The sound marks of halfwidth Katakana, which extend a letter from a cell of their own. -/
def halfwidthMarks : List Char := ['\uff9e', '\uff9f']

/-- The character can be seen on its own. -/
def hasGlyph (c : Char) : Bool := !unseen.contains c && !hangulFillers.contains c

/-- The character would be drawn with the one before it. -/
def attaches (c : Char) : Bool := graphemeExtend.contains c && !halfwidthMarks.contains c

def codePoint (c : Char) : List Char :=
  ['\\', 'u', '\x7b'] ++ hexDigits c.toNat ++ ['\x7d']

/-- What stands for a character between the quotes. -/
def quoteChar (c : Char) : List Char :=
  if c = '"' then ['\\', '"']
  else if c = '\\' then ['\\', '\\']
  else if c = '\x00' then ['\\', '0']
  else if c = '\t' then ['\\', 't']
  else if c = '\n' then ['\\', 'n']
  else if c = '\r' then ['\\', 'r']
  else if 0x20 ≤ c.toNat && c.toNat < 0x7F then [c]
  else if hasGlyph c && !attaches c then [c]
  else codePoint c

def quoted (s : String) : String :=
  String.ofList ('"' :: s.toList.flatMap quoteChar ++ ['"'])

end Criteria.Text
