import SortClause.Text.Blank
import SortClause.Text.Extending
import SortClause.Text.Ignorable
import SortClause.Text.Printable
/-!
Texts in diagnostics: between double quotes, with quotes and backslashes escaped, and with every
character that a reader could not see as one of its own.  The common control characters have a
letter; the others are written by code point in lower-case hexadecimal digits.  A mark that would be
drawn upon the character before it counts as unseen, so that each escape stands where its character
stands.
-/
namespace SortClause.Text

/-- The character cannot be printed, leaves no mark, or is drawn upon the one before it. -/
def isUnseen (c : Char) : Bool :=
  !isPrintable c || isIgnorable c || (isExtending c && !isHalfwidthSoundMark c)

/-- A character by its code point. -/
def codePointEscape (c : Char) : Text :=
  "\\u\x7b".toList ++ Nat.toDigits 16 c.toNat ++ ['\x7d']

/-- One character as it stands between quotes. -/
def quoteChar (c : Char) : Text :=
  match c with
  | '"' => ['\\', '"']
  | '\\' => ['\\', '\\']
  | '\n' => ['\\', 'n']
  | '\t' => ['\\', 't']
  | '\r' => ['\\', 'r']
  | '\x00' => ['\\', '0']
  | c => if isUnseen c then codePointEscape c else [c]

/-- The text between double quotes, with escapes. -/
def quoted (t : Text) : Text := '"' :: t.flatMap quoteChar ++ ['"']

end SortClause.Text
