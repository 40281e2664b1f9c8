import SortClause.Json.Basic
/-!
JSON values as text, without blanks between the parts.  In strings, quotes and backslashes stand
after a backslash, the usual control characters have their letter and the others four hexadecimal
digits; everything else stands for itself.
-/
namespace SortClause.Json

/-- A digit below sixteen. -/
def hexDigit (n : Nat) : Char := Nat.digitChar n

/-- One character of a string. -/
def escaped (c : Char) : Text :=
  if c = '"' then ['\\', '"']
  else if c = '\\' then ['\\', '\\']
  else if c = '\x08' then ['\\', 'b']
  else if c = '\x0c' then ['\\', 'f']
  else if c = '\n' then ['\\', 'n']
  else if c = '\r' then ['\\', 'r']
  else if c = '\t' then ['\\', 't']
  else if c.toNat < 0x20 then
    ['\\', 'u', '0', '0', hexDigit (c.toNat / 16), hexDigit (c.toNat % 16)]
  else [c]

/-- A string between its quotes. -/
def stringText (s : Text) : Text := '"' :: s.flatMap escaped ++ ['"']

def digitsText (ds : List Nat) : Text := ds.map Nat.digitChar

/-- A number with the digits it was written with. -/
def Numeral.text (n : Numeral) : Text :=
  (if n.negative then ['-'] else []) ++ digitsText n.whole ++
    (if n.fraction = [] then [] else '.' :: digitsText n.fraction) ++
    match n.exponent with
    | none => []
    | some e => 'e' :: (if e.negative then ['-'] else []) ++ digitsText e.digits

mutual

/-- The text of a value. -/
def text : Json → Text
  | .null => "null".toList
  | .bool true => "true".toList
  | .bool false => "false".toList
  | .number n => n.text
  | .string s => stringText s
  | .array xs => '[' :: elementsText xs ++ [']']
  | .object ms => '\x7b' :: membersText ms ++ ['\x7d']

/-- The texts of elements with commas between them. -/
def elementsText : List Json → Text
  | [] => []
  | [x] => text x
  | x :: y :: r => text x ++ ',' :: elementsText (y :: r)

/-- The texts of members with commas between them. -/
def membersText : List (Text × Json) → Text
  | [] => []
  | [(k, x)] => stringText k ++ ':' :: text x
  | (k, x) :: m :: r => stringText k ++ ':' :: text x ++ ',' :: membersText (m :: r)

end

end SortClause.Json
