import SortClause.Json.Basic
import SortClause.Text.Quoted
import SortClause.Text.Utf8
/-!
Why a JSON document is refused, and where.  Places count bytes: a fault keeps how many bytes of the
document come after it, so that it can be raised without knowing what came before, and `locate`
turns that into a line and a column.  A fault that concerns a whole value is loose at first; the
object around it gives it the place after its own closing brace, if that comes next.
-/
namespace SortClause.Json

/-- What a reader wanted where something else stood. -/
inductive Expected where
  | string
  | map
  | settings
  deriving DecidableEq, Repr

/-- What stood there. -/
inductive Found where
  | null
  | bool (b : Bool)
  | number (n : Number)
  | string (s : Text)
  | sequence
  | map
  deriving DecidableEq, Repr

inductive Cause where
  | endInList
  | endInObject
  | endInString
  | endInValue
  | expectedColon
  | expectedListEnd
  | expectedObjectEnd
  | expectedWord
  | expectedValue
  | invalidEscape
  | invalidNumber
  | outOfRange
  | controlCharacter
  | keyNotString
  | loneSurrogate
  | endOfSurrogate
  | trailingComma
  | trailingCharacters
  | tooDeep
  | wrongType (found : Found) (expected : Expected)
  | repeatedMember (name : Text)
  | noRule
  deriving DecidableEq, Repr

def Expected.message : Expected → Text
  | string => "a string".toList
  | map => "a map".toList
  | settings => "struct OrderBySettings".toList

def Found.message : Found → Text
  | null => "null".toList
  | bool b => "boolean `".toList ++ (if b then "true" else "false").toList ++ ['\x60']
  | number (.integer i) => "integer `".toList ++ (Number.integer i).toText ++ ['\x60']
  | number (.real n m) => "floating point `".toList ++ (Number.real n m).toText ++ ['\x60']
  | string s => "string ".toList ++ s.quoted
  | sequence => "sequence".toList
  | map => "map".toList

def Cause.message : Cause → Text
  | endInList => "EOF while parsing a list".toList
  | endInObject => "EOF while parsing an object".toList
  | endInString => "EOF while parsing a string".toList
  | endInValue => "EOF while parsing a value".toList
  | expectedColon => "expected `:`".toList
  | expectedListEnd => "expected `,` or `]`".toList
  | expectedObjectEnd => "expected `,` or `\x7d`".toList
  | expectedWord => "expected ident".toList
  | expectedValue => "expected value".toList
  | invalidEscape => "invalid escape".toList
  | invalidNumber => "invalid number".toList
  | outOfRange => "number out of range".toList
  | controlCharacter =>
    "control character (\\u0000-\\u001F) found while parsing a string".toList
  | keyNotString => "key must be a string".toList
  | loneSurrogate => "lone leading surrogate in hex escape".toList
  | endOfSurrogate => "unexpected end of hex escape".toList
  | trailingComma => "trailing comma".toList
  | trailingCharacters => "trailing characters".toList
  | tooDeep => "recursion limit exceeded".toList
  | wrongType found expected =>
    "invalid type: ".toList ++ found.message ++ ", expected ".toList ++ expected.message
  | repeatedMember name => "duplicate field `".toList ++ name ++ ['\x60']
  | noRule => "data did not match any variant of untagged enum RawMappingRule".toList

/-- Where a fault is: before so many last bytes of the document, or not settled yet, with the rest
of the document at the time it was raised. -/
inductive Place where
  | before (bytes : Nat)
  | loose (rest : Text)
  deriving DecidableEq, Repr

structure Fault where
  cause : Cause
  place : Place
  deriving DecidableEq, Repr

namespace Fault

/-- A fault right after `n` more bytes of the rest. -/
def past (n : Nat) (rest : Text) (cause : Cause) : Fault :=
  ⟨cause, .before (Text.byteLength rest - n)⟩

/-- A fault after what has been read. -/
def after (rest : Text) (cause : Cause) : Fault := past 0 rest cause

/-- A fault at the next byte, which is counted; at the end of the document after the last one. -/
def next (rest : Text) (cause : Cause) : Fault := past 1 rest cause

/-- A fault of the value just read, with no place of its own. -/
def ofValue (rest : Text) (cause : Cause) : Fault := ⟨cause, .loose rest⟩

end Fault

/-- The line, from 1, and the column, in bytes, of the place after `n` bytes of the text, when the
text starts at the given line and column. -/
def locate : Text → Nat → Nat → Nat → Nat × Nat
  | [], _, line, column => (line, column)
  | c :: r, n, line, column =>
    if n < c.utf8Size then (line, column + n)
    else if c = '\n' then locate r (n - 1) (line + 1) 0
    else locate r (n - c.utf8Size) line (column + c.utf8Size)

/-- A cause with the line and column of its place, if it has one. -/
structure Error where
  cause : Cause
  position : Option (Nat × Nat)
  deriving DecidableEq, Repr

/-- The fault as an error of the whole document. -/
def Fault.locateIn (document : Text) (f : Fault) : Error where
  cause := f.cause
  position :=
    match f.place with
    | .before bytes => some (locate document (Text.byteLength document - bytes) 1 0)
    | .loose _ => none

def Error.message (e : Error) : Text :=
  e.cause.message ++
    match e.position with
    | some (line, column) =>
      " at line ".toList ++ Nat.toDigits 10 line ++ " column ".toList ++ Nat.toDigits 10 column
    | none => []

end SortClause.Json
