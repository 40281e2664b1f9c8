import SortClause.Direction
/-!
What one candidate of a directive asks for: a field and a direction.  Candidates are read by a
parser, a function that a caller may replace and that may give up with a message.  The standard
parser reads `field`, `field asc` and `field desc`; it looks at nothing after the second word.
-/
namespace SortClause

/-- A parser or a renderer supplied by a caller gave up. -/
structure Failure where
  message : Text
  deriving DecidableEq, Repr

/-- A field and the direction in which to sort by it. -/
structure Request where
  field : Text
  direction : Direction
  deriving DecidableEq, Repr

/-- Reads a candidate, which is trimmed and not empty. -/
abbrev RequestParser := Text → Except Failure Request

namespace Request

/-- The word `desc` in any mixture of the ASCII cases, with blanks around it. -/
def isDesc (word : Text) : Bool := word.trim.map Char.toLower == "desc".toList

/-- The direction that the text after the field asks for: descending if its first word, which
starts right after one space, is `desc`. -/
def directionOf : Text → Direction
  | [] => .asc
  | _ :: r => if isDesc (r.takeWhile (· ≠ ' ')) then .desc else .asc

/-- Reads the text before the first space as the field and the word after it as the direction. -/
def ofCandidate (candidate : Text) : Request where
  field := candidate.takeWhile (· ≠ ' ')
  direction := directionOf (candidate.dropWhile (· ≠ ' '))

/-- The standard parser, which never gives up. -/
def standardParser : RequestParser := fun candidate => .ok (ofCandidate candidate)

end Request
end SortClause
