import SortClause.Text.Blank
/-!
The direction in which a result is sorted.  A clause that names none sorts ascending.
-/
namespace SortClause

/-- Ascending or descending. -/
inductive Direction where
  | asc
  | desc
  deriving DecidableEq, Repr, Inhabited

namespace Direction

/-- Ascending for `true`. -/
def ofAscending (ascending : Bool) : Direction := if ascending then asc else desc

def isAscending : Direction → Bool
  | asc => true
  | desc => false

/-- The opposite direction. -/
def reversed : Direction → Direction
  | asc => desc
  | desc => asc

/-- The keyword of an `ORDER BY` clause. -/
def keyword : Direction → Text
  | asc => "ASC".toList
  | desc => "DESC".toList

theorem reversed_reversed (d : Direction) : d.reversed.reversed = d := by cases d <;> rfl

end Direction
end SortClause
