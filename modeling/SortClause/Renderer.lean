import SortClause.Request
/-!
How one destination is written with its direction.  A renderer may be supplied by a caller and may
give up with a message; what it writes is trimmed, and left out if nothing remains.  The standard
renderer writes `destination ASC`, a qualified one `n.destination ASC`.
-/
namespace SortClause

/-- Writes a destination with its direction. -/
abbrev Renderer := Text → Direction → Except Failure Text

namespace Renderer

/-- The destination, a space and the keyword. -/
def plainText (destination : Text) (d : Direction) : Text := destination ++ ' ' :: d.keyword

/-- The standard renderer. -/
def standard : Renderer := fun destination d => .ok (plainText destination d)

end Renderer

/-- The name of a variable that destinations are properties of, kept without blank ends. -/
structure Qualifier where
  name : Text
  /-- The name has no blank ends. -/
  trimmed : name.trim = name
  deriving DecidableEq

namespace Qualifier

def of (v : Text) : Qualifier := ⟨v.trim, Text.trim_trim v⟩

/-- The destination as a property of the variable; as it stands if the name is empty. -/
def qualify (q : Qualifier) (destination : Text) : Text :=
  if q.name = [] then destination else q.name ++ '.' :: destination

/-- Writes destinations as properties of the variable. -/
def renderer (q : Qualifier) : Renderer := fun destination d =>
  .ok (Renderer.plainText (q.qualify destination) d)

end Qualifier
end SortClause
