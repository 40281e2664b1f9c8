import SortClause.Text.Split
/-!
Paths as texts.  A path is cut at slashes; empty pieces and single dots in the middle of it stand
for nothing.  `join` adds a name to a directory, `parent?` drops the last component with the slashes
before it and keeps the rest as it is written, and `components` is what two spellings of one path
have in common.
-/
namespace SortClause.Files

/-- A path, as written. -/
abbrev Path := Text

/-- One step of a path. -/
inductive Component where
  | root
  | current
  | up
  | name (n : Text)
  deriving DecidableEq, Repr

namespace Path

/-- The path of `name` inside the directory `dir`. -/
def join (dir : Path) (name : Text) : Path :=
  if dir = [] ∨ dir.getLast? = some '/' then dir ++ name else dir ++ '/' :: name

/-- A leading slash, or a leading dot that is a whole component, and the rest. -/
def start (p : Path) : Text × Text :=
  match p with
  | '/' :: r => (['/'], r)
  | ['.'] => (['.'], [])
  | '.' :: '/' :: r => (['.'], '/' :: r)
  | p => ([], p)

/-- A piece that stands for nothing. -/
def isIdle (piece : Text) : Bool := piece == [] || piece == ['.']

/-- The pieces up to the last one that is not idle. -/
def dropIdle (pieces : List Text) : List Text := (pieces.reverse.dropWhile isIdle).reverse

/-- The path without its last component; none for a path without one. -/
def parent? (p : Path) : Option Path :=
  let (s, body) := start p
  match (dropIdle (Text.split ['/'] body)).reverse with
  | _ :: before => some (s ++ Text.join ['/'] (dropIdle before.reverse))
  | [] => if s = ['.'] then some [] else none

/-- The component of a piece that is not idle. -/
def componentOf (piece : Text) : Component := if piece = ['.', '.'] then .up else .name piece

/-- The components of a path. -/
def components (p : Path) : List Component :=
  let (s, body) := start p
  (if s = ['/'] then [.root] else if s = ['.'] then [.current] else []) ++
    ((Text.split ['/'] body).filter fun x => !isIdle x).map componentOf

end Path
end SortClause.Files
