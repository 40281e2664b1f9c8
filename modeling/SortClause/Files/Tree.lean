import SortClause.Files.Disk
/-!
A file tree held in memory, with the rules by which paths are looked up in it.  Every entry is
listed with the names that lead to it from the root, which is always a directory.  `disk` is what
a program sees of the tree from a working directory.
-/
namespace SortClause.Files

inductive Entry where
  | file (bytes : List UInt8)
  | directory
  deriving DecidableEq, Repr

/-- Entries by the names that lead to them. -/
structure Tree where
  entries : List (List Text × Entry) := []

namespace Tree

instance : Inhabited Tree := ⟨{}⟩

/-- The entry that the names lead to. -/
def find? (t : Tree) (names : List Text) : Option Entry :=
  if names = [] then some .directory else t.entries.lookup names

/-- The tree with an entry, in place of an earlier one. -/
def put (t : Tree) (names : List Text) (e : Entry) : Tree :=
  ⟨(names, e) :: t.entries.filter (·.1 ≠ names)⟩

/-- The tree with the directory `above` and, below it, those of the further names. -/
def putDirectories (t : Tree) (above : List Text) : List Text → Tree
  | [] => t
  | n :: ns =>
    let here := above ++ [n]
    (if (t.find? here).isSome then t else t.put here .directory).putDirectories here ns

/-- The tree without an entry and what lies below it. -/
def remove (t : Tree) (names : List Text) : Tree :=
  ⟨t.entries.filter fun e => !names.isPrefixOf e.1⟩

/-- The longest name of one entry, in bytes. -/
def maxName : Nat := 255

/-- The longest path that can be looked up, in bytes. -/
def maxPath : Nat := 4095

/-- Follows pieces of a path from a place in the tree. -/
def walk (t : Tree) : List Text → List Text → Except IoError (List Text × Entry)
  | here, [] =>
    match t.find? here with
    | some e => .ok (here, e)
    | none => .error .notFound
  | here, piece :: rest =>
    match t.find? here with
    | none => .error .notFound
    | some (.file _) => .error .notDirectory
    | some .directory =>
      if Path.isIdle piece then t.walk here rest
      else if piece = ['.', '.'] then t.walk here.dropLast rest
      else if maxName < Text.byteLength piece then .error .nameTooLong
      else t.walk (here ++ [piece]) rest

/-- What a path leads to from the working directory `cwd`. -/
def lookup (t : Tree) (cwd : List Text) (p : Path) : Except IoError (List Text × Entry) :=
  if '\x00' ∈ p then .error .nulInPath
  else if p = [] then .error .notFound
  else if maxPath < Text.byteLength p then .error .nameTooLong
  else t.walk (if p.head? = some '/' then [] else cwd) (Text.split ['/'] p)

/-- The tree as seen from the working directory `cwd`. -/
def disk (t : Tree) (cwd : List Text) : Disk := fun p =>
  match t.lookup cwd p with
  | .error e => .absent e
  | .ok (_, .file bytes) => .present (.ok bytes)
  | .ok (_, .directory) => .present (.error .isDirectory)

/-- The names in a path, without regard to what the tree holds. -/
def namesOf (p : Path) : List Text := (Text.split ['/'] p).filter fun x => !Path.isIdle x

/-- The tree with a file, and the directories above it. -/
def write (t : Tree) (p : Path) (bytes : List UInt8) : Tree :=
  (t.putDirectories [] (namesOf p).dropLast).put (namesOf p) (.file bytes)

/-- The tree with a directory, and those above it. -/
def makeDirectory (t : Tree) (p : Path) : Tree := t.putDirectories [] (namesOf p)

end Tree
end SortClause.Files
