import SortClause.Files.Path
import SortClause.Text.Utf8
/-!
What a program sees of a file system: for each path, whether it can be examined and, if so, its
bytes.  A path that exists may still be unreadable, as a directory is.  Files of settings are read
as UTF-8 text.
-/
namespace SortClause.Files

/-- Why a path cannot be examined or read. -/
inductive IoError where
  | notFound
  | notDirectory
  | isDirectory
  | nameTooLong
  | nulInPath
  | invalidText
  | other (message : Text)
  deriving DecidableEq, Repr

def IoError.message : IoError → Text
  | notFound => "No such file or directory (os error 2)".toList
  | notDirectory => "Not a directory (os error 20)".toList
  | isDirectory => "Is a directory (os error 21)".toList
  | nameTooLong => "File name too long (os error 36)".toList
  | nulInPath => "file name contained an unexpected NUL byte".toList
  | invalidText => "stream did not contain valid UTF-8".toList
  | other message => message

/-- What is found at a path. -/
inductive Lookup where
  | absent (e : IoError)
  | present (content : Except IoError (List UInt8))

/-- A state of the file system. -/
abbrev Disk := Path → Lookup

namespace Disk

/-- The path can be examined. -/
def has (disk : Disk) (p : Path) : Bool :=
  match disk p with
  | .absent _ => false
  | .present _ => true

/-- The bytes of a file. -/
def read (disk : Disk) (p : Path) : Except IoError (List UInt8) :=
  match disk p with
  | .absent e => .error e
  | .present content => content

/-- The text of a file. -/
def readText (disk : Disk) (p : Path) : Except IoError Text :=
  match disk.read p with
  | .error e => .error e
  | .ok bytes =>
    match Text.decode? bytes with
    | some t => .ok t
    | none => .error .invalidText

end Disk
end SortClause.Files
