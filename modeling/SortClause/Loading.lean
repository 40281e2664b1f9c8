import SortClause.Files.Disk
import SortClause.Settings.Document
/-!
Loading settings from files.  A file of settings must be readable, be UTF-8 text and hold a settings
document; whether the settings are valid is not asked here.  A directory need not have such a file.
-/
namespace SortClause

open Files

/-- Why settings could not be loaded. -/
inductive LoadError where
  | invalid (problems : List Problem)
  | unreadable (e : IoError)
  | malformed (e : Json.Error)
  deriving DecidableEq, Repr

namespace LoadError

/-- The error that lies behind this one. -/
def inner? : LoadError → Option Text
  | invalid _ => none
  | unreadable e => some e.message
  | malformed e => some e.message

def message : LoadError → Text
  | invalid problems => Finding.report (problems.map Problem.finding)
  | unreadable e => "Failed to load configuration file: ".toList ++ e.message
  | malformed e => "Failed to parse configuration: ".toList ++ e.message

end LoadError

namespace Settings

/-- The name of the settings file of a directory. -/
def fileName : Text := ".order-by.json".toList

/-- The settings in a file. -/
def ofFile (disk : Disk) (p : Path) : Except LoadError Settings :=
  match disk.readText p with
  | .error e => .error (.unreadable e)
  | .ok t =>
    match ofText t with
    | .error e => .error (.malformed e)
    | .ok s => .ok s

/-- The settings in the settings file of a directory, if it has one. -/
def ofDirectory (disk : Disk) (dir : Path) : Except LoadError (Option Settings) :=
  if disk.has (dir.join fileName) then (ofFile disk (dir.join fileName)).map some else .ok none

end Settings
end SortClause
