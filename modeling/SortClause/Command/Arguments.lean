import SortClause.Text.Blank
/-!
The arguments of the command.  Options take a value, joined on or as the next argument, and may be
given once; everything else is a directive, and so is everything after `--`.  Arguments are read
from the first to the last, and the first one that cannot be used, or the first request for help or
for the version, settles the matter.
-/
namespace SortClause.Command

/-- An option of the command that takes a value. -/
inductive OptionName where
  | config
  | qualifier
  | sourceSeparator
  | targetSeparator
  deriving DecidableEq, Repr

/-- What the arguments ask for. -/
structure Arguments where
  config : Option Text := none
  qualifier : Option Text := none
  sourceSeparator : Option Text := none
  targetSeparator : Option Text := none
  directives : List Text := []
  deriving DecidableEq, Repr

/-- Why arguments lead to no run. -/
inductive Refusal where
  /-- They cannot be used. -/
  | usage
  /-- They ask what the arguments are for. -/
  | help
  /-- They ask for the version. -/
  | version
  deriving DecidableEq, Repr

namespace OptionName

def all : List OptionName := [config, qualifier, sourceSeparator, targetSeparator]

/-- The name after the two dashes. -/
def long : OptionName → Text
  | config => "config".toList
  | qualifier => "variable".toList
  | sourceSeparator => "source-separator".toList
  | targetSeparator => "target-separator".toList

def ofLong? (name : Text) : Option OptionName := all.find? fun o => o.long = name

end OptionName

/-- One argument before `--`, as far as its own text goes. -/
inductive Word where
  | directive (t : Text)
  /-- An option whose value is joined on, or is the next argument. -/
  | option (o : OptionName) (value : Option Text)
  | help
  | version
  /-- The end of the options. -/
  | dashes
  | unknown
  deriving DecidableEq, Repr

namespace Word

/-- The name of a long option and the value after its equals sign. -/
def splitLong (t : Text) : Text × Option Text :=
  (t.takeWhile (· ≠ '='), match t.dropWhile (· ≠ '=') with | [] => none | _ :: v => some v)

/-- Reads what stands after two dashes. -/
def ofLong (t : Text) : Word :=
  match t with
  | [] => dashes
  | t =>
    let (name, value) := splitLong t
    match OptionName.ofLong? name with
    | some o => option o value
    | none =>
      if name = "help".toList ∧ value = none then help
      else if name = "version".toList ∧ value = none then version
      else unknown

/-- Reads what stands after one dash. -/
def ofShort (t : Text) : Word :=
  match t with
  | ['c'] => option .config none
  | 'c' :: '=' :: v => option .config (some v)
  | 'c' :: v => option .config (some v)
  | 'h' :: _ => help
  | 'V' :: _ => version
  | _ => unknown

/-- Reads an argument; a dash alone is a directive. -/
def ofText (t : Text) : Word :=
  match t with
  | '-' :: '-' :: r => ofLong r
  | ['-'] => directive t
  | '-' :: r => ofShort r
  | _ => directive t

end Word

namespace Arguments

instance : Inhabited Arguments := ⟨{}⟩

/-- The value given to an option. -/
def get (a : Arguments) : OptionName → Option Text
  | .config => a.config
  | .qualifier => a.qualifier
  | .sourceSeparator => a.sourceSeparator
  | .targetSeparator => a.targetSeparator

/-- Gives an option its value: none may be given twice, and a settings file has a name. -/
def set (a : Arguments) (o : OptionName) (v : Text) : Except Refusal Arguments :=
  if (a.get o).isSome then .error .usage
  else
    match o with
    | .config => if v = [] then .error .usage else .ok { a with config := some v }
    | .qualifier => .ok { a with qualifier := some v }
    | .sourceSeparator => .ok { a with sourceSeparator := some v }
    | .targetSeparator => .ok { a with targetSeparator := some v }

/-- Adds directives after the earlier ones. -/
def addDirectives (a : Arguments) (ts : List Text) : Arguments :=
  { a with directives := a.directives ++ ts }

/-- An argument can be the value of the option before it. -/
def isValue (t : Text) : Bool := t == ['-'] || t.head? != some '-'

/-- Reads arguments, with those before them already read. -/
def readFrom : Arguments → List Text → Except Refusal Arguments
  | a, [] => .ok a
  | a, t :: ts =>
    match Word.ofText t with
    | .directive d => (a.addDirectives [d]).readFrom ts
    | .help => .error .help
    | .version => .error .version
    | .unknown => .error .usage
    | .dashes => .ok (a.addDirectives ts)
    | .option o (some v) =>
      match a.set o v with
      | .error e => .error e
      | .ok a => a.readFrom ts
    | .option o none =>
      match ts with
      | [] => .error .usage
      | v :: rest =>
        if isValue v then
          match a.set o v with
          | .error e => .error e
          | .ok a => a.readFrom rest
        else .error .usage

/-- Reads the arguments of the command. -/
def read (ts : List Text) : Except Refusal Arguments := readFrom {} ts

end Arguments
end SortClause.Command
