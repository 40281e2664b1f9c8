import SortClause.Command.Arguments
import SortClause.Manager
/-!
A run of the command: from its arguments, the files and the standard input to what it prints and
its exit code.  Settings are loaded, the members given as options replace theirs, and each
directive gives one line of output.  Without directives the lines of the standard input are the
directives; a line that is not UTF-8 ends the run there.
-/
namespace SortClause.Command

open Files

/-- What a run leaves behind.  The wording of a usage error is not fixed. -/
structure Outcome where
  code : Nat
  stdout : Text
  stderr : Option Text
  deriving DecidableEq, Repr

/-- The name and version of the command. -/
def versionLine : Text := "order-by 0.1.0\n".toList

/-! ### Help -/

/-- What an option is for. -/
def OptionName.purpose : OptionName → Text
  | config => "Settings file. Defaults to `.order-by.json` in the current directory".toList
  | qualifier => "Cypher variable to prefix destinations with".toList
  | sourceSeparator => "Separator between directive fields (used verbatim)".toList
  | targetSeparator => "Separator between output fragments (used verbatim)".toList

/-- An option as it is written, with its value in angle brackets. -/
def OptionName.usage (o : OptionName) : Text :=
  (if o = config then "-c, --".toList else "    --".toList) ++ o.long ++ " <".toList ++
    o.long.map (fun c => if c = '-' then '_' else c.toUpper) ++ ['>']

/-- An entry of the list of options: how it is written and, on the next line, what it is for. -/
def helpEntry (usage purpose : Text) : Text :=
  [' ', ' '] ++ usage ++ ['\n'] ++ List.replicate 10 ' ' ++ purpose ++ ['\n']

/-- What the command is for, and what each argument is for. -/
def helpText : Text :=
  "Translate client sort directives into whitelisted SQL / Cypher ORDER BY expressions\n".toList ++
  "\nUsage: order-by [OPTIONS] [DIRECTIVES]...\n".toList ++
  "\nArguments:\n  [DIRECTIVES]...  Directives to translate. ".toList ++
  "Reads one directive per line from stdin when omitted\n".toList ++
  "\nOptions:\n".toList ++
  (OptionName.all.flatMap fun o => helpEntry o.usage o.purpose) ++
  helpEntry "-h, --help".toList "Print help".toList ++
  helpEntry "-V, --version".toList "Print version".toList

/-! ### Reports -/

/-- Replaces each line feed by a line feed and so many blanks. -/
def indentAfterBreaks (n : Nat) (t : Text) : Text :=
  t.flatMap fun c => if c = '\n' then '\n' :: List.replicate n ' ' else [c]

/-- Causes with their numbers, from `n` on, right-aligned; further lines stand below the text. -/
def numberedCauses : Nat → List Text → List Text
  | _, [] => []
  | n, t :: ts =>
    let label := Nat.toDigits 10 n
    (List.replicate (5 - label.length) ' ' ++ label ++ [':', ' '] ++ indentAfterBreaks 7 t) ::
      numberedCauses (n + 1) ts

/-- The causes below a report, outermost first; a single one has no number. -/
def causeLines : List Text → List Text
  | [t] => [List.replicate 4 ' ' ++ indentAfterBreaks 4 t]
  | ts => numberedCauses 0 ts

/-- A report of a failure: what was being done, and the causes if there are any. -/
def report (context : Text) (causes : List Text) : Text :=
  "Error: ".toList ++ context ++
    (if causes = [] then []
    else "\n\nCaused by:\n".toList ++ Text.join ['\n'] (causeLines causes)) ++ ['\n']

/-- A run that failed with a load error. -/
def failed (context : Text) (e : LoadError) : Outcome :=
  ⟨1, [], some (report context (e.message :: e.inner?.toList))⟩

/-! ### Settings -/

/-- What is being done while settings are loaded. -/
def loadContext (a : Arguments) : Text :=
  match a.config with
  | some p => "loading settings from ".toList ++ p
  | none => "loading settings from the current directory".toList

/-- Loads the settings file that the arguments name, or else that of the working directory. -/
def load (a : Arguments) (disk : Disk) : Manager.Action Unit :=
  match a.config with
  | some p => Manager.loadFile disk p
  | none => Manager.loadDirectory disk (some ['.'])

/-- The path that `load` looks at. -/
def settingsPath (a : Arguments) : Path :=
  match a.config with
  | some p => p
  | none => Path.join ['.'] Settings.fileName

/-- The settings with the members given as options in place of theirs. -/
def override (a : Arguments) (s : Settings) : Settings :=
  { s with
    qualifier := a.qualifier.or s.qualifier
    sourceSeparator := a.sourceSeparator.getD s.sourceSeparator
    targetSeparator := a.targetSeparator.getD s.targetSeparator }

/-! ### Output -/

/-- The output for directives: one line each. -/
def clauses (s : Settings) (directives : List Text) : Text :=
  directives.flatMap fun d => s.clause d ++ ['\n']

/-- A finished line, given last byte first, without a carriage return at its end. -/
def finishLine : List UInt8 → List UInt8
  | 13 :: line => line.reverse
  | line => line.reverse

/-- The lines of an input, after the bytes of the line that has begun, last one first.  A line feed
ends a line, with a carriage return before it; the last line may go without. -/
def linesFrom (line : List UInt8) : List UInt8 → List (List UInt8)
  | [] => if line = [] then [] else [line.reverse]
  | b :: r => if b = 10 then finishLine line :: linesFrom [] r else linesFrom (b :: line) r

/-- The lines of an input. -/
def lines (input : List UInt8) : List (List UInt8) := linesFrom [] input

/-- The lines up to the first one that is not UTF-8, and whether there is such a one. -/
def textLines : List (List UInt8) → List Text × Bool
  | [] => ([], false)
  | l :: ls =>
    match Text.decode? l with
    | none => ([], true)
    | some t => (t :: (textLines ls).1, (textLines ls).2)

/-- The output of a run with the settings in force. -/
def emit (a : Arguments) (s : Settings) (stdin : List UInt8) : Outcome :=
  if a.directives = [] then
    match textLines (lines stdin) with
    | (ts, false) => ⟨0, clauses s ts, some []⟩
    | (ts, true) => ⟨1, clauses s ts, some (report IoError.invalidText.message [])⟩
  else ⟨0, clauses s a.directives, some []⟩

/-- A run with arguments that can be used. -/
def runWith (a : Arguments) (disk : Disk) (stdin : List UInt8) : Outcome :=
  match (load a disk).on {} with
  | (.error e, _) => failed (loadContext a) e
  | (.ok (), m) =>
    match (Manager.update (override a m.settings)).on m with
    | (.error e, _) => failed "applying command-line overrides".toList e
    | (.ok (), m) => emit a m.settings stdin

/-- A run of the command. -/
def run (args : List Text) (disk : Disk) (stdin : List UInt8) : Outcome :=
  match Arguments.read args with
  | .error .usage => ⟨2, [], none⟩
  | .error .help => ⟨0, helpText, some []⟩
  | .error .version => ⟨0, versionLine, some []⟩
  | .ok a => runWith a disk stdin

end SortClause.Command
