import SortClause.Config
import SortClause.Dictionary
import SortClause.Event
import SortClause.Text.Split
/-!
Settings: what a settings document holds.  They describe a configuration and a dictionary.  A field
that no directive can name is a problem, and so is a variable with a blank inside; `problems` lists
them in the order of the keys, the variable last, each with the first reason that applies.  Main
statement: every directive has a sort clause under settings (`expand_eq_ok`).
-/
namespace SortClause

/-- The members of a settings document, with their defaults. -/
structure Settings where
  /-- Cuts directives, as it stands. -/
  sourceSeparator : Text := [',']
  /-- Joins fragments, as it stands. -/
  targetSeparator : Text := [',', ' ']
  /-- The variable that destinations are properties of. -/
  qualifier : Option Text := none
  /-- The sortable fields. -/
  fields : Dictionary := .empty
  deriving DecidableEq

/-- A reason why settings are refused. -/
inductive Problem where
  | emptyKey
  | blankInKey (key : Text)
  | separatorInKey (key separator : Text)
  | blankInQualifier
  deriving DecidableEq, Repr

/-- A place in a settings document and what is wrong there. -/
structure Finding where
  path : Text
  message : Text
  deriving DecidableEq, Repr

namespace Problem

def key : Problem → Option Text
  | emptyKey => some []
  | blankInKey key => some key
  | separatorInKey key _ => some key
  | blankInQualifier => none

def path (p : Problem) : Text :=
  match p.key with
  | some key => "fields.".toList ++ key
  | none => "variable".toList

def message : Problem → Text
  | emptyKey => "The field name cannot be empty. Example: \"createdAt\"".toList
  | blankInKey key =>
    "The field name '".toList ++ key ++
      "' contains whitespace and can never be requested".toList
  | separatorInKey key separator =>
    "The field name '".toList ++ key ++ "' contains the source separator '".toList ++ separator ++
      "' and can never be requested".toList
  | blankInQualifier => "The variable cannot contain whitespace. Example: \"n\"".toList

def finding (p : Problem) : Finding := ⟨p.path, p.message⟩

end Problem

namespace Finding

/-- A finding on its own. -/
def describe (f : Finding) : Text :=
  "Configuration error in '".toList ++ f.path ++ "': ".toList ++ f.message

/-- A finding as a numbered line. -/
def line (n : Nat) (f : Finding) : Text :=
  [' ', ' '] ++ Nat.toDigits 10 n ++ ". ".toList ++ f.path ++ " - ".toList ++ f.message

/-- The numbered lines from `n` on. -/
def lines : Nat → List Finding → List Text
  | _, [] => []
  | n, f :: fs => f.line n :: lines (n + 1) fs

/-- All findings, one numbered line each, under a heading. -/
def report (fs : List Finding) : Text :=
  "Configuration validation failed:\n".toList ++ Text.join ['\n'] (lines 1 fs)

end Finding

namespace Settings

instance : Inhabited Settings := ⟨{}⟩

/-- What is wrong with a key, when directives are cut at `σ`. -/
def keyProblem? (σ key : Text) : Option Problem :=
  if key = [] then some .emptyKey
  else if key.hasBlank then some (.blankInKey key)
  else if σ ≠ [] ∧ Text.contains σ key then some (.separatorInKey key σ)
  else none

/-- What is wrong with the variable. -/
def qualifierProblem? (s : Settings) : Option Problem :=
  if s.qualifier.any Text.hasBlank then some .blankInQualifier else none

/-- All problems: of the keys in their order, then of the variable. -/
def problems (s : Settings) : List Problem :=
  s.fields.keys.filterMap (keyProblem? s.sourceSeparator) ++ s.qualifierProblem?.toList

def isValid (s : Settings) : Bool := s.problems.isEmpty

/-- The events of checking settings: one for each field with an empty rule. -/
def events (s : Settings) : List Event :=
  (s.fields.entries.filter (·.2.isEmpty)).map fun e => .noDestinations e.1

/-- The renderer of the settings: qualified if there is a variable that is not blank. -/
def renderer? (s : Settings) : Option Renderer :=
  (s.qualifier.filter fun v => v.trim ≠ []).map fun v => (Qualifier.of v).renderer

/-- The configuration that the settings describe. -/
def config (s : Settings) : Config :=
  .ofOverrides
    [some (.sourceSeparator s.sourceSeparator), some (.targetSeparator s.targetSeparator),
      s.renderer?.map fun r => .renderer (some r)]

/-- The sort clause of a directive under the settings. -/
def clause (s : Settings) (directive : Text) : Text :=
  Text.join s.targetSeparator (s.config.trace (some s.fields) directive).kept

/-! ### Settings never fail -/

theorem parse_config (s : Settings) : s.config.parse = Request.standardParser := by
  cases h : s.renderer? <;> simp [config, Config.ofOverrides, h, Config.override, Config.parse]

theorem sourceSeparator_config (s : Settings) : s.config.sourceSeparator = s.sourceSeparator := by
  cases h : s.renderer? <;> simp [config, Config.ofOverrides, h, Config.override]

theorem targetSeparator_config (s : Settings) : s.config.targetSeparator = s.targetSeparator := by
  cases h : s.renderer? <;> simp [config, Config.ofOverrides, h, Config.override]

theorem render_config (s : Settings) : s.config.render = s.renderer?.getD Renderer.standard := by
  cases h : s.renderer? <;> simp [config, Config.ofOverrides, h, Config.override, Config.render]

theorem render_config_eq_ok (s : Settings) (x : Text) (d : Direction) :
    ∃ t, s.config.render x d = .ok t := by
  rw [render_config, renderer?]
  cases s.qualifier.filter fun v => v.trim ≠ [] with
  | none => exact ⟨_, rfl⟩
  | some v => exact ⟨_, rfl⟩

/-- The configuration of settings expands every directive. -/
theorem expand_eq_ok (s : Settings) (directive : Text) :
    s.config.expand (some s.fields) directive = .ok (s.clause directive) := by
  have h := Config.failure_trace (c := s.config) (fun x => ⟨_, by rw [parse_config]; rfl⟩)
    s.render_config_eq_ok (some s.fields) directive
  simp [Config.expand, Trace.fragments, h, clause, Except.map, targetSeparator_config]

end Settings
end SortClause
