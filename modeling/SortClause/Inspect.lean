import SortClause.Settings
/-!
Values as they appear in diagnostics: records with named members, single values in parentheses,
texts in quotes.  A supplied parser or renderer cannot be shown and appears as `custom`.
-/
namespace SortClause.Inspect

/-- A record with named members. -/
def record (name : Text) (members : List (Text × Text)) : Text :=
  name ++ " \x7b ".toList ++
    Text.join [',', ' '] (members.map fun m => m.1 ++ [':', ' '] ++ m.2) ++ " \x7d".toList

/-- A value in parentheses after its kind. -/
def wrapped (kind value : Text) : Text := kind ++ '(' :: value ++ [')']

/-- A value that may be missing. -/
def optional : Option Text → Text
  | none => "None".toList
  | some t => wrapped "Some".toList t

def bool (b : Bool) : Text := if b then "true".toList else "false".toList

/-- A sequence between brackets. -/
def sequence (items : List Text) : Text := '[' :: Text.join [',', ' '] items ++ [']']

def direction : Direction → Text
  | .asc => "Asc".toList
  | .desc => "Desc".toList

def rule (r : Rule) : Text :=
  record "MappingRule".toList
    [("reverse".toList, bool r.reverse),
      ("destinations".toList, sequence (r.destinations.map Text.quoted))]

/-- A step that was supplied, if one was. -/
def supplied {α : Type} (x : Option α) : Text :=
  optional (x.map fun _ => Text.quoted "custom".toList)

def override : Override → Text
  | .sourceSeparator σ => wrapped "SourceSeparator".toList σ.quoted
  | .targetSeparator τ => wrapped "TargetSeparator".toList τ.quoted
  | .parser p => wrapped "SourceProcessor".toList (supplied p)
  | .renderer r => wrapped "TargetProcessor".toList (supplied r)

def config (c : Config) : Text :=
  record "TranslationConfig".toList
    [("source_separator".toList, c.sourceSeparator.quoted),
      ("target_separator".toList, c.targetSeparator.quoted),
      ("custom_source_processor".toList, bool c.parser?.isSome),
      ("custom_target_processor".toList, bool c.renderer?.isSome)]

def qualifier (q : Qualifier) : Text :=
  record "VariablePrefixProcessor".toList [("variable".toList, q.name.quoted)]

def finding (f : Finding) : Text :=
  record "ValidationError".toList
    [("field_path".toList, f.path.quoted), ("message".toList, f.message.quoted)]

end SortClause.Inspect
