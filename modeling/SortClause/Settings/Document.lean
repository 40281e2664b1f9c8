import SortClause.Json.Ignored
import SortClause.Json.Printer
import SortClause.Json.Reader
import SortClause.Settings
/-!
Rules, dictionaries and settings as JSON documents.  A rule is an array of destinations, or an
object with the member `destinations` and perhaps `reverse`; a dictionary is an object of rules,
of which the last of one name counts; settings are an object with any of four members, others
being passed over, or an array of their values in order.  `toJson` writes the object forms.
-/
namespace SortClause

open Json

/-! ### Rules -/

/-- The text of a JSON string. -/
def Json.string? : Json → Option Text
  | .string s => some s
  | _ => none

/-- The texts of an array of strings. -/
def Json.strings? : Json → Option (List Text)
  | .array xs => xs.mapM Json.string?
  | _ => none

/-- The truth value of a JSON boolean. -/
def Json.bool? : Json → Option Bool
  | .bool b => some b
  | _ => none

/-- The values of the members with this name. -/
def Json.valuesOf (name : Text) (ms : List (Text × Json)) : List Json :=
  (ms.filter (·.1 = name)).map (·.2)

namespace Rule

/-- The direction flag of a rule's members: a boolean, or nothing at all. -/
def reverseOf? (ms : List (Text × Json)) : Option Bool :=
  match Json.valuesOf "reverse".toList ms with
  | [] => some false
  | [x] => x.bool?
  | _ => none

/-- The destinations of a rule's members, given exactly once. -/
def destinationsOf? (ms : List (Text × Json)) : Option (List Text) :=
  match Json.valuesOf "destinations".toList ms with
  | [x] => x.strings?
  | _ => none

/-- The rule that a JSON value describes. -/
def ofJson? : Json → Option Rule
  | .array xs => ((Json.array xs).strings?).map (Rule.of false)
  | .object ms =>
    match reverseOf? ms, destinationsOf? ms with
    | some reverse, some destinations => some (.of reverse destinations)
    | _, _ => none
  | _ => none

/-- The object form of a rule. -/
def toJson (r : Rule) : Json :=
  .object [("reverse".toList, .bool r.reverse),
    ("destinations".toList, .array (r.destinations.map .string))]

/-- Reads a rule in which so many brackets may be open at one time.  The value is read completely
before it is looked at. -/
def read (depth : Nat) : Reader Rule := fun t =>
  match Json.value depth t with
  | .error f => .error f
  | .ok (x, rest) =>
    match ofJson? x with
    | some r => .ok (r, rest)
    | none => .error (.ofValue rest .noRule)

end Rule

/-! ### Values of the wrong type -/

/-- The fault of a value that is not what was expected.  A number, string or word is read first and
may have a fault of its own; brackets are not entered. -/
def Json.mismatch (expected : Expected) (t : Text) : Fault :=
  match t with
  | '[' :: _ => .after t (.wrongType .sequence expected)
  | '\x7b' :: _ => .after t (.wrongType .map expected)
  | t =>
    match Json.scalar t with
    | .error f => f
    | .ok (x, rest) =>
      match x with
      | .bool b => .after rest (.wrongType (.bool b) expected)
      | .number n =>
        match n.number? with
        | some v => .after rest (.wrongType (.number v) expected)
        | none => .after rest .outOfRange
      | .string s => .after rest (.wrongType (.string s) expected)
      | _ => .after rest (.wrongType .null expected)

/-- Reads a string. -/
def Json.readText : Reader Text := fun t =>
  match skipSpace t with
  | '"' :: r => readString 0 r
  | t => .error (mismatch .string t)

/-- Reads a string or `null`. -/
def Json.readOptionalText : Reader (Option Text) := fun t =>
  match skipSpace t with
  | 'n' :: r => (word "ull".toList r).map fun rest => (none, rest)
  | t => (readText t).map fun (s, rest) => (some s, rest)

/-- Gives a fault without a place the place after the blanks that follow and the closing brace of
the object it was raised in. -/
def Json.Fault.settle (f : Fault) : Fault :=
  match f.place with
  | .before _ => f
  | .loose rest =>
    match skipSpace rest with
    | '\x7d' :: r => .after r f.cause
    | r => .after r f.cause

/-- The outcome with its fault settled. -/
def Json.settled {α : Type} : Except Fault α → Except Fault α
  | .error f => .error f.settle
  | .ok x => .ok x

/-! ### Dictionaries -/

namespace Dictionary

/-- Reads the rule of one member into the dictionary. -/
def readMember (depth : Nat) (d : Dictionary) (key : Text) : Reader Dictionary := fun t =>
  (memberValue (Rule.read depth) t).map fun (r, rest) => (d.insert key r, rest)

/-- Reads a dictionary whose rules may have so many brackets open at one time. -/
def read (depth : Nat) : Reader Dictionary := fun t =>
  match skipSpace t with
  | '\x7b' :: r => settled (members (readMember depth) empty r)
  | t => .error (mismatch .map t)

/-- The object form of a dictionary. -/
def toJson (d : Dictionary) : Json := .object (d.entries.map fun e => (e.1, e.2.toJson))

end Dictionary

/-! ### Settings -/

namespace Settings

/-- The members of a settings document. -/
inductive Member where
  | sourceSeparator
  | targetSeparator
  | qualifier
  | fields
  deriving DecidableEq, Repr

namespace Member

/-- The members in the order of the array form. -/
def all : List Member := [sourceSeparator, targetSeparator, qualifier, fields]

def name : Member → Text
  | sourceSeparator => "sourceSeparator".toList
  | targetSeparator => "targetSeparator".toList
  | qualifier => "variable".toList
  | fields => "fields".toList

/-- The member of this name. -/
def ofName? (name : Text) : Option Member := all.find? fun m => m.name = name

end Member

/-- Settings as far as they have been read. -/
structure Draft where
  sourceSeparator : Option Text := none
  targetSeparator : Option Text := none
  qualifier : Option (Option Text) := none
  fields : Option Dictionary := none

namespace Draft

/-- The member has been read. -/
def has (d : Draft) : Member → Bool
  | .sourceSeparator => d.sourceSeparator.isSome
  | .targetSeparator => d.targetSeparator.isSome
  | .qualifier => d.qualifier.isSome
  | .fields => d.fields.isSome

/-- The settings, with the defaults for members that were not read. -/
def settings (d : Draft) : Settings :=
  let base : Settings := {}
  { sourceSeparator := d.sourceSeparator.getD base.sourceSeparator
    targetSeparator := d.targetSeparator.getD base.targetSeparator
    qualifier := d.qualifier.getD base.qualifier
    fields := d.fields.getD base.fields }

end Draft

/-- Reads the value of a member into the draft. -/
def readValue (d : Draft) : Member → Reader Draft
  | .sourceSeparator => fun t =>
    (readText t).map fun (s, rest) => ({ d with sourceSeparator := some s }, rest)
  | .targetSeparator => fun t =>
    (readText t).map fun (s, rest) => ({ d with targetSeparator := some s }, rest)
  | .qualifier => fun t =>
    (readOptionalText t).map fun (v, rest) => ({ d with qualifier := some v }, rest)
  | .fields => fun t =>
    (Dictionary.read (maxDepth - 2) t).map fun (f, rest) => ({ d with fields := some f }, rest)

/-- Reads one member of the object form.  A repeated one is a fault before its value is read, and
one of another name is passed over. -/
def readMember (d : Draft) (key : Text) : Reader Draft := fun t =>
  match Member.ofName? key with
  | none =>
    match colon t with
    | .error f => .error f
    | .ok r => (skipValue r).map fun rest => (d, rest)
  | some m =>
    if d.has m then .error (.ofValue t (.repeatedMember m.name))
    else memberValue (readValue d m) t

/-- Reads the end of the array form, after its last member. -/
def readEnd (t : Text) : Except Fault Text :=
  match skipSpace t with
  | [] => .error (.next [] .endInList)
  | ']' :: r => .ok r
  | ',' :: r =>
    match skipSpace r with
    | ']' :: r => .error (.next (']' :: r) .trailingComma)
    | r => .error (.next r .trailingCharacters)
  | r => .error (.next r .trailingCharacters)

/-- Reads the array form: values of the given members, the last ones perhaps missing. -/
def readArray : List Member → Bool → Draft → Reader Draft
  | [], _, d, t => (readEnd t).map fun rest => (d, rest)
  | m :: ms, first, d, t =>
    match nextElement first t with
    | .error f => .error f
    | .ok (.closed r) => .ok (d, r)
    | .ok (.item r) =>
      match readValue d m r with
      | .error f => .error f
      | .ok (d, r) => readArray ms false d r

/-- Reads settings in either form. -/
def read : Reader Settings := fun t =>
  match skipSpace t with
  | '\x7b' :: r => (settled (members readMember {} r)).map fun (d, rest) => (d.settings, rest)
  | '[' :: r => (readArray Member.all true {} r).map fun (d, rest) => (d.settings, rest)
  | t => .error (mismatch .settings t)

/-- The object form of settings. -/
def toJson (s : Settings) : Json :=
  .object [(Member.sourceSeparator.name, .string s.sourceSeparator),
    (Member.targetSeparator.name, .string s.targetSeparator),
    (Member.qualifier.name, match s.qualifier with | some v => .string v | none => .null),
    (Member.fields.name, s.fields.toJson)]

/-- The settings of a document. -/
def ofText (t : Text) : Except Json.Error Settings := document read t

/-- The document of settings. -/
def toText (s : Settings) : Text := s.toJson.text

end Settings

/-- The dictionary of a document. -/
def Dictionary.ofText (t : Text) : Except Json.Error Dictionary :=
  document (Dictionary.read (maxDepth - 1)) t

/-- The rule of a document. -/
def Rule.ofText (t : Text) : Except Json.Error Rule := document (Rule.read maxDepth) t

end SortClause
