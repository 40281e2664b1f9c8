import SortClause.Text.Quoted
import SortClause.Expansion
/-!
What is reported to an observer.  Working through a directive reports the fields that were skipped,
the destinations that were dropped and, unless it failed, the sort clause at the end; checking
settings reports fields that no directive can sort by.  Without a dictionary, or with a blank
directive, there is nothing to report.
-/
namespace SortClause

/-- How much attention an event asks for. -/
inductive Level where
  | trace
  | debug
  | warn
  deriving DecidableEq, Repr

inductive Event where
  | skipped (field : Text)
  | dropped (destination : Text)
  | expanded (directive clause : Text)
  /-- A field is in the dictionary with an empty rule. -/
  | noDestinations (key : Text)
  deriving DecidableEq, Repr

namespace Event

def level : Event → Level
  | expanded _ _ => .trace
  | skipped _ => .debug
  | dropped _ => .debug
  | noDestinations _ => .warn

def message : Event → Text
  | skipped field => "Skipping non-orderable field: ".toList ++ field.quoted
  | dropped destination =>
    "Rendered fragment for ".toList ++ destination.quoted ++ " is empty, dropped".toList
  | expanded directive clause =>
    "Translated ".toList ++ directive.quoted ++ " into ".toList ++ clause.quoted
  | noDestinations key =>
    "Field '".toList ++ key ++ "' has no destinations and will never be ordered by".toList

/-- Fragments that are kept are not reported one by one. -/
def ofStep? : Step → Option Event
  | .skipped field => some (skipped field)
  | .dropped destination => some (dropped destination)
  | .kept _ => none

end Event

/-- There is something to work on: a dictionary with an entry and a directive that is not blank. -/
def engages (dict : Option Dictionary) (directive : Text) : Bool :=
  dict.any (fun d => !d.isEmpty) && !directive.trim.isEmpty

/-- The events of working through a directive, in order. -/
def Config.events (c : Config) (dict : Option Dictionary) (directive : Text) : List Event :=
  if engages dict directive then
    (c.trace dict directive).steps.filterMap Event.ofStep? ++
      match c.expand dict directive with
      | .error _ => []
      | .ok clause => [.expanded directive.trim clause]
  else []

end SortClause
