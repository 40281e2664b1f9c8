import SortClause.Config
import SortClause.Dictionary
import SortClause.Text.Split
import SortClause.Trace
/-!
From a directive to a sort clause.  A directive is cut at the source separator into candidates; each
is read as a request, its field is looked up in the dictionary, and the destinations of the rule are
written in the requested direction, turned round if the rule says so.  Fields that are not sortable
and destinations written blank leave nothing.  Main statement: a directive fails only if the parser
or the renderer gives up (`failure_trace`).
-/
namespace SortClause

/-- The candidates of a directive: its pieces at the separator `σ`, trimmed, blank ones left out. -/
def candidates (σ directive : Text) : List Text :=
  ((Text.split σ directive.trim).map Text.trim).filter (· ≠ [])

namespace Config

/-- Writes one destination; what is blank is dropped. -/
def traceDestination (c : Config) (d : Direction) (destination : Text) : Trace :=
  match c.render destination d with
  | .error f => .halt f
  | .ok written =>
    if written.trim = [] then .step (.dropped destination) else .step (.kept written.trim)

/-- Writes the destinations of a rule in order. -/
def traceRule (c : Config) (d : Direction) (r : Rule) : Trace :=
  .concat (r.destinations.map (c.traceDestination (r.direction d)))

/-- Reads one candidate and writes what its field stands for. -/
def traceCandidate (c : Config) (dict : Dictionary) (candidate : Text) : Trace :=
  match c.parse candidate with
  | .error f => .halt f
  | .ok request =>
    match dict.sortable? request.field with
    | none => .step (.skipped request.field)
    | some r => c.traceRule request.direction r

/-- Works through a directive.  Nothing is done without a dictionary or with an empty one. -/
def trace (c : Config) (dict : Option Dictionary) (directive : Text) : Trace :=
  match dict with
  | none => .empty
  | some d =>
    if d.isEmpty then .empty
    else .concat ((candidates c.sourceSeparator directive).map (c.traceCandidate d))

/-- The sort clause of a directive: its fragments, joined with the target separator. -/
def expand (c : Config) (dict : Option Dictionary) (directive : Text) :
    Except Failure Text :=
  (c.trace dict directive).fragments.map (Text.join c.targetSeparator)

/-! ### Without failures -/

theorem failure_traceRule {c : Config} (hr : ∀ x d, ∃ t, c.render x d = .ok t) (d : Direction)
    (r : Rule) : (c.traceRule d r).failure = none := by
  refine Trace.failure_concat fun t ht => ?_
  obtain ⟨x, _, rfl⟩ := List.mem_map.1 ht
  obtain ⟨w, hw⟩ := hr x (r.direction d)
  rw [traceDestination, hw]
  dsimp only
  split <;> rfl

theorem failure_traceCandidate {c : Config} (hp : ∀ x, ∃ r, c.parse x = .ok r)
    (hr : ∀ x d, ∃ t, c.render x d = .ok t) (dict : Dictionary) (candidate : Text) :
    (c.traceCandidate dict candidate).failure = none := by
  obtain ⟨q, hq⟩ := hp candidate
  rw [traceCandidate, hq]
  dsimp only
  split
  · rfl
  · exact failure_traceRule hr _ _

/-- A parser and a renderer that never give up make no trace fail. -/
theorem failure_trace {c : Config} (hp : ∀ x, ∃ r, c.parse x = .ok r)
    (hr : ∀ x d, ∃ t, c.render x d = .ok t) (dict : Option Dictionary) (directive : Text) :
    (c.trace dict directive).failure = none := by
  unfold trace
  split
  · rfl
  · split
    · rfl
    · refine Trace.failure_concat fun t ht => ?_
      obtain ⟨x, _, rfl⟩ := List.mem_map.1 ht
      exact failure_traceCandidate hp hr _ x

end Config
end SortClause
