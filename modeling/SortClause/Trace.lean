import SortClause.Request
/-!
What happens while a directive is worked through: a list of steps, which a failure may cut short.
Traces are put one after another (`Trace.append`), and nothing follows a failure.  Main statements:
`append` is associative with the empty trace as its unit, so traces may be cut and joined anywhere.
-/
namespace SortClause

/-- One event in the working of a directive. -/
inductive Step where
  /-- The field of a candidate is not sortable. -/
  | skipped (field : Text)
  /-- A destination was written blank. -/
  | dropped (destination : Text)
  /-- A destination became a fragment of the sort clause. -/
  | kept (fragment : Text)
  deriving DecidableEq, Repr

/-- The fragment that a step contributes. -/
def Step.fragment? : Step → Option Text
  | kept fragment => some fragment
  | _ => none

/-- The steps taken, and the failure that ended them, if one did. -/
structure Trace where
  steps : List Step
  failure : Option Failure := none
  deriving DecidableEq, Repr

namespace Trace

def empty : Trace := ⟨[], none⟩

/-- A single step. -/
def step (s : Step) : Trace := ⟨[s], none⟩

/-- A failure before any step. -/
def halt (f : Failure) : Trace := ⟨[], some f⟩

/-- The second trace after the first, unless the first one failed. -/
def append (s t : Trace) : Trace :=
  match s.failure with
  | some _ => s
  | none => ⟨s.steps ++ t.steps, t.failure⟩

/-- The traces one after another. -/
def concat : List Trace → Trace
  | [] => empty
  | t :: ts => t.append (concat ts)

/-- The fragments of the steps taken, in order. -/
def kept (t : Trace) : List Text := t.steps.filterMap Step.fragment?

/-- The fragments of a trace that did not fail. -/
def fragments (t : Trace) : Except Failure (List Text) :=
  match t.failure with
  | some f => .error f
  | none => .ok t.kept

@[simp]
theorem kept_empty : empty.kept = [] := rfl

@[simp]
theorem kept_halt (f : Failure) : (halt f).kept = [] := rfl

@[simp]
theorem kept_step (s : Step) : (step s).kept = s.fragment?.toList := by
  cases s <;> rfl

@[simp]
theorem empty_append (t : Trace) : empty.append t = t := rfl

@[simp]
theorem append_empty (t : Trace) : t.append empty = t := by
  rcases t with ⟨steps, _ | f⟩ <;> simp [append, empty]

theorem append_assoc (s t u : Trace) : (s.append t).append u = s.append (t.append u) := by
  rcases s with ⟨_, _ | _⟩ <;> rcases t with ⟨_, _ | _⟩ <;> simp [append]

theorem concat_append (xs ys : List Trace) :
    concat (xs ++ ys) = (concat xs).append (concat ys) := by
  induction xs with
  | nil => rfl
  | cons t ts ih => rw [List.cons_append, concat, concat, ih, append_assoc]

/-- Traces without a failure make one without a failure. -/
theorem failure_concat : ∀ {ts : List Trace}, (∀ t ∈ ts, t.failure = none) →
    (concat ts).failure = none
  | [], _ => rfl
  | t :: ts, h => by
    rw [concat, append, h t List.mem_cons_self]
    exact failure_concat fun u hu => h u (List.mem_cons_of_mem _ hu)

end Trace
end SortClause
