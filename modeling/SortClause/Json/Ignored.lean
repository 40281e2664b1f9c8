import SortClause.Json.Lexeme
/-!
Passing over a JSON value that will not be used.  No tree is built and nesting is not bounded: the
open brackets are kept on a stack, innermost first.  `settle` closes the brackets that end after a
value and stops where the next value is due; the value is over when no bracket is open.
-/
namespace SortClause.Json

/-- An open bracket. -/
inductive Bracket where
  | list
  | map
  deriving DecidableEq, Repr

namespace Bracket

def closing : Bracket → Char
  | list => ']'
  | map => '\x7d'

/-- The cause when the document ends where the bracket may close. -/
def atEnd : Bracket → Cause
  | list => .endInList
  | map => .endInObject

/-- The cause when neither a comma nor the closing bracket follows a value. -/
def noEnd : Bracket → Cause
  | list => .expectedListEnd
  | map => .expectedObjectEnd

end Bracket

/-- Goes to the value that is due inside a bracket: past the name and the colon of a member. -/
def dueValue (b : Bracket) (t : Text) : Except Fault Text :=
  match b with
  | .list => .ok t
  | .map =>
    match skipSpace t with
    | [] => .error (.next [] .endInObject)
    | '"' :: r =>
      match skipString 0 r with
      | .error f => .error f
      | .ok r =>
        match skipSpace r with
        | [] => .error (.next [] .endInObject)
        | ':' :: r => .ok r
        | r => .error (.next r .expectedColon)
    | r => .error (.next r .keyNotString)

/-- Closes brackets up to the place where another value is due; the brackets still open there.  A
comma may come first if a value stands before it in the innermost bracket. -/
def settle : List Bracket → Bool → Text → Except Fault (List Bracket × Text)
  | [], _, t => .ok ([], t)
  | b :: outer, comma, t =>
    match skipSpace t with
    | [] => .error (.next [] b.atEnd)
    | c :: r =>
      if comma ∧ c = ',' then (dueValue b r).map fun r => (b :: outer, r)
      else if c = b.closing then settle outer true r
      else if comma then .error (.next (c :: r) b.noEnd)
      else (dueValue b (c :: r)).map fun r => (b :: outer, r)

/-- Passes over a value that is no array and no object, at its first character. -/
def skipScalar : Text → Except Fault Text
  | [] => .error (.next [] .endInValue)
  | 'n' :: r => word "ull".toList r
  | 't' :: r => word "rue".toList r
  | 'f' :: r => word "alse".toList r
  | '"' :: r => skipString 0 r
  | c :: r =>
    if c = '-' ∨ c.isDigit then (readNumeral .invalidNumber (c :: r)).map (·.2)
    else .error (.next (c :: r) .expectedValue)

/-- Passes over one scalar or opening bracket, and over what closes after it. -/
def skipToDue (stack : List Bracket) (t : Text) : Except Fault (List Bracket × Text) :=
  match skipSpace t with
  | '[' :: r => settle (.list :: stack) false r
  | '\x7b' :: r => settle (.map :: stack) false r
  | t =>
    match skipScalar t with
    | .error f => .error f
    | .ok r => settle stack true r

/-- Passes over what the open brackets still hold, with at most the given number of values. -/
def skipAll : Nat → List Bracket → Text → Except Fault Text
  | 0, _, t => .error (.next t .endInValue)
  | n + 1, stack, t =>
    match skipToDue stack t with
    | .error f => .error f
    | .ok ([], r) => .ok r
    | .ok (b :: outer, r) => skipAll n (b :: outer) r

/-- The rest after a value.  Each step takes a character, so the steps do not run out. -/
def skipValue (t : Text) : Except Fault Text := skipAll (t.length + 1) [] t

end SortClause.Json
