import SortClause.Json.Lexeme
/-!
Reading JSON values.  `nextElement` and `nextKey` go from one element or member to the next, or
past the closing bracket; `foldMembers` runs through an object with them, and `value` reads any
value as a tree.  Nesting is bounded: the first argument of `value` is the number of brackets that
may still be open at one time, and reading is a recursion on it.
-/
namespace SortClause.Json

/-- The number of arrays and objects that may be nested. -/
def maxDepth : Nat := 127

/-- What comes next between brackets: something, or the closing bracket and the rest after it. -/
inductive Next (α : Type) where
  | item (x : α)
  | closed (rest : Text)

/-- Goes to the next element of an array, past the comma before it unless it is the first. -/
def nextElement (first : Bool) (t : Text) : Except Fault (Next Text) :=
  match skipSpace t with
  | [] => .error (.next [] .endInList)
  | ']' :: r => .ok (.closed r)
  | c :: r =>
    if first then .ok (.item (c :: r))
    else if c = ',' then
      match skipSpace r with
      | [] => .error (.next [] .endInValue)
      | ']' :: r => .error (.next (']' :: r) .trailingComma)
      | r => .ok (.item r)
    else .error (.next (c :: r) .expectedListEnd)

/-- Goes to the next member of an object and reads its name, past the comma before it unless it is
the first. -/
def nextKey (first : Bool) (t : Text) : Except Fault (Next (Text × Text)) :=
  match skipSpace t with
  | [] => .error (.next [] .endInObject)
  | '\x7d' :: r => .ok (.closed r)
  | c :: r =>
    if first then
      if c = '"' then (readString 0 r).map .item else .error (.next (c :: r) .keyNotString)
    else if c = ',' then
      match skipSpace r with
      | [] => .error (.next [] .endInValue)
      | '"' :: r => (readString 0 r).map .item
      | '\x7d' :: r => .error (.next ('\x7d' :: r) .trailingComma)
      | r => .error (.next r .keyNotString)
    else .error (.next (c :: r) .expectedObjectEnd)

/-- The rest after the colon that follows a member's name. -/
def colon (t : Text) : Except Fault Text :=
  match skipSpace t with
  | [] => .error (.next [] .endInObject)
  | ':' :: r => .ok r
  | r => .error (.next r .expectedColon)

/-- Reads elements up to the closing bracket, with at most the given number of steps. -/
def elements {α : Type} (item : Reader α) : Nat → Bool → Reader (List α)
  | 0, _, t => .error (.next t .endInList)
  | n + 1, first, t =>
    match nextElement first t with
    | .error f => .error f
    | .ok (.closed r) => .ok ([], r)
    | .ok (.item r) =>
      match item r with
      | .error f => .error f
      | .ok (x, r) => (elements item n false r).map fun (xs, rest) => (x :: xs, rest)

/-- Runs through the members up to the closing brace, with at most the given number of steps.  The
member's name and the rest after it go to `member`. -/
def foldMembers {σ : Type} (member : σ → Text → Reader σ) : Nat → Bool → σ → Reader σ
  | 0, _, _, t => .error (.next t .endInObject)
  | n + 1, first, s, t =>
    match nextKey first t with
    | .error f => .error f
    | .ok (.closed r) => .ok (s, r)
    | .ok (.item (key, r)) =>
      match member s key r with
      | .error f => .error f
      | .ok (s, r) => foldMembers member n false s r

/-- Reads an object after its opening brace.  Every step takes a character, so the steps do not run
out. -/
def members {σ : Type} (member : σ → Text → Reader σ) (start : σ) : Reader σ := fun t =>
  foldMembers member (t.length + 1) true start t

/-- Reads a member's value after the colon. -/
def memberValue {α : Type} (item : Reader α) : Reader α := fun t =>
  match colon t with
  | .error f => .error f
  | .ok r => item r

/-- Adds a member in front. -/
def pushMember (item : Reader Json) (ms : List (Text × Json)) (key : Text) :
    Reader (List (Text × Json)) := fun t =>
  (memberValue item t).map fun (x, rest) => ((key, x) :: ms, rest)

/-- Reads a value that is no array and no object, at its first character. -/
def scalar : Reader Json
  | [] => .error (.next [] .endInValue)
  | 'n' :: r => (word "ull".toList r).map fun rest => (.null, rest)
  | 't' :: r => (word "rue".toList r).map fun rest => (.bool true, rest)
  | 'f' :: r => (word "alse".toList r).map fun rest => (.bool false, rest)
  | '"' :: r => (readString 0 r).map fun (s, rest) => (.string s, rest)
  | c :: r =>
    if c = '-' ∨ c.isDigit then (readNumber (c :: r)).map fun (n, rest) => (.number n, rest)
    else .error (.next (c :: r) .expectedValue)

/-- Reads a value in which so many brackets may be open at one time. -/
def value : Nat → Reader Json
  | 0, t =>
    match skipSpace t with
    | '[' :: r => .error (.next ('[' :: r) .tooDeep)
    | '\x7b' :: r => .error (.next ('\x7b' :: r) .tooDeep)
    | t => scalar t
  | depth + 1, t =>
    match skipSpace t with
    | '[' :: r =>
      (elements (value depth) (r.length + 1) true r).map fun (xs, rest) => (.array xs, rest)
    | '\x7b' :: r =>
      (members (pushMember (value depth)) [] r).map fun (ms, rest) => (.object ms.reverse, rest)
    | t => scalar t

/-! ### Documents -/

/-- Reads a document that is one value, with nothing but blanks around it. -/
def document {α : Type} (item : Reader α) (t : Text) : Except Error α :=
  match item t with
  | .error f => .error (f.locateIn t)
  | .ok (x, rest) =>
    match skipSpace rest with
    | [] => .ok x
    | rest => .error ((Fault.next rest .trailingCharacters).locateIn t)

end SortClause.Json
