import SortClause.Json.Fault
/-!
The smallest parts of a JSON document: blanks, words, strings and numbers, each read off the front
of the rest of the document.  Blanks are the space, the tab, the line feed and the carriage return
only. A string or a number that will not be used may be read leniently: escapes are then looked at
less closely and numbers have no range.
-/
namespace SortClause.Json

/-- Reads something off the front of the rest of a document. -/
abbrev Reader (α : Type) := Text → Except Fault (α × Text)

def isSpace (c : Char) : Bool := c == ' ' || c == '\t' || c == '\n' || c == '\r'

/-- The rest after blanks. -/
def skipSpace (t : Text) : Text := t.dropWhile isSpace

/-- The rest after the letters of a word, of which the first has been read. -/
def word : Text → Text → Except Fault Text
  | [], t => .ok t
  | _ :: _, [] => .error (.after [] .endInValue)
  | l :: ls, c :: r => if c = l then word ls r else .error (.next (c :: r) .expectedWord)

/-! ### Strings -/

/-- The value of a hexadecimal digit. -/
def hexValue? (c : Char) : Option Nat :=
  if '0' ≤ c ∧ c ≤ '9' then some (c.toNat - '0'.toNat)
  else if 'a' ≤ c ∧ c ≤ 'f' then some (c.toNat - 'a'.toNat + 10)
  else if 'A' ≤ c ∧ c ≤ 'F' then some (c.toNat - 'A'.toNat + 10)
  else none

/-- The value of four hexadecimal digits, which take four bytes. -/
def fourHex (t : Text) : Except Fault (Nat × Text) :=
  if Text.byteLength t < 4 then .error (.after [] .endInString)
  else
    match t with
    | a :: b :: c :: d :: r =>
      match hexValue? a, hexValue? b, hexValue? c, hexValue? d with
      | some a, some b, some c, some d => .ok (((a * 16 + b) * 16 + c) * 16 + d, r)
      | _, _, _, _ => .error (.past 4 t .invalidEscape)
    | _ => .error (.past 4 t .invalidEscape)

/-- The second of two surrogates, right after the first. -/
def lowSurrogate (t : Text) : Except Fault Nat :=
  match t with
  | [] => .error (.after [] .endInString)
  | '\\' :: [] => .error (.after [] .endInString)
  | '\\' :: 'u' :: r =>
    match fourHex r with
    | .error f => .error f
    | .ok (n, r) => if 0xDC00 ≤ n ∧ n ≤ 0xDFFF then .ok n else .error (.after r .loneSurrogate)
  | '\\' :: r => .error (.next r .endOfSurrogate)
  | t => .error (.next t .endOfSurrogate)

/-- The character that a letter after a backslash stands for. -/
def shortEscape? (c : Char) : Option Char :=
  match c with
  | '"' => some '"'
  | '\\' => some '\\'
  | '/' => some '/'
  | 'b' => some '\x08'
  | 'f' => some '\x0c'
  | 'n' => some '\n'
  | 'r' => some '\r'
  | 't' => some '\t'
  | _ => none

/-- The character of an escape and how many characters it takes after the backslash. -/
def escape (t : Text) : Except Fault (Char × Nat) :=
  match t with
  | [] => .error (.after [] .endInString)
  | 'u' :: r =>
    match fourHex r with
    | .error f => .error f
    | .ok (n, rest) =>
      if 0xDC00 ≤ n ∧ n ≤ 0xDFFF then .error (.after rest .loneSurrogate)
      else if 0xD800 ≤ n ∧ n ≤ 0xDBFF then
        match lowSurrogate rest with
        | .error f => .error f
        | .ok low => .ok (Char.ofNat (0x10000 + (n - 0xD800) * 0x400 + (low - 0xDC00)), 11)
      else .ok (Char.ofNat n, 5)
  | c :: r =>
    match shortEscape? c with
    | some x => .ok (x, 1)
    | none => .error (.next (c :: r) .invalidEscape)

/-- The characters of a string up to its closing quote.  The number counts the characters of an
escape that are still to be passed over. -/
def readString : Nat → Reader Text
  | _, [] => .error (.after [] .endInString)
  | n + 1, _ :: r => readString n r
  | 0, c :: r =>
    if c = '"' then .ok ([], r)
    else if c = '\\' then
      match escape r with
      | .error f => .error f
      | .ok (x, n) => (readString n r).map fun (s, rest) => (x :: s, rest)
    else if c.toNat < 0x20 then .error (.after r .controlCharacter)
    else (readString 0 r).map fun (s, rest) => (c :: s, rest)

/-- How many characters an escape takes that will not be used. -/
def escapeLength (t : Text) : Except Fault Nat :=
  match t with
  | [] => .error (.after [] .endInString)
  | 'u' :: r => (fourHex r).map fun _ => 5
  | c :: r => if (shortEscape? c).isSome then .ok 1 else .error (.next (c :: r) .invalidEscape)

/-- The rest after a string that will not be used. -/
def skipString : Nat → Text → Except Fault Text
  | _, [] => .error (.after [] .endInString)
  | n + 1, _ :: r => skipString n r
  | 0, c :: r =>
    if c = '"' then .ok r
    else if c = '\\' then
      match escapeLength r with
      | .error f => .error f
      | .ok n => skipString n r
    else if c.toNat < 0x20 then .error (.after (c :: r) .controlCharacter)
    else skipString 0 r

/-! ### Numbers -/

/-- The leading decimal digits, and what follows them. -/
def digits (t : Text) : List Nat × Text :=
  ((t.takeWhile Char.isDigit).map fun c => c.toNat - '0'.toNat, t.dropWhile Char.isDigit)

/-- The digits before the point: a single zero, or digits that start with another one.  The cause
is raised where the document ends too early. -/
def wholePart (cut : Cause) (t : Text) : Except Fault (List Nat × Text) :=
  match t with
  | [] => .error (.after [] cut)
  | '0' :: r => if r.head?.any Char.isDigit then .error (.next r .invalidNumber) else .ok ([0], r)
  | c :: r => if c.isDigit then .ok (digits (c :: r)) else .error (.next (c :: r) .invalidNumber)

/-- The point and the digits after it, if there is a point. -/
def fractionPart (cut : Cause) (t : Text) : Except Fault (List Nat × Text) :=
  match t with
  | '.' :: r =>
    match digits r with
    | ([], []) => .error (.after [] cut)
    | ([], rest) => .error (.next rest .invalidNumber)
    | found => .ok found
  | t => .ok ([], t)

/-- The digits of an exponent, after its letter and sign. -/
def exponentDigits (cut : Cause) (negative : Bool) (t : Text) :
    Except Fault (Option Exponent × Text) :=
  match digits t with
  | ([], []) => .error (.after [] cut)
  | ([], rest) => .error (.next rest .invalidNumber)
  | (ds, rest) => .ok (some ⟨negative, ds⟩, rest)

/-- The exponent, if there is one. -/
def exponentPart (cut : Cause) (t : Text) : Except Fault (Option Exponent × Text) :=
  match t with
  | [] => .ok (none, [])
  | c :: r =>
    if c = 'e' ∨ c = 'E' then
      match r with
      | '+' :: r => exponentDigits cut false r
      | '-' :: r => exponentDigits cut true r
      | r => exponentDigits cut false r
    else .ok (none, c :: r)

/-- A number as written; `cut` is the cause when the document ends inside it. -/
def readNumeral (cut : Cause) (t : Text) : Except Fault (Numeral × Text) :=
  let (negative, t) := match t with
    | '-' :: r => (true, r)
    | t => (false, t)
  match wholePart cut t with
  | .error f => .error f
  | .ok (whole, t) =>
    match fractionPart cut t with
    | .error f => .error f
    | .ok (fraction, t) =>
      match exponentPart cut t with
      | .error f => .error f
      | .ok (exponent, t) => .ok (⟨negative, whole, fraction, exponent⟩, t)

/-- A number that is not too large; the fault is in its exponent if that has too many digits. -/
def readNumber : Reader Numeral := fun t =>
  match readNumeral .endInValue t with
  | .error f => .error f
  | .ok (n, rest) =>
    if n.number?.isSome then .ok (n, rest)
    else .error ⟨.outOfRange, .before (Text.byteLength rest + n.unread)⟩

end SortClause.Json
