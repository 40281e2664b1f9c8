/-!
Texts and their blank characters.  A text is a list of characters, so that every rule below is a
recursion on lists.  Blank are the 25 characters with the Unicode property White_Space; `trim`
removes them from both ends.  Main statement: trimming a second time changes nothing (`trim_trim`).
-/
namespace SortClause

/-- A text is the list of its characters. -/
abbrev Text := List Char

namespace Text

/-- The characters with the Unicode property White_Space. -/
def isBlankChar (c : Char) : Bool :=
  let n := c.toNat
  (0x09 ≤ n && n ≤ 0x0D) || n == 0x20 || n == 0x85 || n == 0xA0 || n == 0x1680
    || (0x2000 ≤ n && n ≤ 0x200A) || n == 0x2028 || n == 0x2029 || n == 0x202F
    || n == 0x205F || n == 0x3000

/-- The text from its first character that is not blank. -/
def trimStart (t : Text) : Text := t.dropWhile isBlankChar

/-- The text up to its last character that is not blank. -/
def trimEnd (t : Text) : Text := (t.reverse.dropWhile isBlankChar).reverse

/-- The text without the blank characters at its two ends. -/
def trim (t : Text) : Text := trimEnd (trimStart t)

/-- Some character is blank. -/
def hasBlank (t : Text) : Bool := t.any isBlankChar

/-! ### Trimming -/

theorem dropWhile_dropWhile (p : Char → Bool) (t : Text) :
    (t.dropWhile p).dropWhile p = t.dropWhile p := by
  induction t with
  | nil => rfl
  | cons c r ih => by_cases h : p c <;> simp [h, ih]

theorem trimEnd_trimEnd (t : Text) : trimEnd (trimEnd t) = trimEnd t := by
  simp [trimEnd, dropWhile_dropWhile]

/-- Trimming the end leaves a first character that is not blank in its place. -/
theorem trimEnd_cons (c : Char) (r : Text) (h : isBlankChar c = false) :
    trimEnd (c :: r) = c :: trimEnd r := by
  have go : ∀ s : Text, (s ++ [c]).dropWhile isBlankChar = s.dropWhile isBlankChar ++ [c] := by
    intro s
    induction s with
    | nil => simp [h]
    | cons d s ih => by_cases hd : isBlankChar d <;> simp [hd, ih]
  simp [trimEnd, go]

/-- Trimming starts with a character that is not blank, if anything is left. -/
theorem trimStart_eq_cons (t : Text) :
    trimStart t = [] ∨ ∃ c r, isBlankChar c = false ∧ trimStart t = c :: r := by
  induction t with
  | nil => exact .inl rfl
  | cons c r ih =>
    by_cases h : isBlankChar c
    · simpa [trimStart, List.dropWhile_cons, h] using ih
    · exact .inr ⟨c, r, by simpa using h, by simp [trimStart, h]⟩

/-- Trimming a second time changes nothing. -/
theorem trim_trim (t : Text) : trim (trim t) = trim t := by
  rcases trimStart_eq_cons t with h | ⟨c, r, hc, h⟩
  · simp only [trim, h]
    rfl
  · simp only [trim, h, trimEnd_cons c _ hc]
    simp only [trimStart, List.dropWhile_cons, hc, Bool.false_eq_true, if_false,
      trimEnd_cons c _ hc, trimEnd_trimEnd]

end Text
end SortClause
