import SortClause.Json.Ignored
import SortClause.Json.Reader
import Mathlib.Data.List.Infix
/-!
Strings, numbers and words that are passed over instead of read.  Passing over looks at less: the
second half of a surrogate pair is an escape like any other, and a number may be too large.  So
what is read can be passed over, up to the same place, but not the other way round.  Main
statements: this holds of strings (`skipString_of_readString`), of numbers (`readNumeral_of_ok`) and
of every value without brackets (`skipScalar_of_scalar`); each takes at least one character.
-/
namespace SortClause.Json

theorem map_eq_ok_iff {ε α β : Type} {f : α → β} {e : Except ε α} {y : β} :
    e.map f = .ok y ↔ ∃ x, e = .ok x ∧ f x = y := by
  cases e <;> simp [Except.map]

/-! ### Words, strings and numbers -/

theorem skipSpace_length_le (t : Text) : (skipSpace t).length ≤ t.length :=
  (List.dropWhile_suffix isSpace).length_le

theorem word_length_le {ls t rest : Text} (h : word ls t = .ok rest) : rest.length ≤ t.length := by
  induction ls generalizing t with
  | nil => exact (Except.ok.inj h) ▸ Nat.le_refl _
  | cons l ls ih =>
    cases t with
    | nil => cases h
    | cons c r =>
      rw [word] at h
      split_ifs at h
      exact Nat.le_succ_of_le (ih h)

theorem fourHex_eq_ok {t rest : Text} {n : Nat} (h : fourHex t = .ok (n, rest)) :
    ∃ a b c d, t = a :: b :: c :: d :: rest := by
  unfold fourHex at h
  split_ifs at h
  split at h
  · split at h
    · obtain ⟨-, rfl⟩ := Prod.mk.inj (Except.ok.inj h)
      exact ⟨_, _, _, _, rfl⟩
    · cases h
  · cases h

theorem lowSurrogate_eq_ok {t : Text} {n : Nat} (h : lowSurrogate t = .ok n) :
    ∃ a b c d rest m, t = '\\' :: 'u' :: a :: b :: c :: d :: rest ∧
      fourHex (a :: b :: c :: d :: rest) = .ok (m, rest) := by
  unfold lowSurrogate at h
  split at h
  · cases h
  · cases h
  · rename_i r
    split at h
    · cases h
    · rename_i m rest hr
      obtain ⟨a, b, c, d, rfl⟩ := fourHex_eq_ok hr
      exact ⟨a, b, c, d, rest, m, rfl, hr⟩
  · cases h
  · cases h

/-- An escape that is read can be passed over, and so can all of it. -/
theorem skipString_escape {t : Text} {x : Char} {n : Nat} (h : escape t = .ok (x, n)) :
    ∃ m, escapeLength t = .ok m ∧ skipString m t = skipString n t := by
  unfold escape at h
  split at h
  · cases h
  · rename_i r
    cases hr : fourHex r with
    | error f => simp [hr] at h
    | ok p =>
      obtain ⟨k, rest⟩ := p
      simp only [hr] at h
      refine ⟨5, by rw [escapeLength, hr]; rfl, ?_⟩
      split_ifs at h
      · split at h
        · cases h
        · rename_i low hlow
          obtain ⟨-, rfl⟩ := Prod.mk.inj (Except.ok.inj h)
          obtain ⟨a, b, c, d, rfl⟩ := fourHex_eq_ok hr
          obtain ⟨a', b', c', d', rest', k', rfl, hk⟩ := lowSurrogate_eq_ok hlow
          have hpass : escapeLength ('u' :: a' :: b' :: c' :: d' :: rest') = .ok 5 := by
            rw [escapeLength, hk]
            rfl
          simp [skipString, hpass]
      · obtain ⟨-, rfl⟩ := Prod.mk.inj (Except.ok.inj h)
        rfl
  · rename_i c r _
    cases hc : shortEscape? c with
    | none => simp [hc] at h
    | some y =>
      simp only [hc] at h
      obtain ⟨-, rfl⟩ := Prod.mk.inj (Except.ok.inj h)
      exact ⟨1, by simp [escapeLength, hc], rfl⟩

/-- A string that is read can be passed over. -/
theorem skipString_of_readString : ∀ {t : Text} {n : Nat} {s rest : Text},
    readString n t = .ok (s, rest) → skipString n t = .ok rest ∧ rest.length < t.length
  | [], n, s, rest, h => by cases n <;> cases h
  | c :: r, n + 1, s, rest, h => by
    obtain ⟨hskip, hlen⟩ := skipString_of_readString (t := r) h
    exact ⟨hskip, Nat.lt_succ_of_lt hlen⟩
  | c :: r, 0, s, rest, h => by
    rw [readString] at h
    rw [skipString]
    split_ifs at h ⊢ with hquote hescape hcontrol
    · obtain ⟨-, rfl⟩ := Prod.mk.inj (Except.ok.inj h)
      exact ⟨rfl, Nat.lt_succ_self _⟩
    · cases he : escape r with
      | error f => simp [he] at h
      | ok p =>
        obtain ⟨x, n⟩ := p
        simp only [he] at h
        obtain ⟨⟨s', rest'⟩, hr, e⟩ := map_eq_ok_iff.1 h
        obtain ⟨-, rfl⟩ := Prod.mk.inj e
        obtain ⟨m, hm, hskip⟩ := skipString_escape he
        obtain ⟨hpass, hlen⟩ := skipString_of_readString (t := r) hr
        simp only [hm]
        exact ⟨hskip.trans hpass, Nat.lt_succ_of_lt hlen⟩
    · obtain ⟨⟨s', rest'⟩, hr, e⟩ := map_eq_ok_iff.1 h
      obtain ⟨-, rfl⟩ := Prod.mk.inj e
      obtain ⟨hskip, hlen⟩ := skipString_of_readString (t := r) hr
      exact ⟨hskip, Nat.lt_succ_of_lt hlen⟩

/-! Numbers may be cut off for another cause, but are read the same. -/

theorem digits_length_le (t : Text) : (digits t).2.length ≤ t.length :=
  (List.dropWhile_suffix Char.isDigit).length_le

theorem wholePart_of_ok {cut : Cause} {t rest : Text} {ds : List Nat}
    (h : wholePart cut t = .ok (ds, rest)) (cut' : Cause) :
    wholePart cut' t = .ok (ds, rest) ∧ rest.length < t.length := by
  cases t with
  | nil => cases h
  | cons c r =>
    by_cases hc : c = '0'
    · subst hc
      refine ⟨h, ?_⟩
      rw [wholePart] at h
      split_ifs at h
      obtain ⟨-, rfl⟩ := Prod.mk.inj (Except.ok.inj h)
      exact Nat.lt_succ_self _
    · have hwhole : ∀ cut, wholePart cut (c :: r) = if c.isDigit then .ok (digits (c :: r)) else
          .error (.next (c :: r) .invalidNumber) := fun cut => by simp [wholePart]
      rw [hwhole] at h ⊢
      refine ⟨h, ?_⟩
      split_ifs at h with hd
      obtain ⟨-, rfl⟩ := Prod.mk.inj (Except.ok.inj h)
      rw [List.dropWhile_cons_of_pos hd]
      exact Nat.lt_succ_of_le (List.dropWhile_suffix _).length_le

theorem fractionPart_of_ok {cut : Cause} {t rest : Text} {ds : List Nat}
    (h : fractionPart cut t = .ok (ds, rest)) (cut' : Cause) :
    fractionPart cut' t = .ok (ds, rest) ∧ rest.length ≤ t.length := by
  cases t with
  | nil =>
    obtain ⟨-, rfl⟩ := Prod.mk.inj (Except.ok.inj h)
    exact ⟨h, Nat.le_refl _⟩
  | cons c r =>
    by_cases hc : c = '.'
    · subst hc
      rw [fractionPart] at h ⊢
      have hlen := digits_length_le r
      cases hd : digits r with
      | mk ds' rest' =>
        rw [hd] at h hlen
        cases ds' with
        | nil => cases rest' <;> cases h
        | cons d ds' =>
          obtain ⟨rfl, rfl⟩ := Prod.mk.inj (Except.ok.inj h)
          exact ⟨rfl, Nat.le_succ_of_le hlen⟩
    · have hnone : ∀ cut, fractionPart cut (c :: r) = .ok ([], c :: r) :=
        fun cut => by simp [fractionPart, hc]
      rw [hnone] at h ⊢
      obtain ⟨-, rfl⟩ := Prod.mk.inj (Except.ok.inj h)
      exact ⟨h, Nat.le_refl _⟩

theorem exponentDigits_of_ok {cut : Cause} {negative : Bool} {t rest : Text} {x : Option Exponent}
    (h : exponentDigits cut negative t = .ok (x, rest)) (cut' : Cause) :
    exponentDigits cut' negative t = .ok (x, rest) ∧ rest.length ≤ t.length := by
  rw [exponentDigits] at h ⊢
  have hlen := digits_length_le t
  cases hd : digits t with
  | mk ds rest' =>
    rw [hd] at h hlen
    cases ds with
    | nil => cases rest' <;> cases h
    | cons d ds =>
      obtain ⟨rfl, rfl⟩ := Prod.mk.inj (Except.ok.inj h)
      exact ⟨rfl, hlen⟩

theorem exponentPart_letter {c : Char} (hc : c = 'e' ∨ c = 'E') (r : Text) :
    ∃ negative r', List.length r' ≤ r.length ∧
      ∀ cut, exponentPart cut (c :: r) = exponentDigits cut negative r' := by
  cases r with
  | nil => exact ⟨false, [], Nat.le_refl _, fun cut => by simp [exponentPart, hc]⟩
  | cons d r =>
    by_cases hplus : d = '+'
    · subst hplus
      exact ⟨false, r, Nat.le_succ _, fun cut => by simp [exponentPart, hc]⟩
    · by_cases hminus : d = '-'
      · subst hminus
        exact ⟨true, r, Nat.le_succ _, fun cut => by simp [exponentPart, hc]⟩
      · refine ⟨false, d :: r, Nat.le_refl _, fun cut => ?_⟩
        unfold exponentPart
        dsimp only
        rw [if_pos hc]
        split
        · rename_i e
          exact absurd (List.cons.inj e).1 hplus
        · rename_i e
          exact absurd (List.cons.inj e).1 hminus
        · rfl

theorem exponentPart_of_ok {cut : Cause} {t rest : Text} {x : Option Exponent}
    (h : exponentPart cut t = .ok (x, rest)) (cut' : Cause) :
    exponentPart cut' t = .ok (x, rest) ∧ rest.length ≤ t.length := by
  cases t with
  | nil =>
    obtain ⟨-, rfl⟩ := Prod.mk.inj (Except.ok.inj h)
    exact ⟨h, Nat.le_refl _⟩
  | cons c r =>
    by_cases hc : c = 'e' ∨ c = 'E'
    · obtain ⟨negative, r', hr, he⟩ := exponentPart_letter hc r
      rw [he] at h ⊢
      obtain ⟨hdigits, hlen⟩ := exponentDigits_of_ok h cut'
      exact ⟨hdigits, (hlen.trans hr).trans (Nat.le_succ _)⟩
    · have hnone : ∀ cut, exponentPart cut (c :: r) = .ok (none, c :: r) :=
        fun cut => by simp [exponentPart, hc]
      rw [hnone] at h ⊢
      obtain ⟨-, rfl⟩ := Prod.mk.inj (Except.ok.inj h)
      exact ⟨h, Nat.le_refl _⟩

theorem readNumeral_of_ok {cut : Cause} {t rest : Text} {n : Numeral}
    (h : readNumeral cut t = .ok (n, rest)) (cut' : Cause) :
    readNumeral cut' t = .ok (n, rest) ∧ rest.length < t.length := by
  unfold readNumeral at h ⊢
  split at h
  rename_i negative u hsign
  have hu : u.length ≤ t.length := by
    split at hsign
    · obtain ⟨-, rfl⟩ := Prod.mk.inj hsign
      exact Nat.le_succ _
    · obtain ⟨-, rfl⟩ := Prod.mk.inj hsign
      exact Nat.le_refl _
  cases hwhole : wholePart cut u with
  | error f => simp [hwhole] at h
  | ok w =>
    obtain ⟨whole, v⟩ := w
    simp only [hwhole] at h
    cases hfraction : fractionPart cut v with
    | error f => simp [hfraction] at h
    | ok w =>
      obtain ⟨fraction, v'⟩ := w
      simp only [hfraction] at h
      cases hexponent : exponentPart cut v' with
      | error f => simp [hexponent] at h
      | ok w =>
        obtain ⟨exponent, v''⟩ := w
        simp only [hexponent] at h
        obtain ⟨hwhole, hv⟩ := wholePart_of_ok hwhole cut'
        obtain ⟨hfraction, hv'⟩ := fractionPart_of_ok hfraction cut'
        obtain ⟨hexponent, hv''⟩ := exponentPart_of_ok hexponent cut'
        obtain ⟨rfl, rfl⟩ := Prod.mk.inj (Except.ok.inj h)
        simp only [hwhole, hfraction, hexponent, true_and]
        omega

theorem readNumber_of_ok {t rest : Text} {n : Numeral} (h : readNumber t = .ok (n, rest)) :
    readNumeral .endInValue t = .ok (n, rest) := by
  unfold readNumber at h
  cases hr : readNumeral .endInValue t with
  | error f => simp [hr] at h
  | ok p =>
    simp only [hr] at h
    split_ifs at h
    exact h

/-- A value that is no array and no object, once read, can be passed over. -/
theorem skipScalar_of_scalar {t rest : Text} {x : Json} (h : scalar t = .ok (x, rest)) :
    skipScalar t = .ok rest ∧ rest.length < t.length := by
  have hword : ∀ {ls r : Text} {x y : Json},
      ((word ls r).map fun rest => (y, rest)) = .ok (x, rest) →
        word ls r = .ok rest ∧ rest.length < r.length + 1 := by
    intro ls r x y h
    obtain ⟨rest', hr, e⟩ := map_eq_ok_iff.1 h
    obtain ⟨-, rfl⟩ := Prod.mk.inj e
    exact ⟨hr, Nat.lt_succ_of_le (word_length_le hr)⟩
  unfold scalar at h
  unfold skipScalar
  split at h
  · cases h
  · exact hword h
  · exact hword h
  · exact hword h
  · obtain ⟨⟨s, rest'⟩, hr, e⟩ := map_eq_ok_iff.1 h
    obtain ⟨-, rfl⟩ := Prod.mk.inj e
    obtain ⟨hskip, hlen⟩ := skipString_of_readString hr
    exact ⟨hskip, Nat.lt_succ_of_lt hlen⟩
  · split_ifs at h with hnumber
    obtain ⟨⟨n, rest'⟩, hr, e⟩ := map_eq_ok_iff.1 h
    obtain ⟨-, rfl⟩ := Prod.mk.inj e
    obtain ⟨hskip, hlen⟩ := readNumeral_of_ok (readNumber_of_ok hr) .invalidNumber
    simp only [if_pos hnumber, hskip]
    exact ⟨rfl, hlen⟩

end SortClause.Json
