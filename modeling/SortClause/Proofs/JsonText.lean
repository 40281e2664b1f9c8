import SortClause.Json.Printer
import SortClause.Json.Reader
import Mathlib.Tactic.SplitIfs
/-!
What is printed as JSON is read back.  `Reads item t x` says that a reader takes a text off the
front of any document and gives a value; it holds of the text of a string (`reads_stringText`), of
an object whose members are read one after the other (`Folds.reads`) and of values that are no
numbers and are not nested too deeply (`Plain.reads`).
-/
namespace SortClause.Json

variable {α β σ ι : Type}

/-! ### Strings -/

theorem hexValue?_hexDigit : ∀ n < 16, hexValue? (hexDigit n) = some n := by decide

theorem length_le_byteLength : ∀ t : Text, t.length ≤ Text.byteLength t
  | [] => Nat.le_refl 0
  | c :: r => by
    have hc := c.utf8Size_pos
    have hr := length_le_byteLength r
    rw [List.length_cons, Text.byteLength]
    omega

/-- Four hexadecimal digits are read as the character below 32 that they were written for. -/
theorem escape_hex {c : Char} (hc : c.toNat < 0x20) (t : Text) :
    escape ('u' :: '0' :: '0' :: hexDigit (c.toNat / 16) :: hexDigit (c.toNat % 16) :: t) =
      .ok (c, 5) := by
  have hbytes : ¬Text.byteLength
      ('0' :: '0' :: hexDigit (c.toNat / 16) :: hexDigit (c.toNat % 16) :: t) < 4 := by
    have h := length_le_byteLength
      ('0' :: '0' :: hexDigit (c.toNat / 16) :: hexDigit (c.toNat % 16) :: t)
    simp only [List.length_cons] at h
    omega
  have hzero : hexValue? '0' = some 0 := by decide
  have hhigh := hexValue?_hexDigit (c.toNat / 16) (by omega)
  have hlow := hexValue?_hexDigit (c.toNat % 16) (by omega)
  have hvalue : c.toNat / 16 * 16 + c.toNat % 16 = c.toNat := by omega
  rw [escape, fourHex, if_neg hbytes]
  simp only [hzero, hhigh, hlow, Nat.zero_mul, Nat.zero_add, hvalue]
  rw [if_neg (by omega), if_neg (by omega), Char.ofNat_toNat]

theorem escape_short {l c : Char} (h : shortEscape? l = some c) (t : Text) :
    escape (l :: t) = .ok (c, 1) := by
  have hu : l ≠ 'u' := by
    rintro rfl
    cases h
  simp [escape, h]

theorem readString_pass (t : Text) : ∀ u : Text, readString u.length (u ++ t) = readString 0 t
  | [] => rfl
  | _ :: u => by simpa [readString] using readString_pass t u

theorem readString_backslash {u t : Text} {c : Char} (h : escape (u ++ t) = .ok (c, u.length)) :
    readString 0 ('\\' :: (u ++ t)) = (readString 0 t).map fun (s, rest) => (c :: s, rest) := by
  rw [readString, if_neg (by decide), if_pos rfl, h]
  simp only [readString_pass]

/-- The text of a character is read as the character. -/
theorem readString_escaped (c : Char) (t : Text) :
    readString 0 (escaped c ++ t) = (readString 0 t).map fun (s, rest) => (c :: s, rest) := by
  have hshort : ∀ {l : Char}, shortEscape? l = some c →
      readString 0 (['\\', l] ++ t) = (readString 0 t).map fun (s, rest) => (c :: s, rest) :=
    fun {l} hl => readString_backslash (u := [l]) (escape_short hl t)
  rw [escaped]
  split_ifs with h₁ h₂ h₃ h₄ h₅ h₆ h₇ h₈
  · exact hshort (by rw [h₁]; rfl)
  · exact hshort (by rw [h₂]; rfl)
  · exact hshort (by rw [h₃]; rfl)
  · exact hshort (by rw [h₄]; rfl)
  · exact hshort (by rw [h₅]; rfl)
  · exact hshort (by rw [h₆]; rfl)
  · exact hshort (by rw [h₇]; rfl)
  · exact readString_backslash
      (u := ['u', '0', '0', hexDigit (c.toNat / 16), hexDigit (c.toNat % 16)]) (escape_hex h₈ t)
  · rw [List.singleton_append, readString, if_neg h₁, if_neg h₂, if_neg h₈]

/-- The characters of a string are read up to the closing quote. -/
theorem readString_text (s rest : Text) :
    readString 0 (s.flatMap escaped ++ '"' :: rest) = .ok (s, rest) := by
  induction s with
  | nil => simp [readString]
  | cons c s ih =>
    rw [List.flatMap_cons, List.append_assoc, readString_escaped, ih]
    rfl

/-! ### Texts that are read as values -/

/-- The reader takes the text, whatever comes after it, and gives the value. -/
def Reads (item : Reader α) (t : Text) (x : α) : Prop := ∀ rest, item (t ++ rest) = .ok (x, rest)

theorem Reads.map {item : Reader α} {t : Text} {x : α} (h : Reads item t x) (f : α → β) :
    Reads (fun t => (item t).map fun (x, rest) => (f x, rest)) t (f x) := by
  intro rest
  simp only [h rest]
  rfl

theorem skipSpace_cons {c : Char} (h : isSpace c = false) (t : Text) :
    skipSpace (c :: t) = c :: t := by
  rw [skipSpace, List.dropWhile_cons_of_neg (by simp [h])]

theorem text_string (s : Text) : text (.string s) = stringText s := rfl

theorem text_array (xs : List Json) : text (.array xs) = '[' :: (elementsText xs ++ [']']) := rfl

theorem text_object (ms : List (Text × Json)) :
    text (.object ms) = '\x7b' :: (membersText ms ++ ['\x7d']) := rfl

theorem stringText_append (s rest : Text) :
    stringText s ++ rest = '"' :: (s.flatMap escaped ++ '"' :: rest) := by
  simp [stringText]

theorem skipSpace_stringText (s rest : Text) :
    skipSpace (stringText s ++ rest) = '"' :: (s.flatMap escaped ++ '"' :: rest) := by
  rw [stringText_append, skipSpace_cons (by decide)]

theorem skipSpace_object (ms : List (Text × Json)) (rest : Text) :
    skipSpace (text (.object ms) ++ rest) = '\x7b' :: (membersText ms ++ ['\x7d'] ++ rest) := by
  rw [text_object, List.cons_append, skipSpace_cons (by decide)]

theorem reads_memberValue {item : Reader α} {t : Text} {x : α} (h : Reads item t x) :
    Reads (memberValue item) (':' :: t) x := by
  intro rest
  rw [memberValue, colon, List.cons_append, skipSpace_cons (by decide)]
  exact h rest

/-! ### Objects -/

/-- The text of a member. -/
def memberText (m : Text × Json) : Text := stringText m.1 ++ ':' :: text m.2

theorem membersText_cons (m : Text × Json) (ms : List (Text × Json)) :
    membersText (m :: ms) = memberText m ++ ms.flatMap fun m => ',' :: memberText m := by
  induction ms generalizing m with
  | nil => simp [membersText, memberText]
  | cons l ms ih =>
    rw [membersText, ih]
    simp [memberText]

theorem nextKey_close (first : Bool) (rest : Text) :
    nextKey first ('\x7d' :: rest) = .ok (.closed rest) := by
  rw [nextKey, skipSpace_cons (by decide)]
  rfl

theorem nextKey_first (k rest : Text) :
    nextKey true (stringText k ++ rest) = .ok (.item (k, rest)) := by
  rw [nextKey, skipSpace_stringText]
  simp [readString_text, Except.map]

theorem nextKey_comma (k rest : Text) :
    nextKey false (',' :: (stringText k ++ rest)) = .ok (.item (k, rest)) := by
  rw [nextKey, skipSpace_cons (by decide)]
  simp [skipSpace_stringText, readString_text, Except.map]

/-- Reading the members one after the other leads from one state to another. -/
inductive Folds (member : σ → Text → Reader σ) : σ → List (Text × Json) → σ → Prop
  | nil (s : σ) : Folds member s [] s
  | cons {s₀ s₁ s₂ : σ} {m : Text × Json} {ms : List (Text × Json)} :
      Reads (member s₀ m.1) (':' :: text m.2) s₁ → Folds member s₁ ms s₂ →
      Folds member s₀ (m :: ms) s₂

section

variable {member : σ → Text → Reader σ} {s s' : σ} {m : Text × Json} {ms : List (Text × Json)}

theorem Folds.foldl {f : ι → Text × Json} {g : σ → ι → σ} : ∀ {es : List ι},
    (∀ e ∈ es, ∀ s, Reads (member s (f e).1) (':' :: text (f e).2) (g s e)) →
      ∀ s, Folds member s (es.map f) (es.foldl g s)
  | [], _, s => .nil s
  | e :: _, h, s =>
    .cons (h e List.mem_cons_self s)
      (Folds.foldl (fun e' he' => h e' (List.mem_cons_of_mem e he')) (g s e))

/-- One member is read and the others are left to do. -/
theorem foldMembers_succ {first : Bool} {n : Nat} {t u : Text}
    (ht : nextKey first t = .ok (.item (m.1, ':' :: text m.2 ++ u)))
    (hm : Reads (member s m.1) (':' :: text m.2) s') :
    foldMembers member (n + 1) first s t = foldMembers member n false s' u := by
  rw [foldMembers, ht]
  simp only [hm u]

/-- The members after the first one are read up to the closing brace. -/
theorem Folds.foldMembers_eq (h : Folds member s ms s') (rest : Text) : ∀ {n : Nat},
    ((ms.flatMap fun m => ',' :: memberText m) ++ '\x7d' :: rest).length < n →
      foldMembers member n false s ((ms.flatMap fun m => ',' :: memberText m) ++ '\x7d' :: rest) =
        .ok (s', rest) := by
  induction h with
  | nil s =>
    rintro (_ | n) hn
    · omega
    · rw [List.flatMap_nil, List.nil_append, foldMembers, nextKey_close]
  | cons hm _ ih =>
    rintro (_ | n) hn
    · omega
    · rw [List.flatMap_cons, List.append_assoc, List.cons_append] at hn ⊢
      rw [foldMembers_succ (by rw [memberText, List.append_assoc, nextKey_comma]) hm]
      -- The step took a comma, so the steps do not run out.
      refine ih ?_
      rw [List.length_cons, List.length_append] at hn
      omega

/-- The text of an object is read member by member. -/
theorem Folds.reads (h : Folds member s ms s') :
    Reads (members member s) (membersText ms ++ ['\x7d']) s' := by
  intro rest
  rw [members, List.append_assoc, List.singleton_append]
  cases h with
  | nil => rw [membersText, List.nil_append, foldMembers, nextKey_close]
  | @cons _ s₁ _ m ms hm hms =>
    rw [membersText_cons, List.append_assoc]
    rw [foldMembers_succ (by rw [memberText, List.append_assoc, nextKey_first]) hm]
    refine hms.foldMembers_eq rest ?_
    rw [memberText, List.append_assoc, stringText_append]
    simp only [List.length_append, List.length_cons]
    omega

end

theorem reads_pushMember {item : Reader Json} {x : Json} (h : Reads item (text x) x) (k : Text)
    (ms : List (Text × Json)) : Reads (pushMember item ms k) (':' :: text x) ((k, x) :: ms) :=
  (reads_memberValue h).map fun x => (k, x) :: ms

/-! ### Arrays -/

theorem elementsText_cons (x : Json) (xs : List Json) :
    elementsText (x :: xs) = text x ++ xs.flatMap fun x => ',' :: text x := by
  induction xs generalizing x with
  | nil => simp [elementsText]
  | cons y xs ih =>
    rw [elementsText, ih]
    simp

/-- The text of a value begins with a character that starts a value. -/
def Begins (t : Text) : Prop := ∃ c r, t = c :: r ∧ isSpace c = false ∧ c ≠ ']'

theorem nextElement_close (first : Bool) (rest : Text) :
    nextElement first (']' :: rest) = .ok (.closed rest) := by
  rw [nextElement, skipSpace_cons (by decide)]
  rfl

theorem nextElement_first {t : Text} (h : Begins t) (rest : Text) :
    nextElement true (t ++ rest) = .ok (.item (t ++ rest)) := by
  obtain ⟨c, r, rfl, hc, hclose⟩ := h
  rw [List.cons_append, nextElement, skipSpace_cons hc]
  simp

theorem nextElement_comma {t : Text} (h : Begins t) (rest : Text) :
    nextElement false (',' :: (t ++ rest)) = .ok (.item (t ++ rest)) := by
  obtain ⟨c, r, rfl, hc, hclose⟩ := h
  rw [List.cons_append, nextElement, skipSpace_cons (by decide)]
  simp [skipSpace_cons hc, hclose]

section

variable {item : Reader Json}

theorem elements_succ {first : Bool} {n : Nat} {t u : Text} {x : Json}
    (ht : nextElement first t = .ok (.item (text x ++ u))) (hx : Reads item (text x) x) :
    elements item (n + 1) first t =
      (elements item n false u).map fun (xs, rest) => (x :: xs, rest) := by
  rw [elements, ht]
  simp only [hx u]

/-- The elements after the first one are read up to the closing bracket. -/
theorem elements_rest (rest : Text) : ∀ {xs : List Json} {n : Nat},
    (∀ x ∈ xs, Begins (text x) ∧ Reads item (text x) x) →
      ((xs.flatMap fun x => ',' :: text x) ++ ']' :: rest).length < n →
        elements item n false ((xs.flatMap fun x => ',' :: text x) ++ ']' :: rest) =
          .ok (xs, rest)
  | _, 0, _, hn => absurd hn (Nat.not_lt_zero _)
  | [], n + 1, _, _ => by
    rw [List.flatMap_nil, List.nil_append, elements, nextElement_close]
  | x :: xs, n + 1, h, hn => by
    obtain ⟨hbegins, hx⟩ := h x List.mem_cons_self
    rw [List.flatMap_cons, List.append_assoc, List.cons_append] at hn ⊢
    have hlength : ((xs.flatMap fun x => ',' :: text x) ++ ']' :: rest).length < n := by
      rw [List.length_cons, List.length_append] at hn
      omega
    rw [elements_succ (nextElement_comma hbegins _) hx,
      elements_rest rest (fun y hy => h y (List.mem_cons_of_mem x hy)) hlength]
    rfl

/-- The text of an array is read element by element. -/
theorem elements_eq {xs : List Json} (h : ∀ x ∈ xs, Begins (text x) ∧ Reads item (text x) x)
    (rest : Text) :
    elements item ((elementsText xs ++ ']' :: rest).length + 1) true
      (elementsText xs ++ ']' :: rest) = .ok (xs, rest) := by
  cases xs with
  | nil => rw [elementsText, List.nil_append, elements, nextElement_close]
  | cons x xs =>
    obtain ⟨hbegins, hx⟩ := h x List.mem_cons_self
    rw [elementsText_cons, List.append_assoc, elements_succ (nextElement_first hbegins _) hx,
      elements_rest rest (fun y hy => h y (List.mem_cons_of_mem x hy))]
    · rfl
    · obtain ⟨c, r, hc, -⟩ := hbegins
      rw [hc]
      simp only [List.length_append, List.length_cons]
      omega

end

/-! ### Values -/

/-- Values without numbers in which at most so many brackets are open at one time. -/
inductive Plain : Nat → Json → Prop
  | null (n : Nat) : Plain n .null
  | bool (n : Nat) (b : Bool) : Plain n (.bool b)
  | string (n : Nat) (s : Text) : Plain n (.string s)
  | array {n : Nat} {xs : List Json} : (∀ x ∈ xs, Plain n x) → Plain (n + 1) (.array xs)
  | object {n : Nat} {ms : List (Text × Json)} :
      (∀ m ∈ ms, Plain n m.2) → Plain (n + 1) (.object ms)

theorem Plain.begins {n : Nat} {x : Json} (h : Plain n x) : Begins (text x) := by
  cases h with
  | null => exact ⟨'n', _, rfl, by decide⟩
  | bool n b => cases b <;> exact ⟨_, _, rfl, by decide⟩
  | string => exact ⟨'"', _, rfl, by decide⟩
  | array => exact ⟨'[', _, rfl, by decide⟩
  | object => exact ⟨'\x7b', _, rfl, by decide⟩

/-- A value that starts with no bracket is read as a scalar, however many brackets may be open. -/
theorem value_eq_scalar {c : Char} {t : Text} (hc : isSpace c = false) (hlist : c ≠ '[')
    (hmap : c ≠ '\x7b') (n : Nat) : value n (c :: t) = scalar (c :: t) := by
  cases n <;> rw [value, skipSpace_cons hc] <;> simp [hlist, hmap]

theorem reads_stringText (n : Nat) (s : Text) : Reads (value n) (stringText s) (.string s) := by
  intro rest
  rw [stringText_append, value_eq_scalar (by decide) (by decide) (by decide), scalar,
    readString_text]
  rfl

/-- The text of a value is read as the value. -/
theorem Plain.reads {n : Nat} {x : Json} (h : Plain n x) : Reads (value n) (text x) x := by
  induction h with
  | null n => exact fun rest => value_eq_scalar (by decide) (by decide) (by decide) n
  | bool n b =>
    cases b <;> exact fun rest => value_eq_scalar (by decide) (by decide) (by decide) n
  | string n s => exact reads_stringText n s
  | array h ih =>
    intro rest
    rw [text_array, List.cons_append, List.append_assoc, List.singleton_append, value,
      skipSpace_cons (by decide)]
    simp only
    rw [elements_eq fun x hx => ⟨(h x hx).begins, ih x hx⟩]
    rfl
  | @object n ms _ ih =>
    intro rest
    -- Members are pushed in front of each other and turned round at the end.
    have hmembers := (Folds.foldl (f := id) (g := fun ms m => m :: ms)
      (fun m hm s => reads_pushMember (ih m hm) m.1 s) []).reads rest
    rw [List.map_id, List.foldl_flip_cons_eq_append', List.append_nil] at hmembers
    rw [value, skipSpace_object]
    simp only [hmembers]
    rw [Except.map, List.reverse_reverse]

end SortClause.Json
