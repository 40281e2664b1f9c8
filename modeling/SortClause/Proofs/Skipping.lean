import SortClause.Proofs.Nesting
/-!
Values that are passed over instead of read.  Reading is a recursion that goes as deep as the value
is nested; passing over is a loop with a stack of open brackets.  `resume` is the loop from behind a
value on, and a value is passed over if the loop that is about to begin it comes to stand behind it
with the same stack (`Passes`).  This holds of elements, of members and so of values at every depth
(`passes_value`).  Main statement: a value that is read is passed over up to the same place
(`skipValue_of_value`).
-/
namespace SortClause.Json

variable {first : Bool} {t rest : Text}

/-! ### The loop -/

theorem skipSpace_skipSpace (t : Text) : skipSpace (skipSpace t) = skipSpace t :=
  Text.dropWhile_dropWhile isSpace t

/-- Goes on behind a value, or behind an opening bracket if no comma may come: past the brackets
that close there and then over what the others still hold. -/
def resume (n : Nat) (stack : List Bracket) (comma : Bool) (t : Text) : Except Fault Text :=
  match settle stack comma t with
  | .error f => .error f
  | .ok ([], r) => .ok r
  | .ok (b :: outer, r) => skipAll n (b :: outer) r

theorem skipAll_skipSpace (n : Nat) (stack : List Bracket) (t : Text) :
    skipAll (n + 1) stack (skipSpace t) = skipAll (n + 1) stack t := by
  simp only [skipAll, skipToDue, skipSpace_skipSpace]

theorem skipAll_list {r : Text} (h : skipSpace t = '[' :: r) (n : Nat) (stack : List Bracket) :
    skipAll (n + 1) stack t = resume n (.list :: stack) false r := by
  rw [skipAll, skipToDue, h]
  rfl

theorem skipAll_map {r : Text} (h : skipSpace t = '\x7b' :: r) (n : Nat)
    (stack : List Bracket) : skipAll (n + 1) stack t = resume n (.map :: stack) false r := by
  rw [skipAll, skipToDue, h]
  rfl

theorem skipAll_scalar {x : Json} (h : scalar (skipSpace t) = .ok (x, rest)) (n : Nat)
    (stack : List Bracket) : skipAll (n + 1) stack t = resume n stack true rest := by
  have hdue : skipToDue stack t = settle stack true rest := by
    unfold skipToDue
    split
    · rename_i e
      rw [e] at h
      cases h
    · rename_i e
      rw [e] at h
      cases h
    · rw [(skipScalar_of_scalar h).1]
  rw [skipAll, hdue]
  rfl

/-- Where the next element is found, it is due. -/
theorem resume_nextElement {u : Text} (h : nextElement first t = .ok (.item u)) (n : Nat)
    (stack : List Bracket) :
    resume (n + 1) (.list :: stack) (!first) t = skipAll (n + 1) (.list :: stack) u ∧
      u.length ≤ t.length := by
  have ht := skipSpace_length_le t
  rcases nextElement_item h with ⟨rfl, hc, c, r, rfl, hne⟩ | ⟨rfl, r, hc, rfl⟩
  · refine ⟨?_, hc ▸ ht⟩
    have hsettle : settle (.list :: stack) false t = .ok (.list :: stack, c :: r) := by
      simp [settle, hc, hne, Bracket.closing, dueValue, Except.map]
    simp only [resume, Bool.not_true, hsettle]
  · have hr := skipSpace_length_le r
    rw [hc, List.length_cons] at ht
    refine ⟨?_, by omega⟩
    have hsettle : settle (.list :: stack) true t = .ok (.list :: stack, r) := by
      simp [settle, hc, dueValue, Except.map]
    simp only [resume, Bool.not_false, hsettle, skipAll_skipSpace]

/-- A closing bracket ends the innermost value. -/
theorem resume_closed {b : Bracket} (h : skipSpace t = b.closing :: rest) (n : Nat)
    (stack : List Bracket) (comma : Bool) :
    resume n (b :: stack) comma t = resume n stack true rest ∧ rest.length < t.length := by
  have ht := skipSpace_length_le t
  rw [h, List.length_cons] at ht
  refine ⟨?_, by omega⟩
  have hcomma : b.closing ≠ ',' := by cases b <;> decide
  have hsettle : settle (b :: stack) comma t = settle stack true rest := by
    simp [settle, h, hcomma]
  simp only [resume, hsettle]

theorem dueValue_map {r u key : Text} (ht : skipSpace t = '"' :: r)
    (hr : readString 0 r = .ok (key, rest)) (hu : colon rest = .ok u) :
    dueValue .map t = .ok u := by
  simp only [dueValue, ht, (skipString_of_readString hr).1, colon_eq_ok hu]

/-- Where the next member's name and colon are found, its value is due. -/
theorem resume_nextKey {key u : Text} (h : nextKey first t = .ok (.item (key, rest)))
    (hu : colon rest = .ok u) (n : Nat) (stack : List Bracket) :
    resume n (.map :: stack) (!first) t = skipAll n (.map :: stack) u ∧ u.length < t.length := by
  have ht := skipSpace_length_le t
  have hcolon := skipSpace_length_le rest
  rw [colon_eq_ok hu, List.length_cons] at hcolon
  obtain ⟨r, hr, hfirst⟩ := nextKey_item h
  have hrest := (skipString_of_readString hr).2
  rcases hfirst with ⟨rfl, hc⟩ | ⟨rfl, r', hc, hr'⟩
  · rw [hc, List.length_cons] at ht
    refine ⟨?_, by omega⟩
    have hdue : dueValue .map ('"' :: r) = .ok u := dueValue_map rfl hr hu
    have hsettle : settle (.map :: stack) false t = .ok (.map :: stack, u) := by
      simp [settle, hc, hdue, Bracket.closing, Except.map]
    simp only [resume, Bool.not_true, hsettle]
  · have hr'' := skipSpace_length_le r'
    rw [hr', List.length_cons] at hr''
    rw [hc, List.length_cons] at ht
    refine ⟨?_, by omega⟩
    have hsettle : settle (.map :: stack) true t = .ok (.map :: stack, u) := by
      simp [settle, hc, dueValue_map hr' hr hu, Except.map]
    simp only [resume, Bool.not_false, hsettle]

/-! ### Values -/

/-- What the reader reads is passed over in some of the steps, and as many are left as the rest can
need. -/
def Passes {α : Type} (item : Reader α) : Prop :=
  ∀ {t rest : Text} {x : α}, item t = .ok (x, rest) → ∀ (stack : List Bracket) (n : Nat),
    t.length < n → ∃ m, rest.length < m ∧ skipAll n stack t = resume m stack true rest

theorem passes_elements {α : Type} {item : Reader α} (hitem : Passes item)
    (stack : List Bracket) {xs : List α} (h : Elements item first t xs rest) {n : Nat}
    (hn : t.length < n) :
    ∃ m, rest.length < m ∧ resume n (.list :: stack) (!first) t = resume m stack true rest := by
  -- On what is read: a comma may come exactly where an element stands before.
  induction h generalizing n with
  | @closed first _ _ hnext =>
    have hclosing := nextElement_closed hnext
    rcases @resume_closed _ _ .list hclosing n stack (!first) with ⟨hresume, hlen⟩
    exact ⟨n, hlen.trans hn, hresume⟩
  | element hnext hu _ ih =>
    obtain ⟨n, rfl⟩ := Nat.exists_eq_succ_of_ne_zero (Nat.ne_of_gt (Nat.zero_lt_of_lt hn))
    obtain ⟨hresume, hlen⟩ := resume_nextElement hnext n stack
    obtain ⟨m, hm, hpass⟩ := hitem hu (.list :: stack) (n + 1) (hlen.trans_lt hn)
    obtain ⟨k, hk, hrest⟩ := ih hm
    exact ⟨k, hk, (hresume.trans hpass).trans hrest⟩

theorem passes_members {α : Type} {item : Reader α} (hitem : Passes item)
    (stack : List Bracket) {ms : List (Text × α)} (h : Members item first t ms rest) {n : Nat}
    (hn : t.length < n) :
    ∃ m, rest.length < m ∧ resume n (.map :: stack) (!first) t = resume m stack true rest := by
  induction h generalizing n with
  | @closed first _ _ hnext =>
    have hclosing := nextKey_closed hnext
    rcases @resume_closed _ _ .map hclosing n stack (!first) with ⟨hresume, hlen⟩
    exact ⟨n, hlen.trans hn, hresume⟩
  | member hnext hr _ ih =>
    obtain ⟨u, hcolon, hu⟩ := memberValue_eq_ok hr
    obtain ⟨hresume, hlen⟩ := resume_nextKey hnext hcolon n stack
    obtain ⟨m, hm, hpass⟩ := hitem hu (.map :: stack) n (hlen.trans hn)
    obtain ⟨k, hk, hrest⟩ := ih hm
    exact ⟨k, hk, (hresume.trans hpass).trans hrest⟩

theorem passes_scalar {x : Json} (h : scalar (skipSpace t) = .ok (x, rest))
    (stack : List Bracket) {n : Nat} (hn : t.length < n) :
    ∃ m, rest.length < m ∧ skipAll n stack t = resume m stack true rest := by
  obtain ⟨n, rfl⟩ := Nat.exists_eq_succ_of_ne_zero (Nat.ne_of_gt (Nat.zero_lt_of_lt hn))
  have ht := skipSpace_length_le t
  have hrest := (skipScalar_of_scalar h).2
  exact ⟨n, by omega, skipAll_scalar h n stack⟩

/-- Values are passed over, however deeply they are nested. -/
theorem passes_value (depth : Nat) : Passes (value depth) := by
  induction depth with
  | zero =>
    intro t rest x h stack n hn
    rcases value_cases h with h | ⟨_, _, e, -⟩
    · exact passes_scalar h stack hn
    · cases e
  | succ depth ih =>
    intro t rest x h stack n hn
    have ht := skipSpace_length_le t
    rcases value_cases h with h | ⟨_, r, e, h | h⟩
    · exact passes_scalar h stack hn
    · cases e
      obtain ⟨xs, rfl, hr, -, helements⟩ := h
      obtain ⟨n, rfl⟩ := Nat.exists_eq_succ_of_ne_zero (Nat.ne_of_gt (Nat.zero_lt_of_lt hn))
      rw [hr, List.length_cons] at ht
      rw [skipAll_list hr]
      exact passes_elements ih stack helements (by omega)
    · cases e
      obtain ⟨ms, rfl, hr, -, hmembers⟩ := h
      obtain ⟨n, rfl⟩ := Nat.exists_eq_succ_of_ne_zero (Nat.ne_of_gt (Nat.zero_lt_of_lt hn))
      rw [hr, List.length_cons] at ht
      rw [skipAll_map hr]
      exact passes_members ih stack hmembers (by omega)

/-- A value that is read is passed over up to the same place. -/
theorem skipValue_of_value {depth : Nat} {x : Json} (h : value depth t = .ok (x, rest)) :
    skipValue t = .ok rest := by
  obtain ⟨m, -, hpass⟩ := passes_value depth h [] (t.length + 1) (Nat.lt_succ_self _)
  exact hpass

end SortClause.Json
