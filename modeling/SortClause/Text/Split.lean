import SortClause.Text.Blank
/-!
Cutting a text at a separator and joining pieces with one.  A separator is itself a text and is
taken as it stands.  `split` cuts at its occurrences, found from the left and never overlapping;
the empty separator cuts before, between and after all characters.  Main statements: joining the
pieces with the separator gives the text back (`join_split`), and `contains` looks for a run of
neighbouring characters (`contains_iff`).
-/
namespace SortClause.Text

/-- The pieces between the occurrences of the separator `σ`, which is not empty.  The number counts
the characters of an occurrence that are still to be passed over. -/
def pieces (σ : Text) : Nat → Text → List Text
  | _, [] => [[]]
  | n + 1, _ :: r => pieces σ n r
  | 0, c :: r =>
    if σ.isPrefixOf (c :: r) then [] :: pieces σ (σ.length - 1) r
    else (pieces σ 0 r).modifyHead (c :: ·)

/-- The pieces of a text between the occurrences of the separator `σ`. -/
def split (σ t : Text) : List Text :=
  if σ = [] then [] :: t.map (fun c => [c]) ++ [[]] else pieces σ 0 t

/-- The pieces with the separator `τ` between neighbours. -/
def join (τ : Text) : List Text → Text
  | [] => []
  | [x] => x
  | x :: y :: r => x ++ τ ++ join τ (y :: r)

/-- Some part of the text is `σ`. -/
def contains (σ : Text) : Text → Bool
  | [] => σ.isEmpty
  | c :: r => σ.isPrefixOf (c :: r) || contains σ r

/-! ### Cutting and joining are inverse -/

theorem pieces_ne_nil (σ : Text) : ∀ (n : Nat) (t : Text), pieces σ n t ≠ []
  | _, [] => by simp [pieces]
  | n + 1, _ :: r => by simpa [pieces] using pieces_ne_nil σ n r
  | 0, c :: r => by
    rw [pieces]
    split
    · simp
    · intro h
      exact pieces_ne_nil σ 0 r (by cases hp : pieces σ 0 r <;> simp_all)

theorem join_modifyHead (τ : Text) (c : Char) :
    ∀ xs : List Text, xs ≠ [] → join τ (xs.modifyHead (c :: ·)) = c :: join τ xs
  | [], h => absurd rfl h
  | [_], _ => rfl
  | _ :: _ :: _, _ => rfl

theorem join_cons (τ x : Text) {xs : List Text} (h : xs ≠ []) :
    join τ (x :: xs) = x ++ τ ++ join τ xs := by
  cases xs with
  | nil => exact absurd rfl h
  | cons y r => rfl

/-- Joined with the separator, the pieces give back all that was not passed over. -/
theorem join_pieces (σ : Text) (hσ : σ ≠ []) :
    ∀ (n : Nat) (t : Text), join σ (pieces σ n t) = t.drop n
  | _, [] => by simp [pieces, join]
  | n + 1, _ :: r => by simpa [pieces] using join_pieces σ hσ n r
  | 0, c :: r => by
    rw [pieces]
    split
    · rename_i h
      rw [join_cons _ _ (pieces_ne_nil σ _ r), join_pieces σ hσ]
      obtain ⟨u, hu⟩ := List.isPrefixOf_iff_prefix.1 h
      cases σ with
      | nil => exact absurd rfl hσ
      | cons d s =>
        obtain ⟨rfl, rfl⟩ := List.cons.inj hu
        simp
    · rw [join_modifyHead _ _ _ (pieces_ne_nil σ 0 r), join_pieces σ hσ]
      rfl

theorem join_nil_singletons : ∀ t : Text, join [] (t.map (fun c => [c]) ++ [[]]) = t
  | [] => rfl
  | c :: r => by
    rw [List.map_cons, List.cons_append, join_cons _ _ (by simp), join_nil_singletons r]
    rfl

/-- The pieces joined with the separator are the text. -/
theorem join_split (σ t : Text) : join σ (split σ t) = t := by
  unfold split
  split
  · rename_i h
    rw [h, List.cons_append, join_cons _ _ (by simp), join_nil_singletons]
    rfl
  · rename_i h
    simpa using join_pieces σ h 0 t

/-- A text contains `σ` when `σ` is one of its runs of neighbouring characters. -/
theorem contains_iff (σ : Text) : ∀ t : Text, contains σ t = true ↔ σ <:+: t
  | [] => by simp [contains]
  | c :: r => by simp [contains, contains_iff σ r, List.infix_cons_iff]

end SortClause.Text
