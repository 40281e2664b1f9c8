import SortClause.Text.Split
import Mathlib.Data.List.Infix
/-!
Where a text is cut.  The pieces of two texts side by side are those of each, the two at the seam
grown together, unless an occurrence of the separator lies across the seam (`split_append`).  No
piece holds the separator (`not_infix_of_mem_split`), and a text without it is one piece
(`split_eq_singleton`).  If the separator has no border, its occurrences never overlap: a separator
between two texts always cuts there (`split_append_separator`), and pieces without it are read back
from their join (`split_join`).
-/
namespace SortClause.Text

/-- The pieces of two texts side by side: the two at the seam are one. -/
def weld : List Text → List Text → List Text
  | [], ys => ys
  | [x], ys => ys.modifyHead (x ++ ·)
  | x :: y :: r, ys => x :: weld (y :: r) ys

/-- No occurrence of `σ` begins in `a` and ends in the text `b` after it. -/
def Apart (σ a b : Text) : Prop :=
  ∀ x, x <:+ a → x ≠ [] → σ <+: x ++ b → σ.length ≤ x.length

/-- The text has no border: what it both begins and ends with is empty or all of it. -/
def Unbordered (σ : Text) : Prop := ∀ u, u <+: σ → u <:+ σ → u = [] ∨ u = σ

instance (σ : Text) : Decidable (Unbordered σ) :=
  decidable_of_iff (∀ u ∈ σ.inits, u <:+ σ → u = [] ∨ u = σ) (by simp [Unbordered])

/-! ### Welding -/

theorem weld_modifyHead (c : Char) (ys : List Text) : ∀ xs : List Text, xs ≠ [] →
    weld (xs.modifyHead (c :: ·)) ys = (weld xs ys).modifyHead (c :: ·)
  | [], h => absurd rfl h
  | [_], _ => by cases ys <;> simp [weld]
  | _ :: _ :: _, _ => rfl

theorem weld_cons (x : Text) {xs : List Text} (h : xs ≠ []) (ys : List Text) :
    weld (x :: xs) ys = x :: weld xs ys := by
  cases xs with
  | nil => exact absurd rfl h
  | cons y r => rfl

/-- An empty piece at the seam leaves the pieces of both sides as they are. -/
theorem weld_nil_cons (ys : List Text) : ∀ xs : List Text, xs ≠ [] → weld xs ([] :: ys) = xs ++ ys
  | [], h => absurd rfl h
  | [_], _ => by simp [weld]
  | x :: y :: r, _ => by
    rw [weld_cons x (by simp), weld_nil_cons ys (y :: r) (by simp)]
    rfl

/-! ### Cutting two texts side by side -/

theorem Apart.tail {σ b : Text} {c : Char} {r : Text} (h : Apart σ (c :: r) b) : Apart σ r b :=
  fun x hx => h x (hx.trans (List.suffix_cons c r))

/-- At a seam that nothing lies across, an occurrence is seen without what follows. -/
theorem Apart.prefix_iff {σ a b : Text} (h : Apart σ a b) (ha : a ≠ []) :
    σ <+: a ++ b ↔ σ <+: a := by
  constructor
  · intro hp
    exact List.prefix_of_prefix_length_le hp (List.prefix_append a b) (h a List.suffix_rfl ha hp)
  · intro hp
    exact hp.trans (List.prefix_append a b)

/-- Passing over the characters of a text leads to what follows it. -/
theorem pieces_length_append (σ b : Text) : ∀ a : Text, pieces σ a.length (a ++ b) = pieces σ 0 b
  | [] => rfl
  | _ :: r => by simpa [pieces] using pieces_length_append σ b r

-- The number of characters to pass over stays within `a`, since no occurrence lies across the seam.
theorem pieces_append {σ b : Text} {a : Text} {n : Nat} (hn : n ≤ a.length) (h : Apart σ a b) :
    pieces σ n (a ++ b) = weld (pieces σ n a) (pieces σ 0 b) := by
  induction a generalizing n with
  | nil =>
    obtain rfl : n = 0 := by simpa using hn
    cases hb : pieces σ 0 b <;> simp [pieces, weld, hb]
  | cons c r ih =>
    cases n with
    | succ n =>
      simp only [List.cons_append, pieces]
      exact ih (by simpa using hn) h.tail
    | zero =>
      have hseam : σ <+: c :: (r ++ b) ↔ σ <+: c :: r := h.prefix_iff (by simp)
      rw [List.cons_append, pieces, pieces]
      by_cases hp : σ <+: c :: r
      · have hlen : σ.length - 1 ≤ r.length := by
          have := hp.length_le
          rw [List.length_cons] at this
          omega
        rw [if_pos (List.isPrefixOf_iff_prefix.2 (hseam.2 hp)),
          if_pos (List.isPrefixOf_iff_prefix.2 hp), ih hlen h.tail,
          weld_cons _ (pieces_ne_nil σ _ r)]
      · rw [if_neg (fun hc => hp (hseam.1 (List.isPrefixOf_iff_prefix.1 hc))),
          if_neg (fun hc => hp (List.isPrefixOf_iff_prefix.1 hc)), ih (Nat.zero_le _) h.tail,
          weld_modifyHead _ _ _ (pieces_ne_nil σ 0 r)]

theorem split_ne_nil (σ t : Text) : split σ t ≠ [] := by
  unfold split
  split
  · simp
  · exact pieces_ne_nil σ 0 t

/-- Two texts are cut side by side as each on its own, if nothing is cut across the seam. -/
theorem split_append {σ a b : Text} (hσ : σ ≠ []) (h : Apart σ a b) :
    split σ (a ++ b) = weld (split σ a) (split σ b) := by
  simp only [split, if_neg hσ]
  exact pieces_append (Nat.zero_le _) h

theorem split_separator_append {σ : Text} (hσ : σ ≠ []) (b : Text) :
    split σ (σ ++ b) = [] :: split σ b := by
  cases σ with
  | nil => exact absurd rfl hσ
  | cons d s =>
    have hp : (d :: s).isPrefixOf (d :: (s ++ b)) = true :=
      List.isPrefixOf_iff_prefix.2 (List.prefix_append (d :: s) b)
    simp only [split, if_neg hσ, List.cons_append, pieces, hp, if_true, List.length_cons,
      Nat.add_sub_cancel, pieces_length_append]

/-- An occurrence that reached into a separator would share a border with it. -/
theorem Unbordered.apart {σ : Text} (h : Unbordered σ) (a b : Text) : Apart σ a (σ ++ b) := by
  intro x _ hx hp
  by_contra hlt
  have hxσ : x <+: σ :=
    List.prefix_of_prefix_length_le (List.prefix_append x _) hp (by omega)
  obtain ⟨u, rfl⟩ := hxσ
  have hu : u <+: x ++ u := by
    refine List.prefix_of_prefix_length_le ((List.prefix_append_right_inj x).1 hp)
      (List.prefix_append (x ++ u) b) ?_
    rw [List.length_append]
    omega
  rcases h u hu (List.suffix_append x u) with hnil | hall
  · simp [hnil] at hlt
  · exact hx (by simpa using hall)

/-- A separator without a border always cuts where it stands. -/
theorem split_append_separator {σ : Text} (hσ : σ ≠ []) (h : Unbordered σ) (a b : Text) :
    split σ (a ++ σ ++ b) = split σ a ++ split σ b := by
  rw [List.append_assoc, split_append hσ (h.apart a b), split_separator_append hσ,
    weld_nil_cons _ _ (split_ne_nil σ a)]

/-! ### Occurrences in the pieces -/

theorem prefix_join_cons (τ x : Text) (xs : List Text) : x <+: join τ (x :: xs) := by
  cases xs with
  | nil => exact List.prefix_rfl
  | cons y r =>
    rw [join_cons τ x (by simp), List.append_assoc]
    exact List.prefix_append _ _

theorem infix_join_of_mem {τ x : Text} : ∀ {xs : List Text}, x ∈ xs → x <:+: join τ xs
  | y :: r, h => by
    rcases List.mem_cons.1 h with rfl | h
    · exact (prefix_join_cons τ x r).isInfix
    · rw [join_cons τ y (List.ne_nil_of_mem h)]
      exact (infix_join_of_mem h).trans (List.suffix_append _ _).isInfix

/-- A piece is a run of neighbouring characters of the text. -/
theorem infix_of_mem_split {σ t x : Text} (h : x ∈ split σ t) : x <:+: t := by
  have hx : x <:+: join σ (split σ t) := infix_join_of_mem h
  rwa [join_split] at hx

theorem not_infix_of_mem_pieces {σ x : Text} (hσ : σ ≠ []) {t : Text} {n : Nat}
    (h : x ∈ pieces σ n t) : ¬σ <:+: x := by
  induction t generalizing n x with
  | nil =>
    obtain rfl : x = [] := by simpa [pieces] using h
    simpa using hσ
  | cons c r ih =>
    cases n with
    | succ n => exact ih h
    | zero =>
      rw [pieces] at h
      split at h
      · rcases List.mem_cons.1 h with rfl | h
        · simpa using hσ
        · exact ih h
      · rename_i hp
        obtain ⟨p, ps, e⟩ := List.exists_cons_of_ne_nil (pieces_ne_nil σ 0 r)
        have hpr : p <+: r := by
          have hj := prefix_join_cons σ p ps
          rwa [← e, join_pieces σ hσ, List.drop_zero] at hj
        rw [e, List.modifyHead_cons] at h
        rcases List.mem_cons.1 h with rfl | h
        · rw [List.infix_cons_iff]
          rintro (hc | hc)
          · exact hp (List.isPrefixOf_iff_prefix.2 (hc.trans (List.cons_prefix_cons.2 ⟨rfl, hpr⟩)))
          · exact ih (e ▸ List.mem_cons_self) hc
        · exact ih (e ▸ List.mem_cons_of_mem p h)

/-- No piece holds the separator. -/
theorem not_infix_of_mem_split {σ t x : Text} (hσ : σ ≠ []) (h : x ∈ split σ t) : ¬σ <:+: x := by
  rw [split, if_neg hσ] at h
  exact not_infix_of_mem_pieces hσ h

/-- A text without the separator is one piece. -/
theorem split_eq_singleton {σ t : Text} (hσ : σ ≠ []) (h : ¬σ <:+: t) : split σ t = [t] := by
  rw [split, if_neg hσ]
  induction t with
  | nil => rfl
  | cons c r ih =>
    rw [List.infix_cons_iff, not_or] at h
    rw [pieces, if_neg (fun hp => h.1 (List.isPrefixOf_iff_prefix.1 hp)), ih h.2]
    rfl

/-- Pieces without the separator are read back from their join, if it has no border. -/
theorem split_join {σ : Text} (hσ : σ ≠ []) (h : Unbordered σ) : ∀ {xs : List Text}, xs ≠ [] →
    (∀ x ∈ xs, ¬σ <:+: x) → split σ (join σ xs) = xs
  | [], hne, _ => absurd rfl hne
  | [x], _, hx => split_eq_singleton hσ (hx x List.mem_cons_self)
  | x :: y :: r, _, hx => by
    rw [join_cons σ x (by simp), split_append_separator hσ h,
      split_eq_singleton hσ (hx x List.mem_cons_self),
      split_join hσ h (by simp) fun z hz => hx z (List.mem_cons_of_mem x hz)]
    rfl

/-- Pieces in two groups are joined by one more separator. -/
theorem join_append_of_ne_nil (τ : Text) {ys : List Text} (hy : ys ≠ []) :
    ∀ {xs : List Text}, xs ≠ [] → join τ (xs ++ ys) = join τ xs ++ τ ++ join τ ys
  | [], hx => absurd rfl hx
  | [x], _ => join_cons τ x hy
  | x :: y :: r, _ => by
    rw [List.cons_append, join_cons τ x (by simp), join_append_of_ne_nil τ hy (by simp),
      join_cons τ x (by simp)]
    simp only [List.append_assoc]

/-! ### Separators of one character -/

theorem unbordered_singleton (c : Char) : Unbordered [c] := by
  intro u hu _
  exact (List.infix_singleton_iff u c).1 hu.isInfix

theorem split_append_cons (c : Char) (a b : Text) :
    split [c] (a ++ c :: b) = split [c] a ++ split [c] b := by
  have h := split_append_separator (List.cons_ne_nil c []) (unbordered_singleton c) a b
  rwa [List.append_assoc] at h

theorem split_of_not_mem {c : Char} {t : Text} (h : c ∉ t) : split [c] t = [t] :=
  split_eq_singleton (List.cons_ne_nil c []) fun hin => h ((List.singleton_infix_iff c t).1 hin)

/-- Two texts that go on with a character that is in neither of them end where it stands. -/
theorem append_cons_inj {c : Char} {x y r s : Text} (hx : c ∉ x) (hy : c ∉ y)
    (h : x ++ c :: r = y ++ c :: s) : x = y ∧ r = s := by
  have hpieces := congrArg (split [c]) h
  rw [split_append_cons, split_append_cons, split_of_not_mem hx, split_of_not_mem hy] at hpieces
  obtain ⟨rfl, -⟩ := List.cons.inj hpieces
  exact ⟨rfl, (List.cons.inj (List.append_cancel_left h)).2⟩

/-- The pieces of a join are those of what is joined. -/
theorem split_join_eq_flatMap (c : Char) : ∀ {xs : List Text}, xs ≠ [] →
    split [c] (join [c] xs) = xs.flatMap (split [c])
  | [], hne => absurd rfl hne
  | [x], _ => by simp [join]
  | x :: y :: r, _ => by
    rw [join_cons [c] x (by simp), List.append_assoc, List.singleton_append, split_append_cons,
      split_join_eq_flatMap c (by simp)]
    rfl

/-- A text has one piece more than it has separators. -/
theorem length_split (c : Char) (t : Text) : (split [c] t).length = t.count c + 1 := by
  induction t with
  | nil => rfl
  | cons d r ih =>
    rw [split, if_neg (List.cons_ne_nil c [])] at ih ⊢
    by_cases hd : c = d
    · subst hd
      simp [pieces, ih]
    · simp [pieces, hd, Ne.symm hd, ih]

theorem not_mem_of_mem_split {c : Char} {t x : Text} (h : x ∈ split [c] t) : c ∉ x := fun hc =>
  not_infix_of_mem_split (List.cons_ne_nil c []) h ((List.singleton_infix_iff c x).2 hc)

end SortClause.Text
