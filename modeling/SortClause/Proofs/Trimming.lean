import SortClause.Text.Blank
import Mathlib.Data.List.DropRight
/-!
What trimming does to a text.  A text is blank when all its characters are, and firm when neither
of its ends is.  Trimming takes blank texts off the two ends and leaves a firm one
(`exists_blank_ends`, `firm_trim`), and it is determined by that (`trim_eq_of_blank_ends`).  Main
statements: the texts that trimming leaves alone are the firm ones (`trim_eq_self_iff`), and blank
texts added at the ends make no difference (`trim_append_of_blank`, `trim_blank_append`).
-/
namespace SortClause.Text

/-- All characters are blank. -/
def Blank (t : Text) : Prop := ∀ c ∈ t, isBlankChar c = true

/-- The text does not begin with a blank character. -/
def FirmStart (t : Text) : Prop := ∀ c ∈ t.head?, isBlankChar c = false

/-- The text does not end with a blank character. -/
def FirmEnd (t : Text) : Prop := ∀ c ∈ t.getLast?, isBlankChar c = false

def Firm (t : Text) : Prop := FirmStart t ∧ FirmEnd t

-- Decided along the text: left to itself the search may go through all characters there are.
instance (t : Text) : Decidable (Blank t) :=
  decidable_of_iff (t.all isBlankChar = true) List.all_eq_true

instance (t : Text) : Decidable (FirmStart t) :=
  decidable_of_iff (t.head?.all (!isBlankChar ·) = true) (by simp [FirmStart, Option.all_eq_true])

instance (t : Text) : Decidable (FirmEnd t) :=
  decidable_of_iff (t.getLast?.all (!isBlankChar ·) = true) (by simp [FirmEnd, Option.all_eq_true])

instance (t : Text) : Decidable (Firm t) :=
  inferInstanceAs (Decidable (FirmStart t ∧ FirmEnd t))

/-! ### Blank texts and firm ends -/

theorem blank_append {a b : Text} : Blank (a ++ b) ↔ Blank a ∧ Blank b :=
  List.forall_mem_append

theorem Blank.of_isInfix {a b : Text} (h : a <:+: b) (hb : Blank b) : Blank a :=
  fun c hc => hb c (h.subset hc)

theorem firmEnd_append {b : Text} (a : Text) (hb : b ≠ []) : FirmEnd (a ++ b) ↔ FirmEnd b := by
  rw [FirmEnd, List.getLast?_append_of_ne_nil _ hb, FirmEnd]

/-- Only the two ends matter for being firm. -/
theorem firm_append {a b : Text} (ha : a ≠ []) (hb : b ≠ []) :
    Firm (a ++ b) ↔ FirmStart a ∧ FirmEnd b := by
  rw [Firm, firmEnd_append a hb, FirmStart, List.head?_append_of_ne_nil _ ha, FirmStart]

theorem FirmEnd.eq_nil_of_blank {t : Text} (h : FirmEnd t) (hb : Blank t) : t = [] := by
  by_contra hne
  have hlast := h _ (List.getLast?_eq_getLast_of_ne_nil hne)
  rw [hb _ (List.getLast_mem hne)] at hlast
  cases hlast

theorem hasBlank_eq_false_iff {t : Text} :
    t.hasBlank = false ↔ ∀ c ∈ t, isBlankChar c = false := by
  simp [hasBlank]

theorem space_not_mem {t : Text} (h : t.hasBlank = false) : ' ' ∉ t := fun hm =>
  absurd (hasBlank_eq_false_iff.1 h ' ' hm) (by decide)

/-- Without blank characters a text is firm. -/
theorem firm_of_not_hasBlank {t : Text} (h : t.hasBlank = false) : Firm t :=
  ⟨fun c m => hasBlank_eq_false_iff.1 h c (List.mem_of_mem_head? m),
    fun c m => hasBlank_eq_false_iff.1 h c (List.mem_of_mem_getLast? m)⟩

/-! ### Trimming -/

theorem firmStart_trimStart (t : Text) : FirmStart (trimStart t) := by
  intro c hc
  rcases trimStart_eq_cons t with h | ⟨d, r, hd, h⟩
  · simp [h] at hc
  · rw [h, List.head?_cons, Option.mem_some] at hc
    exact hc ▸ hd

theorem firmEnd_trimEnd (t : Text) : FirmEnd (trimEnd t) := by
  intro c hc
  have hne : trimEnd t ≠ [] := by
    rintro h
    simp [h] at hc
  rw [List.getLast?_eq_getLast_of_ne_nil hne, Option.mem_some] at hc
  have hlast : ¬isBlankChar ((trimEnd t).getLast hne) = true := List.rdropWhile_last_not _ _ hne
  simpa [hc] using hlast

/-- A text is a blank one and one that begins firm. -/
theorem exists_append_firmStart (t : Text) : ∃ u b, t = u ++ b ∧ Blank u ∧ FirmStart b :=
  ⟨t.takeWhile isBlankChar, trimStart t, List.takeWhile_append_dropWhile.symm,
    fun _ hc => List.mem_takeWhile_imp hc, firmStart_trimStart t⟩

/-- A text is one that ends firm and a blank one. -/
theorem exists_firmEnd_append (t : Text) : ∃ a v, t = a ++ v ∧ FirmEnd a ∧ Blank v :=
  ⟨trimEnd t, t.rtakeWhile isBlankChar, List.rdropWhile_append_rtakeWhile.symm,
    firmEnd_trimEnd t, fun _ hc => List.mem_rtakeWhile_imp hc⟩

theorem trimStart_blank_append {u : Text} (hu : Blank u) (t : Text) :
    trimStart (u ++ t) = trimStart t :=
  List.dropWhile_append_of_pos hu

theorem trimEnd_append_of_blank {v : Text} (hv : Blank v) (t : Text) :
    trimEnd (t ++ v) = trimEnd t := by
  have hr : ∀ c ∈ v.reverse, isBlankChar c = true := fun c hc => hv c (List.mem_reverse.1 hc)
  rw [trimEnd, List.reverse_append, List.dropWhile_append_of_pos hr, trimEnd]

/-- What is firm between blank ends is what trimming leaves. -/
theorem trim_eq_of_blank_ends {u x v : Text} (hu : Blank u) (hx : Firm x) (hv : Blank v) :
    trim (u ++ x ++ v) = x := by
  rw [trim, List.append_assoc, trimStart_blank_append hu]
  cases x with
  | nil =>
    have hnil : trimStart v = [] := List.dropWhile_eq_nil_iff.2 hv
    rw [List.nil_append, hnil]
    rfl
  | cons c r =>
    have hc : isBlankChar c = false := hx.1 c rfl
    have hstart : trimStart (c :: r ++ v) = c :: r ++ v := by simp [trimStart, hc]
    rw [hstart, trimEnd_append_of_blank hv]
    refine List.rdropWhile_eq_self_iff.2 fun hne => ?_
    simpa using hx.2 _ (List.getLast?_eq_getLast_of_ne_nil hne)

/-- Trimming takes blank texts off the two ends. -/
theorem exists_blank_ends (t : Text) : ∃ u v, Blank u ∧ Blank v ∧ u ++ t.trim ++ v = t := by
  refine ⟨t.takeWhile isBlankChar, (trimStart t).rtakeWhile isBlankChar,
    fun c hc => List.mem_takeWhile_imp hc, fun c hc => List.mem_rtakeWhile_imp hc, ?_⟩
  have hend : t.trim ++ (trimStart t).rtakeWhile isBlankChar = trimStart t :=
    List.rdropWhile_append_rtakeWhile
  rw [List.append_assoc, hend, trimStart, List.takeWhile_append_dropWhile]

/-- What trimming leaves is firm. -/
theorem firm_trim (t : Text) : Firm t.trim := by
  constructor
  · intro c hc
    rcases trimStart_eq_cons t with h | ⟨d, r, hd, h⟩
    · rw [trim, h] at hc
      simp [trimEnd] at hc
    · rw [trim, h, trimEnd_cons d r hd, List.head?_cons, Option.mem_some] at hc
      exact hc ▸ hd
  · exact firmEnd_trimEnd (trimStart t)

/-- Trimming leaves exactly the firm texts alone. -/
theorem trim_eq_self_iff {t : Text} : t.trim = t ↔ Firm t := by
  constructor
  · intro h
    exact h ▸ firm_trim t
  · intro h
    simpa using trim_eq_of_blank_ends (u := []) (v := []) (by simp [Blank]) h (by simp [Blank])

/-- Nothing is left of a text exactly when it is blank. -/
theorem trim_eq_nil_iff {t : Text} : t.trim = [] ↔ Blank t := by
  constructor
  · intro h
    obtain ⟨u, v, hu, hv, e⟩ := exists_blank_ends t
    rw [h, List.append_nil] at e
    exact e ▸ blank_append.2 ⟨hu, hv⟩
  · intro h
    simpa using trim_eq_of_blank_ends (x := []) (v := []) h (by decide) (by simp [Blank])

theorem trim_append_of_blank {v : Text} (hv : Blank v) (t : Text) : (t ++ v).trim = t.trim := by
  obtain ⟨u, w, hu, hw, e⟩ := exists_blank_ends t
  conv_lhs => rw [← e, List.append_assoc _ w v]
  exact trim_eq_of_blank_ends hu (firm_trim t) (blank_append.2 ⟨hw, hv⟩)

theorem trim_blank_append {u : Text} (hu : Blank u) (t : Text) : (u ++ t).trim = t.trim := by
  obtain ⟨w, v, hw, hv, e⟩ := exists_blank_ends t
  conv_lhs => rw [← e, ← List.append_assoc, ← List.append_assoc]
  exact trim_eq_of_blank_ends (blank_append.2 ⟨hu, hw⟩) (firm_trim t) hv

/-- Trimming gives a run of neighbouring characters. -/
theorem isInfix_trim (t : Text) : t.trim <:+: t := by
  obtain ⟨u, v, -, -, e⟩ := exists_blank_ends t
  exact ⟨u, v, e⟩

end SortClause.Text
