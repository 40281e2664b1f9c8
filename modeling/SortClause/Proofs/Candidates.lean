import SortClause.Expansion
import SortClause.Proofs.Trimming
import SortClause.Proofs.Cutting
/-!
The candidates of a directive.  A candidate is firm, not empty and free of the separator, or a
single character if the separator is empty (`isCandidate_of_mem`), and every such text is the only
candidate of itself (`IsCandidate.candidates_eq`).  If the separator is firm or blank, then trimming
the directive as a whole makes no difference (`candidates_eq_strip`); so a separator without a
border splits the candidates of a directive into those of its two sides
(`candidates_append_separator`).
-/
namespace SortClause

open Text

/-- The pieces that are not blank, trimmed. -/
def Text.strip (xs : List Text) : List Text := (xs.map Text.trim).filter (· ≠ [])

/-- A text that some directive, cut at `σ`, has as a candidate. -/
structure IsCandidate (σ x : Text) : Prop where
  ne_nil : x ≠ []
  firm : Firm x
  /-- Nothing is left to be cut. -/
  uncut : if σ = [] then x.length = 1 else ¬σ <:+: x

instance (σ x : Text) : Decidable (IsCandidate σ x) :=
  decidable_of_iff (x ≠ [] ∧ Firm x ∧ if σ = [] then x.length = 1 else ¬σ <:+: x)
    ⟨fun ⟨a, b, c⟩ => ⟨a, b, c⟩, fun ⟨a, b, c⟩ => ⟨a, b, c⟩⟩

/-! ### Stripping pieces -/

namespace Text

theorem strip_append (xs ys : List Text) : strip (xs ++ ys) = strip xs ++ strip ys := by
  simp [strip]

theorem strip_cons_congr {x y : Text} (h : x.trim = y.trim) (r : List Text) :
    strip (x :: r) = strip (y :: r) := by
  simp [strip, h]

theorem strip_cons_of_blank {x : Text} (h : Blank x) (r : List Text) :
    strip (x :: r) = strip r := by
  simp [strip, trim_eq_nil_iff.2 h]

theorem strip_eq_nil {xs : List Text} (h : ∀ x ∈ xs, Blank x) : strip xs = [] := by
  induction xs with
  | nil => rfl
  | cons x r ih =>
    rw [strip_cons_of_blank (h x List.mem_cons_self)]
    exact ih fun y hy => h y (List.mem_cons_of_mem x hy)

theorem strip_singleton {x : Text} (hne : x ≠ []) (hx : Firm x) : strip [x] = [x] := by
  simp [strip, trim_eq_self_iff.2 hx, hne]

theorem strip_weld_of_blank_left (ys : List Text) : ∀ {xs : List Text}, (∀ x ∈ xs, Blank x) →
    strip (weld xs ys) = strip ys
  | [], _ => rfl
  | [x], hx => by
    cases ys with
    | nil => rfl
    | cons y r => exact strip_cons_congr (trim_blank_append (hx x List.mem_cons_self) y) r
  | x :: y :: r, hx => by
    rw [weld_cons x (by simp), strip_cons_of_blank (hx x List.mem_cons_self)]
    exact strip_weld_of_blank_left ys fun z hz => hx z (List.mem_cons_of_mem x hz)

theorem strip_weld_of_blank_right {ys : List Text} (hy : ∀ y ∈ ys, Blank y) :
    ∀ xs : List Text, ys ≠ [] → strip (weld xs ys) = strip xs
  | [], _ => strip_eq_nil hy
  | [x], hne => by
    cases ys with
    | nil => exact absurd rfl hne
    | cons y r =>
      have hr : strip r = [] := strip_eq_nil fun z hz => hy z (List.mem_cons_of_mem y hz)
      have hxy : (x ++ y).trim = x.trim := trim_append_of_blank (hy y List.mem_cons_self) x
      calc strip ((x ++ y) :: r) = strip ([x] ++ r) := strip_cons_congr hxy r
        _ = strip [x] := by rw [strip_append, hr, List.append_nil]
  | x :: y :: r, hne => by
    have ih := strip_weld_of_blank_right hy (y :: r) hne
    calc strip (weld (x :: y :: r) ys) = strip ([x] ++ weld (y :: r) ys) := rfl
      _ = strip ([x] ++ (y :: r)) := by rw [strip_append, ih, strip_append]

/-! ### Blank ends and the separator -/

variable {σ u x v : Text}

/-- A separator that begins firm, or is blank, does not reach from blanks into a firm text. -/
theorem apart_of_blank_left (hσ : σ ≠ []) (h : FirmStart σ ∨ Blank σ) (hu : Blank u) (hx : Firm x)
    (hne : x ≠ []) : Apart σ u (x ++ v) := by
  intro y hy hyne hp
  obtain ⟨c, y, rfl⟩ := List.exists_cons_of_ne_nil hyne
  obtain ⟨d, x, rfl⟩ := List.exists_cons_of_ne_nil hne
  have hc : isBlankChar c = true := hu c (hy.subset List.mem_cons_self)
  have hd : isBlankChar d = false := hx.1 d rfl
  rcases h with hf | hb
  · obtain ⟨e, s, rfl⟩ := List.exists_cons_of_ne_nil hσ
    obtain ⟨rfl, -⟩ := List.cons_prefix_cons.1 hp
    rw [hf e rfl] at hc
    exact absurd hc (by simp)
  · by_contra hlt
    have hin : (c :: y) ++ [d] <+: σ := by
      refine List.prefix_of_prefix_length_le ⟨x ++ v, by simp⟩ hp ?_
      rw [List.length_append, List.length_singleton]
      omega
    have hdb : isBlankChar d = true := hb d (hin.subset (by simp))
    rw [hd] at hdb
    exact absurd hdb (by simp)

/-- A separator that ends firm, or is blank, does not reach from a firm text into blanks. -/
theorem apart_of_blank_right (h : FirmEnd σ ∨ Blank σ) (hx : Firm x) (hv : Blank v) :
    Apart σ x v := by
  intro y hy hyne hp
  by_contra hlt
  have hin : y <+: σ := List.prefix_of_prefix_length_le (List.prefix_append y v) hp (by omega)
  obtain ⟨w, rfl⟩ := hin
  have hw : w ≠ [] := by
    rintro rfl
    simp at hlt
  have hwv : w <+: v := (List.prefix_append_right_inj y).1 hp
  rcases h with hf | hb
  · have hlast := (firmEnd_append y hw).1 hf (w.getLast hw)
      (List.getLast?_eq_getLast_of_ne_nil hw)
    have hblank := hv _ (hwv.subset (List.getLast_mem hw))
    rw [hlast] at hblank
    exact absurd hblank (by simp)
  · obtain ⟨a, rfl⟩ := hy
    have hlast := hx.2 (y.getLast hyne) (by
      rw [List.getLast?_append_of_ne_nil _ hyne, List.getLast?_eq_getLast_of_ne_nil hyne]
      rfl)
    have hblank := hb _ (List.mem_append_left w (List.getLast_mem hyne))
    rw [hlast] at hblank
    exact absurd hblank (by simp)

end Text

/-! ### The candidates of a directive -/

variable {σ : Text}

theorem candidates_def (σ t : Text) : candidates σ t = strip (split σ t.trim) := rfl

theorem candidates_congr {s t : Text} (h : s.trim = t.trim) : candidates σ s = candidates σ t := by
  rw [candidates_def, candidates_def, h]

theorem blank_of_mem_split {t x : Text} (ht : Blank t) (h : x ∈ split σ t) : Blank x :=
  ht.of_isInfix (infix_of_mem_split h)

theorem candidates_of_blank {t : Text} (ht : Blank t) : candidates σ t = [] := by
  rw [candidates_def, trim_eq_nil_iff.2 ht]
  exact strip_eq_nil fun x hx => blank_of_mem_split (by simp [Blank]) hx

/-- Trimming the directive as a whole makes no difference to its candidates. -/
theorem candidates_eq_strip (hσ : σ ≠ []) (h : Firm σ ∨ Blank σ) (t : Text) :
    candidates σ t = strip (split σ t) := by
  by_cases ht : Blank t
  · rw [candidates_of_blank ht, strip_eq_nil fun x hx => blank_of_mem_split ht hx]
  · obtain ⟨u, v, hu, hv, e⟩ := exists_blank_ends t
    have hne : t.trim ≠ [] := fun hnil => ht (trim_eq_nil_iff.1 hnil)
    have hx : Firm t.trim := firm_trim t
    have hcut : split σ t = weld (split σ u) (weld (split σ t.trim) (split σ v)) := by
      conv_lhs => rw [← e, List.append_assoc]
      rw [split_append hσ (apart_of_blank_left hσ (h.imp_left And.left) hu hx hne),
        split_append hσ (apart_of_blank_right (h.imp_left And.right) hx hv)]
    rw [candidates_def, hcut,
      strip_weld_of_blank_left _ fun x hx => blank_of_mem_split hu hx,
      strip_weld_of_blank_right (fun x hx => blank_of_mem_split hv hx) _ (split_ne_nil σ v)]

/-- The candidates of two directives with a separator between them. -/
theorem candidates_append_separator (hσ : σ ≠ []) (hb : Unbordered σ) (h : Firm σ ∨ Blank σ)
    (s t : Text) : candidates σ (s ++ σ ++ t) = candidates σ s ++ candidates σ t := by
  simp only [candidates_eq_strip hσ h]
  rw [split_append_separator hσ hb, strip_append]

/-! ### What a candidate looks like -/

theorem mem_strip {x : Text} {ps : List Text} :
    x ∈ strip ps ↔ ∃ p ∈ ps, p.trim = x ∧ x ≠ [] := by
  simp only [strip, List.mem_filter, List.mem_map, decide_eq_true_eq]
  constructor
  · rintro ⟨⟨p, hp, e⟩, hne⟩
    exact ⟨p, hp, e, hne⟩
  · rintro ⟨p, hp, e, hne⟩
    exact ⟨⟨p, hp, e⟩, hne⟩

/-- The empty separator leaves single characters. -/
theorem length_le_one_of_mem_split {t p : Text} (h : p ∈ split [] t) : p.length ≤ 1 := by
  simp only [split, if_true, List.cons_append, List.mem_cons, List.mem_append, List.mem_map,
    List.not_mem_nil, or_false] at h
  rcases h with rfl | ⟨c, -, rfl⟩ | rfl <;> simp

theorem isCandidate_of_mem {t x : Text} (h : x ∈ candidates σ t) : IsCandidate σ x := by
  obtain ⟨p, hp, rfl, hne⟩ := mem_strip.1 h
  refine ⟨hne, firm_trim p, ?_⟩
  split_ifs with hσ
  · subst hσ
    have hlen := (isInfix_trim p).length_le.trans (length_le_one_of_mem_split hp)
    have hpos := List.length_pos_iff.2 hne
    omega
  · exact fun hin => not_infix_of_mem_split hσ hp (hin.trans (isInfix_trim p))

/-- A candidate on its own is a directive with nothing else in it. -/
theorem IsCandidate.candidates_eq {x : Text} (h : IsCandidate σ x) : candidates σ x = [x] := by
  rw [candidates_def, trim_eq_self_iff.2 h.firm]
  have hu := h.uncut
  split_ifs at hu with hσ
  · obtain ⟨c, rfl⟩ := List.length_eq_one_iff.1 hu
    rw [split, if_pos hσ]
    have hnil : ∀ r, strip ([] :: r) = strip r := strip_cons_of_blank (by decide)
    calc strip ([] :: ([[c]] ++ [[]])) = strip ([[c]] ++ [[]]) := hnil _
      _ = strip [[c]] ++ strip [[]] := strip_append _ _
      _ = [[c]] := by rw [strip_singleton h.ne_nil h.firm, hnil]; rfl
  · rw [split_eq_singleton hσ hu, strip_singleton h.ne_nil h.firm]

end SortClause
