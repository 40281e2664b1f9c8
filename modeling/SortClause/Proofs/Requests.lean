import SortClause.Settings
import SortClause.Proofs.Rendering
/-!
What clients can ask for.  A request comes from a candidate: the field, with nothing after it or
with a space and the rest (`ofCandidate_eq_iff`).  A field can be named exactly if it does not begin
with a blank, has no space and no separator in it, and can be told from what comes after it
(`nameable_iff`); a space with the word for descending, which has two spellings to choose from, can
be added unless the separator ends right there (`exists_isCandidate_desc`).  Main statement: with a
separator that has no blank in it, every field without separator and space that does not begin with
a blank is read from some directive, and no other is (`exists_parse_field_iff`).
-/
namespace SortClause

open Text

/-- Some candidate, when directives are cut at `σ`, is for this field. -/
structure Nameable (σ field : Text) : Prop where
  ne_nil : field ≠ []
  /-- It does not begin with a blank, which trimming would take off. -/
  start : FirmStart field
  noSpace : ' ' ∉ field
  uncut : if σ = [] then field.length = 1 else ¬σ <:+: field
  /-- Trimming leaves its end alone, or a space can be put after it. -/
  closed : FirmEnd field ∨ ¬σ <:+ field ++ [' ']

instance (σ field : Text) : Decidable (Nameable σ field) :=
  decidable_of_iff (field ≠ [] ∧ FirmStart field ∧ ' ' ∉ field ∧
      (if σ = [] then field.length = 1 else ¬σ <:+: field) ∧
      (FirmEnd field ∨ ¬σ <:+ field ++ [' ']))
    ⟨fun ⟨a, b, c, d, e⟩ => ⟨a, b, c, d, e⟩, fun ⟨a, b, c, d, e⟩ => ⟨a, b, c, d, e⟩⟩

/-! ### Reading a candidate -/

namespace Request

variable {k r : Text}

/-- The direction asked for by what follows the space after a field. -/
def wordDirection (r : Text) : Direction := if isDesc (r.takeWhile (· ≠ ' ')) then .desc else .asc

theorem forall_ne_space (hk : ' ' ∉ k) : ∀ c ∈ k, decide (c ≠ ' ') = true := by
  intro c hc
  rw [decide_eq_true_eq]
  rintro rfl
  exact hk hc

theorem ofCandidate_self (hk : ' ' ∉ k) : ofCandidate k = ⟨k, .asc⟩ := by
  have hall := forall_ne_space hk
  have htake : k.takeWhile (· ≠ ' ') = k := List.takeWhile_eq_self_iff.2 hall
  have hdrop : k.dropWhile (· ≠ ' ') = [] := List.dropWhile_eq_nil_iff.2 hall
  rw [ofCandidate, htake, hdrop, directionOf]

theorem ofCandidate_append_space (hk : ' ' ∉ k) (r : Text) :
    ofCandidate (k ++ ' ' :: r) = ⟨k, wordDirection r⟩ := by
  have hall := forall_ne_space hk
  have htake : (k ++ ' ' :: r).takeWhile (· ≠ ' ') = k := by
    rw [List.takeWhile_append_of_pos hall]
    simp
  have hdrop : (k ++ ' ' :: r).dropWhile (· ≠ ' ') = ' ' :: r := by
    rw [List.dropWhile_append_of_pos hall]
    simp
  rw [ofCandidate, htake, hdrop, directionOf, wordDirection]

/-- A candidate is its field, or its field with a space and more after it. -/
theorem ofCandidate_eq_iff {x : Text} {d : Direction} : ofCandidate x = ⟨k, d⟩ ↔
    ' ' ∉ k ∧ (x = k ∧ d = .asc ∨ ∃ r, x = k ++ ' ' :: r ∧ d = wordDirection r) := by
  constructor
  · intro h
    obtain ⟨rfl, rfl⟩ := Request.mk.inj h
    refine ⟨fun hs => by simpa using List.mem_takeWhile_imp hs, ?_⟩
    have hx := List.takeWhile_append_dropWhile (p := fun c : Char => decide (c ≠ ' ')) (l := x)
    cases hr : x.dropWhile (· ≠ ' ') with
    | nil =>
      rw [hr, List.append_nil] at hx
      exact .inl ⟨hx.symm, rfl⟩
    | cons c r =>
      have hne : x.dropWhile (· ≠ ' ') ≠ [] := by
        rw [hr]
        exact List.cons_ne_nil c r
      have hhead := List.head_dropWhile_not _ hne
      obtain rfl : c = ' ' := by simpa only [hr, List.head_cons, decide_eq_false_iff_not,
        not_not] using hhead
      rw [hr] at hx
      exact .inr ⟨r, hx.symm, rfl⟩
  · rintro ⟨hk, ⟨rfl, rfl⟩ | ⟨r, rfl, rfl⟩⟩
    · exact ofCandidate_self hk
    · exact ofCandidate_append_space hk r

end Request

open Request

/-! ### Making candidates -/

variable {σ k : Text}

/-- A separator is not completed by characters with which it does not end. -/
theorem Text.not_infix_append {a b : Text} (hσ : σ ≠ []) (ha : ¬σ <:+: a)
    (hb : ∀ c ∈ b, σ.getLast? ≠ some c) : ¬σ <:+: a ++ b := by
  induction b using List.reverseRecOn with
  | nil => simpa using ha
  | append_singleton b c ih =>
    rw [← List.append_assoc, List.infix_concat_iff, List.suffix_concat_iff]
    rintro ((hnil | ⟨t, rfl, -⟩) | hin)
    · exact hσ hnil
    · exact hb c (by simp) List.getLast?_concat
    · exact ih (fun e he => hb e (List.mem_append_left _ he)) hin

/-- One of two spellings of the word for descending has no character with which `σ` ends. -/
theorem exists_spelling (σ : Text) :
    ∃ w, (w = "desc".toList ∨ w = "DESC".toList) ∧ ∀ c ∈ w, σ.getLast? ≠ some c := by
  by_cases h : ∃ c ∈ "desc".toList, σ.getLast? = some c
  · obtain ⟨c, hc, e⟩ := h
    have hcase : ∀ c ∈ "desc".toList, c ∉ "DESC".toList := by simp
    refine ⟨_, .inr rfl, fun d hd hlast => hcase c hc ?_⟩
    obtain rfl : d = c := Option.some.inj (hlast.symm.trans e)
    exact hd
  · exact ⟨_, .inl rfl, fun c hc e => h ⟨c, hc, e⟩⟩

/-- Unless the separator ends with the space after the field, the field can be asked for
descending. -/
theorem exists_isCandidate_desc (hσ : σ ≠ []) (hne : k ≠ [])
    (hstart : FirmStart k) (hk : ' ' ∉ k) (huncut : ¬σ <:+: k)
    (hspace : ¬σ <:+ k ++ [' ']) : ∃ x, IsCandidate σ x ∧ ofCandidate x = ⟨k, .desc⟩ := by
  obtain ⟨w, hw, hlast⟩ := exists_spelling σ
  have hend : FirmEnd (' ' :: w) ∧ wordDirection w = .desc := by
    rcases hw with rfl | rfl <;> decide
  have hin : ¬σ <:+: k ++ ' ' :: w := by
    have hks : ¬σ <:+: k ++ [' '] := by
      rw [List.infix_concat_iff]
      exact not_or.2 ⟨hspace, huncut⟩
    simpa using not_infix_append hσ hks hlast
  refine ⟨k ++ ' ' :: w, ⟨by simp, (firm_append hne (by simp)).2 ⟨hstart, hend.1⟩, ?_⟩, ?_⟩
  · rwa [if_neg hσ]
  · rw [ofCandidate_append_space hk, hend.2]

/-- A firm field that is not cut can be asked for as it stands. -/
theorem isCandidate_field (hne : k ≠ []) (hfirm : Firm k) (hk : ' ' ∉ k)
    (huncut : if σ = [] then k.length = 1 else ¬σ <:+: k) :
    IsCandidate σ k ∧ ofCandidate k = ⟨k, .asc⟩ :=
  ⟨⟨hne, hfirm, huncut⟩, ofCandidate_self hk⟩

/-! ### The fields that can be named -/

/-- A candidate of two characters or more leaves nothing to be cut. -/
theorem IsCandidate.not_infix {x : Text} (h : IsCandidate σ x) (hlen : 1 < x.length) :
    ¬σ <:+: x := by
  have hu := h.uncut
  split_ifs at hu with hσ
  · omega
  · exact hu

theorem IsCandidate.nameable_self {x : Text} (h : IsCandidate σ x) (hk : ' ' ∉ x) :
    Nameable σ x := by
  exact ⟨h.ne_nil, h.firm.1, hk, h.uncut, .inl h.firm.2⟩

theorem IsCandidate.field_ne_nil {r : Text} (h : IsCandidate σ (k ++ ' ' :: r)) : k ≠ [] := by
  rintro rfl
  exact absurd (h.firm.1 ' ' rfl) (by decide)

/-- The space after a field cannot be where a separator ends. -/
theorem IsCandidate.not_suffix_space {r : Text} (h : IsCandidate σ (k ++ ' ' :: r)) :
    ¬σ <:+ k ++ [' '] := by
  have hpos := List.length_pos_iff.2 h.field_ne_nil
  have hlen : 1 < (k ++ ' ' :: r).length := by
    rw [List.length_append, List.length_cons]
    omega
  exact fun hs => h.not_infix hlen (hs.isInfix.trans ⟨[], r, by simp⟩)

theorem IsCandidate.nameable_before_space {r : Text} (h : IsCandidate σ (k ++ ' ' :: r))
    (hk : ' ' ∉ k) : Nameable σ k := by
  have hspace := h.not_suffix_space
  have hσ : σ ≠ [] := by
    rintro rfl
    exact hspace List.nil_suffix
  have hne := h.field_ne_nil
  refine ⟨hne, ((firm_append hne (by simp)).1 h.firm).1, hk, ?_, .inr hspace⟩
  have hu := h.uncut
  rw [if_neg hσ] at hu ⊢
  exact fun hin => hu (hin.trans (List.prefix_append k _).isInfix)

theorem Nameable.exists_isCandidate (h : Nameable σ k) :
    ∃ x, IsCandidate σ x ∧ (ofCandidate x).field = k := by
  obtain ⟨hne, hstart, hk, huncut, hclosed⟩ := h
  rcases hclosed with hend | hspace
  · obtain ⟨hx, hq⟩ := isCandidate_field hne ⟨hstart, hend⟩ hk huncut
    exact ⟨k, hx, by rw [hq]⟩
  · have hσ : σ ≠ [] := by
      rintro rfl
      exact hspace List.nil_suffix
    rw [if_neg hσ] at huncut
    obtain ⟨x, hx, hq⟩ := exists_isCandidate_desc hσ hne hstart hk huncut hspace
    exact ⟨x, hx, by rw [hq]⟩

/-- The fields that some candidate is for. -/
theorem nameable_iff : (∃ x, IsCandidate σ x ∧ (ofCandidate x).field = k) ↔ Nameable σ k := by
  constructor
  · rintro ⟨x, hx, hf⟩
    have hq : ofCandidate x = ⟨k, (ofCandidate x).direction⟩ := by rw [← hf]
    obtain ⟨hk, ⟨rfl, -⟩ | ⟨r, rfl, -⟩⟩ := ofCandidate_eq_iff.1 hq
    · exact hx.nameable_self hk
    · exact hx.nameable_before_space hk
  · exact Nameable.exists_isCandidate

/-- A separator without blanks does not end with the space after a field. -/
theorem nameable_iff_of_solid (hσ : σ ≠ []) (hsolid : σ.hasBlank = false) :
    Nameable σ k ↔ k ≠ [] ∧ FirmStart k ∧ ' ' ∉ k ∧ ¬σ <:+: k := by
  have hspace : ¬σ <:+ k ++ [' '] := by
    rw [List.suffix_concat_iff]
    rintro (hnil | ⟨u, rfl, -⟩)
    · exact hσ hnil
    · exact space_not_mem hsolid (by simp)
  constructor
  · rintro ⟨hne, hstart, hk, huncut, -⟩
    rw [if_neg hσ] at huncut
    exact ⟨hne, hstart, hk, huncut⟩
  · rintro ⟨hne, hstart, hk, huncut⟩
    exact ⟨hne, hstart, hk, by rwa [if_neg hσ], .inr hspace⟩

/-- What holds of a candidate of some directive holds of a text that can be one. -/
theorem exists_mem_candidates_iff {P : Text → Prop} :
    (∃ t, ∃ x ∈ candidates σ t, P x) ↔ ∃ x, IsCandidate σ x ∧ P x := by
  constructor
  · rintro ⟨t, x, hx, hP⟩
    exact ⟨x, isCandidate_of_mem hx, hP⟩
  · rintro ⟨x, hx, hP⟩
    refine ⟨x, x, ?_, hP⟩
    rw [hx.candidates_eq]
    exact List.mem_singleton_self x

/-- With the standard parser and a separator that has no blank in it, a field is read from some
directive exactly if it is not empty, does not begin with a blank and has neither a space nor the
separator in it. -/
theorem exists_parse_field_iff {c : Config} (hparser : c.parser? = none)
    (hσ : c.sourceSeparator ≠ []) (hsolid : ∀ x ∈ c.sourceSeparator, isBlankChar x = false)
    (f : Text) :
    (∃ t, ∃ x ∈ candidates c.sourceSeparator t, ∃ d, c.parse x = .ok ⟨f, d⟩) ↔
      f ≠ [] ∧ FirmStart f ∧ ' ' ∉ f ∧ ¬c.sourceSeparator <:+: f := by
  have hparse : ∀ x, (∃ d, c.parse x = .ok ⟨f, d⟩) ↔ (ofCandidate x).field = f := by
    intro x
    simp only [Config.parse, hparser, Option.getD_none, standardParser, Except.ok.injEq]
    constructor
    · rintro ⟨d, hq⟩
      rw [hq]
    · rintro rfl
      exact ⟨(ofCandidate x).direction, rfl⟩
  simp only [hparse]
  rw [exists_mem_candidates_iff, nameable_iff,
    nameable_iff_of_solid hσ (hasBlank_eq_false_iff.2 hsolid)]

/-- A tab at the end of a field stays if a word follows; at the beginning, or for a space, nothing
helps. -/
theorem exists_parse_field_tab :
    (∃ t, ∃ x ∈ candidates ['|'] t, ∃ d,
      ({ sourceSeparator := ['|'] } : Config).parse x = .ok ⟨"a\t".toList, d⟩) ∧
    ∀ f ∈ ["\ta".toList, "a b".toList, "a|".toList], ¬∃ t, ∃ x ∈ candidates ['|'] t, ∃ d,
      ({ sourceSeparator := ['|'] } : Config).parse x = .ok ⟨f, d⟩ := by
  have hsolid : ∀ x ∈ ['|'], isBlankChar x = false := hasBlank_eq_false_iff.1 (by decide)
  have law := @exists_parse_field_iff { sourceSeparator := ['|'] } rfl (by decide) hsolid
  refine ⟨(law _).2 (by decide), fun f hf => mt (law f).1 ?_⟩
  simp only [List.mem_cons, List.not_mem_nil, or_false] at hf
  rcases hf with rfl | rfl | rfl <;> decide

end SortClause
