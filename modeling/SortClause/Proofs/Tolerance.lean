import SortClause.Proofs.Composition
import SortClause.Proofs.Whitelist
/-!
One more separator at an end of a directive.  It is passed over if the separator is firm or blank.
If only the end of the separator that lies next to the directive is blank, it is passed over as long
as the directive is not blank (`candidates_append_of_firmEnd`, `candidates_append_of_firmStart`).
Otherwise trimming the directive takes a part of the separator away, and the rest of it counts as a
field or becomes part of one.
-/
namespace SortClause

open Text

variable {σ s : Text}

/-! ### Where one more separator is passed over -/

/-- Behind a directive that is not blank, a separator that ends firm is not touched by trimming. -/
theorem exists_trim_append (hend : FirmEnd σ) (hσ : σ ≠ []) (hs : ¬Blank s) :
    ∃ v, Blank v ∧ (s ++ σ).trim = s.trim ++ v ++ σ := by
  obtain ⟨u, v, hu, hv, e⟩ := exists_blank_ends s
  have hne : s.trim ≠ [] := fun h => hs (trim_eq_nil_iff.1 h)
  have hfirm : Firm (s.trim ++ v ++ σ) := by
    rw [List.append_assoc]
    exact (firm_append hne (by simp [hσ])).2 ⟨(firm_trim s).1, (firmEnd_append v hσ).2 hend⟩
  refine ⟨v, hv, ?_⟩
  conv_lhs => rw [← e]
  simpa using trim_eq_of_blank_ends hu hfirm (v := []) (by simp [Blank])

/-- Before a directive that is not blank, a separator that begins firm is not touched by
trimming. -/
theorem exists_trim_separator_append (hstart : FirmStart σ) (hσ : σ ≠ []) (hs : ¬Blank s) :
    ∃ u, Blank u ∧ (σ ++ s).trim = σ ++ (u ++ s.trim) := by
  obtain ⟨u, v, hu, hv, e⟩ := exists_blank_ends s
  have hne : s.trim ≠ [] := fun h => hs (trim_eq_nil_iff.1 h)
  have hfirm : Firm (σ ++ (u ++ s.trim)) :=
    (firm_append hσ (by simp [hne])).2 ⟨hstart, (firmEnd_append u hne).2 (firm_trim s).2⟩
  refine ⟨u, hu, ?_⟩
  conv_lhs => rw [← e]
  simpa using trim_eq_of_blank_ends (u := []) (by simp [Blank]) hfirm hv

theorem candidates_append_of_firmEnd (hσ : σ ≠ []) (hb : Unbordered σ) (hend : FirmEnd σ)
    (hs : ¬Blank s) : candidates σ (s ++ σ) = candidates σ s := by
  obtain ⟨v, hv, e⟩ := exists_trim_append hend hσ hs
  have hcut : split σ (s.trim ++ v ++ σ) = weld (split σ s.trim) (split σ v) ++ split σ [] := by
    rw [← split_append hσ (apart_of_blank_right (.inl hend) (firm_trim s) hv),
      ← split_append_separator hσ hb, List.append_nil]
  have hnil : strip (split σ []) = [] := strip_eq_nil fun x hx =>
    blank_of_mem_split (by simp [Blank]) hx
  rw [candidates_def, candidates_def, e, hcut, strip_append, hnil, List.append_nil,
    strip_weld_of_blank_right (fun x hx => blank_of_mem_split hv hx) _ (split_ne_nil σ v)]

theorem candidates_append_of_firmStart (hσ : σ ≠ []) (hstart : FirmStart σ) (hs : ¬Blank s) :
    candidates σ (σ ++ s) = candidates σ s := by
  obtain ⟨u, hu, e⟩ := exists_trim_separator_append hstart hσ hs
  have hne : s.trim ≠ [] := fun h => hs (trim_eq_nil_iff.1 h)
  have hapart : Apart σ u s.trim := by
    simpa using apart_of_blank_left hσ (.inl hstart) hu (firm_trim s) hne (v := [])
  rw [candidates_def, candidates_def, e, split_separator_append hσ, split_append hσ hapart,
    strip_cons_of_blank (by simp [Blank]),
    strip_weld_of_blank_left _ fun x hx => blank_of_mem_split hu hx]

/-! ### Where it is not -/

/-- What trimming leaves of a separator that is neither firm nor blank is a candidate. -/
theorem isCandidate_trim (hfirm : ¬Firm σ) (hblank : ¬Blank σ) : IsCandidate σ σ.trim := by
  refine ⟨fun h => hblank (trim_eq_nil_iff.1 h), firm_trim σ, ?_⟩
  rw [if_neg (by rintro rfl; exact hblank (by simp [Blank]))]
  intro hin
  have hlen := le_antisymm hin.length_le (isInfix_trim σ).length_le
  exact hfirm (trim_eq_self_iff.1 ((hin.eq_of_length hlen).symm))

/-- A separator with a blank end, without it. -/
theorem exists_of_not_firmEnd (hend : ¬FirmEnd σ) (hblank : ¬Blank σ) :
    ∃ m w, σ = m ++ w ∧ m ≠ [] ∧ FirmEnd m ∧ m.trim = σ.trim ∧ Blank w ∧ w ≠ [] := by
  obtain ⟨m, w, rfl, hm, hw⟩ := exists_firmEnd_append σ
  refine ⟨m, w, rfl, ?_, hm, (trim_append_of_blank hw m).symm, hw, ?_⟩
  · rintro rfl
    exact hblank hw
  · rintro rfl
    exact hend (by rwa [List.append_nil])

/-- A separator with a blank beginning, without it. -/
theorem exists_of_not_firmStart (hstart : ¬FirmStart σ) (hblank : ¬Blank σ) :
    ∃ w k, σ = w ++ k ∧ k ≠ [] ∧ FirmStart k ∧ Blank w ∧ w ≠ [] := by
  obtain ⟨w, k, rfl, hw, hk⟩ := exists_append_firmStart σ
  refine ⟨w, k, rfl, ?_, hk, hw, ?_⟩
  · rintro rfl
    exact hblank (by rwa [List.append_nil])
  · rintro rfl
    exact hstart hk

/-- A text as long as the separator has the separator in it only if it is the separator. -/
theorem not_infix_of_ne {x : Text} (hlen : x.length ≤ σ.length) (hne : x ≠ σ) : ¬σ <:+: x :=
  fun hin => hne (hin.eq_of_length (le_antisymm hin.length_le hlen)).symm

theorem length_lt_of_append_ne_nil {x w : Text} (hw : w ≠ []) : x.length < (x ++ w).length := by
  have := List.length_pos_iff.2 hw
  rw [List.length_append]
  omega

/-- A character that is not blank and not the given one. -/
theorem exists_firm_ne (c : Char) : ∃ a : Char, isBlankChar a = false ∧ a ≠ c := by
  by_cases h : c = 'a'
  · subst h
    exact ⟨'b', by decide, by decide⟩
  · exact ⟨'a', by decide, fun e => h e.symm⟩

/-- A field begins as the candidate does. -/
theorem head?_field {x : Text} (h : FirmStart x) :
    (Request.ofCandidate x).field.head? = x.head? := by
  cases x with
  | nil => rfl
  | cons a r =>
    have ha : a ≠ ' ' := by
      rintro rfl
      exact absurd (h ' ' rfl) (by decide)
    simp [Request.ofCandidate, ha]

theorem not_blank_cons {a : Char} {r : Text} (ha : isBlankChar a = false) : ¬Blank (a :: r) := by
  intro h
  rw [h a List.mem_cons_self] at ha
  cases ha

/-- Candidates that begin differently are for different fields. -/
theorem field_ne {x y : Text} (hx : FirmStart x) (hy : FirmStart y) (h : x.head? ≠ y.head?) :
    (Request.ofCandidate x).field ≠ (Request.ofCandidate y).field := by
  intro e
  rw [← head?_field hx, ← head?_field hy, e] at h
  exact h rfl

/-- With a blank at the end of the separator, one more of it makes some directive ask for one more
field. -/
theorem exists_field_added (hb : Unbordered σ) (hend : ¬FirmEnd σ) (hblank : ¬Blank σ) :
    ∃ s y, ¬Blank s ∧ y ∈ candidates σ (s ++ σ) ∧
      ∀ x ∈ candidates σ s, (Request.ofCandidate x).field ≠ (Request.ofCandidate y).field := by
  obtain ⟨m, w, e, hm, hmend, hmtrim, hw, hwne⟩ := exists_of_not_firmEnd hend hblank
  have hy : IsCandidate σ σ.trim := isCandidate_trim (fun h => hend h.2) hblank
  obtain ⟨c, r, hc⟩ := List.exists_cons_of_ne_nil hy.ne_nil
  obtain ⟨a, ha, hac⟩ := exists_firm_ne c
  have hσ : σ ≠ [] := by
    rintro rfl
    exact hblank (by simp [Blank])
  have hlen : m.length < σ.length := e ▸ length_lt_of_append_ne_nil hwne
  have hastart : FirmStart [a] := by simpa [FirmStart] using ha
  -- Trimmed, `a` and the separator are a single candidate, as the separator has lost its end; with
  -- one more separator the first is complete, and what is left of the second is a candidate.
  refine ⟨[a] ++ σ, σ.trim, not_blank_cons ha, ?_, fun x hx => ?_⟩
  · have hcut : m ∈ split σ ([a] ++ (σ ++ m)) := by
      rw [← List.append_assoc, split_append_separator hσ hb,
        split_eq_singleton hσ (t := m) fun hin => absurd hin.length_le (by omega)]
      simp
    have hfirm : Firm ([a] ++ (σ ++ m)) :=
      (firm_append (by simp) (by simp [hm])).2 ⟨hastart, (firmEnd_append σ hm).2 hmend⟩
    have htrim : trim ([a] ++ σ ++ σ) = [a] ++ (σ ++ m) := by
      have h := trim_append_of_blank hw ([a] ++ (σ ++ m))
      rw [trim_eq_self_iff.2 hfirm] at h
      rw [← h, List.append_assoc, List.append_assoc, List.append_assoc, ← e]
    rw [candidates_def, htrim]
    exact mem_strip.2 ⟨m, hcut, hmtrim, hy.ne_nil⟩
  · have hcand : IsCandidate σ (a :: m) := by
      have hfirm : Firm ([a] ++ m) := (firm_append (by simp) hm).2 ⟨hastart, hmend⟩
      refine ⟨by simp, hfirm, ?_⟩
      rw [if_neg hσ]
      refine not_infix_of_ne hlen ?_
      rintro rfl
      exact hend hfirm.2
    have htrim : trim ([a] ++ σ) = trim (a :: m) := by
      rw [e, ← List.append_assoc]
      exact trim_append_of_blank hw ([a] ++ m)
    rw [candidates_congr htrim, hcand.candidates_eq, List.mem_singleton] at hx
    subst hx
    exact field_ne hcand.firm.1 hy.firm.1 (by simpa [hc] using hac)

/-- With a blank at the beginning of the separator, one more of it makes some directive lose a
field. -/
theorem exists_field_lost (hstart : ¬FirmStart σ) (hblank : ¬Blank σ) :
    ∃ s x, ¬Blank s ∧ x ∈ candidates σ s ∧
      ∀ y ∈ candidates σ (σ ++ s),
        (Request.ofCandidate y).field ≠ (Request.ofCandidate x).field := by
  obtain ⟨w, k, e, hk, hkstart, hw, hwne⟩ := exists_of_not_firmStart hstart hblank
  obtain ⟨c, r, rfl⟩ := List.exists_cons_of_ne_nil hk
  obtain ⟨a, ha, hac⟩ := exists_firm_ne c
  have hσ : σ ≠ [] := by
    rintro rfl
    exact hblank (by simp [Blank])
  have hlen : (c :: r).length + 1 ≤ σ.length := by
    have := List.length_pos_iff.2 hwne
    rw [e, List.length_append]
    omega
  have hfirm : Firm [a] := firm_of_not_hasBlank (by simpa [hasBlank] using ha)
  have hcand : IsCandidate σ [a] := by
    refine ⟨by simp, hfirm, ?_⟩
    rw [if_neg hσ]
    intro hin
    have := hin.length_le
    simp only [List.length_cons, List.length_nil] at this hlen
    omega
  have hgrown : IsCandidate σ (c :: r ++ [a]) := by
    have hends : Firm (c :: r ++ [a]) := (firm_append hk (by simp)).2 ⟨hkstart, hfirm.2⟩
    refine ⟨by simp, hends, ?_⟩
    rw [if_neg hσ]
    refine not_infix_of_ne (by simpa using hlen) fun h => hstart ?_
    rw [← h]
    exact hends.1
  have htrim : trim (σ ++ [a]) = trim (c :: r ++ [a]) := by
    rw [e, List.append_assoc]
    exact trim_blank_append hw _
  -- By itself `a` is a candidate; behind what trimming leaves of the separator it is part of one.
  refine ⟨[a], [a], not_blank_cons ha, ?_, fun y hy => ?_⟩
  · rw [hcand.candidates_eq]
    exact List.mem_singleton_self _
  · rw [candidates_congr htrim, hgrown.candidates_eq, List.mem_singleton] at hy
    subst hy
    exact field_ne hgrown.firm.1 hfirm.1 (by simpa using hac.symm)

/-! ### Clauses -/

/-- A dictionary with a single key. -/
def Dictionary.only (key : Text) : Dictionary := .ofList [(key, .of false [['x']])]

theorem Dictionary.sortable?_only_eq_none_iff {key f : Text} :
    (only key).sortable? f = none ↔ f ≠ key := by
  have hget : (only key).get? f = if f = key then some (.of false [['x']]) else none :=
    get?_insert empty key f _
  rw [sortable?, hget]
  split_ifs with h
  · simp [h, show (Rule.of false [['x']]).isEmpty = false by decide]
  · simp [h]

namespace Config

variable {c : Config}

/-- The clause is empty only if no candidate is for a sortable field. -/
theorem expand_eq_nil_iff (hp : c.parse = Request.standardParser) (hr : c.render.BuiltIn)
    {d : Dictionary} {t : Text} : c.expand (some d) t = .ok [] ↔
      ∀ x ∈ candidates c.sourceSeparator t, d.sortable? (Request.ofCandidate x).field = none := by
  constructor
  · intro h x hx
    obtain ⟨v, hv⟩ := hr.exists_qualifier
    have hparse : ∀ x, c.parse x = .ok (Request.ofCandidate x) := fun x => by rw [hp]; rfl
    have hrender : ∀ x e, c.render x e =
        .ok (Renderer.plainText ((Qualifier.of v).qualify x) e) := fun x e => by rw [hv]; rfl
    rw [expand_eq_join hparse hrender] at h
    have hnil := (Dictionary.join_fragments_eq_nil_iff hr hrender d _ _).1 (Except.ok.inj h)
    by_contra hsort
    obtain ⟨rule, hrule⟩ := Option.ne_none_iff_exists'.1 hsort
    obtain ⟨hget, hfull⟩ := Dictionary.sortable?_eq_some.1 hrule
    have hadmit := Dictionary.admit?_eq_some.2 ⟨rule, hget, hfull, rfl⟩
    have hpick := List.mem_filterMap.2 ⟨_, List.mem_map_of_mem hx, hadmit⟩
    have hfragments := List.flatMap_eq_nil_iff.1 hnil _ hpick
    rw [Dictionary.fragments_of_builtIn hr hrender, List.map_eq_nil_iff,
      Dictionary.destinations_of_get? hget] at hfragments
    rw [Rule.isEmpty, hfragments] at hfull
    cases hfull
  · intro h
    refine expand_of_idle fun x hx => ⟨_, by rw [hp]; rfl, fun d' hd => ?_⟩
    obtain rfl : d = d' := Option.some.inj hd
    exact h x hx

theorem expand_only_eq_nil_iff (hp : c.parse = Request.standardParser) (hr : c.render.BuiltIn)
    {key t : Text} : c.expand (some (.only key)) t = .ok [] ↔
      ∀ x ∈ candidates c.sourceSeparator t, (Request.ofCandidate x).field ≠ key := by
  simp only [expand_eq_nil_iff hp hr, Dictionary.sortable?_only_eq_none_iff]

/-- One more separator at an end is passed over if the separator is firm or blank, and next to a
directive that is not blank if the separator is firm where the trimming reaches it.  Otherwise, with
the standard parser and the library's own renderers, it can make a difference: a blank directive may
get a clause, and any other end may lose or gain one. -/
theorem expand_extra_separator {σ : Text} (hsep : c.sourceSeparator = σ) (hne : σ ≠ [])
    (hb : Unbordered σ) :
    (Firm σ ∨ Blank σ → ∀ dict s,
      c.expand dict (s ++ σ) = c.expand dict s ∧ c.expand dict (σ ++ s) = c.expand dict s) ∧
    (∀ dict s, ¬Blank s →
      (FirmEnd σ → c.expand dict (s ++ σ) = c.expand dict s) ∧
      (FirmStart σ → c.expand dict (σ ++ s) = c.expand dict s)) ∧
    (c.parse = Request.standardParser → c.render.BuiltIn → ¬Blank σ →
      (¬Firm σ → ∃ d, ∀ s, Blank s → c.expand (some d) s = .ok [] ∧
        c.expand (some d) (s ++ σ) ≠ .ok [] ∧ c.expand (some d) (σ ++ s) ≠ .ok []) ∧
      (¬FirmEnd σ → ∃ d s, ¬Blank s ∧ c.expand (some d) (s ++ σ) ≠ c.expand (some d) s) ∧
      (¬FirmStart σ → ∃ d s, ¬Blank s ∧ c.expand (some d) (σ ++ s) ≠ c.expand (some d) s)) := by
  subst hsep
  refine ⟨fun h dict s => ?_, fun dict s hs => ⟨fun hend => ?_, fun hstart => ?_⟩,
    fun hp hr hblank => ⟨fun hfirm => ?_, fun hend => ?_, fun hstart => ?_⟩⟩
  · have hnil : candidates c.sourceSeparator [] = [] := candidates_of_blank (by simp [Blank])
    have hright := candidates_append_separator hne hb h s []
    have hleft := candidates_append_separator hne hb h [] s
    rw [hnil, List.append_nil, List.append_nil] at hright
    rw [hnil, List.nil_append, List.nil_append] at hleft
    exact ⟨expand_congr hright, expand_congr hleft⟩
  · exact expand_congr (candidates_append_of_firmEnd hne hb hend hs)
  · exact expand_congr (candidates_append_of_firmStart hne hstart hs)
  · have hcand : IsCandidate c.sourceSeparator c.sourceSeparator.trim :=
      isCandidate_trim hfirm hblank
    let key := (Request.ofCandidate c.sourceSeparator.trim).field
    have hown : ∀ t : Text, t.trim = c.sourceSeparator.trim →
        c.expand (some (.only key)) t ≠ .ok [] := by
      intro t ht h
      have hx : c.sourceSeparator.trim ∈ candidates c.sourceSeparator t := by
        rw [candidates_congr (ht.trans (trim_trim _).symm), hcand.candidates_eq]
        exact List.mem_singleton_self _
      exact (expand_only_eq_nil_iff hp hr).1 h _ hx rfl
    exact ⟨.only key, fun s hs => ⟨expand_of_idle (idle_of_blank hs),
      hown _ (trim_blank_append hs _), hown _ (trim_append_of_blank hs _)⟩⟩
  · obtain ⟨s, y, hs, hy, hfield⟩ := exists_field_added hb hend hblank
    refine ⟨.only (Request.ofCandidate y).field, s, hs, fun h => ?_⟩
    rw [(expand_only_eq_nil_iff hp hr).2 hfield] at h
    exact (expand_only_eq_nil_iff hp hr).1 h y hy rfl
  · obtain ⟨s, x, hs, hx, hfield⟩ := exists_field_lost hstart hblank
    refine ⟨.only (Request.ofCandidate x).field, s, hs, fun h => ?_⟩
    rw [(expand_only_eq_nil_iff hp hr).2 hfield] at h
    exact (expand_only_eq_nil_iff hp hr).1 h.symm x hx rfl

/-- Cuts at `;` and at `, `. -/
def semicolons : Config := { sourceSeparator := [';'] }

def spacedCommas : Config := { sourceSeparator := [',', ' '] }

theorem expand_extra_separator_spaced :
    (Unbordered [';'] ∧ Firm [';'] ∧
      semicolons.expand (some (.only "uid".toList)) "uid desc ;".toList = .ok "x DESC".toList ∧
      semicolons.expand (some (.only "uid".toList)) "; uid desc ".toList = .ok "x DESC".toList) ∧
    (Unbordered [',', ' '] ∧ FirmStart [',', ' '] ∧ ¬FirmEnd [',', ' '] ∧
      spacedCommas.expand (some (.only "uid".toList)) ", uid desc ".toList = .ok "x DESC".toList ∧
      ∃ d s, ¬Blank s ∧
        spacedCommas.expand (some d) (s ++ [',', ' ']) ≠ spacedCommas.expand (some d) s) := by
  have hsemi : Unbordered [';'] ∧ Firm [';'] := by decide
  have hspaced : Unbordered [',', ' '] ∧ FirmStart [',', ' '] ∧ ¬FirmEnd [',', ' '] := by decide
  have semi := (@expand_extra_separator semicolons [';'] rfl (by decide) hsemi.1).1 (.inl hsemi.2)
    (some (.only "uid".toList))
  have spaced := @expand_extra_separator spacedCommas [',', ' '] rfl (by decide) hspaced.1
  refine ⟨⟨hsemi.1, hsemi.2, (semi "uid desc ".toList).1.trans (by decide),
    (semi " uid desc ".toList).2.trans (by decide)⟩, hspaced.1, hspaced.2.1, hspaced.2.2, ?_, ?_⟩
  · exact ((spaced.2.1 (some (.only "uid".toList)) "uid desc ".toList (by decide)).2
      hspaced.2.1).trans (by decide)
  · exact (spaced.2.2 rfl (.inl rfl) (by decide)).2.1 hspaced.2.2

/-- A separator with a space at one end costs the directive a field when it stands at that end. -/
theorem extra_spaced_separator_loses_field :
    let d : Dictionary := .only "uid".toList
    (Unbordered ", ".toList ∧
      spacedCommas.expand (some d) "uid".toList = .ok "x ASC".toList ∧
      spacedCommas.expand (some d) ("uid".toList ++ ", ".toList) = .ok []) ∧
    (Unbordered " ,".toList ∧
      ({ sourceSeparator := " ,".toList } : Config).expand (some d) "uid".toList =
        .ok "x ASC".toList ∧
      ({ sourceSeparator := " ,".toList } : Config).expand (some d) (" ,".toList ++ "uid".toList) =
        .ok []) := by
  decide

end Config
end SortClause
