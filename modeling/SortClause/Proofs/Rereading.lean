import SortClause.Proofs.Keys
/-!
Sort clauses as directives.  Under settings in which every key stands for itself and fragments are
joined with the source separator, perhaps between blanks, a clause can be read as a directive: its
candidates are its fragments (`candidates_join_padded`), and a fragment is read as the key and the
direction that it was written from (`ofCandidate_text`).  A rule turns a direction each time it
comes by, so the second clause may differ from the first, but the third is the first again
(`expand_reread`).
-/
namespace SortClause

open Text Request

/-- A rule that turns a direction turns it back the next time. -/
theorem Rule.direction_direction (r : Rule) (d : Direction) : r.direction (r.direction d) = d := by
  rw [direction, direction]
  split_ifs
  · exact d.reversed_reversed
  · rfl

theorem map_eq_self {α : Type} {f : α → α} {xs : List α} (h : ∀ x ∈ xs, f x = x) :
    xs.map f = xs :=
  (List.map_congr_left h).trans (List.map_id xs)

/-! ### Fragments as candidates -/

/-- What a key and a direction are written as when the key stands for itself. -/
def Request.text (q : Request) : Text := Renderer.plainText q.field q.direction

/-- What is written is read as it was meant. -/
theorem ofCandidate_text {q : Request} (h : ' ' ∉ q.field) : ofCandidate q.text = q := by
  rcases q with ⟨k, d⟩
  rw [Request.text, Renderer.plainText, ofCandidate_append_space h]
  cases d <;> rfl

/-- A text that is not on either side of a character is not across it either, if it does not have
the character. -/
theorem Text.not_infix_append_cons {σ a b : Text} {c : Char} (hσ : σ ≠ []) (hc : c ∉ σ)
    (ha : ¬σ <:+: a) (hb : ¬σ <:+: b) : ¬σ <:+: a ++ c :: b := by
  have hlead : ∀ l : Text, l <+: c :: b → c ∉ l → l = [] := by
    intro l hl hcl
    rcases List.prefix_cons_iff.1 hl with hnil | ⟨t, rfl, -⟩
    · exact hnil
    · exact absurd List.mem_cons_self hcl
  rw [List.infix_append_iff, List.infix_cons_iff]
  rintro (h | (h | h) | ⟨l₁, l₂, rfl, h₁, h₂⟩)
  · exact ha h
  · exact hσ (hlead σ h hc)
  · exact hb h
  · have hnil : l₂ = [] := hlead l₂ h₂ fun hm => hc (List.mem_append_right l₁ hm)
    rw [hnil, List.append_nil] at ha
    exact ha h₁.isInfix

/-- Candidates joined with the separator between blanks are the candidates of their join. -/
theorem candidates_join_padded {σ u v : Text} (hσ : σ ≠ []) (hb : Unbordered σ) (hfirm : Firm σ)
    (hu : Blank u) (hv : Blank v) : ∀ {xs : List Text}, (∀ x ∈ xs, IsCandidate σ x) →
      candidates σ (join (u ++ σ ++ v) xs) = xs
  | [], _ => candidates_of_blank (by simp [join, Blank])
  | [x], h => (h x List.mem_cons_self).candidates_eq
  | x :: y :: r, h => by
    have hr : ∀ z ∈ y :: r, IsCandidate σ z := fun z hz => h z (List.mem_cons_of_mem x hz)
    have hsides : join (u ++ σ ++ v) (x :: y :: r) =
        (x ++ u) ++ σ ++ (v ++ join (u ++ σ ++ v) (y :: r)) := by
      rw [join_cons _ x (by simp)]
      simp only [List.append_assoc]
    rw [hsides, candidates_append_separator hσ hb (.inl hfirm),
      candidates_congr (trim_append_of_blank hu x), candidates_congr (trim_blank_append hv _),
      (h x List.mem_cons_self).candidates_eq, candidates_join_padded hσ hb hfirm hu hv hr]
    rfl

namespace Settings

/-- Settings whose clauses can be read as directives. -/
structure Rereadable (s : Settings) : Prop where
  valid : s.isValid = true
  unqualified : s.qualifier = none
  ne_nil : s.sourceSeparator ≠ []
  solid : s.sourceSeparator.hasBlank = false
  unbordered : Unbordered s.sourceSeparator
  /-- The separator is no part of a direction. -/
  keywords : ∀ d : Direction, ¬s.sourceSeparator <:+: d.keyword
  /-- Fragments are joined with the separator and blanks around it. -/
  padded : ∃ u v, Blank u ∧ Blank v ∧ s.targetSeparator = u ++ s.sourceSeparator ++ v
  /-- Every key stands for itself. -/
  own : ∀ k r, s.fields.get? k = some r → r.destinations = [k]

/-- What the rule of its field makes of a request; a request for any other field stays. -/
def turn (s : Settings) (q : Request) : Request := (s.fields.admit? q).getD q

/-- What a directive picks under the settings. -/
def picks (s : Settings) (directive : Text) : List Request :=
  s.config.selection ofCandidate s.fields directive

variable {s : Settings} {q : Request}

/-! ### Turning a request -/

theorem turn_of_get? {r : Rule} (h : s.fields.get? q.field = some r) (hne : r.isEmpty = false) :
    s.fields.admit? q = some (s.turn q) ∧ s.turn q = ⟨q.field, r.direction q.direction⟩ := by
  have hadmit : s.fields.admit? q = some ⟨q.field, r.direction q.direction⟩ :=
    Dictionary.admit?_eq_some.2 ⟨r, h, hne, rfl⟩
  simp [turn, hadmit]

theorem mem_picks {t : Text} (h : q ∈ s.picks t) :
    ∃ r, s.fields.get? q.field = some r ∧ r.isEmpty = false :=
  Config.get?_of_mem_selection h

theorem turn_turn {r : Rule} (h : s.fields.get? q.field = some r) (hne : r.isEmpty = false) :
    s.turn (s.turn q) = q := by
  obtain ⟨-, hq⟩ := turn_of_get? h hne
  have hfield : (s.turn q).field = q.field := by rw [hq]
  rw [(turn_of_get? (hfield ▸ h) hne).2, hq, Rule.direction_direction]

namespace Rereadable

variable (h : s.Rereadable)
include h

/-! ### Clauses -/

theorem key_ok {k : Text} {r : Rule} (hr : s.fields.get? k = some r) :
    k ≠ [] ∧ k.hasBlank = false ∧ ¬s.sourceSeparator <:+: k := by
  have hk : k ∈ s.fields.keys := Dictionary.mem_keys_iff.2 ⟨r, hr⟩
  obtain ⟨hne, hblank, huncut⟩ := keyProblem?_eq_none_iff.1 (keyProblem?_of_isValid h.valid hk)
  exact ⟨hne, hblank, fun hin => huncut ⟨h.ne_nil, hin⟩⟩

/-- A key with a direction is a candidate. -/
theorem isCandidate_text {r : Rule} (hr : s.fields.get? q.field = some r) :
    IsCandidate s.sourceSeparator q.text := by
  obtain ⟨hne, hblank, huncut⟩ := h.key_ok hr
  obtain ⟨htext, hfirm⟩ :=
    Renderer.firm_plainText hne (firm_of_not_hasBlank hblank) q.direction
  refine ⟨htext, hfirm, ?_⟩
  rw [if_neg h.ne_nil]
  exact not_infix_append_cons h.ne_nil (space_not_mem h.solid) huncut (h.keywords q.direction)

/-- The clause of a directive is what it picks, written out. -/
theorem expand_eq (t : Text) : s.config.expand (some s.fields) t =
    .ok (join s.targetSeparator ((s.picks t).map Request.text)) := by
  have hrender : s.config.render = Renderer.standard := by
    rw [render_config, renderer?, h.unqualified]
    rfl
  have hr : ∀ x d, s.config.render x d = .ok (Renderer.plainText x d) := fun x d => by
    rw [hrender]; rfl
  have hp : ∀ x, s.config.parse x = .ok (ofCandidate x) := fun x => by rw [parse_config]; rfl
  have hfragments : (s.picks t).flatMap (s.fields.fragments Renderer.plainText) =
      (s.picks t).map Request.text := by
    rw [← List.flatMap_singleton' ((s.picks t).map Request.text), List.flatMap_map]
    refine List.flatMap_congr fun q hq => ?_
    obtain ⟨r, hget, -⟩ := mem_picks hq
    rw [Dictionary.fragments_of_builtIn (.inl hrender) hr, Dictionary.destinations_of_get? hget,
      h.own _ _ hget]
    rfl
  rw [Config.expand_eq_join hp hr, targetSeparator_config]
  exact congrArg (fun xs => Except.ok (join s.targetSeparator xs)) hfragments

/-- A clause picks what it was written from, turned once more. -/
theorem picks_join {qs : List Request}
    (hqs : ∀ q ∈ qs, ∃ r, s.fields.get? q.field = some r ∧ r.isEmpty = false) :
    s.picks (join s.targetSeparator (qs.map Request.text)) = qs.map s.turn := by
  obtain ⟨u, v, hu, hv, hτ⟩ := h.padded
  have hcand : ∀ x ∈ qs.map Request.text, IsCandidate s.sourceSeparator x := by
    intro x hx
    obtain ⟨q, hq, rfl⟩ := List.mem_map.1 hx
    obtain ⟨r, hr, -⟩ := hqs q hq
    exact h.isCandidate_text hr
  have hread : (qs.map Request.text).map ofCandidate = qs := by
    rw [List.map_map]
    refine map_eq_self fun q hq => ?_
    obtain ⟨r, hr, -⟩ := hqs q hq
    exact ofCandidate_text (space_not_mem (h.key_ok hr).2.1)
  have hfirm : Firm s.sourceSeparator := firm_of_not_hasBlank h.solid
  rw [picks, Config.selection, sourceSeparator_config, hτ,
    candidates_join_padded h.ne_nil h.unbordered hfirm hu hv hcand, hread]
  refine List.filterMap_eq_map_iff_forall_eq_some.2 fun q hq => ?_
  obtain ⟨r, hr, hne⟩ := hqs q hq
  exact (turn_of_get? hr hne).1

end Rereadable

/-- Under settings whose clauses can be read as directives, every directive has a clause, and that
clause has one of its own, of the same keys with the directions turned where the rules say so; the
clause of this one is the first again.  If no rule turns directions, the first clause is its own
clause already. -/
theorem expand_reread (h : s.Rereadable) (t : Text) : ∃ qs : List Request,
    let first := join s.targetSeparator (qs.map Request.text)
    let second := join s.targetSeparator ((qs.map s.turn).map Request.text)
    s.config.expand (some s.fields) t = .ok first ∧
    s.config.expand (some s.fields) first = .ok second ∧
    s.config.expand (some s.fields) second = .ok first ∧
    ((∀ k r, s.fields.get? k = some r → r.reverse = false) → second = first) := by
  have hpicked : ∀ q ∈ s.picks t, ∃ r, s.fields.get? q.field = some r ∧ r.isEmpty = false :=
    fun q hq => mem_picks hq
  have hturned : ∀ q ∈ (s.picks t).map s.turn,
      ∃ r, s.fields.get? q.field = some r ∧ r.isEmpty = false := by
    intro q hq
    obtain ⟨p, hp, rfl⟩ := List.mem_map.1 hq
    obtain ⟨r, hr, hne⟩ := hpicked p hp
    have hfield : (s.turn p).field = p.field := by rw [(turn_of_get? hr hne).2]
    exact ⟨r, hfield ▸ hr, hne⟩
  have hback : ((s.picks t).map s.turn).map s.turn = s.picks t := by
    rw [List.map_map]
    refine map_eq_self fun q hq => ?_
    obtain ⟨r, hr, hne⟩ := hpicked q hq
    exact turn_turn hr hne
  refine ⟨s.picks t, h.expand_eq t, ?_, ?_, fun hplain => ?_⟩
  · rw [h.expand_eq, h.picks_join hpicked]
  · rw [h.expand_eq, h.picks_join hturned, hback]
  · have hstay : (s.picks t).map s.turn = s.picks t := by
      refine map_eq_self fun q hq => ?_
      obtain ⟨r, hr, hne⟩ := hpicked q hq
      rw [(turn_of_get? hr hne).2, Rule.direction, hplain _ _ hr]
      rfl
    rw [hstay]

/-- Two keys that stand for themselves, the first of them reversed or not, in directives that are
cut at `<>`. -/
def selfNamed (reverse : Bool) : Settings where
  sourceSeparator := "<>".toList
  targetSeparator := " <>\t".toList
  fields := .ofList [(['a'], .of reverse [['a']]), ("b-c".toList, .of false ["b-c".toList])]

theorem rereadable_selfNamed (reverse : Bool) : (selfNamed reverse).Rereadable where
  valid := by cases reverse <;> decide
  unqualified := rfl
  ne_nil := by simp [selfNamed]
  solid := rfl
  unbordered := by cases reverse <;> decide
  keywords d := by cases d <;> cases reverse <;> decide
  padded := ⟨[' '], ['\t'], by decide, by decide, rfl⟩
  own k r hr := by
    have hentries : ∀ e ∈ (selfNamed reverse).fields.entries, e.2.destinations = [e.1] := by
      cases reverse <;> decide
    exact hentries (k, r) (Dictionary.get?_eq_some_iff.1 hr)

theorem expand_reread_selfNamed :
    ((selfNamed true).Rereadable ∧
      (selfNamed true).config.expand (some (selfNamed true).fields)
        "b-c desc x<> nope <>a".toList = .ok "b-c DESC <>\ta DESC".toList ∧
      (selfNamed true).config.expand (some (selfNamed true).fields)
        "b-c DESC <>\ta ASC".toList = .ok "b-c DESC <>\ta DESC".toList) ∧
    (selfNamed false).Rereadable ∧
    (selfNamed false).config.expand (some (selfNamed false).fields)
      "a ASC <>\tb-c DESC".toList = .ok "a ASC <>\tb-c DESC".toList := by
  refine ⟨⟨rereadable_selfNamed true, by decide, ?_⟩, rereadable_selfNamed false, ?_⟩
  · obtain ⟨qs, hfirst, hsecond, hthird, -⟩ :=
      expand_reread (rereadable_selfNamed true) "b-c desc x<> nope <>a".toList
    have e₁ : join (selfNamed true).targetSeparator (qs.map Request.text) =
        "b-c DESC <>\ta DESC".toList := Except.ok.inj (hfirst.symm.trans (by decide))
    rw [e₁] at hsecond hthird
    have e₂ : join (selfNamed true).targetSeparator
        ((qs.map (selfNamed true).turn).map Request.text) = "b-c DESC <>\ta ASC".toList :=
      Except.ok.inj (hsecond.symm.trans (by decide))
    rwa [e₂] at hthird
  · obtain ⟨qs, hfirst, hsecond, -, hsame⟩ :=
      expand_reread (rereadable_selfNamed false) "a<>b-c desc".toList
    have hplain : ∀ k r, (selfNamed false).fields.get? k = some r → r.reverse = false := by
      intro k r hr
      have hentries : ∀ e ∈ (selfNamed false).fields.entries, e.2.reverse = false := by decide
      exact hentries (k, r) (Dictionary.get?_eq_some_iff.1 hr)
    have e₁ : join (selfNamed false).targetSeparator (qs.map Request.text) =
        "a ASC <>\tb-c DESC".toList := Except.ok.inj (hfirst.symm.trans (by decide))
    rw [hsame hplain, e₁] at hsecond
    exact hsecond

end Settings
end SortClause
