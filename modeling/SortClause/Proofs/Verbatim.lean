import SortClause.Proofs.Dependence
import SortClause.Proofs.Keys
import SortClause.Proofs.Shapes
import Mathlib.Algebra.GroupWithZero.Nat
/-!
Rules and the renderers that come with the library.  However a rule came about, its destinations are
trimmed and none is empty, so what a built-in renderer writes for one of them begins with the
variable or the destination and ends with the keyword: it is not blank, and trimming leaves it
alone (`exists_written`).  Main statement: with such a renderer no destination is dropped, whatever
the parser, the separators and the directive are, and the clause consists of what was written, one
fragment for each destination of each rule that a candidate selects (`expand_verbatim`).
-/
namespace SortClause.Config

open Json Text

variable {c : Config} {d : Dictionary} {t : Text}

/-! ### What is written -/

theorem firm_of_mem_asked {x : Text} {p : Text × Direction} (h : p ∈ c.asked d x) :
    p.1 ≠ [] ∧ Firm p.1 := by
  obtain ⟨s, -, hp⟩ := List.mem_flatMap.1 h
  obtain ⟨y, hy, rfl⟩ := List.mem_map.1 hp
  obtain ⟨hne, htrim⟩ := s.1.clean y hy
  exact ⟨hne, trim_eq_self_iff.1 htrim⟩

/-- A built-in renderer writes every destination of every rule so that trimming it changes
nothing. -/
theorem exists_written (hbuilt : c.render.BuiltIn) {r : Rule} {y : Text} (hy : y ∈ r.destinations)
    (e : Direction) : ∃ w, c.render y e = .ok w ∧ w ≠ [] ∧ w.trim = w := by
  obtain ⟨hne, htrim⟩ := r.clean y hy
  obtain ⟨v, hv⟩ := hbuilt.exists_qualifier
  have hw : c.render y e = .ok (Renderer.plainText ((Qualifier.of v).qualify y) e) := by
    rw [hv]
    rfl
  obtain ⟨hwne, hfirm⟩ := Renderer.firm_of_builtIn hbuilt hne (trim_eq_self_iff.1 htrim) hw
  exact ⟨_, hw, hwne, trim_eq_self_iff.2 hfirm⟩

theorem dropped_not_mem_traceRule (hbuilt : c.render.BuiltIn) (e : Direction) (r : Rule)
    (y : Text) : Step.dropped y ∉ (c.traceRule e r).steps := by
  intro h
  obtain ⟨u, hu, hdropped⟩ := Trace.mem_steps_concat h
  obtain ⟨z, hz, rfl⟩ := List.mem_map.1 hu
  obtain ⟨w, hw, hne, htrim⟩ := exists_written hbuilt hz (r.direction e)
  rw [traceDestination, hw] at hdropped
  simp [htrim, hne, Trace.step] at hdropped

/-- With a built-in renderer nothing is dropped, also before the parser gives up. -/
theorem dropped_not_mem_trace (hbuilt : c.render.BuiltIn) (dict : Option Dictionary) (t y : Text) :
    Step.dropped y ∉ (c.trace dict t).steps := by
  intro h
  rw [trace_getD, trace] at h
  split_ifs at h
  · cases h
  · obtain ⟨u, hu, hdropped⟩ := Trace.mem_steps_concat h
    obtain ⟨x, -, rfl⟩ := List.mem_map.1 hu
    rw [traceCandidate] at hdropped
    cases hq : c.parse x with
    | error f => simp [hq, Trace.halt] at hdropped
    | ok q =>
      simp only [hq] at hdropped
      cases hr : (dict.getD .empty).sortable? q.field with
      | none => simp [hr, Trace.step] at hdropped
      | some r =>
        simp only [hr] at hdropped
        exact dropped_not_mem_traceRule hbuilt q.direction r y hdropped

/-! ### What is asked for -/

theorem asked_of_isEmpty (h : d.isEmpty = true) (x : Text) : c.asked d x = [] := by
  have hget : ∀ k, d.get? k = none := by
    intro k
    rw [Dictionary.get?, List.isEmpty_iff.1 h]
    rfl
  rw [asked, selected?]
  cases c.parse x with
  | error f => rfl
  | ok q => simp [hget]

/-- If the parser does not give up, the fragments are what the candidates ask for. -/
theorem fragments_trace_eq_asked (h : d.isEmpty = true ∨
      ∀ x ∈ candidates c.sourceSeparator t, ∃ q, c.parse x = .ok q) :
    (c.trace (some d) t).fragments =
      (((candidates c.sourceSeparator t).flatMap (c.asked d)).mapM
        fun p => c.render p.1 p.2).map strip := by
  rw [trace]
  split_ifs with hd
  · -- The parser is not asked, and without entries nothing would be asked for anyway.
    have hnil : (candidates c.sourceSeparator t).flatMap (c.asked d) = [] :=
      List.flatMap_eq_nil_iff.2 fun x _ => asked_of_isEmpty hd x
    rw [hnil]
    rfl
  · refine Trace.fragments_concat_flatMap fun x hx => ?_
    obtain ⟨q, hq⟩ := (h.resolve_left hd) x hx
    exact fragments_traceCandidate_of_parse hq d

/-- Where there are fragments, the parser has read all candidates that it was asked about. -/
theorem parses_of_fragments {fs : List Text} (h : (c.trace (some d) t).fragments = .ok fs) :
    d.isEmpty = true ∨ ∀ x ∈ candidates c.sourceSeparator t, ∃ q, c.parse x = .ok q := by
  by_cases hd : d.isEmpty = true
  · exact .inl hd
  · refine .inr fun x hx => ?_
    rw [trace, if_neg hd, Trace.fragments] at h
    split at h
    · cases h
    · rename_i hnone
      have hx := Trace.failure_of_mem_concat hnone _ (List.mem_map_of_mem hx)
      rw [traceCandidate] at hx
      cases hq : c.parse x with
      | error f => simp [hq, Trace.halt] at hx
      | ok q => exact ⟨q, rfl⟩

theorem flatMap_asked (d : Dictionary) (xs : List Text) : xs.flatMap (c.asked d) =
    (xs.filterMap (c.selected? d)).flatMap fun s => s.1.destinations.map fun y => (y, s.2) := by
  rw [List.filterMap_eq_flatMap_toList, List.flatMap_assoc]
  rfl

theorem length_flatMap_asked (d : Dictionary) (xs : List Text) : (xs.flatMap (c.asked d)).length =
    ((xs.filterMap (c.selected? d)).map fun s => s.1.destinations.length).sum := by
  rw [flatMap_asked, List.length_flatMap]
  simp only [List.length_map]

/-- A built-in renderer writes all that candidates ask for, and nothing of it is trimmed. -/
theorem exists_written_asked (hbuilt : c.render.BuiltIn) (d : Dictionary) (xs : List Text) :
    ∃ ws, ((xs.flatMap (c.asked d)).mapM fun p => c.render p.1 p.2) = .ok ws ∧ strip ws = ws ∧
      ws.length = (xs.flatMap (c.asked d)).length := by
  refine hbuilt.exists_written fun p hp => ?_
  obtain ⟨x, -, hp⟩ := List.mem_flatMap.1 hp
  exact firm_of_mem_asked hp

/-- A clause of a built-in renderer consists of what it writes for the selected rules. -/
theorem exists_fragments_of_expand (hbuilt : c.render.BuiltIn) {dict : Option Dictionary}
    {clause : Text} (h : c.expand dict t = .ok clause) :
    ∃ fs, (c.trace dict t).fragments = .ok fs ∧ clause = join c.targetSeparator fs ∧
      (((candidates c.sourceSeparator t).flatMap (c.asked (dict.getD .empty))).mapM
        fun p => c.render p.1 p.2) = .ok fs ∧
      fs.length =
        ((candidates c.sourceSeparator t).flatMap (c.asked (dict.getD .empty))).length := by
  rw [trace_getD]
  rw [expand, trace_getD] at h
  obtain ⟨fs, hfs, rfl⟩ := map_eq_ok_iff.1 h
  have hasked := fragments_trace_eq_asked (parses_of_fragments hfs)
  obtain ⟨ws, hws, hstrip, hlen⟩ :=
    exists_written_asked hbuilt (dict.getD .empty) (candidates c.sourceSeparator t)
  rw [hws, hfs, Except.map, hstrip] at hasked
  cases hasked
  exact ⟨fs, hfs, rfl, hws, hlen⟩

/-! ### Nothing is dropped -/

/-- The destinations of a rule are not empty and have no blank ends, so a rule is rebuilt from them;
a rule that is made of texts, or read from a document that gives them, has those that are not blank,
trimmed and in order.  So with a built-in renderer, as settings always have it, no destination is
dropped, and none is trimmed after it was written.  If the parser reads all candidates there is a
clause, and a clause has one fragment for each destination of each rule that a candidate selects,
as it was written. -/
theorem expand_verbatim :
    (∀ r : Rule, (∀ y ∈ r.destinations, y ≠ [] ∧ y.trim = y) ∧
      Rule.of r.reverse r.destinations = r) ∧
    (default : Rule) = Rule.of false [] ∧
    (∀ reverse ds, (Rule.of reverse ds).destinations =
      (ds.filter fun d => d.any fun c => !isBlankChar c).map Text.trim) ∧
    (∀ u r, Rule.ofText u = .ok r → ∃ x reverse ds, document (value maxDepth) u = .ok x ∧
      Rule.Shape x reverse ds ∧ r = Rule.of reverse ds) ∧
    (∀ s : Settings, s.config.render.BuiltIn) ∧
    ∀ c : Config, c.render.BuiltIn → ∀ dict t,
      let xs := candidates c.sourceSeparator t
      let selected := xs.filterMap (c.selected? (dict.getD .empty))
      (∀ r : Rule, ∀ y ∈ r.destinations, ∀ e, ∃ w, c.render y e = .ok w ∧ w ≠ [] ∧ w.trim = w) ∧
      (∀ y, Step.dropped y ∉ (c.trace dict t).steps) ∧
      ((∀ x ∈ xs, ∃ q, c.parse x = .ok q) → ∃ clause, c.expand dict t = .ok clause) ∧
      ∀ clause, c.expand dict t = .ok clause → ∃ fs,
        (c.trace dict t).fragments = .ok fs ∧ clause = join c.targetSeparator fs ∧
        ((selected.flatMap fun s => s.1.destinations.map fun y => (y, s.2)).mapM
          fun p => c.render p.1 p.2) = .ok fs ∧
        fs.length = (selected.map fun s => s.1.destinations.length).sum := by
  refine ⟨fun r => ⟨r.clean, r.of_destinations⟩, rfl, Rule.destinations_of, fun u r h => ?_,
    Settings.builtIn_render_config, fun c hbuilt dict t => ⟨fun r y hy => exists_written hbuilt hy,
    dropped_not_mem_trace hbuilt dict t, fun hparse => ?_, fun clause h => ?_⟩⟩
  · obtain ⟨x, hx, hr⟩ := Rule.ofText_eq_ok_iff.1 h
    obtain ⟨reverse, ds, hshape, rfl⟩ := Rule.ofJson?_eq_some_iff.1 hr
    exact ⟨x, reverse, ds, hx, hshape, rfl⟩
  · obtain ⟨ws, hws, -⟩ :=
      exists_written_asked hbuilt (dict.getD .empty) (candidates c.sourceSeparator t)
    refine ⟨join c.targetSeparator (strip ws), ?_⟩
    rw [expand, trace_getD, fragments_trace_eq_asked (.inr hparse), hws]
    rfl
  · obtain ⟨fs, hfs, hclause, hws, hlen⟩ := exists_fragments_of_expand hbuilt h
    rw [flatMap_asked] at hws
    rw [length_flatMap_asked] at hlen
    exact ⟨fs, hfs, hclause, hws, hlen⟩

/-- Cuts at bars and writes properties of `n`; the variable is given with blanks around it. -/
def barred : Config where
  sourceSeparator := ['|']
  renderer? := some (Qualifier.of ['\u3000', 'n', ' ']).renderer

/-- A rule with two destinations and one with one. -/
def barredFields : Dictionary :=
  .ofList [(['a'], .of true [['x'], [' '], ['y', '\t']]), (['b'], .of false [['z']])]

theorem expand_verbatim_barred :
    (∃ x reverse ds, document (value maxDepth) "[\" x\", \"\"]".toList = .ok x ∧
      Rule.Shape x reverse ds ∧ Rule.of false [[' ', 'x'], []] = Rule.of reverse ds) ∧
    barred.render.BuiltIn ∧
    ∃ clause fs, barred.expand (some barredFields) "a|b desc||c|a".toList = .ok clause ∧
      (barred.trace (some barredFields) "a|b desc||c|a".toList).fragments = .ok fs ∧
      clause = "n.x DESC, n.y DESC, n.z DESC, n.x DESC, n.y DESC".toList ∧
      fs.length = 2 + 1 + 2 := by
  obtain ⟨-, -, -, hread, -, law⟩ := expand_verbatim
  have hbuilt : barred.render.BuiltIn := .inr ⟨['\u3000', 'n', ' '], rfl⟩
  obtain ⟨-, -, hexists, hcount⟩ := law barred hbuilt (some barredFields) "a|b desc||c|a".toList
  obtain ⟨clause, hclause⟩ := hexists fun x _ => ⟨Request.ofCandidate x, rfl⟩
  obtain ⟨fs, hfs, -, -, hlen⟩ := hcount clause hclause
  exact ⟨hread _ _ rfl, hbuilt, clause, fs, hclause, hfs,
    Except.ok.inj (hclause.symm.trans (by decide)), hlen.trans (by decide)⟩

end SortClause.Config
