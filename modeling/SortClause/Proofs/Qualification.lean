import SortClause.Proofs.Dependence
import SortClause.Proofs.Rendering
import SortClause.Settings
/-!
Variables written out.  A variable puts its name and a point before every destination; the same
clauses come from a dictionary in which the destinations are written so from the start, without a
variable (`expand_qualified`).  A built-in renderer keeps every destination of a rule
(`traceRule_of_builtIn`), so both ways work through a candidate step by step alike.
-/
namespace SortClause

open Text

/-! ### Dictionaries with other rules -/

namespace Dictionary

/-- The dictionary with every rule changed. -/
def mapRules (f : Rule → Rule) (d : Dictionary) : Dictionary where
  entries := d.entries.map fun e => (e.1, f e.2)
  sorted := List.pairwise_map.2 d.sorted

variable {f : Rule → Rule}

theorem lookup_map_rules (k : Text) : ∀ es : List (Text × Rule),
    (es.map fun e => (e.1, f e.2)).lookup k = (es.lookup k).map f
  | [] => rfl
  | (k', r) :: es => by
    rw [List.map_cons, lookup_cons_eq, lookup_cons_eq, lookup_map_rules k es]
    split_ifs <;> rfl

theorem get?_mapRules (d : Dictionary) (k : Text) : (d.mapRules f).get? k = (d.get? k).map f :=
  lookup_map_rules k d.entries

theorem isEmpty_mapRules (d : Dictionary) : (d.mapRules f).isEmpty = d.isEmpty :=
  List.isEmpty_map

theorem sortable?_mapRules (hf : ∀ r, (f r).isEmpty = r.isEmpty) (d : Dictionary) (k : Text) :
    (d.mapRules f).sortable? k = (d.sortable? k).map f := by
  rw [sortable?, get?_mapRules, sortable?]
  cases d.get? k with
  | none => rfl
  | some r => by_cases h : r.isEmpty <;> simp [Option.filter, hf, h]

end Dictionary

/-! ### Rules written out -/

/-- The rule with its destinations written as properties of `n`. -/
def Rule.under (n : Text) (r : Rule) : Rule :=
  .of r.reverse (r.destinations.map fun x => n ++ '.' :: x)

/-- The dictionary with its destinations written as properties of the variable, unless that is
blank. -/
def Dictionary.qualified (v : Text) (d : Dictionary) : Dictionary :=
  if v.trim = [] then d else d.mapRules (Rule.under v.trim)

/-- The settings without their variable, which is written into the rules. -/
def Settings.unbound (s : Settings) : Settings :=
  match s.qualifier with
  | none => s
  | some v => { s with qualifier := none, fields := s.fields.qualified v }

variable {v : Text}

theorem Qualifier.renderer_of_blank (hv : v.trim = []) :
    (Qualifier.of v).renderer = Renderer.standard := by
  rw [Renderer.standard_eq]
  have hname : Qualifier.of v = Qualifier.of [] := by simp only [of, hv, show trim [] = [] from rfl]
  rw [hname]

/-- Nothing is lost when the destinations of a rule are written out. -/
theorem Rule.destinations_under (hv : v.trim ≠ []) (r : Rule) :
    (r.under v.trim).destinations = r.destinations.map (Qualifier.of v).qualify := by
  have hmap : (r.destinations.map fun x => v.trim ++ '.' :: x) =
      r.destinations.map (Qualifier.of v).qualify :=
    List.map_congr_left fun x _ => (if_neg hv).symm
  have hclean : ∀ y ∈ r.destinations.map (Qualifier.of v).qualify, y ≠ [] ∧ Firm y := by
    intro y hy
    obtain ⟨x, hx, rfl⟩ := List.mem_map.1 hy
    obtain ⟨hne, htrim⟩ := r.clean x hx
    exact (Qualifier.of v).firm_qualify hne (trim_eq_self_iff.1 htrim)
  calc (r.under v.trim).destinations
      = strip (r.destinations.map fun x => v.trim ++ '.' :: x) := rfl
    _ = r.destinations.map (Qualifier.of v).qualify := by rw [hmap, strip_eq_self hclean]

theorem Rule.isEmpty_under (hv : v.trim ≠ []) (r : Rule) :
    (r.under v.trim).isEmpty = r.isEmpty := by
  rw [isEmpty, destinations_under hv, isEmpty, List.isEmpty_map]

namespace Config

variable {c c' : Config}

/-! ### Working through a candidate -/

/-- A built-in renderer keeps every destination of a rule as it is written. -/
theorem traceRule_of_builtIn {render : Text → Direction → Text} (h : c.render.BuiltIn)
    (hr : ∀ x d, c.render x d = .ok (render x d)) (d : Direction) (r : Rule) :
    c.traceRule d r =
      .concat (r.destinations.map fun x => .step (.kept (render x (r.direction d)))) := by
  refine congrArg Trace.concat (List.map_congr_left fun x hx => ?_)
  obtain ⟨hne, htrim⟩ := r.clean x hx
  obtain ⟨hw, hfirm⟩ :=
    Renderer.firm_of_builtIn h hne (trim_eq_self_iff.1 htrim) (hr x (r.direction d))
  rw [traceDestination, hr]
  dsimp only
  rw [trim_eq_self_iff.2 hfirm, if_neg hw]

/-- Two configurations of which the first writes destinations as properties of `v` and the second
as they stand. -/
structure Binds (v : Text) (c c' : Config) : Prop where
  source : c'.sourceSeparator = c.sourceSeparator
  target : c'.targetSeparator = c.targetSeparator
  parse : c'.parse = c.parse
  bound : c.render = (Qualifier.of v).renderer
  plain : c'.render = Renderer.standard

theorem Binds.traceRule_under (h : Binds v c c') (hv : v.trim ≠ []) (d : Direction) (r : Rule) :
    c'.traceRule d (r.under v.trim) = c.traceRule d r := by
  have hbound := traceRule_of_builtIn (.inr ⟨v, h.bound⟩) (fun x e => by rw [h.bound]; rfl) d r
  have hplain := traceRule_of_builtIn (.inl h.plain) (fun x e => by rw [h.plain]; rfl) d
    (r.under v.trim)
  rw [hplain, hbound, Rule.destinations_under hv, List.map_map]
  rfl

theorem Binds.traceCandidate_under (h : Binds v c c') (hv : v.trim ≠ []) (d : Dictionary)
    (x : Text) : c'.traceCandidate (d.mapRules (Rule.under v.trim)) x = c.traceCandidate d x := by
  rw [traceCandidate, traceCandidate, h.parse]
  cases c.parse x with
  | error f => rfl
  | ok q =>
    dsimp only
    rw [Dictionary.sortable?_mapRules (Rule.isEmpty_under hv)]
    cases d.sortable? q.field with
    | none => rfl
    | some r => exact h.traceRule_under hv q.direction r

theorem Binds.trace_under (h : Binds v c c') (hv : v.trim ≠ []) (d : Dictionary) (x : Text) :
    c'.trace (some (d.mapRules (Rule.under v.trim))) x = c.trace (some d) x := by
  rw [trace, trace, Dictionary.isEmpty_mapRules, h.source,
    List.map_congr_left fun y _ => h.traceCandidate_under hv d y]

/-! ### Whole directives -/

theorem Binds.expand_qualified_eq (h : Binds v c c') (dict : Option Dictionary) (x : Text) :
    c.expand dict x = c'.expand (dict.map (Dictionary.qualified v)) x := by
  by_cases hv : v.trim = []
  · have hsame : dict.map (Dictionary.qualified v) = dict := by
      cases dict with
      | none => rfl
      | some d => exact congrArg some (if_pos hv)
    have hrender : c'.render = c.render := by
      rw [h.bound, h.plain, Qualifier.renderer_of_blank hv]
    rw [hsame]
    refine (Alike.expand_eq ⟨h.source, h.target, fun y _ => ?_, fun _ _ => rfl,
      fun _ _ _ _ _ _ _ => ?_, .inl rfl⟩).symm
    · rw [h.parse]
    · rw [hrender]
  · cases dict with
    | none => rfl
    | some d =>
      have hd : d.qualified v = d.mapRules (Rule.under v.trim) := if_neg hv
      rw [Option.map_some, hd, expand, expand, h.trace_under hv, h.target]

/-- Under settings with a variable the clauses are those under the settings without it in which
every rule is made anew from its destinations with the trimmed variable and a point before each; a
variable that is blank changes nothing.  It is the same for any parser and any separators. -/
theorem expand_qualified :
    (∀ (s : Settings) (x : Text), s.unbound.qualifier = none ∧
      s.config.expand (some s.fields) x =
        s.unbound.config.expand (some s.unbound.fields) x) ∧
    ∀ (c : Config) (v : Text) (dict : Option Dictionary) (x : Text),
      { c with renderer? := some (Qualifier.of v).renderer }.expand dict x =
        { c with renderer? := none }.expand (dict.map (Dictionary.qualified v)) x := by
  refine ⟨fun s x => ?_, fun c v dict x => ?_⟩
  · rcases s with ⟨σ, τ, _ | v, d⟩
    · exact ⟨rfl, rfl⟩
    · refine ⟨rfl, Binds.expand_qualified_eq (v := v) ⟨?_, ?_, ?_, ?_, ?_⟩ (some d) x⟩
      · simp only [Settings.sourceSeparator_config]
        rfl
      · simp only [Settings.targetSeparator_config]
        rfl
      · simp only [Settings.parse_config]
      · rw [Settings.render_config, Settings.renderer?]
        by_cases hv : v.trim = []
        · simp [Option.filter, hv, Qualifier.renderer_of_blank hv]
        · simp [Option.filter, hv]
      · rw [Settings.render_config]
        rfl
  · have h : Binds v { c with renderer? := some (Qualifier.of v).renderer }
        { c with renderer? := none } := ⟨rfl, rfl, rfl, rfl, rfl⟩
    exact h.expand_qualified_eq dict x

end Config
end SortClause
