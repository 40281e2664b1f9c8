import SortClause.Proofs.Messages
import SortClause.Proofs.Whitelist
import SortClause.Proofs.Dependence
import Mathlib.Algebra.GroupWithZero.Nat
/-!
What the events of a directive say about it.  Every candidate is skipped or picks a rule, and every
destination of a picked rule is dropped or becomes a fragment; the events tell which, in the order
of the work, and end with the clause (`events_eq`), and the log has a text for each of them
(`logged`).  So the books balance: candidates are skip events and picks, destinations are drop
events and fragments.  Main statement: `events_account`.  It also says that keeping the books
changes nothing: worked out without a trace (`Config.quiet`), a directive has the same outcome.
-/
namespace SortClause

open Text

/-! ### Working without a trace -/

namespace Config

/-- The fragments of a candidate, with no record of how they came about. -/
def candidateFragments (c : Config) (d : Dictionary) (x : Text) : Except Failure (List Text) := do
  let q ← c.parse x
  match d.sortable? q.field with
  | none => return []
  | some r => return strip (← r.destinations.mapM fun y => c.render y (r.direction q.direction))

/-- The sort clause of a directive, worked out without a trace. -/
def quiet (c : Config) (dict : Option Dictionary) (directive : Text) : Except Failure Text :=
  if engages dict directive then do
    let fragments ← (candidates c.sourceSeparator directive).mapM
      (c.candidateFragments (dict.getD .empty))
    return join c.targetSeparator fragments.flatten
  else return []

variable {c : Config}

theorem fragments_traceCandidate (d : Dictionary) (x : Text) :
    (c.traceCandidate d x).fragments = c.candidateFragments d x := by
  rw [traceCandidate, candidateFragments]
  cases c.parse x with
  | error f => rfl
  | ok q =>
    dsimp only [bind, Except.bind]
    cases d.sortable? q.field with
    | none => rfl
    | some r =>
      dsimp only
      rw [fragments_traceRule]
      cases r.destinations.mapM fun y => c.render y (r.direction q.direction) <;> rfl

theorem engages_iff {dict : Option Dictionary} {t : Text} :
    engages dict t = true ↔ (dict.getD .empty).isEmpty = false ∧ ¬Blank t := by
  have hempty : Dictionary.empty.isEmpty = true := rfl
  rw [← trim_eq_nil_iff]
  cases dict <;> simp [engages, hempty]

/-- Where there is nothing to work on, nothing is done. -/
theorem trace_of_not_engages {dict : Option Dictionary} {t : Text} (h : ¬engages dict t) :
    c.trace dict t = .empty := by
  rw [engages_iff, not_and_or] at h
  rw [trace_getD, trace]
  split_ifs with hd
  · rfl
  · have hblank : Blank t := by simpa [hd] using h
    rw [candidates_of_blank hblank]
    rfl

/-- Otherwise the candidates are worked through one after the other. -/
theorem trace_of_engages {dict : Option Dictionary} {t : Text} (h : engages dict t) :
    c.trace dict t = .concat
      ((candidates c.sourceSeparator t).map (c.traceCandidate (dict.getD .empty))) := by
  rw [trace_getD, trace, (engages_iff.1 h).1, if_neg Bool.false_ne_true]

/-- With and without a trace the outcome is the same. -/
theorem expand_eq_quiet (c : Config) (dict : Option Dictionary) (t : Text) :
    c.expand dict t = c.quiet dict t := by
  rw [expand, quiet]
  split_ifs with h
  · rw [trace_of_engages h, Trace.fragments_concat_map]
    simp only [fragments_traceCandidate]
    cases (candidates c.sourceSeparator t).mapM (c.candidateFragments (dict.getD .empty)) <;> rfl
  · rw [trace_of_not_engages h]
    rfl

end Config

/-! ### The events of a candidate -/

/-- The events that a candidate gives rise to: one for its field if that has no rule or an empty
one, otherwise one for each destination that is written blank. -/
def Dictionary.reports (parse : Text → Request) (render : Text → Direction → Text) (d : Dictionary)
    (x : Text) : List Event :=
  match d.get? (parse x).field with
  | none => [.skipped (parse x).field]
  | some r =>
    if r.isEmpty then [.skipped (parse x).field]
    else (r.destinations.filter fun y => Blank (render y (r.direction (parse x).direction))).map
      .dropped

/-- The lines of the log that a candidate gives rise to, each with its level. -/
def Dictionary.logged (parse : Text → Request) (render : Text → Direction → Text) (d : Dictionary)
    (x : Text) : List (Level × Text) :=
  match d.sortable? (parse x).field with
  | none => [(.debug, "Skipping non-orderable field: ".toList ++ (parse x).field.quoted)]
  | some r =>
    (r.destinations.filter fun y => Blank (render y (r.direction (parse x).direction))).map fun y =>
      (.debug, "Rendered fragment for ".toList ++ y.quoted ++ " is empty, dropped".toList)

namespace Event

def isSkipped : Event → Bool
  | skipped _ => true
  | _ => false

def isDropped : Event → Bool
  | dropped _ => true
  | _ => false

end Event

variable {c : Config} {parse : Text → Request} {render : Text → Direction → Text}

/-- A candidate is skipped, or it picks a rule and its destinations that are written blank are
dropped. -/
theorem Dictionary.skips_or_picks (parse : Text → Request) (render : Text → Direction → Text)
    (d : Dictionary) (x : Text) :
    (d.sortable? (parse x).field = none ∧
      d.reports parse render x = [.skipped (parse x).field]) ∨
    ∃ r, d.sortable? (parse x).field = some r ∧ d.reports parse render x =
      (r.destinations.filter fun y => Blank (render y (r.direction (parse x).direction))).map
        .dropped := by
  rw [reports]
  cases hget : d.get? (parse x).field with
  | none => exact .inl ⟨sortable?_eq_none_iff.2 fun r hr => by simp [hget] at hr, rfl⟩
  | some r =>
    dsimp only
    split_ifs with hempty
    · refine .inl ⟨sortable?_eq_none_iff.2 fun s hs => ?_, rfl⟩
      obtain rfl : r = s := Option.some.inj (hget.symm.trans hs)
      exact hempty
    · exact .inr ⟨r, sortable?_eq_some.2 ⟨hget, Bool.eq_false_iff.2 hempty⟩, rfl⟩

/-- The log of a candidate has a line for each of its events. -/
theorem Dictionary.map_reports (d : Dictionary) (x : Text) :
    (d.reports parse render x).map (fun e => (e.level, e.message)) = d.logged parse render x := by
  rw [logged]
  rcases d.skips_or_picks parse render x with ⟨hnone, hreports⟩ | ⟨r, hsome, hreports⟩
  · rw [hnone, hreports]
    rfl
  · rw [hsome, hreports, List.map_map]
    rfl

/-- The texts of a log tell its events. -/
theorem Event.map_message_inj {es es' : List Event} (h : es.map message = es'.map message) :
    es = es' :=
  List.map_injective_iff.2 (fun _ _ => message_inj) h

namespace Config

/-- A destination that is written blank is reported. -/
theorem events_traceDestination (hr : ∀ x d, c.render x d = .ok (render x d)) (d : Direction)
    (y : Text) : (c.traceDestination d y).steps.filterMap Event.ofStep? =
      if Blank (render y d) then [.dropped y] else [] := by
  rw [traceDestination, hr]
  dsimp only
  simp only [trim_eq_nil_iff]
  split_ifs <;> rfl

theorem events_traceRule (hr : ∀ x d, c.render x d = .ok (render x d)) (d : Direction) (r : Rule) :
    (c.traceRule d r).steps.filterMap Event.ofStep? =
      (r.destinations.filter fun y => Blank (render y (r.direction d))).map .dropped := by
  have hfail : ∀ t ∈ r.destinations.map (c.traceDestination (r.direction d)), t.failure = none := by
    intro t ht
    obtain ⟨y, -, rfl⟩ := List.mem_map.1 ht
    rw [traceDestination, hr]
    dsimp only
    split_ifs <;> rfl
  rw [traceRule, Trace.steps_concat hfail, List.flatMap_map, List.filterMap_flatMap]
  simp only [events_traceDestination hr]
  induction r.destinations with
  | nil => rfl
  | cons y ys ih =>
    rw [List.flatMap_cons, ih, List.filter_cons]
    by_cases hy : Blank (render y (r.direction d)) <;> simp [hy]

theorem events_traceCandidate (hp : ∀ x, c.parse x = .ok (parse x))
    (hr : ∀ x d, c.render x d = .ok (render x d)) (d : Dictionary) (x : Text) :
    (c.traceCandidate d x).steps.filterMap Event.ofStep? = d.reports parse render x := by
  rw [traceCandidate, hp]
  dsimp only
  rcases d.skips_or_picks parse render x with ⟨hnone, hreports⟩ | ⟨r, hsome, hreports⟩
  · rw [hnone, hreports]
    rfl
  · rw [hsome, hreports]
    exact events_traceRule hr _ r

/-- The events of a directive that is worked on: those of its candidates, and the clause. -/
theorem events_eq (hp : ∀ x, c.parse x = .ok (parse x))
    (hr : ∀ x d, c.render x d = .ok (render x d)) {dict : Option Dictionary} {t clause : Text}
    (h : engages dict t) (hclause : c.expand dict t = .ok clause) :
    c.events dict t = (candidates c.sourceSeparator t).flatMap
      ((dict.getD .empty).reports parse render) ++ [.expanded t.trim clause] := by
  have hfail : ∀ u ∈ (candidates c.sourceSeparator t).map
      (c.traceCandidate (dict.getD .empty)), u.failure = none := by
    intro u hu
    obtain ⟨x, -, rfl⟩ := List.mem_map.1 hu
    exact failure_traceCandidate (fun x => ⟨_, hp x⟩) (fun x d => ⟨_, hr x d⟩) _ x
  rw [events, if_pos h, hclause, trace_of_engages h, Trace.steps_concat hfail, List.flatMap_map,
    List.filterMap_flatMap]
  simp only [events_traceCandidate hp hr]

end Config

/-! ### The balance -/

theorem Text.length_strip (ts : List Text) :
    (strip ts).length + ts.countP (Blank ·) = ts.length := by
  induction ts with
  | nil => rfl
  | cons t ts ih =>
    by_cases ht : Blank t
    · rw [strip_cons_of_blank ht, List.countP_cons_of_pos (by simpa using ht), List.length_cons]
      omega
    · have hne : t.trim ≠ [] := mt trim_eq_nil_iff.1 ht
      have hone : (strip [t]).length = 1 := by simp [strip, hne]
      have happ : (strip (t :: ts)).length = (strip [t]).length + (strip ts).length := by
        rw [← List.length_append, ← strip_append]
        rfl
      rw [List.countP_cons_of_neg (by simpa using ht), List.length_cons]
      omega

namespace Dictionary

/-- A candidate is skipped or picks a rule. -/
theorem countP_isSkipped_reports (d : Dictionary) (x : Text) :
    (d.reports parse render x).countP Event.isSkipped + (d.admit? (parse x)).toList.length = 1 := by
  rcases d.skips_or_picks parse render x with ⟨hnone, hreports⟩ | ⟨r, hsome, hreports⟩
  · rw [hreports, admit?, hnone]
    rfl
  · rw [hreports, admit?, hsome]
    simp [List.countP_map, Function.comp_def, Event.isSkipped]

/-- A destination of a picked rule becomes a fragment or is dropped. -/
theorem countP_isDropped_reports (d : Dictionary) (x : Text) :
    ((d.admit? (parse x)).toList.map fun q => (d.destinations q.field).length).sum =
      ((d.admit? (parse x)).toList.flatMap (d.fragments render)).length +
        (d.reports parse render x).countP Event.isDropped := by
  rcases d.skips_or_picks parse render x with ⟨hnone, hreports⟩ | ⟨r, hsome, hreports⟩
  · rw [hreports, admit?, hnone]
    rfl
  · have hdest := destinations_of_get? (sortable?_eq_some.1 hsome).1
    have hlength := length_strip
      (r.destinations.map fun y => render y (r.direction (parse x).direction))
    rw [List.countP_map, List.length_map, List.countP_eq_length_filter] at hlength
    rw [hreports, admit?, hsome]
    simp only [Option.map_some, Option.toList_some, List.map_cons, List.map_nil, List.sum_singleton,
      List.flatMap_singleton, fragments, hdest, List.countP_map, Function.comp_def, Event.isDropped,
      List.countP_true]
    exact hlength.symm

/-- Nothing that a candidate gives rise to is for tracing. -/
theorem level_of_mem_reports {d : Dictionary} {x : Text} {e : Event}
    (h : e ∈ d.reports parse render x) : e.level = .debug := by
  rcases d.skips_or_picks parse render x with ⟨-, hreports⟩ | ⟨r, -, hreports⟩
  · rw [hreports] at h
    obtain rfl := List.mem_singleton.1 h
    rfl
  · rw [hreports] at h
    obtain ⟨y, -, rfl⟩ := List.mem_map.1 h
    rfl

end Dictionary

namespace Config

theorem selection_eq_flatMap (d : Dictionary) (t : Text) : c.selection parse d t =
    (candidates c.sourceSeparator t).flatMap fun x => (d.admit? (parse x)).toList := by
  rw [selection, List.filterMap_eq_flatMap_toList, List.flatMap_map]

/-- The candidates of a directive are its skip events and its picks. -/
theorem length_candidates_eq (render : Text → Direction → Text) (d : Dictionary) (t : Text) :
    (candidates c.sourceSeparator t).length =
      ((candidates c.sourceSeparator t).flatMap (d.reports parse render)).countP Event.isSkipped +
        (c.selection parse d t).length := by
  rw [selection_eq_flatMap]
  induction candidates c.sourceSeparator t with
  | nil => rfl
  | cons x xs ih =>
    have hx := @Dictionary.countP_isSkipped_reports parse render d x
    rw [List.flatMap_cons, List.flatMap_cons, List.countP_append, List.length_append,
      List.length_cons]
    omega

/-- The destinations of what a directive picks are its fragments and its drop events. -/
theorem sum_destinations_eq (d : Dictionary) (t : Text) :
    ((c.selection parse d t).map fun q => (d.destinations q.field).length).sum =
      ((c.selection parse d t).flatMap (d.fragments render)).length +
        ((candidates c.sourceSeparator t).flatMap (d.reports parse render)).countP
          Event.isDropped := by
  rw [selection_eq_flatMap]
  induction candidates c.sourceSeparator t with
  | nil => rfl
  | cons x xs ih =>
    have hx := @Dictionary.countP_isDropped_reports parse render d x
    rw [List.flatMap_cons, List.flatMap_cons, List.map_append, List.sum_append, List.flatMap_append,
      List.length_append, List.countP_append]
    omega

/-- Without an entry in the dictionary, or for a blank directive, nothing is reported.  Otherwise
each candidate whose field is not sortable is, and each destination of the others that is written
blank, in the order in which they come, and at the end, as the only event for tracing, the clause
with the directive it is for.  The log has a line for each of them, with the field, the destination
or the directive and the clause in quotes, and these are read back from it.  So every candidate is
skipped or picks a rule, and every destination of a picked rule is dropped or is a fragment of the
clause.  The clause is the one that is found without a trace. -/
theorem events_account (hp : ∀ x, c.parse x = .ok (parse x))
    (hr : ∀ x d, c.render x d = .ok (render x d)) (dict : Option Dictionary) (t : Text) :
    let d := dict.getD .empty
    let xs := candidates c.sourceSeparator t
    let picks := c.selection parse d t
    let fragments := picks.flatMap (d.fragments render)
    let clause := join c.targetSeparator fragments
    let es := c.events dict t
    c.expand dict t = .ok clause ∧ c.quiet dict t = .ok clause ∧
    (d.isEmpty = true ∨ Blank t → es = []) ∧
    (d.isEmpty = false → ¬Blank t →
      es = xs.flatMap (d.reports parse render) ++ [.expanded t.trim clause] ∧
      (es.filter fun e => e.level = .trace) = [.expanded t.trim clause] ∧
      (es.map fun e => (e.level, e.message)) = xs.flatMap (d.logged parse render) ++
        [(.trace, "Translated ".toList ++ t.trim.quoted ++ " into ".toList ++ clause.quoted)] ∧
      xs.length = es.countP Event.isSkipped + picks.length ∧
      (picks.map fun q => (d.destinations q.field).length).sum =
        fragments.length + es.countP Event.isDropped) ∧
    ∀ es' : List Event, es'.map Event.message = es.map Event.message → es' = es := by
  intro d xs picks fragments clause es
  have hclause : c.expand dict t = .ok clause := expand_eq_join hp hr dict t
  refine ⟨hclause, (expand_eq_quiet c dict t).symm.trans hclause, fun h => ?_, fun hd ht => ?_,
    fun es' => Event.map_message_inj⟩
  · have hidle : ¬engages dict t := by
      rw [engages_iff]
      rcases h with hd | ht
      · exact fun hon => Bool.false_ne_true (hon.1.symm.trans hd)
      · exact fun hon => hon.2 ht
    exact if_neg hidle
  · have hes : es = xs.flatMap (d.reports parse render) ++ [.expanded t.trim clause] :=
      events_eq hp hr (engages_iff.2 ⟨hd, ht⟩) hclause
    have hlevel : ∀ e ∈ xs.flatMap (d.reports parse render), e.level = .debug := by
      intro e he
      obtain ⟨x, -, hx⟩ := List.mem_flatMap.1 he
      exact Dictionary.level_of_mem_reports hx
    refine ⟨hes, ?_, ?_, ?_, ?_⟩
    · rw [hes, List.filter_append, List.filter_eq_nil_iff.2 fun e he => by simp [hlevel e he]]
      rfl
    · rw [hes, List.map_append, List.map_flatMap]
      simp only [Dictionary.map_reports]
      rfl
    · rw [hes, List.countP_append]
      exact length_candidates_eq render d t
    · rw [hes, List.countP_append]
      exact sum_destinations_eq d t

/-- Writes the destination `y` blank. -/
def hushed : Config where
  renderer? := some fun y d => .ok (if y = ['y'] then [' ', '\t'] else Renderer.plainText y d)

/-- A rule with two destinations and an empty one. -/
def hushedFields : Dictionary :=
  .ofList [(['a'], .of true [['x'], ['y']]), (['b'], .of false [[' ']])]

theorem events_account_hushed :
    hushedFields.isEmpty = false ∧ ¬Blank "a, b,, c desc".toList ∧
    hushed.events (some hushedFields) "a, b,, c desc".toList =
      [.dropped ['y'], .skipped ['b'], .skipped ['c'],
        .expanded "a, b,, c desc".toList "x DESC".toList] ∧
    (hushed.events (some hushedFields) "a, b,, c desc".toList).map
        (fun e => (e.level, e.message)) =
      [(.debug, "Rendered fragment for \"y\" is empty, dropped".toList),
        (.debug, "Skipping non-orderable field: \"b\"".toList),
        (.debug, "Skipping non-orderable field: \"c\"".toList),
        (.trace, "Translated \"a, b,, c desc\" into \"x DESC\"".toList)] ∧
    hushed.events (some hushedFields) " \t".toList = [] := by
  have hd : hushedFields.isEmpty = false := by decide
  have ht : ¬Blank "a, b,, c desc".toList := by decide
  have law := @events_account hushed Request.ofCandidate
    (fun y d => if y = ['y'] then [' ', '\t'] else Renderer.plainText y d)
    (fun _ => rfl) (fun _ _ => rfl) (some hushedFields)
  obtain ⟨-, -, -, hwork, -⟩ := law "a, b,, c desc".toList
  obtain ⟨hevents, -, hlog, -, -⟩ := hwork hd ht
  obtain ⟨-, -, hidle, -⟩ := law " \t".toList
  exact ⟨hd, ht, hevents.trans (by decide), hlog.trans (by decide +kernel),
    hidle (.inr (by decide))⟩

end Config
end SortClause
