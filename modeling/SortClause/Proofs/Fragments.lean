import SortClause.Expansion
import SortClause.Proofs.Candidates
import Mathlib.Data.List.Basic
/-!
The fragments of a sort clause.  Traces are put together fragment by fragment, the first failure
ending everything (`Trace.fragments_append`).  No fragment is empty (`ne_nil_of_mem_kept_trace`), so
the clause of two lists of fragments is the clauses of both, beside each other (`join_append`).  If
no step fails, the fragments are those of the requests that the dictionary admits
(`fragments_trace`).
-/
namespace SortClause

open Text

/-- Two clauses with the separator between them, unless one of them is empty. -/
def Text.beside (τ x y : Text) : Text :=
  if x = [] then y else if y = [] then x else x ++ τ ++ y

namespace Dictionary

/-- The destinations stored under `key`; there are none under a key without a rule. -/
def destinations (d : Dictionary) (key : Text) : List Text :=
  ((d.get? key).map Rule.destinations).getD []

/-- A request for a sortable field, with the direction that the rule gives to its destinations. -/
def admit? (d : Dictionary) (q : Request) : Option Request :=
  (d.sortable? q.field).map fun r => ⟨q.field, r.direction q.direction⟩

/-- What stands for a key in a direction: its destinations as they are written, trimmed, without
those that are written blank. -/
def fragments (d : Dictionary) (render : Text → Direction → Text) (q : Request) : List Text :=
  strip ((d.destinations q.field).map fun x => render x q.direction)

theorem sortable?_eq_some {d : Dictionary} {key : Text} {r : Rule} :
    d.sortable? key = some r ↔ d.get? key = some r ∧ r.isEmpty = false := by
  simp [sortable?, Option.filter_eq_some_iff]

theorem sortable?_eq_none_iff {d : Dictionary} {key : Text} :
    d.sortable? key = none ↔ ∀ r, d.get? key = some r → r.isEmpty = true := by
  simp [sortable?, Option.filter_eq_none_iff]

theorem sortable?_of_isEmpty {d : Dictionary} (h : d.isEmpty = true) (key : Text) :
    d.sortable? key = none := by
  have hd : d.entries = [] := List.isEmpty_iff.1 h
  simp [sortable?, get?, hd]

theorem destinations_of_get? {d : Dictionary} {key : Text} {r : Rule} (h : d.get? key = some r) :
    d.destinations key = r.destinations := by
  simp [destinations, h]

/-- Stored destinations are firm and not empty. -/
theorem firm_of_mem_destinations {d : Dictionary} {key x : Text} (h : x ∈ d.destinations key) :
    x ≠ [] ∧ Firm x := by
  cases hr : d.get? key with
  | none => simp [destinations, hr] at h
  | some r =>
    rw [destinations_of_get? hr] at h
    obtain ⟨hne, ht⟩ := r.clean x h
    exact ⟨hne, trim_eq_self_iff.1 ht⟩

end Dictionary

/-! ### Clauses beside each other -/

theorem join_eq_nil_iff {τ : Text} {xs : List Text} (h : ∀ x ∈ xs, x ≠ []) :
    join τ xs = [] ↔ xs = [] := by
  constructor
  · intro hj
    cases xs with
    | nil => rfl
    | cons x r =>
      have hx : x <+: [] := hj ▸ prefix_join_cons τ x r
      exact absurd (List.prefix_nil.1 hx) (h x List.mem_cons_self)
  · rintro rfl
    rfl

/-- The clause of two lists of fragments is made of the clauses of both. -/
theorem join_append (τ : Text) {ys : List Text} (hy : ∀ y ∈ ys, y ≠ []) : ∀ xs : List Text,
    (∀ x ∈ xs, x ≠ []) → join τ (xs ++ ys) = beside τ (join τ xs) (join τ ys)
  | [], _ => by simp [beside, join]
  | [x], hx => by
    have hne : x ≠ [] := hx x List.mem_cons_self
    cases ys with
    | nil => simp [beside, join, hne]
    | cons y r =>
      have hj : join τ (y :: r) ≠ [] := fun h => by simp [join_eq_nil_iff hy] at h
      simp [beside, join, hne, hj]
  | x :: y :: r, hx => by
    have hr : ∀ z ∈ y :: r, z ≠ [] := fun z hz => hx z (List.mem_cons_of_mem x hz)
    have hne : x ≠ [] := hx x List.mem_cons_self
    have hj : join τ (y :: r) ≠ [] := fun h => by simp [join_eq_nil_iff hr] at h
    rw [List.cons_append, join_cons τ x (by simp), join_append τ hy (y :: r) hr,
      join_cons τ x (by simp)]
    by_cases hys : join τ ys = [] <;> simp [beside, hne, hj, hys]

/-! ### Fragments of traces -/

namespace Trace

theorem fragments_append (s t : Trace) : (s.append t).fragments = (do
    let xs ← s.fragments
    let ys ← t.fragments
    return xs ++ ys) := by
  rcases s with ⟨s, _ | f⟩
  · rcases t with ⟨t, _ | g⟩ <;>
      simp [append, fragments, kept, bind, Except.bind, pure, Except.pure]
  · rfl

theorem fragments_eq_ok {t : Trace} {xs : List Text} (h : t.fragments = .ok xs) : t.kept = xs := by
  unfold fragments at h
  split at h
  · simp at h
  · exact Except.ok.inj h

/-- A step of several traces is a step of one of them. -/
theorem mem_steps_concat {s : Step} : ∀ {ts : List Trace}, s ∈ (concat ts).steps →
    ∃ t ∈ ts, s ∈ t.steps
  | [], h => by simp [concat, empty] at h
  | t :: ts, h => by
    have hcase : s ∈ t.steps ∨ s ∈ (concat ts).steps := by
      rcases t with ⟨steps, _ | f⟩
      · simpa [concat, append] using h
      · exact .inl h
    rcases hcase with ht | hts
    · exact ⟨t, List.mem_cons_self, ht⟩
    · obtain ⟨u, hu, hs⟩ := mem_steps_concat hts
      exact ⟨u, List.mem_cons_of_mem t hu, hs⟩

theorem mem_kept_concat {x : Text} {ts : List Trace} (h : x ∈ (concat ts).kept) :
    ∃ t ∈ ts, x ∈ t.kept := by
  obtain ⟨s, hs, hx⟩ := List.mem_filterMap.1 h
  obtain ⟨t, ht, hs⟩ := mem_steps_concat hs
  exact ⟨t, ht, List.mem_filterMap.2 ⟨s, hs, hx⟩⟩

/-- Without failures the steps are those of all traces, one after another. -/
theorem steps_concat : ∀ {ts : List Trace}, (∀ t ∈ ts, t.failure = none) →
    (concat ts).steps = ts.flatMap steps
  | [], _ => rfl
  | t :: ts, h => by
    rw [concat, append, h t List.mem_cons_self, List.flatMap_cons,
      ← steps_concat fun u hu => h u (List.mem_cons_of_mem t hu)]

/-- Without failures the fragments are those of all traces, one after another. -/
theorem fragments_concat {ts : List Trace} (h : ∀ t ∈ ts, t.failure = none) :
    (concat ts).fragments = .ok (ts.flatMap kept) := by
  rw [fragments, failure_concat h, kept, steps_concat h, List.filterMap_flatMap]
  rfl

/-- If traces do not fail together, none of them does. -/
theorem failure_of_mem_concat : ∀ {ts : List Trace}, (concat ts).failure = none →
    ∀ t ∈ ts, t.failure = none
  | t :: ts, h, u, hu => by
    rw [concat, append] at h
    cases ht : t.failure with
    | some f => simp [ht] at h
    | none =>
      simp only [ht] at h
      rcases List.mem_cons.1 hu with rfl | hu
      · exact ht
      · exact failure_of_mem_concat h u hu

/-- The fragments are those of all traces, unless one of them fails. -/
theorem fragments_concat_map {α : Type} (trace : α → Trace) (as : List α) :
    (concat (as.map trace)).fragments =
      (as.mapM fun a => (trace a).fragments).map List.flatten := by
  induction as with
  | nil => rfl
  | cons a as ih =>
    rw [List.map_cons, concat, fragments_append, ih, List.mapM_cons]
    cases (trace a).fragments with
    | error f => rfl
    | ok xs => cases as.mapM fun a => (trace a).fragments <;> rfl

/-- If each of several traces writes its texts in order, so do they together; what is written is
trimmed and left out where it is blank. -/
theorem fragments_concat_flatMap {α β : Type} {trace : α → Trace} {texts : α → List β}
    {write : β → Except Failure Text} : ∀ {as : List α},
    (∀ a ∈ as, (trace a).fragments = ((texts a).mapM write).map strip) →
      (concat (as.map trace)).fragments = ((as.flatMap texts).mapM write).map strip
  | [], _ => rfl
  | a :: as, h => by
    rw [List.map_cons, concat, fragments_append, h a List.mem_cons_self,
      fragments_concat_flatMap fun b hb => h b (List.mem_cons_of_mem a hb), List.flatMap_cons,
      List.mapM_append]
    cases (texts a).mapM write with
    | error f => rfl
    | ok xs =>
      cases (as.flatMap texts).mapM write with
      | error f => rfl
      | ok ys => exact congrArg Except.ok (strip_append xs ys).symm

end Trace

namespace Config

variable {c : Config}

theorem ne_nil_of_mem_kept_traceRule {d : Direction} {r : Rule} {f : Text}
    (h : f ∈ (c.traceRule d r).kept) : f ≠ [] := by
  obtain ⟨t, ht, hf⟩ := Trace.mem_kept_concat h
  obtain ⟨x, -, rfl⟩ := List.mem_map.1 ht
  unfold traceDestination at hf
  split at hf
  · simp at hf
  · split at hf
    · simp [Step.fragment?] at hf
    · rename_i hne
      obtain rfl : f = _ := by simpa [Step.fragment?] using hf
      exact hne

/-- No fragment is empty. -/
theorem ne_nil_of_mem_kept_trace {dict : Option Dictionary} {directive f : Text}
    (h : f ∈ (c.trace dict directive).kept) : f ≠ [] := by
  unfold trace at h
  split at h
  · simp at h
  · split at h
    · simp at h
    · obtain ⟨t, ht, hf⟩ := Trace.mem_kept_concat h
      obtain ⟨x, -, rfl⟩ := List.mem_map.1 ht
      unfold traceCandidate at hf
      split at hf
      · simp at hf
      · split at hf
        · simp [Step.fragment?] at hf
        · exact ne_nil_of_mem_kept_traceRule hf

/-- The working of a directive whose candidates are those of two others. -/
theorem trace_append {s t u : Text} (h : candidates c.sourceSeparator u =
    candidates c.sourceSeparator s ++ candidates c.sourceSeparator t) (dict : Option Dictionary) :
    c.trace dict u = (c.trace dict s).append (c.trace dict t) := by
  cases dict with
  | none => rfl
  | some d =>
    simp only [trace]
    split
    · rfl
    · rw [h, List.map_append, Trace.concat_append]

/-! ### Fragments of a rule -/

theorem fragments_traceDestination (d : Direction) (x : Text) :
    (c.traceDestination d x).fragments = ([x].mapM fun x => c.render x d).map strip := by
  rw [traceDestination, List.mapM_cons, List.mapM_nil]
  cases c.render x d with
  | error f => rfl
  | ok w =>
    dsimp only
    split_ifs with hw
    · exact congrArg Except.ok (strip_cons_of_blank (trim_eq_nil_iff.1 hw) []).symm
    · exact congrArg Except.ok (by simp [Trace.kept, Trace.step, Step.fragment?, strip, hw])

/-- A rule leaves its destinations as they are written, up to the first that is not. -/
theorem fragments_traceRule (d : Direction) (r : Rule) :
    (c.traceRule d r).fragments =
      (r.destinations.mapM fun x => c.render x (r.direction d)).map strip := by
  have h := @Trace.fragments_concat_flatMap Text Text (c.traceDestination (r.direction d))
    (fun x => [x]) (fun x => c.render x (r.direction d)) r.destinations
    fun x _ => fragments_traceDestination (r.direction d) x
  rwa [List.flatMap_singleton'] at h

/-! ### Fragments of a candidate -/

/-- The rule that a candidate selects, and the direction in which its destinations are written. -/
def selected? (c : Config) (d : Dictionary) (x : Text) : Option (Rule × Direction) :=
  match c.parse x with
  | .error _ => none
  | .ok q => (d.get? q.field).map fun r => (r, r.direction q.direction)

/-- What a candidate asks the renderer to write: the destinations of the rule that it selects. -/
def asked (c : Config) (d : Dictionary) (x : Text) : List (Text × Direction) :=
  (c.selected? d x).toList.flatMap fun s => s.1.destinations.map fun y => (y, s.2)

/-- A candidate that can be read leaves what it asks for as it is written. -/
theorem fragments_traceCandidate_of_parse {x : Text} {q : Request} (hq : c.parse x = .ok q)
    (d : Dictionary) : (c.traceCandidate d x).fragments =
      ((c.asked d x).mapM fun p => c.render p.1 p.2).map strip := by
  rw [traceCandidate, asked, selected?, hq]
  dsimp only
  cases hs : d.sortable? q.field with
  | none =>
    have hnil : ((d.get? q.field).map fun r => (r, r.direction q.direction)).toList.flatMap
        (fun s => s.1.destinations.map fun y => (y, s.2)) = [] := by
      cases hr : d.get? q.field with
      | none => rfl
      | some r =>
        have hempty : r.destinations = [] :=
          List.isEmpty_iff.1 (Dictionary.sortable?_eq_none_iff.1 hs r hr)
        simp [hempty]
    rw [hnil]
    rfl
  | some r =>
    obtain ⟨hr, -⟩ := Dictionary.sortable?_eq_some.1 hs
    rw [fragments_traceRule, hr, Option.map_some, Option.toList_some, List.flatMap_singleton,
      List.mapM_map]
    rfl

/-! ### Fragments when nothing fails -/

variable {parse : Text → Request} {render : Text → Direction → Text}

theorem kept_traceRule (hr : ∀ x d, c.render x d = .ok (render x d)) (d : Direction) (r : Rule) :
    (c.traceRule d r).kept = strip (r.destinations.map fun x => render x (r.direction d)) := by
  have hwrite : (r.destinations.mapM fun x => c.render x (r.direction d)) =
      .ok (r.destinations.map fun x => render x (r.direction d)) := by
    simp only [hr]
    exact List.mapM_pure
  refine Trace.fragments_eq_ok ?_
  rw [fragments_traceRule, hwrite]
  rfl

/-- A candidate contributes the fragments of its request, if the dictionary admits it. -/
theorem kept_traceCandidate (hp : ∀ x, c.parse x = .ok (parse x))
    (hr : ∀ x d, c.render x d = .ok (render x d)) (dict : Dictionary) (x : Text) :
    (c.traceCandidate dict x).kept =
      (dict.admit? (parse x)).toList.flatMap (dict.fragments render) := by
  rw [traceCandidate, hp]
  dsimp only
  cases h : dict.sortable? (parse x).field with
  | none => simp [Dictionary.admit?, h, Step.fragment?]
  | some r =>
    have hd := Dictionary.destinations_of_get? (Dictionary.sortable?_eq_some.1 h).1
    simp [Dictionary.admit?, h, Dictionary.fragments, hd, kept_traceRule hr]

/-- If nothing fails, the fragments are those of the requests that the dictionary admits. -/
theorem fragments_trace (hp : ∀ x, c.parse x = .ok (parse x))
    (hr : ∀ x d, c.render x d = .ok (render x d)) (d : Dictionary) (directive : Text) :
    (c.trace (some d) directive).fragments =
      .ok ((((candidates c.sourceSeparator directive).map parse).filterMap d.admit?).flatMap
        (d.fragments render)) := by
  have hp' : ∀ x, ∃ q, c.parse x = .ok q := fun x => ⟨_, hp x⟩
  have hr' : ∀ x e, ∃ t, c.render x e = .ok t := fun x e => ⟨_, hr x e⟩
  simp only [trace]
  split
  · rename_i he
    have hnone : ∀ q, d.admit? q = none := fun q => by
      simp [Dictionary.admit?, Dictionary.sortable?_of_isEmpty he]
    rw [List.filterMap_eq_nil_iff.2 fun q _ => hnone q]
    rfl
  · rw [Trace.fragments_concat fun t ht => ?_]
    · rw [List.flatMap_map, List.filterMap_map, List.filterMap_eq_flatMap_toList,
        List.flatMap_assoc]
      simp only [kept_traceCandidate hp hr, Function.comp_apply]
    · obtain ⟨x, -, rfl⟩ := List.mem_map.1 ht
      exact failure_traceCandidate hp' hr' d x

end Config
end SortClause
