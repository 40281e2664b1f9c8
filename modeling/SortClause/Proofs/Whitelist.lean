import SortClause.Proofs.Rendering
/-!
What can get from a directive into a sort clause.  A directive, which nobody vouches for, only picks
keys of the dictionary and a direction for each; everything that is written is written from these
pairs.  Main statement: `expand_whitelisted`.  It also says that the clause can be taken apart again
at the target separator, if that has no border and is not part of anything that was written.
-/
namespace SortClause

open Text

/-- The pairs of a key and a direction that a directive picks: what its candidates ask for, as far
as the dictionary admits it. -/
def Config.selection (c : Config) (parse : Text → Request) (d : Dictionary) (directive : Text) :
    List Request :=
  ((candidates c.sourceSeparator directive).map parse).filterMap d.admit?

theorem Dictionary.admit?_eq_some {d : Dictionary} {q p : Request} :
    d.admit? q = some p ↔ ∃ r, d.get? q.field = some r ∧ r.isEmpty = false ∧
      p = ⟨q.field, r.direction q.direction⟩ := by
  simp only [admit?, Option.map_eq_some_iff, sortable?_eq_some]
  constructor
  · rintro ⟨r, ⟨hr, he⟩, e⟩
    exact ⟨r, hr, he, e.symm⟩
  · rintro ⟨r, hr, he, e⟩
    exact ⟨r, ⟨hr, he⟩, e.symm⟩

variable {c : Config} {parse : Text → Request} {render : Text → Direction → Text}

/-! ### Reading a clause back -/

/-- A fragment of a built-in renderer is what it wrote for a destination of one of the keys. -/
theorem Dictionary.mem_fragments_of_builtIn {r : Renderer} (h : r.BuiltIn)
    (hr : ∀ x d, r x d = .ok (render x d)) {d : Dictionary} {qs : List Request} {f : Text} :
    f ∈ qs.flatMap (d.fragments render) ↔
      ∃ q ∈ qs, ∃ x ∈ d.destinations q.field, render x q.direction = f := by
  simp only [List.mem_flatMap, fragments_of_builtIn h hr, List.mem_map]

theorem Dictionary.join_fragments_eq_nil_iff {r : Renderer} (h : r.BuiltIn)
    (hr : ∀ x d, r x d = .ok (render x d)) (d : Dictionary) (τ : Text) (qs : List Request) :
    join τ (qs.flatMap (d.fragments render)) = [] ↔ qs.flatMap (d.fragments render) = [] := by
  refine join_eq_nil_iff fun f hf => ?_
  obtain ⟨q, -, x, hx, rfl⟩ := (mem_fragments_of_builtIn h hr).1 hf
  obtain ⟨hne, hfirm⟩ := firm_of_mem_destinations hx
  exact (Renderer.firm_of_builtIn h hne hfirm (hr x q.direction)).1

/-- A separator that is no part of what was written cuts the clause into its fragments. -/
theorem Dictionary.split_join_fragments {r : Renderer} (h : r.BuiltIn)
    (hr : ∀ x d, r x d = .ok (render x d)) {d : Dictionary} {τ : Text} (hne : τ ≠ [])
    (hb : Unbordered τ) {qs : List Request}
    (hclear : ∀ q ∈ qs, ∀ x ∈ d.destinations q.field, ¬τ <:+: render x q.direction)
    (hqs : qs.flatMap (d.fragments render) ≠ []) :
    split τ (join τ (qs.flatMap (d.fragments render))) = qs.flatMap (d.fragments render) := by
  refine split_join hne hb hqs fun f hf => ?_
  obtain ⟨q, hq, x, hx, rfl⟩ := (mem_fragments_of_builtIn h hr).1 hf
  exact hclear q hq x hx

/-! ### What a directive picks -/

namespace Config

theorem get?_of_mem_selection {d : Dictionary} {directive : Text} {p : Request}
    (h : p ∈ c.selection parse d directive) :
    ∃ r, d.get? p.field = some r ∧ r.isEmpty = false := by
  obtain ⟨q, -, hq⟩ := List.mem_filterMap.1 h
  obtain ⟨r, hr, he, rfl⟩ := Dictionary.admit?_eq_some.1 hq
  exact ⟨r, hr, he⟩

theorem expand_eq_join (hp : ∀ x, c.parse x = .ok (parse x))
    (hr : ∀ x d, c.render x d = .ok (render x d)) (dict : Option Dictionary) (directive : Text) :
    c.expand dict directive = .ok (join c.targetSeparator
      ((c.selection parse (dict.getD .empty) directive).flatMap
        ((dict.getD .empty).fragments render))) := by
  have hnone : c.trace none directive = c.trace (some .empty) directive := rfl
  cases dict with
  | none =>
    rw [expand, hnone, fragments_trace hp hr]
    rfl
  | some d =>
    rw [expand, fragments_trace hp hr]
    rfl

/-- The sort clause is written from the keys and directions that the directive picks, each key
standing for a rule that is not empty: directives that pick the same have the same clause.  What the
library's own renderers write is found in the clause as it was written, piece by piece between the
separators. -/
theorem expand_whitelisted (hp : ∀ x, c.parse x = .ok (parse x))
    (hr : ∀ x d, c.render x d = .ok (render x d)) (dict : Option Dictionary) (directive : Text) :
    let d := dict.getD .empty
    let pairs := c.selection parse d directive
    let fragments := pairs.flatMap (d.fragments render)
    c.expand dict directive = .ok (join c.targetSeparator fragments) ∧
    (∀ q ∈ pairs, ∃ r, d.get? q.field = some r ∧ r.isEmpty = false) ∧
    (∀ directive', c.selection parse d directive' = pairs →
      c.expand dict directive' = c.expand dict directive) ∧
    (c.render.BuiltIn → c.targetSeparator ≠ [] → Unbordered c.targetSeparator →
      (∀ q ∈ pairs, ∀ x ∈ d.destinations q.field,
        ¬c.targetSeparator <:+: render x q.direction) →
      fragments =
        pairs.flatMap (fun q => (d.destinations q.field).map fun x => render x q.direction) ∧
      (join c.targetSeparator fragments = [] ↔ fragments = []) ∧
      (fragments ≠ [] →
        split c.targetSeparator (join c.targetSeparator fragments) = fragments)) := by
  intro d pairs fragments
  have hexpand := fun directive' => expand_eq_join hp hr dict directive'
  refine ⟨hexpand directive, fun q => get?_of_mem_selection, fun directive' h => ?_,
    fun hbuilt hne hb hclear => ⟨?_, ?_, ?_⟩⟩
  · rw [hexpand, hexpand, h]
  · exact congrArg pairs.flatMap (funext (Dictionary.fragments_of_builtIn hbuilt hr d))
  · exact Dictionary.join_fragments_eq_nil_iff hbuilt hr d _ pairs
  · exact Dictionary.split_join_fragments hbuilt hr hne hb hclear

/-- Writes the destinations as properties of `n`. -/
def bound : Config := { renderer? := some (Qualifier.of " n ".toList).renderer }

def boundFields : Dictionary :=
  .ofList [("a".toList, .of true ["x".toList, " y ".toList]), ("b".toList, .of false ["z".toList])]

theorem expand_whitelisted_bound :
    bound.render.BuiltIn ∧ bound.targetSeparator ≠ [] ∧ Unbordered bound.targetSeparator ∧
    bound.expand (some boundFields) "a, drop table, b desc; --, b DESC x".toList =
      .ok "n.x DESC, n.y DESC, n.z ASC, n.z DESC".toList ∧
    split bound.targetSeparator "n.x DESC, n.y DESC, n.z ASC, n.z DESC".toList =
      ["n.x DESC".toList, "n.y DESC".toList, "n.z ASC".toList, "n.z DESC".toList] := by
  have hbuilt : bound.render.BuiltIn := .inr ⟨" n ".toList, rfl⟩
  have hτ : bound.targetSeparator ≠ [] ∧ Unbordered bound.targetSeparator := by decide
  have law := @expand_whitelisted bound Request.ofCandidate
    (fun x d => Renderer.plainText ((Qualifier.of " n ".toList).qualify x) d)
    (fun _ => rfl) (fun _ _ => rfl) (some boundFields) "a, drop table, b desc; --, b DESC x".toList
  obtain ⟨hclause, -, -, hsplit⟩ := law
  obtain ⟨-, -, hpieces⟩ := hsplit hbuilt hτ.1 hτ.2 (by decide)
  exact ⟨hbuilt, hτ.1, hτ.2, hclause.trans (by decide), hpieces (by decide)⟩

end Config
end SortClause
