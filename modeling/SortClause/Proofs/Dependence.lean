import SortClause.Proofs.Composition
import SortClause.Proofs.Entries
/-!
What the outcome of a directive can depend on.  The parser is asked about candidates only, the
dictionary about the fields that they are for, and the renderer about the destinations of these
fields; two runs that agree there end alike (`Alike.expand_eq`).  An empty dictionary keeps the
parser from being asked at all, which shows only if it would give up
(`fragments_trace_of_parses`).  Main statement: `expand_eq_of_alike`, with what follows for entries
that a directive does not ask for.
-/
namespace SortClause.Config

open Text

variable {c c' : Config} {dict dict' : Option Dictionary} {s : Text}

/-- The parser does not give up on any text that can be a candidate. -/
def Parses (c : Config) : Prop := ∀ x, IsCandidate c.sourceSeparator x → ∃ q, c.parse x = .ok q

/-- Some candidate of the directive is for the field. -/
def AsksFor (c : Config) (directive field : Text) : Prop :=
  ∃ x ∈ candidates c.sourceSeparator directive, ∃ q, c.parse x = .ok q ∧ q.field = field

/-- Two runs over a directive that agree on all that is asked.  An absent dictionary counts as an
empty one. -/
structure Alike (c c' : Config) (dict dict' : Option Dictionary) (directive : Text) : Prop where
  source : c'.sourceSeparator = c.sourceSeparator
  target : c'.targetSeparator = c.targetSeparator
  parse : ∀ x, IsCandidate c.sourceSeparator x → c'.parse x = c.parse x
  sortable : ∀ f, c.AsksFor directive f →
    (dict'.getD .empty).sortable? f = (dict.getD .empty).sortable? f
  render : ∀ f, c.AsksFor directive f → ∀ r, (dict.getD .empty).sortable? f = some r →
    ∀ y ∈ r.destinations, ∀ d, c'.render y d = c.render y d
  /-- Either parser is asked, or none is, unless it does not matter. -/
  asked : (dict'.getD .empty).isEmpty = (dict.getD .empty).isEmpty ∨ c.Parses

/-! ### One candidate -/

theorem traceRule_congr {r : Rule} (h : ∀ y ∈ r.destinations, ∀ d, c'.render y d = c.render y d)
    (d : Direction) : c'.traceRule d r = c.traceRule d r := by
  have hmap : r.destinations.map (c'.traceDestination (r.direction d)) =
      r.destinations.map (c.traceDestination (r.direction d)) := by
    refine List.map_congr_left fun y hy => ?_
    rw [traceDestination, traceDestination, h y hy]
  rw [traceRule, traceRule, hmap]

theorem Alike.traceCandidate_eq (h : Alike c c' dict dict' s) {x : Text}
    (hx : x ∈ candidates c.sourceSeparator s) :
    c'.traceCandidate (dict'.getD .empty) x = c.traceCandidate (dict.getD .empty) x := by
  rw [traceCandidate, traceCandidate, h.parse x (isCandidate_of_mem hx)]
  cases hq : c.parse x with
  | error f => rfl
  | ok q =>
    have hask : c.AsksFor s q.field := ⟨x, hx, q, hq, rfl⟩
    dsimp only
    rw [h.sortable q.field hask]
    cases hr : (dict.getD .empty).sortable? q.field with
    | none => rfl
    | some r => exact traceRule_congr (h.render q.field hask r hr) q.direction

/-! ### All candidates -/

theorem trace_getD (c : Config) (dict : Option Dictionary) (s : Text) :
    c.trace dict s = c.trace (some (dict.getD .empty)) s := by
  cases dict <;> rfl

/-- A parser that does not give up may as well be asked about an empty dictionary. -/
theorem fragments_trace_of_parses (h : c.Parses) (d : Dictionary) (s : Text) :
    (c.trace (some d) s).fragments =
      (Trace.concat ((candidates c.sourceSeparator s).map (c.traceCandidate d))).fragments := by
  rw [trace]
  split_ifs with hd
  · refine (fragments_of_unsortable fun x hx => ?_).symm
    obtain ⟨q, hq⟩ := h x (isCandidate_of_mem hx)
    exact ⟨q, hq, Dictionary.sortable?_of_isEmpty hd _⟩
  · rfl

theorem Alike.parses (h : Alike c c' dict dict' s) (hc : c.Parses) : c'.Parses := by
  intro x hx
  rw [h.source] at hx
  rw [h.parse x hx]
  exact hc x hx

/-- Runs that agree on all that is asked have the same outcome. -/
theorem Alike.expand_eq (h : Alike c c' dict dict' s) : c'.expand dict' s = c.expand dict s := by
  have hmap : (candidates c'.sourceSeparator s).map (c'.traceCandidate (dict'.getD .empty)) =
      (candidates c.sourceSeparator s).map (c.traceCandidate (dict.getD .empty)) := by
    rw [h.source]
    exact List.map_congr_left fun x hx => h.traceCandidate_eq hx
  rw [expand, expand, h.target, trace_getD c', trace_getD c]
  rcases h.asked with hempty | hparses
  · rw [trace, trace, hempty, hmap]
  · rw [fragments_trace_of_parses hparses, fragments_trace_of_parses (h.parses hparses), hmap]

/-! ### Entries that are not asked for -/

/-- A dictionary may be changed where nothing is asked. -/
theorem expand_eq_of_sortable?_eq (hc : c.Parses) {d : Dictionary}
    (h : ∀ f, c.AsksFor s f → d.sortable? f = (dict.getD .empty).sortable? f) :
    c.expand (some d) s = c.expand dict s :=
  Alike.expand_eq ⟨rfl, rfl, fun _ _ => rfl, h, fun _ _ _ _ _ _ _ => rfl, .inr hc⟩

/-- The outcome of a directive is the same for parsers that agree on the texts that can be
candidates, dictionaries that hold the same rules that are not empty for the fields asked for, and
renderers that agree on the destinations of these rules; only, a parser that gives up must be kept
from it by an empty dictionary both times or neither.  So if the parser does not give up, entries
for fields that are not asked for may come, change and go, and an absent rule is like an empty
one, also where the dictionary becomes empty by it or ceases to be. -/
theorem expand_eq_of_alike (c : Config) (dict : Option Dictionary) (s : Text) :
    (∀ c' dict', Alike c c' dict dict' s → c'.expand dict' s = c.expand dict s) ∧
    (c.Parses → ∀ k r,
      (¬c.AsksFor s k →
        c.expand (some ((dict.getD .empty).insert k r)) s = c.expand dict s ∧
        c.expand (some ((dict.getD .empty).erase k)) s = c.expand dict s) ∧
      ((dict.getD .empty).get? k = none → r.isEmpty = true →
        c.expand (some ((dict.getD .empty).insert k r)) s = c.expand dict s)) := by
  refine ⟨fun c' dict' h => h.expand_eq, fun hc k r => ⟨fun hk => ⟨?_, ?_⟩, fun hnone hr => ?_⟩⟩
  · refine expand_eq_of_sortable?_eq hc fun f hf => ?_
    have hne : f ≠ k := fun e => hk (e ▸ hf)
    rw [Dictionary.sortable?_insert, if_neg hne]
  · refine expand_eq_of_sortable?_eq hc fun f hf => ?_
    have hne : f ≠ k := fun e => hk (e ▸ hf)
    rw [Dictionary.sortable?_erase, if_neg hne]
  · refine expand_eq_of_sortable?_eq hc fun f _ => ?_
    rw [Dictionary.sortable?_insert]
    split_ifs with hf
    · rw [hf, Dictionary.sortable?, hnone]
      rfl
    · rfl

/-- Like `angled`, but gives up also on texts that are no candidates and on the destination `z`. -/
def wary : Config where
  sourceSeparator := "<>".toList
  parser? := some fun x => if x = [] ∨ "<>".toList <:+: x then .error ⟨[]⟩ else angled.parse x
  renderer? := some fun y d => if y = ['z'] then .error ⟨[]⟩ else Renderer.standard y d

/-- Without the second field of `angledFields`, and with a field that has an empty rule. -/
def waryFields : Dictionary :=
  .ofList [(['a'], .of true [['x'], ['y']]), (['c'], .of true [])]

theorem expand_eq_of_alike_wary :
    (∀ s ∈ ["a desc<> c".toList, "a<>!".toList],
      Alike angled wary (some angledFields) (some waryFields) s) ∧
    wary.expand (some waryFields) "a desc<> c".toList = .ok "x ASC, y ASC".toList ∧
    wary.expand (some waryFields) "a<>!".toList = .error ⟨"bad".toList⟩ ∧
    ({} : Config).Parses ∧ ¬({} : Config).AsksFor "a, b".toList ['c'] ∧
    ({} : Config).expand (some (Dictionary.empty.insert ['c'] (.of true [['z']]))) "a, b".toList =
      .ok [] := by
  have hparse : ∀ x, IsCandidate angled.sourceSeparator x → wary.parse x = angled.parse x := by
    intro x hx
    have huncut := hx.uncut
    rw [if_neg (by decide)] at huncut
    exact if_neg (not_or.2 ⟨hx.ne_nil, huncut⟩)
  have hread : ∀ s ∈ ["a desc<> c".toList, "a<>!".toList],
      ∀ x ∈ candidates angled.sourceSeparator s, ∀ q ∈ (angled.parse x).toOption,
        q.field = ['a'] ∨ q.field = ['c'] := by decide
  have halike : ∀ s ∈ ["a desc<> c".toList, "a<>!".toList],
      Alike angled wary (some angledFields) (some waryFields) s := by
    intro s hs
    have hasks : ∀ f, angled.AsksFor s f → f = ['a'] ∨ f = ['c'] := by
      rintro f ⟨x, hx, q, hq, rfl⟩
      exact hread s hs x hx q (by rw [hq]; rfl)
    have hrule : ∀ f, f = ['a'] ∨ f = ['c'] →
        waryFields.sortable? f = angledFields.sortable? f ∧
        ∀ r ∈ angledFields.sortable? f, ∀ y ∈ r.destinations, y ≠ ['z'] := by
      rintro f (rfl | rfl) <;> decide
    exact ⟨rfl, rfl, hparse, fun f hf => (hrule f (hasks f hf)).1,
      fun f hf r hr y hy d => if_neg ((hrule f (hasks f hf)).2 r hr y hy), .inl (by decide)⟩
  have law := fun s => (expand_eq_of_alike angled (some angledFields) s).1 wary (some waryFields)
  have hparses : ({} : Config).Parses := fun x _ => ⟨_, rfl⟩
  have hnot : ¬({} : Config).AsksFor "a, b".toList ['c'] := by
    rintro ⟨x, hx, q, hq, hc⟩
    obtain rfl := Except.ok.inj hq
    have hfields : ∀ x ∈ candidates [','] "a, b".toList, (Request.ofCandidate x).field ≠ ['c'] := by
      decide
    exact hfields x hx hc
  refine ⟨halike, (law _ (halike _ (by decide))).trans (by decide),
    (law _ (halike _ (by decide))).trans (by decide), hparses, hnot, ?_⟩
  have absent := (expand_eq_of_alike {} none "a, b".toList).2 hparses ['c'] (.of true [['z']])
  exact (absent.1 hnot).1.trans (by decide)

end SortClause.Config
