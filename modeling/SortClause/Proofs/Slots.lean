import SortClause.Proofs.Dependence
/-!
Which override counts.  Each override is for one slot of a configuration.  A later one for the same
slot undoes it, and one for another slot does not touch it (`override_of_slot_eq`,
`override_comm`), so a slot ends up with what the last override for it gives
(`foldl_override_getLast?`).  What a directive comes to depends on the configuration through the
two separators and the parser and renderer in use only (`Agrees.expand_eq`).  Main statement: items
that are absent or overridden later make no difference, nor does the order of neighbours for
different slots (`ofOverrides_resolved`).
-/
namespace SortClause

/-- A part of a configuration that overrides replace. -/
inductive Slot where
  | sourceSeparator
  | targetSeparator
  | parser
  | renderer
  deriving DecidableEq

namespace Override

/-- The slot that an override is for. -/
def slot : Override → Slot
  | sourceSeparator _ => .sourceSeparator
  | targetSeparator _ => .targetSeparator
  | parser _ => .parser
  | renderer _ => .renderer

/-- The new separator for directives. -/
def sourceSeparator? : Override → Option Text
  | sourceSeparator σ => some σ
  | _ => none

/-- The new separator for fragments. -/
def targetSeparator? : Override → Option Text
  | targetSeparator τ => some τ
  | _ => none

/-- The new parser; the inner `none` goes back to the standard one. -/
def parser? : Override → Option (Option RequestParser)
  | parser p => some p
  | _ => none

/-- The new renderer; the inner `none` goes back to the standard one. -/
def renderer? : Override → Option (Option Renderer)
  | renderer r => some r
  | _ => none

end Override

namespace Config

variable {c c' : Config} {o o' : Override}

/-- What the last item for a slot gives, when `value?` reads the values for that slot. -/
def lastGiven {α : Type} (value? : Override → Option α) (items : List (Option Override)) :
    Option α :=
  ((items.filterMap id).filterMap value?).getLast?

/-- The configuration in which each slot has what the last item for it gives, and the default if
there is none.  A parser or renderer that is not there is the standard one. -/
def resolved (items : List (Option Override)) : Config where
  sourceSeparator := (lastGiven Override.sourceSeparator? items).getD [',']
  targetSeparator := (lastGiven Override.targetSeparator? items).getD [',', ' ']
  parser? := some ((lastGiven Override.parser? items).join.getD Request.standardParser)
  renderer? := some ((lastGiven Override.renderer? items).join.getD Renderer.standard)

/-- Configurations with the same separators that use the same parser and renderer, though one may
name the standard ones and the other leave them out. -/
structure Agrees (c c' : Config) : Prop where
  sourceSeparator : c'.sourceSeparator = c.sourceSeparator
  targetSeparator : c'.targetSeparator = c.targetSeparator
  parse : c'.parse = c.parse
  render : c'.render = c.render

/-- Configurations that agree expand every directive alike. -/
theorem Agrees.expand_eq (h : c.Agrees c') (dict : Option Dictionary) (s : Text) :
    c'.expand dict s = c.expand dict s :=
  Alike.expand_eq
    { source := h.sourceSeparator
      target := h.targetSeparator
      parse := fun x _ => congrFun h.parse x
      sortable := fun _ _ => rfl
      render := fun _ _ _ _ y _ d => congrFun (congrFun h.render y) d
      asked := .inl rfl }

/-! ### Two overrides -/

/-- The later of two overrides for one slot counts. -/
theorem override_of_slot_eq (h : o.slot = o'.slot) :
    (c.override o).override o' = c.override o' := by
  revert h
  cases o <;> cases o' <;> simp [Override.slot, override]

/-- Overrides for different slots may change places. -/
theorem override_comm (h : o.slot ≠ o'.slot) :
    (c.override o).override o' = (c.override o').override o := by
  revert h
  cases o <;> cases o' <;> simp [Override.slot, override]

/-! ### Many overrides -/

/-- An override that a later one undoes may be left out. -/
theorem foldl_override_of_later {os : List Override} (h : ∃ o' ∈ os, o'.slot = o.slot) :
    os.foldl override (c.override o) = os.foldl override c := by
  induction os generalizing c with
  | nil =>
    obtain ⟨o', ho', -⟩ := h
    cases ho'
  | cons p os ih =>
    rw [List.foldl_cons, List.foldl_cons]
    by_cases hp : o.slot = p.slot
    · rw [override_of_slot_eq hp]
    · have hlater : ∃ o' ∈ os, o'.slot = o.slot := by
        obtain ⟨o', ho', hslot⟩ := h
        rcases List.mem_cons.1 ho' with rfl | ho'
        · exact absurd hslot.symm hp
        · exact ⟨o', ho', hslot⟩
      rw [override_comm hp, ih hlater]

/-- A slot holds what the last override for it gives, and what it held before if there is none. -/
theorem foldl_override_getLast? {α : Type} {get : Config → α} {value? : Override → Option α}
    (h : ∀ c o, get (override c o) = (value? o).getD (get c)) (os : List Override) (c : Config) :
    get (os.foldl override c) = (os.filterMap value?).getLast?.getD (get c) := by
  induction os generalizing c with
  | nil => rfl
  | cons o os ih =>
    rw [List.foldl_cons, ih, h]
    cases ho : value? o with
    | none => rw [List.filterMap_cons_none ho, Option.getD_none]
    | some v =>
      rw [List.filterMap_cons_some ho, List.getLast?_cons, Option.getD_some, Option.getD_some]

/-- What is given to the slots is what they hold, with a parser or renderer that is not there for
the standard one. -/
theorem agrees_resolved (items : List (Option Override)) :
    (resolved items).Agrees (ofOverrides items) := by
  have slot : ∀ {α : Type} {get : Config → α} {value? : Override → Option α},
      (∀ c o, get (override c o) = (value? o).getD (get c)) →
      get (ofOverrides items) = (lastGiven value? items).getD (get {}) :=
    fun h => foldl_override_getLast? h _ {}
  have hparser : (ofOverrides items).parser? = (lastGiven Override.parser? items).getD none :=
    slot fun c o => by cases o <;> rfl
  have hrenderer : (ofOverrides items).renderer? = (lastGiven Override.renderer? items).getD none :=
    slot fun c o => by cases o <;> rfl
  constructor
  case sourceSeparator => exact slot fun c o => by cases o <;> rfl
  case targetSeparator => exact slot fun c o => by cases o <;> rfl
  case parse =>
    simp only [parse, hparser, resolved, Option.getD_some]
    cases lastGiven Override.parser? items <;> rfl
  case render =>
    simp only [render, hrenderer, resolved, Option.getD_some]
    cases lastGiven Override.renderer? items <;> rfl

/-! ### The order of items -/

theorem ofOverrides_append (xs ys : List (Option Override)) :
    ofOverrides (xs ++ ys) = (ys.filterMap id).foldl override (ofOverrides xs) := by
  rw [ofOverrides, List.filterMap_append, List.foldl_append]
  rfl

/-- A configuration has in each slot what the last item for it gives, separators as they stand, the
empty one too, and the standard parser or renderer where that item has none, whatever went before;
slots without an item have the defaults.  Every directive is expanded with these.  An item that is
absent or overridden later may be left out, and neighbours for different slots may change places:
the configuration stays the same.  Items that come after others are applied one by one to what the
others give. -/
theorem ofOverrides_resolved :
    (∀ items : List (Option Override),
      (ofOverrides items).sourceSeparator =
        (lastGiven Override.sourceSeparator? items).getD [','] ∧
      (ofOverrides items).targetSeparator =
        (lastGiven Override.targetSeparator? items).getD [',', ' '] ∧
      (ofOverrides items).parse =
        (lastGiven Override.parser? items).join.getD Request.standardParser ∧
      (ofOverrides items).render =
        (lastGiven Override.renderer? items).join.getD Renderer.standard ∧
      ∀ dict s, (ofOverrides items).expand dict s = (resolved items).expand dict s) ∧
    (∀ xs ys, ofOverrides (xs ++ none :: ys) = ofOverrides (xs ++ ys)) ∧
    (∀ xs o ys, (∃ o', some o' ∈ ys ∧ o'.slot = o.slot) →
      ofOverrides (xs ++ some o :: ys) = ofOverrides (xs ++ ys)) ∧
    (∀ xs o o' ys, o.slot ≠ o'.slot →
      ofOverrides (xs ++ some o :: some o' :: ys) =
        ofOverrides (xs ++ some o' :: some o :: ys)) ∧
    ∀ xs ys, ofOverrides (xs ++ ys) = (ys.filterMap id).foldl override (ofOverrides xs) := by
  refine ⟨fun items => ?_, fun xs ys => ?_, fun xs o ys h => ?_, fun xs o o' ys h => ?_,
    ofOverrides_append⟩
  · have h := agrees_resolved items
    exact ⟨h.sourceSeparator, h.targetSeparator, h.parse, h.render, h.expand_eq⟩
  · rw [ofOverrides_append, ofOverrides_append, List.filterMap_cons_none rfl]
  · have hlater : ∃ o' ∈ ys.filterMap id, o'.slot = o.slot := by
      obtain ⟨o', ho', hslot⟩ := h
      exact ⟨o', List.mem_filterMap.2 ⟨some o', ho', rfl⟩, hslot⟩
    rw [ofOverrides_append, ofOverrides_append, List.filterMap_cons_some (f := id) rfl,
      List.foldl_cons, foldl_override_of_later hlater]
  · rw [ofOverrides_append, ofOverrides_append]
    simp only [List.filterMap_cons_some (f := id) rfl, List.foldl_cons]
    rw [override_comm h]

/-- A parser that takes a candidate whole. -/
def wholeParser : RequestParser := fun x => .ok ⟨x, .asc⟩

/-- A parser that is taken back, the empty separator and an item that is not there. -/
def takenBack : List (Option Override) :=
  [some (.parser (some wholeParser)), none, some (.sourceSeparator []), some (.parser none)]

theorem ofOverrides_resolved_takenBack :
    (ofOverrides takenBack).sourceSeparator = [] ∧
    (ofOverrides takenBack).parse = Request.standardParser ∧
    (∃ o', some o' ∈ takenBack.tail ∧ o'.slot = (Override.parser (some wholeParser)).slot) ∧
    ofOverrides takenBack = ofOverrides takenBack.tail ∧
    (Override.sourceSeparator []).slot ≠ (Override.parser none).slot ∧
    ofOverrides takenBack =
      ofOverrides (takenBack.take 2 ++ [some (.parser none), some (.sourceSeparator [])]) := by
  obtain ⟨hresolved, -, hundone, hswap, -⟩ := ofOverrides_resolved
  obtain ⟨hsource, -, hparse, -⟩ := hresolved takenBack
  have hlater : ∃ o', some o' ∈ takenBack.tail ∧
      o'.slot = (Override.parser (some wholeParser)).slot :=
    ⟨.parser none, by simp [takenBack], rfl⟩
  have hslots : (Override.sourceSeparator []).slot ≠ (Override.parser none).slot := by decide
  exact ⟨hsource, hparse, hlater, hundone [] _ _ hlater, hslots,
    hswap (takenBack.take 2) _ _ [] hslots⟩

end Config
end SortClause
