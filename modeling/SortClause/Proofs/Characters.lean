import SortClause.Proofs.Requests
import SortClause.Proofs.Dependence
/-!
Directives that are cut at the empty separator.  Every character that is not blank is a candidate of
its own (`candidates_nil`), so nothing separates one request from the next, and with the standard
parser each of them is for the key that consists of the character, ascending.  Main statement:
`expand_by_character`.
-/
namespace SortClause

open Text

namespace Dictionary

/-- The destinations stored under the key of one character, each with the direction in which it is
written: ascending, turned round if the rule says so. -/
def spelledBy (d : Dictionary) (a : Char) : List (Text × Direction) :=
  match d.get? [a] with
  | none => []
  | some r => r.destinations.map fun x => (x, if r.reverse then .desc else .asc)

/-- The destinations that the characters of a directive stand for, one character after the other;
blanks stand for nothing. -/
def spelled (d : Dictionary) (directive : Text) : List (Text × Direction) :=
  (directive.filter (!isBlankChar ·)).flatMap d.spelledBy

theorem firm_of_mem_spelled {d : Dictionary} {t : Text} {p : Text × Direction}
    (h : p ∈ d.spelled t) : p.1 ≠ [] ∧ Firm p.1 := by
  obtain ⟨a, -, hp⟩ := List.mem_flatMap.1 h
  rw [spelledBy] at hp
  cases hr : d.get? [a] with
  | none => simp [hr] at hp
  | some r =>
    rw [hr] at hp
    obtain ⟨x, hx, rfl⟩ := List.mem_map.1 hp
    obtain ⟨hne, htrim⟩ := r.clean x hx
    exact ⟨hne, trim_eq_self_iff.1 htrim⟩

end Dictionary

/-! ### Characters as candidates -/

theorem Text.filter_trim (t : Text) :
    t.trim.filter (!isBlankChar ·) = t.filter (!isBlankChar ·) := by
  obtain ⟨u, v, hu, hv, e⟩ := exists_blank_ends t
  have hnil : ∀ {b : Text}, Blank b → b.filter (!isBlankChar ·) = [] := by
    intro b hb
    exact List.filter_eq_nil_iff.2 fun c hc => by simp [hb c hc]
  conv_rhs => rw [← e]
  rw [List.filter_append, List.filter_append, hnil hu, hnil hv, List.nil_append, List.append_nil]

theorem Text.strip_map_singleton (t : Text) :
    strip (t.map fun a => [a]) = (t.filter (!isBlankChar ·)).map fun a => [a] := by
  induction t with
  | nil => rfl
  | cons a r ih =>
    rw [List.map_cons]
    by_cases ha : isBlankChar a = true
    · have hblank : Blank [a] := by simpa [Blank] using ha
      rw [strip_cons_of_blank hblank, ih, List.filter_cons_of_neg (by simp [ha])]
    · have hfirm : Firm [a] := by simpa [Firm, FirmStart, FirmEnd] using ha
      calc strip ([a] :: r.map fun a => [a])
          = strip [[a]] ++ strip (r.map fun a => [a]) := strip_append [[a]] _
        _ = [a] :: (r.filter (!isBlankChar ·)).map fun a => [a] := by
          rw [strip_singleton (by simp) hfirm, ih]
          rfl
        _ = ((a :: r).filter (!isBlankChar ·)).map fun a => [a] := by
          rw [List.filter_cons_of_pos (by simp [ha]), List.map_cons]

/-- The empty separator makes every character that is not blank a candidate. -/
theorem candidates_nil (t : Text) :
    candidates [] t = (t.filter (!isBlankChar ·)).map fun a => [a] := by
  have hnil : strip [[]] = [] := by rfl
  rw [candidates_def, split, if_pos rfl, List.cons_append, strip_cons_of_blank (by decide),
    strip_append, hnil, List.append_nil, strip_map_singleton, filter_trim]

/-- Without a separator the candidates of two texts stand side by side. -/
theorem candidates_nil_append (s t : Text) :
    candidates [] (s ++ t) = candidates [] s ++ candidates [] t := by
  simp only [candidates_nil, List.filter_append, List.map_append]

namespace Config

variable {c : Config} {dict : Option Dictionary}

/-! ### The standard parser -/

theorem parse_character (hp : c.parse = Request.standardParser) {a : Char}
    (ha : isBlankChar a = false) : c.parse [a] = .ok ⟨[a], .asc⟩ := by
  have hspace : ' ' ∉ [a] := space_not_mem (hasBlank_eq_false_iff.2 (by simpa using ha))
  rw [hp, Request.standardParser, Request.ofCandidate_self hspace]

theorem fragments_traceCharacter (hp : c.parse = Request.standardParser) (d : Dictionary) {a : Char}
    (ha : isBlankChar a = false) :
    (c.traceCandidate d [a]).fragments =
      ((d.spelledBy a).mapM fun p => c.render p.1 p.2).map strip := by
  have hq := parse_character hp ha
  have hasked : c.asked d [a] = d.spelledBy a := by
    rw [asked, selected?, hq, Dictionary.spelledBy]
    dsimp only
    cases d.get? [a] with
    | none => rfl
    | some r => exact List.flatMap_singleton ..
  rw [fragments_traceCandidate_of_parse hq, hasked]

/-- A directive leaves what its characters stand for, up to the first failure of the renderer. -/
theorem fragments_trace_by_character (hσ : c.sourceSeparator = [])
    (hp : c.parse = Request.standardParser) (t : Text) :
    (c.trace dict t).fragments =
      (((dict.getD .empty).spelled t).mapM fun p => c.render p.1 p.2).map strip := by
  have hparses : c.Parses := fun x _ => ⟨_, by rw [hp]; rfl⟩
  rw [trace_getD, fragments_trace_of_parses hparses, hσ, candidates_nil, List.map_map,
    Dictionary.spelled]
  refine Trace.fragments_concat_flatMap fun a ha => ?_
  exact fragments_traceCharacter hp _ (by simpa using (List.mem_filter.1 ha).2)

/-- The clause of a directive, written from what its characters stand for. -/
theorem expand_eq_spelled (hσ : c.sourceSeparator = []) (hp : c.parse = Request.standardParser)
    (dict : Option Dictionary) (t : Text) :
    c.expand dict t = (((dict.getD .empty).spelled t).mapM fun p => c.render p.1 p.2).map
      fun ws => join c.targetSeparator (strip ws) := by
  rw [expand, fragments_trace_by_character hσ hp]
  cases ((dict.getD .empty).spelled t).mapM fun p => c.render p.1 p.2 <;> rfl

/-- Without a separator, two directives one after the other expand to the clauses of both beside
each other, the first failure winning.  Read by the standard parser, each character that is not
blank asks for its own key in ascending order; the clause is written from the rules of these keys,
completely so by a built-in renderer, and does not depend on the keys of any other length. -/
theorem expand_by_character (hσ : c.sourceSeparator = []) (dict : Option Dictionary) :
    (∀ s t, c.expand dict (s ++ t) = do
      let x ← c.expand dict s
      let y ← c.expand dict t
      return beside c.targetSeparator x y) ∧
    (c.parse = Request.standardParser → ∀ t,
      let d := dict.getD .empty
      let written := (d.spelled t).mapM fun p => c.render p.1 p.2
      (candidates c.sourceSeparator t).map c.parse =
        ((t.filter (!isBlankChar ·)).map fun a => .ok ⟨[a], .asc⟩) ∧
      c.expand dict t = written.map (fun ws => join c.targetSeparator (strip ws)) ∧
      (c.render.BuiltIn →
        ∃ ws, written = .ok ws ∧ c.expand dict t = .ok (join c.targetSeparator ws)) ∧
      ∀ d' : Dictionary, (∀ k : Text, k.length = 1 → d'.get? k = d.get? k) →
        c.expand (some d') t = c.expand dict t) := by
  refine ⟨fun s t => ?_, fun hp t => ⟨?_, expand_eq_spelled hσ hp dict t, fun hbuilt => ?_,
    fun d' hd' => ?_⟩⟩
  · refine expand_of_candidates_append ?_
    rw [hσ]
    exact candidates_nil_append s t
  · rw [hσ, candidates_nil, List.map_map]
    refine List.map_congr_left fun a ha => ?_
    exact parse_character hp (by simpa using (List.mem_filter.1 ha).2)
  · obtain ⟨ws, hws, hstrip, -⟩ := hbuilt.exists_written fun p hp =>
      @Dictionary.firm_of_mem_spelled (dict.getD .empty) t p hp
    refine ⟨ws, hws, ?_⟩
    rw [expand_eq_spelled hσ hp, hws, Except.map, hstrip]
  · have hsame : d'.spelledBy = (dict.getD .empty).spelledBy := by
      funext a
      rw [Dictionary.spelledBy, hd' [a] rfl, Dictionary.spelledBy]
    rw [expand_eq_spelled hσ hp, expand_eq_spelled hσ hp, Option.getD_some, Dictionary.spelled,
      Dictionary.spelled, hsame]

/-- Cuts at the empty separator and writes properties of `n`. -/
def unseparated : Config where
  sourceSeparator := []
  renderer? := some (Qualifier.of ['n']).renderer

/-- The same with the standard renderer. -/
def unseparatedPlain : Config := { sourceSeparator := [] }

/-- Two keys of one character and one of two. -/
def unseparatedFields : Dictionary :=
  .ofList [(['a'], .of true [['x'], ['y']]), (['é'], .of false [['z']]),
    (['a', 'b'], .of false [['w']])]

theorem expand_by_character_unseparated :
    unseparated.sourceSeparator = [] ∧ unseparated.parse = Request.standardParser ∧
    unseparated.render.BuiltIn ∧
    (∀ k : Text, k.length = 1 →
      (unseparatedFields.erase ['a', 'b']).get? k = unseparatedFields.get? k) ∧
    unseparated.expand (some unseparatedFields) ("ab \t".toList ++ "é desc".toList) =
      .ok "n.x DESC, n.y DESC, n.z ASC".toList ∧
    unseparated.expand (some (unseparatedFields.erase ['a', 'b'])) "ab é desc".toList =
      .ok "n.x DESC, n.y DESC, n.z ASC".toList ∧
    unseparatedPlain.render = Renderer.standard ∧
    unseparatedPlain.expand (some unseparatedFields) "ab é desc".toList =
      .ok "x DESC, y DESC, z ASC".toList := by
  have hbuilt : unseparated.render.BuiltIn := .inr ⟨['n'], rfl⟩
  have hkeys : ∀ k : Text, k.length = 1 →
      (unseparatedFields.erase ['a', 'b']).get? k = unseparatedFields.get? k := by
    intro k hk
    rw [Dictionary.get?_erase, if_neg (fun e => by simp [e] at hk)]
  obtain ⟨happend, hstandard⟩ := @expand_by_character unseparated rfl (some unseparatedFields)
  obtain ⟨-, -, -, hother⟩ := hstandard rfl "ab é desc".toList
  obtain ⟨-, hplain⟩ := @expand_by_character unseparatedPlain rfl (some unseparatedFields)
  obtain ⟨-, hspelled, -, -⟩ := hplain rfl "ab é desc".toList
  exact ⟨rfl, rfl, hbuilt, hkeys, (happend _ _).trans (by decide),
    (hother _ hkeys).trans (by decide), rfl, hspelled.trans (by decide)⟩

end Config
end SortClause
