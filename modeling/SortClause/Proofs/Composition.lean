import SortClause.Proofs.Fragments
/-!
Directives made of parts.  A directive whose candidates are those of two others expands to the
clauses of both beside each other, and fails as the first of them that fails
(`expand_of_candidates_append`).  Main statement: this is so for two directives with a separator
between them, whatever blanks and unsortable fields there are (`expand_append_separator`), if the
separator has no border and is firm or blank.
-/
namespace SortClause.Config

open Text

variable {c : Config} {dict : Option Dictionary}

/-- No candidate of the directive is for a sortable field. -/
def Idle (c : Config) (dict : Option Dictionary) (directive : Text) : Prop :=
  ∀ x ∈ candidates c.sourceSeparator directive,
    ∃ q, c.parse x = .ok q ∧ ∀ d ∈ dict, d.sortable? q.field = none

theorem expand_congr {s t : Text} (h : candidates c.sourceSeparator s =
    candidates c.sourceSeparator t) : c.expand dict s = c.expand dict t := by
  simp only [expand, trace, h]

/-- The clauses of two directives beside each other, or the first failure. -/
theorem expand_of_candidates_append {s t u : Text} (h : candidates c.sourceSeparator u =
    candidates c.sourceSeparator s ++ candidates c.sourceSeparator t) :
    c.expand dict u = (do
      let x ← c.expand dict s
      let y ← c.expand dict t
      return beside c.targetSeparator x y) := by
  simp only [expand, trace_append h dict, Trace.fragments_append]
  cases hs : (c.trace dict s).fragments with
  | error f => rfl
  | ok xs =>
    cases ht : (c.trace dict t).fragments with
    | error f => rfl
    | ok ys =>
      have hx : ∀ x ∈ xs, x ≠ [] := fun x hx =>
        ne_nil_of_mem_kept_trace (by rwa [Trace.fragments_eq_ok hs])
      have hy : ∀ y ∈ ys, y ≠ [] := fun y hy =>
        ne_nil_of_mem_kept_trace (by rwa [Trace.fragments_eq_ok ht])
      exact congrArg Except.ok (join_append c.targetSeparator hy xs hx)

/-! ### Parts that contribute nothing -/

/-- Candidates for unsortable fields leave no fragments. -/
theorem fragments_of_unsortable {d : Dictionary} {xs : List Text}
    (h : ∀ x ∈ xs, ∃ q, c.parse x = .ok q ∧ d.sortable? q.field = none) :
    (Trace.concat (xs.map (c.traceCandidate d))).fragments = .ok [] := by
  have hskip : ∀ t ∈ xs.map (c.traceCandidate d), t.failure = none ∧ t.kept = [] := by
    intro t ht
    obtain ⟨x, hx, rfl⟩ := List.mem_map.1 ht
    obtain ⟨q, hq, hd⟩ := h x hx
    rw [traceCandidate, hq]
    dsimp only
    rw [hd]
    exact ⟨rfl, rfl⟩
  rw [Trace.fragments_concat fun t ht => (hskip t ht).1,
    List.flatMap_eq_nil_iff.2 fun t ht => (hskip t ht).2]

theorem expand_of_idle {u : Text} (h : c.Idle dict u) : c.expand dict u = .ok [] := by
  unfold expand trace
  cases dict with
  | none => rfl
  | some d =>
    dsimp only
    split
    · rfl
    · have hskip : ∀ x ∈ candidates c.sourceSeparator u,
          ∃ q, c.parse x = .ok q ∧ d.sortable? q.field = none := by
        intro x hx
        obtain ⟨q, hq, hd⟩ := h x hx
        exact ⟨q, hq, hd d rfl⟩
      rw [fragments_of_unsortable hskip]
      rfl

theorem idle_of_blank {u : Text} (h : Blank u) : c.Idle dict u := by
  intro x hx
  simp [candidates_of_blank h] at hx

/-- A directive that expands to nothing leaves the clause beside it as it is. -/
theorem bind_beside_nil (τ : Text) (e : Except Failure Text) :
    (do let x ← e; return beside τ x []) = e := by
  cases e with
  | error f => rfl
  | ok x => by_cases h : x = [] <;> simp [beside, h, bind, Except.bind, pure, Except.pure]

theorem bind_nil_beside (τ : Text) (e : Except Failure Text) :
    (do let y ← e; return beside τ [] y) = e := by
  cases e <;> rfl

/-! ### A separator between two directives -/

/-- Two directives with a separator between them expand to the clauses of both beside each other,
the first failure winning.  Hence a part in which nothing is sortable, a blank one among them, and
blanks around the separator make no difference. -/
theorem expand_append_separator (hne : c.sourceSeparator ≠ []) (hb : Unbordered c.sourceSeparator)
    (he : Firm c.sourceSeparator ∨ Blank c.sourceSeparator) (s t : Text) :
    (c.expand dict (s ++ c.sourceSeparator ++ t) = do
      let x ← c.expand dict s
      let y ← c.expand dict t
      return beside c.targetSeparator x y) ∧
    (∀ u, Blank u ∨ c.Idle dict u →
      c.expand dict (s ++ c.sourceSeparator ++ u) = c.expand dict s ∧
      c.expand dict (u ++ c.sourceSeparator ++ t) = c.expand dict t ∧
      c.expand dict (s ++ c.sourceSeparator ++ u ++ c.sourceSeparator ++ t) =
        c.expand dict (s ++ c.sourceSeparator ++ t)) ∧
    ∀ u v, Blank u → Blank v →
      c.expand dict (s ++ u ++ c.sourceSeparator ++ (v ++ t)) =
        c.expand dict (s ++ c.sourceSeparator ++ t) := by
  have law := fun s t : Text =>
    @expand_of_candidates_append c dict s t _ (candidates_append_separator hne hb he s t)
  refine ⟨law s t, fun u hu => ?_, fun u v hu hv => ?_⟩
  · have hnil : c.expand dict u = .ok [] := expand_of_idle (hu.elim idle_of_blank id)
    have hright : ∀ s, c.expand dict (s ++ c.sourceSeparator ++ u) = c.expand dict s := by
      intro s
      rw [law, hnil]
      exact bind_beside_nil _ _
    refine ⟨hright s, ?_, ?_⟩
    · rw [law, hnil]
      exact bind_nil_beside _ _
    · rw [law (s ++ c.sourceSeparator ++ u) t, hright, law s t]
  · have hs : candidates c.sourceSeparator (s ++ u) = candidates c.sourceSeparator s := by
      rw [candidates_def, candidates_def, trim_append_of_blank hu]
    have ht : candidates c.sourceSeparator (v ++ t) = candidates c.sourceSeparator t := by
      rw [candidates_def, candidates_def, trim_blank_append hv]
    rw [law, law, expand_congr hs, expand_congr ht]

/-- Cuts at `<>` and gives up on `!`. -/
def angled : Config where
  sourceSeparator := "<>".toList
  parser? := some fun x =>
    if x = ['!'] then .error ⟨"bad".toList⟩ else .ok (Request.ofCandidate x)

/-- Two sortable fields, the first of them reversed. -/
def angledFields : Dictionary :=
  .ofList [(['a'], .of true [['x'], ['y']]), (['b'], .of false [['z']])]

theorem expand_append_separator_angled :
    (angled.sourceSeparator ≠ [] ∧ Unbordered angled.sourceSeparator ∧
      Firm angled.sourceSeparator) ∧
    angled.Idle (some angledFields) "c <".toList ∧ Blank [' ', '\t'] ∧
    angled.expand (some angledFields) ("a <".toList ++ angled.sourceSeparator ++ "b desc >".toList)
      = .ok "x DESC, y DESC, z DESC".toList ∧
    angled.expand (some angledFields) ("!".toList ++ angled.sourceSeparator ++ "b desc >".toList)
      = .error ⟨"bad".toList⟩ ∧
    angled.expand (some angledFields)
      ("a <".toList ++ angled.sourceSeparator ++ "c <".toList ++ angled.sourceSeparator ++
        "b desc >".toList) = .ok "x DESC, y DESC, z DESC".toList ∧
    angled.expand (some angledFields)
      ("a <".toList ++ [' ', '\t'] ++ angled.sourceSeparator ++ ([' ', '\t'] ++ "b desc >".toList))
      = .ok "x DESC, y DESC, z DESC".toList := by
  have hσ : angled.sourceSeparator ≠ [] ∧ Unbordered angled.sourceSeparator ∧
      Firm angled.sourceSeparator := by decide
  have hblank : Blank [' ', '\t'] := by decide
  have hidle : angled.Idle (some angledFields) "c <".toList := by
    intro x hx
    have hcut : candidates angled.sourceSeparator "c <".toList = ["c <".toList] := by decide
    rw [hcut] at hx
    obtain rfl := List.mem_singleton.1 hx
    refine ⟨⟨['c'], .asc⟩, by rfl, fun d hd => ?_⟩
    obtain rfl : angledFields = d := Option.some.inj hd
    decide
  have law := fun s => @expand_append_separator angled (some angledFields) hσ.1 hσ.2.1 (.inl hσ.2.2)
    s "b desc >".toList
  have hclause : angled.expand (some angledFields)
      ("a <".toList ++ angled.sourceSeparator ++ "b desc >".toList) =
        .ok "x DESC, y DESC, z DESC".toList := (law "a <".toList).1.trans (by decide)
  exact ⟨hσ, hidle, hblank, hclause, (law "!".toList).1.trans (by decide),
    ((law "a <".toList).2.1 "c <".toList (.inr hidle)).2.2.trans hclause,
    ((law "a <".toList).2.2 _ _ hblank hblank).trans hclause⟩

end SortClause.Config
