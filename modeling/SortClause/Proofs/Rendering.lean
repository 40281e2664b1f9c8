import SortClause.Proofs.Fragments
/-!
The renderers that come with the library.  Main statement: what they write for a firm destination is
firm again (`firm_of_builtIn`), so fragments are left as they were written and none is dropped
(`fragments_of_builtIn`).
-/
namespace SortClause

open Text

/-- The standard renderer, or the one of a variable. -/
def Renderer.BuiltIn (r : Renderer) : Prop :=
  r = Renderer.standard ∨ ∃ v, r = (Qualifier.of v).renderer

theorem Renderer.firm_plainText {x : Text} (hne : x ≠ []) (hx : Firm x) (d : Direction) :
    plainText x d ≠ [] ∧ Firm (plainText x d) := by
  refine ⟨by simp [plainText], (firm_append hne (by simp)).2 ⟨hx.1, ?_⟩⟩
  cases d <;> decide

theorem Qualifier.firm_qualify (q : Qualifier) {x : Text} (hne : x ≠ []) (hx : Firm x) :
    q.qualify x ≠ [] ∧ Firm (q.qualify x) := by
  unfold qualify
  split_ifs with hq
  · exact ⟨hne, hx⟩
  · have hname : Firm q.name := trim_eq_self_iff.1 q.trimmed
    refine ⟨by simp, (firm_append hq (by simp)).2 ⟨hname.1, ?_⟩⟩
    exact (firmEnd_append ['.'] hne).2 hx.2

/-- The standard renderer is that of the empty variable. -/
theorem Renderer.standard_eq : Renderer.standard = (Qualifier.of []).renderer := rfl

theorem Renderer.BuiltIn.exists_qualifier {r : Renderer} (h : r.BuiltIn) :
    ∃ v, r = (Qualifier.of v).renderer :=
  h.elim (fun e => ⟨[], e.trans standard_eq⟩) id

/-- What a built-in renderer writes for a firm destination is firm. -/
theorem Renderer.firm_of_builtIn {r : Renderer} (h : r.BuiltIn) {x w : Text} {d : Direction}
    (hne : x ≠ []) (hx : Firm x) (hw : r x d = .ok w) : w ≠ [] ∧ Firm w := by
  obtain ⟨v, rfl⟩ := h.exists_qualifier
  obtain rfl : plainText ((Qualifier.of v).qualify x) d = w := Except.ok.inj hw
  obtain ⟨hqne, hq⟩ := (Qualifier.of v).firm_qualify hne hx
  exact firm_plainText hqne hq d

theorem Text.strip_eq_self {xs : List Text} (h : ∀ x ∈ xs, x ≠ [] ∧ Firm x) : strip xs = xs := by
  induction xs with
  | nil => rfl
  | cons x r ih =>
    obtain ⟨hne, hx⟩ := h x List.mem_cons_self
    calc strip (x :: r) = strip [x] ++ strip r := strip_append [x] r
      _ = x :: r := by
        rw [strip_singleton hne hx, ih fun y hy => h y (List.mem_cons_of_mem x hy)]
        rfl

/-- A built-in renderer writes all firm destinations, and nothing that it writes is trimmed. -/
theorem Renderer.BuiltIn.exists_written {r : Renderer} (h : r.BuiltIn)
    {ps : List (Text × Direction)} (hps : ∀ p ∈ ps, p.1 ≠ [] ∧ Firm p.1) :
    ∃ ws, (ps.mapM fun p => r p.1 p.2) = .ok ws ∧ strip ws = ws ∧ ws.length = ps.length := by
  obtain ⟨v, hv⟩ := h.exists_qualifier
  have hr : ∀ x e, r x e = .ok (plainText ((Qualifier.of v).qualify x) e) :=
    fun x e => by rw [hv]; rfl
  refine ⟨ps.map fun p => plainText ((Qualifier.of v).qualify p.1) p.2, ?_, ?_, List.length_map ..⟩
  · simp only [hr]
    exact List.mapM_pure
  · refine strip_eq_self fun w hw => ?_
    obtain ⟨p, hp, rfl⟩ := List.mem_map.1 hw
    obtain ⟨hne, hfirm⟩ := hps p hp
    exact firm_of_builtIn h hne hfirm (hr p.1 p.2)

/-- Fragments of a built-in renderer are the destinations as they are written. -/
theorem Dictionary.fragments_of_builtIn {r : Renderer} {render : Text → Direction → Text}
    (h : r.BuiltIn) (hr : ∀ x d, r x d = .ok (render x d)) (d : Dictionary) (q : Request) :
    d.fragments render q = (d.destinations q.field).map fun x => render x q.direction := by
  refine strip_eq_self fun w hw => ?_
  obtain ⟨x, hx, rfl⟩ := List.mem_map.1 hw
  obtain ⟨hne, hfirm⟩ := firm_of_mem_destinations hx
  exact Renderer.firm_of_builtIn h hne hfirm (hr x q.direction)

end SortClause
