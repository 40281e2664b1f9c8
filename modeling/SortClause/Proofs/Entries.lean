import SortClause.Dictionary
import Mathlib.Data.List.Induction
import Mathlib.Data.List.Nodup
import Mathlib.Data.List.Perm.Basic
/-!
Dictionaries seen through their look-ups.  There is one way to list given things in the order of
their keys (`eq_of_sorted`).  So the entries of a dictionary are the pairs that can be looked up
(`get?_eq_some_iff`), and there is one dictionary for given look-ups (`ext_get?`).  Main statement:
the order in which entries with different keys are inserted makes no difference (`ofList_of_perm`).
-/
namespace SortClause

/-! ### Lists in the order of keys -/

section
variable {α : Type} {f : α → Text} {xs ys : List α}

theorem Text.ne_of_precedes {x y : Text} (h : Text.precedes x y = true) : x ≠ y := by
  rintro rfl
  rw [Text.precedes_irrefl] at h
  cases h

theorem nodup_of_sorted (h : xs.Pairwise fun a b => Text.precedes (f a) (f b) = true) :
    xs.Nodup :=
  h.imp fun hab e => Text.ne_of_precedes hab (congrArg f e)

/-- Lists in the order of their keys are the same if they have the same members. -/
theorem eq_of_sorted (hx : xs.Pairwise fun a b => Text.precedes (f a) (f b) = true)
    (hy : ys.Pairwise fun a b => Text.precedes (f a) (f b) = true)
    (h : ∀ a, a ∈ xs ↔ a ∈ ys) : xs = ys := by
  have hperm : xs.Perm ys :=
    (List.perm_ext_iff_of_nodup (nodup_of_sorted hx) (nodup_of_sorted hy)).2 h
  -- Two members cannot both stand before each other, so sorting leaves one order for them.
  refine hperm.eq_of_pairwise (fun a b _ _ hab hba => ?_) hx hy
  exact absurd rfl (Text.ne_of_precedes (Text.precedes_trans hab hba))

end

namespace Dictionary

variable {d e : Dictionary} {k : Text} {r : Rule} {es : List (Text × Rule)}

/-- No key stands in two entries. -/
def DistinctKeys (es : List (Text × Rule)) : Prop := es.Pairwise fun a b => a.1 ≠ b.1

theorem distinctKeys (d : Dictionary) : DistinctKeys d.entries :=
  d.sorted.imp fun h => Text.ne_of_precedes h

theorem lookup_eq_some_iff (h : DistinctKeys es) : es.lookup k = some r ↔ (k, r) ∈ es := by
  induction es with
  | nil => simp
  | cons e es ih =>
    obtain ⟨k', r'⟩ := e
    obtain ⟨hk', hes⟩ := List.pairwise_cons.1 h
    rw [lookup_cons_eq, List.mem_cons, Prod.mk.injEq]
    split_ifs with hk
    · subst hk
      have hnot : (k, r) ∉ es := fun hm => hk' _ hm rfl
      simp [hnot, @eq_comm _ r]
    · simp [hk, ih hes]

theorem get?_eq_some_iff : d.get? k = some r ↔ (k, r) ∈ d.entries :=
  lookup_eq_some_iff d.distinctKeys

theorem mem_keys_iff : k ∈ d.keys ↔ ∃ r, d.get? k = some r := by
  simp [keys, get?_eq_some_iff]

/-- Dictionaries with the same look-ups are the same. -/
theorem ext_get? (h : ∀ k, d.get? k = e.get? k) : d = e := by
  have hmem : ∀ x, x ∈ d.entries ↔ x ∈ e.entries := fun x => by
    rw [← get?_eq_some_iff, ← get?_eq_some_iff, h]
  have hentries : d.entries = e.entries := eq_of_sorted d.sorted e.sorted hmem
  cases d
  cases e
  cases hentries
  rfl

theorem sorted_keys (d : Dictionary) :
    d.keys.Pairwise fun k l => Text.precedes k l = true :=
  List.pairwise_map.2 d.sorted

/-- Dictionaries with the same keys list them in the same order. -/
theorem keys_eq_of_mem_iff (h : ∀ k, k ∈ d.keys ↔ k ∈ e.keys) : d.keys = e.keys :=
  eq_of_sorted (f := id) d.sorted_keys e.sorted_keys h

/-! ### Sortable fields after a change -/

theorem sortable?_insert (f : Text) :
    (d.insert k r).sortable? f =
      if f = k then if r.isEmpty then none else some r else d.sortable? f := by
  rw [sortable?, get?_insert]
  split_ifs with hf hr
  · simp [hr]
  · simp [hr]
  · rfl

theorem sortable?_erase (f : Text) :
    (d.erase k).sortable? f = if f = k then none else d.sortable? f := by
  rw [sortable?, get?_erase]
  split_ifs <;> rfl

/-! ### Inserting entries one after another -/

theorem ofList_concat (es : List (Text × Rule)) (x : Text × Rule) :
    ofList (es ++ [x]) = (ofList es).insert x.1 x.2 := by
  simp [ofList]

/-- Of the rules inserted under a key the last one is found. -/
theorem get?_ofList (es : List (Text × Rule)) (k : Text) :
    (ofList es).get? k = es.reverse.lookup k := by
  induction es using List.reverseRecOn with
  | nil => rfl
  | append_singleton es x ih =>
    rw [ofList_concat, get?_insert, ih, List.reverse_concat, lookup_cons_eq]

theorem get?_ofList_eq_some_iff (h : DistinctKeys es) :
    (ofList es).get? k = some r ↔ (k, r) ∈ es := by
  have hreverse : DistinctKeys es.reverse :=
    List.pairwise_reverse.2 (h.imp fun hne => hne.symm)
  rw [get?_ofList, lookup_eq_some_iff hreverse, List.mem_reverse]

/-- The entries of a dictionary, inserted in any order, make the dictionary. -/
theorem ofList_of_perm (h : es.Perm d.entries) : ofList es = d := by
  have hes : DistinctKeys es := (h.pairwise_iff fun hne => hne.symm).2 d.distinctKeys
  refine ext_get? fun k => Option.ext fun r => ?_
  rw [get?_ofList_eq_some_iff hes, get?_eq_some_iff, h.mem_iff]

end Dictionary
end SortClause
