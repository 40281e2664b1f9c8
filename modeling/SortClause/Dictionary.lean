import SortClause.Rule
import SortClause.Text.Order
/-!
The sortable fields and their rules.  A dictionary holds at most one rule for a key and lists its
entries in the order of the keys, so two dictionaries with the same rules are equal.  Keys are
compared as they stand.  Main statements: `get?` after `insert` and after `erase`.
-/
namespace SortClause

/-- Rules by key, in the order of the keys. -/
structure Dictionary where
  entries : List (Text × Rule)
  /-- Keys strictly increase. -/
  sorted : entries.Pairwise fun a b => Text.precedes a.1 b.1 = true
  deriving DecidableEq

namespace Dictionary

/-- The entries with `rule` under `key`, before the first greater key. -/
def insertEntry (key : Text) (rule : Rule) : List (Text × Rule) → List (Text × Rule)
  | [] => [(key, rule)]
  | (k, r) :: es =>
    if key = k then (key, rule) :: es
    else if Text.precedes key k then (key, rule) :: (k, r) :: es
    else (k, r) :: insertEntry key rule es

theorem mem_insertEntry {key : Text} {rule : Rule} {e : Text × Rule} :
    ∀ {es : List (Text × Rule)}, e ∈ insertEntry key rule es → e = (key, rule) ∨ e ∈ es
  | [], h => by simpa [insertEntry] using h
  | (k, r) :: es, h => by
    rw [insertEntry] at h
    split at h
    · rcases List.mem_cons.1 h with h | h
      · exact .inl h
      · exact .inr (List.mem_cons_of_mem _ h)
    · split at h
      · simpa using h
      · rcases List.mem_cons.1 h with h | h
        · exact .inr (h ▸ List.mem_cons_self)
        · exact (mem_insertEntry h).imp id (List.mem_cons_of_mem _)

theorem sorted_insertEntry (key : Text) (rule : Rule) : ∀ es : List (Text × Rule),
    es.Pairwise (fun a b => Text.precedes a.1 b.1 = true) →
      (insertEntry key rule es).Pairwise fun a b => Text.precedes a.1 b.1 = true
  | [], _ => by simp [insertEntry]
  | (k, r) :: es, h => by
    obtain ⟨hk, hes⟩ := List.pairwise_cons.1 h
    rw [insertEntry]
    split
    · rename_i e
      subst e
      exact List.pairwise_cons.2 ⟨hk, hes⟩
    · split
      · rename_i hp
        refine List.pairwise_cons.2 ⟨fun e he => ?_, h⟩
        rcases List.mem_cons.1 he with rfl | he
        · exact hp
        · exact Text.precedes_trans hp (hk e he)
      · rename_i hne hp
        refine List.pairwise_cons.2 ⟨fun e he => ?_, sorted_insertEntry key rule es hes⟩
        rcases mem_insertEntry he with rfl | he
        · rcases Text.precedes_or_eq_or_precedes key k with h | h | h
          · exact absurd h hp
          · exact absurd h hne
          · exact h
        · exact hk e he

/-- The dictionary without entries. -/
def empty : Dictionary := ⟨[], .nil⟩

instance : Inhabited Dictionary := ⟨empty⟩

/-- The rule stored under `key`. -/
def get? (d : Dictionary) (key : Text) : Option Rule := d.entries.lookup key

/-- The dictionary with `rule` under `key`, in place of an earlier rule of that key. -/
def insert (d : Dictionary) (key : Text) (rule : Rule) : Dictionary :=
  ⟨insertEntry key rule d.entries, sorted_insertEntry key rule _ d.sorted⟩

/-- The dictionary without `key`. -/
def erase (d : Dictionary) (key : Text) : Dictionary :=
  ⟨d.entries.filter (·.1 ≠ key), d.sorted.filter _⟩

/-- The entries inserted from the first to the last, so that of equal keys the last one stays. -/
def ofList (entries : List (Text × Rule)) : Dictionary :=
  entries.foldl (fun d e => d.insert e.1 e.2) empty

def keys (d : Dictionary) : List Text := d.entries.map (·.1)

def size (d : Dictionary) : Nat := d.entries.length

def isEmpty (d : Dictionary) : Bool := d.entries.isEmpty

/-- The rule that makes `field` sortable: stored under it and not empty. -/
def sortable? (d : Dictionary) (field : Text) : Option Rule :=
  (d.get? field).filter fun r => !r.isEmpty

/-! ### Looking up after a change -/

theorem lookup_cons_eq (k k' : Text) (r : Rule) (es : List (Text × Rule)) :
    ((k', r) :: es).lookup k = if k = k' then some r else es.lookup k := by
  by_cases h : k = k'
  · simp [h]
  · simp [List.lookup_cons, beq_false_of_ne h, h]

theorem lookup_insertEntry (key k : Text) (rule : Rule) : ∀ es : List (Text × Rule),
    (insertEntry key rule es).lookup k = if k = key then some rule else es.lookup k
  | [] => by simp [insertEntry, lookup_cons_eq]
  | (k', r) :: es => by
    rw [insertEntry]
    split
    · rename_i hk
      subst hk
      by_cases h : k = key <;> simp [lookup_cons_eq, h]
    · split
      · rw [lookup_cons_eq]
      · rw [lookup_cons_eq, lookup_cons_eq, lookup_insertEntry key k rule es]
        by_cases h : k = key <;> by_cases h' : k = k' <;> simp_all

theorem get?_insert (d : Dictionary) (key k : Text) (rule : Rule) :
    (d.insert key rule).get? k = if k = key then some rule else d.get? k :=
  lookup_insertEntry key k rule d.entries

theorem lookup_filter_ne (key k : Text) : ∀ es : List (Text × Rule),
    (es.filter (·.1 ≠ key)).lookup k = if k = key then none else es.lookup k
  | [] => by simp
  | (k', r) :: es => by
    rw [List.filter_cons, lookup_cons_eq]
    split
    · rw [lookup_cons_eq, lookup_filter_ne key k es]
      by_cases h : k = key <;> by_cases h' : k = k' <;> simp_all
    · rw [lookup_filter_ne key k es]
      by_cases h : k = key <;> by_cases h' : k = k' <;> simp_all

theorem get?_erase (d : Dictionary) (key k : Text) :
    (d.erase key).get? k = if k = key then none else d.get? k :=
  lookup_filter_ne key k d.entries

end Dictionary
end SortClause
