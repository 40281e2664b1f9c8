import SortClause.Direction
/-!
What a sortable field stands for: the destinations to sort by, one after the other, and whether the
requested direction is turned round.  Destinations are kept trimmed and none is empty, which every
rule carries as a proof; `Rule.of` brings arbitrary texts into that form.  Main statement: a rule
is rebuilt from its own destinations (`of_destinations`).
-/
namespace SortClause

/-- The expansion of one sortable field. -/
structure Rule where
  reverse : Bool
  destinations : List Text
  /-- Destinations are not empty and have no blank ends. -/
  clean : ∀ d ∈ destinations, d ≠ [] ∧ d.trim = d
  deriving DecidableEq

namespace Rule

/-- The rule of the given destinations, trimmed, without those that are blank. -/
def of (reverse : Bool) (destinations : List Text) : Rule where
  reverse := reverse
  destinations := (destinations.map Text.trim).filter (· ≠ [])
  clean := by
    intro d h
    obtain ⟨h, hd⟩ := List.mem_filter.1 h
    obtain ⟨t, _, rfl⟩ := List.mem_map.1 h
    exact ⟨by simpa using hd, Text.trim_trim t⟩

/-- A rule without destinations makes its field unsortable. -/
def isEmpty (r : Rule) : Bool := r.destinations.isEmpty

/-- The direction to sort the destinations in when `d` is asked for. -/
def direction (r : Rule) (d : Direction) : Direction := if r.reverse then d.reversed else d

instance : Inhabited Rule := ⟨of false []⟩

@[ext]
theorem ext {r s : Rule} (hr : r.reverse = s.reverse) (hd : r.destinations = s.destinations) :
    r = s := by
  cases r
  cases s
  simp_all

/-- Rebuilding a rule from its own destinations gives it back. -/
theorem of_destinations (r : Rule) : of r.reverse r.destinations = r := by
  refine ext rfl ?_
  have hmap : r.destinations.map Text.trim = r.destinations := by
    conv => rhs; rw [← List.map_id r.destinations]
    exact List.map_congr_left fun d h => (r.clean d h).2
  simp only [of, hmap]
  exact List.filter_eq_self.2 fun d h => by simpa using (r.clean d h).1

end Rule
end SortClause
