import SortClause.Text.Ranges
/-!
The characters that leave no mark where they are not supported, by the property
Default_Ignorable_Code_Point of Unicode 17.0: fillers, joiners, selectors, tags, and the places kept
for more of them.  Some, like the Hangul fillers, are letters by their category and still blank.
-/
namespace SortClause.Text

/-- The code points with the property Default_Ignorable_Code_Point. -/
def ignorable : Ranges :=
  [(0xAD, 0xAD), (0x34F, 0x34F), (0x61C, 0x61C), (0x115F, 0x1160), (0x17B4, 0x17B5),
   (0x180B, 0x180F), (0x200B, 0x200F), (0x202A, 0x202E), (0x2060, 0x206F), (0x3164, 0x3164),
   (0xFE00, 0xFE0F), (0xFEFF, 0xFEFF), (0xFFA0, 0xFFA0), (0xFFF0, 0xFFF8), (0x1BCA0, 0x1BCA3),
   (0x1D173, 0x1D17A), (0xE0000, 0xE0FFF)]

/-- The character shows nothing unless it is given a meaning. -/
def isIgnorable (c : Char) : Bool := ignorable.covers c.toNat

/-! ### The table -/

theorem ignorable_ascending : ignorable.ascendingFrom 0 = true := by decide

theorem isIgnorable_iff (c : Char) :
    isIgnorable c = true ↔ ∃ r ∈ ignorable, r.1 ≤ c.toNat ∧ c.toNat ≤ r.2 :=
  Ranges.covers_iff ignorable_ascending

end SortClause.Text
