import SortClause.Text.Blank
/-!
The order of texts by code points, the first difference deciding and a shorter text standing
before its extensions.  It is also the order of their UTF-8 bytes.  Main statement: the order is
strict and total (`precedes_irrefl`, `precedes_trans`, `precedes_or_eq_or_precedes`).
-/
namespace SortClause.Text

/-- The first text stands strictly before the second. -/
def precedes : Text → Text → Bool
  | _, [] => false
  | [], _ :: _ => true
  | a :: x, b :: y => a.toNat < b.toNat || (a == b && precedes x y)

theorem precedes_irrefl : ∀ x : Text, precedes x x = false
  | [] => rfl
  | a :: x => by simp [precedes, precedes_irrefl x]

theorem precedes_trans : ∀ {x y z : Text},
    precedes x y = true → precedes y z = true → precedes x z = true
  | _, [], _, h, _ => by cases ‹Text› <;> simp [precedes] at h
  | _, _ :: _, [], _, h => by simp [precedes] at h
  | [], _ :: _, _ :: _, _, _ => rfl
  | a :: x, b :: y, c :: z, h, k => by
    simp only [precedes, Bool.or_eq_true, decide_eq_true_eq, Bool.and_eq_true, beq_iff_eq] at h k ⊢
    rcases h with h | ⟨rfl, h⟩ <;> rcases k with k | ⟨rfl, k⟩
    · exact .inl (Nat.lt_trans h k)
    · exact .inl h
    · exact .inl k
    · exact .inr ⟨rfl, precedes_trans h k⟩

theorem precedes_or_eq_or_precedes : ∀ x y : Text,
    precedes x y = true ∨ x = y ∨ precedes y x = true
  | [], [] => .inr (.inl rfl)
  | [], _ :: _ => .inl rfl
  | _ :: _, [] => .inr (.inr rfl)
  | a :: x, b :: y => by
    simp only [precedes, Bool.or_eq_true, decide_eq_true_eq, Bool.and_eq_true, beq_iff_eq,
      List.cons.injEq]
    rcases Nat.lt_trichotomy a.toNat b.toNat with h | h | h
    · exact .inl (.inl h)
    · have : a = b := Char.ext (UInt32.toNat_inj.1 h)
      subst this
      rcases precedes_or_eq_or_precedes x y with k | k | k <;> simp [k]
    · exact .inr (.inr (.inl h))

end SortClause.Text
