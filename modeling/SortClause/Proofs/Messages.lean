import SortClause.Event
import SortClause.Proofs.Cutting
/-!
What a message tells.  Between quotes no way of writing a character is the beginning of another one
(`Quoting.append_inj`), and none begins with a quote, so that a quoted text is read back from the
place where it begins (`quoted_append_inj`).  Main statement: an event is read back from its message
(`Event.message_inj`).
-/
namespace SortClause

/-! ### Hexadecimal digits -/

namespace Text

theorem digitChar_inj : ∀ m < 16, ∀ n < 16, Nat.digitChar m = Nat.digitChar n → m = n := by
  decide

theorem mem_toDigits {c : Char} (n : Nat) (h : c ∈ Nat.toDigits 16 n) :
    ∃ d < 16, c = d.digitChar := by
  induction n using Nat.strongRecOn with
  | ind n ih =>
    rw [Nat.toDigits_eq_if (by decide)] at h
    split_ifs at h with hn
    · exact ⟨n, hn, List.mem_singleton.1 h⟩
    · rcases List.mem_append.1 h with h | h
      · exact ih (n / 16) (by omega) h
      · exact ⟨n % 16, Nat.mod_lt n (by decide), List.mem_singleton.1 h⟩

theorem brace_not_mem_toDigits (n : Nat) : '\x7d' ∉ Nat.toDigits 16 n := fun h => by
  obtain ⟨d, hd, hbrace⟩ := mem_toDigits n h
  exact absurd hbrace ((by decide : ∀ d < 16, '\x7d' ≠ Nat.digitChar d) d hd)

/-- Different numbers have different digits. -/
theorem toDigits_inj {m n : Nat} (h : Nat.toDigits 16 m = Nat.toDigits 16 n) : m = n := by
  induction m using Nat.strongRecOn generalizing n with
  | ind m ih =>
    rw [Nat.toDigits_eq_if (by decide), Nat.toDigits_eq_if (n := n) (by decide)] at h
    split_ifs at h with hm16 hn16 hn16
    · exact digitChar_inj m hm16 n hn16 (List.singleton_inj.1 h)
    · have := congrArg List.length h
      simp at this
    · have := congrArg List.length h
      simp at this
    · obtain ⟨hfront, hlast⟩ := List.append_inj' h rfl
      have hdiv : m / 16 = n / 16 := ih (m / 16) (by omega) hfront
      have hmod : m % 16 = n % 16 := digitChar_inj _ (Nat.mod_lt m (by decide)) _
        (Nat.mod_lt n (by decide)) (List.singleton_inj.1 hlast)
      omega

/-! ### Quoted texts -/

/-- The characters with a letter of their own after the backslash. -/
def escapeLetters : List (Char × Char) :=
  [('"', '"'), ('\\', '\\'), ('\n', 'n'), ('\t', 't'), ('\r', 'r'), ('\x00', '0')]

/-- The ways of writing a character between quotes. -/
inductive Quoting : Char → Text → Prop
  | letter {c l : Char} (h : (c, l) ∈ escapeLetters) : Quoting c ['\\', l]
  | codePoint (c : Char) :
    Quoting c ('\\' :: 'u' :: '\x7b' :: (Nat.toDigits 16 c.toNat ++ ['\x7d']))
  | plain {c : Char} (hquote : c ≠ '"') (hslash : c ≠ '\\') : Quoting c [c]

theorem quoting_quoteChar (c : Char) : Quoting c (quoteChar c) := by
  unfold quoteChar
  split
  case h_7 hquote hslash _ _ _ _ =>
    split_ifs
    · exact .codePoint c
    · exact .plain hquote hslash
  all_goals exact .letter (by decide)

variable {c d : Char} {v w r s : Text}

/-- A letter after the backslash is the letter of one character, and none of them is `u`. -/
theorem escapeLetters_inj : (∀ p ∈ escapeLetters, ∀ q ∈ escapeLetters, p.2 = q.2 → p.1 = q.1) ∧
    ∀ p ∈ escapeLetters, p.2 ≠ 'u' := by
  decide

/-- Where a character has been written it is read back, and so is what follows it. -/
theorem Quoting.append_inj (hv : Quoting c v) (hw : Quoting d w) (h : v ++ r = w ++ s) :
    c = d ∧ r = s := by
  cases hv <;> cases hw <;>
    simp only [List.cons_append, List.nil_append, List.cons.injEq, true_and] at h
  case letter.letter hl _ hl' => exact ⟨escapeLetters_inj.1 _ hl _ hl' h.1, h.2⟩
  case letter.codePoint hl => exact absurd h.1 (escapeLetters_inj.2 _ hl)
  case letter.plain hslash => exact absurd h.1.symm hslash
  case codePoint.letter hl => exact absurd h.1.symm (escapeLetters_inj.2 _ hl)
  case codePoint.codePoint =>
    rw [List.append_assoc, List.append_assoc] at h
    obtain ⟨hdigits, hrest⟩ := append_cons_inj (brace_not_mem_toDigits c.toNat)
      (brace_not_mem_toDigits d.toNat) h
    exact ⟨Char.toNat_inj.1 (toDigits_inj hdigits), hrest⟩
  case codePoint.plain hslash => exact absurd h.1.symm hslash
  case plain.letter hslash _ _ => exact absurd h.1 hslash
  case plain.codePoint hslash => exact absurd h.1 hslash
  case plain.plain => exact h

/-- What is written for a character does not begin with a quote. -/
theorem Quoting.append_ne (h : Quoting c v) : v ++ r ≠ '"' :: s := by
  intro hquote
  cases h with
  | letter | codePoint => cases hquote
  | plain hc => exact hc (List.cons.inj hquote).1

/-- Up to the closing quote a text is read back, and so is what follows the quote. -/
theorem flatMap_quoteChar_append_inj {t u : Text}
    (h : t.flatMap quoteChar ++ '"' :: r = u.flatMap quoteChar ++ '"' :: s) : t = u ∧ r = s := by
  induction t generalizing u with
  | nil =>
    cases u with
    | nil => exact ⟨rfl, (List.cons.inj h).2⟩
    | cons d u =>
      rw [List.flatMap_cons, List.append_assoc] at h
      exact absurd h.symm (quoting_quoteChar d).append_ne
  | cons c t ih =>
    cases u with
    | nil =>
      rw [List.flatMap_cons, List.append_assoc] at h
      exact absurd h (quoting_quoteChar c).append_ne
    | cons d u =>
      rw [List.flatMap_cons, List.flatMap_cons, List.append_assoc, List.append_assoc] at h
      obtain ⟨rfl, hrest⟩ := (quoting_quoteChar c).append_inj (quoting_quoteChar d) h
      obtain ⟨rfl, hafter⟩ := ih hrest
      exact ⟨rfl, hafter⟩

/-- A quoted text is read back from where it begins, and so is what follows it. -/
theorem quoted_append_inj {t u : Text} (h : t.quoted ++ r = u.quoted ++ s) : t = u ∧ r = s := by
  refine flatMap_quoteChar_append_inj ?_
  simpa [quoted] using h

theorem quoted_inj {t u : Text} (h : t.quoted = u.quoted) : t = u :=
  (quoted_append_inj (congrArg (· ++ []) h)).1

theorem framed_inj {a b t u : Text} (h : a ++ t ++ b = a ++ u ++ b) : t = u :=
  List.append_cancel_left (List.append_cancel_right h)

theorem joined_inj {a b t u v w : Text}
    (h : a ++ t.quoted ++ b ++ v.quoted = a ++ u.quoted ++ b ++ w.quoted) : t = u ∧ v = w := by
  simp only [List.append_assoc, List.append_cancel_left_eq] at h
  obtain ⟨rfl, hrest⟩ := quoted_append_inj h
  exact ⟨rfl, quoted_inj (List.append_cancel_left hrest)⟩

end Text

/-! ### Messages of events -/

namespace Event

open Text

/-- The first character of a message, which tells the kind of the event. -/
def initial : Event → Char
  | skipped _ => 'S'
  | dropped _ => 'R'
  | expanded _ _ => 'T'
  | noDestinations _ => 'F'

theorem head?_message (e : Event) : e.message.head? = some e.initial := by
  cases e <;> rfl

/-- Events with one message are one event. -/
theorem message_inj {e e' : Event} (h : e.message = e'.message) : e = e' := by
  have hinitial : e.initial = e'.initial := by
    have hhead := congrArg List.head? h
    rw [head?_message, head?_message] at hhead
    exact Option.some.inj hhead
  cases e <;> cases e'
  case skipped.skipped f g => rw [quoted_inj (List.append_cancel_left h)]
  case dropped.dropped x y => rw [quoted_inj (framed_inj h)]
  case expanded.expanded s x t y =>
    obtain ⟨rfl, rfl⟩ := joined_inj h
    rfl
  case noDestinations.noDestinations k l => rw [framed_inj h]
  all_goals simp [initial] at hinitial

end Event
end SortClause
