import SortClause.Proofs.Lexemes
/-!
Reading arrays and objects, as relations.  `Elements` and `Members` say what is read from a place
between brackets on and where the rest begins, with one constructor for each step that the readers
take; the number of steps they are given only has to exceed what is read (`elements_eq_ok_iff`,
`foldMembers_eq_ok_iff`).  Main statements: a value that is read is a scalar, an array of elements
or an object of members (`value_cases`), and it is the same at every depth at which it can be read
(`value_agrees`).
-/
namespace SortClause.Json

variable {α β σ : Type} {first : Bool} {t rest : Text}

/-! ### Between brackets -/

/-- Where the next element starts: at once if it is the first, else behind a comma. -/
theorem nextElement_item {u : Text} (h : nextElement first t = .ok (.item u)) :
    (first = true ∧ skipSpace t = u ∧ ∃ c r, u = c :: r ∧ c ≠ ']') ∨
      (first = false ∧ ∃ r, skipSpace t = ',' :: r ∧ skipSpace r = u) := by
  unfold nextElement at h
  split at h
  · cases h
  · cases h
  · rename_i c r hclose hc
    cases first with
    | true =>
      obtain rfl : c :: r = u := by simpa using h
      exact .inl ⟨rfl, hc, c, r, rfl, hclose⟩
    | false =>
      simp only [Bool.false_eq_true, if_false] at h
      split_ifs at h with hcomma
      refine .inr ⟨rfl, r, hcomma ▸ hc, ?_⟩
      split at h
      · cases h
      · cases h
      · simpa using h

theorem nextElement_closed (h : nextElement first t = .ok (.closed rest)) :
    skipSpace t = ']' :: rest := by
  unfold nextElement at h
  split at h
  · cases h
  · rename_i r hc
    obtain rfl : r = rest := by simpa using h
    exact hc
  · split_ifs at h
    · cases h
    · split at h <;> cases h

/-- Where the name of the next member starts: at once if it is the first, else behind a comma. -/
theorem nextKey_item {key : Text} (h : nextKey first t = .ok (.item (key, rest))) :
    ∃ r, readString 0 r = .ok (key, rest) ∧
      ((first = true ∧ skipSpace t = '"' :: r) ∨
        (first = false ∧ ∃ r', skipSpace t = ',' :: r' ∧ skipSpace r' = '"' :: r)) := by
  have hread : ∀ {r : Text}, (readString 0 r).map Next.item = .ok (.item (key, rest)) →
      readString 0 r = .ok (key, rest) := by
    intro r h
    obtain ⟨p, hp, e⟩ := map_eq_ok_iff.1 h
    cases e
    exact hp
  unfold nextKey at h
  split at h
  · cases h
  · cases h
  · rename_i c r _ hc
    cases first with
    | true =>
      simp only [if_true] at h
      split_ifs at h with hquote
      exact ⟨r, hread h, .inl ⟨rfl, hquote ▸ hc⟩⟩
    | false =>
      simp only [Bool.false_eq_true, if_false] at h
      split_ifs at h with hcomma
      split at h
      · cases h
      · rename_i r' hr'
        exact ⟨r', hread h, .inr ⟨rfl, r, hcomma ▸ hc, hr'⟩⟩
      · cases h
      · cases h

theorem nextKey_closed (h : nextKey first t = .ok (.closed rest)) :
    skipSpace t = '\x7d' :: rest := by
  have hread : ∀ {r : Text}, (readString 0 r).map Next.item ≠ .ok (.closed rest) := by
    intro r h
    obtain ⟨p, -, e⟩ := map_eq_ok_iff.1 h
    cases e
  unfold nextKey at h
  split at h
  · cases h
  · rename_i r hc
    obtain rfl : r = rest := by simpa using h
    exact hc
  · split_ifs at h
    · exact absurd h hread
    · split at h
      · cases h
      · exact absurd h hread
      · cases h
      · cases h

theorem colon_eq_ok (h : colon t = .ok rest) : skipSpace t = ':' :: rest := by
  unfold colon at h
  split at h
  · cases h
  · rename_i r hc
    obtain rfl : r = rest := by simpa using h
    exact hc
  · cases h

theorem memberValue_eq_ok {item : Reader α} {p : α × Text} (h : memberValue item t = .ok p) :
    ∃ u, colon t = .ok u ∧ item u = .ok p := by
  rw [memberValue] at h
  cases hu : colon t with
  | error f => simp [hu] at h
  | ok u =>
    simp only [hu] at h
    exact ⟨u, rfl, h⟩

theorem memberValue_of_colon {item : Reader α} {u : Text} {p : α × Text}
    (hu : colon t = .ok u) (hitem : item u = .ok p) : memberValue item t = .ok p := by
  simp only [memberValue, hu, hitem]

theorem memberValue_mono {item : Reader α} {item' : Reader β} {p : α × Text} {q : β × Text}
    (himp : ∀ u, item u = .ok p → item' u = .ok q) (h : memberValue item t = .ok p) :
    memberValue item' t = .ok q := by
  obtain ⟨u, hu, hitem⟩ := memberValue_eq_ok h
  exact memberValue_of_colon hu (himp u hitem)

/-! ### Elements and members -/

/-- The elements from a place between brackets on, and the rest after the closing bracket. -/
inductive Elements (item : Reader α) : Bool → Text → List α → Text → Prop
  | closed {first : Bool} {t rest : Text} : nextElement first t = .ok (.closed rest) →
      Elements item first t [] rest
  | element {first : Bool} {t u r rest : Text} {x : α} {xs : List α} :
      nextElement first t = .ok (.item u) → item u = .ok (x, r) →
      Elements item false r xs rest → Elements item first t (x :: xs) rest

/-- The members from a place between braces on, and the rest after the closing brace. -/
inductive Members (item : Reader α) : Bool → Text → List (Text × α) → Text → Prop
  | closed {first : Bool} {t rest : Text} : nextKey first t = .ok (.closed rest) →
      Members item first t [] rest
  | member {first : Bool} {t key r u rest : Text} {x : α} {ms : List (Text × α)} :
      nextKey first t = .ok (.item (key, r)) → memberValue item r = .ok (x, u) →
      Members item false u ms rest → Members item first t ((key, x) :: ms) rest

theorem elements_eq_ok_iff {item : Reader α} {n : Nat} {xs : List α} :
    elements item n first t = .ok (xs, rest) ↔ xs.length < n ∧ Elements item first t xs rest := by
  constructor
  · intro h
    induction n generalizing first t xs with
    | zero => cases h
    | succ n ih =>
      rw [elements] at h
      cases hnext : nextElement first t with
      | error f => simp [hnext] at h
      | ok next =>
        cases next with
        | closed r =>
          simp only [hnext, Except.ok.injEq, Prod.mk.injEq] at h
          obtain ⟨rfl, rfl⟩ := h
          exact ⟨Nat.succ_pos n, .closed hnext⟩
        | item u =>
          simp only [hnext] at h
          cases hu : item u with
          | error f => simp [hu] at h
          | ok p =>
            simp only [hu] at h
            obtain ⟨⟨ys, r⟩, hys, e⟩ := map_eq_ok_iff.1 h
            cases e
            obtain ⟨hlen, helements⟩ := ih hys
            exact ⟨Nat.succ_lt_succ hlen, .element hnext hu helements⟩
  · rintro ⟨hlen, h⟩
    induction h generalizing n with
    | closed hnext =>
      obtain ⟨n, rfl⟩ := Nat.exists_eq_succ_of_ne_zero (Nat.ne_of_gt hlen)
      simp [elements, hnext]
    | element hnext hu _ ih =>
      obtain ⟨n, rfl⟩ := Nat.exists_eq_succ_of_ne_zero (Nat.ne_of_gt (Nat.zero_lt_of_lt hlen))
      simp [elements, hnext, hu, ih (Nat.lt_of_succ_lt_succ hlen), Except.map]

/-- A fold that takes in one member after the other is a fold of their list. -/
theorem foldMembers_eq_ok_iff {item : Reader α} {member : σ → Text → Reader σ}
    (f : σ → Text → α → σ)
    (hmember : ∀ s key t,
      member s key t = (memberValue item t).map fun p => (f s key p.1, p.2))
    {n : Nat} {s s' : σ} :
    foldMembers member n first s t = .ok (s', rest) ↔
      ∃ ms, ms.length < n ∧ Members item first t ms rest ∧
        ms.foldl (fun s m => f s m.1 m.2) s = s' := by
  constructor
  · intro h
    induction n generalizing first t s with
    | zero => cases h
    | succ n ih =>
      rw [foldMembers] at h
      cases hnext : nextKey first t with
      | error f => simp [hnext] at h
      | ok next =>
        rcases next with ⟨key, r⟩ | r
        · simp only [hnext, hmember] at h
          cases hr : memberValue item r with
          | error f => simp [hr, Except.map] at h
          | ok p =>
            simp only [hr, Except.map] at h
            obtain ⟨ms, hlen, hms, hfold⟩ := ih h
            exact ⟨(key, p.1) :: ms, Nat.succ_lt_succ hlen, .member hnext hr hms, hfold⟩
        · simp only [hnext, Except.ok.injEq, Prod.mk.injEq] at h
          obtain ⟨rfl, rfl⟩ := h
          exact ⟨[], Nat.succ_pos n, .closed hnext, rfl⟩
  · rintro ⟨ms, hlen, h, hfold⟩
    induction h generalizing n s with
    | closed hnext =>
      obtain ⟨n, rfl⟩ := Nat.exists_eq_succ_of_ne_zero (Nat.ne_of_gt hlen)
      simp only [List.foldl_nil] at hfold
      simp [foldMembers, hnext, hfold]
    | member hnext hr _ ih =>
      obtain ⟨n, rfl⟩ := Nat.exists_eq_succ_of_ne_zero (Nat.ne_of_gt (Nat.zero_lt_of_lt hlen))
      simp only [foldMembers, hnext, hmember, hr, Except.map]
      exact ih (Nat.lt_of_succ_lt_succ hlen) hfold

theorem Elements.mono {item item' : Reader α} (himp : ∀ u p, item u = .ok p → item' u = .ok p)
    {xs : List α} (h : Elements item first t xs rest) : Elements item' first t xs rest := by
  induction h with
  | closed hnext => exact .closed hnext
  | element hnext hu _ ih => exact .element hnext (himp _ _ hu) ih

theorem Members.mono {item item' : Reader α} (himp : ∀ u p, item u = .ok p → item' u = .ok p)
    {ms : List (Text × α)} (h : Members item first t ms rest) :
    Members item' first t ms rest := by
  induction h with
  | closed hnext => exact .closed hnext
  | member hnext hr _ ih => exact .member hnext (memberValue_mono (fun u => himp u _) hr) ih

/-! ### Values -/

theorem value_of_scalar {p : Json × Text} (h : scalar (skipSpace t) = .ok p) (n : Nat) :
    value n t = .ok p := by
  cases n <;> unfold value <;> split
  all_goals
    first
    | exact h
    | rename_i e; rw [e] at h; cases h

theorem value_array {n : Nat} {r : Text} {xs : List Json} (hr : skipSpace t = '[' :: r)
    (hlen : xs.length ≤ r.length) (h : Elements (value n) true r xs rest) :
    value (n + 1) t = .ok (.array xs, rest) := by
  simp only [value, hr, elements_eq_ok_iff.2 ⟨Nat.lt_succ_of_le hlen, h⟩]
  rfl

theorem members_pushMember_iff {n : Nat} {ms : List (Text × Json)} :
    members (pushMember (value n)) [] t = .ok (ms, rest) ↔
      ms.length ≤ t.length ∧ Members (value n) true t ms.reverse rest := by
  have hfold : ∀ l : List (Text × Json), l.foldl (fun ms m => (m.1, m.2) :: ms) [] = l.reverse :=
    fun l => by simp
  have hpush : ∀ ms key t, pushMember (value n) ms key t =
      (memberValue (value n) t).map fun p => ((key, p.1) :: ms, p.2) := fun _ _ _ => rfl
  rw [members, foldMembers_eq_ok_iff (fun ms key x => (key, x) :: ms) hpush]
  simp only [hfold]
  constructor
  · rintro ⟨l, hlen, h, rfl⟩
    rw [List.length_reverse, List.reverse_reverse]
    exact ⟨Nat.le_of_lt_succ hlen, h⟩
  · rintro ⟨hlen, h⟩
    refine ⟨ms.reverse, ?_, h, List.reverse_reverse ms⟩
    rw [List.length_reverse]
    exact Nat.lt_succ_of_le hlen

theorem value_object {n : Nat} {r : Text} {ms : List (Text × Json)}
    (hr : skipSpace t = '\x7b' :: r) (hlen : ms.length ≤ r.length)
    (h : Members (value n) true r ms rest) : value (n + 1) t = .ok (.object ms, rest) := by
  have hmembers : members (pushMember (value n)) [] r = .ok (ms.reverse, rest) :=
    members_pushMember_iff.2 (by simpa using ⟨hlen, h⟩)
  simp only [value, hr, hmembers, Except.map, List.reverse_reverse]

/-- What a value that is read consists of. -/
theorem value_cases {n : Nat} {x : Json} (h : value n t = .ok (x, rest)) :
    scalar (skipSpace t) = .ok (x, rest) ∨ ∃ m r, n = m + 1 ∧
      ((∃ xs, x = .array xs ∧ skipSpace t = '[' :: r ∧ xs.length ≤ r.length ∧
          Elements (value m) true r xs rest) ∨
        ∃ ms, x = .object ms ∧ skipSpace t = '\x7b' :: r ∧ ms.length ≤ r.length ∧
          Members (value m) true r ms rest) := by
  cases n with
  | zero =>
    unfold value at h
    split at h
    · cases h
    · cases h
    · exact .inl h
  | succ n =>
    unfold value at h
    split at h
    · rename_i r hr
      obtain ⟨⟨xs, rest'⟩, hxs, e⟩ := map_eq_ok_iff.1 h
      cases e
      obtain ⟨hlen, helements⟩ := elements_eq_ok_iff.1 hxs
      exact .inr ⟨n, r, rfl, .inl ⟨xs, rfl, hr, Nat.le_of_lt_succ hlen, helements⟩⟩
    · rename_i r hr
      obtain ⟨⟨ms, rest'⟩, hms, e⟩ := map_eq_ok_iff.1 h
      cases e
      obtain ⟨hlen, hmembers⟩ := members_pushMember_iff.1 hms
      rw [← List.length_reverse] at hlen
      exact .inr ⟨n, r, rfl, .inr ⟨_, rfl, hr, hlen, hmembers⟩⟩
    · exact .inl h

/-- What a scalar is read as has no brackets. -/
theorem scalar_bare {x : Json} (h : scalar t = .ok (x, rest)) :
    (∀ xs, x ≠ .array xs) ∧ ∀ ms, x ≠ .object ms := by
  have hmap : ∀ {β : Type} {e : Except Fault β} {f : β → Json × Text},
      (∀ y, (∀ xs, (f y).1 ≠ .array xs) ∧ ∀ ms, (f y).1 ≠ .object ms) → e.map f = .ok (x, rest) →
        (∀ xs, x ≠ .array xs) ∧ ∀ ms, x ≠ .object ms := by
    intro β e f hf h
    obtain ⟨y, -, e⟩ := map_eq_ok_iff.1 h
    simpa [e] using hf y
  unfold scalar at h
  split at h
  · cases h
  · exact hmap (by simp) h
  · exact hmap (by simp) h
  · exact hmap (by simp) h
  · exact hmap (by simp) h
  · split_ifs at h
    exact hmap (by simp) h

theorem elements_of_value {n : Nat} {xs : List Json} (h : value n t = .ok (.array xs, rest)) :
    ∃ m r, n = m + 1 ∧ skipSpace t = '[' :: r ∧ xs.length ≤ r.length ∧
      Elements (value m) true r xs rest := by
  rcases value_cases h with h | ⟨m, r, hn, ⟨_, e, h⟩ | ⟨_, e, -⟩⟩
  · exact absurd rfl ((scalar_bare h).1 xs)
  · cases e
    exact ⟨m, r, hn, h⟩
  · cases e

theorem members_of_value {n : Nat} {ms : List (Text × Json)}
    (h : value n t = .ok (.object ms, rest)) :
    ∃ m r, n = m + 1 ∧ skipSpace t = '\x7b' :: r ∧ ms.length ≤ r.length ∧
      Members (value m) true r ms rest := by
  rcases value_cases h with h | ⟨m, r, hn, ⟨_, e, -⟩ | ⟨_, e, h⟩⟩
  · exact absurd rfl ((scalar_bare h).2 ms)
  · cases e
  · cases e
    exact ⟨m, r, hn, h⟩

/-- A value that can be read when so many brackets may be open can be read when more may be. -/
theorem value_succ {n : Nat} {p : Json × Text} (h : value n t = .ok p) :
    value (n + 1) t = .ok p := by
  induction n generalizing t p with
  | zero =>
    rcases value_cases h with h | ⟨m, r, e, -⟩
    · exact value_of_scalar h 1
    · cases e
  | succ n ih =>
    obtain ⟨x, rest⟩ := p
    rcases value_cases h with h | ⟨m, r, e, h | h⟩
    · exact value_of_scalar h _
    · cases e
      obtain ⟨xs, rfl, hr, hlen, helements⟩ := h
      exact value_array hr hlen (helements.mono fun u p => ih)
    · cases e
      obtain ⟨ms, rfl, hr, hlen, hmembers⟩ := h
      exact value_object hr hlen (hmembers.mono fun u p => ih)

/-- Where values are read at two depths, they are the same. -/
theorem value_agrees {n m : Nat} {p q : Json × Text} (hp : value n t = .ok p)
    (hq : value m t = .ok q) : p = q := by
  have hmono : ∀ {n k : Nat} {p : Json × Text}, value n t = .ok p → value (n + k) t = .ok p := by
    intro n k p h
    induction k with
    | zero => exact h
    | succ k ih => exact value_succ ih
  have h := (hmono (k := m) hp).symm.trans (Nat.add_comm m n ▸ hmono (k := n) hq)
  exact Except.ok.inj h

end SortClause.Json
