import SortClause.Proofs.Entries
import SortClause.Proofs.Requests
import SortClause.Proofs.Whitelist
/-!
Keys of settings and the requests that reach them.  A key that passes the check can be asked for,
ascending always and descending unless the separator ends with the space after it
(`requests_of_valid_key`).  A key that is refused because it is empty or has the separator in it
cannot be asked for, so leaving it out changes nothing; one that is refused for a blank can be asked
for if it can be named, and leaving it out then changes clauses (`requests_of_refused_key`).
-/
namespace SortClause

open Text

/-! ### A dictionary without one of its keys -/

namespace Dictionary

variable {d : Dictionary} {k : Text}

theorem admit?_erase {q : Request} (h : q.field = k → d.sortable? k = none) :
    (d.erase k).admit? q = d.admit? q := by
  rw [admit?, admit?, sortable?_erase]
  split_ifs with hq
  · rw [hq, h hq]
  · rfl

theorem fragments_erase (render : Text → Direction → Text) {q : Request} (h : q.field ≠ k) :
    (d.erase k).fragments render q = d.fragments render q := by
  simp only [fragments, destinations, get?_erase, if_neg h]

end Dictionary

namespace Settings

variable {s : Settings} {k : Text}

/-- The directive asks for `q`: one of its candidates is read so. -/
def Requests (s : Settings) (directive : Text) (q : Request) : Prop :=
  ∃ x ∈ candidates s.config.sourceSeparator directive, s.config.parse x = .ok q

/-! ### Requests and clauses under settings -/

theorem requests_iff {t : Text} {q : Request} :
    s.Requests t q ↔ ∃ x ∈ candidates s.sourceSeparator t, Request.ofCandidate x = q := by
  simp only [Requests, sourceSeparator_config, parse_config, Request.standardParser,
    Except.ok.injEq]

/-- A candidate is a directive of its own. -/
theorem requests_candidate {x : Text} (hx : IsCandidate s.sourceSeparator x) :
    s.Requests x (Request.ofCandidate x) := by
  rw [requests_iff, hx.candidates_eq]
  exact ⟨x, List.mem_singleton_self x, rfl⟩

theorem exists_requests_iff {q : Request} : (∃ t, s.Requests t q) ↔
    ∃ x, IsCandidate s.sourceSeparator x ∧ Request.ofCandidate x = q := by
  simp only [requests_iff]
  exact exists_mem_candidates_iff

/-- The keys that can be asked for are the fields that can be named. -/
theorem exists_requests_field_iff :
    (∃ t d, s.Requests t ⟨k, d⟩) ↔ Nameable s.sourceSeparator k := by
  rw [← nameable_iff, exists_comm]
  simp only [exists_requests_iff]
  constructor
  · rintro ⟨d, x, hx, hq⟩
    exact ⟨x, hx, by rw [hq]⟩
  · rintro ⟨x, hx, rfl⟩
    exact ⟨_, x, hx, rfl⟩

theorem builtIn_render_config (s : Settings) : s.config.render.BuiltIn := by
  rw [render_config, renderer?]
  cases s.qualifier.filter fun v => v.trim ≠ [] with
  | none => exact .inl rfl
  | some v => exact .inr ⟨v, rfl⟩

/-- Under settings every directive has the clause of what it picks. -/
theorem exists_expand_eq (s : Settings) : ∃ render : Text → Direction → Text,
    (∀ x d, s.config.render x d = .ok (render x d)) ∧
    ∀ d t, s.config.expand (some d) t = .ok (join s.targetSeparator
      ((s.config.selection Request.ofCandidate d t).flatMap (d.fragments render))) := by
  obtain ⟨v, hv⟩ := s.builtIn_render_config.exists_qualifier
  have hr : ∀ x d, s.config.render x d =
      .ok (Renderer.plainText ((Qualifier.of v).qualify x) d) := fun x d => by rw [hv]; rfl
  have hp : ∀ x, s.config.parse x = .ok (Request.ofCandidate x) := fun x => by
    rw [parse_config]; rfl
  refine ⟨_, hr, fun d t => ?_⟩
  rw [Config.expand_eq_join hp hr, targetSeparator_config]
  rfl

theorem selection_candidate {x : Text} (hx : IsCandidate s.sourceSeparator x) (d : Dictionary) :
    s.config.selection Request.ofCandidate d x = (d.admit? (Request.ofCandidate x)).toList := by
  rw [Config.selection, sourceSeparator_config, hx.candidates_eq]
  cases h : d.admit? (Request.ofCandidate x) <;> simp [h]

/-- What stands for a key in its own candidate: all its destinations. -/
theorem expand_candidate {x : Text} {d : Direction} {r : Rule}
    (hx : IsCandidate s.sourceSeparator x) (hq : Request.ofCandidate x = ⟨k, d⟩)
    (hr : s.fields.get? k = some r) (hne : r.isEmpty = false) : ∃ ts,
      (r.destinations.mapM fun y => s.config.render y (r.direction d)) = .ok ts ∧
      s.config.expand (some s.fields) x = .ok (join s.targetSeparator ts) ∧
      join s.targetSeparator ts ≠ [] := by
  obtain ⟨render, hrender, hexpand⟩ := s.exists_expand_eq
  have hadmit : s.fields.admit? ⟨k, d⟩ = some ⟨k, r.direction d⟩ :=
    Dictionary.admit?_eq_some.2 ⟨r, hr, hne, rfl⟩
  have hdest : s.fields.destinations k = r.destinations := Dictionary.destinations_of_get? hr
  have hfragments : (s.config.selection Request.ofCandidate s.fields x).flatMap
      (s.fields.fragments render) = r.destinations.map fun y => render y (r.direction d) := by
    rw [selection_candidate hx, hq, hadmit, Option.toList_some, List.flatMap_singleton,
      Dictionary.fragments_of_builtIn s.builtIn_render_config hrender, hdest]
  refine ⟨r.destinations.map fun y => render y (r.direction d), ?_, ?_, ?_⟩
  · simp only [hrender]
    exact List.mapM_pure
  · rw [hexpand, hfragments]
  · rw [← hfragments]
    refine mt (Dictionary.join_fragments_eq_nil_iff s.builtIn_render_config hrender _ _ _).1 ?_
    rw [hfragments]
    simpa [Rule.isEmpty] using hne

/-! ### The check of a key -/

theorem keyProblem?_eq_none_iff {σ : Text} : keyProblem? σ k = none ↔
    k ≠ [] ∧ k.hasBlank = false ∧ ¬(σ ≠ [] ∧ σ <:+: k) := by
  simp only [keyProblem?, contains_iff]
  split_ifs with hnil hblank hsep
  · simp [hnil]
  · simp [hblank]
  · exact ⟨False.elim, fun h => h.2.2 hsep⟩
  · exact ⟨fun _ => ⟨hnil, Bool.not_eq_true _ ▸ hblank, hsep⟩, fun _ => rfl⟩

theorem keyProblem?_eq_some_iff {σ : Text} {p : Problem} : keyProblem? σ k = some p ↔
    k = [] ∧ p = .emptyKey ∨ k ≠ [] ∧ k.hasBlank = true ∧ p = .blankInKey k ∨
      k ≠ [] ∧ k.hasBlank = false ∧ (σ ≠ [] ∧ σ <:+: k) ∧ p = .separatorInKey k σ := by
  simp only [keyProblem?, contains_iff]
  split_ifs with hnil hblank hsep
  · simp [hnil, @eq_comm _ _ p]
  · simp [hnil, hblank, @eq_comm _ _ p]
  · simp [hnil, hblank, hsep, @eq_comm _ _ p]
  · simp [hnil, hblank, hsep]

theorem keyProblem?_of_isValid (hs : s.isValid = true) (hk : k ∈ s.fields.keys) :
    keyProblem? s.sourceSeparator k = none := by
  have hnil : s.problems = [] := List.isEmpty_iff.1 hs
  obtain ⟨hkeys, -⟩ := List.append_eq_nil_iff.1 hnil
  exact List.filterMap_eq_nil_iff.1 hkeys k hk

/-- A problem that has a key is what the check of that key reports. -/
theorem keyProblem?_of_mem_problems {p : Problem} (hp : p ∈ s.problems) (hk : p.key = some k) :
    keyProblem? s.sourceSeparator k = some p := by
  rcases List.mem_append.1 hp with hkey | hvar
  · obtain ⟨k', -, hk'⟩ := List.mem_filterMap.1 hkey
    have hkey' : p.key = some k' := by
      rcases keyProblem?_eq_some_iff.1 hk' with ⟨rfl, rfl⟩ | ⟨-, -, rfl⟩ | ⟨-, -, -, rfl⟩ <;> rfl
    obtain rfl : k' = k := Option.some.inj (hkey'.symm.trans hk)
    exact hk'
  · rw [Option.mem_toList, qualifierProblem?, Option.ite_none_right_eq_some] at hvar
    obtain ⟨-, hp⟩ := hvar
    obtain rfl := Option.some.inj hp
    cases hk

/-! ### Keys that pass -/

/-- A request for descending has a space after its field. -/
theorem exists_requests_desc_iff (hσ : s.sourceSeparator ≠ []) (hne : k ≠ [])
    (hblank : k.hasBlank = false) (huncut : ¬s.sourceSeparator <:+: k) :
    (∃ t, s.Requests t ⟨k, .desc⟩) ↔ ¬s.sourceSeparator <:+ k ++ [' '] := by
  rw [exists_requests_iff]
  constructor
  · rintro ⟨x, hx, hq⟩
    obtain ⟨-, ⟨-, hd⟩ | ⟨r, rfl, -⟩⟩ := Request.ofCandidate_eq_iff.1 hq
    · cases hd
    · exact hx.not_suffix_space
  · have hstart := (firm_of_not_hasBlank hblank).1
    exact exists_isCandidate_desc hσ hne hstart (space_not_mem hblank) huncut

theorem length_of_requests_of_eq_nil {d : Direction} (hσ : s.sourceSeparator = []) {t : Text}
    (h : s.Requests t ⟨k, d⟩) : k.length = 1 ∧ d = .asc := by
  obtain ⟨x, hx, hq⟩ := requests_iff.1 h
  have hcand := isCandidate_of_mem hx
  have hlen := hcand.uncut
  rw [if_pos hσ] at hlen
  obtain ⟨-, ⟨rfl, hd⟩ | ⟨r, rfl, -⟩⟩ := Request.ofCandidate_eq_iff.1 hq
  · exact ⟨hlen, hd⟩
  · have hpos := List.length_pos_iff.2 hcand.field_ne_nil
    simp only [List.length_append, List.length_cons] at hlen
    omega

/-- Under settings that pass, each key can be asked for ascending, and descending unless the
separator ends with the space after the key; when nothing separates candidates, only keys of a
single character can be asked for, and only ascending.  What can be asked for can be had with
nothing else: the clause is then all destinations of the key, in the direction that its rule gives
them. -/
theorem requests_of_valid_key (hs : s.isValid = true) (hk : k ∈ s.fields.keys) :
    (s.sourceSeparator ≠ [] → (∃ t, s.Requests t ⟨k, .asc⟩) ∧
      ((∃ t, s.Requests t ⟨k, .desc⟩) ↔ ¬s.sourceSeparator <:+ k ++ [' '])) ∧
    (s.sourceSeparator = [] → ((∃ t, s.Requests t ⟨k, .asc⟩) ↔ k.length = 1) ∧
      ¬∃ t, s.Requests t ⟨k, .desc⟩) ∧
    ∀ r d, s.fields.get? k = some r → r.isEmpty = false → (∃ t, s.Requests t ⟨k, d⟩) →
      ∃ t ts, s.Requests t ⟨k, d⟩ ∧
        (r.destinations.mapM fun x => s.config.render x (r.direction d)) = .ok ts ∧
        s.config.expand (some s.fields) t = .ok (join s.targetSeparator ts) := by
  obtain ⟨hne, hblank, huncut⟩ := keyProblem?_eq_none_iff.1 (keyProblem?_of_isValid hs hk)
  have hspace := space_not_mem hblank
  have hasc : (if s.sourceSeparator = [] then k.length = 1 else ¬s.sourceSeparator <:+: k) →
      ∃ t, s.Requests t ⟨k, .asc⟩ := fun h =>
    exists_requests_iff.2 ⟨k, isCandidate_field hne (firm_of_not_hasBlank hblank) hspace h⟩
  refine ⟨fun hσ => ?_, fun hσ => ?_, fun r d hr hfull hreq => ?_⟩
  · have hin : ¬s.sourceSeparator <:+: k := fun h => huncut ⟨hσ, h⟩
    exact ⟨hasc (by rwa [if_neg hσ]), exists_requests_desc_iff hσ hne hblank hin⟩
  · refine ⟨⟨?_, fun hlen => hasc (by rwa [if_pos hσ])⟩, ?_⟩
    · rintro ⟨t, ht⟩
      exact (length_of_requests_of_eq_nil hσ ht).1
    · rintro ⟨t, ht⟩
      cases (length_of_requests_of_eq_nil hσ ht).2
  · obtain ⟨x, hx, hq⟩ := exists_requests_iff.1 hreq
    obtain ⟨ts, hts, hexpand, -⟩ := expand_candidate hx hq hr hfull
    exact ⟨x, ts, hq ▸ requests_candidate hx, hts, hexpand⟩

/-- A short key and a longer one, in directives that are cut at `σ`. -/
def cutAt (σ : Text) : Settings where
  sourceSeparator := σ
  fields := .ofList [(['a'], .of true [['x'], ['y']]), (['a', 'b'], .of false [['z']])]

theorem requests_of_valid_key_cutAt :
    ((cutAt ['c']).isValid = true ∧ (∃ t, (cutAt ['c']).Requests t ⟨['a', 'b'], .desc⟩) ∧
      ∃ t, (cutAt ['c']).Requests t ⟨['a'], .asc⟩ ∧
        (cutAt ['c']).config.expand (some (cutAt ['c']).fields) t = .ok "x DESC, y DESC".toList) ∧
    ((cutAt ['b', ' ']).isValid = true ∧
      ¬∃ t, (cutAt ['b', ' ']).Requests t ⟨['a', 'b'], .desc⟩) ∧
    ((cutAt []).isValid = true ∧ (∃ t, (cutAt []).Requests t ⟨['a'], .asc⟩) ∧
      ¬∃ t, (cutAt []).Requests t ⟨['a', 'b'], .asc⟩) := by
  refine ⟨⟨by decide, ?_, ?_⟩, ⟨by decide, ?_⟩, by decide, ?_, ?_⟩
  · have law := @requests_of_valid_key (cutAt ['c']) ['a', 'b'] (by decide) (by decide)
    exact (law.1 (by decide)).2.2 (by decide)
  · have law := @requests_of_valid_key (cutAt ['c']) ['a'] (by decide) (by decide)
    obtain ⟨t, ts, ht, hts, hexpand⟩ :=
      law.2.2 (.of true [['x'], ['y']]) .asc (by decide) (by decide) (law.1 (by decide)).1
    obtain rfl : ["x DESC".toList, "y DESC".toList] = ts := Except.ok.inj (by rw [← hts]; rfl)
    exact ⟨t, ht, hexpand.trans (by decide)⟩
  · have law := @requests_of_valid_key (cutAt ['b', ' ']) ['a', 'b'] (by decide) (by decide)
    exact mt (law.1 (by decide)).2.1 (by decide)
  · have law := @requests_of_valid_key (cutAt []) ['a'] (by decide) (by decide)
    exact (law.2.1 rfl).1.2 rfl
  · have law := @requests_of_valid_key (cutAt []) ['a', 'b'] (by decide) (by decide)
    exact mt (law.2.1 rfl).1.1 (by decide)

/-! ### Keys that are refused -/

theorem nameable_iff_of_keyProblem? {p : Problem}
    (hp : keyProblem? s.sourceSeparator k = some p) :
    Nameable s.sourceSeparator k ↔ p = .blankInKey k ∧ Nameable s.sourceSeparator k := by
  refine ⟨fun h => ⟨?_, h⟩, And.right⟩
  rcases keyProblem?_eq_some_iff.1 hp with ⟨hnil, -⟩ | ⟨-, -, hp⟩ | ⟨-, -, ⟨hσ, hin⟩, -⟩
  · exact absurd hnil h.ne_nil
  · exact hp
  · have huncut := h.uncut
    rw [if_neg hσ] at huncut
    exact absurd hin huncut

/-- Without a key the clause is the same as long as the key is not picked. -/
theorem expand_erase_of_admit? {t : Text}
    (h : ∀ x ∈ candidates s.sourceSeparator t, (Request.ofCandidate x).field = k →
      s.fields.sortable? k = none) :
    s.config.expand (some (s.fields.erase k)) t = s.config.expand (some s.fields) t := by
  obtain ⟨render, -, hexpand⟩ := s.exists_expand_eq
  have hpick : s.config.selection Request.ofCandidate (s.fields.erase k) t =
      s.config.selection Request.ofCandidate s.fields t := by
    refine List.filterMap_congr fun q hq => ?_
    obtain ⟨x, hx, rfl⟩ := List.mem_map.1 hq
    rw [sourceSeparator_config] at hx
    exact Dictionary.admit?_erase (h x hx)
  have hkey : ∀ q ∈ s.config.selection Request.ofCandidate (s.fields.erase k) t, q.field ≠ k := by
    intro q hq hf
    obtain ⟨r, hr, -⟩ := Config.get?_of_mem_selection hq
    simp [Dictionary.get?_erase, hf] at hr
  rw [hexpand, hexpand, ← hpick]
  refine congrArg (fun fs => Except.ok (join s.targetSeparator fs)) ?_
  exact List.flatMap_congr fun q hq => Dictionary.fragments_erase render (hkey q hq)

/-- Without its key a candidate expands to nothing. -/
theorem expand_erase_candidate {x : Text} {d : Direction} (hx : IsCandidate s.sourceSeparator x)
    (hq : Request.ofCandidate x = ⟨k, d⟩) :
    s.config.expand (some (s.fields.erase k)) x = .ok [] := by
  obtain ⟨render, -, hexpand⟩ := s.exists_expand_eq
  have hadmit : (s.fields.erase k).admit? ⟨k, d⟩ = none := by
    simp [Dictionary.admit?, Dictionary.sortable?_erase]
  rw [hexpand, selection_candidate hx, hq, hadmit]
  rfl

/-- Leaving a key out changes no clause exactly if it cannot be asked for or stands for nothing. -/
theorem expand_erase_iff :
    (∀ t, s.config.expand (some (s.fields.erase k)) t = s.config.expand (some s.fields) t) ↔
      (¬∃ t d, s.Requests t ⟨k, d⟩) ∨ ∀ r, s.fields.get? k = some r → r.isEmpty = true := by
  constructor
  · intro h
    by_contra hcon
    push Not at hcon
    obtain ⟨⟨t, d, ht⟩, r, hr, hfull⟩ := hcon
    obtain ⟨x, hx, hq⟩ := requests_iff.1 ht
    have hcand := isCandidate_of_mem hx
    obtain ⟨ts, -, hexpand, hne⟩ :=
      expand_candidate hcand hq hr (Bool.eq_false_iff.2 hfull)
    have hsame := h x
    rw [expand_erase_candidate hcand hq, hexpand] at hsame
    exact hne (Except.ok.inj hsame).symm
  · rintro (hreq | hidle) t
    · refine expand_erase_of_admit? fun x hx hf => absurd ?_ hreq
      exact ⟨t, (Request.ofCandidate x).direction, requests_iff.2 ⟨x, hx, by rw [← hf]⟩⟩
    · exact expand_erase_of_admit? fun x _ _ => Dictionary.sortable?_eq_none_iff.2 hidle

/-- A key that is refused can be asked for exactly if it is refused for a blank and can be named all
the same.  Leaving it out then changes a clause, unless it stands for nothing. -/
theorem requests_of_refused_key {p : Problem} (hp : p ∈ s.problems) (hk : p.key = some k) :
    ((∃ t d, s.Requests t ⟨k, d⟩) ↔ p = .blankInKey k ∧ Nameable s.sourceSeparator k) ∧
    ((∀ t, s.config.expand (some (s.fields.erase k)) t = s.config.expand (some s.fields) t) ↔
      (¬∃ t d, s.Requests t ⟨k, d⟩) ∨ ∀ r, s.fields.get? k = some r → r.isEmpty = true) := by
  refine ⟨?_, expand_erase_iff⟩
  rw [exists_requests_field_iff]
  exact nameable_iff_of_keyProblem? (keyProblem?_of_mem_problems hp hk)

/-- Two keys with a blank inside, one of them a space. -/
def blanks : Settings where
  fields := .ofList [("a\tb".toList, .of false [['x']]), ("a b".toList, .of false [['y']])]

theorem requests_of_refused_key_blanks :
    blanks.problems = [.blankInKey "a\tb".toList, .blankInKey "a b".toList] ∧
    (∃ t d, blanks.Requests t ⟨"a\tb".toList, d⟩) ∧
    (¬∃ t d, blanks.Requests t ⟨"a b".toList, d⟩) ∧
    ∀ t, blanks.config.expand (some (blanks.fields.erase "a b".toList)) t =
      blanks.config.expand (some blanks.fields) t := by
  have hproblems : blanks.problems =
    [.blankInKey "a\tb".toList, .blankInKey "a b".toList] := by decide
  have htab := @requests_of_refused_key blanks "a\tb".toList (.blankInKey "a\tb".toList)
    (by decide) rfl
  have hspace := @requests_of_refused_key blanks "a b".toList (.blankInKey "a b".toList)
    (by decide) rfl
  have hnone : ¬∃ t d, blanks.Requests t ⟨"a b".toList, d⟩ :=
    mt hspace.1.1 (by decide)
  exact ⟨hproblems, htab.1.2 (by decide), hnone, hspace.2.2 (.inl hnone)⟩

/-- The message about a key with a tab is wrong: a directive asks for the key, and its clause is
lost without it. -/
theorem blanks_tab_requested :
    Problem.blankInKey "a\tb".toList ∈ blanks.problems ∧
    (Problem.blankInKey "a\tb".toList).message =
      "The field name 'a\tb' contains whitespace and can never be requested".toList ∧
    blanks.Requests "a\tb".toList ⟨"a\tb".toList, .asc⟩ ∧
    blanks.config.expand (some blanks.fields) "a\tb".toList = .ok "x ASC".toList ∧
    blanks.config.expand (some (blanks.fields.erase "a\tb".toList)) "a\tb".toList = .ok [] := by
  refine ⟨by decide, by decide, ?_, by decide, by decide⟩
  exact ⟨"a\tb".toList, by decide, rfl⟩

end Settings
end SortClause
