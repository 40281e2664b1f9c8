import SortClause.Proofs.History
import SortClause.Proofs.Keys
/-!
Settings that pass the check.  They are those whose keys can be told from blanks and separators and
whose variable has no blank in it (`isValid_iff`), so a part of their keys will pass with any rules
and any separator to join fragments with (`WellFormed.with_keys`).  Main statement: whatever calls
are made and whatever is in the files, the settings in force pass the check, and they can be changed
in such a way (`run_wellFormed`).
-/
namespace SortClause

open Files Text

namespace Settings

/-- What is asked of settings. -/
structure WellFormed (s : Settings) : Prop where
  ne_nil : ∀ k ∈ s.fields.keys, k ≠ []
  solid : ∀ k ∈ s.fields.keys, ∀ c ∈ k, isBlankChar c = false
  uncut : s.sourceSeparator ≠ [] → ∀ k ∈ s.fields.keys, ¬s.sourceSeparator <:+: k
  qualifier_solid : ∀ v ∈ s.qualifier, ∀ c ∈ v, isBlankChar c = false

variable {s : Settings}

theorem qualifierProblem?_eq_none_iff :
    s.qualifierProblem? = none ↔ ∀ v ∈ s.qualifier, ∀ c ∈ v, isBlankChar c = false := by
  cases hq : s.qualifier with
  | none => simp [qualifierProblem?, hq]
  | some v => simp [qualifierProblem?, hq, hasBlank]

/-- The check passes exactly the settings that are as they should be. -/
theorem isValid_iff : s.isValid = true ↔ s.WellFormed := by
  have hkey : ∀ k, keyProblem? s.sourceSeparator k = none ↔ k ≠ [] ∧
      (∀ c ∈ k, isBlankChar c = false) ∧ ¬(s.sourceSeparator ≠ [] ∧ s.sourceSeparator <:+: k) := by
    intro k
    rw [keyProblem?_eq_none_iff, hasBlank_eq_false_iff]
  rw [isValid, List.isEmpty_iff, problems, List.append_eq_nil_iff, List.filterMap_eq_nil_iff,
    Option.toList_eq_nil_iff, qualifierProblem?_eq_none_iff]
  constructor
  · rintro ⟨hkeys, hq⟩
    have h := fun k hk => (hkey k).1 (hkeys k hk)
    exact ⟨fun k hk => (h k hk).1, fun k hk => (h k hk).2.1,
      fun hσ k hk hin => (h k hk).2.2 ⟨hσ, hin⟩, hq⟩
  · rintro ⟨hne, hsolid, huncut, hq⟩
    exact ⟨fun k hk => (hkey k).2 ⟨hne k hk, hsolid k hk, fun h => huncut h.1 k hk h.2⟩, hq⟩

/-- Keys taken out, other rules and another separator for the fragments do no harm. -/
theorem WellFormed.with_keys (h : s.WellFormed) (τ : Text) {d : Dictionary}
    (hd : d.keys ⊆ s.fields.keys) :
    { s with targetSeparator := τ, fields := d }.WellFormed where
  ne_nil k hk := h.ne_nil k (hd hk)
  solid k hk := h.solid k (hd hk)
  uncut hσ k hk := h.uncut hσ k (hd hk)
  qualifier_solid := h.qualifier_solid

end Settings

namespace Manager

/-! ### Managers hold settings that pass -/

variable {m : Manager}

theorem isValid_step (h : m.settings.isValid = true) (c : Disk × Call) :
    (m.step c).settings.isValid = true := by
  cases hc : m.call c.1 c.2 with
  | error e => rwa [step_of_error hc]
  | ok u => exact (step_of_ok hc).2.1

theorem isValid_run (h : m.settings.isValid = true) (cs : List (Disk × Call)) :
    (m.run cs).settings.isValid = true := by
  induction cs generalizing m with
  | nil => exact h
  | cons c cs ih => exact ih (isValid_step h c)

theorem on_update_of_wellFormed {s : Settings} (h : s.WellFormed) :
    (update s).on m = (.ok (), { m with settings := s }) := by
  rw [update, on_apply, if_pos (Settings.isValid_iff.2 h)]

/-- After any calls since the beginning, with any files, the settings in force pass the check: each
key has characters, none of them blank, and no separator in it, and the variable has no blank
either.  So they can be put into force once more, which changes nothing, and so can a copy with
another separator for the fragments, other rules and fewer keys. -/
theorem run_wellFormed (cs : List (Disk × Call)) :
    let m := ({} : Manager).run cs
    m.settings.isValid = true ∧ m.settings.WellFormed ∧ (update m.settings).on m = (.ok (), m) ∧
    ∀ τ d, d.keys ⊆ m.settings.fields.keys →
      (update { m.settings with targetSeparator := τ, fields := d }).on m =
        (.ok (), { m with settings := { m.settings with targetSeparator := τ, fields := d } }) := by
  intro m
  have hvalid : m.settings.isValid = true := isValid_run (m := {}) (by decide) cs
  have hform : m.settings.WellFormed := Settings.isValid_iff.1 hvalid
  exact ⟨hvalid, hform, on_update_of_wellFormed hform,
    fun τ d hd => on_update_of_wellFormed (hform.with_keys τ hd)⟩

/-- Two keys under a variable, and then a file that is no document. -/
def filled : List (Disk × Call) :=
  [(fileOnly "x.json".toList "nope".toList, .update
      { qualifier := some ['n'],
        fields := .ofList [(['a'], .of false [['x']]), (['b'], .of true [['y']])] }),
    (fileOnly "x.json".toList "nope".toList, .loadFile "x.json".toList)]

theorem run_wellFormed_filled :
    Dictionary.keys (.ofList [(['b'], .of false [])]) ⊆
      (({} : Manager).run filled).settings.fields.keys ∧
    (update { (({} : Manager).run filled).settings with
      targetSeparator := [';'], fields := .ofList [(['b'], .of false [])] }).on
        (({} : Manager).run filled) =
      (.ok (), ⟨⟨[','], [';'], some ['n'], .ofList [(['b'], .of false [])]⟩, none⟩) := by
  have hkeys : Dictionary.keys (.ofList [(['b'], .of false [])]) ⊆
      (({} : Manager).run filled).settings.fields.keys := by decide
  obtain ⟨-, -, -, hreplace⟩ := run_wellFormed filled
  exact ⟨hkeys, (hreplace [';'] _ hkeys).trans (by rfl)⟩

end Manager
end SortClause
