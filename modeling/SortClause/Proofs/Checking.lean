import SortClause.Proofs.Validity
import Mathlib.Data.List.Sort
/-!
The check of settings.  Keys come in no order of their own; the check sorts them and goes through
them once, so that what it finds does not depend on how they come (`check_eq`).  A key is objected
to on the first ground that there is (`Objection`).  Main statement: the check finds something
exactly if something is wrong, lists one finding for each key that is objected to, in the order of
the keys, then the variable, and warns of each key that stands for nothing; other rules and another
separator for fragments leave the findings as they are (`check_exact`).
-/
namespace SortClause

open Text

/-! ### Sorting keys -/

/-- The texts in order. -/
def Text.sort (ts : List Text) : List Text := ts.mergeSort fun x y => !precedes y x

theorem Text.sort_perm (ts : List Text) : (sort ts).Perm ts := List.mergeSort_perm ts _

theorem Text.precedes_asymm {x y : Text} (h : precedes x y = true) : precedes y x = false := by
  by_contra hyx
  exact ne_of_precedes (precedes_trans h (Bool.not_eq_false _ ▸ hyx)) rfl

theorem Text.not_precedes_trans {x y z : Text} (hyx : precedes y x = false)
    (hzy : precedes z y = false) : precedes z x = false := by
  by_contra hzx
  rw [Bool.not_eq_false] at hzx
  rcases precedes_or_eq_or_precedes y z with h | rfl | h
  · rw [precedes_trans h hzx] at hyx
    cases hyx
  · rw [hzx] at hyx
    cases hyx
  · rw [h] at hzy
    cases hzy

/-- No text in the sorted list stands before an earlier one. -/
theorem Text.pairwise_sort (ts : List Text) :
    (sort ts).Pairwise fun x y => precedes y x = false := by
  have htotal : ∀ x y : Text, (!precedes y x || !precedes x y) = true := by
    intro x y
    cases h : precedes y x with
    | false => rfl
    | true => rw [precedes_asymm h]; rfl
  have htrans : ∀ x y z : Text, (!precedes y x) = true → (!precedes z y) = true →
      (!precedes z x) = true := by
    intro x y z hyx hzy
    rw [Bool.not_eq_true'] at hyx hzy ⊢
    exact not_precedes_trans hyx hzy
  exact (List.pairwise_mergeSort htrans htotal ts).imp fun h => by rwa [Bool.not_eq_true'] at h

/-- Sorting brings texts into the one order in which they increase. -/
theorem Text.sort_eq {ts us : List Text} (h : ts.Perm us)
    (hus : us.Pairwise fun x y => precedes x y = true) : sort ts = us := by
  have hperm : (sort ts).Perm us := (sort_perm ts).trans h
  have hnodup : (sort ts).Nodup := hperm.nodup_iff.2 (nodup_of_sorted (f := id) hus)
  have hsorted : (sort ts).Pairwise fun x y => precedes x y = true := by
    refine (List.Pairwise.and (pairwise_sort ts) hnodup).imp fun {x y} ⟨hyx, hne⟩ => ?_
    rcases precedes_or_eq_or_precedes x y with hxy | hxy | hxy
    · exact hxy
    · exact absurd hxy hne
    · rw [hyx] at hxy
      cases hxy
  exact eq_of_sorted (f := id) hsorted hus fun x => hperm.mem_iff

namespace Settings

variable {s : Settings}

/-! ### One pass over the keys -/

/-- What the check reports and warns of when the keys come in this order. -/
def check (s : Settings) (keys : List Text) : List Problem × List Event :=
  ((sort keys).filterMap (keyProblem? s.sourceSeparator) ++ s.qualifierProblem?.toList,
    ((sort keys).filter fun k => (s.fields.get? k).any Rule.isEmpty).map .noDestinations)

/-- The keys that stand for nothing. -/
def idleKeys (s : Settings) : List Text :=
  s.fields.keys.filter fun k => (s.fields.get? k).any Rule.isEmpty

theorem events_eq (s : Settings) : s.events = s.idleKeys.map .noDestinations := by
  have hkeys : s.idleKeys = (s.fields.entries.filter (·.2.isEmpty)).map (·.1) := by
    rw [idleKeys, Dictionary.keys, List.filter_map]
    refine congrArg _ (List.filter_congr fun e he => ?_)
    simp [Dictionary.get?_eq_some_iff.2 he]
  rw [hkeys, events, List.map_map]
  rfl

/-- In whatever order the keys come, the check finds the same. -/
theorem check_eq {keys : List Text} (h : keys.Perm s.fields.keys) :
    s.check keys = (s.problems, s.events) := by
  rw [check, sort_eq h s.fields.sorted_keys, events_eq]
  rfl

/-! ### Grounds for an objection -/

/-- What is said of a key when directives are cut at `σ`: the first of three grounds counts. -/
inductive Objection (σ : Text) : Text → Text → Prop
  | empty : Objection σ [] "The field name cannot be empty. Example: \"createdAt\"".toList
  | blank {k : Text} (hblank : ∃ c ∈ k, isBlankChar c = true) :
    Objection σ k ("The field name '".toList ++ k ++
      "' contains whitespace and can never be requested".toList)
  | separator {k : Text} (hne : k ≠ []) (hsolid : ∀ c ∈ k, isBlankChar c = false) (hσ : σ ≠ [])
    (hin : σ <:+: k) :
    Objection σ k ("The field name '".toList ++ k ++ "' contains the source separator '".toList ++
      σ ++ "' and can never be requested".toList)

/-- The check of a key reports the first ground that there is. -/
theorem objection_iff {σ k m : Text} :
    Objection σ k m ↔ ∃ p, keyProblem? σ k = some p ∧ p.message = m := by
  have hblank : k.hasBlank = true ↔ ∃ c ∈ k, isBlankChar c = true := List.any_eq_true
  simp only [keyProblem?_eq_some_iff, hasBlank_eq_false_iff, hblank]
  constructor
  · rintro (_ | ⟨c, hc, hcb⟩ | ⟨hne, hsolid, hσ, hin⟩)
    · exact ⟨.emptyKey, .inl ⟨rfl, rfl⟩, rfl⟩
    · exact ⟨.blankInKey k, .inr (.inl ⟨List.ne_nil_of_mem hc, ⟨c, hc, hcb⟩, rfl⟩), rfl⟩
    · exact ⟨.separatorInKey k σ, .inr (.inr ⟨hne, hsolid, ⟨hσ, hin⟩, rfl⟩), rfl⟩
  · rintro ⟨p, ⟨rfl, rfl⟩ | ⟨-, hb, rfl⟩ | ⟨hne, hsolid, ⟨hσ, hin⟩, rfl⟩, rfl⟩
    · exact .empty
    · exact .blank hb
    · exact .separator hne hsolid hσ hin

/-- A problem of a key has the path of the key. -/
theorem path_of_keyProblem? {σ k : Text} {p : Problem} (h : keyProblem? σ k = some p) :
    p.path = "fields.".toList ++ k := by
  rcases keyProblem?_eq_some_iff.1 h with ⟨rfl, rfl⟩ | ⟨-, -, rfl⟩ | ⟨-, -, -, rfl⟩ <;> rfl

/-- The keys that are objected to, each with what is said of it. -/
def objections (s : Settings) : List (Text × Text) :=
  s.fields.keys.filterMap fun k =>
    (keyProblem? s.sourceSeparator k).map fun p => (k, p.message)

theorem mem_objections_iff {k m : Text} :
    (k, m) ∈ s.objections ↔ k ∈ s.fields.keys ∧ Objection s.sourceSeparator k m := by
  simp only [objections, List.mem_filterMap, Option.map_eq_some_iff, Prod.mk.injEq, objection_iff]
  constructor
  · rintro ⟨_, hk, p, hp, rfl, hm⟩
    exact ⟨hk, p, hp, hm⟩
  · rintro ⟨hk, p, hp, hm⟩
    exact ⟨k, hk, p, hp, rfl, hm⟩

theorem sorted_objections (s : Settings) :
    s.objections.Pairwise fun a b => precedes a.1 b.1 = true := by
  refine List.Pairwise.filterMap _ (fun k l hkl a ha b hb => ?_) s.fields.sorted_keys
  obtain ⟨p, -, rfl⟩ := Option.map_eq_some_iff.1 ha
  obtain ⟨q, -, rfl⟩ := Option.map_eq_some_iff.1 hb
  exact hkl

/-- The findings are the objections at their keys, and then what is said of the variable. -/
theorem findings_eq (s : Settings) : s.problems.map Problem.finding =
    (s.objections.map fun o => ⟨"fields.".toList ++ o.1, o.2⟩) ++
      (s.qualifier.filter hasBlank).toList.map fun _ => Problem.blankInQualifier.finding := by
  have hkeys : (s.fields.keys.filterMap (keyProblem? s.sourceSeparator)).map Problem.finding =
      s.objections.map fun o => ⟨"fields.".toList ++ o.1, o.2⟩ := by
    rw [objections, List.map_filterMap, List.map_filterMap]
    refine List.filterMap_congr fun k _ => ?_
    cases h : keyProblem? s.sourceSeparator k with
    | none => rfl
    | some p => simp [Problem.finding, path_of_keyProblem? h]
  have hqualifier : s.qualifierProblem?.toList.map Problem.finding =
      (s.qualifier.filter hasBlank).toList.map fun _ => Problem.blankInQualifier.finding := by
    rw [qualifierProblem?]
    cases s.qualifier with
    | none => rfl
    | some v => cases h : hasBlank v <;> simp [h, Option.filter]
  rw [problems, List.map_append, hkeys, hqualifier]

/-! ### The check -/

/-- The problems of settings come from the keys, the separator for directives and the variable. -/
theorem problems_with_keys (τ : Text) {d : Dictionary} (h : ∀ k, k ∈ d.keys ↔ k ∈ s.fields.keys) :
    { s with targetSeparator := τ, fields := d }.problems = s.problems := by
  have hkeys : d.keys = s.fields.keys := Dictionary.keys_eq_of_mem_iff h
  simp only [problems, qualifierProblem?, hkeys]

theorem mem_idleKeys_iff {k : Text} :
    k ∈ s.idleKeys ↔ ∃ r, s.fields.get? k = some r ∧ r.destinations = [] := by
  simp only [idleKeys, List.mem_filter, Option.any_eq_true, Dictionary.mem_keys_iff, Rule.isEmpty,
    List.isEmpty_iff]
  constructor
  · rintro ⟨-, h⟩
    exact h
  · rintro ⟨r, hr, hnil⟩
    exact ⟨⟨r, hr⟩, r, hr, hnil⟩

/-- The check passes settings exactly if they are as they should be.  It finds one thing for each
key that there is an objection to, at the place of the key and in the order of the keys, and one
for a variable with a blank in it, and it warns once of each key that stands for nothing, in that
order too.  The order in which the fields were put in or are gone through makes no difference, and
the findings stay when rules and the separator for fragments change. -/
theorem check_exact (s : Settings) :
    (s.isValid = true ↔ s.WellFormed) ∧
    (∃ os : List (Text × Text), (os.Pairwise fun a b => precedes a.1 b.1 = true) ∧
      (∀ k m, (k, m) ∈ os ↔ k ∈ s.fields.keys ∧ Objection s.sourceSeparator k m) ∧
      s.problems.map Problem.finding = (os.map fun o => ⟨"fields.".toList ++ o.1, o.2⟩) ++
        (s.qualifier.filter hasBlank).toList.map fun _ => ⟨"variable".toList,
          "The variable cannot contain whitespace. Example: \"n\"".toList⟩) ∧
    (∃ ks : List Text, (ks.Pairwise fun k l => precedes k l = true) ∧
      (∀ k, k ∈ ks ↔ ∃ r, s.fields.get? k = some r ∧ r.destinations = []) ∧
      s.events.map (fun e => (e.level, e.message)) = ks.map fun k => (.warn,
        "Field '".toList ++ k ++ "' has no destinations and will never be ordered by".toList)) ∧
    (∀ es, (∀ k, es.reverse.lookup k = s.fields.get? k) → Dictionary.ofList es = s.fields) ∧
    (∀ keys, keys.Perm s.fields.keys → s.check keys = (s.problems, s.events)) ∧
    ∀ τ d, (∀ k, k ∈ d.keys ↔ k ∈ s.fields.keys) →
      { s with targetSeparator := τ, fields := d }.problems = s.problems := by
  refine ⟨isValid_iff, ⟨s.objections, s.sorted_objections, fun k m => mem_objections_iff,
    s.findings_eq⟩, ⟨s.idleKeys, s.fields.sorted_keys.filter _, fun k => mem_idleKeys_iff, ?_⟩,
    fun es hes => Dictionary.ext_get? fun k => (Dictionary.get?_ofList es k).trans (hes k),
    fun keys => check_eq, fun τ d => s.problems_with_keys τ⟩
  rw [events_eq, List.map_map]
  rfl

/-- Keys that are refused for each of the three reasons and one that is not; two of them stand for
nothing. -/
def faulty : Settings where
  qualifier := some "a b".toList
  fields := .ofList [("z".toList, .of false []), ("a,b c".toList, .of false [['x']]),
    ([], .of true []), ("a,b".toList, .of false [['x']])]

theorem check_exact_faulty :
    ["z".toList, "a,b".toList, [], "a,b c".toList].Perm faulty.fields.keys ∧
    faulty.check ["z".toList, "a,b".toList, [], "a,b c".toList] =
      ([.emptyKey, .separatorInKey "a,b".toList [','], .blankInKey "a,b c".toList,
        .blankInQualifier], [.noDestinations [], .noDestinations "z".toList]) ∧
    { faulty with targetSeparator := [], fields := .ofList [("a,b".toList, .of true []),
      ("z".toList, .of false [['y']]), ([], .of true []), ("a,b c".toList, .of true [])]
      }.problems = faulty.problems := by
  have hperm : ["z".toList, "a,b".toList, [], "a,b c".toList].Perm faulty.fields.keys := by decide
  obtain ⟨-, -, -, -, horder, hrules⟩ := check_exact faulty
  refine ⟨hperm, (horder _ hperm).trans (by decide), hrules _ _ fun k => ?_⟩
  exact iff_of_eq (congrArg (k ∈ ·) (by decide))

end Settings
end SortClause
