import SortClause.Proofs.Documents
import SortClause.Proofs.Skipping
import SortClause.Proofs.Trimming
/-!
The shapes of rules.  A rule is an array of strings, or an object in which `destinations` occurs
once, with an array of strings, and `reverse` at most once, with a boolean; other members do not
count.  Main statements: these are the values that are read as rules (`Rule.ofJson?_eq_some_iff`),
and a text is read as a dictionary exactly if it is a document of an object whose members are rules
(`Dictionary.ofText_eq_ok_iff`).
-/
namespace SortClause

open Json Text

/-! ### Members by name -/

namespace Json

variable {name : Text} {x : Json} {ms : List (Text × Json)}

/-- The name occurs once among the members, with this value. -/
def Once (name : Text) (x : Json) (ms : List (Text × Json)) : Prop :=
  (ms.map (·.1)).count name = 1 ∧ (name, x) ∈ ms

theorem length_valuesOf (name : Text) (ms : List (Text × Json)) :
    (valuesOf name ms).length = (ms.map (·.1)).count name := by
  induction ms with
  | nil => rfl
  | cons m ms ih =>
    rw [valuesOf, List.length_map] at ih ⊢
    by_cases h : m.1 = name
    · simp [h, ih]
    · simp [h, ih]

theorem mem_valuesOf : x ∈ valuesOf name ms ↔ (name, x) ∈ ms := by
  simp [valuesOf]

theorem valuesOf_eq_nil_iff : valuesOf name ms = [] ↔ name ∉ ms.map (·.1) := by
  rw [← List.length_eq_zero_iff, length_valuesOf, List.count_eq_zero]

theorem valuesOf_eq_singleton_iff : valuesOf name ms = [x] ↔ Once name x ms := by
  rw [Once, ← length_valuesOf, ← mem_valuesOf]
  constructor
  · intro h
    simp [h]
  · rintro ⟨hlen, hx⟩
    obtain ⟨y, hy⟩ := List.length_eq_one_iff.1 hlen
    rw [hy, List.mem_singleton] at hx
    rw [hy, hx]

theorem strings?_eq_some_iff {ds : List Text} :
    x.strings? = some ds ↔ x = .array (ds.map .string) := by
  constructor
  · intro h
    cases x with
    | array xs =>
      rw [strings?] at h
      refine congrArg Json.array ?_
      induction xs generalizing ds with
      | nil =>
        obtain rfl : [] = ds := by simpa using h
        rfl
      | cons y ys ih =>
        cases y with
        | string s =>
          rw [List.mapM_cons] at h
          cases hys : ys.mapM string? with
          | none => simp [hys, string?] at h
          | some es =>
            obtain rfl : s :: es = ds := by simpa [hys, string?] using h
            rw [List.map_cons, ih hys]
        | _ => simp [List.mapM_cons, string?] at h
    | _ => cases h
  · rintro rfl
    exact strings?_map_string ds

theorem bool?_eq_some_iff {b : Bool} : x.bool? = some b ↔ x = .bool b := by
  cases x <;> simp [bool?]

end Json

/-! ### Shapes -/

namespace Rule

/-- The JSON values that describe a rule, with the direction flag and the destinations they give. -/
inductive Shape : Json → Bool → List Text → Prop
  | list (ds : List Text) : Shape (.array (ds.map .string)) false ds
  | unflagged {ms : List (Text × Json)} {ds : List Text}
      (hds : Once "destinations".toList (.array (ds.map .string)) ms)
      (hnot : "reverse".toList ∉ ms.map (·.1)) : Shape (.object ms) false ds
  | flagged {ms : List (Text × Json)} {reverse : Bool} {ds : List Text}
      (hds : Once "destinations".toList (.array (ds.map .string)) ms)
      (hreverse : Once "reverse".toList (.bool reverse) ms) : Shape (.object ms) reverse ds

variable {ms : List (Text × Json)}

theorem destinationsOf?_eq_some_iff {ds : List Text} :
    destinationsOf? ms = some ds ↔
      Once "destinations".toList (.array (ds.map .string)) ms := by
  rw [← valuesOf_eq_singleton_iff]
  unfold destinationsOf?
  split
  · rename_i x hx
    rw [hx, strings?_eq_some_iff, List.singleton_inj]
  · rename_i hne
    exact iff_of_false nofun (hne _)

theorem reverseOf?_eq_some_iff {reverse : Bool} :
    reverseOf? ms = some reverse ↔ (reverse = false ∧ "reverse".toList ∉ ms.map (·.1)) ∨
      Once "reverse".toList (.bool reverse) ms := by
  rw [← valuesOf_eq_singleton_iff, ← valuesOf_eq_nil_iff]
  unfold reverseOf?
  split
  · rename_i h
    rw [h]
    cases reverse <;> simp
  · rename_i x hx
    rw [hx, bool?_eq_some_iff]
    simp
  · rename_i hnil hne
    exact iff_of_false nofun (not_or.2 ⟨fun h => hnil h.2, hne _⟩)

/-- The values that are read as rules are those of the two shapes. -/
theorem ofJson?_eq_some_iff {x : Json} {r : Rule} :
    ofJson? x = some r ↔ ∃ reverse ds, Shape x reverse ds ∧ r = of reverse ds := by
  constructor
  · intro h
    cases x with
    | array xs =>
      obtain ⟨ds, hds, rfl⟩ := Option.map_eq_some_iff.1 h
      rw [strings?_eq_some_iff.1 hds]
      exact ⟨false, ds, .list ds, rfl⟩
    | object ms =>
      rw [ofJson?] at h
      split at h
      · rename_i reverse ds hreverse hds
        obtain rfl : of reverse ds = r := Option.some.inj h
        rw [destinationsOf?_eq_some_iff] at hds
        rcases reverseOf?_eq_some_iff.1 hreverse with ⟨rfl, hnot⟩ | hreverse
        · exact ⟨false, ds, .unflagged hds hnot, rfl⟩
        · exact ⟨reverse, ds, .flagged hds hreverse, rfl⟩
      · cases h
    | _ => cases h
  · rintro ⟨reverse, ds, h | ⟨hds, hnot⟩ | ⟨hds, hreverse⟩, rfl⟩
    · rw [ofJson?, strings?_map_string]
      rfl
    · simp only [ofJson?, destinationsOf?_eq_some_iff.2 hds,
        reverseOf?_eq_some_iff.2 (.inl ⟨rfl, hnot⟩)]
    · simp only [ofJson?, destinationsOf?_eq_some_iff.2 hds,
        reverseOf?_eq_some_iff.2 (.inr hreverse)]

/-- Destinations that are given twice are given in no shape, even if they are the same. -/
example : ofJson? (.object [("destinations".toList, .array [.string ['a']]),
    ("destinations".toList, .array [.string ['a']])]) = none := rfl

/-- A rule keeps what is not blank, trimmed and in order. -/
theorem destinations_of (reverse : Bool) (ds : List Text) :
    (of reverse ds).destinations =
      (ds.filter fun d => d.any fun c => !isBlankChar c).map Text.trim := by
  have hkeep : ∀ d : Text, decide (d.trim ≠ []) = d.any fun c => !isBlankChar c := by
    intro d
    rw [Bool.eq_iff_iff, decide_eq_true_iff, ne_eq, trim_eq_nil_iff]
    simp [Blank]
  calc (of reverse ds).destinations = (ds.map Text.trim).filter (· ≠ []) := rfl
    _ = (ds.filter fun d => d.trim ≠ []).map Text.trim := List.filter_map
    _ = (ds.filter fun d => d.any fun c => !isBlankChar c).map Text.trim := by simp only [hkeep]

end Rule

/-! ### Reading rules -/

namespace Json

theorem document_eq_ok_iff {α : Type} {item : Reader α} {t : Text} {x : α} :
    document item t = .ok x ↔ ∃ rest, item t = .ok (x, rest) ∧ skipSpace rest = [] := by
  unfold document
  cases item t with
  | error f => simp
  | ok p =>
    obtain ⟨y, rest⟩ := p
    simp only [Except.ok.injEq, Prod.mk.injEq]
    constructor
    · intro h
      split at h
      · rename_i hrest
        exact ⟨rest, ⟨Except.ok.inj h, rfl⟩, hrest⟩
      · cases h
    · rintro ⟨_, ⟨rfl, rfl⟩, hrest⟩
      simp [hrest]

theorem settled_eq_ok_iff {α : Type} {e : Except Fault α} {x : α} :
    settled e = .ok x ↔ e = .ok x := by
  cases e <;> simp [settled]

end Json

namespace Rule

variable {n : Nat} {first : Bool} {t rest : Text}

theorem read_eq_ok_iff {r : Rule} :
    Rule.read n t = .ok (r, rest) ↔ ∃ x, value n t = .ok (x, rest) ∧ ofJson? x = some r := by
  unfold Rule.read
  cases value n t with
  | error f => simp
  | ok p =>
    obtain ⟨x, u⟩ := p
    cases hx : ofJson? x with
    | none => simp [hx]
    | some s =>
      simp only [hx, Except.ok.injEq, Prod.mk.injEq]
      constructor
      · rintro ⟨rfl, rfl⟩
        exact ⟨x, ⟨rfl, rfl⟩, hx⟩
      · rintro ⟨y, ⟨rfl, rfl⟩, hy⟩
        exact ⟨Option.some.inj (hx.symm.trans hy), rfl⟩

theorem ofText_eq_ok_iff {r : Rule} :
    ofText t = .ok r ↔ ∃ x, document (value maxDepth) t = .ok x ∧ ofJson? x = some r := by
  simp only [ofText, document_eq_ok_iff, read_eq_ok_iff]
  constructor
  · rintro ⟨rest, ⟨x, hx, hr⟩, hrest⟩
    exact ⟨x, ⟨rest, hx, hrest⟩, hr⟩
  · rintro ⟨x, ⟨rest, hx, hrest⟩, hr⟩
    exact ⟨rest, ⟨x, hx, hr⟩, hrest⟩

/-- A document of a value that describes no rule is refused as such. -/
theorem ofText_of_ofJson?_eq_none {x : Json} (h : document (value maxDepth) t = .ok x)
    (hx : ofJson? x = none) : ofText t = .error ⟨.noRule, none⟩ := by
  obtain ⟨rest, ht, -⟩ := document_eq_ok_iff.1 h
  simp only [ofText, document, Rule.read, ht, hx]
  rfl

end Rule

/-! ### Reading dictionaries -/

namespace Dictionary

variable {n : Nat} {first : Bool} {t rest : Text}

/-- The members describe the entries, one by one. -/
def Lists (ms : List (Text × Json)) (es : List (Text × Rule)) : Prop :=
  List.Forall₂ (fun m e => m.1 = e.1 ∧ Rule.ofJson? m.2 = some e.2) ms es

/-- An object of rules, of which the last of one name counts. -/
def DescribedBy (d : Dictionary) (x : Json) : Prop :=
  ∃ ms es, x = .object ms ∧ Lists ms es ∧ d = .ofList es

theorem Lists.exists_rule {ms : List (Text × Json)} {es : List (Text × Rule)}
    (h : Lists ms es) {m : Text × Json} (hm : m ∈ ms) : ∃ r, Rule.ofJson? m.2 = some r := by
  induction h with
  | nil => cases hm
  | cons hr _ ih =>
    rcases List.mem_cons.1 hm with rfl | hm
    · exact ⟨_, hr.2⟩
    · exact ih hm

/-- Members are read as rules if they are read as values that describe rules. -/
theorem members_read_iff {es : List (Text × Rule)} :
    Members (Rule.read n) first t es rest ↔
      ∃ ms, Members (value n) first t ms rest ∧ Lists ms es := by
  constructor
  · intro h
    induction h with
    | closed hnext => exact ⟨[], .closed hnext, .nil⟩
    | member hnext hr _ ih =>
      obtain ⟨ms, hms, hlists⟩ := ih
      obtain ⟨u, hu, hr⟩ := memberValue_eq_ok hr
      obtain ⟨x, hx, hrule⟩ := Rule.read_eq_ok_iff.1 hr
      exact ⟨_, .member hnext (memberValue_of_colon hu hx) hms, .cons ⟨rfl, hrule⟩ hlists⟩
  · rintro ⟨ms, hms, hlists⟩
    induction hms generalizing es with
    | closed hnext =>
      cases hlists
      exact .closed hnext
    | member hnext hx _ ih =>
      cases hlists with
      | @cons _ e _ _ he hlists =>
        obtain ⟨k, r⟩ := e
        obtain ⟨rfl, hrule⟩ := he
        exact .member hnext
          (memberValue_mono (fun u hu => Rule.read_eq_ok_iff.2 ⟨_, hu, hrule⟩) hx) (ih hlists)

theorem read_eq_ok_iff {d : Dictionary} :
    Dictionary.read n t = .ok (d, rest) ↔
      ∃ x, value (n + 1) t = .ok (x, rest) ∧ d.DescribedBy x := by
  have hinsert : ∀ d key t, readMember n d key t =
      (memberValue (Rule.read n) t).map fun p => (d.insert key p.1, p.2) :=
    fun _ _ _ => rfl
  constructor
  · intro h
    unfold Dictionary.read at h
    split at h
    · rename_i r hr
      rw [settled_eq_ok_iff, members, foldMembers_eq_ok_iff insert hinsert] at h
      obtain ⟨es, hlen, hes, rfl⟩ := h
      obtain ⟨ms, hms, hlists⟩ := members_read_iff.1 hes
      have hlen' : ms.length ≤ r.length := hlists.length_eq ▸ Nat.le_of_lt_succ hlen
      exact ⟨_, value_object hr hlen' hms, ms, es, rfl, hlists, rfl⟩
    · cases h
  · rintro ⟨x, hx, ms, es, rfl, hlists, rfl⟩
    obtain ⟨_, r, e, hr, hlen, hms⟩ := members_of_value hx
    cases e
    have hread : Dictionary.read n t = settled (members (readMember n) empty r) := by
      simp only [Dictionary.read, hr]
    rw [hread, settled_eq_ok_iff, members, foldMembers_eq_ok_iff insert hinsert]
    refine ⟨es, ?_, members_read_iff.2 ⟨ms, hms, hlists⟩, rfl⟩
    exact Nat.lt_succ_of_le (hlists.length_eq ▸ hlen)

theorem ofText_eq_ok_iff {d : Dictionary} :
    ofText t = .ok d ↔ ∃ x, document (value maxDepth) t = .ok x ∧ d.DescribedBy x := by
  -- One of the 127 brackets is open around the rules.
  simp only [ofText, document_eq_ok_iff, read_eq_ok_iff, show maxDepth - 1 + 1 = maxDepth from rfl]
  constructor
  · rintro ⟨rest, ⟨x, hx, hd⟩, hrest⟩
    exact ⟨x, ⟨rest, hx, hrest⟩, hd⟩
  · rintro ⟨x, ⟨rest, hx, hrest⟩, hd⟩
    exact ⟨rest, ⟨x, hx, hd⟩, hrest⟩

end Dictionary

end SortClause
