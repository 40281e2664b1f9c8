import SortClause.Proofs.Shapes
/-!
Which documents are accepted.  Settings are read member by member, and members of other names are
passed over; along the way the places are the same as when the document is read as a JSON value
(`readMember_agrees`), so settings that are read have the fields that their document describes
(`Settings.fields_of_ofText`).  Main statement: a value is a rule exactly if it has one of the two
shapes, and a dictionary or settings with a field that has neither are refused
(`Rule.accepted_iff_shape`).
-/
namespace SortClause

open Json Text

namespace Settings

variable {n : Nat} {first : Bool} {t rest rest' : Text} {d d' : Draft}

/-! ### The members of settings -/

theorem scalar_of_readText {s : Text} (h : readText t = .ok (s, rest)) :
    scalar (skipSpace t) = .ok (.string s, rest) := by
  unfold readText at h
  split at h
  · rename_i r hr
    rw [hr, scalar, h]
    rfl
  · cases h

theorem scalar_of_readOptionalText {v : Option Text} (h : readOptionalText t = .ok (v, rest)) :
    ∃ x, scalar (skipSpace t) = .ok (x, rest) := by
  unfold readOptionalText at h
  split at h
  · rename_i r hr
    obtain ⟨rest', hword, e⟩ := map_eq_ok_iff.1 h
    cases e
    rw [hr, scalar, hword]
    exact ⟨.null, rfl⟩
  · obtain ⟨⟨s, rest'⟩, hs, e⟩ := map_eq_ok_iff.1 h
    cases e
    have hscalar := scalar_of_readText hs
    rw [skipSpace_skipSpace] at hscalar
    exact ⟨.string s, hscalar⟩

/-- The value of a member is read up to where it ends as a JSON value.  The fields are those that
the value describes, and values of other members leave them alone. -/
theorem readValue_agrees {m : Member} {x : Json} (h : readValue d m t = .ok (d', rest))
    (hx : value n t = .ok (x, rest')) :
    rest = rest' ∧
      if m = .fields then ∃ f, d'.fields = some f ∧ f.DescribedBy x else d'.fields = d.fields := by
  have hscalar : ∀ {y : Json}, scalar (skipSpace t) = .ok (y, rest) → rest = rest' := by
    intro y hy
    exact (Prod.mk.inj (value_agrees (value_of_scalar hy n) hx)).2
  cases m with
  | sourceSeparator =>
    obtain ⟨⟨s, r⟩, hs, e⟩ := map_eq_ok_iff.1 h
    cases e
    exact ⟨hscalar (scalar_of_readText hs), rfl⟩
  | targetSeparator =>
    obtain ⟨⟨s, r⟩, hs, e⟩ := map_eq_ok_iff.1 h
    cases e
    exact ⟨hscalar (scalar_of_readText hs), rfl⟩
  | qualifier =>
    obtain ⟨⟨v, r⟩, hv, e⟩ := map_eq_ok_iff.1 h
    cases e
    obtain ⟨y, hy⟩ := scalar_of_readOptionalText hv
    exact ⟨hscalar hy, rfl⟩
  | fields =>
    obtain ⟨⟨f, r⟩, hf, e⟩ := map_eq_ok_iff.1 h
    cases e
    obtain ⟨y, hy, hdescribed⟩ := Dictionary.read_eq_ok_iff.1 hf
    cases value_agrees hy hx
    exact ⟨rfl, f, rfl, hdescribed⟩

theorem Draft.fields_eq_none_of_has {m : Member} (h : ¬d.has m = true) (hm : m = .fields) :
    d.fields = none := by
  subst hm
  simpa [Draft.has] using h

/-- A member of the object form is read up to where its value ends, whether it is one of the four or
passed over.  Fields that have been read stay. -/
theorem readMember_agrees {key : Text} {x : Json} (h : readMember d key t = .ok (d', rest))
    (hx : memberValue (value n) t = .ok (x, rest')) :
    rest = rest' ∧ (∀ f, d.fields = some f → d'.fields = some f) ∧
      (key = Member.fields.name → ∃ f, d'.fields = some f ∧ f.DescribedBy x) := by
  obtain ⟨u, hu, hvalue⟩ := memberValue_eq_ok hx
  unfold readMember at h
  split at h
  · rename_i hname
    simp only [hu, skipValue_of_value hvalue] at h
    obtain ⟨rfl, rfl⟩ := Prod.mk.inj (Except.ok.inj h)
    refine ⟨rfl, fun f hf => hf, ?_⟩
    rintro rfl
    cases hname
  · rename_i m hname
    split_ifs at h with hhas
    obtain ⟨u', hu', hread⟩ := memberValue_eq_ok h
    cases hu.symm.trans hu'
    obtain ⟨hrest, hfields⟩ := readValue_agrees hread hvalue
    refine ⟨hrest, ?_, ?_⟩
    · intro f hf
      -- Fields that were read before would have been refused as repeated.
      split_ifs at hfields with hm
      · rw [Draft.fields_eq_none_of_has hhas hm] at hf
        cases hf
      · rw [hfields, hf]
    · rintro rfl
      cases hname
      simpa using hfields

/-! ### Both forms of settings -/

/-- Fields that were read stay as the remaining members are read, and fields among these are read as
the dictionary that their value describes. -/
theorem fields_of_members {ms : List (Text × Json)} (hms : Members (value n) first t ms rest)
    {k : Nat} (h : foldMembers readMember k first d t = .ok (d', rest')) :
    (∀ f, d.fields = some f → d'.fields = some f) ∧
      ∀ x, (Member.fields.name, x) ∈ ms → ∃ f, d'.fields = some f ∧ f.DescribedBy x := by
  induction hms generalizing k d with
  | closed hnext =>
    cases k with
    | zero => cases h
    | succ k =>
      simp only [foldMembers, hnext] at h
      obtain ⟨rfl, rfl⟩ := Prod.mk.inj (Except.ok.inj h)
      exact ⟨fun f hf => hf, fun x hx => by cases hx⟩
  | @member _ _ key r _ _ _ _ hnext hvalue _ ih =>
    cases k with
    | zero => cases h
    | succ k =>
      simp only [foldMembers, hnext] at h
      -- Both readings of the member end at one place, so the rest is read from there both times.
      cases hr : readMember d key r with
      | error f => simp [hr] at h
      | ok p =>
        obtain ⟨d₁, r₁⟩ := p
        simp only [hr] at h
        obtain ⟨rfl, hstay, hfields⟩ := readMember_agrees hr hvalue
        obtain ⟨hstay', hfields'⟩ := ih h
        refine ⟨fun f hf => hstay' f (hstay f hf), fun x hx => ?_⟩
        rcases List.mem_cons.1 hx with e | hx
        · cases e
          obtain ⟨f, hf, hdescribed⟩ := hfields rfl
          exact ⟨f, hstay' f hf, hdescribed⟩
        · exact hfields' x hx

/-- The values of the array form go to its members in order. -/
theorem fields_of_elements {xs : List Json} (hxs : Elements (value n) first t xs rest)
    {ms : List Member} (hms : ms.Nodup) (h : readArray ms first d t = .ok (d', rest')) :
    (Member.fields ∉ ms → d'.fields = d.fields) ∧
      ∀ (i : Nat) (x : Json), ms[i]? = some Member.fields → xs[i]? = some x →
        ∃ f, d'.fields = some f ∧ f.DescribedBy x := by
  induction hxs generalizing ms d with
  | closed hnext =>
    cases ms with
    | nil =>
      obtain ⟨r, -, e⟩ := map_eq_ok_iff.1 h
      cases e
      exact ⟨fun _ => rfl, by simp⟩
    | cons m ms =>
      simp only [readArray, hnext] at h
      obtain ⟨rfl, rfl⟩ := Prod.mk.inj (Except.ok.inj h)
      exact ⟨fun _ => rfl, by simp⟩
  | @element _ _ u _ _ x _ hnext hvalue _ ih =>
    cases ms with
    | nil =>
      obtain ⟨r, -, e⟩ := map_eq_ok_iff.1 h
      cases e
      exact ⟨fun _ => rfl, by simp⟩
    | cons m ms =>
      obtain ⟨hm, hms⟩ := List.nodup_cons.1 hms
      simp only [readArray, hnext] at h
      cases hr : readValue d m u with
      | error f => simp [hr] at h
      | ok p =>
        obtain ⟨d₁, r₁⟩ := p
        simp only [hr] at h
        obtain ⟨rfl, hfields⟩ := readValue_agrees hr hvalue
        obtain ⟨hkeep, hlater⟩ := ih hms h
        refine ⟨fun hnot => ?_, fun i y hi hy => ?_⟩
        · rw [List.mem_cons, not_or] at hnot
          rw [if_neg (Ne.symm hnot.1)] at hfields
          rw [hkeep hnot.2, hfields]
        · cases i with
          | succ i => exact hlater i y hi hy
          | zero =>
            cases hi
            cases hy
            rw [if_pos rfl] at hfields
            rw [hkeep hm]
            exact hfields

/-- The value that gives the fields of a settings document. -/
inductive FieldsIn : Json → Json → Prop
  | member {ms : List (Text × Json)} {x : Json} (h : (Member.fields.name, x) ∈ ms) :
    FieldsIn (.object ms) x
  | element {xs : List Json} {x : Json} (h : xs[3]? = some x) : FieldsIn (.array xs) x

/-- Settings that are read have the fields that their document describes. -/
theorem fields_of_ofText {s : Settings} {x y : Json} (hx : document (value n) t = .ok x)
    (hs : ofText t = .ok s) (hy : FieldsIn x y) : s.fields.DescribedBy y := by
  obtain ⟨rest, hx, -⟩ := document_eq_ok_iff.1 hx
  obtain ⟨rest', hs, -⟩ := document_eq_ok_iff.1 hs
  cases hy with
  | @member ms _ hmem =>
    obtain ⟨_, r, rfl, hr, -, hms⟩ := members_of_value hx
    simp only [Settings.read, hr] at hs
    obtain ⟨⟨d, u⟩, hd, e⟩ := map_eq_ok_iff.1 hs
    cases e
    obtain ⟨f, hf, hdescribed⟩ := (fields_of_members hms (settled_eq_ok_iff.1 hd)).2 y hmem
    simpa [Draft.settings, hf] using hdescribed
  | @element xs _ hget =>
    obtain ⟨_, r, rfl, hr, -, hxs⟩ := elements_of_value hx
    simp only [Settings.read, hr] at hs
    obtain ⟨⟨d, u⟩, hd, e⟩ := map_eq_ok_iff.1 hs
    cases e
    obtain ⟨f, hf, hdescribed⟩ := (fields_of_elements hxs (by decide) hd).2 3 y rfl hget
    simpa [Draft.settings, hf] using hdescribed

end Settings

/-! ### One rule that is no rule -/

theorem Dictionary.not_describedBy {ms : List (Text × Json)} {m : Text × Json} (hm : m ∈ ms)
    (hbad : Rule.ofJson? m.2 = none) (d : Dictionary) : ¬d.DescribedBy (.object ms) := by
  rintro ⟨_, es, e, hlists, -⟩
  cases e
  obtain ⟨r, hr⟩ := hlists.exists_rule hm
  rw [hbad] at hr
  cases hr

theorem Dictionary.ofText_of_bad {n : Nat} {t : Text} {ms : List (Text × Json)} {m : Text × Json}
    (hm : m ∈ ms) (hbad : Rule.ofJson? m.2 = none) (ht : document (value n) t = .ok (.object ms)) :
    ∃ e, Dictionary.ofText t = .error e := by
  cases hd : Dictionary.ofText t with
  | error e => exact ⟨e, rfl⟩
  | ok d =>
    obtain ⟨x, hx, hdescribed⟩ := Dictionary.ofText_eq_ok_iff.1 hd
    obtain ⟨rest, hx, -⟩ := document_eq_ok_iff.1 hx
    obtain ⟨rest', ht, -⟩ := document_eq_ok_iff.1 ht
    cases value_agrees hx ht
    exact absurd hdescribed (Dictionary.not_describedBy hm hbad d)

theorem Settings.ofText_of_bad {n : Nat} {t : Text} {x : Json} {ms : List (Text × Json)}
    {m : Text × Json} (hm : m ∈ ms) (hbad : Rule.ofJson? m.2 = none)
    (ht : document (value n) t = .ok x) (hfields : Settings.FieldsIn x (.object ms)) :
    ∃ e, Settings.ofText t = .error e := by
  cases hs : Settings.ofText t with
  | error e => exact ⟨e, rfl⟩
  | ok s =>
    exact absurd (Settings.fields_of_ofText ht hs hfields)
      (Dictionary.not_describedBy hm hbad s.fields)

namespace Rule

/-- A JSON value is read as a rule exactly if it has one of the two shapes, and is then the rule of
the direction flag and the destinations that the shape gives. -/
theorem accepted_iff_shape :
    (∀ x r, ofJson? x = some r ↔ ∃ reverse ds, Shape x reverse ds ∧ r = of reverse ds) ∧
    (∀ reverse ds, (of reverse ds).reverse = reverse ∧
      (of reverse ds).destinations =
        (ds.filter fun d => d.any fun c => !isBlankChar c).map Text.trim) ∧
    (∀ ms (ds : List Text), Once "destinations".toList (.array (ds.map .string)) ms →
      "reverse".toList ∉ ms.map (·.1) →
        ofJson? (.object ms) = ofJson? (.array (ds.map .string))) ∧
    (∀ r, ofJson? r.toJson = some r ∧ ofText r.toJson.text = .ok r) ∧
    (∀ t r, ofText t = .ok r ↔
      ∃ x, document (value maxDepth) t = .ok x ∧ ofJson? x = some r) ∧
    (∀ t x, document (value maxDepth) t = .ok x → ofJson? x = none →
      ofText t = .error ⟨.noRule, none⟩) ∧
    (∀ t d, Dictionary.ofText t = .ok d ↔
      ∃ x, document (value maxDepth) t = .ok x ∧ d.DescribedBy x) ∧
    (∀ n t ms m, m ∈ ms → ofJson? m.2 = none → document (value n) t = .ok (.object ms) →
      ∃ e, Dictionary.ofText t = .error e) ∧
    (∀ n t x y s, document (value n) t = .ok x → Settings.FieldsIn x y →
      Settings.ofText t = .ok s → s.fields.DescribedBy y) ∧
    ∀ n t x ms m, m ∈ ms → ofJson? m.2 = none → document (value n) t = .ok x →
      Settings.FieldsIn x (.object ms) → ∃ e, Settings.ofText t = .error e := by
  refine ⟨fun x r => ofJson?_eq_some_iff, fun reverse ds => ⟨rfl, destinations_of reverse ds⟩, ?_,
    fun r => ⟨r.ofJson?_toJson, r.ofText_toJson⟩, fun t r => ofText_eq_ok_iff,
    fun t x => ofText_of_ofJson?_eq_none, fun t d => Dictionary.ofText_eq_ok_iff,
    fun n t ms m => Dictionary.ofText_of_bad,
    fun n t x y s hx hy hs => Settings.fields_of_ofText hx hs hy,
    fun n t x ms m => Settings.ofText_of_bad⟩
  intro ms ds hds hnot
  rw [ofJson?_eq_some_iff.2 ⟨false, ds, .unflagged hds hnot, rfl⟩,
    ofJson?_eq_some_iff.2 ⟨false, ds, .list ds, rfl⟩]

/-- A rule with a member that does not count. -/
def annotated : Json :=
  .object [("note".toList, .array []), ("destinations".toList, .array [.string [' ', 'a']])]

/-- A rule whose flag is no boolean. -/
def misflagged : Json := .object [("reverse".toList, .null), ("destinations".toList, .array [])]

/-- A settings document with one field. -/
def holding (rule : Json) : Json :=
  .object [("fields".toList, .object [(['k'], rule)])]

theorem accepted_iff_shape_misflagged :
    ofJson? annotated = ofJson? (.array [.string [' ', 'a']]) ∧
    ofText annotated.text = .ok (of false [[' ', 'a']]) ∧
    ofText misflagged.text = .error ⟨.noRule, none⟩ ∧
    (∃ e, Dictionary.ofText (Json.object [(['k'], misflagged)]).text = .error e) ∧
    (∃ s, Settings.ofText (holding annotated).text = .ok s ∧
      s.fields.DescribedBy (.object [(['k'], annotated)])) ∧
    ∃ e, Settings.ofText (holding misflagged).text = .error e := by
  obtain ⟨-, -, hshort, -, haccept, hrefuse, -, hdictionary, hfields, hsettings⟩ :=
    accepted_iff_shape
  have hmember : ∀ rule, Settings.FieldsIn (holding rule) (.object [(['k'], rule)]) :=
    fun rule => .member List.mem_cons_self
  have hread : document (value 4) (holding annotated).text = .ok (holding annotated) := rfl
  refine ⟨hshort _ [[' ', 'a']] ⟨by decide, by simp⟩ (by decide),
    (haccept _ _).2 ⟨annotated, rfl, rfl⟩, hrefuse _ misflagged rfl rfl,
    hdictionary 3 _ [(['k'], misflagged)] _ List.mem_cons_self rfl rfl,
    ⟨_, rfl, hfields 4 _ _ _ _ hread (hmember annotated) rfl⟩,
    hsettings 4 _ _ [(['k'], misflagged)] _ List.mem_cons_self rfl rfl (hmember misflagged)⟩

end Rule
end SortClause
