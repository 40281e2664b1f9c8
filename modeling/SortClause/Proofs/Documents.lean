import SortClause.Settings.Document
import SortClause.Proofs.Entries
import SortClause.Proofs.JsonText
/-!
Documents of rules, dictionaries and settings.  A rule is written with its own destinations, which
reading trims and filters to no effect (`Rule.ofJson?_toJson`); a dictionary is written in the
order of its keys, but may be read in any order (`Dictionary.reads_listing`).  Main statement:
settings are read back from their document, in whatever order their fields are listed
(`Settings.ofText_listing`).
-/
namespace SortClause

open Json

/-- A text that is read as a value is a document of the value. -/
theorem Json.document_of_reads {α : Type} {item : Reader α} {t : Text} {x : α}
    (h : Reads item t x) : document item t = .ok x := by
  have ht := h []
  rw [List.append_nil] at ht
  rw [document, ht]
  rfl

/-! ### Rules -/

theorem Json.strings?_map_string (ts : List Text) :
    (Json.array (ts.map .string)).strings? = some ts := by
  induction ts with
  | nil => rfl
  | cons t ts ih =>
    rw [strings?] at ih ⊢
    rw [List.map_cons, List.mapM_cons, ih]
    rfl

namespace Rule

/-- The object form of a rule is read as the rule. -/
theorem ofJson?_toJson (r : Rule) : ofJson? r.toJson = some r := by
  have hreverse : reverseOf? [("reverse".toList, .bool r.reverse),
      ("destinations".toList, .array (r.destinations.map .string))] = some r.reverse := rfl
  have hdestinations : destinationsOf? [("reverse".toList, .bool r.reverse),
      ("destinations".toList, .array (r.destinations.map .string))] = some r.destinations :=
    strings?_map_string r.destinations
  rw [toJson, ofJson?, hreverse, hdestinations]
  exact congrArg some r.of_destinations

/-- A rule is an object that holds an array. -/
theorem plain_toJson (r : Rule) (n : Nat) : Plain (n + 2) r.toJson := by
  refine .object fun m hm => ?_
  simp only [List.mem_cons, List.not_mem_nil, or_false] at hm
  rcases hm with rfl | rfl
  · exact .bool _ _
  · refine .array fun x hx => ?_
    obtain ⟨t, -, rfl⟩ := List.mem_map.1 hx
    exact .string _ t

theorem reads_toJson (r : Rule) (n : Nat) : Reads (Rule.read (n + 2)) r.toJson.text r := by
  intro rest
  simp only [Rule.read, (r.plain_toJson n).reads rest, ofJson?_toJson]

/-- A rule is read back from its document. -/
theorem ofText_toJson (r : Rule) : Rule.ofText r.toJson.text = .ok r :=
  document_of_reads (r.reads_toJson 125)

end Rule

/-! ### Dictionaries -/

namespace Dictionary

/-- The object form of entries in some order. -/
def listing (es : List (Text × Rule)) : Json := .object (es.map fun e => (e.1, e.2.toJson))

/-- Listed entries are read one after the other into the dictionary. -/
theorem reads_listing (es : List (Text × Rule)) (n : Nat) :
    Reads (Dictionary.read (n + 2)) (listing es).text (ofList es) := by
  have hmembers :
      Folds (readMember (n + 2)) empty (es.map fun e => (e.1, e.2.toJson)) (ofList es) :=
    .foldl (fun e _ d => (reads_memberValue (e.2.reads_toJson n)).map (d.insert e.1)) empty
  intro rest
  rw [listing, Dictionary.read, skipSpace_object]
  simp only [hmembers.reads rest]
  rfl

/-- A dictionary is read back from its document. -/
theorem ofText_toJson (d : Dictionary) : Dictionary.ofText d.toJson.text = .ok d := by
  have h := document_of_reads (reads_listing d.entries 124)
  rwa [ofList_of_perm (List.Perm.refl _)] at h

end Dictionary

/-! ### Settings -/

theorem Json.reads_readText (s : Text) : Reads readText (stringText s) s := by
  intro rest
  rw [readText, skipSpace_stringText]
  exact readString_text s rest

theorem Json.reads_readOptionalText (v : Option Text) :
    Reads readOptionalText (text (match v with | some v => .string v | none => .null)) v := by
  intro rest
  cases v with
  | none => rfl
  | some v =>
    have h := (reads_readText v).map some rest
    rw [stringText_append] at h
    rw [text_string, readOptionalText, skipSpace_stringText]
    exact h

namespace Settings

/-- The value of a member, with the fields listed in some order. -/
def valueOf (s : Settings) (es : List (Text × Rule)) : Member → Json
  | .sourceSeparator => .string s.sourceSeparator
  | .targetSeparator => .string s.targetSeparator
  | .qualifier => match s.qualifier with | some v => .string v | none => .null
  | .fields => Dictionary.listing es

/-- The object form of settings with the fields listed in some order. -/
def listing (s : Settings) (es : List (Text × Rule)) : Json :=
  .object (Member.all.map fun m => (m.name, s.valueOf es m))

theorem toJson_eq_listing (s : Settings) : s.toJson = s.listing s.fields.entries := rfl

/-- The draft with a member as it is in the settings. -/
def Draft.take (s : Settings) (d : Draft) : Member → Draft
  | .sourceSeparator => { d with sourceSeparator := some s.sourceSeparator }
  | .targetSeparator => { d with targetSeparator := some s.targetSeparator }
  | .qualifier => { d with qualifier := some s.qualifier }
  | .fields => { d with fields := some s.fields }

theorem Draft.has_take (s : Settings) (d : Draft) {m l : Member} (h : m ≠ l) :
    (d.take s m).has l = d.has l := by
  cases m <;> cases l <;> first | rfl | exact absurd rfl h

theorem Member.ofName?_name (m : Member) : Member.ofName? m.name = some m := by
  cases m <;> rfl

/-- The value of a member is read into the draft. -/
theorem reads_valueOf (s : Settings) (es : List (Text × Rule)) (d : Draft) : ∀ m : Member,
    Reads (readValue d m) (s.valueOf es m).text (d.take { s with fields := .ofList es } m)
  | .sourceSeparator =>
    (reads_readText s.sourceSeparator).map fun v => ({ d with sourceSeparator := some v } : Draft)
  | .targetSeparator =>
    (reads_readText s.targetSeparator).map fun v => ({ d with targetSeparator := some v } : Draft)
  | .qualifier =>
    (reads_readOptionalText s.qualifier).map fun v => ({ d with qualifier := some v } : Draft)
  | .fields =>
    -- Of the 127 brackets, two are open around a rule, which needs two more.
    (Dictionary.reads_listing es 123).map fun v => ({ d with fields := some v } : Draft)

/-- A member that was not read yet is read from its name on. -/
theorem reads_readMember (s : Settings) (es : List (Text × Rule)) {d : Draft} {m : Member}
    (hnew : d.has m = false) :
    Reads (readMember d m.name) (':' :: (s.valueOf es m).text)
      (d.take { s with fields := .ofList es } m) := by
  intro rest
  rw [readMember, Member.ofName?_name]
  simp only [hnew, Bool.false_eq_true, if_false]
  exact reads_memberValue (s.reads_valueOf es d m) rest

/-- Members with different names that were not read yet are all read. -/
theorem folds_members (s : Settings) (es : List (Text × Rule)) : ∀ (ms : List Member) (d : Draft),
    ms.Nodup → (∀ m ∈ ms, d.has m = false) →
      Folds readMember d (ms.map fun m => (m.name, s.valueOf es m))
        (ms.foldl (Draft.take { s with fields := .ofList es }) d)
  | [], d, _, _ => .nil d
  | m :: ms, d, hms, hnew => by
    obtain ⟨hm, hms⟩ := List.nodup_cons.1 hms
    refine .cons (s.reads_readMember es (hnew m List.mem_cons_self))
      (folds_members s es ms _ hms fun l hl => ?_)
    -- A member that comes later is still new, as no member comes twice.
    have hne : m ≠ l := fun h => hm (h ▸ hl)
    rw [Draft.has_take _ d hne]
    exact hnew l (List.mem_cons_of_mem m hl)

/-- Listed settings are read with the fields that the listed entries make. -/
theorem reads_listing (s : Settings) (es : List (Text × Rule)) :
    Reads Settings.read (s.listing es).text { s with fields := .ofList es } := by
  have hmembers := s.folds_members es Member.all {} (by decide) fun m _ => by cases m <;> rfl
  intro rest
  rw [listing, Settings.read, skipSpace_object]
  simp only [hmembers.reads rest]
  rfl

/-- Settings are read back from their document, in whatever order the fields are listed.  Being the
same, they pass the same check and make the same clauses. -/
theorem ofText_listing (s : Settings) :
    ofText s.toText = .ok s ∧
      ∀ es, es.Perm s.fields.entries → ofText (s.listing es).text = .ok s := by
  have hlisting : ∀ es, es.Perm s.fields.entries → ofText (s.listing es).text = .ok s := by
    intro es hes
    have h := document_of_reads (s.reads_listing es)
    rwa [Dictionary.ofList_of_perm hes] at h
  refine ⟨?_, hlisting⟩
  rw [toText, toJson_eq_listing]
  exact hlisting s.fields.entries (List.Perm.refl _)

/-- Settings with a quote, a backslash and control characters in their texts. -/
def wild : Settings where
  sourceSeparator := ['"', '\\']
  targetSeparator := ['\n', '\x01', 'λ']
  qualifier := some []
  fields := .ofList [(['a'], .of true [['x'], [' ', 'y']]), (['\t', '"'], .of false [])]

theorem ofText_listing_wild :
    wild.fields.entries = [(['\t', '"'], .of false []), (['a'], .of true [['x'], ['y']])] ∧
      ofText (wild.listing [(['a'], .of true [['x'], ['y']]), (['\t', '"'], .of false [])]).text =
        .ok wild :=
  have hentries :
      wild.fields.entries = [(['\t', '"'], .of false []), (['a'], .of true [['x'], ['y']])] := by
    decide
  ⟨hentries, (ofText_listing wild).2 _ (hentries ▸ List.Perm.swap _ _ _)⟩

end Settings
end SortClause
