import SortClause.Command.Run
import SortClause.Proofs.Documents
import SortClause.Proofs.Validity
/-!
What a run of the command comes to.  Two dashes end the options, and what stands after them is added
to the directives (`readFrom_append_dashes`).  A run finds settings, in the file that its arguments
name, in that of the working directory or by default, puts the given members in place of theirs and
writes clauses under them; it stops where settings cannot be loaded or do not pass the check.  Main
statements: these are all the ways that a run can go (`runWith_eq`), and settings with members in
place of theirs pass the check unless one of these members is at fault (`isValid_override_iff`).
-/
namespace SortClause.Command

open Files Text

/-! ### Directives after the dashes -/

namespace Arguments

/-- The end of the options, as it is written. -/
def dashes : Text := "--".toList

/-- Nothing but the two dashes ends the options. -/
theorem ofText_ne_dashes {t : Text} (h : t ≠ dashes) : Word.ofText t ≠ .dashes := by
  unfold Word.ofText
  split
  · rename_i r
    cases r with
    | nil => exact absurd rfl h
    | cons c r =>
      simp only [Word.ofLong]
      split_ifs <;> split <;> simp
  · nofun
  · unfold Word.ofShort
    split <;> simp
  · nofun

/-- What stands after the two dashes is added to the directives before them. -/
theorem readFrom_append_dashes (ds : List Text) {ts : List Text} (a : Arguments)
    (h : dashes ∉ ts) :
    readFrom a (ts ++ dashes :: ds) = (readFrom a ts).map (·.addDirectives ds) := by
  fun_induction readFrom a ts with
  | case1 a => rfl
  | case2 a t ts d hword ih =>
    rw [List.cons_append, readFrom, hword]
    exact ih (List.not_mem_of_not_mem_cons h)
  | case3 a t ts hword | case4 a t ts hword | case5 a t ts hword =>
    rw [List.cons_append, readFrom, hword]
    rfl
  | case6 a t ts hword => exact absurd hword (ofText_ne_dashes (List.ne_of_not_mem_cons h).symm)
  | case7 a t ts o v hword e hset =>
    rw [List.cons_append, readFrom, hword]
    simp only [hset]
    rfl
  | case8 a t ts o v hword a' hset ih =>
    rw [List.cons_append, readFrom, hword]
    simp only [hset]
    exact ih (List.not_mem_of_not_mem_cons h)
  | case9 a t o hword =>
    -- An option at the end waits for its value, which the dashes cannot be.
    rw [List.cons_append, readFrom, hword]
    rfl
  | case10 a t o hword v ts hvalue e hset =>
    rw [List.cons_append, List.cons_append, readFrom, hword]
    simp only [hvalue, hset]
    rfl
  | case11 a t o hword v ts hvalue a' hset ih =>
    rw [List.cons_append, List.cons_append, readFrom, hword]
    simp only [hvalue, hset]
    exact ih (List.not_mem_of_not_mem_cons (List.not_mem_of_not_mem_cons h))
  | case12 a t o hword v ts hvalue =>
    rw [List.cons_append, List.cons_append, readFrom, hword]
    simp only [hvalue]
    rfl

/-- A file after an option, and directives after the dashes. -/
theorem read_config {p : Text} (hp : p ≠ []) (ds : List Text) :
    read (("--config=".toList ++ p) :: dashes :: ds) =
      .ok { config := some p, directives := ds } := by
  have hword : Word.ofText ("--config=".toList ++ p) = .option .config (some p) := rfl
  have hset : ({} : Arguments).set .config p = .ok { config := some p } := if_neg hp
  rw [read, readFrom, hword]
  simp only [hset]
  rfl

end Arguments

/-! ### The ways of a run -/

variable {a : Arguments} {disk : Disk} {s : Settings}

/-- The settings that a run begins with: in the file that the arguments name, or in that of the
working directory, or the defaults if it has none. -/
def found (a : Arguments) (disk : Disk) : Except LoadError Settings :=
  if a.config = none ∧ disk.has (settingsPath a) = false then .ok {}
  else Settings.ofFile disk (settingsPath a)

/-- A run begins with the settings whose document its file holds. -/
theorem found_of_listing {es : List (Text × Rule)} (hes : es.Perm s.fields.entries)
    (h : disk (settingsPath a) = .present (.ok (encode (s.listing es).text))) :
    found a disk = .ok s := by
  have hhas : disk.has (settingsPath a) = true := by rw [Disk.has, h]
  have htext : disk.readText (settingsPath a) = .ok (s.listing es).text := by
    simp [Disk.readText, Disk.read, h, decode?_encode]
  have hread : Settings.ofText (s.listing es).text = .ok s := by
    have hdocument := Json.document_of_reads (s.reads_listing es)
    rwa [Dictionary.ofList_of_perm hes] at hdocument
  rw [found, if_neg (by simp [hhas]), Settings.ofFile, htext]
  simp only [hread]

/-- A disk on which every path leads to a file with the document of the settings. -/
def holding (s : Settings) : Disk := fun _ => .present (.ok (encode s.toText))

theorem found_holding (a : Arguments) (s : Settings) : found a (holding s) = .ok s :=
  found_of_listing (List.Perm.refl _) rfl

/-- The directory that these settings are looked up in. -/
def place (a : Arguments) : Option Path :=
  match a.config with
  | some p => Path.parent? p
  | none => some ['.']

theorem on_load (a : Arguments) (disk : Disk) : (load a disk).on {} =
    match found a disk with
    | .error e => (.error e, {})
    | .ok s =>
      if s.isValid then (.ok (), ⟨s, place a⟩) else (.error (.invalid s.problems), {}) := by
  rcases a with ⟨_ | p, v, σ, τ, ds⟩
  · have hfound : found ⟨none, v, σ, τ, ds⟩ disk =
        (Manager.Call.loadDirectory (some ['.'])).source disk := by
      simp only [found, Manager.Call.source, settingsPath]
      cases disk.has (Path.join ['.'] Settings.fileName) <;> rfl
    rw [hfound]
    exact Manager.on_loadDirectory disk (some ['.'])
  · have hfound : found ⟨some p, v, σ, τ, ds⟩ disk = Settings.ofFile disk p := by
      simp [found, settingsPath]
    rw [hfound]
    exact Manager.on_loadFile disk p

/-- A run stops at settings that cannot be loaded, at settings that do not pass the check and at
members that do not; otherwise it writes clauses. -/
theorem runWith_eq (a : Arguments) (disk : Disk) (input : List UInt8) : runWith a disk input =
    match found a disk with
    | .error e => failed (loadContext a) e
    | .ok s =>
      if s.isValid = false then failed (loadContext a) (.invalid s.problems)
      else if (override a s).isValid = false then
        failed "applying command-line overrides".toList (.invalid (override a s).problems)
      else emit a (override a s) input := by
  rw [runWith, on_load]
  cases found a disk with
  | error e => rfl
  | ok s =>
    cases hs : s.isValid with
    | false => simp [hs]
    | true =>
      simp only [hs, if_true, Manager.update, Manager.on_apply]
      cases (override a s).isValid <;> rfl

/-- The settings under which a run writes clauses: some are found, and both these and those with
the given members in place of theirs pass the check. -/
def InForce (a : Arguments) (disk : Disk) (s : Settings) : Prop :=
  ∃ base, found a disk = .ok base ∧ base.isValid = true ∧ s = override a base ∧ s.isValid = true

theorem InForce.run_eq (h : InForce a disk s) {args : List Text}
    (hread : Arguments.read args = .ok a) (input : List UInt8) :
    run args disk input = emit a s input := by
  obtain ⟨base, hfound, hbase, rfl, hs⟩ := h
  simp [run, hread, runWith_eq, hfound, hbase, hs]

/-- Directives make no difference to the settings. -/
theorem InForce.addDirectives (h : InForce a disk s) (ds : List Text) :
    InForce (a.addDirectives ds) disk s := h

/-! ### Members in place of others -/

/-- Something is wrong with a given member: the variable has a blank in it, or the separator is in
a key. -/
def Clash (a : Arguments) (s : Settings) : Prop :=
  (∃ v ∈ a.qualifier, ∃ c ∈ v, isBlankChar c = true) ∨
    ∃ σ ∈ a.sourceSeparator, σ ≠ [] ∧ ∃ k ∈ s.fields.keys, σ <:+: k

/-- Settings that pass the check do so with other members too, unless these are at fault. -/
theorem isValid_override_iff (h : s.isValid = true) :
    (override a s).isValid = true ↔ ¬Clash a s := by
  have hs := Settings.isValid_iff.1 h
  rw [Settings.isValid_iff]
  constructor
  · rintro ⟨-, -, huncut, hsolid⟩ (⟨v, hv, c, hc, hblank⟩ | ⟨σ, hσ, hne, k, hk, hin⟩)
    · have hmem : v ∈ (override a s).qualifier := by simp [override, Option.mem_def.1 hv]
      rw [hsolid v hmem c hc] at hblank
      cases hblank
    · have heq : (override a s).sourceSeparator = σ := by simp [override, Option.mem_def.1 hσ]
      rw [heq] at huncut
      exact huncut hne k hk hin
  · intro hclash
    obtain ⟨hqualifier, hseparator⟩ := not_or.1 hclash
    refine ⟨hs.ne_nil, hs.solid, fun hne k hk hin => ?_, fun v hv c hc => ?_⟩
    · cases hσ : a.sourceSeparator with
      | none =>
        simp only [override, hσ, Option.getD_none] at hne hin
        exact hs.uncut hne k hk hin
      | some σ =>
        simp only [override, hσ, Option.getD_some] at hne hin
        exact hseparator ⟨σ, hσ, hne, k, hk, hin⟩
    · cases hq : a.qualifier with
      | none =>
        simp only [override, hq, Option.none_or] at hv
        exact hs.qualifier_solid v hv c hc
      | some w =>
        simp only [override, hq, Option.some_or] at hv
        exact Bool.eq_false_iff.2 fun hblank => hqualifier ⟨v, hq.trans hv, c, hc, hblank⟩

end SortClause.Command
