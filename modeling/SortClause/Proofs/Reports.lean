import SortClause.Loading
import SortClause.Proofs.Cutting
import SortClause.Proofs.Keys
import Mathlib.Algebra.GroupWithZero.Nat
/-!
The report of refused settings, line by line.  Each problem is written under the heading as a text
with its number (`split_report`), and a line feed in a key, which is a reason to refuse the key, is
written as it is, once in the path and once in the message (`breaks_of_keyProblem?`).  Texts without
a line feed are lines, and what a line says is read back from it (`text_inj`).  Main statement: the
report has one line for each problem exactly if no key has a line feed, and these lines tell all
problems (`report_by_line`).
-/
namespace SortClause

open Text

/-! ### Lines of a report -/

namespace Finding

/-- The line above the problems. -/
def heading : Text := "Configuration validation failed:".toList

theorem newline_not_mem_heading : '\n' ∉ heading := by decide +kernel

theorem report_eq (fs : List Finding) :
    report fs = heading ++ '\n' :: join ['\n'] (lines 1 fs) := by
  have hheading : "Configuration validation failed:\n".toList = heading ++ ['\n'] := by
    decide +kernel
  exact (congrArg (· ++ join ['\n'] (lines 1 fs)) hheading).trans (List.append_assoc _ _ _)

/-- Line feeds in a finding. -/
def breaks (f : Finding) : Nat := f.path.count '\n' + f.message.count '\n'

theorem newline_not_mem_toDigits (n : Nat) : '\n' ∉ Nat.toDigits 10 n := fun h => by
  have hdigit := Nat.isDigit_of_mem_toDigits (by decide) (by decide) h
  exact absurd hdigit (by decide)

theorem count_line (n : Nat) (f : Finding) : (f.line n).count '\n' = f.breaks := by
  have hdigits : (Nat.toDigits 10 n).count '\n' = 0 :=
    List.count_eq_zero.2 (newline_not_mem_toDigits n)
  simp [line, breaks, hdigits]

/-- A key that is quoted in the path and in the message brings its line feeds twice. -/
theorem breaks_quoting {a b c : Text} (ha : '\n' ∉ a) (hb : '\n' ∉ b) (hc : '\n' ∉ c) (k : Text) :
    breaks ⟨a ++ k, b ++ k ++ c⟩ = 2 * k.count '\n' := by
  simp only [breaks, List.count_append, List.count_eq_zero.2 ha, List.count_eq_zero.2 hb,
    List.count_eq_zero.2 hc]
  omega

/-- The heading is the first line, and the lines of the numbered texts follow. -/
theorem split_report {fs : List Finding} (h : fs ≠ []) :
    split ['\n'] (report fs) = heading :: (lines 1 fs).flatMap (split ['\n']) := by
  have hlines : lines 1 fs ≠ [] := by
    cases fs with
    | nil => exact absurd rfl h
    | cons f fs => simp [lines]
  rw [report_eq, split_append_cons, split_join_eq_flatMap '\n' hlines,
    split_of_not_mem newline_not_mem_heading]
  rfl

theorem length_flatMap_lines (n : Nat) (fs : List Finding) :
    ((lines n fs).flatMap (split ['\n'])).length = fs.length + (fs.map breaks).sum := by
  induction fs generalizing n with
  | nil => rfl
  | cons f fs ih =>
    rw [lines, List.flatMap_cons, List.length_append, ih, length_split, count_line,
      List.length_cons, List.map_cons, List.sum_cons]
    omega

/-- Texts without a line feed are lines. -/
theorem flatMap_lines {fs : List Finding} (h : ∀ f ∈ fs, f.breaks = 0) (n : Nat) :
    (lines n fs).flatMap (split ['\n']) = lines n fs := by
  induction fs generalizing n with
  | nil => rfl
  | cons f fs ih =>
    have hline : '\n' ∉ f.line n :=
      List.count_eq_zero.1 ((count_line n f).trans (h f List.mem_cons_self))
    rw [lines, List.flatMap_cons, split_of_not_mem hline,
      ih (fun g hg => h g (List.mem_cons_of_mem f hg))]
    rfl

end Finding

/-! ### Line feeds in problems -/

theorem count_newline_of_solid {k : Text} (h : k.hasBlank = false) : k.count '\n' = 0 :=
  List.count_eq_zero.2 fun hin => absurd (hasBlank_eq_false_iff.1 h _ hin) (by decide)

namespace Settings

variable {s : Settings}

/-- A line feed in a key is written twice. -/
theorem breaks_of_keyProblem? {σ k : Text} {p : Problem} (h : keyProblem? σ k = some p) :
    p.finding.breaks = 2 * k.count '\n' := by
  have hfields : '\n' ∉ "fields.".toList := by decide +kernel
  have hname : '\n' ∉ "The field name '".toList := by decide +kernel
  rcases keyProblem?_eq_some_iff.1 h with ⟨rfl, rfl⟩ | ⟨-, -, rfl⟩ | ⟨-, hsolid, ⟨-, hin⟩, rfl⟩
  · rfl
  · exact Finding.breaks_quoting hfields hname (by decide +kernel) k
  · have hσ : '\n' ∉ σ := fun h =>
      List.count_eq_zero.1 (count_newline_of_solid hsolid) (hin.subset h)
    have hrest : '\n' ∉ "' contains the source separator '".toList ++ (σ ++
        "' and can never be requested".toList) := by
      refine List.not_mem_append (by decide +kernel) (List.not_mem_append hσ (by decide +kernel))
    have hmessage : (Problem.separatorInKey k σ).message = "The field name '".toList ++ k ++
        ("' contains the source separator '".toList ++ (σ ++
          "' and can never be requested".toList)) :=
      (List.append_assoc _ _ _).trans (List.append_assoc _ _ _)
    rw [Problem.finding, hmessage]
    exact Finding.breaks_quoting hfields hname hrest k

theorem sum_breaks_keys (σ : Text) (ks : List Text) :
    ((ks.filterMap (keyProblem? σ)).map fun p => p.finding.breaks).sum =
      2 * (ks.map fun k => k.count '\n').sum := by
  induction ks with
  | nil => rfl
  | cons k ks ih =>
    rw [List.map_cons, List.sum_cons]
    cases hp : keyProblem? σ k with
    | none =>
      have hk := count_newline_of_solid (keyProblem?_eq_none_iff.1 hp).2.1
      rw [List.filterMap_cons_none hp, ih, hk]
      omega
    | some p =>
      rw [List.filterMap_cons_some hp, List.map_cons, List.sum_cons, ih, breaks_of_keyProblem? hp]
      omega

theorem sum_breaks (s : Settings) : ((s.problems.map Problem.finding).map Finding.breaks).sum =
    2 * (s.fields.keys.map fun k => k.count '\n').sum := by
  have hqualifier : (s.qualifierProblem?.toList.map fun p => p.finding.breaks).sum = 0 := by
    unfold qualifierProblem?
    split_ifs <;> rfl
  rw [List.map_map, problems, List.map_append, List.sum_append,
    ← sum_breaks_keys s.sourceSeparator s.fields.keys]
  exact hqualifier ▸ Nat.add_zero _

end Settings

/-! ### Reading a line back -/

namespace Problem

/-- What a line says of a problem after its number. -/
def text (p : Problem) : Text := p.path ++ " - ".toList ++ p.message

/-- A key with the separator in it, as the check reports it, has no space. -/
def Sound : Problem → Prop
  | separatorInKey key _ => ' ' ∉ key
  | _ => True

inductive Kind where
  | emptyKey
  | blankInKey
  | separatorInKey
  | blankInQualifier
  deriving DecidableEq

def kind : Problem → Kind
  | emptyKey => .emptyKey
  | blankInKey _ => .blankInKey
  | separatorInKey _ _ => .separatorInKey
  | blankInQualifier => .blankInQualifier

/-- The last characters of the messages of a kind, of one length and all different. -/
def Kind.ending : Kind → Text
  | emptyKey => " empty. Example: \"createdAt\"".toList
  | blankInKey => "e and can never be requested".toList
  | separatorInKey => "' and can never be requested".toList
  | blankInQualifier => "ain whitespace. Example: \"n\"".toList

/-- The first of these characters tells the kind. -/
def Kind.initial : Kind → Char
  | emptyKey => ' '
  | blankInKey => 'e'
  | separatorInKey => '\''
  | blankInQualifier => 'a'

theorem Kind.head?_ending (k : Kind) : k.ending.head? = some k.initial := by
  cases k <;> decide +kernel

theorem Kind.ending_inj {k l : Kind} (h : k.ending = l.ending) : k = l := by
  have hhead := congrArg List.head? h
  rw [head?_ending, head?_ending, Option.some_inj] at hhead
  revert hhead
  cases k <;> cases l <;> decide

theorem Kind.length_ending (k : Kind) : k.ending.length = 28 := by
  cases k <;> decide +kernel

theorem exists_text_of_message {p : Problem} (front rest : Text) {e : Text}
    (h : p.message = front ++ (rest ++ e)) : ∃ t, p.text = t ++ e :=
  ⟨p.path ++ " - ".toList ++ (front ++ rest), by rw [text, h]; simp only [List.append_assoc]⟩

/-- The kind of a problem is seen at the end of what is said of it. -/
theorem exists_text_eq (p : Problem) : ∃ t, p.text = t ++ p.kind.ending := by
  cases p with
  | emptyKey =>
    have hmessage : emptyKey.message =
      [] ++ ("The field name cannot be".toList ++ Kind.emptyKey.ending) := by decide +kernel
    exact exists_text_of_message [] _ hmessage
  | blankInKey k =>
    have hrest : "' contains whitespace and can never be requested".toList =
      "' contains whitespac".toList ++ "e and can never be requested".toList := by decide +kernel
    exact exists_text_of_message ("The field name '".toList ++ k) _
      (congrArg ("The field name '".toList ++ k ++ ·) hrest)
  | separatorInKey k σ => exact exists_text_of_message _ [] rfl
  | blankInQualifier =>
    have hmessage : blankInQualifier.message =
      [] ++ ("The variable cannot cont".toList ++ Kind.blankInQualifier.ending) := by decide +kernel
    exact exists_text_of_message [] _ hmessage

theorem kind_eq_of_text_eq {p q : Problem} (h : p.text = q.text) : p.kind = q.kind := by
  obtain ⟨t, ht⟩ := p.exists_text_eq
  obtain ⟨u, hu⟩ := q.exists_text_eq
  rw [ht, hu] at h
  refine Kind.ending_inj (List.append_inj' h ?_).2
  rw [Kind.length_ending, Kind.length_ending]

/-- A key that is quoted twice is as long as half of what is there of both. -/
theorem quoted_inj {a b c d k l : Text}
    (h : a ++ k ++ b ++ (c ++ k ++ d) = a ++ l ++ b ++ (c ++ l ++ d)) : k = l := by
  have hlength := congrArg List.length h
  simp only [List.length_append] at hlength
  simp only [List.append_assoc, List.append_cancel_left_eq] at h
  exact (List.append_inj h (by omega)).1

/-- A key without a space ends before the first one. -/
theorem unspaced_inj {a b c d e k l σ τ : Text} (hk : ' ' ∉ k) (hl : ' ' ∉ l)
    (h : a ++ k ++ ' ' :: b ++ (c ++ k ++ d ++ σ ++ e) =
      a ++ l ++ ' ' :: b ++ (c ++ l ++ d ++ τ ++ e)) : k = l ∧ σ = τ := by
  simp only [List.append_assoc, List.append_cancel_left_eq, List.cons_append] at h
  obtain ⟨rfl, hrest⟩ := append_cons_inj hk hl h
  simp only [List.append_cancel_left_eq, List.append_cancel_right_eq] at hrest
  exact ⟨rfl, hrest⟩

/-- A problem is read back from what a line says of it. -/
theorem text_inj {p q : Problem} (hp : p.Sound) (hq : q.Sound) (h : p.text = q.text) : p = q := by
  have hkind := kind_eq_of_text_eq h
  cases p <;> cases q
  case emptyKey.emptyKey => rfl
  case blankInKey.blankInKey k l => rw [quoted_inj h]
  case separatorInKey.separatorInKey k σ l τ =>
    have hdash : " - ".toList = ' ' :: "- ".toList := rfl
    rw [text, text, hdash] at h
    obtain ⟨rfl, rfl⟩ := unspaced_inj hp hq h
    rfl
  case blankInQualifier.blankInQualifier => rfl
  all_goals cases hkind

/-- What is written of a problem that has `i` others before it. -/
def entry (i : Nat) (p : Problem) : Text :=
  [' ', ' '] ++ Nat.toDigits 10 (i + 1) ++ ". ".toList ++ p.path ++ " - ".toList ++ p.message

theorem lines_findings (n : Nat) (ps : List Problem) :
    Finding.lines (n + 1) (ps.map finding) = ps.mapIdx fun i => entry (n + i) := by
  induction ps generalizing n with
  | nil => rfl
  | cons p ps ih =>
    rw [List.map_cons, Finding.lines, ih, List.mapIdx_cons]
    simp only [Nat.add_zero, Nat.add_assoc, Nat.add_comm 1]
    rfl

theorem lines_one (ps : List Problem) : Finding.lines 1 (ps.map finding) = ps.mapIdx entry := by
  simpa only [Nat.zero_add] using lines_findings 0 ps

theorem line_eq (n : Nat) (p : Problem) : p.finding.line n =
    [' ', ' '] ++ Nat.toDigits 10 n ++ ". ".toList ++ p.text := by
  simp only [Finding.line, finding, text, List.append_assoc]

/-- Problems are read back from what is written of them. -/
theorem lines_inj {n : Nat} : ∀ {ps qs : List Problem}, (∀ p ∈ ps, p.Sound) → (∀ q ∈ qs, q.Sound) →
    Finding.lines n (ps.map finding) = Finding.lines n (qs.map finding) → ps = qs
  | [], [], _, _, _ => rfl
  | p :: ps, q :: qs, hps, hqs, h => by
    obtain ⟨hline, hlines⟩ := List.cons.inj h
    rw [line_eq, line_eq] at hline
    rw [text_inj (hps p List.mem_cons_self) (hqs q List.mem_cons_self)
        (List.append_cancel_left hline),
      lines_inj (fun p' hp' => hps p' (List.mem_cons_of_mem p hp'))
        (fun q' hq' => hqs q' (List.mem_cons_of_mem q hq')) hlines]

end Problem

namespace Settings

variable {s : Settings}

/-- The check reports keys with the separator only if they have no blank. -/
theorem sound_of_mem_problems {p : Problem} (h : p ∈ s.problems) : p.Sound := by
  cases p with
  | separatorInKey k σ =>
    rcases keyProblem?_eq_some_iff.1 (keyProblem?_of_mem_problems h rfl) with
      ⟨-, hp⟩ | ⟨-, -, hp⟩ | ⟨-, hsolid, -, -⟩
    · cases hp
    · cases hp
    · exact space_not_mem hsolid
  | emptyKey | blankInKey | blankInQualifier => trivial

theorem sum_count_newline_eq_zero_iff (ks : List Text) :
    (ks.map fun k => k.count '\n').sum = 0 ↔ ∀ k ∈ ks, '\n' ∉ k := by
  rw [List.sum_eq_zero_iff_forall_eq_nat, List.forall_mem_map]
  simp only [List.count_eq_zero]

/-- Problems with keys without line feeds have none in their texts. -/
theorem breaks_of_mem_problems (h : ∀ k ∈ s.fields.keys, '\n' ∉ k) :
    ∀ f ∈ s.problems.map Problem.finding, f.breaks = 0 := by
  have hbreaks := s.sum_breaks
  rw [(sum_count_newline_eq_zero_iff _).2 h, List.sum_eq_zero_iff_forall_eq_nat,
    List.forall_mem_map] at hbreaks
  exact hbreaks

/-! ### The report -/

/-- The report of the check. -/
def report (s : Settings) : Text := (LoadError.invalid s.problems).message

theorem findings_ne_nil (h : s.isValid = false) : s.problems.map Problem.finding ≠ [] := by
  intro hnil
  rw [isValid, List.map_eq_nil_iff.1 hnil] at h
  cases h

theorem split_report_eq (h : s.isValid = false) : split ['\n'] s.report =
    Finding.heading :: (Finding.lines 1 (s.problems.map Problem.finding)).flatMap (split ['\n']) :=
  Finding.split_report (findings_ne_nil h)

theorem length_split_report (h : s.isValid = false) : (split ['\n'] s.report).length =
    s.problems.length + 1 + 2 * (s.fields.keys.map fun k => k.count '\n').sum := by
  rw [split_report_eq h, List.length_cons, Finding.length_flatMap_lines, List.length_map,
    sum_breaks]
  omega

/-- Without line feeds in the keys the report is the heading and one line for each problem. -/
theorem split_report_of_unbroken (h : s.isValid = false) (hkeys : ∀ k ∈ s.fields.keys, '\n' ∉ k) :
    split ['\n'] s.report =
      Finding.heading :: Finding.lines 1 (s.problems.map Problem.finding) := by
  rw [split_report_eq h, Finding.flatMap_lines (breaks_of_mem_problems hkeys)]

/-- The report of refused settings is the heading and, for each problem in turn, two spaces, its
number, a point and its path, and then what is wrong.  A line feed in a key breaks the text of its
problem in two places, so the report has two lines more for each of them; it has one line for each
problem exactly if no key has a line feed.  Then the lines are these texts, and all problems
are read back from them: settings with another list of problems have another report. -/
theorem report_by_line (h : s.isValid = false) :
    (split ['\n'] s.report =
      Finding.heading :: (s.problems.mapIdx Problem.entry).flatMap (split ['\n'])) ∧
    ((split ['\n'] s.report).length =
      s.problems.length + 1 + 2 * (s.fields.keys.map fun k => k.count '\n').sum) ∧
    ((split ['\n'] s.report).length = s.problems.length + 1 ↔ ∀ k ∈ s.fields.keys, '\n' ∉ k) ∧
    ((∀ k ∈ s.fields.keys, '\n' ∉ k) →
      split ['\n'] s.report = Finding.heading :: s.problems.mapIdx Problem.entry ∧
      ∀ s' : Settings, s'.isValid = false → (∀ k ∈ s'.fields.keys, '\n' ∉ k) →
        s'.report = s.report → s'.problems = s.problems) := by
  have hlength := length_split_report h
  refine ⟨?_, hlength, ?_, fun hkeys => ⟨?_, fun s' h' hkeys' hreport => ?_⟩⟩
  · rw [split_report_eq h, Problem.lines_one]
  · rw [← sum_count_newline_eq_zero_iff, hlength]
    omega
  · rw [split_report_of_unbroken h hkeys, Problem.lines_one]
  · have hsplit := congrArg (split ['\n']) hreport
    rw [split_report_of_unbroken h hkeys, split_report_of_unbroken h' hkeys'] at hsplit
    exact Problem.lines_inj (fun p => sound_of_mem_problems) (fun q => sound_of_mem_problems)
      (List.cons.inj hsplit).2

/-- Two keys and a variable that are refused. -/
def refused : Settings where
  qualifier := some "n m".toList
  fields := .ofList [("a b".toList, .of false [['x']]), ("a,b".toList, .of false [['y']])]

/-- The problems of `refused` beside a field that is none. -/
def refusedBeside : Settings where
  qualifier := some " n".toList
  fields := refused.fields.insert "uid".toList (.of false [['z']])

theorem report_by_line_refused :
    refused.isValid = false ∧ (∀ k ∈ refused.fields.keys, '\n' ∉ k) ∧
    split ['\n'] refused.report = [Finding.heading,
      Problem.entry 0 (.blankInKey "a b".toList),
      Problem.entry 1 (.separatorInKey "a,b".toList [',']),
      Problem.entry 2 .blankInQualifier] ∧
    refusedBeside.report = refused.report ∧ refusedBeside.problems = refused.problems := by
  have hrefused : refused.isValid = false := by decide +kernel
  have hkeys : ∀ k ∈ refused.fields.keys, '\n' ∉ k := by decide +kernel
  have hproblems : refused.problems =
    [.blankInKey "a b".toList, .separatorInKey "a,b".toList [','], .blankInQualifier] := by
      decide +kernel
  have hreport : refusedBeside.report = refused.report := by decide +kernel
  obtain ⟨-, -, -, hunbroken⟩ := report_by_line hrefused
  obtain ⟨hlines, hback⟩ := hunbroken hkeys
  rw [hproblems] at hlines
  refine ⟨hrefused, hkeys, hlines, hreport, ?_⟩
  exact hback refusedBeside (by decide +kernel) (by decide +kernel) hreport

/-- One key with a line feed. -/
def brokenKey : Settings where
  fields := .ofList [("a\nb".toList, .of false [['x']])]

/-- The report of one problem has four lines, and none of them has its number and its path. -/
theorem report_of_brokenKey :
    brokenKey.isValid = false ∧ brokenKey.problems = [.blankInKey "a\nb".toList] ∧
    split ['\n'] brokenKey.report = [
      "Configuration validation failed:".toList,
      "  1. fields.a".toList,
      "b - The field name 'a".toList,
      "b' contains whitespace and can never be requested".toList] ∧
    ¬(split ['\n'] brokenKey.report).length = brokenKey.problems.length + 1 ∧
    ∀ l ∈ split ['\n'] brokenKey.report,
      ¬"  1. ".toList ++ (Problem.blankInKey "a\nb".toList).path <+: l := by
  have hproblems : brokenKey.problems = [.blankInKey "a\nb".toList] := by decide +kernel
  have hlines : split ['\n'] brokenKey.report = [
      "Configuration validation failed:".toList,
      "  1. fields.a".toList,
      "b - The field name 'a".toList,
      "b' contains whitespace and can never be requested".toList] := by decide +kernel
  refine ⟨by decide +kernel, hproblems, hlines, ?_, ?_⟩
  · rw [hlines, hproblems]
    decide
  · rw [hlines]
    decide +kernel

end Settings
end SortClause
