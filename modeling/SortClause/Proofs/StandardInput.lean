import SortClause.Proofs.Candidates
import SortClause.Proofs.Runs
/-!
Directives on the standard input.  A line that holds a text is read as the text, perhaps without a
carriage return at its end (`exists_decode?_chomp`), which makes no difference to its clause
(`clause_congr`).  So an input gives the clauses of the texts on its lines (`output_lines`), up to
the first line that is not UTF-8 (`output_of_breaksAfter`).  Main statement: a run writes the same
for directives among its arguments and for these directives on lines of the input, and it fails at
a line that is not UTF-8, whatever comes after it (`run_input`).
-/
namespace SortClause

open Files

/-! ### Bytes and characters -/

namespace Text

/-- A character beyond the first 128 has no byte below 128. -/
theorem le_toNat_of_mem_utf8EncodeChar {c : Char} (hc : 128 ≤ c.toNat) {b : UInt8}
    (h : b ∈ String.utf8EncodeChar c) : 128 ≤ b.toNat := by
  have hval : ¬c.val.toNat ≤ 0x7f := by
    rw [Char.toNat_val]
    omega
  simp only [String.utf8EncodeChar, if_neg hval] at h
  split_ifs at h <;> simp only [List.mem_cons, List.not_mem_nil, or_false] at h
  · rcases h with rfl | rfl <;> rw [UInt8.toNat_ofNat'] <;> omega
  · rcases h with rfl | rfl | rfl <;> rw [UInt8.toNat_ofNat'] <;> omega
  · rcases h with rfl | rfl | rfl | rfl <;> rw [UInt8.toNat_ofNat'] <;> omega

/-- A byte below 128 is a character of its own. -/
theorem eq_ofNat_of_mem_utf8EncodeChar {c : Char} {b : UInt8} (h : b ∈ String.utf8EncodeChar c)
    (hb : b.toNat < 128) : c = Char.ofNat b.toNat ∧ String.utf8EncodeChar c = [b] := by
  have hc : c.toNat < 128 := by
    by_contra hlt
    have := le_toNat_of_mem_utf8EncodeChar (Nat.le_of_not_lt hlt) h
    omega
  have hval : c.val.toNat ≤ 0x7f := by
    rw [Char.toNat_val]
    omega
  simp only [String.utf8EncodeChar, if_pos hval, List.mem_singleton] at h ⊢
  subst h
  refine ⟨?_, rfl⟩
  have hbyte : c.val.toNat < 2 ^ 8 := Nat.lt_of_le_of_lt hval (by decide)
  rw [UInt8.toNat_ofNat', Nat.mod_eq_of_lt hbyte, Char.toNat_val, Char.ofNat_toNat]

theorem decode?_eq_some_iff {bs : List UInt8} {t : Text} : decode? bs = some t ↔ bs = encode t := by
  constructor
  · intro h
    obtain ⟨cs, hcs, rfl⟩ := Option.map_eq_some_iff.1 h
    have hget : bs.toByteArray.utf8Decode?.isSome = true := by rw [hcs]; rfl
    have hbytes := @ByteArray.utf8Encode_get_utf8Decode? bs.toByteArray hget
    simp only [hcs, Option.get_some] at hbytes
    exact (List.toByteArray_inj.1 hbytes).symm
  · rintro rfl
    exact decode?_encode t

theorem encode_append (t u : Text) : encode (t ++ u) = encode t ++ encode u := List.flatMap_append

/-- A line feed is a byte of the text exactly if it is one of its characters. -/
theorem newline_mem_encode_iff {t : Text} : 10 ∈ encode t ↔ '\n' ∈ t := by
  constructor
  · intro h
    obtain ⟨c, hc, hb⟩ := List.mem_flatMap.1 h
    obtain ⟨rfl, -⟩ := eq_ofNat_of_mem_utf8EncodeChar hb (by decide)
    exact hc
  · intro h
    exact List.mem_flatMap.2 ⟨'\n', h, by decide⟩

/-- A carriage return after bytes is one after their text. -/
theorem decode?_append_return (l : List UInt8) :
    decode? (l ++ [13]) = (decode? l).map (· ++ ['\r']) := by
  cases h : decode? l with
  | some t =>
    rw [decode?_eq_some_iff.1 h]
    exact decode?_eq_some_iff.2 (encode_append t ['\r']).symm
  | none =>
    rw [Option.map_none, Option.eq_none_iff_forall_ne_some]
    intro t ht
    -- The last character has the last byte, and so it is the carriage return and nothing else.
    have hbytes : l ++ [13] = encode t := decode?_eq_some_iff.1 ht
    rcases List.eq_nil_or_concat t with rfl | ⟨u, c, rfl⟩
    · simp [encode] at hbytes
    · have hc : encode [c] = String.utf8EncodeChar c := by simp [encode]
      rw [List.concat_eq_append, encode_append, hc] at hbytes
      have hlast : (String.utf8EncodeChar c).getLast? = some 13 := by
        rw [← List.getLast?_append_of_ne_nil (encode u) String.utf8EncodeChar_ne_nil, ← hbytes,
          List.getLast?_concat]
      obtain ⟨-, hone⟩ :=
        eq_ofNat_of_mem_utf8EncodeChar (List.mem_of_getLast? hlast) (by decide)
      rw [hone] at hbytes
      rw [List.append_cancel_right hbytes, decode?_encode] at h
      cases h

end Text

/-- Blanks around a directive make no difference to its clause. -/
theorem Settings.clause_congr (s : Settings) {t u : Text} (h : t.trim = u.trim) :
    s.clause t = s.clause u := by
  simp only [clause, Config.trace, candidates_congr h]

namespace Command

open Text

/-! ### Lines of bytes -/

/-- A line without a carriage return at its end. -/
def chomp (l : List UInt8) : List UInt8 := finishLine l.reverse

theorem chomp_eq_or (l : List UInt8) : chomp l = l ∨ l = chomp l ++ [13] := by
  rcases List.eq_nil_or_concat l with rfl | ⟨m, b, rfl⟩
  · exact .inl rfl
  · by_cases hb : b = 13
    · right
      simp [chomp, finishLine, hb]
    · left
      simp [chomp, finishLine, hb]

theorem linesFrom_append {l : List UInt8} (h : 10 ∉ l) (line r : List UInt8) :
    linesFrom line (l ++ 10 :: r) = finishLine (l.reverse ++ line) :: lines r := by
  induction l generalizing line with
  | nil => rfl
  | cons b l ih =>
    have hb : b ≠ 10 := (List.ne_of_not_mem_cons h).symm
    rw [List.cons_append, linesFrom, if_neg hb, ih (List.not_mem_of_not_mem_cons h)]
    simp

/-- A line feed ends the line before it. -/
theorem lines_append {l : List UInt8} (h : 10 ∉ l) (r : List UInt8) :
    lines (l ++ 10 :: r) = chomp l :: lines r := by
  rw [lines, linesFrom_append h, List.append_nil, chomp]

theorem linesFrom_of_not_mem {l : List UInt8} (h : 10 ∉ l) (line : List UInt8)
    (hne : l ≠ [] ∨ line ≠ []) : linesFrom line l = [line.reverse ++ l] := by
  induction l generalizing line with
  | nil => simpa [linesFrom] using hne
  | cons b l ih =>
    have hb : b ≠ 10 := (List.ne_of_not_mem_cons h).symm
    rw [linesFrom, if_neg hb, ih (List.not_mem_of_not_mem_cons h) _ (.inr (by simp))]
    simp

/-- The last line may go without a line feed. -/
theorem lines_of_not_mem {l : List UInt8} (h : 10 ∉ l) (hne : l ≠ []) : lines l = [l] := by
  rw [lines, linesFrom_of_not_mem h [] (.inl hne)]
  rfl

/-- What is at the end of a line does not make it UTF-8. -/
theorem decode?_chomp_eq_none_iff (l : List UInt8) :
    decode? (chomp l) = none ↔ decode? l = none := by
  rcases chomp_eq_or l with h | h
  · rw [h]
  · conv_rhs => rw [h, decode?_append_return, Option.map_eq_none_iff]

/-- The line that holds a text is read as the text, but perhaps for blanks at its end. -/
theorem exists_decode?_chomp (t : Text) :
    ∃ u, decode? (chomp (encode t)) = some u ∧ u.trim = t.trim := by
  rcases chomp_eq_or (encode t) with h | h
  · exact ⟨t, by rw [h, decode?_encode], rfl⟩
  · have hreturn := decode?_append_return (chomp (encode t))
    rw [← h, decode?_encode] at hreturn
    obtain ⟨u, hu, rfl⟩ := Option.map_eq_some_iff.1 hreturn.symm
    exact ⟨u, hu, (trim_append_of_blank (by decide) u).symm⟩

/-! ### What is written for an input -/

/-- The clauses of the lines of an input, and whether one of the lines is not UTF-8. -/
def output (s : Settings) (input : List UInt8) : Text × Bool :=
  (clauses s (textLines (lines input)).1, (textLines (lines input)).2)

/-- The input that holds each text on a line of its own. -/
def inputOf (ts : List Text) : List UInt8 := ts.flatMap fun t => encode t ++ [10]

variable {s : Settings}

theorem emit_of_no_directives {a : Arguments} (h : a.directives = []) (input : List UInt8) :
    emit a s input =
      if (output s input).2 then
        ⟨1, (output s input).1, some (report IoError.invalidText.message [])⟩
      else ⟨0, (output s input).1, some []⟩ := by
  rw [emit, if_pos h, output]
  rcases textLines (lines input) with ⟨ts, _ | _⟩ <;> rfl

theorem clauses_cons (s : Settings) (t : Text) (ts : List Text) :
    clauses s (t :: ts) = s.clause t ++ '\n' :: clauses s ts := by
  simp [clauses]

theorem output_line {t : Text} (h : '\n' ∉ t) (r : List UInt8) :
    output s (encode t ++ 10 :: r) = (s.clause t ++ '\n' :: (output s r).1, (output s r).2) := by
  obtain ⟨u, hu, htrim⟩ := exists_decode?_chomp t
  rw [output, lines_append (mt newline_mem_encode_iff.1 h)]
  simp only [textLines, hu, clauses_cons, s.clause_congr htrim, output]

/-- An input that begins with texts on lines gives their clauses first. -/
theorem output_lines (r : List UInt8) : ∀ ts : List Text, (∀ t ∈ ts, '\n' ∉ t) →
    output s (inputOf ts ++ r) = (clauses s ts ++ (output s r).1, (output s r).2)
  | [], _ => rfl
  | t :: ts, h => by
    have hinput : inputOf (t :: ts) ++ r = encode t ++ 10 :: (inputOf ts ++ r) := by
      simp [inputOf]
    rw [hinput, output_line (h t List.mem_cons_self),
      output_lines r ts fun u hu => h u (List.mem_cons_of_mem t hu), clauses_cons]
    simp

/-- The input holds the texts on its first lines, and then a line that is not UTF-8. -/
def BreaksAfter (ts : List Text) (input : List UInt8) : Prop :=
  (∀ t ∈ ts, '\n' ∉ t) ∧ ∃ bad rest, input = inputOf ts ++ (bad ++ rest) ∧
    10 ∉ bad ∧ decode? bad = none ∧ (rest = [] ∨ rest.head? = some 10)

/-- A line that is not UTF-8 is the end. -/
theorem output_bad {bad rest : List UInt8} (hline : 10 ∉ bad) (hbad : decode? bad = none)
    (hrest : rest = [] ∨ rest.head? = some 10) : output s (bad ++ rest) = ([], true) := by
  have hend : ∃ l ls, lines (bad ++ rest) = l :: ls ∧ decode? l = none := by
    rcases hrest with rfl | hrest
    · have hne : bad ≠ [] := by
        rintro rfl
        cases hbad
      exact ⟨bad, [], by rw [List.append_nil, lines_of_not_mem hline hne], hbad⟩
    · obtain ⟨r, rfl⟩ := List.head?_eq_some_iff.1 hrest
      exact ⟨chomp bad, lines r, lines_append hline r, (decode?_chomp_eq_none_iff bad).2 hbad⟩
  obtain ⟨l, ls, hlines, hl⟩ := hend
  simp only [output, hlines, textLines, hl]
  rfl

theorem output_of_breaksAfter {ts : List Text} {input : List UInt8} (h : BreaksAfter ts input) :
    output s input = (clauses s ts, true) := by
  obtain ⟨hts, bad, rest, rfl, hline, hbad, hrest⟩ := h
  rw [output_lines _ ts hts, output_bad hline hbad hrest, List.append_nil]

/-- Every input with a line that is not UTF-8 breaks there, at the first such line. -/
theorem exists_breaksAfter {input : List UInt8} (h : ∃ l ∈ lines input, decode? l = none) :
    ∃ ts, BreaksAfter ts input := by
  induction hn : input.length using Nat.strongRecOn generalizing input with
  | _ n ih =>
    obtain ⟨x, hx, hnone⟩ := h
    by_cases hfeed : 10 ∈ input
    · obtain ⟨l, r, rfl, hl⟩ := List.eq_append_cons_of_mem hfeed
      cases hdecode : decode? l with
      | none => exact ⟨[], by simp, l, 10 :: r, rfl, hl, hdecode, .inr rfl⟩
      | some t =>
        obtain rfl : l = encode t := decode?_eq_some_iff.1 hdecode
        rw [lines_append hl] at hx
        rcases List.mem_cons.1 hx with rfl | hx
        · rw [decode?_chomp_eq_none_iff, hdecode] at hnone
          cases hnone
        · have hlt : r.length < n := by
            rw [← hn, List.length_append, List.length_cons]
            omega
          obtain ⟨ts, hts, bad, rest, rfl, hbad⟩ := ih r.length hlt ⟨x, hx, hnone⟩ rfl
          refine ⟨t :: ts, ?_, bad, rest, by simp [inputOf], hbad⟩
          exact List.forall_mem_cons.2 ⟨mt newline_mem_encode_iff.2 hl, hts⟩
    · have hne : input ≠ [] := by
        rintro rfl
        cases hx
      rw [lines_of_not_mem hfeed hne, List.mem_singleton] at hx
      exact ⟨[], by simp, input, [], by simp [inputOf], hfeed, hx ▸ hnone, .inl rfl⟩

/-! ### Arguments and input -/

/-- The end of a line: a line feed, perhaps after a carriage return. -/
def lineEnd (carriageReturn : Bool) : List UInt8 := if carriageReturn then [13, 10] else [10]

/-- A carriage return before the line feed can be taken for a part of the text. -/
theorem flatMap_lineEnd (ls : List (Text × Bool)) :
    (ls.flatMap fun l => encode l.1 ++ lineEnd l.2) =
      inputOf (ls.map fun l => if l.2 then l.1 ++ ['\r'] else l.1) := by
  rw [inputOf, List.flatMap_map]
  refine List.flatMap_congr fun l _ => ?_
  have hreturn : encode ['\r'] = [13] := rfl
  rcases l with ⟨t, _ | _⟩ <;> simp [lineEnd, encode_append, hreturn]

theorem clauses_append_return (s : Settings) (ls : List (Text × Bool)) :
    clauses s (ls.map fun l => if l.2 then l.1 ++ ['\r'] else l.1) =
      clauses s (ls.map Prod.fst) := by
  rw [clauses, clauses, List.flatMap_map, List.flatMap_map]
  refine List.flatMap_congr fun l _ => ?_
  rcases l with ⟨t, _ | _⟩
  · rfl
  · have hreturn : (t ++ ['\r']).trim = t.trim := trim_append_of_blank (by decide) t
    simp [s.clause_congr hreturn]

/-- An input of texts on lines gives their clauses. -/
theorem output_inputOf {ts : List Text} (h : ∀ t ∈ ts, '\n' ∉ t) :
    output s (inputOf ts) = (clauses s ts, false) := by
  have hlines := output_lines (s := s) [] ts h
  rw [List.append_nil] at hlines
  rw [hlines]
  exact Prod.ext (List.append_nil _) rfl

/-- Directives that are added to none are the directives of the run. -/
theorem emit_addDirectives {a : Arguments} (h : a.directives = []) {ds : List Text} (hds : ds ≠ [])
    (s : Settings) (input : List UInt8) :
    emit (a.addDirectives ds) s input = ⟨0, clauses s ds, some []⟩ := by
  have hdirectives : (a.addDirectives ds).directives = ds := by simp [Arguments.addDirectives, h]
  rw [emit, hdirectives, if_neg hds]

variable {opts : List Text} {a : Arguments} {disk : Disk}

/-- Directives that stand among the arguments and directives that stand on lines of the standard
input, with a line feed or with a carriage return and a line feed after each, lead to the same
output and a good end.  At a line that is not UTF-8 a run fails, when it has written the clauses of
the lines before that one; what stands after it makes no difference. -/
theorem run_input (hread : Arguments.read opts = .ok a) (hdashes : Arguments.dashes ∉ opts)
    (hnone : a.directives = []) (hs : InForce a disk s) :
    (∀ ls : List (Text × Bool), ls ≠ [] → (∀ l ∈ ls, '\n' ∉ l.1) → ∀ input,
      run (opts ++ Arguments.dashes :: ls.map Prod.fst) disk input =
        ⟨0, clauses s (ls.map Prod.fst), some []⟩ ∧
      run opts disk (ls.flatMap fun l => encode l.1 ++ lineEnd l.2) =
        ⟨0, clauses s (ls.map Prod.fst), some []⟩) ∧
    (∀ input, (∃ l ∈ lines input, decode? l = none) → ∃ ts, BreaksAfter ts input) ∧
    ∀ ts input, BreaksAfter ts input →
      run opts disk input = ⟨1, clauses s ts, some (report IoError.invalidText.message [])⟩ := by
  refine ⟨fun ls hne hls input => ⟨?_, ?_⟩, fun input => exists_breaksAfter,
    fun ts input hbreaks => ?_⟩
  · have hadd : Arguments.read (opts ++ Arguments.dashes :: ls.map Prod.fst) =
        .ok (a.addDirectives (ls.map Prod.fst)) := by
      rw [Arguments.read, Arguments.readFrom_append_dashes _ {} hdashes]
      exact congrArg (Except.map _) hread
    have hds : ls.map Prod.fst ≠ [] := mt List.map_eq_nil_iff.1 hne
    rw [(hs.addDirectives _).run_eq hadd, emit_addDirectives hnone hds]
  · have hfeed : ∀ t ∈ ls.map fun l => if l.2 then l.1 ++ ['\r'] else l.1, '\n' ∉ t := by
      simp only [List.mem_map]
      rintro _ ⟨l, hl, rfl⟩
      have hmem := hls l hl
      split_ifs <;> simp [hmem]
    rw [hs.run_eq hread, emit_of_no_directives hnone, flatMap_lineEnd, output_inputOf hfeed,
      clauses_append_return]
    rfl
  · rw [hs.run_eq hread, emit_of_no_directives hnone, output_of_breaksAfter hbreaks]
    rfl

/-- Settings with a field that has a rule. -/
def aged : Settings where
  fields := .ofList [("age".toList, .of true ["born".toList])]

/-- A directive, an empty one, a blank one and one that ends in a carriage return. -/
def agedLines : List (Text × Bool) :=
  [("age desc".toList, false), ([], true), (" \t".toList, false), ("age\r".toList, true)]

theorem run_input_aged :
    Arguments.read ["--variable=n".toList] = .ok { qualifier := some ['n'] } ∧
    InForce { qualifier := some ['n'] } (holding aged) { aged with qualifier := some ['n'] } ∧
    run ["--variable=n".toList, "--".toList, "age desc".toList, [], " \t".toList, "age\r".toList]
      (holding aged) [] = ⟨0, "n.born ASC\n\n\nn.born DESC\n".toList, some []⟩ ∧
    run ["--variable=n".toList] (holding aged) (encode "age desc\n\r\n \t\nage\r\r\n".toList) =
      ⟨0, "n.born ASC\n\n\nn.born DESC\n".toList, some []⟩ ∧
    run ["--variable=n".toList] (holding aged) (encode "age\n".toList ++ [0xff, 10, 97, 103, 101]) =
      ⟨1, "n.born DESC\n".toList,
        some "Error: stream did not contain valid UTF-8\n".toList⟩ := by
  have hs : InForce { qualifier := some ['n'] } (holding aged)
      { aged with qualifier := some ['n'] } :=
    ⟨aged, found_holding _ aged, by decide, rfl, by decide⟩
  have hread : Arguments.read ["--variable=n".toList] = .ok { qualifier := some ['n'] } := by decide
  have law := run_input hread (by decide) rfl hs
  have hclauses : clauses { aged with qualifier := some ['n'] } (agedLines.map Prod.fst) =
      "n.born ASC\n\n\nn.born DESC\n".toList := by decide
  obtain ⟨hargs, hinput⟩ := law.1 agedLines (by decide) (by decide) []
  rw [hclauses] at hargs hinput
  have hbreaks : BreaksAfter ["age".toList]
      (encode "age\n".toList ++ [0xff, 10, 97, 103, 101]) :=
    ⟨by decide, [0xff], [10, 97, 103, 101], rfl, by decide, by decide, .inr rfl⟩
  exact ⟨hread, hs, hargs, hinput, (law.2.2 _ _ hbreaks).trans (by decide)⟩

end Command
end SortClause
