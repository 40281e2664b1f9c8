import SortClause.Proofs.Runs
/-!
Members given as options.  Given members stand in place of those of the settings that a run finds,
and these then pass the check unless a given member is at fault.  Main statement: a run is refused
over its given members exactly if one of them is at fault, and otherwise it is the run for a file
that the members are written in (`run_overridden`).
-/
namespace SortClause.Command

open Files Text

/-- No member is given. -/
def Arguments.Bare (a : Arguments) : Prop :=
  a.qualifier = none ∧ a.sourceSeparator = none ∧ a.targetSeparator = none

/-- The run fails over given members, with nothing written. -/
def Refused (o : Outcome) : Prop :=
  ∃ causes, o = ⟨1, [], some (report "applying command-line overrides".toList causes)⟩

/-! ### Reports -/

/-- A report begins with what was being done. -/
theorem exists_report (context : Text) (causes : List Text) :
    ∃ r, report context causes = "Error: ".toList ++ (context ++ r) :=
  ⟨_, (List.append_assoc _ _ _).trans (List.append_assoc _ _ _)⟩

theorem report_ne {x y : Char} (h : x ≠ y) (c d : Text) (cs ds : List Text) :
    report (x :: c) cs ≠ report (y :: d) ds := by
  intro heq
  obtain ⟨r, hr⟩ := exists_report (x :: c) cs
  obtain ⟨l, hl⟩ := exists_report (y :: d) ds
  have hletters := List.append_cancel_left (hr.symm.trans (heq.trans hl))
  exact h (List.cons.inj hletters).1

/-- A run that comes to its directives is not refused, though a line of the input may stop it. -/
theorem not_refused_emit (a : Arguments) (s : Settings) (input : List UInt8) :
    ¬Refused (emit a s input) := by
  rintro ⟨causes, h⟩
  rw [emit] at h
  split_ifs at h
  · split at h
    · cases h
    · have hreport := Option.some.inj (congrArg Outcome.stderr h)
      exact report_ne (by decide : 's' ≠ 'a') _ _ [] causes hreport
  · cases h

/-! ### Runs with given members -/

variable {args : List Text} {a b : Arguments} {disk : Disk} {s : Settings}

theorem override_of_bare (h : a.Bare) (s : Settings) : override a s = s := by
  obtain ⟨hqualifier, hsource, htarget⟩ := h
  simp [override, hqualifier, hsource, htarget]

/-- The separator for fragments is never at fault. -/
theorem not_clash_of_none (hqualifier : a.qualifier = none) (hsource : a.sourceSeparator = none) :
    ¬Clash a s := by
  simp [Clash, hqualifier, hsource]

theorem emit_congr (h : a.directives = b.directives) (s : Settings) (input : List UInt8) :
    emit a s input = emit b s input := by
  rw [emit, emit, h]

/-- Without a fault, the settings with the given members are in force. -/
theorem inForce_override (hfound : found a disk = .ok s) (hvalid : s.isValid = true)
    (hclash : ¬Clash a s) : InForce a disk (override a s) :=
  ⟨s, hfound, hvalid, rfl, (isValid_override_iff hvalid).2 hclash⟩

/-- A run is refused over a fault of the given members and nothing else. -/
theorem refused_run_iff (hread : Arguments.read args = .ok a) (hfound : found a disk = .ok s)
    (hvalid : s.isValid = true) (input : List UInt8) :
    Refused (run args disk input) ↔ Clash a s := by
  by_cases hclash : Clash a s
  · have hfails : (override a s).isValid = false :=
      Bool.eq_false_iff.2 fun h => (isValid_override_iff hvalid).1 h hclash
    have hrun : run args disk input = failed "applying command-line overrides".toList
        (.invalid (override a s).problems) := by
      simp [run, hread, runWith_eq, hfound, hvalid, hfails]
    exact iff_of_true ⟨_, hrun⟩ hclash
  · rw [(inForce_override hfound hvalid hclash).run_eq hread]
    exact iff_of_false (not_refused_emit a _ input) hclash

/-- Where settings are found and pass the check, a run is refused over its given members exactly if
one of them is at fault, which can be the variable or the separator for directives.  If none is,
then the run is that without given members for a file which has these members in its document.
Where no such settings are found a run fails, whatever members are given. -/
theorem run_overridden (hread : Arguments.read args = .ok a) (disk : Disk) :
    (∀ s, found a disk = .ok s → s.isValid = true →
      (∀ input, Refused (run args disk input) ↔ Clash a s) ∧
      (a.qualifier = none → a.sourceSeparator = none →
        ∀ input, ¬Refused (run args disk input)) ∧
      (¬Clash a s → ∀ args' a' disk' es, Arguments.read args' = .ok a' → a'.Bare →
        a'.directives = a.directives → es.Perm s.fields.entries →
        disk' (settingsPath a') = .present (.ok (encode (Settings.listing
          { sourceSeparator := a.sourceSeparator.getD s.sourceSeparator
            targetSeparator := a.targetSeparator.getD s.targetSeparator
            qualifier := a.qualifier.or s.qualifier
            fields := s.fields } es).text)) →
        ∀ input, run args disk input = run args' disk' input)) ∧
    ((∀ s, found a disk = .ok s → s.isValid = false) →
      ∀ input, (run args disk input).code = 1 ∧ (run args disk input).stdout = []) := by
  refine ⟨fun s hfound hvalid => ?_, fun hnone input => ?_⟩
  · have hrefused := refused_run_iff hread hfound hvalid
    refine ⟨hrefused, fun hqualifier hsource input => ?_, ?_⟩
    · exact mt (hrefused input).1 (not_clash_of_none hqualifier hsource)
    · intro hclash args' a' disk' es hread' hbare hdirectives hes hfile input
      have hforce := inForce_override hfound hvalid hclash
      have hfound' : found a' disk' = .ok (override a s) := found_of_listing hes hfile
      -- The file has passed the check, as it holds what is in force here.
      have hforce' : InForce a' disk' (override a s) :=
        ⟨override a s, hfound', (isValid_override_iff hvalid).2 hclash,
          (override_of_bare hbare _).symm, (isValid_override_iff hvalid).2 hclash⟩
      rw [hforce.run_eq hread, hforce'.run_eq hread', emit_congr hdirectives.symm]
  · have hrun : run args disk input = runWith a disk input := by rw [run, hread]
    rw [hrun, runWith_eq]
    cases hfound : found a disk with
    | error e => exact ⟨rfl, rfl⟩
    | ok s =>
      simp only [hnone s hfound, if_true]
      exact ⟨rfl, rfl⟩

/-- Settings with a bar in a key, which is at fault if directives are cut at bars. -/
def barred : Settings where
  fields := .ofList [("a|b".toList, .of false [['x']]), (['c'], .of true [['y']])]

/-- Members for them, with a directive. -/
def barredArguments : List Text :=
  ["--variable=n".toList, "--source-separator=;".toList, "--target-separator=/".toList,
    "a|b;c".toList]

theorem run_overridden_barred :
    run barredArguments (holding barred) [] =
      run ["--config=p".toList, "--".toList, "a|b;c".toList]
        (holding ⟨[';'], ['/'], some ['n'], barred.fields⟩) [] ∧
    run ["--config=p".toList, "--".toList, "a|b;c".toList]
      (holding ⟨[';'], ['/'], some ['n'], barred.fields⟩) [] =
        ⟨0, "n.x ASC/n.y DESC\n".toList, some []⟩ ∧
    Refused (run ["--source-separator=|".toList] (holding barred) []) ∧
    Refused (run ["--variable= ".toList] (fun _ => .absent .notFound) []) ∧
    ¬Refused (run ["--target-separator=|".toList] (holding barred) []) ∧
    (run ["--variable= ".toList] (fun _ => .present (.error .isDirectory)) []).stdout = [] := by
  have hread : Arguments.read barredArguments =
      .ok ⟨none, some ['n'], some [';'], some ['/'], ["a|b;c".toList]⟩ := by decide
  have hconfig := Arguments.read_config (by decide : ['p'] ≠ []) ["a|b;c".toList]
  have hbar : Arguments.read ["--source-separator=|".toList] =
      .ok { sourceSeparator := some ['|'] } := by decide
  have htarget : Arguments.read ["--target-separator=|".toList] =
      .ok { targetSeparator := some ['|'] } := by decide
  have hblank : Arguments.read ["--variable= ".toList] = .ok { qualifier := some [' '] } := by
    decide
  have hvalid : barred.isValid = true := by decide
  have hclash : ¬Clash ⟨none, some ['n'], some [';'], some ['/'], ["a|b;c".toList]⟩ barred :=
    (isValid_override_iff hvalid).1 (by decide)
  have hforce : InForce { config := some ['p'], directives := ["a|b;c".toList] }
      (holding ⟨[';'], ['/'], some ['n'], barred.fields⟩)
      ⟨[';'], ['/'], some ['n'], barred.fields⟩ :=
    ⟨_, found_holding _ _, by decide, rfl, by decide⟩
  have law := fun {args a} (h : Arguments.read args = .ok a) =>
    (run_overridden h (holding barred)).1 barred (found_holding a barred) hvalid
  have law_none := (run_overridden hblank fun _ => .absent .notFound).1 {} rfl (by decide)
  have law_bad := (run_overridden hblank fun _ => .present (.error .isDirectory)).2
  refine ⟨?_, (hforce.run_eq hconfig []).trans (by decide), ?_, ?_, ?_, ?_⟩
  · exact (law hread).2.2 hclash _ _ _ _ hconfig ⟨rfl, rfl, rfl⟩ rfl (List.Perm.refl _) rfl []
  · exact ((law hbar).1 []).2 (.inr ⟨['|'], rfl, by decide, "a|b".toList, by decide, by decide⟩)
  · exact (law_none.1 []).2 (.inl ⟨[' '], rfl, ' ', by decide, by decide⟩)
  · exact (law htarget).2.1 rfl rfl []
  · exact (law_bad (by rintro s ⟨⟩) []).2

end SortClause.Command
