import SortClause.Manager
import Mathlib.Data.List.Induction
/-!
What calls leave behind.  A call brings settings, whatever is in force: those in a file, the
defaults where there is no file, or given ones.  It either fails and changes nothing, or puts just
these settings into force, with the directory that it names if it is a load (`on_perform`).  Main
statement: after any calls, with any files, the state is that of the last ones that succeeded
(`run_eq_of_last`); failing calls leave no trace.
-/
namespace SortClause.Manager

open Files

/-- The settings that a call is about, valid or not. -/
def Call.source (disk : Disk) : Call → Except LoadError Settings
  | .loadDirectory none => .ok {}
  | .loadDirectory (some d) =>
    if disk.has (d.join Settings.fileName) then Settings.ofFile disk (d.join Settings.fileName)
    else .ok {}
  | .loadFile p => Settings.ofFile disk p
  | .update s => .ok s

/-- Where a load looks settings up; a replacement does not look anywhere. -/
def Call.place? : Call → Option (Option Path)
  | .loadDirectory dir => some dir
  | .loadFile p => some p.parent?
  | .update _ => none

/-- The settings that a call puts into force, or why it fails. -/
def Call.brings (disk : Disk) (c : Call) : Except LoadError Settings :=
  match c.source disk with
  | .error e => .error e
  | .ok s => if s.isValid then .ok s else .error (.invalid s.problems)

/-- The calls that succeed, each in the state that it finds. -/
def successes (m : Manager) : List (Disk × Call) → List (Disk × Call)
  | [] => []
  | c :: cs =>
    match m.call c.1 c.2 with
    | .ok () => c :: (m.step c).successes cs
    | .error _ => (m.step c).successes cs

/-! ### One call -/

variable {m : Manager} {c : Disk × Call}

theorem on_loadDirectory (disk : Disk) (dir : Option Path) : (loadDirectory disk dir).on m =
    match (Call.loadDirectory dir).source disk with
    | .error e => (.error e, m)
    | .ok s => if s.isValid then (.ok (), ⟨s, dir⟩) else (.error (.invalid s.problems), m) := by
  cases dir with
  | none => exact on_applyFrom m none {}
  | some d =>
    simp only [loadDirectory, Call.source]
    rw [on_bind, on_lift, Settings.ofDirectory]
    split_ifs
    · cases Settings.ofFile disk (d.join Settings.fileName) with
      | error e => rfl
      | ok s => exact on_applyFrom m (some d) s
    · exact on_applyFrom m (some d) {}

theorem on_loadFile (disk : Disk) (p : Path) : (loadFile disk p).on m =
    match Settings.ofFile disk p with
    | .error e => (.error e, m)
    | .ok s =>
      if s.isValid then (.ok (), ⟨s, p.parent?⟩) else (.error (.invalid s.problems), m) := by
  rw [loadFile, on_bind, on_lift]
  cases Settings.ofFile disk p with
  | error e => rfl
  | ok s => exact on_applyFrom m p.parent? s

/-- A call fails and changes nothing, or puts into force what it brings and nothing else. -/
theorem on_perform (disk : Disk) (c : Call) : (perform disk c).on m =
    match c.brings disk with
    | .error e => (.error e, m)
    | .ok s => (.ok (), ⟨s, c.place?.getD m.directory⟩) := by
  cases c with
  | loadDirectory dir =>
    rw [perform, on_loadDirectory, Call.brings]
    cases (Call.loadDirectory dir).source disk with
    | error e => rfl
    | ok s => dsimp only; split_ifs <;> rfl
  | loadFile p =>
    rw [perform, on_loadFile, Call.brings, Call.source]
    cases Settings.ofFile disk p with
    | error e => rfl
    | ok s => dsimp only; split_ifs <;> rfl
  | update s =>
    rw [perform, update, on_apply, Call.brings, Call.source]
    dsimp only
    split_ifs <;> rfl

/-- Whether a call succeeds does not depend on what is in force. -/
theorem call_eq (disk : Disk) (c : Call) : m.call disk c = (c.brings disk).map fun _ => () := by
  rw [call, on_perform]
  cases c.brings disk <;> rfl

/-- A call that fails changes nothing. -/
theorem step_of_error {e : LoadError} (h : m.call c.1 c.2 = .error e) : m.step c = m := by
  rw [call_eq] at h
  rw [step, on_perform]
  cases hb : c.2.brings c.1 with
  | error e' => rfl
  | ok s =>
    rw [hb] at h
    cases h

theorem Call.brings_eq_ok {disk : Disk} {c : Call} {s : Settings} :
    c.brings disk = .ok s ↔ c.source disk = .ok s ∧ s.isValid = true := by
  rw [brings]
  cases hs : c.source disk with
  | error e => simp
  | ok s' =>
    simp only [Except.ok.injEq]
    constructor
    · intro h
      split at h
      · rename_i hv
        obtain rfl := Except.ok.inj h
        exact ⟨rfl, hv⟩
      · cases h
    · rintro ⟨rfl, hv⟩
      rw [if_pos hv]

theorem call_eq_ok_iff {disk : Disk} {c : Call} :
    m.call disk c = .ok () ↔ ∃ s, c.brings disk = .ok s := by
  rw [call_eq]
  cases c.brings disk <;> simp [Except.map]

/-- A call that succeeds leaves its own settings, and the directory that it names if it names
one. -/
theorem step_of_ok (h : m.call c.1 c.2 = .ok ()) :
    c.2.source c.1 = .ok (m.step c).settings ∧ (m.step c).settings.isValid = true ∧
      (m.step c).directory = c.2.place?.getD m.directory := by
  obtain ⟨s, hb⟩ := call_eq_ok_iff.1 h
  have hstep : m.step c = ⟨s, c.2.place?.getD m.directory⟩ := by rw [step, on_perform, hb]
  obtain ⟨hsource, hvalid⟩ := Call.brings_eq_ok.1 hb
  rw [hstep]
  exact ⟨hsource, hvalid, rfl⟩

/-! ### Runs -/

variable {cs : List (Disk × Call)}

@[simp]
theorem run_nil (m : Manager) : m.run [] = m := rfl

@[simp]
theorem run_cons (m : Manager) (c : Disk × Call) (cs : List (Disk × Call)) :
    m.run (c :: cs) = (m.step c).run cs := rfl

theorem run_concat (m : Manager) (cs : List (Disk × Call)) (c : Disk × Call) :
    m.run (cs ++ [c]) = (m.run cs).step c := by
  rw [run, List.foldl_append]
  rfl

/-- The calls that succeed do so in any state: they bring settings that are valid. -/
theorem successes_eq_filter (m : Manager) (cs : List (Disk × Call)) :
    m.successes cs = cs.filter fun c => (c.2.brings c.1).isOk := by
  induction cs generalizing m with
  | nil => rfl
  | cons c cs ih =>
    rw [successes, call_eq, ih, List.filter_cons]
    cases c.2.brings c.1 <;> rfl

theorem successes_concat (m : Manager) (cs : List (Disk × Call)) (c : Disk × Call) :
    m.successes (cs ++ [c]) = m.successes cs ++
      match (m.run cs).call c.1 c.2 with
      | .ok () => [c]
      | .error _ => [] := by
  rw [successes_eq_filter, successes_eq_filter, List.filter_append, call_eq]
  cases hc : c.2.brings c.1 <;> simp [hc, Except.isOk, Except.toBool, Except.map]

/-- The calls that fail may be left out of a run. -/
theorem run_successes (m : Manager) (cs : List (Disk × Call)) :
    m.run (m.successes cs) = m.run cs := by
  induction cs generalizing m with
  | nil => rfl
  | cons c cs ih =>
    rw [successes, run_cons]
    cases h : m.call c.1 c.2 with
    | error e =>
      dsimp only
      rw [step_of_error h, ih]
    | ok u => exact ih (m.step c)

/-- The settings after a run are those of the last call that succeeded, whatever went before. -/
theorem settings_run (h : (m.successes cs).getLast? = some c) :
    c.2.source c.1 = .ok (m.run cs).settings := by
  -- From the end of the run: a last call that fails leaves the run before it to look at.
  induction cs using List.reverseRecOn with
  | nil => cases h
  | append_singleton cs d ih =>
    rw [successes_concat] at h
    rw [run_concat]
    cases hd : (m.run cs).call d.1 d.2 with
    | error e =>
      rw [hd] at h
      rw [step_of_error hd]
      exact ih (by simpa using h)
    | ok u =>
      rw [hd] at h
      obtain rfl : d = c := by simpa using h
      exact (step_of_ok hd).1

/-- The directory after a run is the one that the last load to succeed named. -/
theorem directory_run (m : Manager) (cs : List (Disk × Call)) : (m.run cs).directory =
    ((m.successes cs).filterMap (·.2.place?)).getLast?.getD m.directory := by
  induction cs using List.reverseRecOn with
  | nil => rfl
  | append_singleton cs d ih =>
    rw [run_concat, successes_concat]
    cases hd : (m.run cs).call d.1 d.2 with
    | error e =>
      rw [step_of_error hd, ih]
      simp
    | ok u =>
      rw [(step_of_ok hd).2.2, ih]
      cases hp : d.2.place? <;> simp [hp]

/-- In a run from any state a call that fails leaves the state as it was, so that the state at the
end is reached by the successful calls alone.  These are the calls with valid settings, whatever the
state at the beginning.  The settings at the end are wholly those of the last of them, and the
directory is the one that the last load among them named. -/
theorem run_eq_of_last (m : Manager) (cs : List (Disk × Call)) :
    (∀ before c e, (m.run before).call c.1 c.2 = .error e →
      m.run (before ++ [c]) = m.run before) ∧
    (∀ disk c, m.call disk c = .ok () ↔ ∃ s, c.source disk = .ok s ∧ s.isValid = true) ∧
    m.run (m.successes cs) = m.run cs ∧ m.successes (m.successes cs) = m.successes cs ∧
    (∀ m' : Manager, m'.successes cs = m.successes cs) ∧
    (m.successes cs = [] → m.run cs = m) ∧
    (∀ c, (m.successes cs).getLast? = some c → c.2.source c.1 = .ok (m.run cs).settings) ∧
    (m.run cs).directory =
      ((m.successes cs).filterMap fun c => c.2.place?).getLast?.getD m.directory := by
  refine ⟨fun before c e h => ?_, fun disk c => ?_, run_successes m cs, ?_,
    fun m' => ?_, fun h => ?_, fun c => settings_run, directory_run m cs⟩
  · rw [run_concat, step_of_error h]
  · simp only [call_eq_ok_iff, Call.brings_eq_ok]
  · simp only [successes_eq_filter, List.filter_filter, Bool.and_self]
  · rw [successes_eq_filter, successes_eq_filter]
  · rw [← run_successes, h, run_nil]

/-- A file with this text and nothing else. -/
def fileOnly (p : Path) (t : Text) : Disk := fun q =>
  if q = p then .present (.ok (Text.encode t)) else .absent .notFound

/-- A load of a file, a replacement, two calls that fail, and a load of a directory. -/
def mixed : List (Disk × Call) :=
  [(fileOnly "a/x.json".toList "[\";\"]".toList, .loadFile "a/x.json".toList),
    (fileOnly "x.json".toList "nope".toList, .update { targetSeparator := ['/'] }),
    (fileOnly "x.json".toList "nope".toList, .loadFile "x.json".toList),
    (fileOnly "x.json".toList "nope".toList, .update { qualifier := some "a b".toList }),
    (fileOnly "conf/.order-by.json".toList "[\"|\"]".toList, .loadDirectory (some "conf".toList))]

theorem run_eq_of_last_mixed :
    ({} : Manager).run (mixed.take 3) = ({} : Manager).run (mixed.take 2) ∧
    ({} : Manager).run (mixed.drop 2 |>.take 2) = {} ∧
    (({} : Manager).run (mixed.take 4)).settings = { targetSeparator := ['/'] } ∧
    (({} : Manager).run (mixed.take 4)).directory = some ['a'] ∧
    (({} : Manager).run mixed).settings = { sourceSeparator := ['|'] } ∧
    (({} : Manager).run mixed).directory = some "conf".toList := by
  obtain ⟨hfail, -, -, -, -, -, hreplaced, hkept⟩ := run_eq_of_last {} (mixed.take 4)
  obtain ⟨-, -, -, -, -, hnone, -, -⟩ := run_eq_of_last {} (mixed.drop 2 |>.take 2)
  obtain ⟨-, -, -, -, -, -, hloaded, hnoted⟩ := run_eq_of_last {} mixed
  obtain ⟨e, he⟩ : ∃ e, (({} : Manager).run (mixed.take 2)).call
      (fileOnly "x.json".toList "nope".toList) (.loadFile "x.json".toList) = .error e := ⟨_, rfl⟩
  exact ⟨hfail (mixed.take 2) _ e he, hnone rfl, (Except.ok.inj (hreplaced _ rfl)).symm,
    hkept.trans (by decide), (Except.ok.inj (hloaded _ rfl)).symm, hnoted.trans (by decide)⟩

end SortClause.Manager
