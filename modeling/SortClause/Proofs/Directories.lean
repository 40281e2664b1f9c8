import SortClause.Files.Tree
import SortClause.Proofs.Cutting
import SortClause.Proofs.History
import Mathlib.Data.List.DropRight
/-!
Settings by directory and by file.  A path is read through its components: a name added to a
directory is one component more (`components_join`), however the directory is written, and the
parent of a path is one component less (`exists_parent?`).  So the directory that is noted when the
settings file of a directory is loaded as a file is that directory, perhaps in another spelling.
Main statement: where a directory has a settings file, both ways of loading it have the same
outcome; where it has none, one puts the defaults into force and the other fails
(`loadDirectory_loadFile`).
-/
namespace SortClause

open Files Text

namespace Files.Path

/-- The components of the pieces between slashes. -/
def named (pieces : List Text) : List Component :=
  (pieces.filter fun x => !isIdle x).map componentOf

/-- The component that a path starts with before its first piece. -/
def leading (s : Text) : List Component :=
  if s = ['/'] then [.root] else if s = ['.'] then [.current] else []

/-- A text that is one piece of a path and stands for something. -/
structure Plain (name : Text) : Prop where
  slash_not_mem : '/' ∉ name
  not_idle : isIdle name = false

/-- Nothing, or a slash and what is below it. -/
def Below (r : Text) : Prop := r = [] ∨ ∃ r', r = '/' :: r'

/-- How a path may start, and what is left of it then. -/
inductive Starts : Text → Text → Prop
  | root (r : Text) : Starts ['/'] r
  | current {r : Text} (h : Below r) : Starts ['.'] r
  | name {r : Text} (hroot : r.head? ≠ some '/') (hdot : r ≠ ['.']) (hcurrent : ¬['.', '/'] <+: r) :
    Starts [] r

variable {p : Path} {s body : Text}

/-! ### The start of a path -/

theorem Starts.start_eq (h : Starts s body) : start (s ++ body) = (s, body) := by
  cases h with
  | root => rfl
  | current h => rcases h with rfl | ⟨r, rfl⟩ <;> rfl
  | name hroot hdot hcurrent =>
    rw [List.nil_append]
    unfold start
    split
    · exact absurd rfl hroot
    · exact absurd rfl hdot
    · rename_i r
      exact absurd ⟨r, rfl⟩ hcurrent
    · rfl

/-- Every path starts in one of these ways. -/
theorem exists_starts (p : Path) : ∃ s body, Starts s body ∧ p = s ++ body := by
  by_cases hroot : p.head? = some '/'
  · obtain ⟨r, rfl⟩ := List.head?_eq_some_iff.1 hroot
    exact ⟨['/'], r, .root r, rfl⟩
  · by_cases hdot : p = ['.']
    · exact ⟨['.'], [], .current (.inl rfl), hdot⟩
    · by_cases hcurrent : ['.', '/'] <+: p
      · obtain ⟨r, rfl⟩ := hcurrent
        exact ⟨['.'], '/' :: r, .current (.inr ⟨r, rfl⟩), rfl⟩
      · exact ⟨[], p, .name hroot hdot hcurrent, rfl⟩

theorem Starts.components_eq (h : Starts s body) :
    components (s ++ body) = leading s ++ named (split ['/'] body) := by
  rw [components, h.start_eq]
  rfl

theorem Starts.parent?_eq (h : Starts s body) : parent? (s ++ body) =
    match (dropIdle (split ['/'] body)).reverse with
    | _ :: before => some (s ++ Text.join ['/'] (dropIdle before.reverse))
    | [] => if s = ['.'] then some [] else none := by
  cases hp : (dropIdle (split ['/'] body)).reverse with
  | nil | cons => simp only [parent?, h.start_eq, hp]

/-- A path may end where it has started. -/
theorem Starts.nil (h : Starts s body) : Starts s [] := by
  cases h with
  | root => exact .root []
  | current => exact .current (.inl rfl)
  | name => exact .name (by simp) (by simp) (by simp)

/-- A path may end before a slash. -/
theorem Starts.of_append {r : Text} (h : Starts s (body ++ r)) (hr : Below r) : Starts s body := by
  cases h with
  | root => exact .root body
  | current h =>
    refine .current ?_
    cases body with
    | nil => exact .inl rfl
    | cons c body =>
      rcases h with h | ⟨r', h⟩
      · cases h
      · obtain ⟨rfl, -⟩ := List.cons.inj h
        exact .inr ⟨body, rfl⟩
  | name hroot hdot hcurrent =>
    refine .name (fun h => hroot ?_) (fun h => ?_) fun h => hcurrent ?_
    · rw [List.head?_append, h]
      rfl
    · subst h
      rcases hr with rfl | ⟨r', rfl⟩
      · exact hdot rfl
      · exact hcurrent ⟨r', rfl⟩
    · exact h.trans (List.prefix_append body r)

/-- A path may go on after a slash. -/
theorem Starts.append_slash (h : Starts s body) (hne : s ++ body ≠ []) (t : Text) :
    Starts s (body ++ '/' :: t) := by
  cases h with
  | root => exact .root _
  | current h =>
    refine .current (.inr ?_)
    rcases h with rfl | ⟨r, rfl⟩
    · exact ⟨t, rfl⟩
    · exact ⟨r ++ '/' :: t, rfl⟩
  | name hroot hdot hcurrent =>
    obtain ⟨c, r, rfl⟩ := List.exists_cons_of_ne_nil hne
    refine .name hroot (by simp) fun h => ?_
    obtain ⟨rfl, htail⟩ := List.cons_prefix_cons.1 h
    cases r with
    | nil => exact hdot rfl
    | cons d r =>
      obtain ⟨rfl, -⟩ := List.cons_prefix_cons.1 htail
      exact hcurrent ⟨r, rfl⟩

/-! ### Pieces -/

theorem named_append (ps qs : List Text) : named (ps ++ qs) = named ps ++ named qs := by
  simp [named]

theorem named_of_idle {x : Text} (h : isIdle x = true) : named [x] = [] := by
  simp [named, h]

theorem named_of_not_idle {x : Text} (h : isIdle x = false) : named [x] = [componentOf x] := by
  simp [named, h]

theorem componentOf_ne_root (x : Text) : componentOf x ≠ .root := by
  unfold componentOf
  split <;> simp

theorem Plain.named_split {name : Text} (h : Plain name) :
    named (split ['/'] name) = [componentOf name] := by
  rw [split_of_not_mem h.slash_not_mem, named_of_not_idle h.not_idle]

theorem dropIdle_eq (ps : List Text) : dropIdle ps = ps.rdropWhile isIdle := rfl

/-- Pieces that are idle at the end stand for nothing. -/
theorem named_dropIdle (ps : List Text) : named (dropIdle ps) = named ps := by
  induction ps using List.reverseRecOn with
  | nil => rfl
  | append_singleton ps x ih =>
    rw [dropIdle_eq, List.rdropWhile_concat]
    split_ifs with hx
    · rw [← dropIdle_eq, ih, named_append, named_of_idle hx, List.append_nil]
    · rfl

theorem isPrefix_dropIdle (ps : List Text) : dropIdle ps <+: ps := List.rdropWhile_prefix isIdle ps

/-- The last piece that is left is not idle. -/
theorem not_idle_of_dropIdle {ps before : List Text} {x : Text}
    (h : dropIdle ps = before ++ [x]) : isIdle x = false := by
  rw [dropIdle_eq] at h
  have hne : ps.rdropWhile isIdle ≠ [] := by simp [h]
  have hlast := List.rdropWhile_last_not isIdle ps hne
  simpa only [h, List.getLast_append_singleton, Bool.not_eq_true] using hlast

/-! ### Shorter and longer paths -/

/-- The first pieces of a path are what it may end with. -/
theorem Starts.join (h : Starts s body) {qs : List Text} (hqs : qs <+: split ['/'] body) :
    Starts s (Text.join ['/'] qs) := by
  obtain ⟨rest, hrest⟩ := hqs
  have hbody : body = Text.join ['/'] (qs ++ rest) := by rw [hrest, join_split]
  by_cases hne : qs = []
  · rw [hne]
    exact h.nil
  · by_cases hnil : rest = []
    · rwa [hbody, hnil, List.append_nil] at h
    · rw [hbody, join_append_of_ne_nil ['/'] hnil hne, List.append_assoc] at h
      exact h.of_append (.inr ⟨_, rfl⟩)

/-- What follows a slash adds its own components. -/
theorem components_append_slash {dir : Path} (hne : dir ≠ []) (t : Text) :
    components (dir ++ '/' :: t) = dir.components ++ named (split ['/'] t) := by
  obtain ⟨s, body, h, rfl⟩ := exists_starts dir
  rw [List.append_assoc, (h.append_slash hne t).components_eq, h.components_eq, split_append_cons,
    named_append, List.append_assoc]

/-- A name added to a directory is one component more. -/
theorem components_join {name : Text} (h : Plain name) (dir : Path) :
    (dir.join name).components = dir.components ++ [componentOf name] := by
  have hname := h.named_split
  unfold join
  split_ifs with hdir
  · rcases hdir with rfl | hlast
    · have hstarts : Starts [] name := by
        refine .name (fun hhead => ?_) (fun heq => ?_) fun hpre => ?_
        · exact h.slash_not_mem (List.mem_of_mem_head? hhead)
        · rw [heq] at h
          exact absurd h.not_idle (by decide)
        · exact h.slash_not_mem (hpre.subset (by simp))
      exact hstarts.components_eq.trans hname
    · obtain ⟨dir, rfl⟩ := List.getLast?_eq_some_iff.1 hlast
      rw [List.append_assoc, List.singleton_append]
      by_cases hne : dir = []
      · subst hne
        exact (Starts.root name).components_eq.trans (congrArg _ hname)
      · rw [components_append_slash hne, components_append_slash hne, hname, List.append_assoc]
        rfl
  · rw [components_append_slash (not_or.1 hdir).1, hname]

/-- Pieces are read back from a path that is made of them. -/
theorem named_split_join {qs : List Text} (h : ∀ x ∈ qs, '/' ∉ x) :
    named (split ['/'] (Text.join ['/'] qs)) = named qs := by
  by_cases hne : qs = []
  · rw [hne]
    rfl
  · rw [split_join (List.cons_ne_nil _ _) (unbordered_singleton '/') hne]
    exact fun x hx hin => h x hx ((List.singleton_infix_iff '/' x).1 hin)

/-- The parent of a path with a last component is the path of the others. -/
theorem exists_parent? {cs : List Component} {c : Component} (h : p.components = cs ++ [c])
    (hc : c ≠ .root) : ∃ q, p.parent? = some q ∧ q.components = cs := by
  obtain ⟨s, body, hstarts, rfl⟩ := exists_starts p
  rw [hstarts.components_eq, ← named_dropIdle] at h
  rw [hstarts.parent?_eq]
  rcases List.eq_nil_or_concat' (dropIdle (split ['/'] body)) with hnil | ⟨before, x, hbefore⟩
  · -- Without a piece that stands for something there is only the dot at the start.
    have hlast : leading s = cs ++ [c] := by rwa [hnil, show named [] = [] from rfl,
      List.append_nil] at h
    cases hstarts with
    | root =>
      obtain ⟨-, hroot⟩ := List.append_inj' (show [] ++ [.root] = cs ++ [c] from hlast) rfl
      exact absurd (List.cons.inj hroot).1.symm hc
    | current =>
      obtain ⟨rfl, -⟩ := List.append_inj' (show [] ++ [.current] = cs ++ [c] from hlast) rfl
      exact ⟨[], by rw [hnil]; rfl, rfl⟩
    | name => exact absurd hlast.symm (List.append_ne_nil_of_right_ne_nil cs (by simp))
  · rw [hbefore, named_append, named_of_not_idle (not_idle_of_dropIdle hbefore),
      ← List.append_assoc] at h
    obtain ⟨hcs, -⟩ := List.append_inj' h rfl
    have hpre : dropIdle before <+: split ['/'] body :=
      (isPrefix_dropIdle before).trans
        ((List.prefix_append before [x]).trans (hbefore ▸ isPrefix_dropIdle _))
    refine ⟨s ++ Text.join ['/'] (dropIdle before), by simp [hbefore], ?_⟩
    rw [(hstarts.join hpre).components_eq, named_split_join, named_dropIdle, hcs]
    exact fun y hy => not_mem_of_mem_split (hpre.subset hy)

/-- The parent of a path in a directory is the directory, perhaps in another spelling. -/
theorem exists_parent?_join {name : Text} (h : Plain name) (dir : Path) :
    ∃ q, (dir.join name).parent? = some q ∧ q.components = dir.components :=
  exists_parent? (components_join h dir) (componentOf_ne_root name)

end Files.Path

theorem Settings.plain_fileName : Path.Plain fileName := ⟨by decide, by decide⟩

/-- What cannot be examined cannot be read. -/
theorem Settings.ofFile_of_not_has {disk : Disk} {p : Path} (h : disk.has p = false) :
    ∃ e, ofFile disk p = .error (.unreadable e) := by
  cases hp : disk p with
  | present content => simp [Disk.has, hp] at h
  | absent e => exact ⟨e, by simp [ofFile, Disk.readText, Disk.read, hp]⟩

namespace Manager

/-- Where a directory has a settings file, loading the directory brings what loading the file
brings. -/
theorem Call.brings_loadDirectory {disk : Disk} {dir : Path}
    (h : disk.has (dir.join Settings.fileName) = true) :
    (Call.loadDirectory (some dir)).brings disk =
      (Call.loadFile (dir.join Settings.fileName)).brings disk := by
  have hsource : (Call.loadDirectory (some dir)).source disk =
      (Call.loadFile (dir.join Settings.fileName)).source disk := if_pos h
  rw [brings, brings, hsource]

/-- Where a directory has a settings file, loading the directory and loading the file come to the
same.  If the file brings no settings, for one reason or another, both fail for this reason and
change nothing.  If it brings some, both put these into force, and the directories that they note
are one path, though it may be written in two ways.  Where a directory has no settings file, or none
that can be examined, loading the directory puts the defaults into force and notes the directory as
it is written, and loading the file fails, as there is nothing to read, and changes nothing. -/
theorem loadDirectory_loadFile (disk : Disk) (m : Manager) (dir : Path) :
    let file := dir.join Settings.fileName
    let byDirectory := (loadDirectory disk (some dir)).on m
    let byFile := (loadFile disk file).on m
    (disk.has file = true →
      (∃ e, (Call.loadFile file).brings disk = .error e ∧
        byDirectory = (.error e, m) ∧ byFile = (.error e, m)) ∨
      ∃ s parent, (Call.loadFile file).brings disk = .ok s ∧
        byDirectory = (.ok (), ⟨s, some dir⟩) ∧ byFile = (.ok (), ⟨s, some parent⟩) ∧
        parent.components = dir.components) ∧
    (disk.has file = false →
      byDirectory = (.ok (), ⟨{}, some dir⟩) ∧ ∃ e, byFile = (.error (.unreadable e), m)) := by
  intro file byDirectory byFile
  have hdirectory : byDirectory = _ := on_perform disk (.loadDirectory (some dir))
  have hfile : byFile = _ := on_perform disk (.loadFile file)
  constructor
  · intro hhas
    obtain ⟨parent, hparent, hcomponents⟩ := Path.exists_parent?_join Settings.plain_fileName dir
    have hplace : (Call.loadFile file).place? = some (some parent) := congrArg some hparent
    rw [hdirectory, hfile, Call.brings_loadDirectory hhas, hplace]
    cases (Call.loadFile file).brings disk with
    | error e => exact .inl ⟨e, rfl, rfl, rfl⟩
    | ok s => exact .inr ⟨s, parent, rfl, rfl, rfl, hcomponents⟩
  · intro hhas
    obtain ⟨e, he⟩ := Settings.ofFile_of_not_has hhas
    have hbrings : (Call.loadFile file).brings disk = .error (.unreadable e) := by
      rw [Call.brings, Call.source, he]
    have hdefaults : (Call.loadDirectory (some dir)).source disk = .ok {} :=
      if_neg (Bool.eq_false_iff.1 hhas)
    have hvalid : ({} : Settings).isValid = true := by decide
    rw [hdirectory, hfile, hbrings, Call.brings_eq_ok.2 ⟨hdefaults, hvalid⟩]
    exact ⟨rfl, e, rfl⟩

/-- A tree with the settings file of one directory. -/
def treed : Disk :=
  (({} : Tree).write "conf/.order-by.json".toList (encode "[\"|\"]".toList)).disk []

/-- The directory may be written with a dot at its end; a file has nothing in it. -/
theorem loadDirectory_loadFile_treed :
    treed.has (Path.join "conf/.".toList Settings.fileName) = true ∧
    (loadDirectory treed (some "conf/.".toList)).on {} =
      (.ok (), ⟨{ sourceSeparator := ['|'] }, some "conf/.".toList⟩) ∧
    (∃ parent, (loadFile treed "conf/./.order-by.json".toList).on {} =
      (.ok (), ⟨{ sourceSeparator := ['|'] }, some parent⟩) ∧
      Path.components parent = Path.components "conf/.".toList) ∧
    treed.has (Path.join "conf/.order-by.json".toList Settings.fileName) = false ∧
    (loadDirectory treed (some "conf/.order-by.json".toList)).on {} =
      (.ok (), ⟨{}, some "conf/.order-by.json".toList⟩) := by
  have hhas : treed.has (Path.join "conf/.".toList Settings.fileName) = true := by decide
  have hnot : treed.has (Path.join "conf/.order-by.json".toList Settings.fileName) = false := by
    decide
  have hbrings : (Call.loadFile (Path.join "conf/.".toList Settings.fileName)).brings treed =
      .ok { sourceSeparator := ['|'] } := rfl
  rcases (loadDirectory_loadFile treed {} "conf/.".toList).1 hhas with
    ⟨e, he, -⟩ | ⟨s, parent, hs, hdirectory, hfile, hcomponents⟩
  · rw [hbrings] at he
    cases he
  · rw [hbrings] at hs
    obtain rfl := Except.ok.inj hs
    exact ⟨hhas, hdirectory, ⟨parent, hfile, hcomponents⟩, hnot,
      ((loadDirectory_loadFile treed {} "conf/.order-by.json".toList).2 hnot).1⟩

end Manager
end SortClause
