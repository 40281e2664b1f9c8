import SortClause.Loading
/-!
The settings in force, and the directory they were looked up in.  They change by three calls:
loading from a directory, loading from a file and replacing them by given ones.  Settings come into
force only if they are valid.  A call writes the settings first and the directory after them, and
nothing is taken back when it fails; the lemmas say what each kind of action writes (`on_bind`,
`on_applyFrom`).
-/
namespace SortClause

open Files

/-- The settings in force and where they come from. -/
structure Manager where
  settings : Settings := {}
  directory : Option Path := none
  deriving DecidableEq

namespace Manager

instance : Inhabited Manager := ⟨{}⟩

/-- Something done to a manager that may fail on the way.  What it wrote before stays written. -/
abbrev Action := ExceptT LoadError (StateM Manager)

/-- The outcome of an action, and the manager it leaves behind. -/
def Action.on {α : Type} (a : Action α) (m : Manager) : Except LoadError α × Manager :=
  (ExceptT.run a).run m

/-- Puts settings into force if they are valid. -/
def apply (s : Settings) : Action Unit := do
  unless s.isValid do throw (.invalid s.problems)
  modify fun m => { m with settings := s }

/-- Puts settings into force and then notes the directory that they come from. -/
def applyFrom (dir : Option Path) (s : Settings) : Action Unit := do
  apply s
  modify fun m => { m with directory := dir }

/-- Replaces the settings in force. -/
def update (s : Settings) : Action Unit := apply s

/-- Loads the settings file of a directory, the defaults if there is none. -/
def loadDirectory (disk : Disk) (dir : Option Path) : Action Unit := do
  let found ← match dir with
    | some d => Settings.ofDirectory disk d
    | none => pure none
  applyFrom dir (found.getD {})

/-- Loads a file; the directory is the one it lies in. -/
def loadFile (disk : Disk) (p : Path) : Action Unit := do
  let s ← Settings.ofFile disk p
  applyFrom p.parent? s

/-- A request to change the settings in force. -/
inductive Call where
  | loadDirectory (dir : Option Path)
  | loadFile (p : Path)
  | update (s : Settings)

/-- What a call does, with the files as they are at the time. -/
def perform (disk : Disk) : Call → Action Unit
  | .loadDirectory dir => Manager.loadDirectory disk dir
  | .loadFile p => Manager.loadFile disk p
  | .update s => Manager.update s

/-- The outcome of a call. -/
def call (disk : Disk) (m : Manager) (c : Call) : Except LoadError Unit := ((perform disk c).on m).1

/-- The state after a call, whether it fails or not. -/
def step (m : Manager) (c : Disk × Call) : Manager := ((perform c.1 c.2).on m).2

/-- The state after calls from the first to the last. -/
def run (m : Manager) (cs : List (Disk × Call)) : Manager := cs.foldl step m

/-! ### What actions write -/

variable {α β : Type} (m : Manager)

/-- A failure ends an action, and the manager stays as it is by then. -/
theorem on_bind (a : Action α) (f : α → Action β) :
    (a >>= f).on m = match a.on m with
      | (.ok x, m') => (f x).on m'
      | (.error e, m') => (.error e, m') := by
  rw [Action.on, ExceptT.run_bind, StateT.run_bind]
  rcases h : (ExceptT.run a).run m with ⟨_ | _, _⟩ <;> simp only [Action.on, h] <;> rfl

theorem on_lift (x : Except LoadError α) : (liftM x : Action α).on m = (x, m) := rfl

theorem on_apply (s : Settings) : (apply s).on m =
    if s.isValid then (.ok (), { m with settings := s })
    else (.error (.invalid s.problems), m) := by
  unfold apply
  cases s.isValid <;> rfl

/-- The directory is not noted unless the settings are in force. -/
theorem on_applyFrom (dir : Option Path) (s : Settings) : (applyFrom dir s).on m =
    if s.isValid then (.ok (), ⟨s, dir⟩) else (.error (.invalid s.problems), m) := by
  rw [applyFrom, on_bind, on_apply]
  cases s.isValid <;> rfl

end Manager
end SortClause
