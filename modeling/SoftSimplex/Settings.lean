import SoftSimplex.Config
import SoftSimplex.Quantity
import SoftSimplex.Literal.Text

/-!
Settings as files hold them.

A file sets values by name. Priorities and a numeric tolerance are read as such; all other values are
kept unchecked, and names that are no settings are passed over. A few names are reserved: they stand
for what the settings are and not for what they say, and cannot be set (`reserved?`). Files are looked
for in several places, and the first that can be read counts.
-/

namespace SoftSimplex

/-- Why settings cannot be taken from a file. -/
inductive SettingsFault where
  /-- The file has no valid form. -/
  | unreadable
  | priority (fault : PriorityFault)
  /-- The tolerance is an integer too large for a double. -/
  | overflow
  /-- The name stands for something that only a value of a special type can be put in place of. -/
  | wrongType
  /-- The name stands for something that nothing can be put in place of. -/
  | fixed

/-- What is found where a file may be. -/
inductive SettingsFile where
  | absent
  /-- A file without valid form. -/
  | broken
  | entries (values : List (String × Literal))

/-- The settings. The values that are kept unchecked need not be of the right type. -/
structure Settings where
  tolerance : Literal := .number 1e-8
  maxStrength : Literal := Config.standard.maxStrength
  stayPriority : Priority := Config.standard.stayPriority
  editPriority : Priority := Config.standard.editPriority

namespace Settings

/-- The priority that is set. -/
def readPriority (value : Literal) : Except SettingsFault Priority :=
  match value.priority? with
  | .ok p => .ok p
  | .error fault => .error (.priority fault)

/-- The tolerance that is set. A number becomes a double, and a truth value counts as a number. -/
def readTolerance (value : Literal) : Except SettingsFault Literal :=
  match value.count? with
  | none => .ok value
  | some n =>
    match n.toDouble? with
    | some x => .ok (.number x)
    | none => .error .overflow

/-- A value as the setting of a name is kept. -/
def interpret (name : String) (value : Literal) : Except SettingsFault Literal :=
  if name.endsWith "_priority" then .priority <$> readPriority value
  else if name = "epsilon" then readTolerance value
  else .ok value

/-- Why a name cannot be set. -/
def reserved? : String → Option SettingsFault
  | "__class__" => some .wrongType
  | "__dict__" => some .wrongType
  | "__weakref__" => some .fixed
  | _ => none

/-- Replace one setting. Names that are no settings are passed over. -/
def set (settings : Settings) (name : String) (value : Literal) : Except SettingsFault Settings :=
  match name with
  | "epsilon" => return { settings with tolerance := ← readTolerance value }
  | "max_strength" => .ok { settings with maxStrength := value }
  | "stay_priority" => return { settings with stayPriority := ← readPriority value }
  | "edit_priority" => return { settings with editPriority := ← readPriority value }
  | _ =>
    match reserved? name with
    | some fault => .error fault
    | none => .ok settings

/-- The settings that differ from the standard ones by what a file lists. -/
def ofEntries (entries : List (String × Literal)) : Except SettingsFault Settings :=
  entries.foldlM (fun settings entry => settings.set entry.1 entry.2) {}

/-- The settings that differ from the standard ones by what a caller lists. The values of names that
are no settings are read too, and may be refused. -/
def ofOverrides (entries : List (String × Literal)) : Except SettingsFault Settings :=
  entries.foldlM
    (fun settings (name, value) => do
      let _ ← interpret name value
      settings.set name value)
    {}

/-- The settings of a file that was asked for; without the file they are the standard ones. -/
def ofFile : SettingsFile → Except SettingsFault Settings
  | .absent => .ok {}
  | .broken => .error .unreadable
  | .entries values => ofEntries values

/-- The settings of the first file that can be read, and how many broken ones were passed over. -/
def search : List SettingsFile → Except SettingsFault Settings × Nat
  | [] => (.ok {}, 0)
  | .absent :: rest => search rest
  | .broken :: rest =>
    let (settings, passed) := search rest
    (settings, passed + 1)
  | .entries values :: _ => (ofEntries values, 0)

/-- The settings as a solver takes them. -/
def config (settings : Settings) : Config Quantity :=
  let tolerance :=
    match settings.tolerance with
    | .number tolerance => some (.double tolerance)
    | _ => none
  { tolerance, maxStrength := settings.maxStrength, stayPriority := settings.stayPriority,
    editPriority := settings.editPriority,
    weights := fun strength => .double <$> Weights.tiers strength }

end Settings

/-- What is said when settings cannot be taken from a file. -/
def SettingsFault.message? : SettingsFault → Option String
  | .priority fault => some fault.message
  | .unreadable => none
  | .overflow => none
  | .wrongType => none
  | .fixed => none

end SoftSimplex
