import Mathlib
import VcmpLua.Lib.Writes
import VcmpLua.Model.Runtime.ConfigReader

/-! # The documented settings

What a config table means: the default config with each documented setting replaced by the value
under its key, looked up by the whole key. A table has one value under a key, so this does not speak
of an order; a setting that cannot be read, and a group that is not a table, give no config.
-/

namespace VcmpLua.Spec

open VcmpLua.Model.Core VcmpLua.Model.Lua VcmpLua.Model.Runtime

inductive Setting where
  | scripts | packagePath | level | file | daily | cafile
deriving DecidableEq, Repr

def documented : List Setting := [.scripts, .packagePath, .level, .file, .daily, .cafile]

def groups : List String := ["log", "http"]

/-- The table that a setting is in, if not the config table itself, and its key. -/
def Setting.path : Setting → Option String × String
  | .scripts => (none, "scripts")
  | .packagePath => (none, "package_path")
  | .level => (some "log", "level")
  | .file => (some "log", "file")
  | .daily => (some "log", "daily")
  | .cafile => (some "http", "cafile")

/-- A setting with its value. -/
inductive Assignment where
  | scripts (value : List Text)
  | packagePath (value : Text)
  | level (value : Level)
  | file (value : Text)
  | daily (value : Bool)
  | cafile (value : Text)
deriving DecidableEq, Repr

def Assignment.setting : Assignment → Setting
  | .scripts _ => .scripts
  | .packagePath _ => .packagePath
  | .level _ => .level
  | .file _ => .file
  | .daily _ => .daily
  | .cafile _ => .cafile

def assign (config : Config) : Assignment → Config
  | .scripts scripts => { config with scripts }
  | .packagePath packagePath => { config with packagePath }
  | .level level => { config with log := { config.log with level } }
  | .file file => { config with log := { config.log with file } }
  | .daily daily => { config with log := { config.log with daily } }
  | .cafile cafile => { config with http := { config.http with cafile } }

theorem assign_independent : Writes.Independent assign Assignment.setting := by
  constructor
  · intro config first second same
    cases first <;> cases second <;> first | rfl | cases same
  · intro config first second different
    cases first <;> cases second <;> first | rfl | exact absurd rfl different

/-! ## Values -/

def string? : Value → Option Text
  | .string text => some text
  | _ => none

def boolean? : Value → Option Bool
  | .boolean value => some value
  | _ => none

def strings? (heap : Heap) : Value → Option (List Text)
  | .table id => (List.range (heap id).length).mapM fun i => string? ((heap id).rawGetI (i + 1))
  | _ => none

def level? (value : Value) : Option Level := do
  let name ← string? value
  let known ← kLevels.find? fun known => name = known.1.toList
  return known.2

def Setting.parse (heap : Heap) (setting : Setting) (value : Value) : Option Assignment :=
  match setting with
  | .scripts => (strings? heap value).map .scripts
  | .packagePath => (string? value).map .packagePath
  | .level => (level? value).map .level
  | .file => (string? value).map .file
  | .daily => (boolean? value).map .daily
  | .cafile => (string? value).map .cafile

theorem setting_of_parse {heap : Heap} {setting : Setting} {value : Value} {assignment : Assignment}
    (parsed : setting.parse heap value = some assignment) : assignment.setting = setting := by
  cases setting <;> obtain ⟨_, -, rfl⟩ := Option.map_eq_some_iff.mp parsed <;> rfl

/-! ## The config of a table -/

/-- The value under the key of a setting, none when the table it is in is no table. -/
def Setting.lookup (heap : Heap) (root : ℕ) (setting : Setting) : Option Value :=
  let key := Value.string setting.path.2.toList
  match setting.path.1 with
  | none => some ((heap root).rawGet key)
  | some group =>
    match (heap root).rawGet (.string group.toList) with
    | .nil => some .nil
    | .table id => some ((heap id).rawGet key)
    | _ => none

/-- What a setting assigns: nothing when there is no value under its key. -/
def Setting.assignments (heap : Heap) (root : ℕ) (setting : Setting) : Option (List Assignment) := do
  let value ← setting.lookup heap root
  if value = .nil then return []
  let assignment ← setting.parse heap value
  return [assignment]

/-- The default config with the documented settings replaced. -/
def configOf (heap : Heap) (root : ℕ) : Option Config :=
  (Writes.allWrites (Setting.assignments heap root) documented).map fun list => list.foldl assign {}

/-- The setting with a key in a group, or at the top. -/
def settingIn (group : Option String) (key : Text) : Option Setting :=
  documented.find? fun setting => setting.path.1 = group ∧ key = setting.path.2.toList

def groupOf (key : Text) : Option String := groups.find? fun group => key = group.toList

section Keys

variable {group : Option String} {name : String} {key : Text} {setting : Setting}

theorem of_settingIn (found : settingIn group key = some setting) : setting.path.1 = group ∧ key = setting.path.2.toList := by
  have holds := List.find?_some found
  exact of_decide_eq_true holds

theorem settingIn_eq_none (other : ∀ setting : Setting, setting.path.1 = group → key ≠ setting.path.2.toList) :
    settingIn group key = none := by
  rw [settingIn, List.find?_eq_none]
  intro setting _ found
  obtain ⟨inGroup, same⟩ := of_decide_eq_true found
  exact other setting inGroup same

theorem settingIn_path (setting : Setting) : settingIn setting.path.1 setting.path.2.toList = some setting := by
  cases setting <;> rfl

theorem of_groupOf (found : groupOf key = some name) : name ∈ groups ∧ key = name.toList := by
  have holds := List.find?_some found
  exact ⟨List.mem_of_find?_eq_some found, of_decide_eq_true holds⟩

theorem groupOf_path (setting : Setting) : groupOf setting.path.2.toList = none := by
  cases setting <;> rfl

theorem group_of_path (inGroup : setting.path.1 = some name) : name ∈ groups := by
  cases setting <;> cases inGroup <;> decide

theorem groupOf_group (known : name ∈ groups) : groupOf name.toList = some name := by
  rcases List.mem_cons.mp known with rfl | known
  · rfl
  · cases List.mem_singleton.mp known
    rfl

/-- The names of groups are not names of settings. -/
theorem settingIn_group (member : name ∈ groups) (group : Option String) : settingIn group name.toList = none := by
  apply settingIn_eq_none
  intro setting _
  rcases List.mem_cons.mp member with rfl | member
  · cases setting <;> decide
  · cases List.mem_singleton.mp member
    cases setting <;> decide

theorem cString_of_clean (clean : '\x00' ∉ key) : key.cString = key := by
  rw [Text.cString, List.takeWhile_eq_self_iff]
  intro char member
  rw [decide_eq_true_eq]
  rintro rfl
  exact clean member

theorem cString_path (setting : Setting) : Text.cString setting.path.2.toList = setting.path.2.toList := by
  cases setting <;> rfl

theorem cString_group (known : name ∈ groups) : Text.cString name.toList = name.toList := by
  rcases List.mem_cons.mp known with rfl | known
  · rfl
  · cases List.mem_singleton.mp known
    rfl

end Keys

end VcmpLua.Spec
