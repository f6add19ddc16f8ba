import Mathlib
import VcmpLua.Spec.ConfigTable

/-! # The config and the order of its table

`ReadConfig` goes through the entries in whatever order `lua_next` gives. What an entry assigns does
not depend on what came before, so a load is a list of assignments, and only its last assignment to
each setting counts. A key is compared up to its first NUL, so a documented name with a NUL and more
behind it assigns too. The config is the documented one in every order exactly when each of these
keys assigns what the config has anyway.
-/

namespace VcmpLua.Model.Runtime

open VcmpLua.Model.Core VcmpLua.Model.Lua VcmpLua.Spec Writes

/-! ## What the entries assign -/

/-- What a key assigns in a group, or at the top; none when its value is refused. -/
def keyAssignments (heap : Heap) (group : Option String) (key : Text) (value : Value) : Option (List Assignment) :=
  match settingIn group key with
  | some setting => (setting.parse heap value).map ([·])
  | none => some []

/-- What an entry assigns by its key, up to the first NUL. -/
def byKey (assignments : Text → Value → Option (List Assignment)) (entry : Entry) : Option (List Assignment) :=
  match entry.1 with
  | .string key => assignments key.cString entry.2
  | _ => some []

@[simp] theorem byKey_string (assignments : Text → Value → Option (List Assignment)) (key : Text) (value : Value) :
    byKey assignments (.string key, value) = assignments key.cString value := rfl

def groupAssignments (heap : Heap) (group : String) : Value → Option (List Assignment)
  | .table id => allWrites (byKey (keyAssignments heap (some group))) (heap id).entries
  | _ => none

/-- What a key of the config table assigns. -/
def rootAssignments (heap : Heap) (key : Text) (value : Value) : Option (List Assignment) :=
  match groupOf key with
  | some group => groupAssignments heap group value
  | none => keyAssignments heap none key value

section Values

variable (reader : Reader) (value : Value)

theorem toOption_string (field : String) : (reader.string value field).toOption = string? value := by
  cases value <;> rfl

theorem toOption_boolean (field : String) : (reader.boolean value field).toOption = boolean? value := by
  cases value <;> rfl

theorem toOption_mapM {α β : Type} {f : α → Except String β} {g : α → Option β} (same : ∀ a, (f a).toOption = g a)
    (list : List α) : (list.mapM f).toOption = list.mapM g := by
  induction list with
  | nil => rfl
  | cons a rest ih =>
    rw [List.mapM_cons, List.mapM_cons, ← same a, ← ih]
    cases f a with
    | error e => rfl
    | ok b =>
      cases rest.mapM f with
      | error e => rfl
      | ok list => rfl

theorem toOption_stringList (field : String) : (reader.stringList value field).toOption = strings? reader.heap value := by
  cases value with
  | table id => exact toOption_mapM (fun i => toOption_string reader _ _) _
  | _ => rfl

theorem toOption_parseLevel : (parseLevel reader value).toOption = level? value := by
  cases value with
  | string name =>
    change Except.toOption (_ : Except String Level) = Option.bind (kLevels.find? fun known => name = known.1.toList) _
    unfold parseLevel
    change Except.toOption (Except.bind (Except.ok name) _) = _
    rw [Except.bind]
    cases kLevels.find? fun known => decide (name = known.1.toList) with
    | none => rfl
    | some known => rfl
  | _ => rfl

end Values

/-! ## One visit -/

section Visits

variable (reader : Reader)

/-- A visit that reads a value and assigns it. -/
theorem toOption_visit {α : Type} {read : Except String α} {parsed : Option α} (same : read.toOption = parsed)
    (next : α → Loading) (assignment : α → Assignment) (loading : Loading)
    (assigns : ∀ value, (next value).config = assign loading.config (assignment value)) :
    (read.bind fun value => .ok (next value)).toOption.map Loading.config =
      ((parsed.map assignment).map ([·])).map fun list : List Assignment => list.foldl assign loading.config := by
  subst same
  cases read with
  | error e => rfl
  | ok value => exact congrArg some (assigns value)

theorem toOption_visitLog (key : Text) (value : Value) (loading : Loading) :
    (visitLog reader key value loading).toOption.map Loading.config =
      (keyAssignments reader.heap (some "log") key value).map fun list => list.foldl assign loading.config := by
  unfold visitLog
  by_cases level : key = "level".toList
  · subst level
    rw [if_pos rfl]
    exact toOption_visit (toOption_parseLevel reader value) _ .level loading fun _ => rfl
  by_cases file : key = "file".toList
  · subst file
    rw [if_neg level, if_pos rfl]
    exact toOption_visit (toOption_string reader value _) _ .file loading fun _ => rfl
  by_cases daily : key = "daily".toList
  · subst daily
    rw [if_neg level, if_neg file, if_pos rfl]
    exact toOption_visit (toOption_boolean reader value _) _ .daily loading fun _ => rfl
  have none : settingIn (some "log") key = none := by
    apply settingIn_eq_none
    intro setting inGroup
    cases setting with
    | scripts => cases inGroup
    | packagePath => cases inGroup
    | level => exact level
    | file => exact file
    | daily => exact daily
    | cafile => exact absurd inGroup (by decide)
  rw [keyAssignments, none, if_neg level, if_neg file, if_neg daily]
  rfl

theorem toOption_visitHttp (key : Text) (value : Value) (loading : Loading) :
    (visitHttp reader key value loading).toOption.map Loading.config =
      (keyAssignments reader.heap (some "http") key value).map fun list => list.foldl assign loading.config := by
  unfold visitHttp
  by_cases cafile : key = "cafile".toList
  · subst cafile
    rw [if_pos rfl]
    exact toOption_visit (toOption_string reader value _) _ .cafile loading fun _ => rfl
  have none : settingIn (some "http") key = none := by
    apply settingIn_eq_none
    intro setting inGroup
    cases setting with
    | scripts => cases inGroup
    | packagePath => cases inGroup
    | cafile => exact cafile
    | level => exact absurd inGroup (by decide)
    | file => exact absurd inGroup (by decide)
    | daily => exact absurd inGroup (by decide)
  rw [keyAssignments, none, if_neg cafile]
  rfl

/-- A table whose visits assign. -/
theorem toOption_fields {visit : Text → Value → Loading → Except String Loading}
    {assignments : Text → Value → Option (List Assignment)}
    (one : ∀ key value loading, (visit key value loading).toOption.map Loading.config =
      (assignments key value).map fun list => list.foldl assign loading.config)
    (id : ℕ) (field : String) (loading : Loading) :
    (reader.fields (.table id) field visit loading).toOption.map Loading.config =
      (allWrites (byKey assignments) (reader.heap id).entries).map fun list => list.foldl assign loading.config := by
  refine Writes.foldlM_eq (fun loading entry => ?_) _ loading
  obtain ⟨key, value⟩ := entry
  cases key with
  | string key => exact one key.cString value loading
  | _ => rfl

theorem toOption_group {visit : Text → Value → Loading → Except String Loading} {group : String}
    (one : ∀ key value loading, (visit key value loading).toOption.map Loading.config =
      (keyAssignments reader.heap (some group) key value).map fun list => list.foldl assign loading.config)
    (value : Value) (loading : Loading) :
    (reader.fields value group visit loading).toOption.map Loading.config =
      (groupAssignments reader.heap group value).map fun list => list.foldl assign loading.config := by
  cases value with
  | table id => exact toOption_fields reader one id group loading
  | _ => rfl

theorem toOption_visitRoot (key : Text) (value : Value) (loading : Loading) :
    (visitRoot reader key value loading).toOption.map Loading.config =
      (rootAssignments reader.heap key value).map fun list => list.foldl assign loading.config := by
  unfold visitRoot
  by_cases scripts : key = "scripts".toList
  · subst scripts
    rw [if_pos rfl]
    exact toOption_visit (toOption_stringList reader value _) _ .scripts loading fun _ => rfl
  by_cases packagePath : key = "package_path".toList
  · subst packagePath
    rw [if_neg scripts, if_pos rfl]
    exact toOption_visit (toOption_string reader value _) _ .packagePath loading fun _ => rfl
  rw [if_neg scripts, if_neg packagePath]
  by_cases log : key = "log".toList
  · subst log
    rw [if_pos rfl]
    exact toOption_group reader (toOption_visitLog reader) value loading
  by_cases http : key = "http".toList
  · subst http
    rw [if_neg log, if_pos rfl]
    exact toOption_group reader (toOption_visitHttp reader) value loading
  have noGroup : groupOf key = none := by
    rw [groupOf, List.find?_eq_none]
    intro group member same
    rcases List.mem_cons.mp member with rfl | member
    · exact log (of_decide_eq_true same)
    · cases List.mem_singleton.mp member
      exact http (of_decide_eq_true same)
  have none : settingIn none key = none := by
    apply settingIn_eq_none
    intro setting atTop
    cases setting with
    | scripts => exact scripts
    | packagePath => exact packagePath
    | _ => cases atTop
  rw [rootAssignments, noGroup, keyAssignments, none, if_neg log, if_neg http]
  rfl

/-- A load is a list of assignments to the default config. -/
theorem toOption_readConfig (root : ℕ) :
    (readConfig reader (.table root)).toOption.map Loading.config =
      (allWrites (byKey (rootAssignments reader.heap)) (reader.heap root).entries).map fun list => list.foldl assign {} :=
  toOption_fields reader (toOption_visitRoot reader) root _ {}

end Visits

/-! ## Any order -/

section Orders

variable {heap other : Heap}

theorem parse_reordered (same : Reordered heap other) (setting : Setting) (value : Value) :
    setting.parse other value = setting.parse heap value := by
  cases setting with
  | scripts =>
    cases value with
    | table id =>
      simp only [Setting.parse, strings?, (same id).2, same.rawGetI]
    | _ => rfl
  | _ => rfl

theorem keyAssignments_reordered (same : Reordered heap other) (group : Option String) :
    keyAssignments other group = keyAssignments heap group := by
  funext key value
  unfold keyAssignments
  cases settingIn group key with
  | none => rfl
  | some setting => simp only [parse_reordered same]

theorem harmless_group (same : Reordered heap other) (config : Config) (group : String) (value : Value) :
    Harmless assign config (groupAssignments other group value) ↔
      Harmless assign config (groupAssignments heap group value) := by
  cases value with
  | table id =>
    simp only [groupAssignments, harmless_allWrites, keyAssignments_reordered same, (same id).1.mem_iff]
  | _ => rfl

theorem harmless_root (same : Reordered heap other) (config : Config) (entry : Entry) :
    Harmless assign config (byKey (rootAssignments other) entry) ↔
      Harmless assign config (byKey (rootAssignments heap) entry) := by
  obtain ⟨key, value⟩ := entry
  cases key with
  | string key =>
    change Harmless assign config (rootAssignments other key.cString value) ↔
      Harmless assign config (rootAssignments heap key.cString value)
    unfold rootAssignments
    cases groupOf key.cString with
    | none => simp only [keyAssignments_reordered same]
    | some group => exact harmless_group same config group value
  | _ => rfl

/-- What a key has in a table is among what the table assigns. -/
theorem key_among {assignments : Text → Value → Option (List Assignment)} {table : Table} {list : List Assignment}
    (all : allWrites (byKey assignments) table.entries = some list) {key : Text} (clean : key.cString = key)
    (present : table.rawGet (.string key) ≠ .nil) :
    ∃ own, assignments key (table.rawGet (.string key)) = some own ∧ ∀ w ∈ own, w ∈ list := by
  obtain ⟨own, written, inside⟩ := of_allWrites all (Table.mem_of_rawGet rfl present)
  rw [byKey_string, clean] at written
  exact ⟨own, written, inside⟩

theorem assignments_of_lookup {root : ℕ} {setting : Setting} {value : Value}
    (found : setting.lookup heap root = some value) :
    setting.assignments heap root = if value = .nil then some [] else (setting.parse heap value).map ([·]) := by
  rw [Setting.assignments, found]
  change (if value = .nil then some [] else _) = _
  split_ifs
  · rfl
  · cases setting.parse heap value <;> rfl

theorem keyAssignments_path (heap : Heap) (setting : Setting) (value : Value) :
    keyAssignments heap setting.path.1 setting.path.2.toList value = (setting.parse heap value).map ([·]) := by
  rw [keyAssignments, settingIn_path]

/-- A load that succeeds, in whatever order, reads every documented setting. -/
theorem documented_among (same : Reordered heap other) {root : ℕ} {list : List Assignment}
    (all : allWrites (byKey (rootAssignments other)) (other root).entries = some list) (setting : Setting) :
    ∃ own, setting.assignments heap root = some own ∧ ∀ w ∈ own, w ∈ list := by
  -- a value under the key of the setting, in a table that assigns what the setting parses to
  have inTable : ∀ {assignments : Text → Value → Option (List Assignment)} {id : ℕ} {list' : List Assignment},
      allWrites (byKey assignments) (other id).entries = some list' → (∀ w ∈ list', w ∈ list) →
      (∀ value, assignments setting.path.2.toList value = (setting.parse heap value).map ([·])) →
      setting.lookup heap root = some ((heap id).rawGet (.string setting.path.2.toList)) →
      ∃ own, setting.assignments heap root = some own ∧ ∀ w ∈ own, w ∈ list := by
    intro assignments id list' written among parses found
    rw [assignments_of_lookup found]
    split_ifs with absent
    · exact ⟨[], rfl, by simp⟩
    · rw [← same.rawGet] at absent ⊢
      obtain ⟨own, one, inside⟩ := key_among written (cString_path setting) absent
      rw [parses] at one
      exact ⟨own, one, fun w member => among w (inside w member)⟩
  cases place : setting.path.1 with
  | none =>
    refine inTable all (fun w member => member) (fun value => ?_) (by rw [Setting.lookup, place])
    rw [rootAssignments, groupOf_path, ← parse_reordered same, ← keyAssignments_path, place]
  | some group =>
    cases shown : (heap root).rawGet (.string group.toList) with
    | nil =>
      have found : setting.lookup heap root = some .nil := by
        simp only [Setting.lookup, place, shown]
      rw [assignments_of_lookup found]
      exact ⟨[], rfl, by simp⟩
    | table id =>
      have present : (other root).rawGet (.string group.toList) ≠ .nil := by
        rw [same.rawGet, shown]
        exact Value.noConfusion
      obtain ⟨inner, written, inside⟩ := key_among all (cString_group (group_of_path place)) present
      rw [same.rawGet, shown, rootAssignments, groupOf_group (group_of_path place)] at written
      refine inTable written inside (fun value => ?_) (by simp only [Setting.lookup, place, shown])
      rw [← parse_reordered same, ← keyAssignments_path, place]
    | _ =>
      have present : (other root).rawGet (.string group.toList) ≠ .nil := by
        rw [same.rawGet, shown]
        exact Value.noConfusion
      obtain ⟨inner, written, inside⟩ := key_among all (cString_group (group_of_path place)) present
      rw [same.rawGet, shown, rootAssignments, groupOf_group (group_of_path place)] at written
      cases written

theorem setting_of_assignments {root : ℕ} {setting : Setting} {own : List Assignment}
    (assigned : setting.assignments heap root = some own) : (own.map Assignment.setting).Sublist [setting] := by
  obtain ⟨value, found, -⟩ := Option.bind_eq_some_iff.mp assigned
  rw [assignments_of_lookup found] at assigned
  split_ifs at assigned
  · cases assigned
    exact List.nil_sublist _
  · obtain ⟨assignment, parsed, rfl⟩ := Option.map_eq_some_iff.mp assigned
    rw [List.map_singleton, setting_of_parse parsed]

/-- The config agrees with each documented setting. -/
theorem assign_documented {root : ℕ} {config : Config} (expected : configOf heap root = some config) (setting : Setting) :
    ∃ own, setting.assignments heap root = some own ∧ ∀ w ∈ own, assign config w = config := by
  obtain ⟨list, all, rfl⟩ := Option.map_eq_some_iff.mp expected
  obtain ⟨own, one, inside⟩ := of_allWrites all (show setting ∈ documented by cases setting <;> decide)
  have distinct : (list.map Assignment.setting).Nodup :=
    List.Nodup.sublist (fields_of_allWrites (fun _ _ => setting_of_assignments) all) (by decide)
  exact ⟨own, one, fun w member => assign_independent.fixed_of_mem distinct (inside w member) _⟩

/-! ## Keys with a NUL -/

def Aliased (entry : Entry) : Prop := ∃ key, entry.1 = .string key ∧ '\x00' ∈ key

/-- Every key with a NUL assigns what the config has anyway: at the top, and in the groups. -/
structure AliasesHarmless (heap : Heap) (root : ℕ) (config : Config) : Prop where
  top : ∀ entry ∈ (heap root).entries, Aliased entry → Harmless assign config (byKey (rootAssignments heap) entry)
  inGroup : ∀ group ∈ groups, ∀ id, (heap root).rawGet (.string group.toList) = .table id →
    ∀ entry ∈ (heap id).entries, Aliased entry →
      Harmless assign config (byKey (keyAssignments heap (some group)) entry)

/-- A setting under its own key assigns what the config has. -/
theorem harmless_key {root : ℕ} {config : Config} (expected : configOf heap root = some config) {setting : Setting}
    {value : Value} (found : setting.lookup heap root = some value) (present : value ≠ .nil) :
    Harmless assign config ((setting.parse heap value).map ([·])) := by
  obtain ⟨own, assigned, fixed⟩ := assign_documented expected setting
  rw [assignments_of_lookup found, if_neg present] at assigned
  exact ⟨own, assigned, fixed⟩

/-- The entries of a table whose whole keys are looked up. -/
theorem harmless_entry {root id : ℕ} {config : Config} (expected : configOf heap root = some config)
    {group : Option String}
    (looked : ∀ setting : Setting, setting.path.1 = group →
      setting.lookup heap root = some ((heap id).rawGet (.string setting.path.2.toList)))
    {key : Text} {value : Value} (member : (.string key, value) ∈ (heap id).entries) :
    Harmless assign config (keyAssignments heap group key value) := by
  unfold keyAssignments
  cases found : settingIn group key with
  | none => exact harmless_nil _
  | some setting =>
    obtain ⟨inGroup, rfl⟩ := of_settingIn found
    have lookup := looked setting inGroup
    rw [Table.rawGet_of_mem member] at lookup
    exact harmless_key expected lookup ((heap id).present _ member).2

/-- A group of a config is a table. -/
theorem group_table {root : ℕ} {config : Config} (expected : configOf heap root = some config) {group : String}
    (known : group ∈ groups) {value : Value} (held : (heap root).rawGet (.string group.toList) = value)
    (present : value ≠ .nil) : ∃ id, value = .table id := by
  obtain ⟨setting, place⟩ : ∃ setting : Setting, setting.path.1 = some group := by
    rcases List.mem_cons.mp known with rfl | known
    · exact ⟨.level, rfl⟩
    · cases List.mem_singleton.mp known
      exact ⟨.cafile, rfl⟩
  obtain ⟨own, assigned, -⟩ := assign_documented expected setting
  obtain ⟨found, lookup, -⟩ := Option.bind_eq_some_iff.mp assigned
  simp only [Setting.lookup, place, held] at lookup
  cases value with
  | table id => exact ⟨id, rfl⟩
  | nil => exact absurd rfl present
  | _ => cases lookup

/-- Where the keys with a NUL are harmless, every entry is. -/
theorem harmless_of_aliases {root : ℕ} {config : Config} (expected : configOf heap root = some config)
    (aliases : AliasesHarmless heap root config) :
    ∀ entry ∈ (heap root).entries, Harmless assign config (byKey (rootAssignments heap) entry) := by
  rintro ⟨key, value⟩ member
  cases key with
  | string key =>
    by_cases nul : '\x00' ∈ key
    · exact aliases.top _ member ⟨key, rfl, nul⟩
    rw [byKey_string, cString_of_clean nul, rootAssignments]
    cases inGroup : groupOf key with
    | none =>
      refine harmless_entry expected (fun setting top => ?_) member
      rw [Setting.lookup, top]
    | some group =>
      obtain ⟨known, rfl⟩ := of_groupOf inGroup
      have held := Table.rawGet_of_mem member
      obtain ⟨id, rfl⟩ := group_table expected known held ((heap root).present _ member).2
      refine (harmless_allWrites _ _).mpr ?_
      rintro ⟨key, value⟩ inner
      cases key with
      | string key =>
        by_cases nul : '\x00' ∈ key
        · exact aliases.inGroup group known id held _ inner ⟨key, rfl, nul⟩
        rw [byKey_string, cString_of_clean nul]
        refine harmless_entry expected (fun setting place => ?_) inner
        simp only [Setting.lookup, place, held]
      | _ => exact harmless_nil _
  | _ => exact harmless_nil _

/-- Where the keys with a NUL are harmless, the load gives the documented config in any order. -/
theorem readConfig_of_aliases (reader : Reader) {root : ℕ}
    (aliases : ∀ config, configOf reader.heap root = some config → AliasesHarmless reader.heap root config)
    (same : Reordered reader.heap other) :
    (readConfig { reader with heap := other } (.table root)).toOption.map Loading.config = configOf reader.heap root := by
  rw [toOption_readConfig]
  change Option.map _ (allWrites (byKey (rootAssignments other)) (other root).entries) = _
  cases expected : configOf reader.heap root with
  | none =>
    rw [Option.map_eq_none_iff]
    by_contra accepted
    obtain ⟨list, all⟩ := Option.ne_none_iff_exists'.mp accepted
    have read : ∀ setting ∈ documented, (setting.assignments reader.heap root).isSome := by
      intro setting _
      obtain ⟨own, assigned, -⟩ := documented_among same all setting
      rw [assigned]
      rfl
    rw [configOf, allWrites, if_pos read] at expected
    cases expected
  | some config =>
    have harmless : Harmless assign config (allWrites (byKey (rootAssignments other)) (other root).entries) := by
      rw [harmless_allWrites]
      intro entry member
      rw [harmless_root same]
      exact harmless_of_aliases expected (aliases config expected) entry ((same root).1.mem_iff.mpr member)
    obtain ⟨list, all, fixed⟩ := harmless
    obtain ⟨early, assigned, rfl⟩ := Option.map_eq_some_iff.mp expected
    rw [all, Option.map_some, assign_independent.foldl_eq (fun w member => ?_) fixed]
    obtain ⟨setting, -, own, one, inside⟩ := source_of_allWrites assigned member
    obtain ⟨own', one', among⟩ := documented_among same all setting
    rw [one] at one'
    cases one'
    exact among w inside

/-- The load gives the same config in every order. -/
def SameInAnyOrder (heap : Heap) (root : ℕ) (config : Config) : Prop :=
  ∀ other, Reordered heap other → ∃ list, allWrites (byKey (rootAssignments other)) (other root).entries = some list ∧
    list.foldl assign {} = config

/-- What an order assigns last is in the config. -/
theorem SameInAnyOrder.last {root : ℕ} {config : Config} (always : SameInAnyOrder heap root config)
    (same : Reordered heap other) {front back : List Entry} {entry : Entry}
    (order : (other root).entries = front ++ entry :: back)
    (nothing : ∀ later ∈ back, byKey (rootAssignments other) later = some []) {early : List Assignment} {w : Assignment}
    (assigned : byKey (rootAssignments other) entry = some (early ++ [w])) : assign config w = config := by
  obtain ⟨list, all, rfl⟩ := always other same
  rw [order] at all
  obtain ⟨before, own, one, rfl⟩ := allWrites_last all nothing
  rw [assigned] at one
  cases one
  exact assign_independent.last (by rw [← List.append_assoc]) _

/-- Any key of a group can be the one that assigns last. -/
theorem SameInAnyOrder.inGroup {root id : ℕ} {config : Config} (always : SameInAnyOrder heap root config) {key : Text}
    {group : String} (found : groupOf key.cString = some group) (member : (.string key, .table id) ∈ (heap root).entries)
    {name : Text} {value : Value} (inner : (.string name, value) ∈ (heap id).entries) :
    Harmless assign config (keyAssignments heap (some group) name.cString value) := by
  cases isSetting : settingIn (some group) name.cString with
  | none =>
    rw [keyAssignments, isSetting]
    exact harmless_nil _
  | some setting =>
    obtain ⟨known, isGroup⟩ := of_groupOf found
    have apart : Value.string name ≠ .string key := by
      intro equal
      cases equal
      rw [isGroup, settingIn_group known] at isSetting
      cases isSetting
    -- `name` is visited last but for `key`, and `key` last
    let other := (heap.moveLast (.string name)).moveLast (.string key)
    have same : Reordered heap other := (heap.reordered_moveLast _).trans (Heap.reordered_moveLast _ _)
    have order : (other root).entries = _ ++ [(.string key, .table id)] :=
      Table.entries_moveLast ((heap.reordered_moveLast _ root).1.mem_iff.mp member)
    have innerOrder : (other id).entries =
        ((heap id).entries.filter (·.1 ≠ .string name)).filter (·.1 ≠ .string key) ++ (.string name, value) ::
          ((heap.moveLast (.string name)) id).entries.filter (·.1 = .string key) := by
      have moved : ((heap.moveLast (.string name)) id).entries = _ ++ [(.string name, value)] :=
        Table.entries_moveLast inner
      have kept : ((heap.moveLast (.string name)) id).entries.filter (·.1 ≠ .string key) =
          ((heap id).entries.filter (·.1 ≠ .string name)).filter (·.1 ≠ .string key) ++ [(.string name, value)] := by
        have stays : ([(.string name, value)] : List Entry).filter (·.1 ≠ .string key) = [(.string name, value)] := by
          simpa using apart
        rw [moved, List.filter_append, stays]
      change ((heap.moveLast (.string name)) id).entries.filter (·.1 ≠ .string key) ++ _ = _
      rw [kept, List.append_assoc]
      rfl
    obtain ⟨list, all, -⟩ := always other same
    obtain ⟨own, assigned, -⟩ := of_allWrites all (by rw [order]; exact List.mem_append_right _ (List.mem_cons_self ..))
    have inside := assigned
    rw [byKey_string, rootAssignments, found] at inside
    change allWrites _ (other id).entries = _ at inside
    rw [innerOrder] at inside
    have nothing : ∀ later ∈ ((heap.moveLast (.string name)) id).entries.filter (·.1 = .string key),
        byKey (keyAssignments other (some group)) later = some [] := by
      rintro ⟨later, held⟩ among
      cases of_decide_eq_true (List.mem_filter.mp among).2
      rw [byKey_string, isGroup, keyAssignments, settingIn_group known]
    obtain ⟨early, last, one, rfl⟩ := allWrites_last inside nothing
    rw [byKey_string, keyAssignments_reordered same, keyAssignments, isSetting] at one
    obtain ⟨w, parsed, rfl⟩ := Option.map_eq_some_iff.mp one
    refine ⟨[w], ?_, List.forall_mem_singleton.mpr (always.last same order (by simp) assigned)⟩
    rw [keyAssignments, isSetting]
    exact one

/-- Any key of the config table can be the one that assigns last. -/
theorem SameInAnyOrder.harmless {root : ℕ} {config : Config} (always : SameInAnyOrder heap root config) :
    ∀ entry ∈ (heap root).entries, Harmless assign config (byKey (rootAssignments heap) entry) := by
  rintro ⟨key, value⟩ member
  obtain ⟨list, all, -⟩ := always heap (Reordered.refl heap)
  obtain ⟨own, accepted, -⟩ := of_allWrites all member
  cases key with
  | string key =>
    rw [byKey_string, rootAssignments] at accepted ⊢
    cases found : groupOf key.cString with
    | some group =>
      rw [found] at accepted
      cases value with
      | table id =>
        refine (harmless_allWrites _ _).mpr ?_
        rintro ⟨name, value⟩ inner
        cases name with
        | string name => exact always.inGroup found member inner
        | _ => exact harmless_nil _
      | _ => cases accepted
    | none =>
      rw [found] at accepted
      cases isSetting : settingIn none key.cString with
      | none =>
        rw [keyAssignments, isSetting]
        exact harmless_nil _
      | some setting =>
        rw [keyAssignments, isSetting] at accepted ⊢
        obtain ⟨w, parsed, rfl⟩ := Option.map_eq_some_iff.mp accepted
        refine ⟨[w], accepted, List.forall_mem_singleton.mpr ?_⟩
        have same := heap.reordered_moveLast (.string key)
        refine always.last same (Table.entries_moveLast member) (by simp) (show _ = some ([] ++ [w]) from ?_)
        rw [byKey_string, rootAssignments, found, keyAssignments_reordered same, keyAssignments, isSetting]
        exact accepted
  | _ => exact harmless_nil _

end Orders

/-- When the config is the documented one in every order. -/
theorem config_documented_iff (reader : Reader) (root : ℕ) :
    (∀ other, Reordered reader.heap other →
      (readConfig { reader with heap := other } (.table root)).toOption.map Loading.config = configOf reader.heap root) ↔
    ∀ config, configOf reader.heap root = some config → AliasesHarmless reader.heap root config := by
  constructor
  · intro always config expected
    have sameConfig : SameInAnyOrder reader.heap root config := by
      intro other same
      have loaded := always other same
      rw [toOption_readConfig, expected] at loaded
      exact Option.map_eq_some_iff.mp loaded
    refine ⟨fun entry member _ => sameConfig.harmless entry member, fun group known id held => ?_⟩
    rintro ⟨key, value⟩ inner ⟨name, isName, -⟩
    cases isName
    have found : groupOf (Text.cString group.toList) = some group := by
      rw [cString_group known, groupOf_group known]
    exact sameConfig.inGroup found (Table.mem_of_rawGet held Value.noConfusion) inner
  · intro aliases other same
    exact readConfig_of_aliases reader aliases same

/-- `{package_path = "a", ["package_path\0"] = "b"}`. -/
def aliasedTable : Table where
  entries := [(.string "package_path".toList, .string ['a']), (.string ("package_path".toList ++ ['\x00']), .string ['b'])]
  distinct := by decide
  present := by decide
  border := by decide

/-- The key with a NUL is read as `package_path` and replaces its value. -/
theorem aliased_key_replaces :
    ¬ ∀ (reader : Reader) (root : ℕ) (other : Heap), Reordered reader.heap other →
      (readConfig { reader with heap := other } (.table root)).toOption.map Loading.config =
        configOf reader.heap root := by
  intro always
  have same := always ⟨fun _ => aliasedTable, "luaconfig.lua"⟩ 0 _ (Reordered.refl _)
  have replaced : (some { packagePath := ['b'] } : Option Config) = some { packagePath := ['a'] } := same
  exact absurd replaced (by decide)

end VcmpLua.Model.Runtime
