import VcmpLua.Model.Lua.Tables

/-! # Reading the config table

`runtime/config.cpp`: `Reader` and `ReadConfig`, which turn the table of a config file into a
`Config`. All reads are raw, so no metamethod runs. `lua_tostring` gives a key as a C string, which
ends at its first NUL. Warnings are kept in the order in which they are logged.
-/

namespace VcmpLua.Model.Runtime

open VcmpLua.Model.Core VcmpLua.Model.Lua

inductive Level where
  | trace | debug | info | warn | err | critical | off
deriving DecidableEq, Repr

structure LogConfig where
  level : Level := .info
  /-- Also log to this file, if set. -/
  file : Text := []
  daily : Bool := false
deriving DecidableEq, Repr

structure HttpConfig where
  cafile : Text := []
deriving DecidableEq, Repr

structure Config where
  scripts : List Text := []
  packagePath : Text := "lua/?.lua;lua/?/init.lua".toList
  log : LogConfig := {}
  http : HttpConfig := {}
deriving DecidableEq, Repr

/-- What has been read, and the warnings logged so far. -/
structure Loading where
  config : Config := {}
  warnings : List String := []
deriving DecidableEq, Repr

def Loading.warn (loading : Loading) (text : String) : Loading :=
  { loading with warnings := loading.warnings ++ [text] }

def kLevels : List (String × Level) :=
  [("trace", .trace), ("debug", .debug), ("info", .info), ("warn", .warn), ("error", .err), ("critical", .critical),
    ("off", .off)]

structure Reader where
  heap : Heap
  file : String

namespace Reader

variable (reader : Reader)

def fail {α : Type} (field expected : String) (value : Value) : Except String α :=
  .error s!"{reader.file}: {field} must be {expected} (got {value.typeName})"

def string (value : Value) (field : String) : Except String Text :=
  match value with
  | .string text => .ok text
  | value => reader.fail field "a string" value

def boolean (value : Value) (field : String) : Except String Bool :=
  match value with
  | .boolean value => .ok value
  | value => reader.fail field "a boolean" value

def stringList (value : Value) (field : String) : Except String (List Text) :=
  match value with
  | .table id =>
    (List.range (reader.heap id).length).mapM fun i =>
      reader.string ((reader.heap id).rawGetI (i + 1)) s!"{field}[{i + 1}]"
  | value => reader.fail field "a list of strings" value

/-- The body of the loop of `Fields`. -/
def visitEntry (field : String) (visit : Text → Value → Loading → Except String Loading) (loading : Loading)
    (entry : Entry) : Except String Loading :=
  match entry.1 with
  | .string key => visit key.cString entry.2 loading
  | _ => .ok (loading.warn s!"{reader.file}: {field} has a key that is not a string; it is ignored")

/-- Calls `visit` for each string key of the table. -/
def fields (value : Value) (field : String) (visit : Text → Value → Loading → Except String Loading)
    (loading : Loading) : Except String Loading :=
  match value with
  | .table id => (reader.heap id).entries.foldlM (reader.visitEntry field visit) loading
  | value => reader.fail field "a table" value

def unknown (field : String) (loading : Loading) : Except String Loading :=
  .ok (loading.warn s!"{reader.file}: unknown setting '{field}' is ignored")

end Reader

def parseLevel (reader : Reader) (value : Value) : Except String Level := do
  let name ← reader.string value "log.level"
  match kLevels.find? fun known => name = known.1.toList with
  | some known => .ok known.2
  | none =>
    .error (s!"{reader.file}: log.level must be one of trace, debug, info, warn, error, critical, off " ++
      s!"(got \"{String.ofList name}\")")

section ReadConfig

variable (reader : Reader)

def visitLog (key : Text) (value : Value) (loading : Loading) : Except String Loading := do
  let config := loading.config
  if key = "level".toList then
    let level ← parseLevel reader value
    return { loading with config := { config with log := { config.log with level } } }
  else if key = "file".toList then
    let file ← reader.string value "log.file"
    return { loading with config := { config with log := { config.log with file } } }
  else if key = "daily".toList then
    let daily ← reader.boolean value "log.daily"
    return { loading with config := { config with log := { config.log with daily } } }
  else reader.unknown s!"log.{String.ofList key}" loading

def visitHttp (key : Text) (value : Value) (loading : Loading) : Except String Loading := do
  let config := loading.config
  if key = "cafile".toList then
    let cafile ← reader.string value "http.cafile"
    return { loading with config := { config with http := { config.http with cafile } } }
  else reader.unknown s!"http.{String.ofList key}" loading

def visitRoot (key : Text) (value : Value) (loading : Loading) : Except String Loading := do
  let config := loading.config
  if key = "scripts".toList then
    let scripts ← reader.stringList value "scripts"
    return { loading with config := { config with scripts } }
  else if key = "package_path".toList then
    let packagePath ← reader.string value "package_path"
    return { loading with config := { config with packagePath } }
  else if key = "log".toList then reader.fields value "log" (visitLog reader) loading
  else if key = "http".toList then reader.fields value "http" (visitHttp reader) loading
  else reader.unknown (String.ofList key) loading

/-- `ReadConfig`, for the value that the config file returned. -/
def readConfig (value : Value) : Except String Loading :=
  reader.fields value "the returned table" (visitRoot reader) {}

end ReadConfig

end VcmpLua.Model.Runtime
