import Mathlib

/-! # The sandbox of the config file

`runtime/config.cpp`: `OpenSandbox`, `RunConfigFile` and `LoadConfig`. The program in the file is
any transition system of Lua 5.4's virtual machine: in each state it executes one instruction. What
matters of an instruction is whether it enters or leaves a protected call, raises an error or ends
the program. A count hook runs after every so many instructions, and an error goes to the nearest
enclosing protected call. The collector calls finalizers in the middle of a run and `lua_close` those
still pending; they are protected calls too, and Lua runs no hooks inside them. How the resulting
table is read (`ReadConfig`) is a parameter.
-/

namespace VcmpLua.Model.Runtime

/-- A config file may run at most this many VM instructions. -/
def kInstructionBudget : ℕ := 10000000

/-- What `luaopen_base` defines, less the variables `_G` and `_VERSION`. -/
def baseFunctions : List String :=
  ["assert", "collectgarbage", "dofile", "error", "getmetatable", "ipairs", "loadfile", "load", "next", "pairs",
    "pcall", "print", "warn", "rawequal", "rawlen", "rawget", "rawset", "select", "setmetatable", "tonumber",
    "tostring", "type", "xpcall"]

/-- Base functions that reach files or run other code. -/
def kRemoved : List String := ["dofile", "loadfile", "load", "collectgarbage"]

/-- The global functions that `OpenSandbox` leaves. -/
def openSandbox : List String := baseFunctions.filter (· ∉ kRemoved)

/-- The base functions that make a protected call. -/
def protectors : List String := ["pcall", "xpcall"]

/-- One VM instruction, as the machine sees it. -/
inductive Instruction (S V : Type) where
  | next (state : S)
  /-- A call of a global function that runs `body` protected; a caught error goes on at `caught`. -/
  | protect (function : String) (body : S) (caught : String → S)
  /-- An allocation that makes the collector call a finalizer. -/
  | finalize (body resume : S)
  /-- The return from the protected call or the finalizer. -/
  | leave (state : S)
  | raise (error : String)
  /-- The return of the program. -/
  | finish (value : V)

/-- The program of a config file. -/
structure Program (S V : Type) where
  start : S
  step : S → Instruction S V
  /-- The finalizers that `lua_close` calls in this state. -/
  pending : S → List S

/-- A protected call or a finalizer that is under way. -/
structure Frame (S : Type) where
  caught : String → S
  finalizer : Bool := false

structure Vm (S : Type) where
  state : S
  frames : List (Frame S) := []
  /-- Instructions executed in all, and since the hook ran last. -/
  executed : ℕ := 0
  since : ℕ := 0

/-- What one instruction leads to. -/
inductive Executed (S V : Type) where
  | goes (vm : Vm S)
  | ends (ending : Except String V) (vm : Vm S)

/-- Where `LoadConfig` is: in the program, in a finalizer that `lua_close` called, or done with both. -/
inductive Run (S V : Type) where
  | main (vm : Vm S)
  | closing (ending : Except String V) (vm : Vm S) (rest : List S)
  | closed (ending : Except String V) (executed : ℕ)

/-- VM instructions executed so far. -/
def Run.executed {S V : Type} : Run S V → ℕ
  | .main vm => vm.executed
  | .closing _ vm _ => vm.executed
  | .closed _ executed => executed

namespace Program

variable {S V : Type} (program : Program S V)

/-- An error goes to the nearest protected call. -/
def unwind (error : String) (vm : Vm S) : Executed S V :=
  match vm.frames with
  | [] => .ends (.error error) vm
  | frame :: frames => .goes { vm with state := frame.caught error, frames }

def execute (vm : Vm S) : Executed S V :=
  let vm := { vm with executed := vm.executed + 1, since := vm.since + 1 }
  match program.step vm.state with
  | .next state => .goes { vm with state }
  | .protect function body caught =>
    if function ∈ openSandbox ∧ function ∈ protectors then
      .goes { vm with state := body, frames := { caught } :: vm.frames }
    else unwind s!"attempt to call a nil value (global '{function}')" vm
  | .finalize body resume =>
    .goes { vm with state := body, frames := { caught := fun _ => resume, finalizer := true } :: vm.frames }
  | .leave state => .goes { vm with state, frames := vm.frames.tail }
  | .raise error => unwind error vm
  | .finish value => .ends (.ok value) vm

/-- The error of `BudgetHook`. -/
def budgetHook : String := "the config file runs too long (endless loop?)"

/-- The next instruction; before it the hook runs if it is due, unless a finalizer is under way.
`budget` is what `lua_sethook` was given, if anything. -/
def instruction (budget : Option ℕ) (vm : Vm S) : Executed S V :=
  if budget = some vm.since then
    if vm.frames.any (·.finalizer) then program.execute { vm with since := 0 }
    else unwind budgetHook { vm with since := 0 }
  else program.execute vm

/-- `lua_close` calls the next finalizer; the hook is gone, or does not run in it. -/
def close (ending : Except String V) (vm : Vm S) : List S → Run S V
  | [] => .closed ending vm.executed
  | body :: rest =>
    .closing ending { vm with state := body, frames := [{ caught := fun _ => body, finalizer := true }] } rest

def advance (budget : Option ℕ) : Run S V → Run S V
  | .main vm =>
    match program.instruction budget vm with
    | .goes vm => .main vm
    | .ends ending vm => close ending vm (program.pending vm.state)
  | .closing ending vm rest =>
    match program.execute vm with
    | .goes vm => if vm.frames.isEmpty then close ending vm rest else .closing ending vm rest
    | .ends _ vm => close ending vm rest
  | .closed ending executed => .closed ending executed

/-- The run after so many steps. -/
def run (budget : Option ℕ) : ℕ → Run S V
  | 0 => .main { state := program.start }
  | steps + 1 => program.advance budget (run budget steps)

end Program

/-- `LoadConfig`, once the state is closed: `typeName` is `luaL_typename`, `readConfig` reads a table. -/
def loadConfig {S V Config : Type} (path : String) (typeName : V → String) (readConfig : V → Except String Config) :
    Run S V → Option (Except String Config)
  | .closed (.error error) _ => some (.error error)
  | .closed (.ok value) _ =>
    if typeName value = "table" then some (readConfig value)
    else some (.error s!"{path} must return a table (got {typeName value})")
  | .main _ | .closing .. => none

end VcmpLua.Model.Runtime
