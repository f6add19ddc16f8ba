import Mathlib
import VcmpLua.Lib.Effect
import VcmpLua.Model.Bindings.Args
import VcmpLua.Model.Bindings.Bind

/-! # Rotations of a vehicle

`bindings/vehicle.cpp`: `SetRotationFromTable` and the members that call it. Besides the calls to the
server, the state counts the Lua stack slots that the code holds, since nothing here asks Lua for
more than a C function gets. The recursion takes fuel, and running out of it is an error of its own
that the code does not have. The conversion of a number to a C++ `float` is a parameter.
-/

namespace VcmpLua.Model.Bindings.Rotation

open Effect VcmpLua.Model.Lua

inductive ServerCall (S : Type) where
  | rotation (x y z w : S)
  | rotationEuler (x y z : S)
  | spawnRotation (x y z w : S)
  | spawnRotationEuler (x y z : S)
deriving DecidableEq, Repr

/-- The server's name of the function. -/
def ServerCall.name {S : Type} : ServerCall S → String
  | .rotation .. => "SetVehicleRotation"
  | .rotationEuler .. => "SetVehicleRotationEuler"
  | .spawnRotation .. => "SetVehicleSpawnRotation"
  | .spawnRotationEuler .. => "SetVehicleSpawnRotationEuler"

/-- Which functions this server version has, and what it answers. -/
structure Server (S : Type) where
  provides : String → Bool
  answer : ServerCall S → VcmpError

inductive Interrupt where
  | argument (error : ArgError)
  | server (error : String)
  /-- The fuel ran out: the code is still running. -/
  | unfinished
deriving DecidableEq, Repr

structure Running (S : Type) where
  /-- `lua_gettop`. -/
  top : ℕ
  peak : ℕ
  calls : List (ServerCall S) := []
deriving DecidableEq, Repr

abbrev Binding (S : Type) := EStateM Interrupt (Running S)

section

variable {S : Type}

def Running.push (s : Running S) : Running S := { s with top := s.top + 1, peak := max s.peak (s.top + 1) }

def Running.pop (s : Running S) : Running S := { s with top := s.top - 1 }

/-- `RawField`: the value stays on the stack. -/
def pushField (table : Table) (key : String) : Binding S Value := do
  modify Running.push
  return rawField table key

/-- `TableNumber`. -/
def number (single : Number → S) (table : Table) (index i : ℕ) : Binding S S := do
  modify Running.push
  modify Running.pop
  match tableNumber table index i with
  | .ok number => return single number
  | .error e => throw (.argument e)

/-- `VCMP_FN`, the call and `Check`. -/
def callServer (server : Server S) (function : String) (call : ServerCall S) : Binding S Unit := do
  if !server.provides call.name then
    throw (.server s!"{call.name} is not supported by this server version")
  modify fun s => { s with calls := s.calls ++ [call] }
  match server.answer call with
  | .none | .requestDenied => return
  | .noSuchEntity => throw (.server s!"'{function}' failed: no such entity")
  | .other name => throw (.server s!"'{function}' failed: {name}")

variable (single : Number → S) (server : Server S) (function : String) (heap : Heap) (spawn : Bool)

/-- The numbers of a table without an inner one. -/
def setFromElements (index id : ℕ) : Binding S Unit := do
  let x ← number single (heap id) index 1
  let y ← number single (heap id) index 2
  let z ← number single (heap id) index 3
  if tableLength (heap id) ≥ 4 then
    let w ← number single (heap id) index 4
    callServer server function (if spawn then .spawnRotation x y z w else .rotation x y z w)
  else
    callServer server function (if spawn then .spawnRotationEuler x y z else .rotationEuler x y z)

/-- `SetRotationFromTable`, for the table at stack index `index`. The getter's own table: prefer its
quaternion. -/
def setRotationFromTable : ℕ → ℕ → ℕ → Binding S Unit
  | 0, _, _ => throw .unfinished
  | fuel + 1, index, id => do
    match (← pushField (heap id) "quaternion").table? with
    | some inner =>
      setRotationFromTable fuel (← get).top inner
      modify Running.pop
    | none =>
      modify Running.pop
      match (← pushField (heap id) "euler").table? with
      | some inner =>
        setRotationFromTable fuel (← get).top inner
        modify Running.pop
      | none =>
        modify Running.pop
        setFromElements single server function heap spawn index id

/-- The setters of `rotation`, `angle` and `spawnRotation`, and `setRotation`. -/
def setRotation (fuel : ℕ) (value : Value) : Binding S Unit := do
  match value with
  | .table id =>
    modify Running.push
    setRotationFromTable single server function heap spawn fuel (← get).top id
    modify Running.pop
  | value => throw (.argument (typeError 3 "table" value))

end

end VcmpLua.Model.Bindings.Rotation
