import VcmpLua.Model.Core.EntityPool
import VcmpLua.Model.Core.Invoker

/-! # Key binds

`bindings/bind.cpp` with the members every kind has (`bindings/entities.cpp`), over one runtime's
pool and the server's slots. Every plugin can register and remove binds in any slot and the server
sends no event for either; a slot whose keys are all 0 is free. A handle is checked against the
server on use, except for its data table. What the server answers where it has a choice (which free
slot, an error) is given from outside. The argument checks and the state of the runtime are not
modelled: it is usable throughout.
-/

namespace VcmpLua.Model.Bindings

open Effect VcmpLua.Model.Core

/-- The errors of the server that the bindings tell apart. -/
inductive VcmpError where
  | none | noSuchEntity | requestDenied
  | other (name : String)
deriving DecidableEq, Repr

structure BindData where
  onRelease : Bool := false
  key1 : Int := 0
  key2 : Int := 0
  key3 : Int := 0
deriving DecidableEq, Repr

def BindData.hasKeys (data : BindData) : Bool := data.key1 != 0 || data.key2 != 0 || data.key3 != 0

/-- The key binds of the server, shared by all plugins. -/
structure KeyBinds where
  capacity : Int := 50
  slots : Int → BindData := fun _ => {}

namespace KeyBinds

def inRange (server : KeyBinds) (id : Int) : Bool := decide (0 ≤ id) && decide (id < server.capacity)

def getKeyBindData (server : KeyBinds) (id : Int) : Option BindData :=
  if server.inRange id then some (server.slots id) else none

/-- `KeyBindExists`. -/
def keyBindExists (server : KeyBinds) (id : Int) : Bool := (server.getKeyBindData id).any (·.hasKeys)

/-- `GetKeyBindUnusedSlot`, when the server picks this slot: any slot that is free, else -1. -/
def getKeyBindUnusedSlot (server : KeyBinds) (pick : Int) : Int :=
  if server.inRange pick && !server.keyBindExists pick then pick else -1

def setSlot (server : KeyBinds) (id : Int) (data : BindData) : KeyBinds :=
  if server.inRange id then { server with slots := Function.update server.slots id data } else server

end KeyBinds

/-- One runtime's binds on the server. `obtained` are the handles that scripts got so far, `begun`
counts the lifetimes that began in a slot. -/
structure Binds where
  server : KeyBinds
  pool : EntityPool := { kind := .bind }
  obtained : List EntityHandle := []
  begun : Int → ℕ := fun _ => 0

namespace Binds

def adopt (id : Int) (binds : Binds) : Binds :=
  { binds with
    pool := binds.pool.adopt id
    begun := if binds.pool.inRange id && !binds.pool.alive id
      then Function.update binds.begun id (binds.begun id + 1) else binds.begun }

def release (id : Int) (binds : Binds) : Binds := { binds with pool := binds.pool.release id }

/-- The runtime's first look at the server, the part of `Enumerate` that is about binds. -/
def enumerate (server : KeyBinds) : Binds :=
  ({ server } : Binds).pool.ids.foldl
    (fun binds id => if server.keyBindExists id then binds.adopt id else binds) { server }

/-- A reference becomes a Lua value. -/
def pushEntity (ref : EntityRef) : EStateM Exn Binds (Option EntityHandle) := do
  let (handle, pool) := (← get).pool.push ref.id ref.generation
  modify fun binds => { binds with pool, obtained := binds.obtained ++ handle.toList }
  return handle

/-- `Check`: false if the server denied the request. -/
def check (function : String) (error : VcmpError) : EStateM Exn Binds Bool :=
  match error with
  | .none => return true
  | .requestDenied => return false
  | .noSuchEntity => throw (.thrown s!"'{function}' failed: no such entity")
  | .other name => throw (.thrown s!"'{function}' failed: {name}")

/-- A member of the pool that raises when the handle is dead. -/
def ofPool {α : Type} (member : EntityPool → Except String α) : EStateM Exn Binds α := do
  match member (← get).pool with
  | .ok value => return value
  | .error what => throw (.thrown what)

def requireBindExists (id : Int) : EStateM Exn Binds Unit := do
  if !(← get).server.keyBindExists id then
    modify (release id)
    throw (.thrown "bind no longer exists")

/-- `CheckLive`. -/
def checkLive (handle : EntityHandle) : EStateM Exn Binds Unit := do
  ofPool (·.require handle.id handle.generation)
  requireBindExists handle.id

/-- `Created`: the new bind's handle. -/
def created (id : Int) : EStateM Exn Binds (Option EntityHandle) := do
  modify (adopt id)
  let ref := (← get).pool.ref id
  modify fun binds => { binds with pool := binds.pool.markCreatedByUs id }
  pushEntity ref

/-- `Bind.create`, when the server picks this slot and answers this to `RegisterKeyBind`. -/
def create (pick : Int) (error : VcmpError) (onRelease : Bool) (key1 : Int) (key2 key3 : Option Int) :
    EStateM Exn Binds (Option EntityHandle) := do
  let slot := (← get).server.getKeyBindUnusedSlot pick
  if slot < 0 then
    throw (.thrown "'create' failed: no free key bind slot")
  if error = .none then
    modify fun binds =>
      { binds with server := binds.server.setSlot slot ⟨onRelease, key1, key2.getD 0, key3.getD 0⟩ }
  if !(← check "create" error) then
    throw (.thrown "'create' failed: request denied")
  created slot

/-- `Remove`, when the server answers this to `RemoveKeyBind`. -/
def remove (function : String) (error : VcmpError) (id : Int) : EStateM Exn Binds Bool := do
  if error = .none then
    modify fun binds => { binds with server := binds.server.setSlot id {} }
  if error = .none ∨ error = .noSuchEntity then
    modify (release id)
    return true
  check function error

def destroy (error : VcmpError) (handle : EntityHandle) : EStateM Exn Binds Bool := do
  checkLive handle
  remove "destroy" error handle.id

def clearAllBinds (errors : Int → VcmpError) : EStateM Exn Binds Unit := do
  forEach (fun id => do let _ ← remove "clearAllBinds" (errors id) id) (← get).pool.createdByUs

def getTag (handle : EntityHandle) : EStateM Exn Binds String := do
  checkLive handle
  ofPool (·.tag handle.id handle.generation)

def setTag (handle : EntityHandle) (tag : String) : EStateM Exn Binds Unit := do
  checkLive handle
  let pool ← ofPool (·.setTag handle.id handle.generation tag)
  modify fun binds => { binds with pool }

/-- `bind.data`: the server is not asked. -/
def getData (handle : EntityHandle) : EStateM Exn Binds LuaTable := do
  let (table, pool) ← ofPool (·.data handle.id handle.generation)
  modify fun binds => { binds with pool }
  return table

def setData (handle : EntityHandle) (table : LuaTable) : EStateM Exn Binds Unit := do
  let pool ← ofPool (·.setData handle.id handle.generation table)
  modify fun binds => { binds with pool }

def findByTag (tag : String) : EStateM Exn Binds (Option EntityHandle) := do
  let pool := (← get).pool
  match pool.aliveIds.find? fun id => decide ((pool.slot id).tag = tag) with
  | some id => pushEntity (pool.ref id)
  | none => return none

def findByID (id : Int) : EStateM Exn Binds (Option EntityHandle) := do
  pushEntity ((← get).pool.ref id)

def getActive : EStateM Exn Binds Unit := do
  forEach (fun id => do let _ ← findByID id) (← get).pool.aliveIds

end Binds

/-- What can happen next. The handlers of a key event are separate steps, because what runs between
them is any other step: `keyEvent` is the event, `pass` a handler that gets its bind. -/
inductive BindOp where
  | create (pick : Int) (error : VcmpError) (onRelease : Bool) (key1 : Int) (key2 key3 : Option Int)
  | destroy (error : VcmpError) (handle : EntityHandle)
  | clearAllBinds (errors : Int → VcmpError)
  | getTag (handle : EntityHandle)
  | setTag (handle : EntityHandle) (tag : String)
  | getData (handle : EntityHandle)
  | setData (handle : EntityHandle) (table : LuaTable)
  | findByTag (tag : String)
  | findByID (id : Int)
  | getActive
  | keyEvent (id : Int)
  | pass (ref : EntityRef)
  /-- Another plugin registers a bind in a slot, or removes the one there. -/
  | otherRegisters (slot : Int) (data : BindData)
  | otherRemoves (slot : Int)

namespace BindOp

/-- A member of a handle; scripts have only the handles they were given. -/
def withHandle {α : Type} (handle : EntityHandle) (member : EStateM Exn Binds α) : EStateM Exn Binds Unit := do
  if handle ∈ (← get).obtained then
    let _ ← member

def run : BindOp → EStateM Exn Binds Unit
  | .create pick error onRelease key1 key2 key3 => do
      let _ ← Binds.create pick error onRelease key1 key2 key3
  | .destroy error handle => withHandle handle (Binds.destroy error handle)
  | .clearAllBinds errors => Binds.clearAllBinds errors
  | .getTag handle => withHandle handle (Binds.getTag handle)
  | .setTag handle tag => withHandle handle (Binds.setTag handle tag)
  | .getData handle => withHandle handle (Binds.getData handle)
  | .setData handle table => withHandle handle (Binds.setData handle table)
  | .findByTag tag => do let _ ← Binds.findByTag tag
  | .findByID id => do let _ ← Binds.findByID id
  | .getActive => Binds.getActive
  | .keyEvent id => modify (Binds.adopt id)
  | .pass ref => do let _ ← Binds.pushEntity ref
  | .otherRegisters slot data => modify fun binds => { binds with server := binds.server.setSlot slot data }
  | .otherRemoves slot => modify fun binds => { binds with server := binds.server.setSlot slot {} }

end BindOp

/-- A run; a step that raises an error leaves what it did so far. -/
def Binds.steps (ops : List BindOp) (binds : Binds) : Binds := ops.foldl (fun binds op => after op.run binds) binds

end VcmpLua.Model.Bindings
