import VcmpLua.Lib.Script
import VcmpLua.Model.Plugin.Callbacks

/-! # What the plugin runs in

The functions of the server that call back, the bindings that call them, and every request that Lua
code, other plugins or the server itself can make. A behaviour of all of them is a script of
requests: Lua's requests are refused while no Lua code runs, the others can come at any time. The
server picks ids freely, so they are part of a request; an id that it cannot pick counts as a
refusal. Other plugins run before and after this one is told of a change.
-/

namespace VcmpLua.Model.Plugin

open Effect VcmpLua.Model.Core VcmpLua.Model.Modules World

def inRange (kind : EntityKind) (id : Int) : Bool :=
  decide ((traits kind).firstId ≤ id) && decide (id < (traits kind).capacity)

/-- The kinds that have pool events, in the order of `kServerPools`. -/
def serverPools : List EntityKind := [.vehicle, .object, .pickup, .checkpoint, .blip]

/-! ## The server -/

/-- `Create*`: the server adds the entity and reports it before it returns. -/
def createEntity (kind : EntityKind) (id : Int) (owner : Owner) (inner : Inner) : EStateM Empty World (Option Int) := do
  if !(inRange kind id) || (← get).server.exists? kind id then
    return none
  modify (setEntity kind id (some owner))
  let _ ← inner .before
  onEntityPoolChange kind id false inner
  let _ ← inner .after
  return some id

/-- The deletion begins: a blip is gone at once. -/
def beginDeletion (kind : EntityKind) (id : Int) (world : World) : World :=
  let world := { world with server := { world.server with deletions := (kind, id) :: world.server.deletions } }
  if kind = .blip then world.setEntity kind id none else world

/-- The deletion returns: anything else is gone now. -/
def endDeletion (kind : EntityKind) (id : Int) (world : World) : World :=
  let world := { world with server := { world.server with deletions := world.server.deletions.erase (kind, id) } }
  if kind = .blip then world else world.setEntity kind id none

/-- `Delete*` and `DestroyCoordBlip`: false if there is no such entity. `before` and `after` are what
other plugins do when it is reported to them. -/
def deleteEntity (kind : EntityKind) (id : Int) (before after : EStateM Empty World Ending) (inner : Inner) :
    EStateM Empty World Bool := do
  if !(← get).server.exists? kind id || (← get).server.leaving kind id then
    return false
  modify (beginDeletion kind id)
  let _ ← before
  onEntityPoolChange kind id true inner
  let _ ← after
  modify (endDeletion kind id)
  return true

/-- A player joins. -/
def connectPlayer (id : Int) (inner : Inner) : EStateM Empty World Unit := do
  if !(inRange .player id) || (← get).server.exists? .player id then
    return
  modify (setEntity .player id (some .other))
  let _ ← inner .before
  onPlayerConnect id inner
  let _ ← inner .after

/-- `KickPlayer`, and any other way in which a connected player leaves. -/
def kickPlayer (id : Int) (inner : Inner) : EStateM Empty World Bool := do
  if !(← get).server.exists? .player id then
    return false
  let _ ← inner .before
  onPlayerDisconnect id inner
  let _ ← inner .after
  modify (setEntity .player id none)
  return true

/-- `RegisterKeyBind`: a slot whose keys are all 0 is free. -/
def registerKeyBind (slot : Int) (keys : Int × Int × Int) (owner : Owner) (world : World) : World :=
  world.setEntity .bind slot (if keys = (0, 0, 0) then none else some owner)

/-- `RemoveKeyBind`. -/
def removeKeyBind (slot : Int) (world : World) : World := world.setEntity .bind slot none

/-! ## Reloading -/

/-- What the server has of what a runtime created. -/
def leftOf (serial : ℕ) (world : World) : List (EntityKind × Int) :=
  ((serverPools ++ [EntityKind.bind]).flatMap kindIds).filter fun (kind, id) =>
    world.owner kind id = some (Owner.runtime serial)

/-- `EntityPools::DeleteCreated`. Nobody sees the events: no runtime is installed. -/
def deleteCreated (inner : Inner) (runtime : Runtime) : EStateM Empty World Unit := do
  modify fun world => { world with sweeping := some runtime.serial }
  forEach (fun (kind, id) => do
      modify fun world => world.log (.passed runtime.serial kind id (world.owner kind id))
      let _ ← deleteEntity kind id (inner (.sweep kind id false)) (inner (.sweep kind id true)) inner)
    (serverPools.flatMap fun kind => (runtime.entities kind).createdByUs.map (kind, ·))
  forEach (fun id => modify fun world =>
      removeKeyBind id (world.log (.passed runtime.serial .bind id (world.owner .bind id))))
    (runtime.entities .bind).createdByUs
  modify fun world => { world.log (.swept runtime.serial (leftOf runtime.serial world)) with sweeping := none }

/-- `Runtime::RequestReload`. -/
def World.requestReload (world : World) : World :=
  (world.log .reloadRequested).updateRuntime fun runtime => { runtime with reloadRequested := true }

/-- `Runtime::CancelReload`. -/
def World.cancelReload (world : World) : World :=
  (world.log .reloadFailed).updateRuntime fun runtime => { runtime with reloadRequested := false }

/-- `plugin.runtime = fresh.release()`. -/
def World.install (scripts : ℕ) (world : World) : World :=
  { world.log (.installed world.nextSerial) with
    runtime := some { serial := world.nextSerial, scripts }
    nextSerial := world.nextSerial + 1 }

/-- What the config file says: the number of its scripts, and the log. -/
structure Config where
  scripts : ℕ := 0
  log : LogConfig := {}
deriving DecidableEq, Repr

/-- How far a new runtime gets: to an error in the config file, in the constructor or in the
`on_runtime` hook, or to its start. -/
inductive Restart where
  | configFails
  | runtimeFails (config : Config)
  | hookFails (config : Config)
  | starts (config : Config)
deriving DecidableEq, Repr

/-- What `Reload` tries. The new runtime is nowhere installed yet and is deleted if it fails. -/
def startRuntime : Restart → EStateM Exn World Config
  | .configFails => throw (.thrown "the config file is not valid")
  | .runtimeFails _ => throw (.thrown "cannot set up the Lua state")
  | .hookFails _ => throw (.thrown "on_runtime")
  | .starts config => do
      modify fun world => { world with logConfig := config.log }
      return config

/-- `Reload`. -/
def reload (restart : Restart) (inner : Inner) : EStateM Exn World Unit := do
  match ← attempt (startRuntime restart) with
  | .error _ => modify World.cancelReload
  | .ok config =>
    modify fun world => world.log (.reloading world.depth world.server.deletions)
    match ← safely takeRuntime with
    | none => pure ()
    | some old =>
      let old ← safely (old.shutdown (deleteCreated inner))
      modify (log (.deleted old.invoker.depth))
      modify (World.install config.scripts)
      loadScripts inner

/-- The condition under which a frame ends with a reload. -/
def World.reloads (world : World) : Bool :=
  world.live.any (fun runtime => runtime.reloadRequested && !runtime.inLuaCall) && !world.shutdownDeferred

/-- The state at the end of a frame goes on record. -/
def World.endFrame (world : World) : World :=
  world.log (.frameEnded (world.runtime.map (·.serial)) world.depth world.live.isSome world.shutdownDeferred)

/-- `OnServerFrame`. -/
def onServerFrame (timers transfers : ℕ) (restart : Restart) (inner : Inner) : EStateM Empty World Unit := do
  guarded .onServerFrame do
    if (← get).live.isSome then
      frame timers transfers inner
  afterCallback inner
  -- a reload requested during the frame runs at its end
  guarded .reload do
    modify World.endFrame
    if (← get).reloads then
      reload restart inner
  -- the new scripts may have received a shutdown while they loaded
  afterCallback inner

/-! ## Bindings -/

/-- `Runtime::Require`. -/
def requireRuntime : EStateM Exn World Runtime := fun world =>
  match world.runtime with
  | some runtime => if runtime.usable then .ok runtime world else .error (.thrown "runtime shutting down") world
  | none => .error (.thrown "runtime shutting down") world

/-- The function `Created`, after a `Create*` call. -/
def created (runtime : Runtime) (kind : EntityKind) : Option Int → EStateM Exn World Int
  | none => throw (.thrown "the server refused")
  | some id => do
      modify (World.adopt kind id)
      modify (World.markCreatedByUs runtime.serial kind id)
      return id

/-- The `create` binding of a class with pool events. -/
def create (kind : EntityKind) (id : Int) (inner : Inner) : EStateM Exn World Int := do
  let runtime ← requireRuntime
  let result ← safely (createEntity kind id (.runtime runtime.serial) inner)
  created runtime kind result

/-- `EntityPool::Require` of the runtime's pool. -/
def requireEntity (kind : EntityKind) (id : Int) (generation : Generation) : EStateM Exn World Unit := do
  let runtime ← requireRuntime
  match (runtime.entities kind).require id generation with
  | .ok _ => pure ()
  | .error message => throw (.thrown message)

/-- `RequireBindExists`. -/
def requireBindExists (id : Int) : EStateM Exn World Unit := do
  if !(← get).server.exists? .bind id then
    modify (World.release .bind id)
    throw (.thrown "bind no longer exists")

/-- `CheckLive`. -/
def checkLive (kind : EntityKind) (id : Int) (generation : Generation) : EStateM Exn World Unit := do
  requireEntity kind id generation
  if kind = .bind then
    requireBindExists id

/-- `vehicle:destroy()`, and the same for objects, pickups and checkpoints. -/
def destroy (kind : EntityKind) (id : Int) (generation : Generation) (inner : Inner) : EStateM Exn World Int := do
  checkLive kind id generation
  if !(← safely (deleteEntity kind id (inner .before) (inner .after) inner)) then
    throw (.thrown "'destroy' failed: no such entity")
  modify (World.release kind id)
  return 1

/-- `DestroyBlip`: also when there is no such blip. -/
def destroyBlip (id : Int) (inner : Inner) : EStateM Exn World Int := do
  let _ ← requireRuntime
  let deleted ← safely (deleteEntity .blip id (inner .before) (inner .after) inner)
  modify (World.release .blip id)
  return if deleted then 1 else 0

/-- `Bind.create`, in the slot that `GetKeyBindUnusedSlot` returned. -/
def createBind (slot : Int) (keys : Int × Int × Int) : EStateM Exn World Int := do
  let runtime ← requireRuntime
  if !(inRange .bind slot) || (← get).server.exists? .bind slot then
    throw (.thrown "'create' failed: no free key bind slot")
  modify (registerKeyBind slot keys (.runtime runtime.serial))
  created runtime .bind (some slot)

/-- The function `Remove` of a bind; a bind already gone counts as removed. -/
def removeBind (id : Int) : EStateM Exn World Int := do
  modify (removeKeyBind id)
  modify (World.release .bind id)
  return 1

/-- `Bind.clearAllBinds`. -/
def clearAllBinds : EStateM Exn World Int := do
  let runtime ← requireRuntime
  forEach (fun id => do
      modify fun world => world.log (.passed runtime.serial .bind id (world.owner .bind id))
      let _ ← removeBind id)
    (runtime.entities .bind).createdByUs
  return 0

/-! ## Requests -/

/-- What Lua code can ask for. -/
inductive Binding where
  | create (kind : EntityKind) (id : Int)
  | destroy (kind : EntityKind) (id : Int) (generation : Generation)
  /-- `Blip.destroy` with an id. -/
  | destroyBlip (id : Int)
  /-- `Blip.destroy` with a handle. -/
  | destroyBlipHandle (id : Int) (generation : Generation)
  | createBind (slot : Int) (keys : Int × Int × Int)
  | destroyBind (id : Int) (generation : Generation)
  | clearAllBinds
  /-- Any other member of an entity. -/
  | use (kind : EntityKind) (id : Int) (generation : Generation)
  | kick (id : Int) (generation : Generation)
  /-- `Server.reload`. -/
  | reload
  | createEvent (name : String)
  | bind (event : ℕ) (fn : Fn)
  | unbind (event : ℕ) (fn : Fn)
  | cancel
  /-- A dispatch of a custom event. -/
  | trigger (event : ℕ)
deriving DecidableEq, Repr

inductive Op where
  | lua (binding : Binding)
  /-- Another plugin creates or deletes an entity. -/
  | create (kind : EntityKind) (id : Int)
  | delete (kind : EntityKind) (id : Int)
  | registerKeyBind (slot : Int) (keys : Int × Int × Int)
  | removeKeyBind (slot : Int)
  | connect (id : Int)
  | disconnect (id : Int)
  | initialise
  | frame (timers transfers : ℕ) (restart : Restart)
  /-- What the timers and the transfers of the runtime are now. -/
  | modules (timers : Scheduler) (transfers : Http)
  | shutdown
  | event (callback : EventCallback)

/-- What Lua gets: none for an error. -/
abbrev Reply := Option Int

/-- Any behaviour of the code around the plugin. -/
abbrev Behaviour := Script Op Site Reply Ending

/-- One request, answered whichever way. -/
def Behaviour.request (op : Op) (inner : Site → Behaviour) (next : Behaviour) : Behaviour :=
  .act op inner fun _ => next

/-- Code that runs at one place only. -/
def Behaviour.only (place : Site) (code : Behaviour) : Site → Behaviour :=
  fun site => if site = place then code else .ret .returned

/-- One request and nothing else, here or inside. -/
def Behaviour.single (op : Op) : Behaviour := .request op (fun _ => .ret .returned) (.ret .returned)

/-- What a binding does. -/
def Binding.run (inner : Inner) : Binding → EStateM Exn World Int
  | .create kind id => if kind ∈ serverPools then Plugin.create kind id inner else throw (.thrown "no such binding")
  | .destroy kind id generation =>
    if kind ∈ [EntityKind.vehicle, .object, .pickup, .checkpoint] then Plugin.destroy kind id generation inner
    else throw (.thrown "no such binding")
  | .destroyBlip id => Plugin.destroyBlip id inner
  | .destroyBlipHandle id generation => do
      checkLive .blip id generation
      Plugin.destroyBlip id inner
  | .createBind slot keys => Plugin.createBind slot keys
  | .destroyBind id generation => do
      checkLive .bind id generation
      removeBind id
  | .clearAllBinds => Plugin.clearAllBinds
  | .use kind id generation => do
      checkLive kind id generation
      return 0
  | .kick id generation => do
      checkLive .player id generation
      let _ ← safely (kickPlayer id inner)
      return 0
  | .reload => do
      let _ ← requireRuntime
      modify World.requestReload
      return 0
  | .createEvent name => do
      let _ ← requireRuntime
      let isNew ← EventBus.liftBus fun bus => .ok (bus.create name)
      return if isNew then 1 else 0
  | .bind event fn => do
      let _ ← requireRuntime
      let isNew ← EventBus.liftBus fun bus => bus.bind event fn
      return if isNew then 1 else 0
  | .unbind event fn => do
      let _ ← requireRuntime
      let found ← EventBus.liftBus fun bus => bus.unbind event fn
      return if found then 1 else 0
  | .cancel => do
      let _ ← requireRuntime
      EventBus.liftBus fun bus => (bus.cancel).map fun bus => (0, bus)
  | .trigger event => do
      let _ ← requireRuntime
      let report ← EventBus.dispatch event (pure ()) fun fn _ => safely (inner (.handler .event fn))
      return if report.cancelled then 0 else 1

/-- A binding called from Lua: its exception becomes a Lua error. -/
def runBinding (inner : Inner) (binding : Binding) : EStateM Empty World Reply := do
  if (← get).depth = 0 then
    return none
  match ← caught (binding.run inner) with
  | .ok value => return some value
  | .error _ => return none

/-- Another plugin deletes an entity. -/
def deleteByOther (kind : EntityKind) (id : Int) (inner : Inner) : EStateM Empty World Bool := do
  modify fun world => world.log (.removed kind id (world.owner kind id) world.sweeping)
  deleteEntity kind id (inner .before) (inner .after) inner

/-- Another plugin changes a key bind; the server reports it to nobody. -/
def rebind (slot : Int) (change : World → World) (world : World) : World :=
  change (world.log (.rebound slot (world.owner .bind slot) (world.runtime.map (·.serial)) world.sweeping))

/-- How a request is served. -/
def serve (op : Op) (inner : Inner) : EStateM Empty World Reply := do
  match op with
  | .lua binding => runBinding inner binding
  | .create kind id => do
      if kind ∈ serverPools then
        createEntity kind id .other inner
      else return none
  | .delete kind id => do
      if kind ∈ serverPools then
        let _ ← deleteByOther kind id inner
      return none
  | .registerKeyBind slot keys => do
      if inRange .bind slot then
        modify (rebind slot (Plugin.registerKeyBind slot keys .other))
      return none
  | .removeKeyBind slot => do
      modify (rebind slot (Plugin.removeKeyBind slot))
      return none
  | .connect id => do
      connectPlayer id inner
      return none
  | .disconnect id => do
      let _ ← kickPlayer id inner
      return none
  | .initialise => do
      onServerInitialise inner
      return none
  | .frame timers transfers restart => do
      onServerFrame timers transfers restart inner
      return none
  | .modules timers transfers => do
      modify (updateRuntime fun runtime => { runtime with timers, transfers })
      return none
  | .shutdown => do
      onServerShutdown inner
      return none
  | .event callback => do
      onEvent callback inner
      return none

/-- A server with these entities, all inside the ranges of the pools and none of them ours. -/
def Server.initial (existing : EntityKind → Int → Bool) : Server where
  entities kind id := if existing kind id && inRange kind id then some .other else none

/-- The plugin right after `VcmpPluginInit`. -/
def World.start (existing : EntityKind → Int → Bool) (scripts : ℕ) : World :=
  { server := .initial existing, runtime := some { serial := 0, scripts }, nextSerial := 1 }

/-- A behaviour, run. -/
def perform (behaviour : Behaviour) : EStateM Empty World Ending := Script.run serve behaviour

end VcmpLua.Model.Plugin
