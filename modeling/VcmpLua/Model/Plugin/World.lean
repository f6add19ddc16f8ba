import VcmpLua.Model.Core.EntityPool
import VcmpLua.Model.Core.EventBus
import VcmpLua.Model.Core.Scheduler
import VcmpLua.Model.Modules.Http

/-! # The server, the plugin and its runtime

The server is what `docs/internals.md` measured: for every kind it has the entities at some ids, and
an entity that is being deleted keeps its id until the deletion returns (a blip gives its id back
first). Players and key binds count as entities here. The plugin holds at most one runtime. Lua code
and other plugins are given from outside (`Environment`); what happens is recorded in a trace, each
entry with what its meaning depends on. The trace, who created an entity, and the fields that are
said to be so are not in the source and nothing in the source depends on them.
-/

namespace VcmpLua.Model.Plugin

open Effect VcmpLua.Model.Core VcmpLua.Model.Modules

/-- Who created an entity: a runtime of this plugin, or anybody else. -/
inductive Owner where
  | runtime (serial : ℕ)
  | other
deriving DecidableEq, Repr

structure Server where
  entities : EntityKind → Int → Option Owner := fun _ _ => none
  /-- The deletions that have not returned yet, innermost first. -/
  deletions : List (EntityKind × Int) := []

namespace Server

def exists? (server : Server) (kind : EntityKind) (id : Int) : Bool := (server.entities kind id).isSome

/-- The entity is being deleted and its id is still in use. -/
def leaving (server : Server) (kind : EntityKind) (id : Int) : Bool :=
  kind != .blip && (kind, id) ∈ server.deletions

def setEntity (server : Server) (kind : EntityKind) (id : Int) (owner : Option Owner) : Server :=
  { server with entities := Function.update server.entities kind (Function.update (server.entities kind) id owner) }

end Server

/-- The built-in events. -/
inductive Event where
  | serverInit | serverShutdown | serverFrame | pluginCommand | clientData | playerModuleList
  | playerConnection | playerConnect | playerDisconnect | playerRequestClass | playerRequestSpawn
  | playerSpawn | playerWasted | playerKill | playerUpdate | playerRequestEnterVehicle
  | playerEnterVehicle | playerExitVehicle | playerNameChange | playerStateChange
  | playerActionChange | playerFireChange | playerCrouchChange | playerGameKeysChange
  | playerBeginTyping | playerFinishTyping | playerAwayChange | playerMessage | playerCommand
  | playerPM | playerKeyDown | playerKeyUp | playerSpectate | playerCrashReport | vehicleUpdate
  | vehicleExplode | vehicleRespawn | objectShot | objectTouch | pickupPickAttempt | pickupPicked
  | pickupRespawn | checkpointEnter | checkpointExit | entityPoolChange | serverPerformanceReport
  | entityStreamingChange
deriving DecidableEq, Repr

/-- `EventBus::Index`. -/
def Event.index (event : Event) : ℕ := event.ctorIdx

/-- The place that `Guarded` names when it logs an exception. -/
inductive Callback where
  | onServerInitialise | onServerFrame | reload | onServerShutdown
  | onPlayerConnect (id : Int)
  | onPlayerDisconnect (id : Int)
  | onEntityPoolChange (kind : EntityKind) (id : Int) (deleted : Bool)
  | onEvent (event : Event)
deriving DecidableEq, Repr

/-- What happened. An owner is what the server had at the id right before. -/
inductive Entry where
  | adopted (kind : EntityKind) (id : Int) (alive : Bool) (owner : Option Owner) (leaving : Bool)
  | released (kind : EntityKind) (id : Int) (owner : Option Owner)
  | marked (serial : ℕ) (kind : EntityKind) (id : Int) (owner : Option Owner) (leaving : Bool)
  /-- `Emit` was called. -/
  | dispatched (event : Event) (refs : List (EntityKind × EntityRef))
  /-- A handler was called with these values. -/
  | called (event : Event) (refs : List (EntityKind × EntityRef)) (fn : Fn) (args : List (Option EntityHandle))
  /-- `Guarded` logged an exception. -/
  | reported (callback : Callback)
  /-- `OnPlayerDisconnect` arrived: whether the player was known, and already being reported. -/
  | disconnected (id : Int) (alive reporting : Bool)
  /-- `OnServerShutdown` arrived. -/
  | shutdownArrived (depth : ℕ)
  /-- `OnServerShutdown` arrived and found no runtime. -/
  | shutdownMissed
  /-- `Runtime::Shutdown` got past its guard. -/
  | shutDown (depth : ℕ) (dead : Bool)
  /-- A runtime was deleted. -/
  | deleted (depth : ℕ)
  /-- `Server.reload` was called. -/
  | reloadRequested
  /-- `OnServerFrame` comes to its end: the runtime and its depth, whether it lives, and whether a
  shutdown is deferred. -/
  | frameEnded (serial : Option ℕ) (depth : ℕ) (live deferred : Bool)
  /-- `Reload` keeps the runtime, because no new one can be started. -/
  | reloadFailed
  /-- `Reload` replaces the runtime. -/
  | reloading (depth : ℕ) (deletions : List (EntityKind × Int))
  /-- The new runtime of a reload was installed. -/
  | installed (serial : ℕ)
  /-- `DeleteCreated` or `clearAllBinds` passes the id to the server. -/
  | passed (serial : ℕ) (kind : EntityKind) (id : Int) (owner : Option Owner)
  /-- `DeleteCreated` ended with these left of what the runtime created. -/
  | swept (serial : ℕ) (left : List (EntityKind × Int))
  /-- Another plugin deletes an entity, while `DeleteCreated` of that runtime runs. -/
  | removed (kind : EntityKind) (id : Int) (owner : Option Owner) (sweeping : Option ℕ)
  /-- Another plugin registers or removes a key bind; `current` is the runtime installed then. -/
  | rebound (slot : Int) (owner : Option Owner) (current sweeping : Option ℕ)
deriving DecidableEq, Repr

structure Runtime where
  /-- Tells runtimes apart; not in the source. -/
  serial : ℕ
  /-- The number of `config_.scripts`. -/
  scripts : ℕ := 0
  /-- `lua_.has_value()`. -/
  luaOpen : Bool := true
  invoker : Invoker := {}
  entities : EntityKind → EntityPool := fun kind => { kind }
  events : EventBus := .init
  timers : Scheduler := {}
  transfers : Http := {}
  closing : Bool := false
  dead : Bool := false
  reloadRequested : Bool := false
  /-- `EntityPools::Enumerate` has run; not in the source. -/
  enumerated : Bool := false
  kinds : ∀ kind, (entities kind).kind = kind := by exact fun _ => rfl

namespace Runtime

def usable (runtime : Runtime) : Bool := runtime.luaOpen && !runtime.closing && !runtime.dead

def inLuaCall (runtime : Runtime) : Bool := 0 < runtime.invoker.depth

def updatePool (runtime : Runtime) (kind : EntityKind) (f : EntityPool → EntityPool)
    (sameKind : ∀ pool, (f pool).kind = pool.kind) : Runtime :=
  { runtime with
    entities := Function.update runtime.entities kind (f (runtime.entities kind))
    kinds := by
      intro query
      by_cases same : query = kind
      · subst same
        rw [Function.update_self, sameKind, runtime.kinds]
      · rw [Function.update_of_ne same, runtime.kinds] }

theorem entities_updatePool (runtime : Runtime) (kind : EntityKind) (f : EntityPool → EntityPool)
    (sameKind : ∀ pool, (f pool).kind = pool.kind) (query : EntityKind) :
    (runtime.updatePool kind f sameKind).entities query =
      if query = kind then f (runtime.entities kind) else runtime.entities query :=
  Function.update_apply _ _ _ _

end Runtime

/-- What `log::Configure` is given. -/
structure LogConfig where
  level : String := "info"
  file : String := ""
  daily : Bool := false
deriving DecidableEq, Repr

structure World where
  server : Server := {}
  /-- `Plugin().runtime`. -/
  runtime : Option Runtime := none
  shutdownDeferred : Bool := false
  /-- The configuration of the log. -/
  logConfig : LogConfig := {}
  /-- The serial of the next runtime. -/
  nextSerial : ℕ := 0
  /-- The players whose disconnect is being dispatched; not in the source. -/
  reporting : List Int := []
  /-- The runtime whose `DeleteCreated` runs; not in the source. -/
  sweeping : Option ℕ := none
  trace : List Entry := []

namespace World

def log (entry : Entry) (world : World) : World := { world with trace := world.trace ++ [entry] }

def updateRuntime (f : Runtime → Runtime) (world : World) : World :=
  { world with runtime := world.runtime.map f }

def setEntity (kind : EntityKind) (id : Int) (owner : Option Owner) (world : World) : World :=
  { world with server := world.server.setEntity kind id owner }

def owner (world : World) (kind : EntityKind) (id : Int) : Option Owner := world.server.entities kind id

def usable (world : World) : Bool := world.runtime.any Runtime.usable

/-- `Live`: the runtime, unless there is none or it died. It may be closing. -/
def live (world : World) : Option Runtime := world.runtime.filter (!·.dead)

def depth (world : World) : ℕ := (world.runtime.map (·.invoker.depth)).getD 0

def alive (world : World) (kind : EntityKind) (id : Int) : Bool :=
  world.runtime.any fun runtime => (runtime.entities kind).alive id

/-- `EntityPool::Valid` of the runtime's pool. -/
def valid (world : World) (kind : EntityKind) (id : Int) (generation : Generation) : Bool :=
  world.runtime.any fun runtime => (runtime.entities kind).valid id generation

/-- `EntityPool::Ref` of the runtime's pool. -/
def ref (world : World) (kind : EntityKind) (id : Int) : EntityRef :=
  (world.runtime.map fun runtime => (runtime.entities kind).ref id).getD {}

/-- `EntityPool::Adopt` of the runtime's pool. -/
def adopt (kind : EntityKind) (id : Int) (world : World) : World :=
  (world.log (.adopted kind id (world.alive kind id) (world.owner kind id) (world.server.leaving kind id))).updateRuntime
    fun runtime => runtime.updatePool kind (·.adopt id) (·.adopt_kind id)

/-- `EntityPool::Release` of the runtime's pool. -/
def release (kind : EntityKind) (id : Int) (world : World) : World :=
  (world.log (.released kind id (world.owner kind id))).updateRuntime
    fun runtime => runtime.updatePool kind (·.release id) (·.release_kind id)

/-- `EntityPool::MarkCreatedByUs` of the runtime's pool. -/
def markCreatedByUs (serial : ℕ) (kind : EntityKind) (id : Int) (world : World) : World :=
  (world.log (.marked serial kind id (world.owner kind id) (world.server.leaving kind id))).updateRuntime
    fun runtime => runtime.updatePool kind (·.markCreatedByUs id) (·.markCreatedByUs_kind id)

end World

instance : HasEvents World where
  invoker world := (world.runtime.map (·.invoker)).getD {}
  setInvoker invoker := World.updateRuntime fun runtime => { runtime with invoker }
  markDead := World.updateRuntime fun runtime =>
    { runtime with dead := true, invoker := { runtime.invoker with dead := true } }
  events world := (world.runtime.map (·.events)).getD {}
  setEvents events := World.updateRuntime fun runtime => { runtime with events }

end VcmpLua.Model.Plugin
