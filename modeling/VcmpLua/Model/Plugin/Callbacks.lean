import VcmpLua.Model.Plugin.World

/-! # The server callbacks

`plugin/callbacks.cpp` and `runtime/runtime.cpp`. A callback is code that cannot throw: `Guarded`
ends every exception. The code that runs inside (handlers, scripts being loaded, other plugins)
comes with the callback, one behaviour for each place it can run at. What timers, transfers and the
coroutine loop do is in their own modules; a frame is here the Lua functions that they call. An
access out of the event bus's range would count as an exception; there is none.
-/

namespace VcmpLua.Model.Plugin

open Effect VcmpLua.Model.Core World

/-- The dispatches that one request to the server can lead to. -/
inductive Label where
  | event | init | frame | shutdown
  | disconnect (id : Int)
deriving DecidableEq, Repr

/-- The places at which foreign code runs while a request is served. -/
inductive Site where
  | handler (label : Label) (fn : Fn)
  /-- The script with this number, while it is loaded. -/
  | script (number : ℕ)
  | timer (number : ℕ)
  | transfer (number : ℕ)
  | copas
  /-- Other plugins, before and after this one has been told. -/
  | before
  | after
  /-- Other plugins, while `DeleteCreated` deletes the entity. -/
  | sweep (kind : EntityKind) (id : Int) (late : Bool)
deriving DecidableEq, Repr

/-- What runs at each place. -/
abbrev Inner := Site → EStateM Empty World Ending

/-! ## Dispatching -/

/-- `PushEntity`. -/
def pushEntity (kind : EntityKind) (ref : EntityRef) : EStateM Exn World (Option EntityHandle) := fun world =>
  match world.runtime with
  | none => .ok none world
  | some runtime =>
    if ref.id < 0 then .ok none world
    else .ok ((runtime.entities kind).push ref.id ref.generation).1
      (world.updateRuntime fun runtime =>
        runtime.updatePool kind (fun pool => (pool.push ref.id ref.generation).2) fun pool => pool.push_kind _ _)

def pushArgs : List (EntityKind × EntityRef) → EStateM Exn World (List (Option EntityHandle))
  | [] => return []
  | (kind, ref) :: rest => do
      let handle ← pushEntity kind ref
      let handles ← pushArgs rest
      return handle :: handles

/-- `EventBus::Emit`. -/
def emit (inner : Inner) (label : Label) (event : Event) (refs : List (EntityKind × EntityRef)) :
    EStateM Exn World Unit := do
  modify (log (.dispatched event refs))
  let _ ← EventBus.dispatch event.index (pushArgs refs) fun fn args => do
    modify (log (.called event refs fn args))
    safely (inner (.handler label fn))

/-- `EntityPool::Seen`. -/
def seen (kind : EntityKind) (id : Int) : EStateM Exn World (EntityKind × EntityRef) := do
  modify (World.adopt kind id)
  return (kind, (← get).ref kind id)

/-- `Guarded`. -/
def guarded (callback : Callback) (body : EStateM Exn World Unit) : EStateM Empty World Unit := do
  match ← caught body with
  | .ok _ => pure ()
  | .error _ => modify (log (.reported callback))

/-- The dispatch of a player's disconnect. -/
def emitDisconnect (inner : Inner) (label : Label) (id : Int) (player : EntityKind × EntityRef) :
    EStateM Exn World Unit := do
  modify fun world => { world with reporting := id :: world.reporting }
  withCleanup (emit inner label .playerDisconnect [player])
    fun world => { world with reporting := world.reporting.erase id }

/-! ## The end of a runtime -/

/-- The loop of `NotifyServerShutdown`. -/
def disconnectPlayers (inner : Inner) : List Int → EStateM Exn World Unit
  | [] => pure ()
  | id :: rest => do
      if !(← get).usable then
        return
      -- a handler kicked this player meanwhile
      if !(← get).alive .player id then
        disconnectPlayers inner rest
      else
        emitDisconnect inner (.disconnect id) id (.player, (← get).ref .player id)
        modify (World.release .player id)
        disconnectPlayers inner rest

/-- `AliveIds` of the player pool. -/
def alivePlayers (world : World) : List Int :=
  (world.runtime.map fun runtime => (runtime.entities .player).aliveIds).getD []

/-- `Runtime::NotifyServerShutdown`. -/
def notifyServerShutdown (inner : Inner) : EStateM Exn World Unit := do
  if !(← get).usable then
    return
  emit inner .shutdown .serverShutdown []
  disconnectPlayers inner (alivePlayers (← get))

/-- The rest of `Runtime::Shutdown`, from the release of the Lua references on. -/
def Runtime.closeLua (runtime : Runtime) : Runtime :=
  { runtime with
    luaOpen := false
    timers := runtime.timers.clear
    transfers := runtime.transfers.clear
    events := runtime.events.clear
    entities := fun kind => (runtime.entities kind).releaseRefs
    kinds := runtime.kinds }

/-- `EntityPools::Close`. -/
def Runtime.closePools (runtime : Runtime) : Runtime :=
  { runtime with entities := fun kind => (runtime.entities kind).close, kinds := runtime.kinds }

/-- `Runtime::Shutdown`; a reload runs `deleteCreated`. After a panic everything is leaked. -/
def Runtime.shutdown (runtime : Runtime) (deleteCreated : Runtime → EStateM Empty World Unit) :
    EStateM Empty World Runtime := do
  if !runtime.luaOpen then
    return runtime
  if runtime.inLuaCall then
    return runtime
  modify (log (.shutDown runtime.invoker.depth runtime.dead))
  let runtime := { runtime with closing := true }
  if runtime.dead then
    return { runtime with luaOpen := false }
  let runtime := runtime.closePools
  deleteCreated runtime
  return runtime.closeLua

/-- `std::exchange(plugin.runtime, nullptr)`. -/
def takeRuntime : EStateM Empty World (Option Runtime) := do
  let runtime := (← get).runtime
  modify fun world => { world with runtime := none }
  return runtime

/-- The runtime that `FinishShutdown` took is shut down and deleted. -/
def dispose : Option Runtime → EStateM Empty World Unit
  | none => pure ()
  | some runtime => do
      let runtime ← runtime.shutdown fun _ => pure ()
      modify (log (.deleted runtime.invoker.depth))

/-- `FinishShutdown`. -/
def finishShutdown (inner : Inner) : EStateM Empty World Unit := do
  modify fun world => { world with shutdownDeferred := false }
  if (← get).runtime.isNone then
    return
  guarded .onServerShutdown (notifyServerShutdown inner)
  dispose (← takeRuntime)
  -- a handler may have sent another one
  modify fun world => { world with shutdownDeferred := false }

/-- `AfterCallback`: a deferred shutdown runs once no call into Lua is active anymore. -/
def afterCallback (inner : Inner) : EStateM Empty World Unit := do
  let world ← get
  if world.shutdownDeferred && world.runtime.any (!·.inLuaCall) then
    finishShutdown inner

/-- `OnServerShutdown`. -/
def onServerShutdown (inner : Inner) : EStateM Empty World Unit := do
  match (← get).runtime with
  | none => modify (log .shutdownMissed)
  | some runtime =>
    modify (log (.shutdownArrived runtime.invoker.depth))
    if runtime.inLuaCall then
      modify fun world => { world with shutdownDeferred := true }
    else
      finishShutdown inner

/-! ## Players and entities -/

/-- `OnPlayerConnect`. -/
def onPlayerConnect (id : Int) (inner : Inner) : EStateM Empty World Unit := do
  guarded (.onPlayerConnect id) do
    if (← get).live.isSome then
      let player ← seen .player id
      if (← get).usable then
        emit inner .event .playerConnect [player]
  afterCallback inner

/-- `OnPlayerDisconnect`: the player stays valid during the event and is released after it. -/
def onPlayerDisconnect (id : Int) (inner : Inner) : EStateM Empty World Unit := do
  modify fun world => world.log (.disconnected id (world.alive .player id) (id ∈ world.reporting))
  guarded (.onPlayerDisconnect id) do
    if (← get).live.isSome then
      let player ← seen .player id
      if (← get).usable then
        emitDisconnect inner .event id player
      if (← get).live.isSome then
        modify (World.release .player id)
  afterCallback inner

/-- The event of a changed pool. -/
def emitPoolChange (inner : Inner) : EStateM Exn World Unit := do
  if (← get).usable then
    emit inner .event .entityPoolChange []

/-- A new entity is adopted before the event, a deleted one is released after it. -/
def poolChanged (kind : EntityKind) (id : Int) (deleted : Bool) (inner : Inner) : EStateM Exn World Unit :=
  if deleted then do
    emitPoolChange inner
    if (← get).live.isSome then
      modify (World.release kind id)
  else do
    modify (World.adopt kind id)
    emitPoolChange inner

/-- `OnEntityPoolChange`, for the pools that `FromServerPool` has. -/
def onEntityPoolChange (kind : EntityKind) (id : Int) (deleted : Bool) (inner : Inner) :
    EStateM Empty World Unit := do
  guarded (.onEntityPoolChange kind id deleted) do
    if (← get).live.isSome then
      poolChanged kind id deleted inner
  afterCallback inner

/-! ## Other events -/

/-- The callbacks that only dispatch an event, with the ids of the entities they report. -/
inductive EventCallback where
  | onIncomingConnection
  | onPlayerModuleList (player : Int)
  | onPlayerRequestClass (player : Int)
  | onPlayerRequestSpawn (player : Int)
  | onPlayerSpawn (player : Int)
  | onPlayerDeath (player killer : Int)
  | onPlayerUpdate (player : Int)
  | onPlayerRequestEnterVehicle (player vehicle : Int)
  | onPlayerEnterVehicle (player vehicle : Int)
  | onPlayerExitVehicle (player vehicle : Int)
  | onPlayerNameChange (player : Int)
  | onPlayerStateChange (player : Int)
  | onPlayerActionChange (player : Int)
  | onPlayerOnFireChange (player : Int)
  | onPlayerCrouchChange (player : Int)
  | onPlayerGameKeysChange (player : Int)
  | onPlayerBeginTyping (player : Int)
  | onPlayerEndTyping (player : Int)
  | onPlayerAwayChange (player : Int)
  | onPlayerMessage (player : Int)
  | onPlayerCommand (player : Int)
  | onPlayerPrivateMessage (player target : Int)
  | onPlayerSpectate (player target : Int)
  | onPlayerCrashReport (player : Int)
  | onVehicleUpdate (vehicle : Int)
  | onVehicleExplode (vehicle : Int)
  | onVehicleRespawn (vehicle : Int)
  | onObjectShot (object player : Int)
  | onObjectTouched (object player : Int)
  | onPickupPickAttempt (pickup player : Int)
  | onPickupPicked (pickup player : Int)
  | onPickupRespawn (pickup : Int)
  | onCheckpointEntered (checkpoint player : Int)
  | onCheckpointExited (checkpoint player : Int)
  | onPlayerKeyBindDown (player bind : Int)
  | onPlayerKeyBindUp (player bind : Int)
  | onClientScriptData (player : Int)
  | onPluginCommand
  | onServerPerformanceReport
  | onEntityStreamingChange (player : Int)
deriving DecidableEq, Repr

/-- The event of a callback, and the entities that it reports. -/
def EventCallback.reports (server : Server) : EventCallback → Event × List (EntityKind × Int)
  | onIncomingConnection => (.playerConnection, [])
  | onPlayerModuleList player => (.playerModuleList, [(.player, player)])
  | onPlayerRequestClass player => (.playerRequestClass, [(.player, player)])
  | onPlayerRequestSpawn player => (.playerRequestSpawn, [(.player, player)])
  | onPlayerSpawn player => (.playerSpawn, [(.player, player)])
  | onPlayerDeath player killer =>
    if 0 ≤ killer ∧ server.exists? .player killer then (.playerKill, [(.player, player), (.player, killer)])
    else (.playerWasted, [(.player, player)])
  | onPlayerUpdate player => (.playerUpdate, [(.player, player)])
  | onPlayerRequestEnterVehicle player vehicle =>
    (.playerRequestEnterVehicle, [(.player, player), (.vehicle, vehicle)])
  | onPlayerEnterVehicle player vehicle => (.playerEnterVehicle, [(.player, player), (.vehicle, vehicle)])
  | onPlayerExitVehicle player vehicle => (.playerExitVehicle, [(.player, player), (.vehicle, vehicle)])
  | onPlayerNameChange player => (.playerNameChange, [(.player, player)])
  | onPlayerStateChange player => (.playerStateChange, [(.player, player)])
  | onPlayerActionChange player => (.playerActionChange, [(.player, player)])
  | onPlayerOnFireChange player => (.playerFireChange, [(.player, player)])
  | onPlayerCrouchChange player => (.playerCrouchChange, [(.player, player)])
  | onPlayerGameKeysChange player => (.playerGameKeysChange, [(.player, player)])
  | onPlayerBeginTyping player => (.playerBeginTyping, [(.player, player)])
  | onPlayerEndTyping player => (.playerFinishTyping, [(.player, player)])
  | onPlayerAwayChange player => (.playerAwayChange, [(.player, player)])
  | onPlayerMessage player => (.playerMessage, [(.player, player)])
  | onPlayerCommand player => (.playerCommand, [(.player, player)])
  | onPlayerPrivateMessage player target => (.playerPM, [(.player, player), (.player, target)])
  | onPlayerSpectate player target => (.playerSpectate, [(.player, player), (.player, target)])
  | onPlayerCrashReport player => (.playerCrashReport, [(.player, player)])
  | onVehicleUpdate vehicle => (.vehicleUpdate, [(.vehicle, vehicle)])
  | onVehicleExplode vehicle => (.vehicleExplode, [(.vehicle, vehicle)])
  | onVehicleRespawn vehicle => (.vehicleRespawn, [(.vehicle, vehicle)])
  | onObjectShot object player => (.objectShot, [(.object, object), (.player, player)])
  | onObjectTouched object player => (.objectTouch, [(.object, object), (.player, player)])
  | onPickupPickAttempt pickup player => (.pickupPickAttempt, [(.pickup, pickup), (.player, player)])
  | onPickupPicked pickup player => (.pickupPicked, [(.pickup, pickup), (.player, player)])
  | onPickupRespawn pickup => (.pickupRespawn, [(.pickup, pickup)])
  | onCheckpointEntered checkpoint player => (.checkpointEnter, [(.checkpoint, checkpoint), (.player, player)])
  | onCheckpointExited checkpoint player => (.checkpointExit, [(.checkpoint, checkpoint), (.player, player)])
  | onPlayerKeyBindDown player bind => (.playerKeyDown, [(.player, player), (.bind, bind)])
  | onPlayerKeyBindUp player bind => (.playerKeyUp, [(.player, player), (.bind, bind)])
  | onClientScriptData player => (.clientData, [(.player, player)])
  | onPluginCommand => (.pluginCommand, [])
  | onServerPerformanceReport => (.serverPerformanceReport, [])
  | onEntityStreamingChange player => (.entityStreamingChange, [(.player, player)])

/-- The callbacks that return at once when nobody handles their event. -/
def EventCallback.skips : EventCallback → Bool
  | onPlayerUpdate _ | onVehicleUpdate _ | onClientScriptData _ | onServerPerformanceReport => true
  | _ => false

/-- The local function `Seen`: none for an id outside the pool. -/
def seenInRange (kind : EntityKind) (id : Int) : EStateM Exn World (EntityKind × EntityRef) :=
  if (traits kind).firstId ≤ id ∧ id < (traits kind).capacity then seen kind id else return (kind, {})

def seenAll : List (EntityKind × Int) → EStateM Exn World (List (EntityKind × EntityRef))
  | [] => return []
  | (kind, id) :: rest => do
      let ref ← seenInRange kind id
      let refs ← seenAll rest
      return ref :: refs

/-- `OnEvent`, with the body of each callback that uses it. -/
def onEvent (callback : EventCallback) (inner : Inner) : EStateM Empty World Unit := do
  let (event, entities) := callback.reports (← get).server
  guarded (.onEvent event) do
    if (← get).usable then
      if !callback.skips || (HasEvents.events (← get)).hasHandlers event.index then
        let refs ← seenAll entities
        emit inner .event event refs
  afterCallback inner

/-! ## Loading scripts and frames -/

/-- The kinds in the order in which `Enumerate` asks for them. -/
def enumeratedKinds : List EntityKind := [.player, .bind, .vehicle, .object, .pickup, .checkpoint, .blip]

def kindIds (kind : EntityKind) : List (EntityKind × Int) := (EntityPool.ids { kind }).map (kind, ·)

/-- `EntityPools::Enumerate`. -/
def enumerate (world : World) : World :=
  (((enumeratedKinds.flatMap kindIds).filter fun (kind, id) => world.server.exists? kind id).foldl
    (fun world (kind, id) => world.adopt kind id) world).updateRuntime fun runtime => { runtime with enumerated := true }

/-- The loop of `LoadScripts`. -/
def loadFiles (inner : Inner) : List ℕ → EStateM Exn World Unit
  | [] => pure ()
  | number :: rest => do
      if !(← get).usable then
        return
      let _ ← Invoker.scope do
        let ending ← safely (inner (.script number))
        Invoker.finishCall ending
      loadFiles inner rest

/-- `Runtime::LoadScripts`. -/
def loadScripts (inner : Inner) : EStateM Exn World Unit := do
  match (← get).runtime with
  | none => pure ()
  | some runtime =>
    if !runtime.usable then
      return
    modify enumerate
    loadFiles inner (List.range runtime.scripts)
    if (← get).usable then
      emit inner .init .serverInit []

/-- `OnServerInitialise`. -/
def onServerInitialise (inner : Inner) : EStateM Empty World Unit := do
  guarded .onServerInitialise do
    if (← get).live.isSome then
      loadScripts inner
  afterCallback inner

/-- `Invoker::Call` of a function without arguments. -/
def callLua (inner : Inner) (site : Site) : EStateM Exn World Unit := do
  let _ ← Invoker.call (pure ()) fun _ => safely (inner site)

/-- Some functions called one after the other, as one call into Lua. -/
def callAll (inner : Inner) (site : ℕ → Site) (count : ℕ) : EStateM Exn World Unit :=
  if count = 0 then pure () else Invoker.scope (forEach (fun number => callLua inner (site number)) (List.range count))

/-- `Runtime::Frame`: due timers, finished requests, one step of the coroutine loop, the event. -/
def frame (timers transfers : ℕ) (inner : Inner) : EStateM Exn World Unit := do
  if !(← get).usable then
    return
  callAll inner .timer timers
  callAll inner .transfer transfers
  callLua inner .copas
  if (← get).usable then
    emit inner .frame .serverFrame []

end VcmpLua.Model.Plugin
