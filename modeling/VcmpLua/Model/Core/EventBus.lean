import VcmpLua.Model.Core.Invoker

/-! # The event bus

`core/event_bus.cpp`: handlers per event in bind order. A dispatch walks the list by index up to the
length it had at the start; unbinding only marks a handler dead, and dead handlers are removed when
no dispatch of any event is active. Each active dispatch owns one cancel flag, the innermost last.
Unchecked accesses (`operator[]`, `back`) are undefined out of range. `Same` compares functions by
identity, here their number; its stack check is not modelled.
-/

namespace VcmpLua.Model.Core

open Effect

/-- The built-in events, in the order of the enumeration. -/
def eventNames : List String :=
  ["onServerInit", "onServerShutdown", "onServerFrame", "onPluginCommand", "onClientData",
    "onPlayerModuleList", "onPlayerConnection", "onPlayerConnect", "onPlayerDisconnect",
    "onPlayerRequestClass", "onPlayerRequestSpawn", "onPlayerSpawn", "onPlayerWasted",
    "onPlayerKill", "onPlayerUpdate", "onPlayerRequestEnterVehicle", "onPlayerEnterVehicle",
    "onPlayerExitVehicle", "onPlayerNameChange", "onPlayerStateChange", "onPlayerActionChange",
    "onPlayerFireChange", "onPlayerCrouchChange", "onPlayerGameKeysChange", "onPlayerBeginTyping",
    "onPlayerFinishTyping", "onPlayerAwayChange", "onPlayerMessage", "onPlayerCommand", "onPlayerPM",
    "onPlayerKeyDown", "onPlayerKeyUp", "onPlayerSpectate", "onPlayerCrashReport",
    "onVehicleUpdate", "onVehicleExplode", "onVehicleRespawn", "onObjectShot", "onObjectTouch",
    "onPickupPickAttempt", "onPickupPicked", "onPickupRespawn", "onCheckpointEnter",
    "onCheckpointExit", "onEntityPoolChange", "onServerPerformanceReport", "onEntityStreamingChange"]

structure Handler where
  fn : Fn
  alive : Bool := true
deriving DecidableEq, Repr

structure EventBus where
  lists : List (List Handler) := []
  names : List String := []
  indexByName : List (String × ℕ) := []
  /-- One per active dispatch, innermost last. -/
  cancelled : List Bool := []
  needsCompaction : Bool := false
deriving DecidableEq, Repr

namespace EventBus

def find (bus : EventBus) (name : String) : Option ℕ := bus.indexByName.lookup name

/-- Adds a custom event; false if an event with that name exists. -/
def create (bus : EventBus) (name : String) : Bool × EventBus :=
  if (bus.find name).isSome then (false, bus)
  else
    let lists := bus.lists ++ [[]]
    (true, { bus with
      lists := lists
      names := bus.names ++ [name]
      indexByName := (name, lists.length - 1) :: bus.indexByName })

/-- The constructor: the built-in events get the indices of the enumeration. -/
def init : EventBus := eventNames.foldl (fun bus name => (bus.create name).2) {}

/-- False if `fn` is already bound to the event. -/
def bind (bus : EventBus) (event : ℕ) (fn : Fn) : Except Exn (Bool × EventBus) :=
  match bus.lists[event]? with
  | none => .error (.thrown "deque::at")
  | some list =>
    if list.any fun handler => handler.alive && handler.fn == fn then .ok (false, bus)
    else .ok (true, { bus with lists := bus.lists.set event (list ++ [⟨fn, true⟩]) })

def compact (bus : EventBus) : EventBus :=
  { bus with lists := bus.lists.map fun list => list.filter (·.alive), needsCompaction := false }

/-- The list with its first alive handler of `fn` marked dead, if there is one. -/
def markDead (fn : Fn) : List Handler → Option (List Handler)
  | [] => none
  | handler :: rest =>
    if handler.alive && handler.fn == fn then some ({ handler with alive := false } :: rest)
    else (markDead fn rest).map (handler :: ·)

/-- False if `fn` is not bound to the event. -/
def unbind (bus : EventBus) (event : ℕ) (fn : Fn) : Except Exn (Bool × EventBus) :=
  match bus.lists[event]? with
  | none => .error (.thrown "deque::at")
  | some list =>
    match markDead fn list with
    | none => .ok (false, bus)
    | some list =>
      let bus := { bus with lists := bus.lists.set event list, needsCompaction := true }
      .ok (true, if bus.cancelled.isEmpty then bus.compact else bus)

/-- Cancels the innermost active dispatch. -/
def cancel (bus : EventBus) : Except Exn EventBus :=
  if bus.cancelled.isEmpty then
    .error (.thrown "Event.cancel() called outside an event handler")
  else .ok { bus with cancelled := bus.cancelled.dropLast ++ [true] }

def hasHandlers (bus : EventBus) (event : ℕ) : Bool :=
  match bus.lists[event]? with
  | some list => !list.isEmpty
  | none => false

/-- Releases every handler. -/
def clear (bus : EventBus) : EventBus :=
  { bus with lists := bus.lists.map fun _ => [], needsCompaction := false }

/-! ## One active dispatch -/

/-- The constructor of `DispatchFrame`; its index is the length before. -/
def pushFrame (bus : EventBus) : EventBus := { bus with cancelled := bus.cancelled ++ [false] }

/-- `cancelled_.resize(index_)`: also the destructor of a frame that did not finish. -/
def popFrame (index : ℕ) (bus : EventBus) : EventBus :=
  { bus with cancelled := bus.cancelled.take index }

/-- `DispatchFrame::Finish` after the flag was read. -/
def finishFrame (index : ℕ) (bus : EventBus) : EventBus :=
  let bus := bus.popFrame index
  if bus.cancelled.isEmpty && bus.needsCompaction then bus.compact else bus

end EventBus

/-- A state that holds an event bus and the invoker it calls through. -/
class HasEvents (σ : Type) extends HasInvoker σ where
  events : σ → EventBus
  setEvents : EventBus → σ → σ

/-- What a dispatch did: its result, and the functions it called, in order. -/
structure Report where
  cancelled : Bool
  called : List Fn
deriving DecidableEq, Repr

namespace EventBus

variable {σ α : Type} [HasEvents σ]

open HasEvents

def modifyEvents (f : EventBus → EventBus) (s : σ) : σ := setEvents (f (events s)) s

/-- A member function of the bus that does not call out. -/
def liftBus {β : Type} (f : EventBus → Except Exn (β × EventBus)) : EStateM Exn σ β := fun s =>
  match f (events s) with
  | .ok (b, bus) => .ok b (setEvents bus s)
  | .error e => .error e s

/-- `lists_[event][i]`. -/
def handlerAt (event i : ℕ) : EStateM Exn σ Handler := do
  match (events (← get)).lists[event]? with
  | none => throw .undefined
  | some list =>
    match list[i]? with
    | none => throw .undefined
    | some handler => return handler

/-- `names_[event]`, passed to the invoker for its error messages. -/
def nameAt (event : ℕ) : EStateM Exn σ String := do
  match (events (← get)).names[event]? with
  | none => throw .undefined
  | some name => return name

/-- `lists_[event].size()`. -/
def sizeAt (event : ℕ) : EStateM Exn σ ℕ := do
  match (events (← get)).lists[event]? with
  | none => throw .undefined
  | some list => return list.length

/-- `DispatchFrame::cancelled`. -/
def flagAt (index : ℕ) : EStateM Exn σ Bool := do
  match (events (← get)).cancelled[index]? with
  | none => throw .undefined
  | some flag => return flag

/-- The loop of `Dispatch`, with `remaining` of `count` handlers to visit. -/
def dispatchLoop (event index count : ℕ) (push : EStateM Exn σ α)
    (call : Fn → α → EStateM Exn σ Ending) : ℕ → EStateM Exn σ (List Fn)
  | 0 => return []
  | remaining + 1 => do
      let handler ← handlerAt event (count - (remaining + 1))
      if !handler.alive then
        dispatchLoop event index count push call remaining
      else
        let _what ← nameAt event
        let dead := (HasInvoker.invoker (← get)).dead
        let _ ← Invoker.call push (call handler.fn)
        let called := if dead then [] else [handler.fn]
        if ← flagAt index then
          return called
        let later ← dispatchLoop event index count push call remaining
        return called ++ later

/-- `EventBus::Dispatch`: `push` pushes the arguments once per handler, and `call fn` is what
handler `fn` does with them. -/
def dispatch (event : ℕ) (push : EStateM Exn σ α) (call : Fn → α → EStateM Exn σ Ending) :
    EStateM Exn σ Report := do
  if !(events (← get)).hasHandlers event then
    return ⟨false, []⟩
  Invoker.scope do
    let index := (events (← get)).cancelled.length
    modify (modifyEvents pushFrame)
    onError (do
      let count ← sizeAt event
      let called ← dispatchLoop event index count push call count
      let cancelled ← flagAt index
      modify (modifyEvents (finishFrame index))
      return ⟨cancelled, called⟩) (modifyEvents (popFrame index))

end EventBus

/-- The bus with the invoker it calls through, apart from the rest of the runtime. -/
structure EventCore where
  invoker : Invoker := {}
  events : EventBus := .init
deriving DecidableEq, Repr

instance : HasEvents EventCore where
  invoker := EventCore.invoker
  setInvoker invoker core := { core with invoker }
  markDead core := { core with invoker := { core.invoker with dead := true } }
  events := EventCore.events
  setEvents events core := { core with events }

end VcmpLua.Model.Core
