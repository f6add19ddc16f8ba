import Mathlib
import VcmpLua.Lib.Assoc
import VcmpLua.Proofs.EventDispatch

/-! # The representation invariant of the event bus

The five containers of the bus are tied together: every name has its list and its index, a dead
handler waits for compaction, and each active dispatch has one cancel flag. The invariant is proved
for every state that Lua code sees in a run: between the requests of a handler at any nesting, after
handlers that end by an exception or a panic, and after a clear. The number of active dispatches is
counted by the run itself and not read off the bus.
-/

namespace VcmpLua.Model.Core

open Effect VcmpLua.Spec

/-- What holds of the bus while `active` dispatches are active. -/
structure EventBus.Invariant (active : ℕ) (bus : EventBus) : Prop where
  lists : bus.lists.length = bus.names.length
  indices : bus.indexByName.length = bus.names.length
  /-- The index of a name is where the name is. -/
  find : ∀ name index, bus.find name = some index ↔ bus.names[index]? = some name
  builtIn : ∀ name index, eventNames[index]? = some name → bus.find name = some index
  /-- No function is bound twice. -/
  distinct : ∀ list ∈ bus.lists, (aliveFns list).Nodup
  pending : ∀ list ∈ bus.lists, ∀ handler ∈ list, handler.alive = false → bus.needsCompaction = true
  cancelled : bus.cancelled.length = active

/-- No list holds a dead handler. -/
def EventBus.Clean (bus : EventBus) : Prop := ∀ list ∈ bus.lists, ∀ handler ∈ list, handler.alive = true

/-- The functions of a list, dead or alive. -/
def EventBus.fns (bus : EventBus) (event : ℕ) : List Fn := (bus.handlers event).map (·.fn)

/-- What an operation may do to a bus whose lists are walked: it appends. -/
structure EventBus.Extends (bus bus' : EventBus) : Prop where
  names : bus.names <+: bus'.names
  fns : ∀ event, bus.fns event <+: bus'.fns event

theorem EventBus.Extends.refl (bus : EventBus) : bus.Extends bus := ⟨List.prefix_rfl, fun _ => List.prefix_rfl⟩

/-! ## The member functions -/

section Lists

variable {bus : EventBus} {event : ℕ} {list list' : List Handler}

theorem EventBus.fns_of_getElem? (at_event : bus.lists[event]? = some list) : bus.fns event = list.map (·.fn) := by
  rw [EventBus.fns, EventBus.handlers_of_getElem? at_event]

/-- Another list for one event, with more functions behind those it had. -/
theorem EventBus.fns_set (at_event : bus.lists[event]? = some list) (more : list.map (·.fn) <+: list'.map (·.fn))
    (other : ℕ) : bus.fns other <+: EventBus.fns { bus with lists := bus.lists.set event list' } other := by
  obtain ⟨inRange, -⟩ := List.getElem?_eq_some_iff.mp at_event
  unfold EventBus.fns
  rw [EventBus.handlers_set bus list' inRange]
  split_ifs with same
  · subst same
    rw [EventBus.handlers_of_getElem? at_event]
    exact more
  · exact List.prefix_rfl

theorem markDead_fns {fn : Fn} (marked : EventBus.markDead fn list = some list') :
    list'.map (·.fn) = list.map (·.fn) ∧ (aliveFns list').Sublist (aliveFns list) := by
  induction list generalizing list' with
  | nil => cases marked
  | cons handler rest ih =>
    rw [EventBus.markDead] at marked
    split_ifs at marked with found
    · cases marked
      rw [Bool.and_eq_true] at found
      refine ⟨rfl, ?_⟩
      rw [aliveFns_cons_dead rfl, aliveFns_cons_alive found.1]
      exact List.sublist_cons_self ..
    · obtain ⟨later, inRest, rfl⟩ := Option.map_eq_some_iff.mp marked
      obtain ⟨same, fewer⟩ := ih inRest
      refine ⟨by rw [List.map_cons, List.map_cons, same], ?_⟩
      cases alive : handler.alive with
      | true =>
        rw [aliveFns_cons_alive alive, aliveFns_cons_alive alive]
        exact fewer.cons_cons _
      | false =>
        rw [aliveFns_cons_dead alive, aliveFns_cons_dead alive]
        exact fewer

theorem EventBus.clean_compact (bus : EventBus) : bus.compact.Clean := by
  intro list member handler inside
  obtain ⟨old, -, rfl⟩ := List.mem_map.mp member
  exact (List.mem_filter.mp inside).2

end Lists

namespace EventBus.Invariant

variable {active : ℕ} {bus bus' : EventBus}

/-- The names are distinct: each has one index. -/
theorem index_unique (invariant : bus.Invariant active) {name : String} {first second : ℕ}
    (atFirst : bus.names[first]? = some name) (atSecond : bus.names[second]? = some name) : first = second := by
  have both := ((invariant.find name first).mpr atFirst).symm.trans ((invariant.find name second).mpr atSecond)
  exact Option.some_inj.mp both

/-- Without a dead handler to wait for, there is none. -/
theorem clean (invariant : bus.Invariant active) (settled : bus.needsCompaction = false) : bus.Clean := by
  intro list member handler inside
  by_contra dead
  have waiting := invariant.pending list member handler inside (by simpa using dead)
  rw [settled] at waiting
  cases waiting

/-- A change of the lists alone. -/
theorem withLists (invariant : bus.Invariant active) {lists : List (List Handler)} {needsCompaction : Bool}
    (length : lists.length = bus.lists.length) (distinct : ∀ list ∈ lists, (aliveFns list).Nodup)
    (pending : ∀ list ∈ lists, ∀ handler ∈ list, handler.alive = false → needsCompaction = true) :
    EventBus.Invariant active { bus with lists, needsCompaction } :=
  ⟨length.trans invariant.lists, invariant.indices, invariant.find, invariant.builtIn, distinct, pending,
    invariant.cancelled⟩

/-- A change of the flags alone. -/
theorem withFlags (invariant : bus.Invariant active) (cancelled : List Bool) :
    EventBus.Invariant cancelled.length { bus with cancelled } :=
  ⟨invariant.lists, invariant.indices, invariant.find, invariant.builtIn, invariant.distinct, invariant.pending, rfl⟩

theorem compact (invariant : bus.Invariant active) : bus.compact.Invariant active := by
  apply invariant.withLists
  · exact List.length_map ..
  · intro list member
    obtain ⟨old, isOld, rfl⟩ := List.mem_map.mp member
    rw [aliveFns_filter]
    exact invariant.distinct old isOld
  · intro list member handler inside dead
    have alive := bus.clean_compact list member handler inside
    rw [dead] at alive
    cases alive

theorem clear (invariant : bus.Invariant active) : bus.clear.Invariant active := by
  have empty : ∀ list ∈ bus.lists.map fun _ => ([] : List Handler), list = [] := by
    intro list member
    obtain ⟨_, -, rfl⟩ := List.mem_map.mp member
    rfl
  apply invariant.withLists
  · exact List.length_map ..
  · intro list member
    rw [empty list member]
    exact List.nodup_nil
  · intro list member handler inside
    rw [empty list member] at inside
    cases inside

theorem create (invariant : bus.Invariant active) (name : String) :
    (bus.create name).2.Invariant active ∧ bus.Extends (bus.create name).2 := by
  unfold EventBus.create
  split_ifs with known
  · exact ⟨invariant, .refl bus⟩
  · have unknown : bus.find name = none := by simpa using known
    have fresh : ∀ index : ℕ, bus.names[index]? ≠ some name := by
      intro index same
      rw [(invariant.find name index).mpr same] at unknown
      cases unknown
    have found : ∀ other, EventBus.find { bus with
        lists := bus.lists ++ [[]], names := bus.names ++ [name]
        indexByName := (name, (bus.lists ++ [[]]).length - 1) :: bus.indexByName } other =
          if other = name then some bus.names.length else bus.find other := by
      intro other
      simp only [EventBus.find, List.lookup, List.length_append, List.length_singleton, Nat.add_sub_cancel,
        invariant.lists]
      by_cases same : other = name
      · simp [same]
      · have unequal : (other == name) = false := by simpa using same
        rw [unequal, if_neg same]
    refine ⟨⟨?_, ?_, ?_, ?_, ?_, ?_, invariant.cancelled⟩, ?_, ?_⟩
    · simp only [List.length_append, List.length_singleton, invariant.lists]
    · simp only [List.length_cons, List.length_append, List.length_nil, invariant.indices]
    · intro other index
      rw [found, List.getElem?_append]
      by_cases same : other = name
      · subst same
        rw [if_pos rfl]
        split_ifs with inRange
        · simp [fresh, inRange.ne']
        · have position : index - bus.names.length = 0 ↔ bus.names.length = index := by omega
          cases at_end : index - bus.names.length with
          | zero => simp [position.mp at_end]
          | succ beyond => simp [show bus.names.length ≠ index by omega]
      · rw [if_neg same, invariant.find]
        split_ifs with inRange
        · exact Iff.rfl
        · rw [List.getElem?_eq_none (Nat.le_of_not_lt inRange)]
          cases index - bus.names.length with
          | zero => simpa [eq_comm] using same
          | succ beyond => simp
    · intro other index listed
      rw [found, if_neg]
      · exact invariant.builtIn other index listed
      · rintro rfl
        rw [invariant.builtIn other index listed] at unknown
        cases unknown
    · intro list member
      rcases List.mem_append.mp member with old | new
      · exact invariant.distinct list old
      · rw [List.mem_singleton.mp new]
        exact List.nodup_nil
    · intro list member handler inside
      rcases List.mem_append.mp member with old | new
      · exact invariant.pending list old handler inside
      · rw [List.mem_singleton.mp new] at inside
        cases inside
    · exact List.prefix_append ..
    · intro event
      simp only [EventBus.fns, EventBus.handlers, List.getElem?_append]
      split_ifs with inRange
      · exact List.prefix_rfl
      · rw [List.getElem?_eq_none (Nat.le_of_not_lt inRange)]
        exact List.nil_prefix

theorem bind (invariant : bus.Invariant active) {event : ℕ} {fn : Fn} {added : Bool}
    (ran : bus.bind event fn = .ok (added, bus')) : bus'.Invariant active ∧ bus.Extends bus' := by
  unfold EventBus.bind at ran
  cases at_event : bus.lists[event]? with
  | none =>
    rw [at_event] at ran
    cases ran
  | some list =>
    rw [at_event] at ran
    simp only at ran
    have member := List.mem_of_getElem? at_event
    split_ifs at ran with known
    · cases ran
      exact ⟨invariant, .refl bus⟩
    · cases ran
      have unbound : fn ∉ aliveFns list := fun bound => known (any_bound_iff.mpr bound)
      refine ⟨invariant.withLists (List.length_set ..) ?_ ?_, List.prefix_rfl, ?_⟩
      · intro other isMember
        rcases List.mem_or_eq_of_mem_set isMember with old | rfl
        · exact invariant.distinct other old
        · have whole : aliveFns (list ++ [⟨fn, true⟩]) = aliveFns list ++ [fn] := aliveFns_append ..
          rw [whole, ← List.concat_eq_append]
          exact List.Nodup.concat unbound (invariant.distinct list member)
      · intro other isMember handler inside dead
        rcases List.mem_or_eq_of_mem_set isMember with old | rfl
        · exact invariant.pending other old handler inside dead
        · rcases List.mem_append.mp inside with old | new
          · exact invariant.pending list member handler old dead
          · rw [List.mem_singleton.mp new] at dead
            cases dead
      · apply EventBus.fns_set at_event
        rw [List.map_append]
        exact List.prefix_append ..

theorem unbind (invariant : bus.Invariant active) {event : ℕ} {fn : Fn} {removed : Bool}
    (ran : bus.unbind event fn = .ok (removed, bus')) :
    bus'.Invariant active ∧ bus.names <+: bus'.names ∧ (0 < active → bus.Extends bus') ∧
      (active = 0 → removed = true → bus'.Clean) := by
  unfold EventBus.unbind at ran
  cases at_event : bus.lists[event]? with
  | none =>
    rw [at_event] at ran
    cases ran
  | some list =>
    have member := List.mem_of_getElem? at_event
    rw [at_event] at ran
    simp only at ran
    cases marked : EventBus.markDead fn list with
    | none =>
      rw [marked] at ran
      cases ran
      refine ⟨invariant, List.prefix_rfl, fun _ => .refl bus, ?_⟩
      rintro - ⟨⟩
    | some list' =>
      rw [marked] at ran
      obtain ⟨same, fewer⟩ := markDead_fns marked
      have changed : EventBus.Invariant active { bus with
          lists := bus.lists.set event list', needsCompaction := true } := by
        apply invariant.withLists (List.length_set ..)
        · intro other isMember
          rcases List.mem_or_eq_of_mem_set isMember with old | rfl
          · exact invariant.distinct other old
          · exact fewer.nodup (invariant.distinct list member)
        · intros
          rfl
      have grown : bus.Extends { bus with lists := bus.lists.set event list', needsCompaction := true } := by
        refine ⟨List.prefix_rfl, fun other => ?_⟩
        exact EventBus.fns_set at_event (by rw [same]) other
      have empty : bus.cancelled.isEmpty = true ↔ active = 0 := by
        rw [List.isEmpty_iff_length_eq_zero, invariant.cancelled]
      simp only at ran
      split_ifs at ran with idle
      · cases ran
        refine ⟨changed.compact, List.prefix_rfl, fun busy => ?_, fun _ _ => EventBus.clean_compact _⟩
        rw [empty.mp idle] at busy
        exact absurd busy (Nat.lt_irrefl 0)
      · cases ran
        exact ⟨changed, List.prefix_rfl, fun _ => grown, fun none => absurd (empty.mpr none) idle⟩

theorem cancel (invariant : bus.Invariant active) (ran : bus.cancel = .ok bus') :
    bus'.Invariant active ∧ bus.Extends bus' := by
  unfold EventBus.cancel at ran
  split_ifs at ran with idle
  cases ran
  have length : (bus.cancelled.dropLast ++ [true]).length = active := by
    have positive := List.length_pos_iff.mpr fun empty => idle (List.isEmpty_iff.mpr empty)
    rw [List.length_append, List.length_dropLast, List.length_singleton, Nat.sub_add_cancel positive, invariant.cancelled]
  have flags := invariant.withFlags (bus.cancelled.dropLast ++ [true])
  rw [length] at flags
  exact ⟨flags, List.prefix_rfl, fun _ => List.prefix_rfl⟩

theorem pushFrame (invariant : bus.Invariant active) : bus.pushFrame.Invariant (active + 1) := by
  have flags := invariant.withFlags (bus.cancelled ++ [false])
  rwa [List.length_append, List.length_singleton, invariant.cancelled] at flags

theorem popFrame (invariant : bus.Invariant (active + 1)) : (bus.popFrame active).Invariant active := by
  have flags := invariant.withFlags (bus.cancelled.take active)
  rwa [List.length_take, invariant.cancelled, Nat.min_eq_left (Nat.le_succ active)] at flags

/-- The outermost dispatch leaves no dead handler behind. -/
theorem finishFrame (invariant : bus.Invariant (active + 1)) :
    (bus.finishFrame active).Invariant active ∧ bus.names <+: (bus.finishFrame active).names ∧
      (0 < active → bus.Extends (bus.finishFrame active)) ∧ (active = 0 → (bus.finishFrame active).Clean) := by
  have popped := invariant.popFrame
  have empty : (bus.popFrame active).cancelled.isEmpty = true ↔ active = 0 := by
    rw [List.isEmpty_iff_length_eq_zero, popped.cancelled]
  unfold EventBus.finishFrame
  simp only [Bool.and_eq_true, empty]
  split_ifs with outermost
  · refine ⟨popped.compact, List.prefix_rfl, fun busy => ?_, fun _ => EventBus.clean_compact _⟩
    rw [outermost.1] at busy
    exact absurd busy (Nat.lt_irrefl 0)
  · refine ⟨popped, List.prefix_rfl, fun _ => ⟨List.prefix_rfl, fun _ => List.prefix_rfl⟩, fun none => ?_⟩
    apply popped.clean
    simpa [none] using outermost

end EventBus.Invariant

/-! ## Runs -/

/-- What the plugin asks of the bus: a request of Lua code, or `Runtime::Shutdown`. -/
inductive BusRequest where
  | op (op : BusOp)
  | shutdown
deriving DecidableEq, Repr

/-- Any behaviour of Lua code: its requests, what the handlers of its dispatches do, and how it ends. -/
abbrev BusScript := Script BusRequest Fn (Option Bool) Ending

/-- The bus in a run, with the number of dispatches whose handlers are running and, newest first, every
bus that the code of the run has seen. -/
structure Watched where
  invoker : Invoker := {}
  events : EventBus := .init
  active : ℕ := 0
  seen : List (ℕ × EventBus) := []

namespace Watched

instance : HasEvents Watched where
  invoker := Watched.invoker
  setInvoker invoker watched := { watched with invoker }
  markDead watched := { watched with invoker := { watched.invoker with dead := true } }
  events := Watched.events
  setEvents events watched := { watched with events }

def look (watched : Watched) : Watched := { watched with seen := (watched.active, watched.events) :: watched.seen }

/-- A handler sees the bus when it starts. -/
def handle (inner : Fn → EStateM Exn Watched Ending) (fn : Fn) : EStateM Exn Watched Ending := do
  modify fun watched => look { watched with active := watched.active + 1 }
  withCleanup (inner fn) fun watched => { watched with active := watched.active - 1 }

def dispatch (event : ℕ) (inner : Fn → EStateM Exn Watched Ending) : EStateM Exn Watched Report :=
  EventBus.dispatch event (pure ()) fun fn _ => handle inner fn

/-- `Runtime::Shutdown` as the bus sees it: nothing during a call into Lua or after a panic. -/
def shutdown (watched : Watched) : Watched :=
  if watched.invoker.depth ≠ 0 ∨ watched.invoker.dead then watched
  else { watched with events := watched.events.clear }

def answer (request : BusRequest) (inner : Fn → EStateM Exn Watched Ending) : EStateM Exn Watched (Option Bool) :=
  match request with
  | .op (.create name) => asBinding (EventBus.liftBus fun bus => .ok (bus.create name))
  | .op (.bind event fn) => asBinding (EventBus.liftBus fun bus => bus.bind event fn)
  | .op (.unbind event fn) => asBinding (EventBus.liftBus fun bus => bus.unbind event fn)
  | .op .cancel => asBinding (EventBus.liftBus fun bus => (fun bus => (true, bus)) <$> bus.cancel)
  | .op (.dispatch event) => asBinding (Report.cancelled <$> dispatch event inner)
  | .shutdown => do
      modify shutdown
      return none

def serve (request : BusRequest) (inner : Fn → EStateM Exn Watched Ending) : EStateM Exn Watched (Option Bool) := do
  let reply ← answer request inner
  modify look
  return reply

/-! ## One step of a run -/

/-- Where a run is: how many dispatches run handlers, how many calls into Lua are active, and the
functions that loops over the lists rely on. -/
structure Level where
  active : ℕ
  depth : ℕ
  base : ℕ → List Fn

/-- The state of a run at a level, with `frames` cancel flags. -/
structure Sound (level : Level) (frames : ℕ) (watched : Watched) : Prop where
  active : watched.active = level.active
  depth : watched.invoker.depth = level.depth
  busy : 0 < frames → 0 < level.depth
  invariant : watched.events.Invariant frames
  kept : 0 < frames → ∀ event, level.base event <+: watched.events.fns event
  seen : ∀ entry ∈ watched.seen, entry.2.Invariant entry.1 ∧ entry.2.names <+: watched.events.names
  stable : watched.seen.Pairwise fun later earlier => earlier.2.names <+: later.2.names

theorem thrown_ne_undefined (what : String) : Exn.thrown what ≠ .undefined := by
  intro same
  cases same

/-- How code at the level may throw. -/
abbrev Safe (level : Level) (frames : ℕ) (e : Exn) (watched : Watched) : Prop :=
  e ≠ .undefined ∧ Sound level frames watched

/-- One more call into Lua. -/
abbrev Level.call (level : Level) : Level := { level with depth := level.depth + 1 }

section Step

variable {level : Level} {frames : ℕ} {watched : Watched}

theorem Sound.enter (sound : Sound level frames watched) : Sound level.call frames (Invoker.enter watched) :=
  ⟨sound.active, congrArg (· + 1) sound.depth, fun _ => Nat.succ_pos _, sound.invariant, sound.kept, sound.seen,
    sound.stable⟩

theorem Sound.leave (busy : 0 < frames → 0 < level.depth) (sound : Sound level.call frames watched) :
    Sound level frames (Invoker.leave watched) :=
  ⟨sound.active, congrArg (· - 1) sound.depth, busy, sound.invariant, sound.kept, sound.seen, sound.stable⟩

theorem Sound.dead (sound : Sound level frames watched) : Sound level frames (HasInvoker.markDead watched) :=
  ⟨sound.active, sound.depth, sound.busy, sound.invariant, sound.kept, sound.seen, sound.stable⟩

/-- A change of the bus. -/
theorem Sound.update (sound : Sound level frames watched) {bus : EventBus} {frames' : ℕ}
    (fewer : frames' ≤ frames) (invariant : bus.Invariant frames') (names : watched.events.names <+: bus.names)
    (more : 0 < frames' → watched.events.Extends bus) : Sound level frames' { watched with events := bus } := by
  refine ⟨sound.active, sound.depth, fun some => sound.busy (some.trans_le fewer), invariant, ?_, ?_, sound.stable⟩
  · intro some event
    exact (sound.kept (some.trans_le fewer) event).trans ((more some).fns event)
  · intro entry member
    exact ⟨(sound.seen entry member).1, (sound.seen entry member).2.trans names⟩

/-- The code of the run sees a state that has a flag for each active dispatch. -/
theorem Sound.look (sound : Sound level level.active watched) : Sound level level.active watched.look := by
  refine ⟨sound.active, sound.depth, sound.busy, sound.invariant, sound.kept, ?_, ?_⟩
  · intro entry member
    rcases List.mem_cons.mp member with rfl | old
    · refine ⟨?_, List.prefix_rfl⟩
      rw [sound.active]
      exact sound.invariant
    · exact sound.seen entry old
  · exact List.pairwise_cons.mpr ⟨fun entry member => (sound.seen entry member).2, sound.stable⟩

theorem Sound.shutdown (sound : Sound level level.active watched) : Sound level level.active watched.shutdown := by
  unfold Watched.shutdown
  split_ifs with refused
  · exact sound
  · obtain ⟨idle, -⟩ := not_or.mp refused
    have none : level.active = 0 := by
      by_contra some
      apply idle
      rw [sound.depth]
      exact (sound.busy (Nat.pos_of_ne_zero some)).ne'
    apply sound.update le_rfl sound.invariant.clear List.prefix_rfl
    intro some
    rw [none] at some
    exact absurd some (Nat.lt_irrefl 0)

/-- A member function of the bus. -/
theorem ends_liftBus (sound : Sound level level.active watched) {f : EventBus → Except Exn (Bool × EventBus)}
    (defined : f watched.events ≠ .error .undefined)
    (step : ∀ reply bus, f watched.events = .ok (reply, bus) → bus.Invariant level.active ∧
      watched.events.names <+: bus.names ∧ (0 < level.active → watched.events.Extends bus)) :
    Ends (fun _ => Sound level level.active) (Safe level level.active) (EventBus.liftBus f watched) := by
  cases ran : f watched.events with
  | ok result =>
    obtain ⟨reply, bus⟩ := result
    obtain ⟨invariant, names, more⟩ := step reply bus ran
    have lifted : EventBus.liftBus f watched = .ok reply { watched with events := bus } := by
      simp only [EventBus.liftBus, HasEvents.events, ran, HasEvents.setEvents]
    rw [lifted]
    exact sound.update le_rfl invariant names more
  | error e =>
    have lifted : EventBus.liftBus f watched = .error e watched := by
      simp only [EventBus.liftBus, HasEvents.events, ran]
    rw [lifted]
    refine ⟨?_, sound⟩
    rintro rfl
    exact defined ran

end Step

/-! ## The loop of a dispatch -/

section Reads

variable {watched : Watched} {event index : ℕ}

theorem handlerAt_of_bound (bound : index < (watched.events.handlers event).length) :
    ∃ handler, EventBus.handlerAt event index watched = .ok handler watched := by
  refine ⟨(watched.events.handlers event)[index], ?_⟩
  cases at_event : watched.events.lists[event]? with
  | none => simp [EventBus.handlers, at_event] at bound
  | some list =>
    have listed := EventBus.handlers_of_getElem? at_event
    simp only [listed] at bound ⊢
    rw [EventBus.handlerAt, get_bind, show HasEvents.events watched = watched.events from rfl, at_event]
    simp only [List.getElem?_eq_getElem bound]
    rfl

theorem nameAt_of_bound {frames : ℕ} (invariant : watched.events.Invariant frames)
    (bound : index < (watched.events.handlers event).length) :
    ∃ name, EventBus.nameAt event watched = .ok name watched := by
  have inRange : event < watched.events.names.length := by
    rw [← invariant.lists]
    by_contra beyond
    rw [EventBus.handlers, List.getElem?_eq_none (Nat.le_of_not_lt beyond)] at bound
    exact Nat.not_lt_zero _ bound
  refine ⟨watched.events.names[event], ?_⟩
  rw [EventBus.nameAt, get_bind, show HasEvents.events watched = watched.events from rfl,
    List.getElem?_eq_getElem inRange]
  rfl

theorem flagAt_of_invariant {active : ℕ} (invariant : watched.events.Invariant (active + 1)) :
    ∃ flag, EventBus.flagAt active watched = .ok flag watched := by
  have inRange : active < watched.events.cancelled.length := by
    rw [invariant.cancelled]
    exact Nat.lt_succ_self active
  refine ⟨watched.events.cancelled[active], ?_⟩
  rw [EventBus.flagAt, get_bind, show HasEvents.events watched = watched.events from rfl,
    List.getElem?_eq_getElem inRange]
  rfl

theorem sizeAt_of_hasHandlers (handlers : watched.events.hasHandlers event = true) :
    EventBus.sizeAt event watched = .ok (watched.events.fns event).length watched := by
  rw [EventBus.sizeAt, get_bind, show HasEvents.events watched = watched.events from rfl]
  unfold EventBus.hasHandlers at handlers
  cases at_event : watched.events.lists[event]? with
  | none =>
    rw [at_event] at handlers
    cases handlers
  | some list =>
    rw [EventBus.fns_of_getElem? at_event, List.length_map]
    rfl

end Reads

section Loop

variable {level : Level} {frames : ℕ} {watched : Watched}

theorem ends_call {body : Unit → EStateM Exn Watched Ending} (sound : Sound level frames watched)
    (inside : ∀ watched, Sound level.call frames watched →
      Ends (fun _ => Sound level.call frames) (Safe level.call frames) (body () watched)) :
    Ends (fun _ => Sound level frames) (Safe level frames) (Invoker.call (pure ()) body watched) := by
  cases dead : (HasInvoker.invoker watched).dead with
  | true =>
    rw [Invoker.call_dead dead]
    exact sound
  | false =>
    have ran := inside _ sound.enter
    have pushed : (pure () : EStateM Exn Watched Unit) (Invoker.enter watched) = .ok () (Invoker.enter watched) := rfl
    rw [Invoker.call_eq body dead pushed]
    cases ended : body () (Invoker.enter watched) with
    | error e last =>
      rw [ended] at ran
      exact ⟨ran.1, ran.2.leave sound.busy⟩
    | ok ending last =>
      rw [ended] at ran
      have left := ran.leave sound.busy
      cases ending with
      | returned | raised => exact left
      | threw => exact ⟨thrown_ne_undefined _, left⟩
      | panicked => exact ⟨thrown_ne_undefined _, ran.dead.leave sound.busy⟩

/-- What a dispatch does with a handler. -/
theorem ends_handler {inner : Fn → EStateM Exn Watched Ending} (fn : Fn)
    (inside : ∀ watched, Sound { level with active := level.active + 1 } (level.active + 1) watched →
      Ends (fun _ => Sound { level with active := level.active + 1 } (level.active + 1)) (fun _ _ => False)
        (inner fn watched))
    (sound : Sound level (level.active + 1) watched) :
    Ends (fun _ => Sound level (level.active + 1)) (Safe level (level.active + 1)) (handle inner fn watched) := by
  have entered : Sound { level with active := level.active + 1 } (level.active + 1)
      { watched with active := watched.active + 1 } :=
    ⟨congrArg (· + 1) sound.active, sound.depth, sound.busy, sound.invariant, sound.kept, sound.seen, sound.stable⟩
  have ran := inside _ entered.look
  rw [handle, modify_bind]
  refine ran.withCleanup (fun _ last ended => ?_) (fun _ _ never => never.elim)
  exact ⟨congrArg (· - 1) ended.active, ended.depth, ended.busy, ended.invariant, ended.kept, ended.seen, ended.stable⟩

/-- The loop finds every handler, name and flag it looks for. -/
theorem ends_dispatchLoop {inner : Fn → EStateM Exn Watched Ending} {event count : ℕ}
    (inside : ∀ fn watched, Sound { level.call with active := level.active + 1 } (level.active + 1) watched →
      Ends (fun _ => Sound { level.call with active := level.active + 1 } (level.active + 1)) (fun _ _ => False)
        (inner fn watched))
    (known : count ≤ (level.base event).length) (remaining : ℕ) (left : remaining ≤ count)
    (sound : Sound level (level.active + 1) watched) :
    Ends (fun _ => Sound level (level.active + 1)) (Safe level (level.active + 1))
      (EventBus.dispatchLoop event level.active count (pure ()) (fun fn _ => handle inner fn) remaining watched) := by
  induction remaining generalizing watched with
  | zero => exact sound
  | succ remaining ih =>
    have bound : count - (remaining + 1) < (watched.events.handlers event).length := by
      have grown := (sound.kept (Nat.succ_pos _) event).length_le
      rw [EventBus.fns, List.length_map] at grown
      omega
    obtain ⟨handler, read⟩ := handlerAt_of_bound bound
    obtain ⟨name, named⟩ := nameAt_of_bound sound.invariant bound
    rw [EventBus.dispatchLoop, bind_of_ok read]
    split_ifs with dead
    · exact ih (Nat.le_of_succ_le left) sound
    · rw [bind_of_ok named, get_bind]
      have called : Ends (fun _ => Sound level (level.active + 1)) (Safe level (level.active + 1))
          (Invoker.call (pure ()) (fun _ => handle inner handler.fn) watched) :=
        ends_call sound fun _ entered => ends_handler handler.fn (inside handler.fn) entered
      refine called.bind fun _ last sound => ?_
      obtain ⟨flag, flagged⟩ := flagAt_of_invariant sound.invariant
      have rest := ih (Nat.le_of_succ_le left) sound
      rw [bind_of_ok flagged]
      cases flag with
      | true => exact sound
      | false =>
        rw [if_neg Bool.false_ne_true]
        refine rest.bind fun later last' ended => ?_
        exact ended

end Loop

/-! ## One dispatch -/

section Dispatch

variable {level : Level} {watched : Watched}

/-- The end of a dispatch that began at the level: what its loop relied on, the enclosing loops may. -/
theorem Sound.close {base : ℕ → List Fn} {last : Watched} {bus : EventBus}
    (grown : 0 < level.active → ∀ event, level.base event <+: base event)
    (ended : Sound { level.call with base } (level.active + 1) last) (invariant : bus.Invariant level.active)
    (names : last.events.names <+: bus.names) (more : 0 < level.active → last.events.Extends bus) :
    Sound level.call level.active { last with events := bus } := by
  have closed := ended.update (Nat.le_succ _) invariant names more
  refine ⟨closed.active, closed.depth, closed.busy, closed.invariant, fun some event => ?_, closed.seen, closed.stable⟩
  exact (grown some event).trans (closed.kept some event)

/-- A dispatch is sound if its handlers are, one dispatch and two calls deeper. -/
theorem ends_dispatch {inner : Fn → EStateM Exn Watched Ending} (event : ℕ)
    (inside : ∀ fn level watched, Sound level level.active watched →
      Ends (fun _ => Sound level level.active) (fun _ _ => False) (inner fn watched))
    (sound : Sound level level.active watched) :
    Ends (fun _ last => Sound level level.active last ∧
        (watched.events.hasHandlers event = true → level.active = 0 → last.events.Clean))
      (Safe level level.active) (dispatch event inner watched) := by
  rw [dispatch, EventBus.dispatch, get_bind]
  split_ifs with none
  · refine ⟨sound, fun some => ?_⟩
    rw [show HasEvents.events watched = watched.events from rfl, some] at none
    cases none
  · have handlers : watched.events.hasHandlers event = true := by
      rw [show HasEvents.events watched = watched.events from rfl] at none
      simpa using none
    have started : Sound { level.call with base := watched.events.fns } (level.active + 1)
        (EventBus.modifyEvents EventBus.pushFrame (Invoker.enter watched)) := by
      have entered := sound.enter
      exact ⟨entered.active, entered.depth, fun _ => Nat.succ_pos _, entered.invariant.pushFrame,
        fun _ _ => List.prefix_rfl, entered.seen, entered.stable⟩
    have index : (HasEvents.events (Invoker.enter watched)).cancelled.length = level.active := sound.invariant.cancelled
    have size : EventBus.sizeAt event (EventBus.modifyEvents EventBus.pushFrame (Invoker.enter watched)) =
        .ok (watched.events.fns event).length (EventBus.modifyEvents EventBus.pushFrame (Invoker.enter watched)) :=
      sizeAt_of_hasHandlers handlers
    have looped : ∀ remaining ≤ (watched.events.fns event).length, _ := fun remaining left =>
      ends_dispatchLoop (fun fn watched sound => inside fn _ watched sound)
        (le_refl (watched.events.fns event).length) remaining left started
    rw [Invoker.scope, modify_bind]
    have body : Ends (fun _ last => Sound level.call level.active last ∧ (level.active = 0 → last.events.Clean))
        (Safe level.call level.active)
        (((do
          let index := (HasEvents.events (← get)).cancelled.length
          modify (EventBus.modifyEvents EventBus.pushFrame)
          onError (do
            let count ← EventBus.sizeAt event
            let called ← EventBus.dispatchLoop event index count (pure ()) (fun fn _ => handle inner fn) count
            let cancelled ← EventBus.flagAt index
            modify (EventBus.modifyEvents (EventBus.finishFrame index))
            return ⟨cancelled, called⟩) (EventBus.modifyEvents (EventBus.popFrame index))) :
              EStateM Exn Watched Report) (Invoker.enter watched)) := by
      rw [get_bind, modify_bind, index]
      refine Ends.onError (E := Safe { level.call with base := watched.events.fns } (level.active + 1)) ?_ ?_
      · rw [bind_of_ok size]
        refine (looped _ le_rfl).bind fun called last ended => ?_
        obtain ⟨flag, flagged⟩ := flagAt_of_invariant ended.invariant
        obtain ⟨invariant, names, more, clean⟩ := ended.invariant.finishFrame
        rw [bind_of_ok flagged, modify_bind]
        exact ⟨ended.close sound.kept invariant names more, clean⟩
      · rintro e last ⟨defined, ended⟩
        exact ⟨defined, ended.close sound.kept ended.invariant.popFrame List.prefix_rfl fun _ =>
          ⟨List.prefix_rfl, fun _ => List.prefix_rfl⟩⟩
    refine body.withCleanup ?_ ?_
    · rintro report last ⟨ended, clean⟩
      exact ⟨ended.leave sound.busy, fun _ => clean⟩
    · rintro e last ⟨defined, ended⟩
      exact ⟨defined, ended.leave sound.busy⟩

end Dispatch

/-! ## Whole runs -/

section Run

variable {level : Level} {watched : Watched}

theorem ends_answer (request : BusRequest) {inner : Fn → EStateM Exn Watched Ending}
    (inside : ∀ fn level watched, Sound level level.active watched →
      Ends (fun _ => Sound level level.active) (fun _ _ => False) (inner fn watched))
    (sound : Sound level level.active watched) :
    Ends (fun _ => Sound level level.active) (fun _ _ => False) (answer request inner watched) := by
  have appended : ∀ {bus : EventBus}, bus.Invariant level.active ∧ watched.events.Extends bus →
      bus.Invariant level.active ∧ watched.events.names <+: bus.names ∧
        (0 < level.active → watched.events.Extends bus) := fun both => ⟨both.1, both.2.names, fun _ => both.2⟩
  cases request with
  | op op =>
    cases op with
    | create name =>
      change Ends _ _ (asBinding (EventBus.liftBus fun bus => .ok (bus.create name)) watched)
      refine ends_asBinding (ends_liftBus sound ?_ ?_)
      · intro failed
        cases failed
      · intro reply bus ran
        obtain rfl : (watched.events.create name).2 = bus := congrArg Prod.snd (Except.ok.inj ran)
        exact appended (sound.invariant.create name)
    | bind event fn =>
      refine ends_asBinding (ends_liftBus sound ?_ ?_)
      · intro failed
        simp only [EventBus.bind] at failed
        split at failed
        · cases failed
        · split_ifs at failed
      · intro reply bus ran
        exact appended (sound.invariant.bind ran)
    | unbind event fn =>
      refine ends_asBinding (ends_liftBus sound ?_ ?_)
      · intro failed
        simp only [EventBus.unbind] at failed
        split at failed
        · cases failed
        · split at failed <;> cases failed
      · intro reply bus ran
        obtain ⟨invariant, names, more, -⟩ := sound.invariant.unbind ran
        exact ⟨invariant, names, more⟩
    | cancel =>
      refine ends_asBinding (ends_liftBus sound ?_ ?_)
      · intro failed
        simp only [EventBus.cancel] at failed
        split_ifs at failed <;> cases failed
      · intro reply bus ran
        cases cancelled : watched.events.cancel with
        | error e =>
          rw [cancelled] at ran
          cases ran
        | ok bus' =>
          rw [cancelled] at ran
          cases ran
          exact appended (sound.invariant.cancel cancelled)
    | dispatch event =>
      refine ends_asBinding ?_
      have dispatched := ends_dispatch event inside sound
      change Ends _ _ ((dispatch event inner >>= fun report => pure report.cancelled) watched)
      refine dispatched.bind fun report last ended => ?_
      exact ended.1
  | shutdown => exact sound.shutdown

/-- Every request of a run is sound. -/
theorem ends_serve (request : BusRequest) (inner : Fn → EStateM Exn Watched Ending)
    (inside : ∀ fn level watched, Sound level level.active watched →
      Ends (fun _ => Sound level level.active) (fun _ _ => False) (inner fn watched))
    (level : Level) (watched : Watched) (sound : Sound level level.active watched) :
    Ends (fun _ => Sound level level.active) (fun _ _ => False) (serve request inner watched) := by
  refine (ends_answer request inside sound).bind fun reply last ended => ?_
  exact ended.look

/-- And so is the run. -/
theorem ends_script (script : BusScript) (level : Level) (watched : Watched) (sound : Sound level level.active watched) :
    Ends (fun _ => Sound level level.active) (fun _ _ => False) (script.run serve watched) :=
  Script.ends_run ends_serve script level watched sound

end Run

end Watched

/-! ## The constructor -/

theorem EventBus.init_names : EventBus.init.names = eventNames := by
  decide +kernel

theorem EventBus.init_cancelled : EventBus.init.cancelled = [] := by
  decide +kernel

theorem EventBus.init_indexByName : EventBus.init.indexByName = eventNames.zipIdx.reverse := by
  decide +kernel

theorem EventBus.init_find (name : String) (index : ℕ) :
    EventBus.init.find name = some index ↔ eventNames[index]? = some name := by
  have distinct : (EventBus.init.indexByName.map Prod.fst).Nodup := by
    decide +kernel
  rw [EventBus.find, Assoc.lookup_eq_some_iff_mem distinct, EventBus.init_indexByName, List.mem_reverse,
    List.mk_mem_zipIdx_iff_getElem?]

theorem EventBus.invariant_init : EventBus.init.Invariant 0 := by
  have empty : ∀ list ∈ EventBus.init.lists, list = [] := by
    decide +kernel
  refine ⟨by decide +kernel, by decide +kernel, ?_, ?_, ?_, ?_, ?_⟩
  · intro name index
    rw [EventBus.init_names]
    exact EventBus.init_find name index
  · exact fun name index listed => (EventBus.init_find name index).mpr listed
  · intro list member
    rw [empty list member]
    exact List.nodup_nil
  · intro list member handler inside
    rw [empty list member] at inside
    cases inside
  · rw [EventBus.init_cancelled]
    rfl

theorem Watched.sound_init (events : EventBus) (invariant : events.Invariant 0) :
    Sound { active := 0, depth := 0, base := fun _ => [] } 0 { events } := by
  refine ⟨rfl, rfl, id, invariant, fun _ _ => List.nil_prefix, ?_, List.Pairwise.nil⟩
  intro entry member
  cases member

end VcmpLua.Model.Core
