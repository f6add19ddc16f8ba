import Mathlib
import VcmpLua.Spec.EventDispatch

/-! # The event bus refines its specification

The bus and the specification are related by the alive functions of each list and by the stack of
active dispatches. For each of these the relation carries a cursor: which handlers the loop has
still to visit. Binding appends beyond every cursor, unbinding removes one function from what every
cursor has left, and compaction moves handlers only when there is no cursor. All other operations
touch neither list nor cursor, so one relation serves every nesting of dispatches.
-/

namespace VcmpLua.Model.Core

open Effect VcmpLua.Spec

/-- The functions bound in a list, in bind order. -/
def aliveFns (list : List Handler) : List Fn := (list.filter (·.alive)).map (·.fn)

@[simp] theorem aliveFns_nil : aliveFns [] = [] := rfl

theorem aliveFns_cons_alive {handler : Handler} (alive : handler.alive = true) (list : List Handler) :
    aliveFns (handler :: list) = handler.fn :: aliveFns list := by
  simp [aliveFns, alive]

theorem aliveFns_cons_dead {handler : Handler} (dead : handler.alive = false) (list : List Handler) :
    aliveFns (handler :: list) = aliveFns list := by
  simp [aliveFns, dead]

@[simp] theorem aliveFns_append (first second : List Handler) :
    aliveFns (first ++ second) = aliveFns first ++ aliveFns second := by
  simp [aliveFns]

/-- Compaction removes no alive handler. -/
@[simp] theorem aliveFns_filter (list : List Handler) :
    aliveFns (list.filter (·.alive)) = aliveFns list := by
  simp [aliveFns]

theorem mem_aliveFns {fn : Fn} {list : List Handler} :
    fn ∈ aliveFns list ↔ ∃ handler ∈ list, handler.alive = true ∧ handler.fn = fn := by
  simp [aliveFns, and_assoc]

theorem any_bound_iff {fn : Fn} {list : List Handler} :
    (list.any fun handler => handler.alive && handler.fn == fn) = true ↔ fn ∈ aliveFns list := by
  simp [mem_aliveFns]

/-! ## Unbinding -/

/-- A handler after `fn` was unbound. -/
def Handler.without (fn : Fn) (handler : Handler) : Handler :=
  if handler.fn = fn then { handler with alive := false } else handler

theorem aliveFns_map_without (fn : Fn) (list : List Handler) :
    aliveFns (list.map (Handler.without fn)) = (aliveFns list).filter (· != fn) := by
  induction list with
  | nil => rfl
  | cons handler rest ih =>
    rw [List.map_cons]
    by_cases same : handler.fn = fn
    · rw [aliveFns_cons_dead (by simp [Handler.without, same]), ih]
      cases alive : handler.alive with
      | true => simp [aliveFns_cons_alive alive, same]
      | false => rw [aliveFns_cons_dead alive]
    · have kept : handler.without fn = handler := by simp [Handler.without, same]
      rw [kept]
      cases alive : handler.alive with
      | true => simp [aliveFns_cons_alive alive, same, ih]
      | false => rw [aliveFns_cons_dead alive, aliveFns_cons_dead alive, ih]

private theorem map_without_of_not_mem {fn : Fn} {list : List Handler} (unbound : fn ∉ aliveFns list) :
    list.map (Handler.without fn) = list := by
  conv_rhs => rw [← List.map_id list]
  refine List.map_congr_left fun handler member => ?_
  by_cases same : handler.fn = fn
  · have dead : handler.alive = false := by
      by_contra alive
      exact unbound (mem_aliveFns.mpr ⟨handler, member, by simpa using alive, same⟩)
    rcases handler with ⟨other, alive⟩
    simp only at same dead
    simp [Handler.without, same, dead]
  · simp [Handler.without, same]

/-- Marking the first alive handler marks all of them: a function is bound at most once. -/
theorem markDead_eq (fn : Fn) {list : List Handler} (nodup : (aliveFns list).Nodup) :
    EventBus.markDead fn list =
      if fn ∈ aliveFns list then some (list.map (Handler.without fn)) else none := by
  induction list with
  | nil => rfl
  | cons handler rest ih =>
    rw [EventBus.markDead]
    cases alive : handler.alive with
    | false =>
      rw [aliveFns_cons_dead alive] at nodup ⊢
      have kept : handler.without fn = handler := by
        rcases handler with ⟨other, flag⟩
        simp only at alive
        simp [Handler.without, alive]
      simp only [Bool.false_and, Bool.false_eq_true, ↓reduceIte, ih nodup, List.map_cons, kept]
      split_ifs <;> rfl
    | true =>
      rw [aliveFns_cons_alive alive] at nodup ⊢
      obtain ⟨fresh, nodup⟩ := List.nodup_cons.mp nodup
      by_cases same : handler.fn = fn
      · subst same
        simp [map_without_of_not_mem fresh, Handler.without]
      · have other : fn ≠ handler.fn := fun eq => same eq.symm
        simp only [Bool.true_and, beq_iff_eq, same, ↓reduceIte, ih nodup, List.mem_cons, other, false_or,
          List.map_cons, Handler.without]
        split_ifs <;> rfl

/-! ## The relation -/

/-- One active dispatch as its loop sees it: `next` of `count` handlers were visited, and `rest` are
the functions the specification has still to visit. -/
structure Cursor where
  event : ℕ
  next : ℕ := 0
  count : ℕ := 0
  rest : List Fn := []

def EventBus.handlers (bus : EventBus) (event : ℕ) : List Handler := bus.lists[event]?.getD []

/-- The handlers a loop has left are the specification's functions that were not dropped. -/
structure FrameRel (bus : EventBus) (cursor : Cursor) (frame : Frame) : Prop where
  event : frame.event = cursor.event
  count : cursor.count ≤ (bus.handlers cursor.event).length
  rest : aliveFns (((bus.handlers cursor.event).take cursor.count).drop cursor.next) =
    cursor.rest.filter (· ∉ frame.dropped)

structure Related (stack : List Cursor) (core : EventCore) (bus : Bus) : Prop where
  usable : core.invoker.dead = false
  names : core.events.names = bus.names
  found : ∀ name, (core.events.find name).isSome = true ↔ name ∈ core.events.names
  length : core.events.lists.length = core.events.names.length
  bound : core.events.lists.map aliveFns = bus.bound
  nodup : ∀ list ∈ core.events.lists, (aliveFns list).Nodup
  cancelled : core.events.cancelled = (bus.frames.map (·.cancelled)).reverse
  frames : List.Forall₂ (FrameRel core.events) stack bus.frames

section Related

variable {stack : List Cursor} {core : EventCore} {bus : Bus}

theorem Related.frames_length (related : Related stack core bus) : bus.frames.length = stack.length :=
  related.frames.length_eq.symm

theorem Related.cancelled_length (related : Related stack core bus) :
    core.events.cancelled.length = stack.length := by
  rw [related.cancelled, List.length_reverse, List.length_map, related.frames_length]

theorem Related.cancelled_isEmpty (related : Related stack core bus) :
    core.events.cancelled.isEmpty = stack.isEmpty := by
  rw [Bool.eq_iff_iff, List.isEmpty_iff_length_eq_zero, List.isEmpty_iff_length_eq_zero,
    related.cancelled_length]

theorem Related.bound_at (related : Related stack core bus) (event : ℕ) :
    bus.bound[event]? = core.events.lists[event]?.map aliveFns := by
  rw [← related.bound, List.getElem?_map]

theorem Related.bound_getD (related : Related stack core bus) (event : ℕ) :
    bus.bound[event]?.getD [] = aliveFns (core.events.handlers event) := by
  rw [related.bound_at, EventBus.handlers]
  cases core.events.lists[event]? <;> rfl

theorem Related.handlers_nodup (related : Related stack core bus) (event : ℕ) :
    (aliveFns (core.events.handlers event)).Nodup := by
  unfold EventBus.handlers
  cases at_event : core.events.lists[event]? with
  | none => exact List.nodup_nil
  | some list => exact related.nodup list (List.mem_of_getElem? at_event)

/-- The depth of calls is no part of the relation. -/
theorem Related.enter (related : Related stack core bus) : Related stack (Invoker.enter core) bus :=
  ⟨related.usable, related.names, related.found, related.length, related.bound, related.nodup,
    related.cancelled, related.frames⟩

theorem Related.leave (related : Related stack core bus) : Related stack (Invoker.leave core) bus :=
  ⟨related.usable, related.names, related.found, related.length, related.bound, related.nodup,
    related.cancelled, related.frames⟩

end Related

theorem EventBus.handlers_set (bus : EventBus) {event : ℕ} (list : List Handler)
    (inRange : event < bus.lists.length) (other : ℕ) :
    EventBus.handlers { bus with lists := bus.lists.set event list } other =
      if other = event then list else bus.handlers other := by
  unfold EventBus.handlers
  by_cases same : other = event
  · subst same
    simp [inRange]
  · rw [List.getElem?_set_ne (fun eq => same eq.symm), if_neg same]

theorem EventBus.handlers_of_getElem? {bus : EventBus} {event : ℕ} {list : List Handler}
    (at_event : bus.lists[event]? = some list) : bus.handlers event = list := by
  rw [EventBus.handlers, at_event, Option.getD_some]

section Operations

variable {stack : List Cursor}

/-- What the operations of the bus may do to a list that a loop walks. -/
private theorem frames_of_lists {bus bus' : EventBus} {frames : List Frame}
    (related : List.Forall₂ (FrameRel bus) stack frames)
    (same : ∀ event, bus'.handlers event = bus.handlers event) :
    List.Forall₂ (FrameRel bus') stack frames := by
  refine related.imp fun cursor frame rel => ⟨rel.event, ?_, ?_⟩
  · rw [same]
    exact rel.count
  · rw [same]
    exact rel.rest

theorem sim_create (name : String) :
    Sim (Related stack) (EventBus.liftBus fun bus => .ok (bus.create name)) (Bus.create name) := by
  intro core bus related
  by_cases known : name ∈ core.events.names
  · have found := (related.found name).mpr known
    have listed : name ∈ bus.names := related.names ▸ known
    simp only [EventBus.liftBus, Bus.create, listed, ↓reduceIte]
    simp only [HasEvents.events, EventBus.create, found, ↓reduceIte, HasEvents.setEvents]
    exact ⟨rfl, related⟩
  · have missing : (core.events.find name).isSome = false :=
      Bool.eq_false_iff.mpr fun found => known ((related.found name).mp found)
    have unlisted : name ∉ bus.names := related.names ▸ known
    simp only [EventBus.liftBus, Bus.create, unlisted, ↓reduceIte]
    simp only [HasEvents.events, EventBus.create, missing, Bool.false_eq_true, ↓reduceIte,
      HasEvents.setEvents]
    refine ⟨rfl, related.usable, ?_, fun other => ?_, ?_, ?_, ?_, related.cancelled, ?_⟩
    · rw [related.names]
    · by_cases same : other = name
      · subst same
        simp [EventBus.find]
      · have unequal : (other == name) = false := by simpa using same
        simp only [EventBus.find, List.lookup, unequal, List.mem_append, List.mem_singleton, same, or_false]
        exact related.found other
    · simp only [List.length_append, List.length_singleton, related.length]
    · rw [List.map_append, related.bound]
      rfl
    · intro list member
      rcases List.mem_append.mp member with old | new
      · exact related.nodup list old
      · rw [List.mem_singleton.mp new]
        exact List.nodup_nil
    · refine frames_of_lists related.frames fun event => ?_
      simp only [EventBus.handlers, List.getElem?_append]
      split_ifs with inRange
      · rfl
      · rw [List.getElem?_eq_none (Nat.le_of_not_lt inRange)]
        cases event - core.events.lists.length <;> rfl

theorem sim_bind (event : ℕ) (fn : Fn) :
    Sim (Related stack) (EventBus.liftBus fun bus => bus.bind event fn) (Bus.bind event fn) := by
  intro core bus related
  cases at_event : core.events.lists[event]? with
  | none =>
    simp only [EventBus.liftBus, Bus.bind, related.bound_at, HasEvents.events, EventBus.bind, at_event,
      Option.map_none]
    exact ⟨rfl, related⟩
  | some list =>
    obtain ⟨inRange, -⟩ := List.getElem?_eq_some_iff.mp at_event
    have listed := EventBus.handlers_of_getElem? at_event
    have member : list ∈ core.events.lists := List.mem_of_getElem? at_event
    by_cases known : fn ∈ aliveFns list
    · have found := any_bound_iff.mpr known
      simp only [EventBus.liftBus, Bus.bind, related.bound_at, HasEvents.events, EventBus.bind, at_event,
        Option.map_some, known, found, ↓reduceIte, HasEvents.setEvents]
      exact ⟨rfl, related⟩
    · have missing := Bool.eq_false_iff.mpr (fun found => known (any_bound_iff.mp found))
      simp only [EventBus.liftBus, Bus.bind, related.bound_at, HasEvents.events, EventBus.bind, at_event,
        Option.map_some, known, missing, Bool.false_eq_true, ↓reduceIte, HasEvents.setEvents]
      refine ⟨rfl, related.usable, related.names, related.found, ?_, ?_, ?_, related.cancelled, ?_⟩
      · simp only [List.length_set, related.length]
      · rw [List.map_set, related.bound, aliveFns_append]
        rfl
      · intro other isMember
        rcases List.mem_or_eq_of_mem_set isMember with old | rfl
        · exact related.nodup other old
        · rw [aliveFns_append, List.nodup_append]
          refine ⟨related.nodup list member, List.nodup_singleton _, fun old isOld new isNew => ?_⟩
          rw [aliveFns_cons_alive rfl, aliveFns_nil, List.mem_singleton] at isNew
          rintro rfl
          subst isNew
          exact known isOld
      · refine related.frames.imp fun cursor frame rel => ⟨rel.event, ?_, ?_⟩
        · rw [EventBus.handlers_set _ _ inRange]
          split_ifs with same
          · have bounded := rel.count
            rw [same, listed] at bounded
            rw [List.length_append]
            exact Nat.le_add_right_of_le bounded
          · exact rel.count
        · rw [EventBus.handlers_set _ _ inRange]
          split_ifs with same
          · have bounded := rel.count
            have rest := rel.rest
            rw [same, listed] at bounded rest
            rw [List.take_append_of_le_length bounded]
            exact rest
          · exact rel.rest

/-- Without an active dispatch, the dead handlers may be removed. -/
theorem Related.compact {core : EventCore} {bus : Bus} (related : Related [] core bus) :
    Related [] { core with events := core.events.compact } bus := by
  refine ⟨related.usable, related.names, related.found, ?_, ?_, ?_, related.cancelled, ?_⟩
  · simp only [EventBus.compact, List.length_map, related.length]
  · rw [← related.bound, EventBus.compact, List.map_map]
    exact List.map_congr_left fun list _ => aliveFns_filter list
  · intro list member
    obtain ⟨old, isOld, rfl⟩ := List.mem_map.mp member
    rw [aliveFns_filter]
    exact related.nodup old isOld
  · have none := related.frames
    rw [List.forall₂_nil_left_iff] at none
    rw [none]
    exact .nil

/-- Unbinding takes the function out of what every loop over the event has left. -/
private theorem Related.without {core : EventCore} {bus : Bus} (related : Related stack core bus)
    {event : ℕ} {list : List Handler} (fn : Fn) (at_event : core.events.lists[event]? = some list) :
    Related stack
      { core with events := { core.events with
          lists := core.events.lists.set event (list.map (Handler.without fn)), needsCompaction := true } }
      { bus with
        bound := bus.bound.set event ((aliveFns list).erase fn)
        frames := bus.frames.map fun frame =>
          if frame.event = event then { frame with dropped := fn :: frame.dropped } else frame } := by
  obtain ⟨inRange, -⟩ := List.getElem?_eq_some_iff.mp at_event
  have listed := EventBus.handlers_of_getElem? at_event
  have nodup := related.nodup list (List.mem_of_getElem? at_event)
  refine ⟨related.usable, related.names, related.found, ?_, ?_, ?_, ?_, ?_⟩
  · simp only [List.length_set, related.length]
  · rw [List.map_set, related.bound, aliveFns_map_without, nodup.erase_eq_filter]
  · intro other isMember
    rcases List.mem_or_eq_of_mem_set isMember with old | rfl
    · exact related.nodup other old
    · rw [aliveFns_map_without]
      exact nodup.filter _
  · rw [related.cancelled, List.map_map]
    congr 2
    funext frame
    simp only [Function.comp_apply]
    split_ifs <;> rfl
  · rw [List.forall₂_map_right_iff]
    refine related.frames.imp fun cursor frame rel => ?_
    have sameLists : ∀ other, EventBus.handlers { core.events with
        lists := core.events.lists.set event (list.map (Handler.without fn)), needsCompaction := true } other =
        if other = event then list.map (Handler.without fn) else core.events.handlers other :=
      fun other => EventBus.handlers_set core.events _ inRange other
    have rest := rel.rest
    have bounded := rel.count
    rw [rel.event]
    by_cases same : cursor.event = event
    · rw [same, listed] at rest bounded
      refine ⟨?_, ?_, ?_⟩
      · rw [if_pos same]
      · rw [sameLists, if_pos same, List.length_map]
        exact bounded
      · rw [sameLists, if_pos same, if_pos same, ← List.map_take, ← List.map_drop, aliveFns_map_without, rest,
          List.filter_filter]
        refine List.filter_congr fun other _ => ?_
        rw [Bool.eq_iff_iff]
        simp
    · refine ⟨?_, ?_, ?_⟩
      · rw [if_neg same]
        exact rel.event
      · rw [sameLists, if_neg same]
        exact bounded
      · rw [sameLists, if_neg same, if_neg same]
        exact rest

theorem sim_unbind (event : ℕ) (fn : Fn) :
    Sim (Related stack) (EventBus.liftBus fun bus => bus.unbind event fn) (Bus.unbind event fn) := by
  intro core bus related
  cases at_event : core.events.lists[event]? with
  | none =>
    simp only [EventBus.liftBus, Bus.unbind, related.bound_at, HasEvents.events, EventBus.unbind, at_event,
      Option.map_none]
    exact ⟨rfl, related⟩
  | some list =>
    have marked := markDead_eq fn (related.nodup list (List.mem_of_getElem? at_event))
    by_cases known : fn ∈ aliveFns list
    · rw [if_pos known] at marked
      have unbound := related.without fn at_event
      simp only [EventBus.liftBus, Bus.unbind, related.bound_at, HasEvents.events, EventBus.unbind, at_event,
        Option.map_some, known, marked, ↓reduceIte, HasEvents.setEvents, related.cancelled_isEmpty]
      cases stack with
      | nil => exact ⟨rfl, unbound.compact⟩
      | cons cursor outer => exact ⟨rfl, unbound⟩
    · rw [if_neg known] at marked
      simp only [EventBus.liftBus, Bus.unbind, related.bound_at, HasEvents.events, EventBus.unbind, at_event,
        Option.map_some, known, marked, ↓reduceIte, HasEvents.setEvents]
      exact ⟨rfl, related⟩

theorem sim_cancel :
    Sim (Related stack) (EventBus.liftBus fun bus => (fun bus => (true, bus)) <$> bus.cancel) Bus.cancel := by
  intro core bus related
  have empty := related.cancelled_isEmpty
  have frames := related.frames
  have flags := related.cancelled
  cases atFrames : bus.frames with
  | nil =>
    rw [atFrames, List.forall₂_nil_right_iff] at frames
    rw [frames] at empty
    simp only [EventBus.liftBus, Bus.cancel, atFrames, HasEvents.events, EventBus.cancel, empty,
      List.isEmpty_nil, ↓reduceIte, Functor.map, Except.map]
    exact ⟨rfl, frames ▸ related⟩
  | cons frame outer =>
    rw [atFrames] at frames flags
    obtain ⟨cursor, cursors, rel, rest, rfl⟩ := List.forall₂_cons_right_iff.mp frames
    simp only [EventBus.liftBus, Bus.cancel, atFrames, HasEvents.events, EventBus.cancel, empty,
      List.isEmpty_cons, Bool.false_eq_true, ↓reduceIte, Functor.map, Except.map, HasEvents.setEvents]
    refine ⟨rfl, related.usable, related.names, related.found, related.length, related.bound, related.nodup,
      ?_, .cons ⟨rel.event, rel.count, rel.rest⟩ (frames_of_lists rest fun _ => rfl)⟩
    rw [flags, List.map_cons, List.reverse_cons, List.dropLast_concat, List.map_cons, List.reverse_cons]

end Operations

/-! ## The loop -/

/-- The bus's own answer to each request of a handler. -/
def EventCore.dispatch (event : ℕ) (inner : Fn → EStateM Exn EventCore HandlerEnd) :
    EStateM Exn EventCore Report :=
  EventBus.dispatch event (pure ()) fun fn _ => HandlerEnd.toEnding <$> inner fn

def EventCore.serve (op : BusOp) (inner : Fn → EStateM Exn EventCore HandlerEnd) :
    EStateM Exn EventCore (Option Bool) :=
  match op with
  | .create name => asBinding (EventBus.liftBus fun bus => .ok (bus.create name))
  | .bind event fn => asBinding (EventBus.liftBus fun bus => bus.bind event fn)
  | .unbind event fn => asBinding (EventBus.liftBus fun bus => bus.unbind event fn)
  | .cancel => asBinding (EventBus.liftBus fun bus => (fun bus => (true, bus)) <$> bus.cancel)
  | .dispatch event => asBinding (Report.cancelled <$> EventCore.dispatch event inner)

section Loop

variable {stack : List Cursor} {cursor : Cursor} {core : EventCore} {bus : Bus}

/-- The flag of a dispatch that is the innermost again is its frame's. -/
private theorem flagAt_innermost (related : Related (cursor :: stack) core bus) :
    (EventBus.flagAt stack.length : EStateM Exn EventCore Bool) core =
      .ok (Bus.innermost bus).cancelled core := by
  obtain ⟨frame, outer, -, rest, same⟩ := List.forall₂_cons_left_iff.mp related.frames
  have flag : core.events.cancelled[stack.length]? = some frame.cancelled := by
    rw [related.cancelled, same, List.map_cons, List.reverse_cons, rest.length_eq,
      List.getElem?_append_right (by simp)]
    simp
  rw [EventBus.flagAt, get_bind, show HasEvents.events core = core.events from rfl, flag]
  simp only [Bus.innermost, same, List.head?_cons, Option.getD_some]
  rfl

private theorem handlerAt_of_lt (related : Related (cursor :: stack) core bus)
    (more : cursor.next < cursor.count) :
    ∃ handler, (EventBus.handlerAt cursor.event cursor.next : EStateM Exn EventCore Handler) core =
        .ok handler core ∧
      ((core.events.handlers cursor.event).take cursor.count).drop cursor.next =
        handler :: ((core.events.handlers cursor.event).take cursor.count).drop (cursor.next + 1) := by
  obtain ⟨frame, outer, rel, -, -⟩ := List.forall₂_cons_left_iff.mp related.frames
  have inRange : cursor.next < (core.events.handlers cursor.event).length := Nat.lt_of_lt_of_le more rel.count
  refine ⟨(core.events.handlers cursor.event)[cursor.next], ?_, ?_⟩
  · cases at_event : core.events.lists[cursor.event]? with
    | none => simp [EventBus.handlers, at_event] at inRange
    | some list =>
      have listed := EventBus.handlers_of_getElem? at_event
      simp only [listed] at inRange ⊢
      rw [EventBus.handlerAt, get_bind, show HasEvents.events core = core.events from rfl, at_event]
      simp only [List.getElem?_eq_getElem inRange]
      rfl
  · rw [List.drop_eq_getElem_cons (by rw [List.length_take]; omega)]
    simp

private theorem nameAt_of_lt (related : Related (cursor :: stack) core bus)
    (more : cursor.next < cursor.count) :
    ∃ name, (EventBus.nameAt cursor.event : EStateM Exn EventCore String) core = .ok name core := by
  obtain ⟨frame, outer, rel, -, -⟩ := List.forall₂_cons_left_iff.mp related.frames
  have inRange : cursor.event < core.events.names.length := by
    rw [← related.length]
    by_contra beyond
    have bounded := rel.count
    rw [EventBus.handlers, List.getElem?_eq_none (Nat.le_of_not_lt beyond)] at bounded
    simp only [Option.getD_none, List.length_nil] at bounded
    omega
  refine ⟨core.events.names[cursor.event], ?_⟩
  rw [EventBus.nameAt, get_bind, show HasEvents.events core = core.events from rfl, List.getElem?_eq_getElem inRange]
  rfl

/-- The loop passes a dead handler. -/
private theorem Related.pass (related : Related (cursor :: stack) core bus) {rest : List Fn}
    (left : aliveFns (((core.events.handlers cursor.event).take cursor.count).drop (cursor.next + 1)) =
      rest.filter (· ∉ (Bus.innermost bus).dropped)) :
    Related ({ cursor with next := cursor.next + 1, rest } :: stack) core bus := by
  obtain ⟨frame, outer, rel, others, same⟩ := List.forall₂_cons_left_iff.mp related.frames
  refine ⟨related.usable, related.names, related.found, related.length, related.bound, related.nodup,
    related.cancelled, ?_⟩
  rw [same]
  refine .cons ⟨rel.event, rel.count, ?_⟩ others
  simpa only [Bus.innermost, same, List.head?_cons, Option.getD_some] using left

private theorem Related.rest_eq (related : Related (cursor :: stack) core bus) :
    aliveFns (((core.events.handlers cursor.event).take cursor.count).drop cursor.next) =
      cursor.rest.filter (· ∉ (Bus.innermost bus).dropped) := by
  obtain ⟨frame, outer, rel, -, same⟩ := List.forall₂_cons_left_iff.mp related.frames
  simpa only [Bus.innermost, same, List.head?_cons, Option.getD_some] using rel.rest

/-- The loop calls a handler that is alive, as the specification does. -/
private theorem dispatchLoop_call {inner : Fn → EStateM Exn EventCore HandlerEnd} {handler : Handler}
    {event index count remaining : ℕ} (usable : core.invoker.dead = false)
    (read : EventBus.handlerAt event (count - (remaining + 1)) core = .ok handler core)
    (alive : handler.alive = true) {name : String} (named : EventBus.nameAt event core = .ok name core) :
    EventBus.dispatchLoop event index count (pure ()) (fun fn _ => HandlerEnd.toEnding <$> inner fn)
        (remaining + 1) core =
      match inner handler.fn (Invoker.enter core) with
      | .ok .threw core => .error (.thrown "exception in a call into Lua") (Invoker.leave core)
      | .ok _ core =>
        (do
          if ← EventBus.flagAt index then
            return [handler.fn]
          (handler.fn :: ·) <$> EventBus.dispatchLoop event index count (pure ())
            (fun fn _ => HandlerEnd.toEnding <$> inner fn) remaining) (Invoker.leave core)
      | .error e core => .error e (Invoker.leave core) := by
  have called := Invoker.call_eq (fun _ => HandlerEnd.toEnding <$> inner handler.fn)
    (show (HasInvoker.invoker core).dead = false from usable)
    (show (pure () : EStateM Exn EventCore Unit) (Invoker.enter core) = _ from rfl)
  rw [EventBus.dispatchLoop, bind_of_ok read, if_neg (by simp [alive]), bind_of_ok named, get_bind]
  change (Invoker.call (pure ()) (fun _ => HandlerEnd.toEnding <$> inner handler.fn) >>= _) core = _
  cases ran : inner handler.fn (Invoker.enter core) with
  | error e core =>
    rw [map_of_error ran] at called
    rw [bind_of_error called]
  | ok ended core' =>
    rw [map_of_ok ran] at called
    cases ended with
    | threw => rw [bind_of_error called]
    | returned | raised =>
      rw [bind_of_ok called, show (HasInvoker.invoker core).dead = false from usable]
      rfl

/-- The loop from `remaining` handlers before its end does what the specification does with the
functions left at that point. -/
private theorem loop_agree {inner : Fn → EStateM Exn EventCore HandlerEnd}
    {inner' : Fn → EStateM Exn Bus HandlerEnd}
    (inside : ∀ cursor fn, Sim (Related (cursor :: stack)) (inner fn) (inner' fn))
    (remaining : ℕ) (position : cursor.next + remaining = cursor.count)
    (related : Related (cursor :: stack) core bus) :
    Agree (fun core bus => ∃ cursor, Related (cursor :: stack) core bus)
      (EventBus.dispatchLoop cursor.event stack.length cursor.count (pure ())
        (fun fn _ => HandlerEnd.toEnding <$> inner fn) remaining core)
      (Bus.visit inner' cursor.rest bus) := by
  induction remaining generalizing cursor core bus with
  | zero =>
    have nothing := related.rest_eq
    rw [List.drop_eq_nil_of_le (by rw [List.length_take]; omega), aliveFns_nil, eq_comm,
      List.filter_eq_nil_iff] at nothing
    have skipped := Bus.visit_append_dropped inner' cursor.rest
      (fun fn member => by simpa using nothing fn member) []
    rw [List.append_nil] at skipped
    rw [skipped]
    exact ⟨rfl, cursor, related⟩
  | succ remaining ih =>
    have more : cursor.next < cursor.count := by omega
    have advanced : cursor.next + 1 + remaining = cursor.count := by omega
    obtain ⟨handler, read, segment⟩ := handlerAt_of_lt related more
    obtain ⟨name, named⟩ := nameAt_of_lt related more
    rw [show cursor.next = cursor.count - (remaining + 1) by omega] at read
    have rest := related.rest_eq
    rw [segment] at rest
    cases alive : handler.alive with
    | false =>
      rw [aliveFns_cons_dead alive] at rest
      rw [EventBus.dispatchLoop, bind_of_ok read, if_pos (by simp [alive])]
      exact @ih { cursor with next := cursor.next + 1 } core bus advanced (related.pass rest)
    | true =>
      rw [aliveFns_cons_alive alive, eq_comm, List.filter_eq_cons_iff] at rest
      obtain ⟨gone, later, split, dropped, present, rest⟩ := rest
      have passed := related.pass rest.symm
      have result := inside _ handler.fn _ _ passed.enter
      rw [dispatchLoop_call related.usable read alive named, split,
        Bus.visit_append_dropped inner' gone (fun fn member => by simpa using dropped fn member),
        Bus.visit_call inner' (by simpa using present)]
      cases left : inner handler.fn (Invoker.enter core) <;> cases right : inner' handler.fn bus <;>
        rw [left, right] at result
      case ok.ok ended core ended' bus =>
        obtain ⟨rfl, result⟩ := result
        have lowered := result.leave
        have flag := flagAt_innermost lowered
        have later := @ih { cursor with next := cursor.next + 1, rest := later } _ bus advanced lowered
        cases ended with
        | threw => exact ⟨rfl, _, lowered⟩
        | returned | raised =>
          simp only
          change Agree _ ((EventBus.flagAt stack.length >>= _) (Invoker.leave core)) _
          rw [bind_of_ok flag]
          split_ifs with cancelled
          · exact ⟨rfl, _, lowered⟩
          · exact later.map _
      case error.error e core f bus =>
        obtain ⟨rfl, result⟩ := result
        exact ⟨rfl, _, result.leave⟩
      all_goals exact result.elim

end Loop

/-! ## One dispatch -/

section Dispatch

variable {stack : List Cursor} {core : EventCore} {bus : Bus}

private theorem hasHandlers_iff {bus : EventBus} {event : ℕ} :
    bus.hasHandlers event = true ↔ bus.handlers event ≠ [] := by
  unfold EventBus.hasHandlers EventBus.handlers
  cases bus.lists[event]? <;> simp

private theorem sizeAt_of_hasHandlers {event : ℕ} (handlers : core.events.hasHandlers event = true) :
    (EventBus.sizeAt event : EStateM Exn EventCore ℕ) core =
      .ok (core.events.handlers event).length core := by
  have bound := hasHandlers_iff.mp handlers
  rw [EventBus.sizeAt, get_bind, show HasEvents.events core = core.events from rfl]
  unfold EventBus.handlers at bound ⊢
  cases at_event : core.events.lists[event]? with
  | none => simp [at_event] at bound
  | some list => rfl

/-- A dispatch starts with a cursor before the whole list. -/
theorem Related.pushFrame (related : Related stack core bus) (event : ℕ) :
    Related
      ({ event, count := (core.events.handlers event).length, rest := bus.bound[event]?.getD [] } :: stack)
      { core with events := core.events.pushFrame } (bus.push event) := by
  refine ⟨related.usable, related.names, related.found, related.length, related.bound, related.nodup, ?_,
    .cons ⟨rfl, Nat.le_refl _, ?_⟩ (frames_of_lists related.frames fun _ => rfl)⟩
  · simp [EventBus.pushFrame, Bus.push, related.cancelled]
  · simp only [related.bound_getD, List.drop_zero, List.not_mem_nil, not_false_eq_true, decide_true,
      List.filter_true]
    change aliveFns ((core.events.handlers event).take (core.events.handlers event).length) = _
    rw [List.take_length]

theorem Related.popFrame {cursor : Cursor} (related : Related (cursor :: stack) core bus) :
    Related stack { core with events := core.events.popFrame stack.length } bus.pop := by
  obtain ⟨frame, outer, -, rest, same⟩ := List.forall₂_cons_left_iff.mp related.frames
  refine ⟨related.usable, related.names, related.found, related.length, related.bound, related.nodup, ?_, ?_⟩
  · simp only [EventBus.popFrame, Bus.pop, related.cancelled, same, List.map_cons, List.reverse_cons,
      List.tail_cons]
    rw [List.take_append_of_le_length (by simp [rest.length_eq]), List.take_of_length_le (by simp [rest.length_eq])]
  · simp only [Bus.pop, same, List.tail_cons]
    exact frames_of_lists rest fun _ => rfl

theorem Related.finishFrame {cursor : Cursor} (related : Related (cursor :: stack) core bus) :
    Related stack { core with events := core.events.finishFrame stack.length } bus.pop := by
  have popped := related.popFrame
  have empty := popped.cancelled_isEmpty
  simp only [EventBus.finishFrame]
  split_ifs with compacts
  · have none : stack = [] := by
      rw [← List.isEmpty_iff, ← empty]
      exact (Bool.and_eq_true_iff.mp compacts).1
    subst none
    exact popped.compact
  · exact popped

private theorem dispatch_none {inner : Fn → EStateM Exn EventCore HandlerEnd} {event : ℕ}
    (handlers : core.events.hasHandlers event = false) :
    EventCore.dispatch event inner core = .ok ⟨false, []⟩ core := by
  rw [EventCore.dispatch, EventBus.dispatch, get_bind, show HasEvents.events core = core.events from rfl, handlers]
  rfl

/-- The state in which the loop of a dispatch starts. -/
private def EventCore.started (core : EventCore) : EventCore :=
  { Invoker.enter core with events := core.events.pushFrame }

/-- The loop of a dispatch that starts in `core`. -/
private def EventCore.loop (event : ℕ) (inner : Fn → EStateM Exn EventCore HandlerEnd) (core : EventCore) :
    EStateM Exn EventCore (List Fn) :=
  EventBus.dispatchLoop event core.events.cancelled.length (core.events.handlers event).length (pure ())
    (fun fn _ => HandlerEnd.toEnding <$> inner fn) (core.events.handlers event).length

private theorem dispatch_unfold {inner : Fn → EStateM Exn EventCore HandlerEnd} {event : ℕ}
    (handlers : core.events.hasHandlers event = true) :
    EventCore.dispatch event inner core =
      withCleanup (onError (do
        let called ← core.loop event inner
        let cancelled ← EventBus.flagAt core.events.cancelled.length
        modify (EventBus.modifyEvents (EventBus.finishFrame core.events.cancelled.length))
        return Report.mk cancelled called)
          (EventBus.modifyEvents (EventBus.popFrame core.events.cancelled.length))) Invoker.leave
        core.started := by
  have size := sizeAt_of_hasHandlers (show core.started.events.hasHandlers event = true from handlers)
  rw [EventCore.dispatch, EventBus.dispatch, get_bind, show HasEvents.events core = core.events from rfl, handlers]
  change withCleanup (onError (EventBus.sizeAt event >>= _) _) Invoker.leave core.started = _
  simp only [withCleanup, onError, bind_of_ok size]
  rfl

private theorem dispatch_of_ok {inner : Fn → EStateM Exn EventCore HandlerEnd} {event : ℕ} {called : List Fn}
    {last : EventCore} {flag : Bool} (handlers : core.events.hasHandlers event = true)
    (ran : core.loop event inner core.started = .ok called last)
    (read : EventBus.flagAt core.events.cancelled.length last = .ok flag last) :
    EventCore.dispatch event inner core =
      .ok ⟨flag, called⟩
        (Invoker.leave { last with events := last.events.finishFrame core.events.cancelled.length }) := by
  rw [dispatch_unfold handlers]
  refine withCleanup_of_ok (onError_of_ok ?_)
  rw [bind_of_ok ran, bind_of_ok read]
  rfl

private theorem dispatch_of_error {inner : Fn → EStateM Exn EventCore HandlerEnd} {event : ℕ} {e : Exn}
    {last : EventCore} (handlers : core.events.hasHandlers event = true)
    (ran : core.loop event inner core.started = .error e last) :
    EventCore.dispatch event inner core =
      .error e (Invoker.leave { last with events := last.events.popFrame core.events.cancelled.length }) := by
  rw [dispatch_unfold handlers]
  exact withCleanup_of_error (onError_of_error (bind_of_error ran))

/-- A dispatch refines the specification's, whatever dispatches are active around it. -/
theorem sim_dispatch {inner : Fn → EStateM Exn EventCore HandlerEnd} {inner' : Fn → EStateM Exn Bus HandlerEnd}
    (inside : ∀ stack fn, Sim (Related stack) (inner fn) (inner' fn)) (event : ℕ) (stack : List Cursor) :
    Sim (Related stack) (EventCore.dispatch event inner) (Bus.dispatch event inner') := by
  intro core bus related
  rw [Bus.dispatch_eq]
  cases handlers : core.events.hasHandlers event with
  | false =>
    have none : core.events.handlers event = [] := by
      by_contra some
      simp [hasHandlers_iff.mpr some] at handlers
    rw [dispatch_none handlers, related.bound_getD, none]
    exact ⟨rfl, related⟩
  | true =>
    have looped := loop_agree (fun cursor fn => inside (cursor :: stack) fn) _ (Nat.zero_add _)
      (related.enter.pushFrame event)
    rw [← related.cancelled_length] at looped
    change Agree _ (core.loop event inner core.started) _ at looped
    cases left : core.loop event inner core.started <;>
      cases right : Bus.visit inner' (bus.bound[event]?.getD []) (bus.push event) <;>
      rw [left, right] at looped
    case ok.ok called last called' last' =>
      obtain ⟨rfl, cursor, ended⟩ := looped
      have flag := flagAt_innermost ended
      rw [← related.cancelled_length] at flag
      rw [dispatch_of_ok handlers left flag, related.cancelled_length]
      exact ⟨rfl, ended.finishFrame.leave⟩
    case error.error e last f last' =>
      obtain ⟨rfl, cursor, ended⟩ := looped
      rw [dispatch_of_error handlers left, related.cancelled_length]
      exact ⟨rfl, ended.popFrame.leave⟩
    all_goals exact looped.elim

end Dispatch

/-! ## Every run -/

theorem sim_serve (op : BusOp) (inner : Fn → EStateM Exn EventCore HandlerEnd)
    (inner' : Fn → EStateM Exn Bus HandlerEnd) (inside : ∀ stack fn, Sim (Related stack) (inner fn) (inner' fn))
    (stack : List Cursor) : Sim (Related stack) (EventCore.serve op inner) (Bus.serve op inner') := by
  cases op with
  | create name => exact sim_asBinding (sim_create name)
  | bind event fn => exact sim_asBinding (sim_bind event fn)
  | unbind event fn => exact sim_asBinding (sim_unbind event fn)
  | cancel => exact sim_asBinding sim_cancel
  | dispatch event =>
    exact sim_asBinding fun core bus related => (sim_dispatch inside event stack core bus related).map _

/-- The states of the bus: whatever was called on it so far, in any order, also from inside dispatches
that are still active or that an exception left. -/
inductive Reachable : EventCore → Prop
  | init : Reachable {}
  | create {core : EventCore} (name : String) :
      Reachable core → Reachable { core with events := (core.events.create name).2 }
  | bind {core : EventCore} {event : ℕ} {fn : Fn} {added : Bool} {events : EventBus} :
      Reachable core → core.events.bind event fn = .ok (added, events) → Reachable { core with events }
  | unbind {core : EventCore} {event : ℕ} {fn : Fn} {removed : Bool} {events : EventBus} :
      Reachable core → core.events.unbind event fn = .ok (removed, events) → Reachable { core with events }
  | cancel {core : EventCore} {events : EventBus} :
      Reachable core → core.events.cancel = .ok events → Reachable { core with events }
  | clear {core : EventCore} : Reachable core → Reachable { core with events := core.events.clear }
  | enter {core : EventCore} : Reachable core → Reachable (Invoker.enter core)
  | leave {core : EventCore} : Reachable core → Reachable (Invoker.leave core)
  | pushFrame {core : EventCore} (event : ℕ) : core.events.hasHandlers event = true →
      Reachable core → Reachable { core with events := core.events.pushFrame }
  | finishFrame {core : EventCore} {index : ℕ} : core.events.cancelled.length = index + 1 →
      Reachable core → Reachable { core with events := core.events.finishFrame index }
  | popFrame {core : EventCore} {index : ℕ} : core.events.cancelled.length = index + 1 →
      Reachable core → Reachable { core with events := core.events.popFrame index }

/-- The bus as the specification sees it between two steps. -/
def EventCore.view (core : EventCore) : Bus where
  bound := core.events.lists.map aliveFns
  names := core.events.names
  frames := core.events.cancelled.reverse.map fun cancelled => { event := 0, cancelled }

section View

variable {stack : List Cursor} {core : EventCore} {bus : Bus}

theorem Related.view_flags (related : Related stack core bus) : core.view.flags = bus.flags := by
  simp [EventCore.view, Bus.flags, related.cancelled, Function.comp_def]

/-- Loops that are active outside need not be known: they have nothing to say about this one. -/
private theorem related_view (usable : core.invoker.dead = false)
    (found : ∀ name, (core.events.find name).isSome = true ↔ name ∈ core.events.names)
    (length : core.events.lists.length = core.events.names.length)
    (nodup : ∀ list ∈ core.events.lists, (aliveFns list).Nodup) :
    Related (core.events.cancelled.map fun _ => { event := 0 }) core core.view := by
  refine ⟨usable, rfl, found, length, rfl, nodup, ?_, ?_⟩
  · simp [EventCore.view, Function.comp_def]
  · rw [List.forall₂_iff_get]
    refine ⟨by simp [EventCore.view], fun i first second => ?_⟩
    refine ⟨?_, ?_, ?_⟩ <;> simp [EventCore.view]

/-- The bus is in a state that the specification has. -/
def Represented (core : EventCore) : Prop := ∃ stack bus, Related stack core bus

/-- Whatever a member function of the bus returns, it leaves a state of the specification. -/
private theorem Represented.lift {β : Type} {f : EventBus → Except Exn (β × EventBus)} {n : EStateM Exn Bus β}
    (sim : ∀ stack, Sim (Related stack) (EventBus.liftBus f) n) {b : β} {events : EventBus}
    (represented : Represented core) (ran : f core.events = .ok (b, events)) :
    Represented { core with events } := by
  obtain ⟨stack, bus, related⟩ := represented
  have agree := sim stack core bus related
  have lifted : (EventBus.liftBus f : EStateM Exn EventCore β) core = .ok b { core with events } := by
    simp only [EventBus.liftBus, HasEvents.events, ran, HasEvents.setEvents]
  rw [lifted] at agree
  obtain ⟨bus, -, related⟩ := agree.of_ok
  exact ⟨stack, bus, related⟩

private theorem Represented.create (represented : Represented core) (name : String) :
    Represented { core with events := (core.events.create name).2 } :=
  represented.lift (fun _ => sim_create name) (b := (core.events.create name).1) rfl

private theorem represented_init : Represented {} := by
  have empty : Represented { events := {} } := by
    refine ⟨[], { bound := [], names := [] }, rfl, rfl, fun name => ?_, rfl, rfl, nofun, rfl, .nil⟩
    simp [EventBus.find]
  have created : ∀ (names : List String) (events : EventBus), Represented { events } →
      Represented { events := names.foldl (fun bus name => (bus.create name).2) events } := by
    intro names
    induction names with
    | nil => exact fun _ represented => represented
    | cons name rest ih => exact fun events represented => ih _ (represented.create name)
  exact created eventNames {} empty

private theorem exists_cursor {index : ℕ} (related : Related stack core bus)
    (active : core.events.cancelled.length = index + 1) :
    ∃ cursor outer, stack = cursor :: outer ∧ outer.length = index := by
  rw [related.cancelled_length] at active
  cases stack with
  | nil => simp at active
  | cons cursor outer => exact ⟨cursor, outer, rfl, by simpa using active⟩

theorem Reachable.represented (reachable : Reachable core) : Represented core := by
  induction reachable with
  | init => exact represented_init
  | create name _ ih => exact ih.create name
  | bind _ ran ih => exact ih.lift (fun _ => sim_bind _ _) ran
  | unbind _ ran ih => exact ih.lift (fun _ => sim_unbind _ _) ran
  | cancel _ ran ih =>
    refine ih.lift (fun _ => sim_cancel) (b := true) ?_
    rw [ran]
    rfl
  | clear _ ih =>
    obtain ⟨stack, bus, related⟩ := ih
    refine ⟨_, _, related_view related.usable related.found ?_ ?_⟩
    · rw [EventBus.clear, List.length_map]
      exact related.length
    · intro list member
      obtain ⟨_, -, rfl⟩ := List.mem_map.mp member
      exact List.nodup_nil
  | enter _ ih =>
    obtain ⟨stack, bus, related⟩ := ih
    exact ⟨stack, bus, related.enter⟩
  | leave _ ih =>
    obtain ⟨stack, bus, related⟩ := ih
    exact ⟨stack, bus, related.leave⟩
  | pushFrame event _ _ ih =>
    obtain ⟨stack, bus, related⟩ := ih
    exact ⟨_, _, related.pushFrame event⟩
  | finishFrame active _ ih =>
    obtain ⟨stack, bus, related⟩ := ih
    obtain ⟨cursor, outer, rfl, rfl⟩ := exists_cursor related active
    exact ⟨_, _, related.finishFrame⟩
  | popFrame active _ ih =>
    obtain ⟨stack, bus, related⟩ := ih
    obtain ⟨cursor, outer, rfl, rfl⟩ := exists_cursor related active
    exact ⟨_, _, related.popFrame⟩

end View

/-- `Dispatch` refines its specification, from every reachable state and for all handlers: the same
functions are called and the same result is returned, in states that agree. The functions called are
bound at the start, in bind order and without repetition; the flags of the enclosing dispatches are
as they were; no index is ever out of range. -/
theorem dispatch_refines {core : EventCore} (reachable : Reachable core) (event : ℕ)
    (handlers : Fn → HandlerScript) :
    let dispatch := EventCore.dispatch event fun fn => (handlers fn).run EventCore.serve
    Agree (fun core bus => core.view.bound = bus.bound ∧ core.view.names = bus.names ∧ core.view.flags = bus.flags)
        (dispatch core) (Bus.dispatch event (fun fn => (handlers fn).run Bus.serve) core.view) ∧
      (∀ core', dispatch core ≠ .error .undefined core') ∧
      (after dispatch core).events.cancelled = core.events.cancelled ∧
      ∀ report core', dispatch core = .ok report core' →
        report.called.Sublist (aliveFns (core.events.handlers event)) ∧ report.called.Nodup := by
  intro dispatch
  obtain ⟨stack, bus, related⟩ := reachable.represented
  have start := related_view related.usable related.found related.length related.nodup
  have agree := sim_dispatch (fun stack fn => Script.sim_run sim_serve (handlers fn) stack) event _ _ _ start
  have flags := Bus.dispatch_flags (fun fn => Script.keeps_run Bus.keeps_serve (handlers fn)) event core.view
  have defined := Bus.raises_dispatch (fun fn => Script.raises_run Bus.raises_serve (handlers fn)) event
  change Agree _ (dispatch core) _ at agree
  refine ⟨?_, ?_, ?_, ?_⟩
  · exact agree.imp fun core bus ended => ⟨ended.bound, ended.names, ended.view_flags⟩
  · intro core' failed
    rw [failed] at agree
    obtain ⟨bus', failed, -⟩ := agree.of_error
    exact defined _ _ _ failed rfl
  · have same := agree.after.view_flags.trans flags
    simpa [EventCore.view, Bus.flags, Function.comp_def] using same
  · intro report core' ran
    rw [ran] at agree
    obtain ⟨bus', ran, -⟩ := agree.of_ok
    have sublist := Bus.dispatch_sublist ran
    rw [start.bound_getD] at sublist
    exact ⟨sublist, sublist.nodup (start.handlers_nodup event)⟩

private theorem Reachable.bind_first {core : EventCore} (reachable : Reachable core) (event : ℕ) (fn : Fn)
    (listed : core.events.lists[event]? = some []) :
    ∃ events, core.events.bind event fn = .ok (true, events) ∧ Reachable { core with events } := by
  have bound : core.events.bind event fn =
      .ok (true, { core.events with lists := core.events.lists.set event [⟨fn, true⟩] }) := by
    simp [EventBus.bind, listed]
  exact ⟨_, bound, .bind reachable bound⟩

/-- Nothing is out of range when a handler unbinds itself, binds itself again, cancels and fails. -/
theorem dispatch_refines_sample :
    ∃ events, ({} : EventCore).events.bind 8 5 = .ok (true, events) ∧
      ∀ core', EventCore.dispatch 8 (fun _ => Script.run EventCore.serve
          (.act (.unbind 8 5) (fun _ => .ret .returned) fun _ =>
            .act (.bind 8 5) (fun _ => .ret .returned) fun _ =>
              .act .cancel (fun _ => .ret .returned) fun _ => .ret .raised))
        { events } ≠ .error .undefined core' := by
  obtain ⟨events, bound, reachable⟩ := Reachable.init.bind_first 8 5 (by decide +kernel)
  exact ⟨events, bound, (dispatch_refines reachable 8 fun _ => _).2.1⟩

end VcmpLua.Model.Core
