import VcmpLua.Spec.TimerTicks

/-! # The scheduler refines its specification

The specification's timers are the scheduler's that are not marked destroyed. While a callback runs,
its own timer is marked as running, so nothing the callback does removes the node that `Run` refers
to; every other timer may go at any time, and the loop looks each up before its turn.
-/

namespace VcmpLua.Model.Core

open Effect VcmpLua.Spec

/-- The scheduler with the invoker it calls through and the record of what was observed. -/
structure TimerCore where
  invoker : Invoker := {}
  timers : Scheduler := {}
  thisTimer : LuaValue := 0
  log : List TimerEvent := []

instance : HasTimers TimerCore where
  invoker := TimerCore.invoker
  setInvoker invoker core := { core with invoker }
  markDead core := { core with invoker := { core.invoker with dead := true } }
  scheduler := TimerCore.timers
  setScheduler timers core := { core with timers }
  thisTimer := TimerCore.thisTimer
  setThisTimer thisTimer core := { core with thisTimer }

namespace TimerCore

def record (event : TimerEvent) (core : TimerCore) : TimerCore := { core with log := core.log ++ [event] }

/-- The scheduler's answer to each request of a callback; an exception is a Lua error. -/
def serve (op : TimerOp) (_ : Empty → EStateM Exn TimerCore HandlerEnd) : EStateM Exn TimerCore TimerAnswer :=
  match op with
  | .create callback interval repeats args clock => fun core =>
    match core.timers.create callback interval repeats args clock with
    | .error _ => .ok .failed core
    | .ok (id, timers) => .ok (.timer id) (record (.created id repeats) { core with timers })
  | .setHandle id handle => fun core => .ok .done { core with timers := core.timers.setHandle id handle }
  | .destroy id => fun core =>
    let (answer, timers) := core.timers.destroy id
    .ok (.flag answer) (record (.destroyed id answer) { core with timers })
  | .exists id => fun core =>
    let answer := core.timers.exists id
    .ok (.flag answer) (record (.existed id answer) core)
  | .count => fun core =>
    .ok (.number core.timers.count) (record (.counted core.timers.count) core)

/-- One call of a callback, recorded. -/
def callback (callbacks : ℕ → EStateM Exn TimerCore HandlerEnd) (id : ℕ) : EStateM Exn TimerCore Ending := do
  modify (record (.started id))
  let ended ← callbacks id
  modify fun core => if ended = .threw then core else record (.returned id) core
  return ended.toEnding

def tick (now : ℤ) (callbacks : ℕ → EStateM Exn TimerCore HandlerEnd) : EStateM Exn TimerCore (List ℕ) :=
  Scheduler.tick now fun id _ _ => callback callbacks id

def clear (core : TimerCore) : TimerCore := record .cleared { core with timers := core.timers.clear }

end TimerCore

/-! ## The relation -/

/-- The timer as the specification sees it, if it exists. -/
def Timer.live (timer : Timer) : Option LiveTimer :=
  if timer.destroyed then none
  else some { timer with }

/-- What the specification sees of the scheduler. -/
def TimerCore.view (core : TimerCore) : Timers where
  timers id := (core.timers.timers id).bind Timer.live
  nextId := core.timers.nextId
  thisTimer := core.thisTimer
  log := core.log

structure TimerRelated (running : Option ℕ) (core : TimerCore) (s : Timers) : Prop where
  usable : core.invoker.dead = false
  view : core.view = s
  bounded : ∀ id, core.timers.nextId ≤ id → core.timers.timers id = none
  running : ∀ id ∈ running, ∃ timer, core.timers.timers id = some timer ∧ timer.running = true

section View

variable {core : TimerCore}

theorem view_setTimer (core : TimerCore) (id : ℕ) (timer : Option Timer) :
    ({ core with timers := core.timers.setTimer id timer } : TimerCore).view =
      core.view.setTimer id (timer.bind Timer.live) := by
  simp only [TimerCore.view, Timers.setTimer, Scheduler.setTimer_timers, Scheduler.setTimer_nextId,
    Timers.mk.injEq, and_self, and_true]
  funext other
  by_cases same : other = id
  · subst same
    simp
  · simp [same]

/-- Writing a timer the specification does not tell apart from the old one. -/
theorem view_setTimer_of_live {id : ℕ} {timer : Timer} (timer' : Timer)
    (found : core.timers.timers id = some timer) (same : timer'.live = timer.live) :
    ({ core with timers := core.timers.setTimer id (some timer') } : TimerCore).view = core.view := by
  have seen : core.view.timers id = timer.live := by simp [TimerCore.view, found]
  rw [view_setTimer, Option.bind_some, same, Timers.setTimer, ← seen, Function.update_eq_self]

theorem view_timers (core : TimerCore) (id : ℕ) :
    core.view.timers id = (core.timers.timers id).bind Timer.live := rfl

private theorem setTimer_none_of_none {s : Timers} {id : ℕ} (missing : s.timers id = none) :
    s.setTimer id none = s := by
  rw [Timers.setTimer, ← missing, Function.update_eq_self]

theorem exists_eq (core : TimerCore) (id : ℕ) :
    core.timers.exists id = (core.view.timers id).isSome := by
  rw [view_timers, Scheduler.exists]
  cases core.timers.timers id with
  | none => rfl
  | some timer => cases destroyed : timer.destroyed <;> simp [Timer.live, destroyed]

theorem count_eq (core : TimerCore) : core.timers.count = core.view.ids.length := by
  rw [Scheduler.count, Scheduler.ids, Timers.ids, List.filter_filter]
  congr 1
  refine List.filter_congr fun id _ => ?_
  rw [exists_eq, view_timers]
  cases core.timers.timers id <;> simp

end View

section Operations

variable {running : Option ℕ}

theorem TimerRelated.record {core : TimerCore} {s : Timers} (related : TimerRelated running core s)
    (event : TimerEvent) : TimerRelated running (core.record event) (s.record event) := by
  obtain ⟨usable, rfl, bounded, busy⟩ := related
  exact ⟨usable, rfl, bounded, busy⟩

theorem TimerRelated.leave {core : TimerCore} {s : Timers} (related : TimerRelated running core s) :
    TimerRelated running (Invoker.leave core) s := ⟨related.usable, related.view, related.bounded, related.running⟩

private theorem running_setTimer {timers : Scheduler} {id : ℕ} {timer' : Option Timer}
    (busy : ∀ other ∈ running, ∃ timer, timers.timers other = some timer ∧ timer.running = true)
    (kept : id ∈ running → ∃ timer, timer' = some timer ∧ timer.running = true) :
    ∀ other ∈ running, ∃ timer, (timers.setTimer id timer').timers other = some timer ∧
      timer.running = true := by
  intro other member
  by_cases same : other = id
  · subst same
    simpa using kept member
  · simpa [same] using busy other member

private theorem bounded_setTimer {timers : Scheduler} {id : ℕ} {timer' : Option Timer}
    (bounded : ∀ other, timers.nextId ≤ other → timers.timers other = none) (inside : id < timers.nextId) :
    ∀ other, (timers.setTimer id timer').nextId ≤ other → (timers.setTimer id timer').timers other = none := by
  intro other beyond
  have different : other ≠ id := fun same => absurd beyond (by simp [same, inside])
  simpa [different] using bounded other beyond

theorem TimerRelated.lt_nextId {core : TimerCore} {s : Timers} (related : TimerRelated running core s)
    {id : ℕ} {timer : Timer} (found : core.timers.timers id = some timer) : id < core.timers.nextId := by
  by_contra beyond
  have missing := related.bounded id (Nat.le_of_not_lt beyond)
  rw [found] at missing
  cases missing

private theorem sim_timer_create (callback : Fn) (interval repeats : ℤ) (args : List LuaValue) (clock : ℤ)
    (inner : Empty → EStateM Exn TimerCore HandlerEnd) (inner' : Empty → EStateM Exn Timers HandlerEnd) :
    Sim (TimerRelated running) (TimerCore.serve (.create callback interval repeats args clock) inner)
      (Timers.serve (.create callback interval repeats args clock) inner') := by
  rintro core _ ⟨usable, rfl, bounded, busy⟩
  by_cases good : Scheduler.ValidTimer interval repeats
  · have fresh := bounded core.timers.nextId (Nat.le_refl _)
    simp only [TimerCore.serve, Timers.serve, Timers.create, Scheduler.create_of_valid good fresh, good, ↓reduceIte]
    refine ⟨rfl, usable, ?_, ?_, ?_⟩
    · have seen := view_setTimer core core.timers.nextId
        (some { callback, args, interval, remaining := repeats, due := clock + interval })
      exact congrArg (fun timers => Timers.mk timers (core.timers.nextId + 1) core.thisTimer
        (core.log ++ [.created core.timers.nextId repeats])) (congrArg Timers.timers seen)
    · intro other beyond
      change core.timers.nextId + 1 ≤ other at beyond
      have different : other ≠ core.timers.nextId := by omega
      simpa [TimerCore.record, different] using bounded other (by omega)
    · refine running_setTimer busy fun member => ?_
      obtain ⟨timer, found, -⟩ := busy _ member
      rw [fresh] at found
      cases found
  · obtain ⟨what, failed⟩ := core.timers.create_of_not_valid callback args clock good
    simp only [TimerCore.serve, Timers.serve, Timers.create, failed, good, ↓reduceIte]
    exact ⟨rfl, usable, rfl, bounded, busy⟩

private theorem sim_timer_setHandle (id : ℕ) (handle : LuaValue)
    (inner : Empty → EStateM Exn TimerCore HandlerEnd) (inner' : Empty → EStateM Exn Timers HandlerEnd) :
    Sim (TimerRelated running) (TimerCore.serve (.setHandle id handle) inner)
      (Timers.serve (.setHandle id handle) inner') := by
  rintro core _ related
  have seen := view_timers core id
  simp only [TimerCore.serve, Timers.serve]
  cases found : core.timers.timers id with
  | none =>
    rw [found, Option.bind_none] at seen
    rw [related.view] at seen
    simp only [Scheduler.setHandle, Timers.setHandle, found, seen]
    exact ⟨rfl, related⟩
  | some timer =>
    rw [found, Option.bind_some, related.view] at seen
    have inside := related.lt_nextId found
    obtain ⟨usable, rfl, bounded, busy⟩ := related
    simp only [Scheduler.setHandle, Timers.setHandle, found, seen]
    refine ⟨rfl, usable, ?_, bounded_setTimer bounded inside, running_setTimer busy fun member => ?_⟩
    · cases destroyed : timer.destroyed with
      | true =>
        have gone : timer.live = none := by simp [Timer.live, destroyed]
        rw [gone]
        exact view_setTimer_of_live _ found (by simp [Timer.live, destroyed])
      | false =>
        have here : timer.live = some { timer with } := by simp [Timer.live, destroyed]
        rw [here, view_setTimer]
        simp [Timer.live]
    · obtain ⟨other, same, isRunning⟩ := busy id member
      rw [found] at same
      cases same
      exact ⟨_, rfl, isRunning⟩

private theorem sim_timer_destroy (id : ℕ)
    (inner : Empty → EStateM Exn TimerCore HandlerEnd) (inner' : Empty → EStateM Exn Timers HandlerEnd) :
    Sim (TimerRelated running) (TimerCore.serve (.destroy id) inner) (Timers.serve (.destroy id) inner') := by
  intro core s related
  have seen := view_timers core id
  rw [related.view] at seen
  simp only [TimerCore.serve, Timers.serve, seen]
  cases found : core.timers.timers id with
  | none =>
    rw [found] at seen
    simp only [Scheduler.destroy, found, Option.bind_none, Option.isSome_none, setTimer_none_of_none seen]
    exact ⟨rfl, related.record _⟩
  | some timer =>
    have inside := related.lt_nextId found
    cases destroyed : timer.destroyed with
    | true =>
      have gone : timer.live = none := by simp [Timer.live, destroyed]
      rw [found, Option.bind_some, gone] at seen
      simp only [Scheduler.destroy, found, destroyed, ↓reduceIte, Option.bind_some, gone, Option.isSome_none,
        setTimer_none_of_none seen]
      exact ⟨rfl, related.record _⟩
    | false =>
      have here : timer.live = some { timer with } := by simp [Timer.live, destroyed]
      obtain ⟨usable, rfl, bounded, busy⟩ := related
      cases isRunning : timer.running with
      | true =>
        simp only [Scheduler.destroy, found, destroyed, isRunning, Bool.false_eq_true, ↓reduceIte,
          Option.bind_some, here, Option.isSome_some]
        have marked : TimerRelated running
            { core with timers := core.timers.setTimer id (some { timer with running := true, destroyed := true }) }
            (core.view.setTimer id none) := by
          refine ⟨usable, ?_, bounded_setTimer bounded inside,
            running_setTimer busy fun member => ⟨_, rfl, rfl⟩⟩
          rw [view_setTimer]
          simp [Timer.live]
        exact ⟨rfl, marked.record _⟩
      | false =>
        simp only [Scheduler.destroy, found, destroyed, isRunning, Bool.false_eq_true, ↓reduceIte,
          Option.bind_some, here, Option.isSome_some]
        have erased : TimerRelated running { core with timers := core.timers.setTimer id none }
            (core.view.setTimer id none) := by
          refine ⟨usable, view_setTimer core id none, bounded_setTimer bounded inside,
            running_setTimer busy fun member => ?_⟩
          obtain ⟨other, same, otherRuns⟩ := busy id member
          rw [found] at same
          cases same
          rw [isRunning] at otherRuns
          cases otherRuns
        exact ⟨rfl, erased.record _⟩

/-- Every request is answered as the specification answers it, also inside a callback. -/
theorem sim_timer_serve (op : TimerOp) (inner : Empty → EStateM Exn TimerCore HandlerEnd)
    (inner' : Empty → EStateM Exn Timers HandlerEnd) (running : Option ℕ) :
    Sim (TimerRelated running) (TimerCore.serve op inner) (Timers.serve op inner') := by
  cases op with
  | create callback interval repeats args clock =>
    exact sim_timer_create callback interval repeats args clock inner inner'
  | setHandle id handle => exact sim_timer_setHandle id handle inner inner'
  | destroy id => exact sim_timer_destroy id inner inner'
  | «exists» id =>
    intro core s related
    simp only [TimerCore.serve, Timers.serve, exists_eq, related.view]
    exact ⟨rfl, related.record _⟩
  | count =>
    intro core s related
    simp only [TimerCore.serve, Timers.serve, count_eq, related.view]
    exact ⟨rfl, related.record _⟩

end Operations

/-! ## One call -/

theorem Timer.live_advance (now : ℤ) (timer : Timer) :
    (timer.advance now).live = timer.live.map (Timers.advance now) := by
  rw [Timer.advance_eq, Timer.live, Timer.live]
  cases destroyed : timer.destroyed <;> rfl

section Run

variable {core : TimerCore} {s : Timers} {id : ℕ} {timer : Timer}

/-- The state in which a callback starts. -/
def TimerCore.start (core : TimerCore) (id : ℕ) (now : ℤ) (timer : Timer) : TimerCore :=
  Invoker.enter (TimerCore.record (.started id) { core with
    timers := core.timers.setTimer id (some { timer.advance now with running := true })
    thisTimer := timer.handle })

/-- The state after `RunningScope`. -/
def TimerCore.leave (core : TimerCore) (id : ℕ) (previous : LuaValue) (timer : Timer) : TimerCore :=
  Invoker.leave { core with
    timers := core.timers.setTimer id (some { timer with running := false })
    thisTimer := previous }

private theorem callback_eq (callbacks : ℕ → EStateM Exn TimerCore HandlerEnd) (id : ℕ) (core : TimerCore) :
    TimerCore.callback callbacks id core =
      match callbacks id (core.record (.started id)) with
      | .ok .threw core' => .ok .threw core'
      | .ok .returned core' => .ok .returned (core'.record (.returned id))
      | .ok .raised core' => .ok .raised (core'.record (.returned id))
      | .error e core' => .error e core' := by
  rw [TimerCore.callback, modify_bind]
  cases ran : callbacks id (core.record (.started id)) with
  | error e core' => rw [bind_of_error ran]
  | ok ended core' =>
    rw [bind_of_ok ran]
    cases ended <;> rfl

private theorem enterRunning_eq (found : core.timers.timers id = some timer) :
    Scheduler.enterRunning id core = .ok core.thisTimer { core with
      timers := core.timers.setTimer id (some { timer with running := true })
      thisTimer := timer.handle } := by
  have wrote : Scheduler.writeTimer id (fun timer => { timer with running := true })
      ({ core with thisTimer := timer.handle } : TimerCore) = .ok () { core with
        timers := core.timers.setTimer id (some { timer with running := true })
        thisTimer := timer.handle } :=
    Scheduler.writeTimer_of_some _ found
  rw [Scheduler.enterRunning, get_bind, bind_of_ok (Scheduler.readTimer_of_some found), modify_bind]
  exact bind_of_ok wrote

private theorem leaveRunning_eq (found : core.timers.timers id = some timer) (usable : core.invoker.dead = false)
    (previous : LuaValue) :
    Scheduler.leaveRunning id previous core = .ok () { core with
      timers := core.timers.setTimer id (some { timer with running := false })
      thisTimer := previous } := by
  have wrote : Scheduler.writeTimer id (fun timer => { timer with running := false }) core =
      .ok () { core with timers := core.timers.setTimer id (some { timer with running := false }) } :=
    Scheduler.writeTimer_of_some _ found
  rw [Scheduler.leaveRunning, bind_of_ok wrote]
  change EStateM.Result.ok () (if core.invoker.dead = true then _ else _) = _
  rw [if_neg (by simp [usable])]
  rfl

/-- `Run` up to the callback and back. -/
private theorem run_eq (found : core.timers.timers id = some timer) (usable : core.invoker.dead = false)
    (now : ℤ) (callbacks : ℕ → EStateM Exn TimerCore HandlerEnd) :
    Scheduler.run id now (fun id _ _ => TimerCore.callback callbacks id) core =
      (match callbacks id (core.start id now timer) with
      | .ok .threw core' => (do
          Scheduler.leaveRunning id core.thisTimer
          throw (Exn.thrown "exception in a call into Lua")) (Invoker.leave core')
      | .ok _ core' => (do
          Scheduler.leaveRunning id core.thisTimer
          Scheduler.eraseEnded id) (Invoker.leave (core'.record (.returned id)))
      | .error e core' => (do
          Scheduler.leaveRunning id core.thisTimer
          throw e) (Invoker.leave core')) := by
  let advanced : TimerCore := { core with timers := core.timers.setTimer id (some (timer.advance now)) }
  let entered : TimerCore := { core with
    timers := core.timers.setTimer id (some { timer.advance now with running := true })
    thisTimer := timer.handle }
  have wrote : Scheduler.writeTimer id (Timer.advance now) core = .ok () advanced :=
    Scheduler.writeTimer_of_some _ found
  have opened : Scheduler.enterRunning id advanced = .ok core.thisTimer entered := by
    rw [enterRunning_eq (show advanced.timers.timers id = some (timer.advance now) from Function.update_self ..),
      Timer.advance_eq]
    simp only [advanced, entered, Scheduler.setTimer, Function.update_idem, Timer.advance_eq]
  have there : ∀ depth, ({ entered with invoker := depth } : TimerCore).timers.timers id =
      some { timer.advance now with running := true } := fun depth => Function.update_self ..
  have called := Invoker.call_eq (fun _ => TimerCore.callback callbacks id)
    (show (HasInvoker.invoker entered).dead = false from usable)
    (map_of_ok (f := Timer.args) (Scheduler.readTimer_of_some (there { entered.invoker with
      depth := entered.invoker.depth + 1 })))
  have started : (Invoker.enter entered).record (.started id) = core.start id now timer := rfl
  rw [callback_eq, started] at called
  rw [Scheduler.run, bind_of_ok wrote, bind_of_ok opened, bind_of_ok (Scheduler.readTimer_of_some (there _))]
  change (attempt (Invoker.call _ _) >>= _) entered = _
  cases ran : callbacks id (core.start id now timer) with
  | error e core' =>
    rw [ran] at called
    exact bind_of_ok (attempt_of_error called)
  | ok ended core' =>
    rw [ran] at called
    cases ended with
    | threw => exact bind_of_ok (attempt_of_error called)
    | returned | raised => exact bind_of_ok (attempt_of_ok called)

/-- The callback finds its own timer as the specification does. -/
private theorem TimerRelated.start (related : TimerRelated none core s)
    (found : core.timers.timers id = some timer) {live : LiveTimer} (seen : timer.live = some live) (now : ℤ) :
    TimerRelated (some id) (core.start id now timer)
      (Timers.record (.started id)
        { s.setTimer id (some (Timers.advance now live)) with thisTimer := live.handle }) := by
  have inside := related.lt_nextId found
  obtain ⟨usable, rfl, bounded, -⟩ := related
  have advanced : ({ timer.advance now with running := true } : Timer).live = some (Timers.advance now live) := by
    have same : ({ timer.advance now with running := true } : Timer).live = (timer.advance now).live := rfl
    rw [same, Timer.live_advance, seen, Option.map_some]
  have handle : live.handle = timer.handle := by
    unfold Timer.live at seen
    split_ifs at seen
    cases seen
    rfl
  refine ⟨usable, ?_, bounded_setTimer bounded inside, ?_⟩
  · have view := view_setTimer core id (some { timer.advance now with running := true })
    rw [Option.bind_some, advanced] at view
    rw [handle]
    exact congrArg (fun s => Timers.record (.started id) { s with thisTimer := timer.handle }) view
  · rintro other ⟨⟩
    exact ⟨_, Function.update_self .., rfl⟩

/-- The end of a call: the mark is cleared, and `thisTimer` put back. -/
private theorem TimerRelated.left (related : TimerRelated (some id) core s)
    (found : core.timers.timers id = some timer) (previous : LuaValue) :
    TimerRelated none (core.leave id previous timer) { s with thisTimer := previous } := by
  have inside := related.lt_nextId found
  obtain ⟨usable, rfl, bounded, -⟩ := related
  refine ⟨usable, ?_, bounded_setTimer bounded inside, nofun⟩
  have view := view_setTimer_of_live { timer with running := false } found rfl
  exact congrArg (fun s => { s with thisTimer := previous }) view

private theorem TimerRelated.erased (related : TimerRelated none core s)
    (found : core.timers.timers id = some timer) :
    ∃ core', Scheduler.eraseEnded id core = .ok () core' ∧ TimerRelated none core' (s.finish id) := by
  have inside := related.lt_nextId found
  have seen := view_timers core id
  rw [related.view, found, Option.bind_some] at seen
  rw [Scheduler.eraseEnded, bind_of_ok (Scheduler.readTimer_of_some found)]
  unfold Timers.finish
  cases destroyed : timer.destroyed with
  | true =>
    have gone : timer.live = none := by simp [Timer.live, destroyed]
    rw [gone] at seen
    obtain ⟨usable, rfl, bounded, -⟩ := related
    rw [seen]
    refine ⟨{ core with timers := core.timers.setTimer id none }, rfl, usable, ?_,
      bounded_setTimer bounded inside, nofun⟩
    rw [view_setTimer, Option.bind_none, setTimer_none_of_none seen]
  | false =>
    have here : timer.live = some { timer with } := by simp [Timer.live, destroyed]
    rw [here] at seen
    obtain ⟨usable, rfl, bounded, busy⟩ := related
    rw [seen]
    by_cases finished : timer.remaining = 0
    · refine ⟨{ core with timers := core.timers.setTimer id none }, ?_, usable, ?_,
        bounded_setTimer bounded inside, nofun⟩
      · simp only [finished]
        rfl
      · simp only [finished, ↓reduceIte]
        exact view_setTimer core id none
    · refine ⟨core, ?_, usable, ?_, bounded, busy⟩
      · simp [finished]
        rfl
      · simp only [finished, ↓reduceIte]

/-- One call of a timer refines the specification's. -/
private theorem run_agree {callbacks : ℕ → EStateM Exn TimerCore HandlerEnd}
    {callbacks' : ℕ → EStateM Exn Timers HandlerEnd}
    (inside : ∀ id, Sim (TimerRelated (some id)) (callbacks id) (callbacks' id))
    (related : TimerRelated none core s) (found : core.timers.timers id = some timer) {live : LiveTimer}
    (seen : timer.live = some live) (now : ℤ) :
    Agree (TimerRelated none) (Scheduler.run id now (fun id _ _ => TimerCore.callback callbacks id) core)
      (Timers.call id now live (callbacks' id) s) := by
  have previous : core.thisTimer = s.thisTimer := congrArg Timers.thisTimer related.view
  have result := inside id _ _ (related.start found seen now)
  rw [run_eq found related.usable, Timers.call, get_bind, modify_bind, previous]
  cases left : callbacks id (core.start id now timer) <;>
    cases right : callbacks' id (Timers.record (.started id)
      { s.setTimer id (some (Timers.advance now live)) with thisTimer := live.handle }) <;>
    rw [left, right] at result
  case ok.ok ended core' ended' s' =>
    obtain ⟨rfl, result⟩ := result
    obtain ⟨timer', found', -⟩ := result.running id rfl
    rw [bind_of_ok (attempt_of_ok right), modify_bind]
    cases ended with
    | threw =>
      simp only
      rw [bind_of_ok (leaveRunning_eq (show (Invoker.leave core').timers.timers id = _ from found') result.usable _)]
      exact ⟨rfl, result.left found' _⟩
    | returned | raised =>
      simp only
      have noted := result.record (.returned id)
      rw [bind_of_ok (leaveRunning_eq
        (show (Invoker.leave (core'.record (.returned id))).timers.timers id = _ from found') noted.usable _)]
      obtain ⟨core'', erased, ended⟩ := (noted.left found' s.thisTimer).erased (Function.update_self ..)
      change Agree _ (Scheduler.eraseEnded id ((core'.record (.returned id)).leave id s.thisTimer timer')) _
      rw [erased]
      exact ⟨rfl, ended⟩
  case error.error e core' f s' =>
    obtain ⟨rfl, result⟩ := result
    obtain ⟨timer', found', -⟩ := result.running id rfl
    rw [bind_of_ok (attempt_of_error right), modify_bind]
    simp only
    rw [bind_of_ok (leaveRunning_eq (show (Invoker.leave core').timers.timers id = _ from found') result.usable _)]
    exact ⟨rfl, result.left found' _⟩
  all_goals exact result.elim

end Run

/-! ## One tick -/

section Tick

variable {callbacks : ℕ → EStateM Exn TimerCore HandlerEnd} {callbacks' : ℕ → EStateM Exn Timers HandlerEnd}

private theorem sim_tickLoop (inside : ∀ id, Sim (TimerRelated (some id)) (callbacks id) (callbacks' id))
    (now : ℤ) (ids : List ℕ) :
    Sim (TimerRelated none) (Scheduler.tickLoop now (fun id _ _ => TimerCore.callback callbacks id) ids)
      (Timers.visit now callbacks' ids) := by
  induction ids with
  | nil => exact sim_pure []
  | cons id rest ih =>
    intro core s related
    have exist := exists_eq core id
    have seen := view_timers core id
    rw [related.view] at exist seen
    rw [Scheduler.tickLoop, get_bind, Timers.visit, get_bind]
    rw [show (HasTimers.scheduler core).exists id = core.timers.exists id from rfl]
    cases atId : s.timers id with
    | none =>
      rw [atId] at exist
      rw [exist, if_pos (by simp)]
      exact ih core s related
    | some live =>
      rw [atId] at exist seen
      obtain ⟨timer, found, visible⟩ := Option.bind_eq_some_iff.mp seen.symm
      rw [exist, if_neg (by simp), get_bind, show (HasInvoker.invoker core).dead = false from related.usable]
      exact (run_agree inside related found visible now).bind fun _ => ih.map (id :: ·)

private theorem dueIds_eq (core : TimerCore) (now : ℤ) :
    core.timers.dueIds now = core.view.ids.filter fun id => core.view.dueAt id ≤ now := by
  rw [Scheduler.dueIds, Scheduler.ids, Timers.ids, List.filter_filter, List.filter_filter]
  refine List.filter_congr fun id _ => ?_
  rw [Timers.dueAt, view_timers]
  cases core.timers.timers id with
  | none => simp
  | some timer => cases destroyed : timer.destroyed <;> simp [Timer.live, destroyed]

/-- On timers that exist, both compare the same times. -/
private theorem before_iff {core : TimerCore} {a b : ℕ} (first : (core.view.timers a).isSome)
    (second : (core.view.timers b).isSome) :
    core.timers.before b a = false ↔
      core.view.dueAt a < core.view.dueAt b ∨ core.view.dueAt a = core.view.dueAt b ∧ a ≤ b := by
  have due : ∀ id, (core.view.timers id).isSome = true →
      ((core.timers.timers id).getD {}).due = core.view.dueAt id := by
    intro id exist
    rw [Timers.dueAt]
    rw [view_timers] at exist ⊢
    cases found : core.timers.timers id with
    | none => simp [found] at exist
    | some timer =>
      rw [found, Option.bind_some, Timer.live] at exist
      rw [Option.bind_some, Timer.live]
      cases destroyed : timer.destroyed with
      | true => simp [destroyed] at exist
      | false => rfl
  rw [Scheduler.before, due a first, due b second]
  split_ifs with different
  · rw [decide_eq_false_iff_not]
    omega
  · rw [decide_eq_false_iff_not]
    omega

/-- The scheduler collects and sorts what the specification does. -/
private theorem snapshot_eq (core : TimerCore) (now : ℤ) :
    core.timers.sortDue (core.timers.dueIds now) = .ok (core.view.snapshot now) := by
  have exist : ∀ id ∈ core.view.ids.filter fun id => core.view.dueAt id ≤ now,
      (core.view.timers id).isSome = true := fun id member =>
    (List.mem_filter.mp (List.mem_filter.mp member).1).2
  rw [Scheduler.sortDue, dueIds_eq, if_pos, Timers.snapshot]
  · congr 1
    have sorted := List.map_insertionSort (r := fun a b => core.timers.before b a = false)
      (s := fun a b => core.view.dueAt a < core.view.dueAt b ∨ core.view.dueAt a = core.view.dueAt b ∧ a ≤ b)
      id (core.view.ids.filter fun id => core.view.dueAt id ≤ now)
      fun a first b second => before_iff (exist a first) (exist b second)
    simpa using sorted
  · rw [List.all_eq_true]
    intro id member
    have found := exist id member
    rw [view_timers] at found
    cases atId : core.timers.timers id with
    | none => simp [atId] at found
    | some timer => rfl

private theorem snapshot_nil {core : TimerCore} (empty : core.timers.ids = []) (now : ℤ) :
    core.view.snapshot now = [] := by
  have none := snapshot_eq core now
  rw [Scheduler.dueIds, empty] at none
  exact (Except.ok.inj none).symm

theorem sim_tick (inside : ∀ id, Sim (TimerRelated (some id)) (callbacks id) (callbacks' id)) (now : ℤ) :
    Sim (TimerRelated none) (TimerCore.tick now callbacks) (Timers.tick now callbacks') := by
  rintro core _ ⟨usable, rfl, bounded, busy⟩
  rw [TimerCore.tick, Scheduler.tick, get_bind, Timers.tick, get_bind,
    show HasTimers.scheduler core = core.timers from rfl]
  split_ifs with empty
  · rw [snapshot_nil (List.isEmpty_iff.mp empty)]
    exact ⟨rfl, usable, rfl, bounded, busy⟩
  · have looped := sim_tickLoop inside now (core.view.snapshot now) (Invoker.enter core) core.view
      ⟨usable, rfl, bounded, busy⟩
    rw [Invoker.scope, modify_bind]
    refine Agree.withCleanup ?_ fun core s related => related.leave
    rw [get_bind, show HasTimers.scheduler (Invoker.enter core) = core.timers from rfl, snapshot_eq]
    exact looped

end Tick

/-! ## Every run -/

namespace TimerCore

/-- One step of a run. -/
def step : TimerStep → EStateM Exn TimerCore Unit
  | .request op => discard (serve op nofun)
  | .tick now callbacks => discard (tick now fun id => (callbacks id).run serve)
  | .clear => modify clear

end TimerCore

private theorem sim_script (script : TimerScript) (running : Option ℕ) :
    Sim (TimerRelated running) (script.run TimerCore.serve) (script.run Timers.serve) :=
  Script.sim_run (fun op inner inner' _ running => sim_timer_serve op inner inner' running) script running

theorem sim_timer_step (step : TimerStep) :
    Sim (TimerRelated none) (TimerCore.step step) (Timers.step step) := by
  cases step with
  | request op => exact (sim_timer_serve op _ _ none).map _
  | tick now callbacks => exact (sim_tick (fun id => sim_script (callbacks id) (some id)) now).map _
  | clear =>
    rintro core _ ⟨usable, rfl, bounded, busy⟩
    exact ⟨rfl, usable, rfl, fun _ _ => rfl, nofun⟩

/-- The states of the scheduler between two steps, also after a tick that an exception ended. -/
inductive TimerReachable : TimerCore → Prop
  | init : TimerReachable {}
  | step {core : TimerCore} (step : TimerStep) :
      TimerReachable core → TimerReachable (after (TimerCore.step step) core)
  | depth {core : TimerCore} (depth : ℕ) :
      TimerReachable core → TimerReachable { core with invoker := { core.invoker with depth } }

theorem TimerReachable.related {core : TimerCore} (reachable : TimerReachable core) :
    TimerRelated none core core.view := by
  induction reachable with
  | init => exact ⟨rfl, rfl, fun _ _ => rfl, nofun⟩
  | step step _ ih =>
    have ended := (sim_timer_step step _ _ ih).after
    exact ⟨ended.usable, rfl, ended.bounded, ended.running⟩
  | depth depth _ ih => exact ⟨ih.usable, rfl, ih.bounded, nofun⟩

/-- `Tick` refines its specification, from every reachable state and for all callbacks. What it calls
is taken from the timers that exist and are due when it starts, in the order of (due, id); as in the
specification, those destroyed before their turn are left out, and nothing else. Every lookup finds
its timer or skips it: only an exception of a callback ends a tick early. -/
theorem tick_refines {core : TimerCore} (reachable : TimerReachable core) (now : ℤ)
    (callbacks : ℕ → TimerScript) :
    let tick := TimerCore.tick now fun id => (callbacks id).run TimerCore.serve
    let due := core.view.snapshot now
    (∀ id, id ∈ due ↔ ∃ timer, core.timers.timers id = some timer ∧ timer.destroyed = false ∧ timer.due ≤ now) ∧
      due.Pairwise (fun a b =>
        core.view.dueAt a < core.view.dueAt b ∨ core.view.dueAt a = core.view.dueAt b ∧ a < b) ∧
      Agree (fun core s => core.view = s) (tick core)
        (Timers.tick now (fun id => (callbacks id).run Timers.serve) core.view) ∧
      (∀ e core', tick core = .error e core' → e = .thrown "exception in a call into Lua") ∧
      ∀ called core', tick core = .ok called core' → called.Sublist due := by
  intro tick due
  have related := reachable.related
  have agree := sim_tick (fun id => sim_script (callbacks id) (some id)) now _ _ related
  change Agree _ (tick core) _ at agree
  refine ⟨fun id => ?_, Timers.snapshot_pairwise, agree.imp fun _ _ related => related.view, ?_, ?_⟩
  · rw [Timers.mem_snapshot, view_timers]
    constructor
    · rintro ⟨-, live, seen, isDue⟩
      obtain ⟨timer, found, visible⟩ := Option.bind_eq_some_iff.mp seen
      unfold Timer.live at visible
      split_ifs at visible with destroyed
      cases visible
      exact ⟨timer, found, by simpa using destroyed, isDue⟩
    · rintro ⟨timer, found, destroyed, isDue⟩
      refine ⟨related.lt_nextId found, { timer with }, ?_, isDue⟩
      rw [found, Option.bind_some, Timer.live, destroyed]
      rfl
  · intro e core' failed
    rw [failed] at agree
    obtain ⟨s', failed, -⟩ := agree.of_error
    exact Timers.raises_visit (fun id => Script.raises_run (fun op inner _ => Timers.raises_serve op inner) _)
      _ _ _ _ failed
  · intro called core' ran
    rw [ran] at agree
    obtain ⟨s', ran, -⟩ := agree.of_ok
    exact Timers.visit_sublist ran

/-- A timer with interval 0 is called by the next tick, whatever its callback does. -/
theorem tick_refines_sample :
    1 ∈ (after (TimerCore.step (.request (.create 7 0 (-1) [] 5))) {}).view.snapshot 5 :=
  ((tick_refines (.step (.request (.create 7 0 (-1) [] 5)) .init) 5 fun _ => .ret .returned).1 1).mpr
    ⟨{ callback := 7, due := 5 }, by decide, rfl, by decide⟩

end VcmpLua.Model.Core
