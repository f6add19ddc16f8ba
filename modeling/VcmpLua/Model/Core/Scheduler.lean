import Mathlib
import VcmpLua.Model.Core.Invoker

/-! # Timers

`core/scheduler.cpp`: timers by id, in a map whose nodes never move. `Tick` collects the timers that
are due, sorts them and calls each that still exists; `Run` holds a reference to its timer while the
callback runs, so a timer destroyed meanwhile is only marked. An access through that reference after
the node is gone is undefined. Times are integers: the clock is 64 bits of milliseconds, and so is
the counter of ids, which never returns to a value. Clock readings are arguments. The vector that
keeps its capacity between ticks is not modelled, and neither are the checks of the Lua stack.
-/

namespace VcmpLua.Model.Core

open Effect

structure Timer where
  callback : Fn := 0
  args : List LuaValue := []
  handle : LuaValue := 0
  interval : ℤ := 0
  remaining : ℤ := -1
  due : ℤ := 0
  running : Bool := false
  destroyed : Bool := false
deriving DecidableEq, Repr

/-- What `Run` does to a timer before its callback: one call fewer, and the next time it is due. A
timer that fell behind keeps its rate from now on. -/
def Timer.advance (now : ℤ) (timer : Timer) : Timer :=
  let timer := if timer.remaining > 0 then { timer with remaining := timer.remaining - 1 } else timer
  let timer := { timer with due := timer.due + timer.interval }
  if timer.due ≤ now then { timer with due := now + timer.interval } else timer

/-- Only the count of calls and the time it is due change. -/
theorem Timer.advance_eq (now : ℤ) (timer : Timer) :
    timer.advance now = { timer with
      remaining := if timer.remaining > 0 then timer.remaining - 1 else timer.remaining
      due := if timer.due + timer.interval ≤ now then now + timer.interval else timer.due + timer.interval } := by
  by_cases more : timer.remaining > 0 <;> by_cases behind : timer.due + timer.interval ≤ now <;>
    simp only [Timer.advance, more, behind, ↓reduceIte]

structure Scheduler where
  timers : ℕ → Option Timer := fun _ => none
  nextId : ℕ := 1

namespace Scheduler

def kForever : ℤ := -1

def kMaxInterval : ℤ := 2 ^ 40

def setTimer (scheduler : Scheduler) (id : ℕ) (timer : Option Timer) : Scheduler :=
  { scheduler with timers := Function.update scheduler.timers id timer }

@[simp] theorem setTimer_timers (scheduler : Scheduler) (id : ℕ) (timer : Option Timer) :
    (scheduler.setTimer id timer).timers = Function.update scheduler.timers id timer := rfl

@[simp] theorem setTimer_nextId (scheduler : Scheduler) (id : ℕ) (timer : Option Timer) :
    (scheduler.setTimer id timer).nextId = scheduler.nextId := rfl

/-- The keys of the map, in its order: ids are handed out in increasing order, from 1. -/
def ids (scheduler : Scheduler) : List ℕ :=
  (List.range scheduler.nextId).filter fun id => (scheduler.timers id).isSome

def create (scheduler : Scheduler) (callback : Fn) (interval repeats : ℤ) (args : List LuaValue) (clock : ℤ) :
    Except Exn (ℕ × Scheduler) :=
  if interval < 0 ∨ interval > kMaxInterval then
    .error (.thrown "timer interval must be between 0 and 2^40 milliseconds")
  else if repeats ≠ kForever ∧ repeats ≤ 0 then
    .error (.thrown "timer repeat count must be -1 (forever) or positive")
  else
    let id := scheduler.nextId
    let timer := (scheduler.timers id).getD {}
    .ok (id, { scheduler.setTimer id (some { timer with
      callback, args, interval, remaining := repeats, due := clock + interval }) with nextId := id + 1 })

/-- The arguments that `Create` accepts. -/
def ValidTimer (interval repeats : ℤ) : Prop :=
  (0 ≤ interval ∧ interval ≤ kMaxInterval) ∧ (repeats = kForever ∨ 0 < repeats)

instance (interval repeats : ℤ) : Decidable (ValidTimer interval repeats) :=
  inferInstanceAs (Decidable (_ ∧ _))

theorem create_of_not_valid (scheduler : Scheduler) (callback : Fn) {interval repeats : ℤ}
    (args : List LuaValue) (clock : ℤ) (bad : ¬ ValidTimer interval repeats) :
    ∃ what, scheduler.create callback interval repeats args clock = .error (.thrown what) := by
  unfold create
  split_ifs with badInterval badRepeats
  · exact ⟨_, rfl⟩
  · exact ⟨_, rfl⟩
  · exact absurd ⟨by omega, by omega⟩ bad

/-- A new timer gets the next id, whose slot is free. -/
theorem create_of_valid {scheduler : Scheduler} {callback : Fn} {interval repeats : ℤ}
    {args : List LuaValue} {clock : ℤ} (good : ValidTimer interval repeats)
    (fresh : scheduler.timers scheduler.nextId = none) :
    scheduler.create callback interval repeats args clock =
      .ok (scheduler.nextId, { scheduler.setTimer scheduler.nextId (some
        { callback, args, interval, remaining := repeats, due := clock + interval }) with
          nextId := scheduler.nextId + 1 }) := by
  obtain ⟨goodInterval, goodRepeats⟩ := good
  rw [create, if_neg (by omega), if_neg (by omega)]
  simp only [fresh, Option.getD_none]

def setHandle (scheduler : Scheduler) (id : ℕ) (handle : LuaValue) : Scheduler :=
  match scheduler.timers id with
  | none => scheduler
  | some timer => scheduler.setTimer id (some { timer with handle })

/-- False if the timer does not exist (finished or destroyed). -/
def destroy (scheduler : Scheduler) (id : ℕ) : Bool × Scheduler :=
  match scheduler.timers id with
  | none => (false, scheduler)
  | some timer =>
    if timer.destroyed then (false, scheduler)
    else if timer.running then (true, scheduler.setTimer id (some { timer with destroyed := true }))
    else (true, scheduler.setTimer id none)

def «exists» (scheduler : Scheduler) (id : ℕ) : Bool :=
  match scheduler.timers id with
  | none => false
  | some timer => !timer.destroyed

def count (scheduler : Scheduler) : ℕ :=
  (scheduler.ids.filter fun id => scheduler.exists id).length

/-- Releases every timer. -/
def clear (scheduler : Scheduler) : Scheduler := { scheduler with timers := fun _ => none }

/-- The timers `Tick` collects. -/
def dueIds (scheduler : Scheduler) (now : ℤ) : List ℕ :=
  scheduler.ids.filter fun id =>
    match scheduler.timers id with
    | none => false
    | some timer => !timer.destroyed && timer.due ≤ now

/-- The comparison of the sort: earliest first, and ids (creation order) break ties. -/
def before (scheduler : Scheduler) (a b : ℕ) : Bool :=
  let dueA := ((scheduler.timers a).getD {}).due
  let dueB := ((scheduler.timers b).getD {}).due
  if dueA ≠ dueB then dueA < dueB else a < b

/-- `std::sort` of the collected ids; the comparison looks timers up with `at`. -/
def sortDue (scheduler : Scheduler) (ids : List ℕ) : Except Exn (List ℕ) :=
  if ids.all fun id => (scheduler.timers id).isSome then
    .ok (ids.insertionSort fun a b => scheduler.before b a = false)
  else .error (.thrown "map::at")

end Scheduler

/-- A state that holds a scheduler, the invoker it calls through and the global `thisTimer`. -/
class HasTimers (σ : Type) extends HasInvoker σ where
  scheduler : σ → Scheduler
  setScheduler : Scheduler → σ → σ
  thisTimer : σ → LuaValue
  setThisTimer : LuaValue → σ → σ

namespace Scheduler

variable {σ : Type} [HasTimers σ]

open HasTimers

/-- Reading a timer through a reference to its node. -/
def readTimer (id : ℕ) : EStateM Exn σ Timer := fun s =>
  match (scheduler s).timers id with
  | none => .error .undefined s
  | some timer => .ok timer s

/-- Writing a timer through a reference to its node. -/
def writeTimer (id : ℕ) (update : Timer → Timer) : EStateM Exn σ Unit := fun s =>
  match (scheduler s).timers id with
  | none => .error .undefined s
  | some timer => .ok () (setScheduler ((scheduler s).setTimer id (some (update timer))) s)

/-- The constructor of `RunningScope`: `thisTimer` is the timer, and `Destroy` only marks it. Returns
the previous `thisTimer`. -/
def enterRunning (id : ℕ) : EStateM Exn σ LuaValue := do
  let previous := thisTimer (← get)
  let timer ← readTimer id
  modify (setThisTimer timer.handle)
  writeTimer id fun timer => { timer with running := true }
  return previous

/-- The destructor of `RunningScope`. -/
def leaveRunning (id : ℕ) (previous : LuaValue) : EStateM Exn σ Unit := do
  writeTimer id fun timer => { timer with running := false }
  modify fun s => if (HasInvoker.invoker s).dead then s else setThisTimer previous s

/-- The end of `Run`: a timer that was destroyed meanwhile or has no call left is removed. -/
def eraseEnded (id : ℕ) : EStateM Exn σ Unit := do
  let timer ← readTimer id
  if timer.destroyed || timer.remaining == 0 then
    modify fun s => setScheduler ((scheduler s).setTimer id none) s

/-- `Scheduler::Run`: `call id` is what the callback does in this call, with the timer's arguments.
The destructor of `RunningScope` also runs when the call throws. -/
def run (id : ℕ) (now : ℤ) (call : ℕ → Fn → List LuaValue → EStateM Exn σ Ending) : EStateM Exn σ Unit := do
  writeTimer id (Timer.advance now)
  let previous ← enterRunning id
  let timer ← readTimer id
  let result ← attempt (Invoker.call (Timer.args <$> readTimer id) (call id timer.callback))
  leaveRunning id previous
  match result with
  | .error e => throw e
  | .ok _ => eraseEnded id

/-- The loop of `Tick`; returns the timers whose callback was called. -/
def tickLoop (now : ℤ) (call : ℕ → Fn → List LuaValue → EStateM Exn σ Ending) :
    List ℕ → EStateM Exn σ (List ℕ)
  | [] => return []
  | id :: rest => do
      if !(scheduler (← get)).exists id then
        tickLoop now call rest
      else
        let dead := (HasInvoker.invoker (← get)).dead
        run id now call
        let later ← tickLoop now call rest
        return if dead then later else id :: later

/-- `Scheduler::Tick` with the clock reading `now`. -/
def tick (now : ℤ) (call : ℕ → Fn → List LuaValue → EStateM Exn σ Ending) : EStateM Exn σ (List ℕ) := do
  if (scheduler (← get)).ids.isEmpty then
    return []
  Invoker.scope do
    let timers := scheduler (← get)
    match timers.sortDue (timers.dueIds now) with
    | .error e => throw e
    | .ok due => tickLoop now call due

section Nodes

variable {s : σ} {id : ℕ} {timer : Timer}

theorem readTimer_of_some (found : (scheduler s).timers id = some timer) : readTimer id s = .ok timer s := by
  simp only [readTimer, found]

theorem writeTimer_of_some (update : Timer → Timer) (found : (scheduler s).timers id = some timer) :
    writeTimer id update s = .ok () (setScheduler ((scheduler s).setTimer id (some (update timer))) s) := by
  simp only [writeTimer, found]

end Nodes

end Scheduler

end VcmpLua.Model.Core
