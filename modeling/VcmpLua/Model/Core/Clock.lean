import VcmpLua.Model.Core.Scheduler

/-! # Timers on a 64-bit clock

The same `Create`, `Run` and `Tick` with the additions of `std::int64_t`: one that does not fit is
undefined. Everything else of the scheduler is as before.
-/

namespace VcmpLua.Model.Core

open Effect

/-- An addition of signed 64-bit integers. -/
def addInt64 (a b : ℤ) : Except Exn ℤ :=
  if -2 ^ 63 ≤ a + b ∧ a + b < 2 ^ 63 then .ok (a + b) else .error .undefined

theorem addInt64_eq_ok {a b sum : ℤ} (ran : addInt64 a b = .ok sum) : sum = a + b := by
  unfold addInt64 at ran
  split_ifs at ran
  cases ran
  rfl

theorem addInt64_of_bounds {a b : ℤ} (least : -2 ^ 63 ≤ a + b) (most : a + b < 2 ^ 63) :
    addInt64 a b = .ok (a + b) := if_pos ⟨least, most⟩

/-- `Timer.advance`, with its additions. -/
def Timer.advance64 (now : ℤ) (timer : Timer) : Except Exn Timer := do
  let timer := if timer.remaining > 0 then { timer with remaining := timer.remaining - 1 } else timer
  let due ← addInt64 timer.due timer.interval
  let timer := { timer with due }
  if timer.due ≤ now then
    let due ← addInt64 now timer.interval
    return { timer with due }
  return timer

/-- Without an overflow the sums are the sums. -/
theorem Timer.advance64_eq_ok {now : ℤ} {timer timer' : Timer} (ran : timer.advance64 now = .ok timer') :
    timer' = timer.advance now := by
  rw [Timer.advance_eq]
  by_cases more : timer.remaining > 0
  all_goals
    simp only [Timer.advance64, more, ↓reduceIte, bind, Except.bind] at ran ⊢
    cases first : addInt64 timer.due timer.interval with
    | error e => simp only [first, reduceCtorEq] at ran
    | ok due =>
      obtain rfl := addInt64_eq_ok first
      simp only [first] at ran
      split_ifs at ran ⊢ with behind
      · cases second : addInt64 now timer.interval with
        | error e => simp only [second, reduceCtorEq] at ran
        | ok due =>
          obtain rfl := addInt64_eq_ok second
          simp only [second] at ran
          cases ran
          rfl
      · cases ran
        rfl

/-- A timer that is due has sums that fit, up to the largest interval before the end of the range. -/
theorem Timer.advance64_of_due {now : ℤ} {timer : Timer} (positive : 0 ≤ timer.due) (due : timer.due ≤ now)
    (least : 0 ≤ timer.interval) (most : timer.interval ≤ Scheduler.kMaxInterval) (early : now < 2 ^ 63 - 2 ^ 40) :
    timer.advance64 now = .ok (timer.advance now) := by
  have whole : Scheduler.kMaxInterval = 2 ^ 40 := rfl
  rw [Timer.advance_eq]
  have first : addInt64 timer.due timer.interval = .ok (timer.due + timer.interval) :=
    addInt64_of_bounds (by omega) (by omega)
  have second : addInt64 now timer.interval = .ok (now + timer.interval) :=
    addInt64_of_bounds (by omega) (by omega)
  by_cases more : timer.remaining > 0
  all_goals
    simp only [Timer.advance64, more, ↓reduceIte, bind, Except.bind, first, second]
    split_ifs <;> rfl

namespace Scheduler

/-- `Scheduler::Create`, with its addition. -/
def create64 (scheduler : Scheduler) (callback : Fn) (interval repeats : ℤ) (args : List LuaValue) (clock : ℤ) :
    Except Exn (ℕ × Scheduler) :=
  if interval < 0 ∨ interval > kMaxInterval then
    .error (.thrown "timer interval must be between 0 and 2^40 milliseconds")
  else if repeats ≠ kForever ∧ repeats ≤ 0 then
    .error (.thrown "timer repeat count must be -1 (forever) or positive")
  else do
    let id := scheduler.nextId
    let timer := (scheduler.timers id).getD {}
    let due ← addInt64 clock interval
    return (id, { scheduler.setTimer id (some { timer with callback, args, interval, remaining := repeats, due }) with
      nextId := id + 1 })

/-- Without an overflow a timer is created as before. -/
theorem create64_of_fits {scheduler : Scheduler} {callback : Fn} {interval repeats : ℤ} {args : List LuaValue}
    {clock : ℤ} (fits : addInt64 clock interval = .ok (clock + interval)) :
    scheduler.create64 callback interval repeats args clock =
      scheduler.create callback interval repeats args clock := by
  unfold create64 create
  simp only [fits]
  split_ifs <;> rfl

variable {σ : Type} [HasTimers σ]

open HasTimers

/-- The first part of `Run`: the timer is advanced through the reference to its node. -/
def advanceTimer (id : ℕ) (now : ℤ) : EStateM Exn σ Unit := do
  let timer ← readTimer id
  match timer.advance64 now with
  | .error e => throw e
  | .ok advanced => writeTimer id fun _ => advanced

/-- The rest of `Run`. -/
def callTimer (id : ℕ) (call : ℕ → Fn → List LuaValue → EStateM Exn σ Ending) : EStateM Exn σ Unit := do
  let previous ← enterRunning id
  let timer ← readTimer id
  let result ← attempt (Invoker.call (Timer.args <$> readTimer id) (call id timer.callback))
  leaveRunning id previous
  match result with
  | .error e => throw e
  | .ok _ => eraseEnded id

/-- `Scheduler::Run`, with its additions. -/
def run64 (id : ℕ) (now : ℤ) (call : ℕ → Fn → List LuaValue → EStateM Exn σ Ending) : EStateM Exn σ Unit := do
  advanceTimer id now
  callTimer id call

/-- The loop of `Tick`. -/
def tickLoop64 (now : ℤ) (call : ℕ → Fn → List LuaValue → EStateM Exn σ Ending) : List ℕ → EStateM Exn σ Unit :=
  forEach fun id => do
    if (scheduler (← get)).exists id then
      run64 id now call

/-- `Scheduler::Tick` with the clock reading `now`. -/
def tick64 (now : ℤ) (call : ℕ → Fn → List LuaValue → EStateM Exn σ Ending) : EStateM Exn σ Unit := do
  if (scheduler (← get)).ids.isEmpty then
    return
  Invoker.scope do
    let timers := scheduler (← get)
    match timers.sortDue (timers.dueIds now) with
    | .error e => throw e
    | .ok due => tickLoop64 now call due

/-- Without an overflow a call of a timer is as before. -/
theorem run64_of_fits {id : ℕ} {now : ℤ} {s : σ} {timer : Timer} (found : (scheduler s).timers id = some timer)
    (fits : timer.advance64 now = .ok (timer.advance now))
    (call : ℕ → Fn → List LuaValue → EStateM Exn σ Ending) : run64 id now call s = run id now call s := by
  have advanced : advanceTimer id now s = writeTimer id (Timer.advance now) s := by
    rw [advanceTimer, bind_of_ok (readTimer_of_some found)]
    simp only [fits]
    rw [writeTimer_of_some _ found, writeTimer_of_some _ found]
  rw [run64, bind_of_ok (advanced.trans (writeTimer_of_some _ found)), run,
    bind_of_ok (writeTimer_of_some _ found)]
  rfl

end Scheduler

end VcmpLua.Model.Core
