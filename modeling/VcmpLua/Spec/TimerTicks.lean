import VcmpLua.Lib.Script
import VcmpLua.Model.Core.Scheduler

/-! # What a tick is

The specification of the scheduler has no marks: a timer that is destroyed is gone at once, also
while its callback runs. A tick takes the timers that are due when it starts, in the order of the
times they are due at and of their ids, and calls those of them that still exist at their turn.
Every observable step is recorded, so that the history of a run can be compared with what the timers
answered.
-/

namespace VcmpLua.Spec

open Effect VcmpLua.Model.Core

/-- What a caller of the scheduler can observe. -/
inductive TimerEvent where
  | created (id : ℕ) (repeats : ℤ)
  | existed (id : ℕ) (answer : Bool)
  | destroyed (id : ℕ) (answer : Bool)
  | counted (count : ℕ)
  | started (id : ℕ)
  | returned (id : ℕ)
  | cleared
deriving DecidableEq, Repr

/-- What a callback may ask of the scheduler; a request carries the clock reading it sees. -/
inductive TimerOp where
  | create (callback : Fn) (interval repeats : ℤ) (args : List LuaValue) (clock : ℤ)
  | setHandle (id : ℕ) (handle : LuaValue)
  | destroy (id : ℕ)
  | exists (id : ℕ)
  | count
deriving DecidableEq, Repr

inductive TimerAnswer where
  | failed | done
  | timer (id : ℕ)
  | flag (answer : Bool)
  | number (count : ℕ)
deriving DecidableEq, Repr

/-- Any behaviour of a callback. -/
abbrev TimerScript := Script TimerOp Empty TimerAnswer HandlerEnd

/-- A timer that exists. -/
structure LiveTimer where
  callback : Fn
  args : List LuaValue
  handle : LuaValue
  interval : ℤ
  remaining : ℤ
  due : ℤ
deriving DecidableEq, Repr

structure Timers where
  timers : ℕ → Option LiveTimer
  nextId : ℕ
  thisTimer : LuaValue
  log : List TimerEvent

namespace Timers

def setTimer (s : Timers) (id : ℕ) (timer : Option LiveTimer) : Timers :=
  { s with timers := Function.update s.timers id timer }

def record (event : TimerEvent) (s : Timers) : Timers := { s with log := s.log ++ [event] }

/-- The timers that exist, in the order of their creation. -/
def ids (s : Timers) : List ℕ := (List.range s.nextId).filter fun id => (s.timers id).isSome

def create (callback : Fn) (interval repeats : ℤ) (args : List LuaValue) (clock : ℤ) :
    EStateM Exn Timers TimerAnswer := fun s =>
  if Scheduler.ValidTimer interval repeats then
    let timer : LiveTimer :=
      { callback, args, interval, handle := 0, remaining := repeats, due := clock + interval }
    .ok (.timer s.nextId) (record (.created s.nextId repeats)
      { s.setTimer s.nextId (some timer) with nextId := s.nextId + 1 })
  else .ok .failed s

def setHandle (id : ℕ) (handle : LuaValue) (s : Timers) : Timers :=
  match s.timers id with
  | none => s
  | some timer => s.setTimer id (some { timer with handle })

/-- The answer to each request of a callback. -/
def serve (op : TimerOp) (_ : Empty → EStateM Exn Timers HandlerEnd) : EStateM Exn Timers TimerAnswer :=
  match op with
  | .create callback interval repeats args clock => create callback interval repeats args clock
  | .setHandle id handle => fun s => .ok .done (s.setHandle id handle)
  | .destroy id => fun s =>
    let answer := (s.timers id).isSome
    .ok (.flag answer) (record (.destroyed id answer) (s.setTimer id none))
  | .exists id => fun s =>
    let answer := (s.timers id).isSome
    .ok (.flag answer) (record (.existed id answer) s)
  | .count => fun s =>
    .ok (.number s.ids.length) (record (.counted s.ids.length) s)

/-- One call fewer, and the next time it is due. -/
def advance (now : ℤ) (timer : LiveTimer) : LiveTimer :=
  { timer with
    remaining := if timer.remaining > 0 then timer.remaining - 1 else timer.remaining
    due := if timer.due + timer.interval ≤ now then now + timer.interval else timer.due + timer.interval }

/-- A timer that has no call left ends. -/
def finish (id : ℕ) (s : Timers) : Timers :=
  match s.timers id with
  | none => s
  | some timer => if timer.remaining = 0 then s.setTimer id none else s

/-- One call of a timer; `thisTimer` is the timer while its callback runs. -/
def call (id : ℕ) (now : ℤ) (timer : LiveTimer) (callback : EStateM Exn Timers HandlerEnd) :
    EStateM Exn Timers Unit := do
  let previous := (← get).thisTimer
  modify fun s => record (.started id)
    { s.setTimer id (some (advance now timer)) with thisTimer := timer.handle }
  let result ← attempt callback
  modify fun s => { s with thisTimer := previous }
  match result with
  | .error e => throw e
  | .ok .threw => throw (.thrown "exception in a call into Lua")
  | .ok _ => modify fun s => finish id (record (.returned id) s)

/-- Call the timers a tick found that still exist. -/
def visit (now : ℤ) (callbacks : ℕ → EStateM Exn Timers HandlerEnd) : List ℕ → EStateM Exn Timers (List ℕ)
  | [] => return []
  | id :: rest => do
      match (← get).timers id with
      | none => visit now callbacks rest
      | some timer =>
        call id now timer (callbacks id)
        return id :: (← visit now callbacks rest)

/-- The time a timer is due at. -/
def dueAt (s : Timers) (id : ℕ) : ℤ :=
  match s.timers id with
  | none => 0
  | some timer => timer.due

/-- The timers that are due, in the order of (due, id). -/
def snapshot (s : Timers) (now : ℤ) : List ℕ :=
  (s.ids.filter fun id => s.dueAt id ≤ now).insertionSort fun a b =>
    s.dueAt a < s.dueAt b ∨ s.dueAt a = s.dueAt b ∧ a ≤ b

def tick (now : ℤ) (callbacks : ℕ → EStateM Exn Timers HandlerEnd) : EStateM Exn Timers (List ℕ) := do
  visit now callbacks ((← get).snapshot now)

def clear (s : Timers) : Timers := record .cleared { s with timers := fun _ => none }

end Timers

/-- One step of a run; what the callbacks do in a tick is given by timer. -/
inductive TimerStep where
  | request (op : TimerOp)
  | tick (now : ℤ) (callbacks : ℕ → TimerScript)
  | clear

namespace Timers

def step : TimerStep → EStateM Exn Timers Unit
  | .request op => discard (serve op nofun)
  | .tick now callbacks => discard (tick now fun id => (callbacks id).run serve)
  | .clear => modify clear

/-! ## What follows for every tick -/

section Snapshot

variable {s : Timers} {now : ℤ}

theorem mem_ids {id : ℕ} : id ∈ s.ids ↔ id < s.nextId ∧ (s.timers id).isSome = true := by
  rw [ids, List.mem_filter, List.mem_range]

theorem mem_snapshot {id : ℕ} : id ∈ s.snapshot now ↔
    id < s.nextId ∧ ∃ timer, s.timers id = some timer ∧ timer.due ≤ now := by
  rw [snapshot, List.mem_insertionSort, List.mem_filter, mem_ids, dueAt]
  cases s.timers id <;> simp

/-- A tick calls the timers in the order of (due, id). -/
theorem snapshot_pairwise : (s.snapshot now).Pairwise fun a b =>
    s.dueAt a < s.dueAt b ∨ s.dueAt a = s.dueAt b ∧ a < b := by
  have sorted : (s.snapshot now).Pairwise fun a b =>
      s.dueAt a < s.dueAt b ∨ s.dueAt a = s.dueAt b ∧ a ≤ b := by
    have total : Std.Total fun a b => s.dueAt a < s.dueAt b ∨ s.dueAt a = s.dueAt b ∧ a ≤ b := ⟨fun a b => by omega⟩
    have trans : IsTrans ℕ fun a b => s.dueAt a < s.dueAt b ∨ s.dueAt a = s.dueAt b ∧ a ≤ b :=
      ⟨fun a b c => by omega⟩
    exact List.pairwise_insertionSort _ _
  have nodup : (s.snapshot now).Nodup :=
    (List.perm_insertionSort _ _).nodup_iff.mpr ((List.nodup_range.filter _).filter _)
  refine sorted.imp₂ (fun a b order different => ?_) nodup
  omega

end Snapshot

section Visit

variable {callbacks : ℕ → EStateM Exn Timers HandlerEnd} {s s' : Timers} {now : ℤ}

theorem visit_sublist {ids called : List ℕ} (ran : visit now callbacks ids s = .ok called s') :
    called.Sublist ids := by
  induction ids generalizing called s with
  | nil =>
    cases ran
    exact .refl _
  | cons id rest ih =>
    rw [visit, get_bind] at ran
    cases atId : s.timers id with
    | none =>
      rw [atId] at ran
      exact (ih ran).cons id
    | some timer =>
      rw [atId] at ran
      obtain ⟨_, middle, -, ran⟩ := bind_eq_ok.mp ran
      obtain ⟨later, last, ran, result⟩ := bind_eq_ok.mp ran
      cases result
      exact (ih ran).cons_cons id

/-- Only an exception of a callback ends a tick early. -/
def Thrown (e : Exn) : Prop := e = .thrown "exception in a call into Lua"

theorem raises_serve (op : TimerOp) (inner : Empty → EStateM Exn Timers HandlerEnd) :
    Raises Thrown (serve op inner) := by
  intro s e s' failed
  cases op with
  | create =>
    simp only [serve, create] at failed
    split_ifs at failed
  | setHandle => cases failed
  | destroy => cases failed
  | «exists» => cases failed
  | count => cases failed

theorem raises_call {id : ℕ} {timer : LiveTimer} {callback : EStateM Exn Timers HandlerEnd}
    (raises : Raises Thrown callback) : Raises Thrown (call id now timer callback) := by
  intro s e s' failed
  rw [call, get_bind, modify_bind] at failed
  cases ran : callback (record (.started id)
      { s.setTimer id (some (advance now timer)) with thisTimer := timer.handle }) with
  | error f last =>
    rw [bind_of_ok (attempt_of_error ran), modify_bind] at failed
    cases failed
    exact raises _ _ _ ran
  | ok ended last =>
    rw [bind_of_ok (attempt_of_ok ran), modify_bind] at failed
    cases ended with
    | threw =>
      cases failed
      rfl
    | returned | raised => cases failed

theorem raises_visit (raises : ∀ id, Raises Thrown (callbacks id)) (ids : List ℕ) :
    Raises Thrown (visit now callbacks ids) := by
  induction ids with
  | nil => exact raises_pure _
  | cons id rest ih =>
    refine raises_get.bind fun s => ?_
    cases s.timers id with
    | none => exact ih
    | some timer => exact (raises_call (raises id)).bind fun _ => ih.bind fun _ => raises_pure _

end Visit

end Timers

end VcmpLua.Spec
