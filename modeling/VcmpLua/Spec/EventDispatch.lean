import Mathlib
import VcmpLua.Lib.Script
import VcmpLua.Model.Core.EventBus

/-! # What a dispatch is

The specification of the event bus has no dead handlers, indices or compaction. An event has the
list of the functions bound to it, in bind order. A dispatch takes that list once, when it starts,
and visits it in order; its frame remembers only which of these functions were unbound since and
whether the dispatch was cancelled while it was the innermost one. A function that was unbound
before its turn is left out, also if it was bound again meanwhile, and so is everything after the
first function during which the dispatch was cancelled.
-/

namespace VcmpLua.Spec

open Effect VcmpLua.Model.Core

/-- What a handler may ask of the bus. -/
inductive BusOp where
  | create (name : String)
  | bind (event : ℕ) (fn : Fn)
  | unbind (event : ℕ) (fn : Fn)
  | cancel
  | dispatch (event : ℕ)
deriving DecidableEq, Repr

/-- Any behaviour of a handler: what it asks, what the handlers of its own dispatches do (by
function: a dispatch calls each at most once), and how it ends. -/
abbrev HandlerScript := Script BusOp Fn (Option Bool) HandlerEnd

/-- One active dispatch. -/
structure Frame where
  event : ℕ
  /-- The functions unbound from the event since the dispatch started. -/
  dropped : List Fn := []
  /-- `Cancel` was called while this dispatch was the innermost. -/
  cancelled : Bool := false
deriving DecidableEq, Repr

structure Bus where
  bound : List (List Fn)
  names : List String
  /-- The active dispatches, innermost first. -/
  frames : List Frame := []
deriving DecidableEq, Repr

namespace Bus

def create (name : String) : EStateM Exn Bus Bool := fun bus =>
  if name ∈ bus.names then .ok false bus
  else .ok true { bus with bound := bus.bound ++ [[]], names := bus.names ++ [name] }

def bind (event : ℕ) (fn : Fn) : EStateM Exn Bus Bool := fun bus =>
  match bus.bound[event]? with
  | none => .error (.thrown "deque::at") bus
  | some fns =>
    if fn ∈ fns then .ok false bus
    else .ok true { bus with bound := bus.bound.set event (fns ++ [fn]) }

/-- Every active dispatch of the event forgets the function. -/
def unbind (event : ℕ) (fn : Fn) : EStateM Exn Bus Bool := fun bus =>
  match bus.bound[event]? with
  | none => .error (.thrown "deque::at") bus
  | some fns =>
    if fn ∈ fns then
      .ok true { bus with
        bound := bus.bound.set event (fns.erase fn)
        frames := bus.frames.map fun frame =>
          if frame.event = event then { frame with dropped := fn :: frame.dropped } else frame }
    else .ok false bus

/-- Only the innermost dispatch is cancelled. -/
def cancel : EStateM Exn Bus Bool := fun bus =>
  match bus.frames with
  | [] => .error (.thrown "Event.cancel() called outside an event handler") bus
  | frame :: outer => .ok true { bus with frames := { frame with cancelled := true } :: outer }

def innermost (bus : Bus) : Frame := bus.frames.head?.getD { event := 0 }

def push (event : ℕ) (bus : Bus) : Bus := { bus with frames := { event } :: bus.frames }

def pop (bus : Bus) : Bus := { bus with frames := bus.frames.tail }

/-- Visit the functions a dispatch found at its start. -/
def visit (call : Fn → EStateM Exn Bus HandlerEnd) : List Fn → EStateM Exn Bus (List Fn)
  | [] => return []
  | fn :: rest => do
      if fn ∈ (innermost (← get)).dropped then
        visit call rest
      else
        if (← call fn) = .threw then
          throw (.thrown "exception in a call into Lua")
        if (innermost (← get)).cancelled then
          return [fn]
        return fn :: (← visit call rest)

def dispatch (event : ℕ) (call : Fn → EStateM Exn Bus HandlerEnd) : EStateM Exn Bus Report := do
  let snapshot := (← get).bound[event]?.getD []
  modify (push event)
  onError (do
    let called ← visit call snapshot
    let cancelled := (innermost (← get)).cancelled
    modify pop
    return ⟨cancelled, called⟩) pop

/-- The specification's answer to each request of a handler. -/
def serve (op : BusOp) (inner : Fn → EStateM Exn Bus HandlerEnd) : EStateM Exn Bus (Option Bool) :=
  match op with
  | .create name => asBinding (create name)
  | .bind event fn => asBinding (bind event fn)
  | .unbind event fn => asBinding (unbind event fn)
  | .cancel => asBinding cancel
  | .dispatch event => asBinding (Report.cancelled <$> dispatch event inner)

/-! ## What follows for every dispatch -/

section Visit

variable {call : Fn → EStateM Exn Bus HandlerEnd} {bus bus' : Bus}

/-- Functions that are dropped already are left out. -/
theorem visit_append_dropped (call : Fn → EStateM Exn Bus HandlerEnd) (gone : List Fn)
    (dropped : ∀ fn ∈ gone, fn ∈ bus.innermost.dropped) (rest : List Fn) :
    visit call (gone ++ rest) bus = visit call rest bus := by
  induction gone with
  | nil => rfl
  | cons fn gone ih =>
    rw [List.cons_append, visit, get_bind, if_pos (dropped fn (List.mem_cons_self ..))]
    exact ih fun other member => dropped other (List.mem_cons_of_mem _ member)

/-- A function that was not dropped is called. -/
theorem visit_call (call : Fn → EStateM Exn Bus HandlerEnd) {fn : Fn} (present : fn ∉ bus.innermost.dropped)
    (rest : List Fn) :
    visit call (fn :: rest) bus =
      match call fn bus with
      | .ok .threw bus => .error (.thrown "exception in a call into Lua") bus
      | .ok _ bus =>
        if bus.innermost.cancelled then .ok [fn] bus
        else ((fn :: ·) <$> visit call rest) bus
      | .error e bus => .error e bus := by
  rw [visit, get_bind, if_neg present]
  cases ran : call fn bus with
  | error e bus => rw [bind_of_error ran]
  | ok ended bus =>
    rw [bind_of_ok ran]
    cases ended with
    | threw => rfl
    | returned | raised =>
      simp only [reduceCtorEq, ↓reduceIte, get_bind]
      split_ifs <;> rfl

/-- The functions called are taken from the snapshot, in its order. -/
theorem visit_sublist {fns called : List Fn} (ran : visit call fns bus = .ok called bus') :
    called.Sublist fns := by
  induction fns generalizing called bus with
  | nil =>
    cases ran
    exact .refl _
  | cons fn rest ih =>
    by_cases dropped : fn ∈ bus.innermost.dropped
    · rw [visit, get_bind, if_pos dropped] at ran
      exact (ih ran).cons fn
    · rw [visit_call call dropped] at ran
      split at ran
      · cases ran
      · split_ifs at ran
        · cases ran
          exact (List.nil_sublist rest).cons_cons fn
        · obtain ⟨later, visited, rfl⟩ := map_eq_ok.mp ran
          exact (ih visited).cons_cons fn
      · cases ran

theorem dispatch_eq (call : Fn → EStateM Exn Bus HandlerEnd) (event : ℕ) (bus : Bus) :
    dispatch event call bus =
      match visit call (bus.bound[event]?.getD []) (bus.push event) with
      | .ok called last => .ok ⟨last.innermost.cancelled, called⟩ last.pop
      | .error e last => .error e last.pop := by
  rw [dispatch, get_bind, modify_bind]
  cases ran : visit call (bus.bound[event]?.getD []) (bus.push event) with
  | ok called last =>
    refine onError_of_ok ?_
    rw [bind_of_ok ran]
    rfl
  | error e last =>
    refine onError_of_error ?_
    rw [bind_of_error ran]

theorem dispatch_sublist {event : ℕ} {report : Report} (ran : dispatch event call bus = .ok report bus') :
    report.called.Sublist (bus.bound[event]?.getD []) := by
  rw [dispatch_eq] at ran
  cases visited : visit call (bus.bound[event]?.getD []) (bus.push event) with
  | ok called last =>
    rw [visited] at ran
    cases ran
    exact visit_sublist visited
  | error e last =>
    rw [visited] at ran
    cases ran

end Visit

/-- The cancel flags, innermost first. -/
def flags (bus : Bus) : List Bool := bus.frames.map (·.cancelled)

/-- Whatever a handler does, only the flag of the dispatch that called it may change. -/
def OuterFlags (bus bus' : Bus) : Prop := bus'.flags.length = bus.flags.length ∧ bus'.flags.tail = bus.flags.tail

instance : IsPreorder Bus OuterFlags where
  refl _ := ⟨rfl, rfl⟩
  trans _ _ _ first second := ⟨second.1.trans first.1, second.2.trans first.2⟩

theorem keeps_visit {R : Bus → Bus → Prop} [IsPreorder Bus R] {call : Fn → EStateM Exn Bus HandlerEnd}
    (keeps : ∀ fn, Keeps R (call fn)) (fns : List Fn) : Keeps R (visit call fns) := by
  induction fns with
  | nil => exact keeps_pure _
  | cons fn rest ih =>
    refine keeps_get.bind fun bus => ?_
    split_ifs
    · exact ih
    · refine (keeps fn).bind fun ended => ?_
      have next : Keeps R (do
          if (innermost (← get)).cancelled then
            return [fn]
          return fn :: (← visit call rest)) := by
        refine keeps_get.bind fun bus => ?_
        split_ifs
        · exact keeps_pure _
        · exact ih.bind fun _ => keeps_pure _
      split_ifs
      · exact (keeps_throw _).bind fun _ => next
      · exact next

/-- A dispatch puts back every flag it found. -/
theorem dispatch_flags {call : Fn → EStateM Exn Bus HandlerEnd} (keeps : ∀ fn, Keeps OuterFlags (call fn))
    (event : ℕ) (bus : Bus) : (after (dispatch event call) bus).flags = bus.flags := by
  have visited := keeps_visit keeps (bus.bound[event]?.getD []) (bus.push event)
  have popped : ∀ last : Bus, last.pop.flags = last.flags.tail := fun last => List.map_tail
  cases ran : visit call (bus.bound[event]?.getD []) (bus.push event) with
  | ok called last =>
    rw [after_of_ok ran] at visited
    simp only [after, dispatch_eq, ran, popped, visited.2]
    rfl
  | error e last =>
    rw [after_of_error ran] at visited
    simp only [after, dispatch_eq, ran, popped, visited.2]
    rfl

theorem keeps_serve (op : BusOp) (inner : Fn → EStateM Exn Bus HandlerEnd)
    (keeps : ∀ fn, Keeps OuterFlags (inner fn)) : Keeps OuterFlags (serve op inner) := by
  cases op with
  | create name =>
    refine keeps_asBinding fun bus => ?_
    simp only [after, create]
    split_ifs <;> exact ⟨rfl, rfl⟩
  | bind event fn =>
    refine keeps_asBinding fun bus => ?_
    simp only [after, bind]
    cases bus.bound[event]? with
    | none => exact ⟨rfl, rfl⟩
    | some fns =>
      simp only
      split_ifs <;> exact ⟨rfl, rfl⟩
  | unbind event fn =>
    refine keeps_asBinding fun bus => ?_
    have unchanged : ∀ frame : Frame, (if frame.event = event then { frame with dropped := fn :: frame.dropped }
        else frame).cancelled = frame.cancelled := by
      intro frame
      split_ifs <;> rfl
    simp only [after, unbind]
    cases bus.bound[event]? with
    | none => exact ⟨rfl, rfl⟩
    | some fns =>
      simp only
      split_ifs
      · simp [OuterFlags, flags, Function.comp_def, unchanged]
      · exact ⟨rfl, rfl⟩
  | cancel =>
    refine keeps_asBinding fun bus => ?_
    simp only [after, cancel]
    cases frames : bus.frames <;> simp [OuterFlags, flags, frames]
  | dispatch event =>
    refine keeps_asBinding (Keeps.map (fun bus => ?_) _)
    simp only [OuterFlags, dispatch_flags keeps, and_self]

/-- No request of a handler, and so no dispatch, goes wrong in an undefined way. -/
def Defined (e : Exn) : Prop := e ≠ .undefined

theorem raises_visit {call : Fn → EStateM Exn Bus HandlerEnd} (raises : ∀ fn, Raises Defined (call fn))
    (fns : List Fn) : Raises Defined (visit call fns) := by
  induction fns with
  | nil => exact raises_pure _
  | cons fn rest ih =>
    refine raises_get.bind fun bus => ?_
    split_ifs
    · exact ih
    · refine (raises fn).bind fun ended => ?_
      have next : Raises Defined (do
          if (innermost (← get)).cancelled then
            return [fn]
          return fn :: (← visit call rest)) := by
        refine raises_get.bind fun bus => ?_
        split_ifs
        · exact raises_pure _
        · exact ih.bind fun _ => raises_pure _
      split_ifs
      · exact (raises_throw nofun).bind fun _ => next
      · exact next

theorem raises_dispatch {call : Fn → EStateM Exn Bus HandlerEnd} (raises : ∀ fn, Raises Defined (call fn))
    (event : ℕ) : Raises Defined (dispatch event call) := by
  refine raises_get.bind fun bus => (raises_modify _).bind fun _ => Raises.onError ?_ _
  exact (raises_visit raises _).bind fun called => raises_get.bind fun bus =>
    (raises_modify _).bind fun _ => raises_pure _

theorem raises_serve (op : BusOp) (inner : Fn → EStateM Exn Bus HandlerEnd)
    (raises : ∀ fn, Raises Defined (inner fn)) : Raises Defined (serve op inner) := by
  cases op with
  | create name =>
    refine raises_asBinding fun bus e bus' failed => ?_
    unfold create at failed
    split_ifs at failed
  | bind event fn =>
    refine raises_asBinding fun bus e bus' failed => ?_
    unfold bind at failed
    split at failed
    · cases failed
      nofun
    · split_ifs at failed
  | unbind event fn =>
    refine raises_asBinding fun bus e bus' failed => ?_
    unfold unbind at failed
    split at failed
    · cases failed
      nofun
    · split_ifs at failed
  | cancel =>
    refine raises_asBinding fun bus e bus' failed => ?_
    unfold cancel at failed
    split at failed <;> cases failed
    nofun
  | dispatch event => exact raises_asBinding ((raises_dispatch raises event).map _)

end Bus

end VcmpLua.Spec
