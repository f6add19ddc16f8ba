import Mathlib
import VcmpLua.Lib.Effect

/-! # Calls into Lua

`core/invoker.hpp`: the one way C++ calls a Lua function. Calls are counted, so that a shutdown or
reload can wait for the outermost one, and nothing is called after a panic. Code that runs inside a
call is given by what it does to the whole state and by how it ends, so the same definitions serve
every component; a component's state shows its invoker through `HasInvoker`.
-/

namespace VcmpLua.Model.Core

open Effect

/-- Why C++ code does not return: an exception, or behaviour the language leaves undefined
(an index out of range, a dangling reference). -/
inductive Exn where
  | thrown (what : String)
  | undefined
deriving DecidableEq, Repr

/-- How a call into Lua ends. A Lua error is caught by `lua_pcall` and logged. A C++ exception
(`Lua stack overflow`, an allocation failure) leaves the call, and so does a panic, which marks the
runtime dead first. -/
inductive Ending where
  | returned | raised | threw | panicked
deriving DecidableEq, Repr

/-- The endings on a runtime that does not panic. -/
inductive HandlerEnd where
  | returned | raised | threw
deriving DecidableEq, Repr

def HandlerEnd.toEnding : HandlerEnd → Ending
  | .returned => .returned
  | .raised => .raised
  | .threw => .threw

/-- A Lua function, by identity. -/
abbrev Fn := ℕ

/-- Any other Lua value that the plugin holds a reference to, by identity; nil is 0. -/
abbrev LuaValue := ℕ

structure Invoker where
  depth : ℕ := 0
  dead : Bool := false
deriving DecidableEq, Repr

/-- A state that holds an invoker; `markDead` is what the panic handler does. -/
class HasInvoker (σ : Type) where
  invoker : σ → Invoker
  setInvoker : Invoker → σ → σ
  markDead : σ → σ

namespace Invoker

variable {σ α : Type} [HasInvoker σ]

open HasInvoker

def enter (s : σ) : σ := setInvoker { invoker s with depth := (invoker s).depth + 1 } s

def leave (s : σ) : σ := setInvoker { invoker s with depth := (invoker s).depth - 1 } s

/-- `Invoker::Scope`: one call into Lua for as long as `body` runs. -/
def scope (body : EStateM Exn σ α) : EStateM Exn σ α := do
  modify enter
  withCleanup body leave

/-- `ProtectedCall`, seen from outside: how the Lua function ended. -/
def finishCall : Ending → EStateM Exn σ Bool
  | .returned => pure true
  | .raised => pure false
  | .threw => throw (.thrown "exception in a call into Lua")
  | .panicked => do
      modify markDead
      throw (.thrown "Lua error outside a protected call")

/-- `Invoker::Call`: `push` pushes the arguments, `body` is what the function then does. -/
def call {β : Type} (push : EStateM Exn σ β) (body : β → EStateM Exn σ Ending) :
    EStateM Exn σ Bool := do
  if (invoker (← get)).dead then
    return false
  scope do
    let arguments ← push
    let ending ← body arguments
    finishCall ending

theorem call_dead {β : Type} {push : EStateM Exn σ β} {body : β → EStateM Exn σ Ending} {s : σ}
    (dead : (invoker s).dead = true) : call push body s = .ok false s := by
  rw [call, get_bind, if_pos dead]
  rfl

/-- A call on a usable runtime: the function ends in the state it left, one level up. -/
theorem call_eq {β : Type} {push : EStateM Exn σ β} {argument : β} (body : β → EStateM Exn σ Ending) {s : σ}
    (usable : (invoker s).dead = false) (pushed : push (enter s) = .ok argument (enter s)) :
    call push body s =
      match body argument (enter s) with
      | .ok .returned s' => .ok true (leave s')
      | .ok .raised s' => .ok false (leave s')
      | .ok .threw s' => .error (.thrown "exception in a call into Lua") (leave s')
      | .ok .panicked s' => .error (.thrown "Lua error outside a protected call") (leave (markDead s'))
      | .error e s' => .error e (leave s') := by
  rw [call, get_bind, usable, if_neg (by decide), scope, modify_bind, withCleanup, bind_of_ok pushed]
  cases ran : body argument (enter s) with
  | error e s' => simp only [bind_of_error ran]
  | ok ending s' =>
    simp only [bind_of_ok ran]
    cases ending <;> rfl

end Invoker

/-- A binding called from Lua: its C++ exception becomes a Lua error (`none`). Undefined behaviour
is not an exception. -/
def asBinding {σ α : Type} (body : EStateM Exn σ α) : EStateM Exn σ (Option α) := fun s =>
  match body s with
  | .ok a s' => .ok (some a) s'
  | .error (.thrown _) s' => .ok none s'
  | .error .undefined s' => .error .undefined s'

section asBinding

variable {σ τ α : Type}

@[simp] theorem after_asBinding (body : EStateM Exn σ α) (s : σ) : after (asBinding body) s = after body s := by
  rcases ran : body s with ⟨a, s'⟩ | ⟨_ | _, s'⟩ <;> simp only [after, asBinding, ran]

theorem keeps_asBinding {R : σ → σ → Prop} {body : EStateM Exn σ α} (keeps : Keeps R body) :
    Keeps R (asBinding body) := by
  intro s
  rw [after_asBinding]
  exact keeps s

/-- Only undefined behaviour leaves a binding. -/
theorem raises_asBinding {P : Exn → Prop} {body : EStateM Exn σ α} (raises : Raises P body) :
    Raises P (asBinding body) := by
  intro s e s' failed
  rcases ran : body s with ⟨a, middle⟩ | ⟨_ | _, middle⟩ <;> simp only [asBinding, ran] at failed <;>
    cases failed
  exact raises s _ _ ran

/-- A binding returns where its body keeps an invariant and is defined. -/
theorem ends_asBinding {P : σ → Prop} {body : EStateM Exn σ α} {s : σ}
    (ends : Ends (fun _ => P) (fun e s => e ≠ .undefined ∧ P s) (body s)) :
    Ends (fun _ => P) (fun _ _ => False) (asBinding body s) := by
  rcases ran : body s with ⟨a, s'⟩ | ⟨_ | _, s'⟩ <;> rw [ran] at ends <;> simp only [asBinding, ran]
  · exact ends
  · exact ends.2
  · exact ends.1 rfl

theorem sim_asBinding {S : σ → τ → Prop} {body : EStateM Exn σ α} {body' : EStateM Exn τ α}
    (sim : Sim S body body') : Sim S (asBinding body) (asBinding body') := by
  intro s t related
  have agree := sim s t related
  rcases left : body s with ⟨a, s'⟩ | ⟨e, s'⟩ <;> rcases right : body' t with ⟨b, t'⟩ | ⟨f, t'⟩ <;>
    rw [left, right] at agree
  · simp only [asBinding, left, right]
    exact ⟨congrArg some agree.1, agree.2⟩
  · exact agree.elim
  · exact agree.elim
  · obtain ⟨rfl, agree⟩ := agree
    cases e <;> simp only [asBinding, left, right] <;> exact ⟨rfl, agree⟩

end asBinding

end VcmpLua.Model.Core
