import Mathlib
import VcmpLua.Model.Core.EventBus

/-! # Relations that calls into Lua and dispatches keep

A call into Lua and a dispatch change a component's state only through the invoker, the bus, the
arguments they push and the code they call. So a relation that these keep is kept by the whole. The
code that is called may keep a relation of its own, `R`, which holds only inside of a call; `outer`
says what that means for the state around the call.
-/

namespace VcmpLua.Model.Core

open Effect

variable {σ α : Type} [HasEvents σ]

open HasInvoker HasEvents

/-- The updates that a call or a dispatch makes by itself. -/
structure DispatchRules (R : σ → σ → Prop) : Prop where
  bus : ∀ s bus, R s (setEvents bus s)
  dead : ∀ s, R s (markDead s)
  scope : ∀ s s', R (Invoker.enter s) s' → R s (Invoker.leave s')

section Calls

variable {R Q : σ → σ → Prop} {β : Type}

theorem keeps_scope (outer : ∀ s s', R (Invoker.enter s) s' → Q s (Invoker.leave s')) {body : EStateM Exn σ α}
    (keeps : Keeps R body) : Keeps Q (Invoker.scope body) := by
  intro s
  change Q s (after (withCleanup body Invoker.leave) (Invoker.enter s))
  rw [after_withCleanup]
  exact outer s _ (keeps _)

variable [IsPreorder σ R] [IsPreorder σ Q]

theorem keeps_finishCall (rules : DispatchRules R) (ending : Ending) :
    Keeps R (Invoker.finishCall ending : EStateM Exn σ Bool) := by
  cases ending with
  | returned => exact keeps_pure _
  | raised => exact keeps_pure _
  | threw => exact keeps_throw _
  | panicked => exact (keeps_modify rules.dead).bind fun _ => keeps_throw _

theorem keeps_call (rules : DispatchRules R) (outer : ∀ s s', R (Invoker.enter s) s' → Q s (Invoker.leave s'))
    {push : EStateM Exn σ β} (pushKeeps : Keeps R push) {body : β → EStateM Exn σ Ending}
    (bodyKeeps : ∀ arguments, Keeps R (body arguments)) : Keeps Q (Invoker.call push body) := by
  refine keeps_get.bind fun s => ?_
  split_ifs
  · exact keeps_pure _
  · exact keeps_scope outer (pushKeeps.bind fun arguments => (bodyKeeps arguments).bind (keeps_finishCall rules))

/-- The accesses to the bus leave it as it is. -/
theorem keeps_handlerAt (event i : ℕ) : Keeps R (EventBus.handlerAt event i : EStateM Exn σ Handler) := by
  refine keeps_get.bind fun s => ?_
  split
  · exact keeps_throw _
  · split
    · exact keeps_throw _
    · exact keeps_pure _

theorem keeps_nameAt (event : ℕ) : Keeps R (EventBus.nameAt event : EStateM Exn σ String) := by
  refine keeps_get.bind fun s => ?_
  split
  · exact keeps_throw _
  · exact keeps_pure _

theorem keeps_sizeAt (event : ℕ) : Keeps R (EventBus.sizeAt event : EStateM Exn σ ℕ) := by
  refine keeps_get.bind fun s => ?_
  split
  · exact keeps_throw _
  · exact keeps_pure _

theorem keeps_flagAt (index : ℕ) : Keeps R (EventBus.flagAt index : EStateM Exn σ Bool) := by
  refine keeps_get.bind fun s => ?_
  split
  · exact keeps_throw _
  · exact keeps_pure _

variable {push : EStateM Exn σ α} {call : Fn → α → EStateM Exn σ Ending}

theorem keeps_dispatchLoop (rules : DispatchRules R) (pushKeeps : Keeps R push)
    (callKeeps : ∀ fn arguments, Keeps R (call fn arguments)) (event index count remaining : ℕ) :
    Keeps R (EventBus.dispatchLoop event index count push call remaining) := by
  induction remaining with
  | zero => exact keeps_pure _
  | succ remaining ih =>
    refine (keeps_handlerAt event _).bind fun handler => ?_
    split_ifs
    · exact ih
    · refine (keeps_nameAt event).bind fun _ => keeps_get.bind fun s => ?_
      refine (keeps_call rules rules.scope pushKeeps (callKeeps handler.fn)).bind fun _ => ?_
      refine (keeps_flagAt index).bind fun flag => ?_
      cases flag with
      | true => exact keeps_pure _
      | false => exact ih.bind fun _ => keeps_pure _

theorem keeps_dispatch (rules : DispatchRules R) (outer : ∀ s s', R (Invoker.enter s) s' → Q s (Invoker.leave s'))
    (pushKeeps : Keeps R push) (callKeeps : ∀ fn arguments, Keeps R (call fn arguments)) (event : ℕ) :
    Keeps Q (EventBus.dispatch event push call) := by
  refine keeps_get.bind fun s => ?_
  split_ifs
  · exact keeps_pure _
  · refine keeps_scope outer (keeps_get.bind fun s => (keeps_modify fun s => rules.bus s _).bind fun _ => ?_)
    refine Keeps.onError ?_ fun s => rules.bus s _
    refine (keeps_sizeAt event).bind fun count => ?_
    refine (keeps_dispatchLoop rules pushKeeps callKeeps event _ count count).bind fun called => ?_
    exact (keeps_flagAt _).bind fun flag => (keeps_modify fun s => rules.bus s _).bind fun _ => keeps_pure _

theorem keeps_liftBus (rules : DispatchRules R) {f : EventBus → Except Exn (β × EventBus)} :
    Keeps R (EventBus.liftBus f : EStateM Exn σ β) := by
  intro s
  simp only [EventBus.liftBus, after]
  cases ran : f (events s) with
  | ok result => exact rules.bus s result.2
  | error e => exact refl_of R s

end Calls

end VcmpLua.Model.Core
