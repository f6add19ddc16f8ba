import VcmpLua.Model.Plugin.Environment
import VcmpLua.Proofs.Plugin.DispatchRules

/-! # Relations that the parts of a callback keep

The same as `DispatchRules` for the code of the plugin: what a relation has to allow so that the
dispatch of an event and the loops around calls into Lua keep it. `Q` holds outside of a call, `R`
inside.
-/

namespace VcmpLua.Model.Plugin

open Effect VcmpLua.Model.Core World

variable {R Q : World → World → Prop} [IsPreorder World R] [IsPreorder World Q] {inner : Inner}

/-- The updates of a dispatch: those of the bus, the handles it pushes and its entry for each call. -/
structure EmitRules (R : World → World → Prop) : Prop extends DispatchRules R where
  handle : ∀ world kind id generation, R world (world.updateRuntime fun runtime =>
    runtime.updatePool kind (fun pool => (pool.push id generation).2) fun pool => pool.push_kind _ _)
  called : ∀ world event refs fn args, R world (world.log (.called event refs fn args))

/-- Inside of a call `R` holds, around it `Q`. -/
def Outer (R Q : World → World → Prop) : Prop :=
  ∀ world world', R (Invoker.enter world) world' → Q world (Invoker.leave world')

theorem keeps_pushEntity (rules : EmitRules R) (kind : EntityKind) (ref : EntityRef) :
    Keeps R (pushEntity kind ref) := by
  intro world
  simp only [pushEntity, after]
  cases world.runtime with
  | none => exact refl_of R world
  | some runtime =>
    by_cases negative : ref.id < 0
    · simp only [negative, ↓reduceIte]
      exact refl_of R world
    · simp only [negative, ↓reduceIte]
      exact rules.handle world kind _ _

theorem keeps_pushArgs (rules : EmitRules R) (refs : List (EntityKind × EntityRef)) : Keeps R (pushArgs refs) := by
  induction refs with
  | nil => exact keeps_pure _
  | cons head rest ih =>
    exact (keeps_pushEntity rules head.1 head.2).bind fun handle => ih.bind fun handles => keeps_pure _

/-- The dispatch, from the state that has its entry on. -/
theorem emit_after (rules : EmitRules R) (outer : Outer R Q) (innerKeeps : ∀ site, Keeps R (inner site))
    (label : Label) (event : Event) (refs : List (EntityKind × EntityRef)) (world : World) :
    Q (world.log (.dispatched event refs)) (after (emit inner label event refs) world) := by
  have dispatch := keeps_dispatch rules.toDispatchRules outer (keeps_pushArgs rules refs) (fun fn args =>
    (keeps_modify fun world => rules.called world event refs fn args).bind fun _ =>
      (innerKeeps (.handler label fn)).safely) event.index
  exact (dispatch.bind fun _ => keeps_pure ()) (world.log (.dispatched event refs))

theorem keeps_emit (rules : EmitRules R) (outer : Outer R Q) (innerKeeps : ∀ site, Keeps R (inner site))
    (label : Label) {event : Event} {refs : List (EntityKind × EntityRef)}
    (dispatched : ∀ world, Q world (world.log (.dispatched event refs))) : Keeps Q (emit inner label event refs) :=
  fun world => trans_of Q (dispatched world) (emit_after rules outer innerKeeps label event refs world)

theorem keeps_callLua (rules : EmitRules R) (outer : Outer R Q) (innerKeeps : ∀ site, Keeps R (inner site))
    (site : Site) : Keeps Q (callLua inner site) :=
  (keeps_call rules.toDispatchRules outer (keeps_pure _) fun _ => (innerKeeps site).safely).bind fun _ => keeps_pure _

theorem keeps_callAll (rules : EmitRules R) (outer : Outer R Q) (innerKeeps : ∀ site, Keeps R (inner site))
    (site : ℕ → Site) (count : ℕ) : Keeps Q (callAll inner site count) := by
  unfold callAll
  split_ifs
  · exact keeps_pure _
  · exact keeps_scope outer (keeps_forEach fun number _ => keeps_callLua rules rules.scope innerKeeps _)

theorem keeps_loadFiles (rules : EmitRules R) (outer : Outer R Q) (innerKeeps : ∀ site, Keeps R (inner site))
    (numbers : List ℕ) : Keeps Q (loadFiles inner numbers) := by
  induction numbers with
  | nil => exact keeps_pure _
  | cons number rest ih =>
    refine keeps_get.bind fun world => ?_
    split_ifs
    · exact keeps_pure _
    · refine (keeps_scope outer ?_).bind fun _ => ih
      exact (innerKeeps _).safely.bind fun ending => keeps_finishCall rules.toDispatchRules ending

theorem keeps_frame (rules : EmitRules R) (outer : Outer R Q) (innerKeeps : ∀ site, Keeps R (inner site))
    (dispatched : ∀ world, Q world (world.log (.dispatched .serverFrame []))) (timers transfers : ℕ) :
    Keeps Q (frame timers transfers inner) := by
  refine keeps_get.bind fun world => ?_
  split_ifs
  · exact keeps_pure _
  · refine (keeps_callAll rules outer innerKeeps _ _).bind fun _ => ?_
    refine (keeps_callAll rules outer innerKeeps _ _).bind fun _ => ?_
    refine (keeps_callLua rules outer innerKeeps _).bind fun _ => keeps_get.bind fun world => ?_
    split_ifs
    · exact keeps_emit rules outer innerKeeps _ dispatched
    · exact keeps_pure _

theorem keeps_loadScripts (rules : EmitRules R) (outer : Outer R Q) (innerKeeps : ∀ site, Keeps R (inner site))
    (enumerates : ∀ world, Q world (enumerate world))
    (dispatched : ∀ world, Q world (world.log (.dispatched .serverInit []))) : Keeps Q (loadScripts inner) := by
  refine keeps_get.bind fun world => ?_
  split
  · exact keeps_pure _
  · split_ifs
    · exact keeps_pure _
    · refine (keeps_modify enumerates).bind fun _ => ?_
      refine (keeps_loadFiles rules outer innerKeeps _).bind fun _ => keeps_get.bind fun world => ?_
      split_ifs
      · exact keeps_emit rules outer innerKeeps _ dispatched
      · exact keeps_pure _

theorem keeps_seen (adopts : ∀ world kind id, Q world (world.adopt kind id)) (kind : EntityKind) (id : Int) :
    Keeps Q (seen kind id) :=
  (keeps_modify fun world => adopts world kind id).bind fun _ => keeps_get.bind fun _ => keeps_pure _

theorem keeps_seenAll (adopts : ∀ world kind id, Q world (world.adopt kind id)) (entities : List (EntityKind × Int)) :
    Keeps Q (seenAll entities) := by
  induction entities with
  | nil => exact keeps_pure _
  | cons head rest ih =>
    refine Keeps.bind ?_ fun _ => ih.bind fun _ => keeps_pure _
    unfold seenInRange
    split_ifs
    · exact keeps_seen adopts _ _
    · exact keeps_pure _

omit [IsPreorder World R] [IsPreorder World Q] in
/-- A guarded body ends where it ends; an exception is logged. -/
theorem after_guarded (callback : Callback) (body : EStateM Exn World Unit) (world : World) :
    after (guarded callback body) world = after body world ∨
      after (guarded callback body) world = (after body world).log (.reported callback) := by
  cases ran : body world with
  | ok value world' =>
    rw [after_of_ok ran]
    refine .inl (after_of_ok (a := ()) ?_)
    have caught : caught body world = .ok (.ok value) world' := by simp only [caught, ran]
    rw [guarded, bind_of_ok caught]
    rfl
  | error e world' =>
    rw [after_of_error ran]
    refine .inr (after_of_ok (a := ()) ?_)
    have caught : caught body world = .ok (.error e) world' := by simp only [caught, ran]
    rw [guarded, bind_of_ok caught]
    rfl

theorem keeps_guarded (reports : ∀ world callback, Q world (world.log (.reported callback))) (callback : Callback)
    {body : EStateM Exn World Unit} (keeps : Keeps Q body) : Keeps Q (guarded callback body) := by
  refine keeps.caught.bind fun result => ?_
  cases result with
  | ok _ => exact keeps_pure _
  | error e => exact keeps_modify fun world => reports world callback

/-- The dispatch of a disconnect, for relations that do not look at who is being reported. -/
theorem keeps_emitDisconnect (rules : EmitRules R) (outer : Outer R Q) (innerKeeps : ∀ site, Keeps R (inner site))
    (reporting : ∀ (world : World) players, Q world { world with reporting := players })
    (label : Label) (id : Int) {player : EntityKind × EntityRef}
    (dispatched : ∀ world, Q world (world.log (.dispatched .playerDisconnect [player]))) :
    Keeps Q (emitDisconnect inner label id player) :=
  (keeps_modify fun world => reporting world _).bind fun _ =>
    (keeps_emit rules outer innerKeeps label dispatched).withCleanup fun world => reporting world _

/-! ## Bindings -/

theorem keeps_requireRuntime : Keeps R requireRuntime := by
  intro world
  simp only [requireRuntime, after]
  cases world.runtime with
  | none => exact refl_of R world
  | some runtime =>
    cases usable : runtime.usable <;> simp only [usable, Bool.false_eq_true, ↓reduceIte] <;> exact refl_of R world

/-- What needs the runtime runs only where it is installed. -/
theorem keeps_required {α : Type} {body : Runtime → EStateM Exn World α}
    (runs : ∀ world runtime, world.runtime = some runtime → runtime.usable = true → R world (after (body runtime) world)) :
    Keeps R (requireRuntime >>= body) := by
  intro world
  cases ran : requireRuntime world with
  | error e world' =>
    rw [after_of_error (bind_of_error ran), ← after_of_error ran]
    exact keeps_requireRuntime world
  | ok runtime world' =>
    have same : world.runtime = some runtime ∧ runtime.usable = true ∧ world' = world := by
      simp only [requireRuntime] at ran
      split at ran
      · next installed =>
        split_ifs at ran with usable
        cases ran
        exact ⟨installed, usable, rfl⟩
      · cases ran
    obtain ⟨installed, usable, rfl⟩ := same
    simp only [after, bind_of_ok ran]
    exact runs world' runtime installed usable

theorem keeps_requireEntity (kind : EntityKind) (id : Int) (generation : Generation) :
    Keeps R (requireEntity kind id generation) := by
  refine keeps_requireRuntime.bind fun runtime => ?_
  split
  · exact keeps_pure _
  · exact keeps_throw _

/-- The bindings that do more than dispatch or change the bus. -/
structure BindingRules (R : World → World → Prop) (inner : Inner) : Prop extends EmitRules R where
  create : ∀ kind ∈ serverPools, ∀ id, Keeps R (create kind id inner)
  destroy : ∀ kind ∈ [EntityKind.vehicle, .object, .pickup, .checkpoint], ∀ id generation,
    Keeps R (destroy kind id generation inner)
  destroyBlip : ∀ id, Keeps R (destroyBlip id inner)
  createBind : ∀ slot keys, Keeps R (createBind slot keys)
  removeBind : ∀ id, Keeps R (removeBind id)
  clearAllBinds : Keeps R clearAllBinds
  checkLive : ∀ kind id generation, Keeps R (checkLive kind id generation)
  kickPlayer : ∀ id, Keeps R (kickPlayer id inner)
  requestReload : ∀ world : World, R world world.requestReload

theorem keeps_binding (rules : BindingRules R inner) (innerKeeps : ∀ site, Keeps R (inner site)) (binding : Binding) :
    Keeps R (binding.run inner) := by
  cases binding with
  | create kind id =>
    simp only [Binding.run]
    split_ifs with known
    · exact rules.create kind known id
    · exact keeps_throw _
  | destroy kind id generation =>
    simp only [Binding.run]
    split_ifs with known
    · exact rules.destroy kind known id generation
    · exact keeps_throw _
  | destroyBlip id => exact rules.destroyBlip id
  | destroyBlipHandle id generation => exact (rules.checkLive _ _ _).bind fun _ => rules.destroyBlip id
  | createBind slot keys => exact rules.createBind slot keys
  | destroyBind id generation => exact (rules.checkLive _ _ _).bind fun _ => rules.removeBind id
  | clearAllBinds => exact rules.clearAllBinds
  | use kind id generation => exact (rules.checkLive _ _ _).bind fun _ => keeps_pure _
  | kick id generation =>
    exact (rules.checkLive _ _ _).bind fun _ => (rules.kickPlayer id).safely.bind fun _ => keeps_pure _
  | reload => exact keeps_requireRuntime.bind fun _ => (keeps_modify rules.requestReload).bind fun _ => keeps_pure _
  | createEvent name =>
    exact keeps_requireRuntime.bind fun _ => (keeps_liftBus rules.toDispatchRules).bind fun _ => keeps_pure _
  | bind event fn =>
    exact keeps_requireRuntime.bind fun _ => (keeps_liftBus rules.toDispatchRules).bind fun _ => keeps_pure _
  | unbind event fn =>
    exact keeps_requireRuntime.bind fun _ => (keeps_liftBus rules.toDispatchRules).bind fun _ => keeps_pure _
  | cancel => exact keeps_requireRuntime.bind fun _ => keeps_liftBus rules.toDispatchRules
  | trigger event =>
    refine keeps_requireRuntime.bind fun _ => Keeps.bind ?_ fun report => keeps_pure _
    exact keeps_dispatch rules.toDispatchRules rules.scope (keeps_pure _) (fun fn _ => (innerKeeps _).safely) event

end VcmpLua.Model.Plugin
