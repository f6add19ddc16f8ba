import VcmpLua.Proofs.Plugin.EntityViews

/-! # Predicates that are kept along a run

A family of predicates on the world is tracked along a run as long as every entry of the trace is
fine. Some of them are kept only inside of a call into Lua (`inside`). What the predicates have to
allow is listed in `Closed`: they may look at the views of all kinds but players, and at a few other
things that most steps leave alone (`Calm`).
-/

namespace VcmpLua.Model.Plugin

open Effect VcmpLua.Model.Core World

/-! ## Steps that change no view -/

structure Calm (world world' : World) : Prop where
  trace : ∃ new, world'.trace = world.trace ++ new ∧ ∀ entry ∈ new, entry.Plain
  view : ∀ kind ≠ .player, ∀ id, world'.view kind id = world.view kind id
  serial : world'.runtime.map (·.serial) = world.runtime.map (·.serial)
  next : world'.nextSerial = world.nextSerial
  sweeping : world'.sweeping = world.sweeping
  deletions : world'.server.deletions = world.server.deletions

theorem calm_log (world : World) {entry : Entry} (plain : entry.Plain) : Calm world (world.log entry) where
  trace := ⟨[entry], rfl, fun _ member => List.mem_singleton.mp member ▸ plain⟩
  view _ _ _ := rfl
  serial := rfl
  next := rfl
  sweeping := rfl
  deletions := rfl

theorem calm_updateRuntime {f : Runtime → Runtime} (serial : ∀ runtime, (f runtime).serial = runtime.serial)
    (dead : ∀ runtime, (f runtime).dead = runtime.dead)
    (sight : ∀ runtime, ∀ kind ≠ .player, ∀ id, (f runtime).sight kind id = runtime.sight kind id) (world : World) :
    Calm world (world.updateRuntime f) where
  trace := ⟨[], (List.append_nil _).symm, nofun⟩
  view kind notPlayer id := view_updateRuntime_same dead (fun runtime => sight runtime kind notPlayer id) world
  serial := by
    simp only [updateRuntime, Option.map_map]
    cases world.runtime with
    | none => rfl
    | some runtime => exact congrArg some (serial runtime)
  next := rfl
  sweeping := rfl
  deletions := rfl

theorem calm_of_eq {world world' : World} (runtime : world'.runtime = world.runtime) (trace : world'.trace = world.trace)
    (server : world'.server = world.server) (next : world'.nextSerial = world.nextSerial)
    (sweeping : world'.sweeping = world.sweeping) : Calm world world' where
  trace := ⟨[], by rw [trace, List.append_nil], nofun⟩
  view kind _ id := by simp only [World.view, World.live, World.owner, runtime, server]
  serial := by rw [runtime]
  next := next
  sweeping := sweeping
  deletions := by rw [server]

theorem Calm.trans {first second third : World} (one : Calm first second) (two : Calm second third) : Calm first third where
  trace := by
    obtain ⟨new, trace, plain⟩ := one.trace
    obtain ⟨new', trace', plain'⟩ := two.trace
    refine ⟨new ++ new', by rw [trace', trace, List.append_assoc], fun entry member => ?_⟩
    exact (List.mem_append.mp member).elim (plain entry) (plain' entry)
  view kind notPlayer id := (two.view kind notPlayer id).trans (one.view kind notPlayer id)
  serial := two.serial.trans one.serial
  next := two.next.trans one.next
  sweeping := two.sweeping.trans one.sweeping
  deletions := two.deletions.trans one.deletions

theorem calm_handle (world : World) (kind : EntityKind) (id : Int) (generation : Generation) :
    Calm world (world.updateRuntime fun runtime =>
      runtime.updatePool kind (fun pool => (pool.push id generation).2) fun pool => pool.push_kind _ _) where
  trace := ⟨[], (List.append_nil _).symm, nofun⟩
  view query _ other := view_handle world kind id generation query other
  serial := by cases installed : world.runtime <;> simp [updateRuntime, installed, Runtime.updatePool]
  next := rfl
  sweeping := rfl
  deletions := rfl

/-! ## Steps that change one view -/

structure Touch (kind : EntityKind) (id : Int) (change : View → View) (entries : List Entry) (world world' : World) :
    Prop where
  trace : world'.trace = world.trace ++ entries
  view : ∀ query other, world'.view query other =
    if query = kind ∧ other = id then change (world.view query other) else world.view query other
  depth : world'.depth = world.depth
  serial : world'.runtime.map (·.serial) = world.runtime.map (·.serial)
  next : world'.nextSerial = world.nextSerial
  sweeping : world'.sweeping = world.sweeping
  deletions : world'.server.deletions = world.server.deletions

theorem Touch.trans {kind : EntityKind} {id : Int} {change change' : View → View} {entries entries' : List Entry}
    {first second third : World} (one : Touch kind id change entries first second)
    (two : Touch kind id change' entries' second third) :
    Touch kind id (fun view => change' (change view)) (entries ++ entries') first third where
  trace := by rw [two.trace, one.trace, List.append_assoc]
  view query other := by
    rw [two.view, one.view]
    split_ifs <;> rfl
  depth := two.depth.trans one.depth
  serial := two.serial.trans one.serial
  next := two.next.trans one.next
  sweeping := two.sweeping.trans one.sweeping
  deletions := two.deletions.trans one.deletions

theorem Touch.calm_of_player {id : Int} {change : View → View} {entries : List Entry} {world world' : World}
    (touch : Touch .player id change entries world world') (plain : ∀ entry ∈ entries, entry.Plain) : Calm world world' where
  trace := ⟨entries, touch.trace, plain⟩
  view query notPlayer other := by rw [touch.view, if_neg fun same => notPlayer same.1]
  serial := touch.serial
  next := touch.next
  sweeping := touch.sweeping
  deletions := touch.deletions

theorem touch_updatePool {kind : EntityKind} {f : EntityPool → EntityPool} {sameKind : ∀ pool, (f pool).kind = pool.kind}
    {id : Int} {change : View → View} {world : World} {entry : Entry}
    (view : ∀ query other, (((world.log entry).updateRuntime fun runtime =>
      runtime.updatePool kind f sameKind)).view query other =
        if query = kind ∧ other = id then change (world.view query other) else world.view query other) :
    Touch kind id change [entry] world
      ((world.log entry).updateRuntime fun runtime => runtime.updatePool kind f sameKind) where
  trace := rfl
  view := view
  depth := by cases installed : world.runtime <;> simp [World.log, updateRuntime, installed, Runtime.updatePool, World.depth]
  serial := by cases installed : world.runtime <;> simp [World.log, updateRuntime, installed, Runtime.updatePool]
  next := rfl
  sweeping := rfl
  deletions := rfl

theorem touch_adopt (world : World) (kind : EntityKind) (id : Int) :
    Touch kind id (View.update fun sight => { sight with alive := sight.alive || inRange kind id })
      [.adopted kind id (world.alive kind id) (world.owner kind id) (world.server.leaving kind id)]
      world (world.adopt kind id) :=
  touch_updatePool (view_adopt world kind id)

theorem touch_release (world : World) (kind : EntityKind) (id : Int) :
    Touch kind id (View.update fun sight => { sight with alive := false, created := false })
      [.released kind id (world.owner kind id)] world (world.release kind id) :=
  touch_updatePool (view_release world kind id)

theorem touch_markCreatedByUs (world : World) (serial : ℕ) (kind : EntityKind) (id : Int) :
    Touch kind id (View.update fun sight => { sight with created := sight.created || sight.alive })
      [.marked serial kind id (world.owner kind id) (world.server.leaving kind id)]
      world (world.markCreatedByUs serial kind id) :=
  touch_updatePool (view_markCreatedByUs world serial kind id)

theorem touch_setEntity (world : World) (kind : EntityKind) (id : Int) (owner : Option Owner) :
    Touch kind id (fun view => { view with owner }) [] world (world.setEntity kind id owner) where
  trace := (List.append_nil _).symm
  view := view_setEntity world kind id owner
  depth := rfl
  serial := rfl
  next := rfl
  sweeping := rfl
  deletions := rfl

/-! ## Tracked predicates -/

/-- The trace grows, and a deletion or a call that is in progress stays so. -/
structure Grows (world world' : World) : Prop where
  trace : world.trace <+: world'.trace
  deletions : world'.server.deletions = world.server.deletions
  depth : world'.depth = world.depth

def World.Fine (fine : Entry → Prop) (world : World) : Prop := ∀ entry ∈ world.trace, fine entry

theorem Grows.fine {fine : Entry → Prop} {world world' : World} (grows : Grows world world') (later : world'.Fine fine) :
    world.Fine fine := fun entry member => later entry (grows.trace.subset member)

theorem Grows.trans {first second third : World} (one : Grows first second) (two : Grows second third) :
    Grows first third :=
  ⟨one.trace.trans two.trace, two.deletions.trans one.deletions, two.depth.trans one.depth⟩

theorem Touch.grows {kind : EntityKind} {id : Int} {change : View → View} {entries : List Entry} {world world' : World}
    (touch : Touch kind id change entries world world') : Grows world world' :=
  ⟨⟨entries, touch.trace.symm⟩, touch.deletions, touch.depth⟩

theorem grows_log (world : World) (entry : Entry) : Grows world (world.log entry) := ⟨⟨[entry], rfl⟩, rfl, rfl⟩

/-- A deletion returns to the deletions that were in progress before. -/
theorem Grows.deletion {world told : World} {kind : EntityKind} {id : Int}
    (grows : Grows (beginDeletion kind id world) told) : Grows world (endDeletion kind id told) := by
  have begins : (beginDeletion kind id world).trace = world.trace ∧ (beginDeletion kind id world).depth = world.depth := by
    unfold beginDeletion
    split_ifs <;> exact ⟨rfl, rfl⟩
  have finishes : (endDeletion kind id told).trace = told.trace ∧ (endDeletion kind id told).depth = told.depth := by
    unfold endDeletion
    split_ifs <;> exact ⟨rfl, rfl⟩
  refine ⟨?_, ?_, ?_⟩
  · rw [finishes.1, ← begins.1]
    exact grows.trace
  · rw [deletions_endDeletion, grows.deletions, deletions_beginDeletion, List.erase_cons_head]
  · rw [finishes.2, grows.depth, begins.2]

structure Tracked {ι κ : Type} (fine : Entry → Prop) (always : ι → World → Prop) (inside : κ → World → Prop)
    (world world' : World) : Prop extends Grows world world' where
  always : world'.Fine fine → ∀ i, always i world → always i world'
  inside : world'.Fine fine → 0 < world.depth → ∀ k, inside k world → inside k world'

section Tracked

variable {ι κ : Type} {fine : Entry → Prop} {always : ι → World → Prop} {inside : κ → World → Prop}

instance : IsPreorder World (Tracked fine always inside) where
  refl world := ⟨⟨List.prefix_refl _, rfl, rfl⟩, fun _ _ holds => holds, fun _ _ _ holds => holds⟩
  trans first second third one two := by
    refine ⟨⟨one.trace.trans two.trace, two.deletions.trans one.deletions, two.depth.trans one.depth⟩,
      fun later i holds => ?_, fun later inCall k holds => ?_⟩
    · exact two.always later i (one.always (two.fine later) i holds)
    · exact two.inside later (one.depth ▸ inCall) k (one.inside (two.fine later) inCall k holds)

/-- What a predicate has to allow to be tracked. -/
structure Closed (P : World → Prop) : Prop where
  calm : ∀ world world', Calm world world' → P world → P world'
  dead : ∀ world, P world → P (HasInvoker.markDead world)
  remove : ∀ world : World, P world → P { world with runtime := none }

variable (closed : ∀ i, Closed (always i)) (closedInside : ∀ k, Closed (inside k))

include closed closedInside

theorem Calm.tracked {world world' : World} (calm : Calm world world') (depth : world'.depth = world.depth) :
    Tracked fine always inside world world' := by
  obtain ⟨new, trace, -⟩ := calm.trace
  exact ⟨⟨⟨new, trace.symm⟩, calm.deletions, depth⟩, fun _ i => (closed i).calm _ _ calm,
    fun _ _ k => (closedInside k).calm _ _ calm⟩

omit closed closedInside in
theorem calm_setInvoker (world : World) (invoker : Invoker) : Calm world (HasInvoker.setInvoker invoker world) :=
  calm_updateRuntime (by exact fun _ => rfl) (by exact fun _ => rfl) (by exact fun _ _ _ _ => rfl) world

theorem tracked_scope {world world' : World} (tracked : Tracked fine always inside (Invoker.enter world) world') :
    Tracked fine always inside world (Invoker.leave world') := by
  have enters : Calm world (Invoker.enter world) := calm_setInvoker world _
  have leaves : Calm world' (Invoker.leave world') := calm_setInvoker world' _
  have depth : (Invoker.leave world' : World).depth = world.depth := by
    rw [depth_leave, tracked.depth, depth_enter_sub_one]
  refine ⟨⟨tracked.trace, tracked.deletions, depth⟩, fun later i holds => ?_, fun later inCall k holds => ?_⟩
  · exact (closed i).calm _ _ leaves (tracked.always later i ((closed i).calm _ _ enters holds))
  · have inCall' : 0 < (Invoker.enter world : World).depth := by
      have := depth_enter_sub_one world
      omega
    exact (closedInside k).calm _ _ leaves (tracked.inside later inCall' k ((closedInside k).calm _ _ enters holds))

theorem tracked_emitRules : EmitRules (Tracked fine always inside) where
  bus world bus := (calm_updateRuntime (by exact fun _ => rfl) (by exact fun _ => rfl) (by exact fun _ _ _ _ => rfl) world).tracked
    closed closedInside (depth_updateRuntime (by exact fun _ => rfl) world)
  dead world := ⟨⟨List.prefix_refl _, rfl, depth_updateRuntime (by exact fun _ => rfl) world⟩,
    fun _ i => (closed i).dead world, fun _ _ k => (closedInside k).dead world⟩
  scope _ _ := tracked_scope closed closedInside
  handle world kind id generation := (calm_handle world kind id generation).tracked closed closedInside
    (depth_updateRuntime (by exact fun _ => rfl) world)
  called world event refs fn args := (calm_log world (by trivial)).tracked closed closedInside rfl

theorem tracked_requestRules (adopt : ∀ world kind id, Tracked fine always inside world (world.adopt kind id))
    (enumerates : ∀ world, Tracked fine always inside world (enumerate world)) :
    RequestRules (Tracked fine always inside) where
  toEmitRules := tracked_emitRules closed closedInside
  inCall world world' tracked inCall := tracked.depth.symm ▸ inCall
  plain world entry plain := (calm_log world plain).tracked closed closedInside rfl
  adopt := adopt
  enumerate := enumerates
  reporting world players := (calm_of_eq (by rfl) (by rfl) (by rfl) (by rfl) (by rfl)).tracked closed closedInside rfl
  deferred world deferred := (calm_of_eq (by rfl) (by rfl) (by rfl) (by rfl) (by rfl)).tracked closed closedInside rfl
  player world id owner := ((touch_setEntity world .player id owner).calm_of_player nofun).tracked closed closedInside rfl

/-- An update of a runtime that touches neither its identity nor its pools. -/
theorem tracked_updateRuntime {f : Runtime → Runtime} (serial : ∀ runtime, (f runtime).serial = runtime.serial)
    (dead : ∀ runtime, (f runtime).dead = runtime.dead) (invoker : ∀ runtime, (f runtime).invoker = runtime.invoker)
    (sight : ∀ runtime, ∀ kind ≠ .player, ∀ id, (f runtime).sight kind id = runtime.sight kind id) (world : World) :
    Tracked fine always inside world (world.updateRuntime f) :=
  (calm_updateRuntime serial dead sight world).tracked closed closedInside
    (depth_updateRuntime (fun runtime => by rw [invoker]) world)

theorem tracked_releasePlayer (world : World) (id : Int) :
    Tracked fine always inside world (world.release .player id) := by
  have touch := touch_release world .player id
  refine (touch.calm_of_player fun entry member => ?_).tracked closed closedInside touch.depth
  rw [List.mem_singleton.mp member]
  trivial

theorem tracked_remove (world : World) (idle : world.depth = 0) :
    Tracked fine always inside world { world with runtime := none } :=
  ⟨⟨List.prefix_refl _, rfl, idle.symm⟩, fun _ i => (closed i).remove world, fun _ _ k => (closedInside k).remove world⟩

/-- The adoption of a player concerns no tracked predicate. -/
theorem tracked_adoptPlayer (world : World) (id : Int) : Tracked fine always inside world (world.adopt .player id) := by
  have touch := touch_adopt world .player id
  refine (touch.calm_of_player fun entry member => ?_).tracked closed closedInside touch.depth
  rw [List.mem_singleton.mp member]
  trivial

end Tracked

end VcmpLua.Model.Plugin
