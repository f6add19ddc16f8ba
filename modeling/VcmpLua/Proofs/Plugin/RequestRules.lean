import VcmpLua.Proofs.Plugin.CallbackRules

/-! # Relations that every request keeps

What a relation has to allow so that whole runs keep it. `RequestRules` lists the updates that a
callback makes by itself, `ServeRules` the parts of a request that most relations have to look at
more closely: they end a runtime, create or delete an entity, or change a key bind.
-/

namespace VcmpLua.Model.Plugin

open Effect VcmpLua.Model.Core World

/-- The entries that record what the code does; the others are what a relation may be about. -/
def Entry.Plain : Entry → Prop
  | .passed .. | .swept .. | .reloadRequested | .frameEnded .. | .reloadFailed | .reloading .. | .installed _ => False
  | _ => True

/-- What holds inside of a call into Lua. -/
def InCall (R : World → World → Prop) (world world' : World) : Prop := 0 < world.depth → R world world'

structure RequestRules (R : World → World → Prop) : Prop extends EmitRules R where
  inCall : ∀ world world', R world world' → 0 < world.depth → 0 < world'.depth
  plain : ∀ world entry, entry.Plain → R world (world.log entry)
  adopt : ∀ world kind id, R world (world.adopt kind id)
  enumerate : ∀ world, R world (enumerate world)
  reporting : ∀ (world : World) players, R world { world with reporting := players }
  deferred : ∀ (world : World) deferred, R world { world with shutdownDeferred := deferred }
  player : ∀ world id owner, R world (world.setEntity .player id owner)

/-- `Reload` has taken the runtime away. -/
def World.taken (config : Config) (world : World) : World :=
  { world.endFrame.log (.reloading 0 world.server.deletions) with runtime := none, logConfig := config.log }

structure ServeRules (R : World → World → Prop) (inner : Inner) : Prop extends RequestRules R where
  finishShutdown : ∀ world, world.depth = 0 → R world (after (finishShutdown inner) world)
  disconnect : ∀ id, Keeps R (onPlayerDisconnect id inner)
  endFrame : ∀ world : World, world.reloads = false → R world world.endFrame
  cancelReload : ∀ world : World, world.reloads = true → R world world.endFrame.cancelReload
  replace : ∀ config world old, world.reloads = true → world.runtime = some old →
    R world (((after (old.shutdown (deleteCreated inner)) (world.taken config)).log (.deleted 0)).install config.scripts)
  modules : ∀ (world : World) timers transfers,
    R world (world.updateRuntime fun runtime => { runtime with timers, transfers })
  create : ∀ kind ∈ serverPools, ∀ id, Keeps R (createEntity kind id .other inner)
  delete : ∀ kind ∈ serverPools, ∀ id, Keeps R (deleteByOther kind id inner)
  register : ∀ slot keys, Keeps R (modify (rebind slot (registerKeyBind slot keys .other)) : EStateM Empty World PUnit)
  remove : ∀ slot, Keeps R (modify (rebind slot (removeKeyBind slot)) : EStateM Empty World PUnit)
  bindings : BindingRules (InCall R) inner

/-! ## Depth -/

theorem depth_leave (world : World) : (Invoker.leave world : World).depth = world.depth - 1 := by
  cases installed : world.runtime <;>
    simp [World.depth, Invoker.leave, HasInvoker.setInvoker, HasInvoker.invoker, updateRuntime, installed]

theorem depth_enter_sub_one (world : World) : (Invoker.enter world : World).depth - 1 = world.depth := by
  cases installed : world.runtime <;>
    simp [World.depth, Invoker.enter, HasInvoker.setInvoker, HasInvoker.invoker, updateRuntime, installed]

theorem depth_updateRuntime {f : Runtime → Runtime} (same : ∀ runtime, (f runtime).invoker.depth = runtime.invoker.depth)
    (world : World) : (world.updateRuntime f).depth = world.depth := by
  cases installed : world.runtime <;> simp [World.depth, updateRuntime, installed, same]

variable {R : World → World → Prop} [IsPreorder World R] {inner : Inner}

/-! ## Inside and outside of calls -/

theorem inCall_preorder (rules : RequestRules R) : IsPreorder World (InCall R) where
  refl world _ := refl_of R world
  trans _ _ _ one two inCall :=
    trans_of R (one inCall) (two (rules.inCall _ _ (one inCall) inCall))

omit [IsPreorder World R] in
theorem EmitRules.inCall (rules : EmitRules R) : EmitRules (InCall R) where
  bus world bus _ := rules.bus world bus
  dead world _ := rules.dead world
  scope world world' inside inCall := by
    refine rules.scope world world' (inside ?_)
    cases installed : world.runtime with
    | none => simp [World.depth, installed] at inCall
    | some runtime => simp [World.depth, Invoker.enter, HasInvoker.setInvoker, updateRuntime, installed]
  handle world kind id generation _ := rules.handle world kind id generation
  called world event refs fn args _ := rules.called world event refs fn args

omit [IsPreorder World R] in
/-- A relation that bindings keep anywhere, they keep inside of a call. -/
theorem BindingRules.inCall (rules : BindingRules R inner) : BindingRules (InCall R) inner where
  toEmitRules := rules.toEmitRules.inCall
  create kind known id := (rules.create kind known id).mono fun _ _ related _ => related
  destroy kind known id generation := (rules.destroy kind known id generation).mono fun _ _ related _ => related
  destroyBlip id := (rules.destroyBlip id).mono fun _ _ related _ => related
  createBind slot keys := (rules.createBind slot keys).mono fun _ _ related _ => related
  removeBind id := (rules.removeBind id).mono fun _ _ related _ => related
  clearAllBinds := rules.clearAllBinds.mono fun _ _ related _ => related
  checkLive kind id generation := (rules.checkLive kind id generation).mono fun _ _ related _ => related
  kickPlayer id := (rules.kickPlayer id).mono fun _ _ related _ => related
  requestReload world _ := rules.requestReload world

/-- What holds while no call into Lua is active. -/
def Resting (R : World → World → Prop) (world world' : World) : Prop := world.depth = 0 → R world world'

theorem resting_preorder (depth : ∀ world world', R world world' → world'.depth = world.depth) :
    IsPreorder World (Resting R) where
  refl world _ := refl_of R world
  trans _ _ _ one two idle := trans_of R (one idle) (two ((depth _ _ (one idle)).trans idle))

theorem depth_eq_zero_of_any {world : World} (idle : world.runtime.any (!·.inLuaCall) = true) : world.depth = 0 := by
  cases installed : world.runtime with
  | none => simp [World.depth, installed]
  | some runtime => simpa [World.depth, installed, Runtime.inLuaCall] using idle

theorem adoptAll_of_rules (adopts : ∀ world kind id, R world (world.adopt kind id)) (entities : List (EntityKind × Int))
    (world : World) : R world (entities.foldl (fun world (kind, id) => world.adopt kind id) world) := by
  induction entities generalizing world with
  | nil => exact refl_of R world
  | cons head rest ih => exact trans_of R (adopts world head.1 head.2) (ih _)

theorem enumerate_of_rules (adopts : ∀ world kind id, R world (world.adopt kind id))
    (finishes : ∀ world : World, R world (world.updateRuntime fun runtime => { runtime with enumerated := true }))
    (world : World) : R world (enumerate world) :=
  trans_of R (adoptAll_of_rules adopts _ world) (finishes _)

/-! ## Ending a runtime -/

/-- A deferred shutdown can run now. -/
def World.due (world : World) : Bool := world.shutdownDeferred && world.runtime.any (!·.inLuaCall)

omit [IsPreorder World R] in
theorem afterCallback_of_not_due {world : World} (waits : world.due = false) :
    after (afterCallback inner) world = world := by
  simp only [World.due] at waits
  simp only [after, afterCallback, get_bind, waits, Bool.false_eq_true, ↓reduceIte]
  rfl

omit [IsPreorder World R] in
theorem afterCallback_of_due {world : World} (due : world.due = true) :
    after (afterCallback inner) world = after (finishShutdown inner) world := by
  simp only [World.due] at due
  simp only [after, afterCallback, get_bind, due, ↓reduceIte]

theorem keeps_afterCallback (finish : ∀ world, world.depth = 0 → R world (after (finishShutdown inner) world)) :
    Keeps R (afterCallback inner) := by
  intro world
  cases due : world.due with
  | true =>
    rw [afterCallback_of_due due]
    exact finish world (depth_eq_zero_of_any (Bool.and_eq_true_iff.mp due).2)
  | false =>
    rw [afterCallback_of_not_due due]
    exact refl_of R world

theorem keeps_shutdown (plain : ∀ world entry, entry.Plain → R world (world.log entry))
    {delete : Runtime → EStateM Empty World Unit} (deletes : ∀ runtime, Keeps R (delete runtime)) (runtime : Runtime) :
    Keeps R (runtime.shutdown delete) := by
  unfold Runtime.shutdown
  split_ifs
  · exact keeps_pure _
  · exact keeps_pure _
  · refine (keeps_modify fun world => plain world _ (by trivial)).bind fun _ => ?_
    simp only
    split_ifs
    · exact keeps_pure _
    · exact (deletes _).bind fun _ => keeps_pure _

section Callbacks

variable (rules : RequestRules R) (innerKeeps : ∀ site, Keeps R (inner site))

include rules innerKeeps

theorem keeps_emit_of_rules (label : Label) (event : Event) (refs : List (EntityKind × EntityRef)) :
    Keeps R (emit inner label event refs) :=
  keeps_emit rules.toEmitRules rules.scope innerKeeps label fun world => rules.plain world _ (by trivial)

theorem keeps_emitDisconnect_of_rules (label : Label) (id : Int) (player : EntityKind × EntityRef) :
    Keeps R (emitDisconnect inner label id player) :=
  keeps_emitDisconnect rules.toEmitRules rules.scope innerKeeps (fun world players => rules.reporting world players)
    label id fun world => rules.plain world _ (by trivial)

omit innerKeeps in
theorem keeps_guarded_of_rules (callback : Callback) {body : EStateM Exn World Unit} (keeps : Keeps R body) :
    Keeps R (guarded callback body) :=
  keeps_guarded (fun world _ => rules.plain world _ (by trivial)) callback keeps

theorem keeps_disconnectPlayers (releasePlayer : ∀ world id, R world (world.release .player id)) (players : List Int) :
    Keeps R (disconnectPlayers inner players) := by
  induction players with
  | nil => exact keeps_pure _
  | cons id rest ih =>
    refine keeps_get.bind fun world => ?_
    split_ifs
    · exact keeps_pure _
    · refine keeps_get.bind fun world => ?_
      split_ifs
      · exact ih
      · refine keeps_get.bind fun world => ?_
        refine (keeps_emitDisconnect_of_rules rules innerKeeps _ _ _).bind fun _ => ?_
        exact (keeps_modify fun world => releasePlayer world id).bind fun _ => ih

/-- `FinishShutdown`, for a relation that allows to remove a runtime in which no Lua code runs. -/
theorem finishShutdown_of_remove (depth : ∀ world world', R world world' → world'.depth = world.depth)
    (releasePlayer : ∀ world id, R world (world.release .player id))
    (remove : ∀ world : World, world.depth = 0 → R world { world with runtime := none })
    (world : World) (idle : world.depth = 0) : R world (after (finishShutdown inner) world) := by
  have preorder : IsPreorder World (Resting R) := resting_preorder depth
  have rests : ∀ {ε α : Type} {m : EStateM ε World α}, Keeps R m → Keeps (Resting R) m :=
    fun keeps => keeps.mono fun _ _ related _ => related
  have notify : Keeps R (guarded .onServerShutdown (notifyServerShutdown inner)) := by
    refine keeps_guarded_of_rules rules _ (keeps_get.bind fun world => ?_)
    split_ifs
    · exact keeps_pure _
    · exact (keeps_emit_of_rules rules innerKeeps _ _ _).bind fun _ => keeps_get.bind fun world =>
        keeps_disconnectPlayers rules innerKeeps releasePlayer _
  have disposes : ∀ runtime, Keeps R (dispose runtime) := by
    intro runtime
    cases runtime with
    | none => exact keeps_pure _
    | some runtime =>
      refine (keeps_shutdown rules.plain (fun _ => keeps_pure _) runtime).bind fun runtime => ?_
      exact keeps_modify fun world => rules.plain world _ (by trivial)
  have clears : Keeps (Resting R) (modify fun world => { world with shutdownDeferred := false } :
      EStateM Empty World PUnit) := fun world _ => rules.deferred world false
  have finishes : Keeps (Resting R) (finishShutdown inner) := by
    refine clears.bind fun _ => keeps_get.bind fun world => ?_
    split_ifs
    · exact keeps_pure _
    · refine (rests notify).bind fun _ => Keeps.bind ?_ fun runtime => (rests (disposes runtime)).bind fun _ => clears
      exact keeps_get.bind fun _ => (keeps_modify remove).bind fun _ => keeps_pure _
  exact finishes world idle

/-! ## Callbacks -/

omit rules innerKeeps [IsPreorder World R] in
theorem guarded_of_ok {callback : Callback} {body : EStateM Exn World Unit} {world : World} (world' : World)
    (ran : body world = .ok () world') : after (guarded callback body) world = world' := by
  refine after_of_ok (a := ()) ?_
  have caught : caught body world = .ok (.ok ()) world' := by simp only [caught, ran]
  rw [guarded, bind_of_ok caught]
  rfl

omit rules innerKeeps [IsPreorder World R] in
theorem guarded_of_error {callback : Callback} {body : EStateM Exn World Unit} {world world' : World} {e : Exn}
    (ran : body world = .error e world') : after (guarded callback body) world = world'.log (.reported callback) := by
  refine after_of_ok (a := ()) ?_
  have caught : caught body world = .ok (.error e) world' := by simp only [caught, ran]
  rw [guarded, bind_of_ok caught]
  rfl

variable (ends : Keeps R (afterCallback inner))

include ends

theorem keeps_onPlayerConnect (id : Int) : Keeps R (onPlayerConnect id inner) := by
  refine Keeps.bind (keeps_guarded_of_rules rules _ (keeps_get.bind fun world => ?_)) fun _ => ends
  split_ifs
  · refine (keeps_seen rules.adopt _ _).bind fun player => keeps_get.bind fun world => ?_
    split_ifs
    · exact keeps_emit_of_rules rules innerKeeps _ _ _
    · exact keeps_pure _
  · exact keeps_pure _

theorem keeps_onPlayerDisconnect (releasePlayer : ∀ world id, R world (world.release .player id)) (id : Int) :
    Keeps R (onPlayerDisconnect id inner) := by
  refine (keeps_modify fun world => rules.plain world _ (by trivial)).bind fun _ => ?_
  refine Keeps.bind (keeps_guarded_of_rules rules _ (keeps_get.bind fun world => ?_)) fun _ => ends
  split_ifs
  · refine (keeps_seen rules.adopt _ _).bind fun player => ?_
    have release : Keeps R (do
        if (← get).live.isSome then
          modify (World.release .player id) : EStateM Exn World Unit) := by
      refine keeps_get.bind fun world => ?_
      split_ifs
      · exact keeps_modify fun world => releasePlayer world id
      · exact keeps_pure _
    refine keeps_get.bind fun world => ?_
    split_ifs
    · exact (keeps_emitDisconnect_of_rules rules innerKeeps _ _ _).bind fun _ => release
    · exact release
  · exact keeps_pure _

omit ends in
theorem keeps_emitPoolChange : Keeps R (emitPoolChange inner) := by
  refine keeps_get.bind fun world => ?_
  split_ifs
  · exact keeps_emit_of_rules rules innerKeeps _ _ _
  · exact keeps_pure _

/-- The event of a new entity: a live runtime adopts it first. -/
theorem onEntityPoolChange_created (kind : EntityKind) (id : Int) (world : World) :
    (world.live = none ∧ R world (after (onEntityPoolChange kind id false inner) world)) ∨
      (world.live.isSome = true ∧ R (world.adopt kind id) (after (onEntityPoolChange kind id false inner) world)) := by
  have parts : after (onEntityPoolChange kind id false inner) world = after (afterCallback inner)
      (after (guarded (.onEntityPoolChange kind id false)
        (do if (← get).live.isSome then poolChanged kind id false inner)) world) := after_seq _ _ world
  rw [parts]
  cases lives : world.live with
  | none =>
    refine .inl ⟨rfl, ?_⟩
    rw [guarded_of_ok world (by rw [get_bind, lives]; rfl)]
    exact ends world
  | some runtime =>
    refine .inr ⟨rfl, ?_⟩
    have event := keeps_emitPoolChange rules innerKeeps (world.adopt kind id)
    have body : after (do if (← get).live.isSome then poolChanged kind id false inner) world =
        after (emitPoolChange inner) (world.adopt kind id) := by
      simp only [after, get_bind, lives, Option.isSome_some, ↓reduceIte, poolChanged, Bool.false_eq_true, modify_bind]
    refine trans_of R ?_ (ends _)
    rcases after_guarded (.onEntityPoolChange kind id false)
      (do if (← get).live.isSome then poolChanged kind id false inner) world with returned | threw
    · rw [returned, body]
      exact event
    · rw [threw, body]
      exact trans_of R event (rules.plain _ _ (by trivial))

/-- The event of a deleted entity: after it, a live runtime releases the entity, unless an exception
got out of the event. -/
theorem onEntityPoolChange_deleted (kind : EntityKind) (id : Int) (world : World) :
    ∃ told, R world told ∧
      ((told.live = none ∧ R told (after (onEntityPoolChange kind id true inner) world)) ∨
        R (told.release kind id) (after (onEntityPoolChange kind id true inner) world) ∨
        R (told.log (.reported (.onEntityPoolChange kind id true)))
          (after (onEntityPoolChange kind id true inner) world)) := by
  have parts : after (onEntityPoolChange kind id true inner) world = after (afterCallback inner)
      (after (guarded (.onEntityPoolChange kind id true)
        (do if (← get).live.isSome then poolChanged kind id true inner)) world) := after_seq _ _ world
  rw [parts]
  cases lives : world.live with
  | none =>
    refine ⟨world, refl_of R world, .inl ⟨lives, ?_⟩⟩
    rw [guarded_of_ok world (by rw [get_bind, lives]; rfl)]
    exact ends world
  | some runtime =>
    have event := keeps_emitPoolChange rules innerKeeps world
    have body : (do if (← get).live.isSome then poolChanged kind id true inner : EStateM Exn World Unit) world =
        (do
          emitPoolChange inner
          if (← get).live.isSome then
            modify (World.release kind id) : EStateM Exn World Unit) world := by
      simp only [get_bind, lives, Option.isSome_some, ↓reduceIte, poolChanged]
    cases ran : emitPoolChange inner world with
    | error e told =>
      rw [after_of_error ran] at event
      refine ⟨told, event, .inr (.inr ?_)⟩
      rw [guarded_of_error (body.trans (bind_of_error ran))]
      exact ends _
    | ok value told =>
      rw [after_of_ok ran] at event
      refine ⟨told, event, ?_⟩
      cases lives' : told.live with
      | none =>
        refine .inl ⟨rfl, ?_⟩
        rw [guarded_of_ok told (body.trans (by rw [bind_of_ok ran, get_bind, lives']; rfl))]
        exact ends _
      | some runtime' =>
        refine .inr (.inl ?_)
        rw [guarded_of_ok (told.release kind id) (body.trans (by rw [bind_of_ok ran, get_bind, lives']; rfl))]
        exact ends _

theorem keeps_onEvent (callback : EventCallback) : Keeps R (onEvent callback inner) := by
  refine keeps_get.bind fun world => ?_
  refine Keeps.bind (keeps_guarded_of_rules rules _ (keeps_get.bind fun world => ?_)) fun _ => ends
  split_ifs
  · refine keeps_get.bind fun world => ?_
    split_ifs
    · exact (keeps_seenAll rules.adopt _).bind fun refs => keeps_emit_of_rules rules innerKeeps _ _ _
    · exact keeps_pure _
  · exact keeps_pure _

omit ends in
theorem keeps_loadScripts_of_rules : Keeps R (loadScripts inner) :=
  keeps_loadScripts rules.toEmitRules rules.scope innerKeeps rules.enumerate fun world => rules.plain world _ (by trivial)

theorem keeps_onServerInitialise : Keeps R (onServerInitialise inner) := by
  refine Keeps.bind (keeps_guarded_of_rules rules _ (keeps_get.bind fun world => ?_)) fun _ => ends
  split_ifs
  · exact keeps_loadScripts_of_rules rules innerKeeps
  · exact keeps_pure _

theorem keeps_connectPlayer (id : Int) : Keeps R (connectPlayer id inner) := by
  refine keeps_get.bind fun world => ?_
  split_ifs
  · exact keeps_pure _
  · refine (keeps_modify fun world => rules.player world _ _).bind fun _ => (innerKeeps _).bind fun _ => ?_
    exact (keeps_onPlayerConnect rules innerKeeps ends id).bind fun _ => (innerKeeps _).bind fun _ => keeps_pure _

omit ends in
theorem keeps_kickPlayer (disconnect : ∀ id, Keeps R (onPlayerDisconnect id inner)) (id : Int) :
    Keeps R (kickPlayer id inner) := by
  refine keeps_get.bind fun world => ?_
  split_ifs
  · exact keeps_pure _
  · refine (innerKeeps _).bind fun _ => (disconnect id).bind fun _ => (innerKeeps _).bind fun _ => ?_
    exact (keeps_modify fun world => rules.player world _ _).bind fun _ => keeps_pure _

end Callbacks

/-! ## Creations and deletions -/

/-- A creation is refused, or it goes through all its steps. -/
theorem createEntity_cases (kind : EntityKind) (id : Int) (owner : Owner) (inner : Inner) (world : World) :
    createEntity kind id owner inner world = .ok none world ∨
      (inRange kind id = true ∧ world.owner kind id = none ∧ createEntity kind id owner inner world =
        .ok (some id) (after (inner .after) (after (onEntityPoolChange kind id false inner)
          (after (inner .before) (world.setEntity kind id (some owner)))))) := by
  by_cases refused : (!(inRange kind id) || world.server.exists? kind id) = true
  · left
    rw [createEntity, get_bind, if_pos refused]
    rfl
  · right
    obtain ⟨_, before⟩ := eq_ok (inner .before) (world.setEntity kind id (some owner))
    obtain ⟨_, told⟩ := eq_ok (onEntityPoolChange kind id false inner)
      (after (inner .before) (world.setEntity kind id (some owner)))
    obtain ⟨_, last⟩ := eq_ok (inner .after) (after (onEntityPoolChange kind id false inner)
      (after (inner .before) (world.setEntity kind id (some owner))))
    have free : inRange kind id = true ∧ world.owner kind id = none := by
      simpa [Server.exists?, World.owner] using refused
    refine ⟨free.1, free.2, ?_⟩
    rw [createEntity, get_bind, if_neg refused, modify_bind, bind_of_ok before, bind_of_ok told, bind_of_ok last]
    rfl

/-- What is there and not being deleted is deleted. -/
theorem deleteEntity_of_here {kind : EntityKind} {id : Int} (before after' : EStateM Empty World Ending) (inner : Inner)
    {world : World} (here : world.server.exists? kind id = true) (stays : world.server.leaving kind id = false) :
    deleteEntity kind id before after' inner world = .ok true (endDeletion kind id (after after'
      (after (onEntityPoolChange kind id true inner) (after before (beginDeletion kind id world))))) := by
  obtain ⟨_, ran⟩ := eq_ok before (beginDeletion kind id world)
  obtain ⟨_, told⟩ := eq_ok (onEntityPoolChange kind id true inner) (after before (beginDeletion kind id world))
  obtain ⟨_, last⟩ := eq_ok after' (after (onEntityPoolChange kind id true inner)
    (after before (beginDeletion kind id world)))
  rw [deleteEntity, get_bind, get_bind, if_neg (by simp [here, stays]), modify_bind, bind_of_ok ran, bind_of_ok told,
    bind_of_ok last, modify_bind]
  rfl

/-- A deletion is refused, or it goes through all its steps. -/
theorem deleteEntity_cases (kind : EntityKind) (id : Int) (before after' : EStateM Empty World Ending) (inner : Inner)
    (world : World) :
    deleteEntity kind id before after' inner world = .ok false world ∨
      (world.server.exists? kind id = true ∧ world.server.leaving kind id = false ∧
        deleteEntity kind id before after' inner world = .ok true (endDeletion kind id (after after'
          (after (onEntityPoolChange kind id true inner) (after before (beginDeletion kind id world)))))) := by
  by_cases refused : (!world.server.exists? kind id || world.server.leaving kind id) = true
  · left
    rw [deleteEntity, get_bind, get_bind, if_pos refused]
    rfl
  · obtain ⟨here, stays⟩ : world.server.exists? kind id = true ∧ world.server.leaving kind id = false := by
      simpa using refused
    exact .inr ⟨here, stays, deleteEntity_of_here before after' inner here stays⟩

section Paths

variable (rules : RequestRules R) (innerKeeps : ∀ site, Keeps R (inner site)) (ends : Keeps R (afterCallback inner))

include rules innerKeeps ends

/-- The steps of a creation that was not refused: a live runtime adopts the new entity. -/
theorem createEntity_path (kind : EntityKind) (id : Int) (owner : Owner) (world : World) :
    createEntity kind id owner inner world = .ok none world ∨
      ∃ ready final, inRange kind id = true ∧ world.owner kind id = none ∧
        createEntity kind id owner inner world = .ok (some id) final ∧
        R (world.setEntity kind id (some owner)) ready ∧
        ((ready.live = none ∧ R ready final) ∨ R (ready.adopt kind id) final) := by
  rcases createEntity_cases kind id owner inner world with refused | ⟨range, free, result⟩
  · exact .inl refused
  · refine .inr ⟨_, _, range, free, result, innerKeeps .before _, ?_⟩
    rcases onEntityPoolChange_created rules innerKeeps ends kind id
      (after (inner .before) (world.setEntity kind id (some owner))) with ⟨gone, told⟩ | ⟨-, told⟩
    · exact .inl ⟨gone, trans_of R told (innerKeeps .after _)⟩
    · exact .inr (trans_of R told (innerKeeps .after _))

/-- The steps of a deletion that was not refused: a live runtime releases the entity after the event. -/
theorem deleteEntity_path (kind : EntityKind) (id : Int) {before after' : EStateM Empty World Ending}
    (beforeKeeps : Keeps R before) (afterKeeps : Keeps R after') (world : World) :
    deleteEntity kind id before after' inner world = .ok false world ∨
      ∃ told last, world.server.exists? kind id = true ∧ world.server.leaving kind id = false ∧
        deleteEntity kind id before after' inner world = .ok true (endDeletion kind id last) ∧
        R (beginDeletion kind id world) told ∧
        ((told.live = none ∧ R told last) ∨ R (told.release kind id) last ∨
          R (told.log (.reported (.onEntityPoolChange kind id true))) last) := by
  rcases deleteEntity_cases kind id before after' inner world with refused | ⟨here, stays, result⟩
  · exact .inl refused
  · obtain ⟨told, event, ending⟩ := onEntityPoolChange_deleted rules innerKeeps ends kind id
      (after before (beginDeletion kind id world))
    refine .inr ⟨told, _, here, stays, result, trans_of R (beforeKeeps _) event, ?_⟩
    have last := afterKeeps (after (onEntityPoolChange kind id true inner) (after before (beginDeletion kind id world)))
    rcases ending with ⟨gone, heard⟩ | heard | heard
    · exact .inl ⟨gone, trans_of R heard last⟩
    · exact .inr (.inl (trans_of R heard last))
    · exact .inr (.inr (trans_of R heard last))

end Paths

/-! ## The end of a frame -/

section Reload

theorem reloads_spec {world : World} (reloads : world.reloads = true) :
    ∃ runtime, world.runtime = some runtime ∧ runtime.dead = false ∧ world.depth = 0 := by
  simp only [World.reloads, World.live, Bool.and_eq_true] at reloads
  obtain ⟨lives, -⟩ := reloads
  cases installed : world.runtime with
  | none => simp [installed] at lives
  | some runtime =>
    simp only [installed, Option.any_filter, Option.any_some, Runtime.inLuaCall, Bool.and_eq_true, Bool.not_eq_true',
      decide_eq_false_iff_not] at lives
    exact ⟨runtime, rfl, lives.1, by simp only [World.depth, installed, Option.map_some, Option.getD_some]; omega⟩

/-- A reload that cannot start a runtime. -/
theorem reload_of_error {restart : Restart} {e : Exn} {world : World} (failed : startRuntime restart world = .error e world) :
    reload restart inner world = .ok () world.cancelReload := by
  rw [reload, bind_of_ok (attempt_of_error failed)]
  rfl

/-- What `Reload` tries succeeds, or fails without an effect. -/
theorem startRuntime_cases (restart : Restart) : (∃ config, restart = .starts config) ∨
    ∃ e, ∀ world, startRuntime restart world = .error e world := by
  cases restart with
  | starts config => exact .inl ⟨config, rfl⟩
  | configFails | runtimeFails | hookFails => exact .inr ⟨_, fun _ => rfl⟩

/-- A live runtime deletes what it created once its pools are closed. -/
theorem shutdown_of_lives {runtime : Runtime} (delete : Runtime → EStateM Empty World Unit) (luaOpen : runtime.luaOpen = true)
    (depth : runtime.invoker.depth = 0) (lives : runtime.dead = false) (world : World) :
    let closing := Runtime.closePools { runtime with closing := true }
    runtime.shutdown delete world = (do delete closing; return closing.closeLua) (world.log (.shutDown 0 false)) := by
  intro closing
  rw [Runtime.shutdown, if_neg (by simp [luaOpen]), if_neg (by simp [Runtime.inLuaCall, depth]), modify_bind, depth]
  simp only
  rw [if_neg (by simp [lives])]
  exact congrArg (fun dead => (do delete closing; return closing.closeLua) (world.log (.shutDown 0 dead))) lives

theorem shutdown_invoker (runtime : Runtime) (delete : Runtime → EStateM Empty World Unit) {world world' : World}
    {closed : Runtime} (ran : runtime.shutdown delete world = .ok closed world') : closed.invoker = runtime.invoker := by
  rw [Runtime.shutdown] at ran
  split_ifs at ran
  · cases ran
    rfl
  · cases ran
    rfl
  · rw [modify_bind] at ran
    simp only at ran
    split_ifs at ran
    · cases ran
      rfl
    · obtain ⟨_, _, -, last⟩ := bind_eq_ok.mp ran
      cases last
      rfl

/-- The old runtime is shut down and deleted before the scripts of the new one are loaded. -/
theorem reload_eq (config : Config) {world : World} {old : Runtime} (present : world.runtime = some old)
    (idle : world.depth = 0) :
    after (reload (.starts config) inner) world.endFrame = after (loadScripts inner)
      (((after (old.shutdown (deleteCreated inner)) (world.taken config)).log (.deleted 0)).install config.scripts) := by
  obtain ⟨closed, ran⟩ := eq_ok (old.shutdown (deleteCreated inner)) (world.taken config)
  have noCall : closed.invoker.depth = 0 := by
    rw [shutdown_invoker old _ ran]
    simpa only [World.depth, present, Option.map_some, Option.getD_some] using idle
  let started : World := { world.endFrame with logConfig := config.log }
  have starts : startRuntime (.starts config) world.endFrame = .ok config started := rfl
  have takes : takeRuntime (started.log (.reloading started.depth started.server.deletions)) =
      .ok (some old) (world.taken config) := by
    have same : started.depth = 0 := idle
    rw [same, ← present]
    rfl
  simp only [after, reload]
  rw [bind_of_ok (attempt_of_ok starts)]
  simp only [modify_bind]
  rw [bind_of_ok (safely_of_ok takes)]
  simp only
  rw [bind_of_ok (safely_of_ok ran), modify_bind, modify_bind, noCall]
  rfl

/-- The end of a frame, when a reload is due. -/
theorem after_endFrame_of_reloads {restart : Restart} {world : World} (reloads : world.reloads = true) :
    after (do modify World.endFrame; if (← get).reloads then reload restart inner) world =
      after (reload restart inner) world.endFrame := by
  have same : world.endFrame.reloads = true := reloads
  simp only [after, modify_bind, get_bind, same, ↓reduceIte]

theorem after_endFrame_of_not_reloads {restart : Restart} {world : World} (reloads : world.reloads = false) :
    after (do modify World.endFrame; if (← get).reloads then reload restart inner) world = world.endFrame := by
  have same : world.endFrame.reloads = false := reloads
  simp only [after, modify_bind, get_bind, same, Bool.false_eq_true, ↓reduceIte]
  rfl

end Reload

/-! ## Requests -/

section Serve

variable (rules : ServeRules R inner) (innerKeeps : ∀ site, Keeps R (inner site))

include rules innerKeeps

omit innerKeeps in
theorem keeps_onServerShutdown : Keeps R (onServerShutdown inner) := by
  intro world
  cases installed : world.runtime with
  | none =>
    have result : after (onServerShutdown inner) world = world.log .shutdownMissed := by
      simp only [after, onServerShutdown, get_bind, installed]
      rfl
    rw [result]
    exact rules.plain world _ (by trivial)
  | some runtime =>
    let arrived := world.log (.shutdownArrived runtime.invoker.depth)
    have logged : R world arrived := rules.plain world _ (by trivial)
    by_cases inCall : runtime.inLuaCall = true
    · have result : after (onServerShutdown inner) world = { arrived with shutdownDeferred := true } := by
        simp only [after, onServerShutdown, get_bind, installed, modify_bind, inCall, ↓reduceIte]
        rfl
      rw [result]
      exact trans_of R logged (rules.deferred arrived true)
    · have result : after (onServerShutdown inner) world = after (finishShutdown inner) arrived := by
        simp only [after, onServerShutdown, get_bind, installed, modify_bind, inCall, Bool.false_eq_true, ↓reduceIte]
        rfl
      rw [result]
      refine trans_of R logged (rules.finishShutdown arrived ?_)
      simpa [arrived, World.log, World.depth, installed, Runtime.inLuaCall] using inCall

theorem keeps_guarded_reload (restart : Restart) :
    Keeps R (guarded .reload (do modify World.endFrame; if (← get).reloads then reload restart inner)) := by
  refine keeps_guarded_of_rules rules.toRequestRules _ fun world => ?_
  cases reloads : world.reloads with
  | false =>
    rw [after_endFrame_of_not_reloads reloads]
    exact rules.endFrame world reloads
  | true =>
    rw [after_endFrame_of_reloads reloads]
    obtain ⟨config, rfl⟩ | ⟨e, fails⟩ := startRuntime_cases restart
    · obtain ⟨old, present, lives, idle⟩ := reloads_spec reloads
      rw [reload_eq config present idle]
      exact trans_of R (rules.replace config world old reloads present)
        (keeps_loadScripts_of_rules rules.toRequestRules innerKeeps _)
    · rw [after_of_ok (reload_of_error (fails _))]
      exact rules.cancelReload world reloads

theorem keeps_onServerFrame (timers transfers : ℕ) (restart : Restart) :
    Keeps R (onServerFrame timers transfers restart inner) := by
  have ends := keeps_afterCallback rules.finishShutdown
  refine Keeps.bind (keeps_guarded_of_rules rules.toRequestRules _ (keeps_get.bind fun world => ?_)) fun _ => ?_
  · split_ifs
    · exact keeps_frame rules.toEmitRules rules.scope innerKeeps (fun world => rules.plain world _ (by trivial)) _ _
    · exact keeps_pure _
  · exact ends.bind fun _ => (keeps_guarded_reload rules innerKeeps restart).bind fun _ => ends

/-- Bindings are refused outside of a call. -/
theorem keeps_runBinding (binding : Binding) : Keeps R (runBinding inner binding) := by
  intro world
  by_cases idle : world.depth = 0
  · have same : after (runBinding inner binding) world = world := by
      simp only [after, runBinding, get_bind, idle, ↓reduceIte]
      rfl
    rw [same]
    exact refl_of R world
  · have preorder : IsPreorder World (InCall R) := inCall_preorder rules.toRequestRules
    have runs : Keeps (InCall R) (runBinding inner binding) := by
      refine keeps_get.bind fun world => ?_
      split_ifs
      · exact keeps_pure _
      · refine (keeps_binding rules.bindings (fun site => (innerKeeps site).mono fun _ _ related _ => related)
          binding).caught.bind fun result => ?_
        cases result <;> exact keeps_pure _
    exact runs world (Nat.pos_of_ne_zero idle)

theorem keeps_serve (op : Op) : Keeps R (serve op inner) := by
  have ends := keeps_afterCallback rules.finishShutdown
  cases op with
  | lua binding => exact keeps_runBinding rules innerKeeps binding
  | create kind id =>
    simp only [serve]
    split_ifs with known
    · exact rules.create kind known id
    · exact keeps_pure _
  | delete kind id =>
    simp only [serve]
    split_ifs with known
    · exact (rules.delete kind known id).bind fun _ => keeps_pure _
    · exact keeps_pure _
  | registerKeyBind slot keys =>
    simp only [serve]
    split_ifs
    · exact (rules.register slot keys).bind fun _ => keeps_pure _
    · exact keeps_pure _
  | removeKeyBind slot => exact (rules.remove slot).bind fun _ => keeps_pure _
  | connect id => exact (keeps_connectPlayer rules.toRequestRules innerKeeps ends id).bind fun _ => keeps_pure _
  | disconnect id =>
    exact (keeps_kickPlayer rules.toRequestRules innerKeeps rules.disconnect id).bind fun _ => keeps_pure _
  | initialise => exact (keeps_onServerInitialise rules.toRequestRules innerKeeps ends).bind fun _ => keeps_pure _
  | frame timers transfers restart =>
    exact (keeps_onServerFrame rules innerKeeps timers transfers restart).bind fun _ => keeps_pure _
  | modules timers transfers =>
    exact (keeps_modify fun world => rules.modules world timers transfers).bind fun _ => keeps_pure _
  | shutdown => exact (keeps_onServerShutdown rules).bind fun _ => keeps_pure _
  | event callback => exact (keeps_onEvent rules.toRequestRules innerKeeps ends callback).bind fun _ => keeps_pure _

end Serve

end VcmpLua.Model.Plugin
