import VcmpLua.Proofs.EntityLifetimes
import VcmpLua.Proofs.Plugin.EntityRules

/-! # Nobody is forgotten at a shutdown

The runtime says goodbye to a player with `onPlayerDisconnect` and releases the player after that.
Whatever handlers, other plugins and the server do in between, a player that is known to a runtime
stays known to it until the goodbye, so the loop of `NotifyServerShutdown` over a snapshot of the ids
leaves out only those who have been told meanwhile.
-/

namespace VcmpLua.Model.Plugin

open Effect VcmpLua.Model.Core World

/-- The disconnect of the player was dispatched, and the player was released later. -/
def Goodbye (id : Int) (generation : Generation) (entries : List Entry) : Prop :=
  ∃ early middle owner late, entries =
    early ++ .dispatched .playerDisconnect [(.player, ⟨id, generation⟩)] :: middle ++ .released .player id owner :: late

theorem Goodbye.append_left {id : Int} {generation : Generation} {entries : List Entry} (before : List Entry)
    (goodbye : Goodbye id generation entries) : Goodbye id generation (before ++ entries) := by
  obtain ⟨early, middle, owner, late, rfl⟩ := goodbye
  exact ⟨before ++ early, middle, owner, late, by simp only [List.append_assoc]⟩

theorem Goodbye.append_right {id : Int} {generation : Generation} {entries : List Entry} (later : List Entry)
    (goodbye : Goodbye id generation entries) : Goodbye id generation (entries ++ later) := by
  obtain ⟨early, middle, owner, late, rfl⟩ := goodbye
  exact ⟨early, middle, owner, late ++ later, by simp only [List.append_assoc, List.cons_append]⟩

/-- The world goes on with these entries, and the runtime forgets no player without a goodbye. -/
structure Farewell (new : List Entry) (world world' : World) : Prop where
  trace : world'.trace = world.trace ++ new
  here : world.runtime.isSome = true → world'.runtime.isSome = true
  usable : world'.usable = true → world.usable = true
  players : world'.usable = true → ∀ id generation, world.valid .player id generation = true →
    world'.valid .player id generation = true ∨ Goodbye id generation new

theorem Farewell.trans {first second third : World} {new later : List Entry} (one : Farewell new first second)
    (two : Farewell later second third) : Farewell (new ++ later) first third where
  trace := by rw [two.trace, one.trace, List.append_assoc]
  here there := two.here (one.here there)
  usable still := one.usable (two.usable still)
  players still id generation known := by
    rcases one.players (two.usable still) id generation known with known | gone
    · exact (two.players still id generation known).imp_right (Goodbye.append_left new)
    · exact .inr (gone.append_right later)

/-- A step that leaves the runtime alone. -/
theorem farewell_of_runtime {world world' : World} {new : List Entry} (runtime : world'.runtime = world.runtime)
    (trace : world'.trace = world.trace ++ new) : Farewell new world world' where
  trace := trace
  here := by rw [runtime]; exact id
  usable := by rw [World.usable, World.usable, runtime]; exact id
  players _ id generation known := .inl (by rwa [World.valid, runtime])

theorem Farewell.refl (world : World) : Farewell [] world world := farewell_of_runtime rfl (List.append_nil _).symm

theorem farewell_log (world : World) (entry : Entry) : Farewell [entry] world (world.log entry) :=
  farewell_of_runtime rfl rfl

/-- An update of the runtime that takes no player away. -/
theorem farewell_updateRuntime {f : Runtime → Runtime} (usable : ∀ runtime, (f runtime).usable = true → runtime.usable = true)
    (players : ∀ runtime id generation, (runtime.entities .player).valid id generation = true →
      ((f runtime).entities .player).valid id generation = true) (world : World) :
    Farewell [] world (world.updateRuntime f) where
  trace := (List.append_nil _).symm
  here there := by rwa [updateRuntime, Option.isSome_map]
  usable still := by
    cases installed : world.runtime with
    | none => simp [World.usable, updateRuntime, installed] at still
    | some runtime =>
      simp only [World.usable, updateRuntime, installed, Option.map_some, Option.any_some] at still ⊢
      exact usable runtime still
  players _ id generation known := by
    refine .inl ?_
    cases installed : world.runtime with
    | none => simp [World.valid, installed] at known
    | some runtime =>
      simp only [World.valid, updateRuntime, installed, Option.map_some, Option.any_some] at known ⊢
      exact players runtime id generation known

/-! ## The pool of the players -/

section Pool

variable {runtime : Runtime} {id : Int} {generation : Generation}

theorem valid_adopt (pool : EntityPool) (other : Int) (valid : pool.valid id generation = true) :
    (pool.adopt other).valid id generation = true := by
  rcases EntityPool.lifeStep_adopt pool other id with ⟨alive, same⟩ | ⟨-, gone, -⟩ | ⟨dead, -, -⟩
  · rw [EntityPool.valid_iff] at valid ⊢
    rw [alive, same]
    exact valid
  · rw [EntityPool.alive_adopt, ((EntityPool.valid_iff _ _ _).mp valid).1] at gone
    cases gone
  · rw [((EntityPool.valid_iff _ _ _).mp valid).1] at dead
    cases dead

theorem valid_release (pool : EntityPool) {other : Int} (different : id ≠ other)
    (valid : pool.valid id generation = true) : (pool.release other).valid id generation = true := by
  rcases EntityPool.lifeStep_release pool other id with ⟨alive, same⟩ | ⟨-, gone, -⟩ | ⟨dead, -, -⟩
  · rw [EntityPool.valid_iff] at valid ⊢
    rw [alive, same]
    exact valid
  · rw [EntityPool.alive_release, ((EntityPool.valid_iff _ _ _).mp valid).1] at gone
    simp [different] at gone
  · rw [((EntityPool.valid_iff _ _ _).mp valid).1] at dead
    cases dead

theorem farewell_updatePool (kind : EntityKind) (f : EntityPool → EntityPool) (sameKind : ∀ pool, (f pool).kind = pool.kind)
    (players : kind = .player → ∀ pool id generation, pool.valid id generation = true → (f pool).valid id generation = true)
    (world : World) : Farewell [] world (world.updateRuntime fun runtime => runtime.updatePool kind f sameKind) := by
  apply farewell_updateRuntime
  · exact fun _ usable => usable
  · intro runtime id generation valid
    rw [Runtime.entities_updatePool]
    split_ifs with same
    · subst same
      exact players rfl _ id generation valid
    · exact valid

theorem farewell_adopt (world : World) (kind : EntityKind) (id : Int) : ∃ new, Farewell new world (world.adopt kind id) :=
  ⟨_, (farewell_log world _).trans (farewell_updatePool kind _ _ (fun _ pool _ _ => valid_adopt pool id) _)⟩

theorem farewell_release (world : World) {kind : EntityKind} (notPlayer : kind ≠ .player) (id : Int) :
    ∃ new, Farewell new world (world.release kind id) :=
  ⟨_, (farewell_log world _).trans (farewell_updatePool kind _ _ (fun same => absurd same notPlayer) _)⟩

theorem farewell_mark (world : World) (serial : ℕ) {kind : EntityKind} (notPlayer : kind ≠ .player) (id : Int) :
    ∃ new, Farewell new world (world.markCreatedByUs serial kind id) :=
  ⟨_, (farewell_log world _).trans (farewell_updatePool kind _ _ (fun same => absurd same notPlayer) _)⟩

theorem usable_release (world : World) (kind : EntityKind) (id : Int) : (world.release kind id).usable = world.usable := by
  cases installed : world.runtime with
  | none => simp [World.usable, World.release, updateRuntime, World.log, installed]
  | some runtime => simp [World.usable, World.release, updateRuntime, World.log, installed, Runtime.usable, Runtime.updatePool]

theorem valid_release_other {world : World} {id other : Int} {generation : Generation} (different : id ≠ other)
    (known : world.valid .player id generation = true) : (world.release .player other).valid .player id generation = true := by
  cases installed : world.runtime with
  | none => simp [World.valid, installed] at known
  | some runtime =>
    simp only [World.valid, World.release, updateRuntime, World.log, installed, Option.map_some, Option.any_some,
      Runtime.entities_updatePool, ↓reduceIte] at known ⊢
    exact valid_release _ different known

/-- The reference to a player that is known. -/
theorem ref_of_valid {world : World} {id : Int} {generation : Generation} (known : world.valid .player id generation = true) :
    world.ref .player id = ⟨id, generation⟩ := by
  cases installed : world.runtime with
  | none => simp [World.valid, installed] at known
  | some runtime =>
    simp only [World.valid, installed, Option.any_some, EntityPool.valid_iff] at known
    simp [World.ref, installed, EntityPool.ref, known.1, known.2]

theorem goodbye_of_valid {world : World} {id : Int} {generation : Generation} (known : world.valid .player id generation = true)
    (middle : List Entry) (owner : Option Owner) :
    Goodbye id generation (.dispatched .playerDisconnect [(.player, world.ref .player id)] ::
      middle ++ [.released .player id owner]) := by
  rw [ref_of_valid known]
  exact ⟨[], middle, owner, [], rfl⟩

theorem alive_of_valid {world : World} {id : Int} {generation : Generation} (known : world.valid .player id generation = true) :
    world.alive .player id = true := by
  cases installed : world.runtime with
  | none => simp [World.valid, installed] at known
  | some runtime =>
    simp only [World.valid, World.alive, installed, Option.any_some, EntityPool.valid_iff] at known ⊢
    exact known.1

/-- A player whose disconnect was dispatched is released. -/
theorem Farewell.told {world world' : World} {id : Int} {middle : List Entry}
    (farewell : Farewell (.dispatched .playerDisconnect [(.player, world.ref .player id)] :: middle) world world') :
    Farewell (.dispatched .playerDisconnect [(.player, world.ref .player id)] ::
      middle ++ [.released .player id (world'.owner .player id)]) world (world'.release .player id) where
  trace := by
    change world'.trace ++ [_] = _
    rw [farewell.trace, List.append_assoc]
  here there := by
    have here := farewell.here there
    rwa [World.release, updateRuntime, Option.isSome_map]
  usable still := by
    rw [usable_release] at still
    exact farewell.usable still
  players still other generation known := by
    by_cases same : other = id
    · subst same
      exact .inr (goodbye_of_valid known middle _)
    · have before : world'.usable = true := by rwa [usable_release] at still
      rcases farewell.players before other generation known with known | gone
      · exact .inl (valid_release_other same known)
      · exact .inr (gone.append_right _)

/-- A runtime that is closing has nobody to tell. -/
theorem farewell_closed (world : World) (id : Int) (closed : world.usable = false) :
    Farewell [.released .player id (world.owner .player id)] world (world.release .player id) where
  trace := rfl
  here there := by rwa [World.release, updateRuntime, Option.isSome_map]
  usable still := by rwa [usable_release] at still
  players still := by
    rw [usable_release, closed] at still
    cases still

end Pool

/-! ## Inside of a call into Lua -/

/-- The world goes on, and nobody is forgotten. -/
def Follows (world world' : World) : Prop := ∃ new, Farewell new world world'

theorem Follows.refl (world : World) : Follows world world := ⟨[], .refl world⟩

theorem Follows.trans {first second third : World} (one : Follows first second) (two : Follows second third) :
    Follows first third := by
  obtain ⟨new, farewell⟩ := one
  obtain ⟨later, farewell'⟩ := two
  exact ⟨_, farewell.trans farewell'⟩

/-- What holds inside of calls. -/
def Remembers (world world' : World) : Prop := 0 < world.depth → world'.depth = world.depth ∧ Follows world world'

instance : IsPreorder World Remembers where
  refl world _ := ⟨rfl, .refl world⟩
  trans _ _ _ one two inCall := by
    obtain ⟨same, first⟩ := one inCall
    obtain ⟨same', second⟩ := two (same.symm ▸ inCall)
    exact ⟨same'.trans same, first.trans second⟩

/-- What holds around a call, while there is a runtime. -/
def Onward (world world' : World) : Prop := world.runtime.isSome = true → Follows world world'

instance : IsPreorder World Onward where
  refl world _ := .refl world
  trans := by
    intro _ _ _ one two there
    obtain ⟨new, farewell⟩ := one there
    exact Follows.trans ⟨new, farewell⟩ (two (farewell.here there))

theorem isSome_of_inCall {world : World} (inCall : 0 < world.depth) : world.runtime.isSome = true := by
  cases installed : world.runtime with
  | none => simp [World.depth, installed] at inCall
  | some runtime => rfl

theorem remembers_of_follows {world world' : World} (depth : world'.depth = world.depth) (follows : Follows world world') :
    Remembers world world' := fun _ => ⟨depth, follows⟩

theorem farewell_setInvoker (world : World) (invoker : Invoker) :
    Farewell [] world (world.updateRuntime fun runtime => { runtime with invoker }) := by
  apply farewell_updateRuntime
  · exact fun _ usable => usable
  · exact fun _ _ _ valid => valid

/-- A call, from what holds inside of it. -/
theorem remembers_scope {world world' : World} (there : world.runtime.isSome = true)
    (inside : Remembers (Invoker.enter world) world') :
    (Invoker.leave world' : World).depth = world.depth ∧ Follows world (Invoker.leave world') := by
  have entered : 0 < (Invoker.enter world : World).depth := by
    obtain ⟨runtime, installed⟩ := Option.isSome_iff_exists.mp there
    simp [World.depth, Invoker.enter, HasInvoker.setInvoker, updateRuntime, installed]
  obtain ⟨depth, follows⟩ := inside entered
  constructor
  · rw [depth_leave, depth, depth_enter_sub_one]
  · exact (Follows.trans ⟨[], farewell_setInvoker world _⟩ follows).trans ⟨[], farewell_setInvoker world' _⟩

theorem onward_scope : Outer Remembers Onward := fun _ _ inside there => (remembers_scope there inside).2

section Rules

theorem remembers_updateRuntime {f : Runtime → Runtime} (depth : ∀ runtime, (f runtime).invoker.depth = runtime.invoker.depth)
    (usable : ∀ runtime, (f runtime).usable = true → runtime.usable = true)
    (players : ∀ runtime id generation, (runtime.entities .player).valid id generation = true →
      ((f runtime).entities .player).valid id generation = true) (world : World) :
    Remembers world (world.updateRuntime f) :=
  remembers_of_follows (depth_updateRuntime depth world) ⟨[], farewell_updateRuntime usable players world⟩

theorem remembers_of_runtime {world world' : World} {new : List Entry} (runtime : world'.runtime = world.runtime)
    (trace : world'.trace = world.trace ++ new) : Remembers world world' :=
  remembers_of_follows (by rw [World.depth, World.depth, runtime]) ⟨new, farewell_of_runtime runtime trace⟩

theorem remembers_emitRules : EmitRules Remembers where
  bus world bus := remembers_updateRuntime (by exact fun _ => rfl) (by exact fun _ usable => usable)
    (by exact fun _ _ _ valid => valid) world
  dead world := by
    refine remembers_updateRuntime (by exact fun _ => rfl) (fun runtime usable => ?_) (by exact fun _ _ _ valid => valid) world
    simp [Runtime.usable] at usable
  scope world world' inside inCall := remembers_scope (isSome_of_inCall inCall) inside
  handle world kind id generation := by
    refine remembers_of_follows (depth_updateRuntime (by exact fun _ => rfl) world)
      ⟨[], farewell_updatePool kind _ _ (fun _ pool other own valid => ?_) world⟩
    rwa [EntityPool.valid_push]
  called world event refs fn args := remembers_of_runtime rfl rfl

theorem depth_adopt (world : World) (kind : EntityKind) (id : Int) : (world.adopt kind id).depth = world.depth :=
  depth_updateRuntime (by exact fun _ => rfl) _

theorem depth_release (world : World) (kind : EntityKind) (id : Int) : (world.release kind id).depth = world.depth :=
  depth_updateRuntime (by exact fun _ => rfl) _

theorem remembers_adopt (world : World) (kind : EntityKind) (id : Int) : Remembers world (world.adopt kind id) :=
  remembers_of_follows (depth_adopt world kind id) (farewell_adopt world kind id)

theorem remembers_entityRules : EntityRules Remembers where
  toEmitRules := remembers_emitRules
  inCall world world' related inCall := (related inCall).1.symm ▸ inCall
  plain world entry _ := remembers_of_runtime rfl rfl
  adopt := remembers_adopt
  enumerate := enumerate_of_rules remembers_adopt fun world =>
    remembers_updateRuntime (by exact fun _ => rfl) (by exact fun _ usable => usable) (by exact fun _ _ _ valid => valid) world
  reporting world players := remembers_of_runtime rfl (List.append_nil _).symm
  deferred world deferred := remembers_of_runtime rfl (List.append_nil _).symm
  player world id owner := remembers_of_runtime rfl (List.append_nil _).symm
  entity world kind id owner _ := remembers_of_runtime rfl (List.append_nil _).symm
  deletions world deletions := remembers_of_runtime rfl (List.append_nil _).symm
  release world kind id notPlayer :=
    remembers_of_follows (depth_release world kind id) (farewell_release world notPlayer id)
  mark world serial kind id notPlayer :=
    remembers_of_follows (depth_updateRuntime (by exact fun _ => rfl) _) (farewell_mark world serial notPlayer id)
  passed world serial kind id owner := remembers_of_runtime rfl rfl
  swept world serial left := remembers_of_runtime rfl rfl
  sweeping world sweeping := remembers_of_runtime rfl (List.append_nil _).symm

end Rules

/-! ## Saying goodbye -/

section Goodbyes

variable {inner : Inner} (innerKeeps : ∀ site, Keeps Remembers (inner site))

include innerKeeps

/-- The dispatch of a disconnect, from its entry on. -/
theorem farewell_emitDisconnect (label : Label) (id : Int) {world : World} (there : world.runtime.isSome = true) :
    ∃ middle, Farewell (.dispatched .playerDisconnect [(.player, world.ref .player id)] :: middle) world
      (after (emitDisconnect inner label id (.player, world.ref .player id)) world) := by
  let entry : Entry := .dispatched .playerDisconnect [(.player, world.ref .player id)]
  let noted : World := { world with reporting := id :: world.reporting }
  have called := emit_after remembers_emitRules onward_scope innerKeeps label .playerDisconnect
    [(.player, world.ref .player id)] noted
  obtain ⟨middle, farewell⟩ := called there
  have logged : Farewell [entry] world (noted.log entry) := farewell_of_runtime rfl rfl
  have result : after (emitDisconnect inner label id (.player, world.ref .player id)) world =
      { after (emit inner label .playerDisconnect [(.player, world.ref .player id)]) noted with
        reporting := (after (emit inner label .playerDisconnect [(.player, world.ref .player id)]) noted).reporting.erase id } := by
    change after (withCleanup (emit inner label .playerDisconnect _) _) noted = _
    exact after_withCleanup _ _ noted
  rw [result]
  refine ⟨middle ++ [], ?_⟩
  exact (logged.trans farewell).trans (farewell_of_runtime rfl (List.append_nil _).symm)

theorem remembers_emitDisconnect (label : Label) (id : Int) (player : EntityKind × EntityRef) :
    Keeps Remembers (emitDisconnect inner label id player) :=
  keeps_emitDisconnect_of_rules remembers_entityRules.toRequestRules innerKeeps label id player

/-- A player that the runtime has taken note of leaves. -/
theorem remembers_leaving (id : Int) (world : World) : Remembers world (after (do
      if (← get).usable then
        emitDisconnect inner .event id (.player, world.ref .player id)
      if (← get).live.isSome then
        modify (World.release .player id) : EStateM Exn World Unit) world) := by
  intro inCall
  have there := isSome_of_inCall inCall
  by_cases usable : world.usable = true
  · obtain ⟨middle, farewell⟩ := farewell_emitDisconnect innerKeeps .event id there
    obtain ⟨depth, -⟩ := remembers_emitDisconnect innerKeeps .event id (.player, world.ref .player id) world inCall
    cases ran : emitDisconnect inner .event id (.player, world.ref .player id) world with
    | error e told =>
      rw [after_of_error ran] at farewell depth
      simp only [after, get_bind, usable, ↓reduceIte, bind_of_error ran]
      exact ⟨depth, _, farewell⟩
    | ok _ told =>
      rw [after_of_ok ran] at farewell depth
      simp only [after, get_bind, usable, ↓reduceIte, bind_of_ok ran]
      split_ifs
      · exact ⟨(depth_release told .player id).trans depth, _, farewell.told⟩
      · exact ⟨depth, _, farewell⟩
  · simp only [after, get_bind, usable, Bool.false_eq_true, ↓reduceIte]
    split_ifs
    · exact ⟨depth_release world .player id, _, farewell_closed world id (by simpa using usable)⟩
    · exact ⟨rfl, .refl world⟩

/-- A player leaves while Lua code runs. -/
theorem remembers_disconnect (id : Int) : Keeps Remembers (onPlayerDisconnect id inner) := by
  have rules := remembers_entityRules.toRequestRules
  refine (keeps_modify fun world => rules.plain world _ (by trivial)).bind fun _ => ?_
  refine Keeps.bind (keeps_guarded_of_rules rules _ (keeps_get.bind fun world => ?_)) fun _ => ?_
  · split_ifs
    · intro world
      exact trans_of Remembers (remembers_adopt world .player id) (remembers_leaving innerKeeps id (world.adopt .player id))
    · exact keeps_pure _
  · exact keeps_afterCallback fun world idle inCall => absurd idle (Nat.ne_of_gt inCall)

theorem remembers_serveRules : ServeRules Remembers inner := by
  refine remembers_entityRules.serveRules innerKeeps ?_ (remembers_disconnect innerKeeps) ?_ ?_ ?_ ?_ ?_
  · exact fun world idle inCall => absurd idle (Nat.ne_of_gt inCall)
  · intro world _
    refine remembers_of_follows (depth_updateRuntime (by exact fun _ => rfl) _) ?_
    refine Follows.trans ⟨_, farewell_log world .reloadRequested⟩ ⟨[], ?_⟩
    apply farewell_updateRuntime
    · exact fun _ usable => usable
    · exact fun _ _ _ valid => valid
  · exact fun world _ => remembers_of_runtime rfl rfl
  · intro world reloads inCall
    obtain ⟨-, -, -, idle⟩ := reloads_spec reloads
    exact absurd idle (Nat.ne_of_gt inCall)
  · intro config world old reloads installed inCall
    obtain ⟨-, -, -, idle⟩ := reloads_spec reloads
    exact absurd idle (Nat.ne_of_gt inCall)
  · intro world timers transfers
    apply remembers_updateRuntime
    · exact fun _ => rfl
    · exact fun _ usable => usable
    · exact fun _ _ _ valid => valid

end Goodbyes

/-- Whatever runs inside of a call, nobody is forgotten. -/
theorem remembers_perform (behaviour : Behaviour) : Keeps Remembers (perform behaviour) :=
  Script.keeps_run (fun op _ innerKeeps => keeps_serve (remembers_serveRules innerKeeps) innerKeeps op) behaviour

/-! ## The shutdown -/

section Shutdown

variable {inner : Inner} (innerKeeps : ∀ site, Keeps Remembers (inner site))

include innerKeeps

/-- The loop says goodbye to everyone on the list who has not been told. -/
theorem disconnectPlayers_told (ids : List Int) {world final : World} (there : world.runtime.isSome = true)
    (returned : disconnectPlayers inner ids world = .ok () final) (usable : final.usable = true) :
    ∃ new, Farewell new world final ∧
      ∀ id ∈ ids, ∀ generation, world.valid .player id generation = true → Goodbye id generation new := by
  induction ids generalizing world with
  | nil =>
    cases returned
    refine ⟨[], .refl final, fun id member => ?_⟩
    cases member
  | cons id rest ih =>
    rw [disconnectPlayers, get_bind] at returned
    by_cases open' : world.usable = true
    · rw [if_neg (by simp [open']), get_bind] at returned
      by_cases alive : world.alive .player id = true
      · rw [if_neg (by simp [alive]), get_bind] at returned
        obtain ⟨_, told, ran, later⟩ := bind_eq_ok.mp returned
        rw [modify_bind] at later
        obtain ⟨middle, farewell⟩ := farewell_emitDisconnect innerKeeps (.disconnect id) id there
        rw [after_of_ok ran] at farewell
        have released := farewell.told
        obtain ⟨new, farewell', goodbyes⟩ := ih (released.here there) later
        refine ⟨_, released.trans farewell', fun other member generation known => ?_⟩
        rcases released.players (farewell'.usable usable) other generation known with known' | gone
        · rcases List.mem_cons.mp member with rfl | member
          · exact (goodbye_of_valid known middle _).append_right _
          · exact (goodbyes other member generation known').append_left _
        · exact gone.append_right _
      · rw [if_pos (by simp [alive])] at returned
        obtain ⟨new, farewell, goodbyes⟩ := ih there returned
        refine ⟨new, farewell, fun other member generation known => ?_⟩
        rcases List.mem_cons.mp member with rfl | member
        · exact absurd (alive_of_valid known) alive
        · exact goodbyes other member generation known
    · rw [if_pos (by simp [open'])] at returned
      cases returned
      exact absurd usable open'

omit innerKeeps in
theorem mem_alivePlayers {world : World} {id : Int} (alive : world.alive .player id = true) : id ∈ alivePlayers world := by
  cases installed : world.runtime with
  | none => simp [World.alive, installed] at alive
  | some runtime =>
    simp only [World.alive, alivePlayers, installed, Option.any_some, Option.map_some, Option.getD_some,
      EntityPool.mem_aliveIds] at alive ⊢
    exact alive

end Shutdown

/-- A shutdown that leaves the runtime usable dispatches its event, and then it has said goodbye to every
player that was known when it began, whatever handlers, other plugins and the server did meanwhile. -/
theorem players_told_at_shutdown {inside : Site → Behaviour} {world final : World}
    (returned : notifyServerShutdown (fun site => perform (inside site)) world = .ok () final)
    (usable : final.usable = true) :
    ∃ new, final.trace = world.trace ++ .dispatched .serverShutdown [] :: new ∧
      ∀ id generation, world.valid .player id generation = true → Goodbye id generation new := by
  have innerKeeps : ∀ site, Keeps Remembers (perform (inside site)) := fun site => remembers_perform (inside site)
  rw [notifyServerShutdown, get_bind] at returned
  by_cases open' : world.usable = true
  · rw [if_neg (by simp [open'])] at returned
    obtain ⟨_, told, ran, later⟩ := bind_eq_ok.mp returned
    rw [get_bind] at later
    have there : (world.log (.dispatched .serverShutdown [])).runtime.isSome = true := by
      cases installed : world.runtime with
      | none => simp [World.usable, installed] at open'
      | some runtime => simp [World.log, installed]
    obtain ⟨called, first⟩ := emit_after remembers_emitRules onward_scope innerKeeps .shutdown .serverShutdown [] world there
    rw [after_of_ok ran] at first
    obtain ⟨new, second, goodbyes⟩ := disconnectPlayers_told innerKeeps (alivePlayers told) (first.here there) later usable
    refine ⟨called ++ new, ?_, fun id generation known => ?_⟩
    · rw [(first.trans second).trace, World.log, List.append_assoc]
      rfl
    · rcases first.players (second.usable usable) id generation known with known' | gone
      · exact (goodbyes id (mem_alivePlayers (alive_of_valid known')) generation known').append_left called
      · exact gone.append_right new
  · rw [if_pos (by simp [open'])] at returned
    cases returned
    exact absurd usable open'

/-- Players 0 and 3 are connected, and the first script binds a function to the shutdown. -/
def twoPlayers : World :=
  after (perform (.act .initialise
      (Behaviour.only (.script 0) (.single (.lua (.bind Event.serverShutdown.index 7)))) fun _ => .ret .returned))
    (World.start (fun kind id => kind == .player && (id == 0 || id == 3)) 1)

/-- The function kicks player 3. -/
def kicksPlayer : Site → Behaviour := Behaviour.only (.handler .shutdown 7) (.single (.disconnect 3))

theorem players_told_at_shutdown_kick :
    ∃ final new, notifyServerShutdown (fun site => perform (kicksPlayer site)) twoPlayers = .ok () final ∧
      final.trace = twoPlayers.trace ++ .dispatched .serverShutdown [] :: new ∧ Goodbye 0 1 new ∧ Goodbye 3 1 new := by
  obtain ⟨final, ran⟩ : ∃ final, notifyServerShutdown (fun site => perform (kicksPlayer site)) twoPlayers = .ok () final := by
    apply exists_ok_of_run'
    decide +kernel
  have usable : (after (notifyServerShutdown (fun site => perform (kicksPlayer site))) twoPlayers).usable = true := by
    decide +kernel
  rw [after_of_ok ran] at usable
  obtain ⟨new, trace, goodbyes⟩ := players_told_at_shutdown ran usable
  refine ⟨final, new, ran, trace, goodbyes 0 1 ?_, goodbyes 3 1 ?_⟩
  · decide +kernel
  · decide +kernel

end VcmpLua.Model.Plugin
