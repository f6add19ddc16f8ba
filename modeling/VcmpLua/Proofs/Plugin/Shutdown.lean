import VcmpLua.Proofs.Plugin.RequestRules

/-! # Deferred shutdowns

While Lua code of a runtime runs, nothing can shut that runtime down, delete it or replace it: a
request to do so only sets a flag (`Nested`). Between two callbacks of the server the flag is never
set, and a callback in which it was set ends without a runtime (`Settled`). Both are kept by every
request, whatever the code inside of it does, because that code keeps them in turn (`Kept`).
-/

namespace VcmpLua.Model.Plugin

open Effect VcmpLua.Model.Core World

/-! ## What is recorded -/

/-- `onServerShutdown` is dispatched. -/
def Entry.dispatchesShutdown : Entry → Bool
  | .dispatched .serverShutdown _ => true
  | _ => false

/-- `OnServerShutdown` arrived and found a runtime. -/
def Entry.arrives : Entry → Bool
  | .shutdownArrived _ => true
  | _ => false

/-- `OnServerShutdown` arrived while a call into Lua was active. -/
def Entry.arrivesInCall : Entry → Bool
  | .shutdownArrived depth => 0 < depth
  | _ => false

/-- A runtime that died in a panic is shut down. -/
def Entry.shutsDownDead : Entry → Bool
  | .shutDown _ dead => dead
  | _ => false

/-- A reload begins to replace the runtime. -/
def Entry.replaces : Entry → Bool
  | .reloading _ _ => true
  | _ => false

/-- A runtime is shut down, deleted or replaced, and if so with no call into Lua active. -/
def Entry.Idle : Entry → Prop
  | .shutDown depth _ => depth = 0
  | .deleted depth => depth = 0
  | .reloading depth _ => depth = 0
  | _ => True

/-- None of these. -/
def Entry.Quiet : Entry → Prop
  | .shutDown _ _ | .deleted _ | .reloading _ _ | .dispatched .serverShutdown _ => False
  | _ => True

theorem Entry.Quiet.idle {entry : Entry} (quiet : entry.Quiet) : entry.Idle := by
  cases entry <;> trivial

theorem Entry.Quiet.dispatchesShutdown {entry : Entry} (quiet : entry.Quiet) :
    entry.dispatchesShutdown = false := by
  cases entry with
  | dispatched event refs =>
    cases event <;> first | rfl | exact quiet.elim
  | _ => rfl

theorem Entry.Quiet.replaces {entry : Entry} (quiet : entry.Quiet) : entry.replaces = false := by
  cases entry <;> first | rfl | exact quiet.elim

theorem Entry.arrives_of_inCall {entry : Entry} (inCall : entry.arrivesInCall = true) : entry.arrives = true := by
  cases entry <;> first | rfl | cases inCall

def shutdownDispatches (entries : List Entry) : ℕ := entries.countP Entry.dispatchesShutdown

/-- There is such an entry, and after it no runtime is replaced: it is about the last one. -/
def Last (p : Entry → Bool) (entries : List Entry) : Prop :=
  ∃ earlier entry later, entries = earlier ++ entry :: later ∧ p entry = true ∧
    ∀ other ∈ later, other.replaces = false

theorem last_of_mem {p : Entry → Bool} {entries : List Entry} (stays : ∀ entry ∈ entries, entry.replaces = false)
    (some : ∃ entry ∈ entries, p entry = true) : Last p entries := by
  obtain ⟨entry, member, holds⟩ := some
  obtain ⟨earlier, later, rfl⟩ := List.append_of_mem member
  refine ⟨earlier, entry, later, rfl, holds, fun other inside => stays other ?_⟩
  exact List.mem_append_right _ (List.mem_cons_of_mem _ inside)

theorem Last.append_left {p : Entry → Bool} {entries : List Entry} (last : Last p entries) (front : List Entry) :
    Last p (front ++ entries) := by
  obtain ⟨earlier, entry, later, rfl, holds, stays⟩ := last
  exact ⟨front ++ earlier, entry, later, (List.append_assoc _ _ _).symm, holds, stays⟩

theorem Last.append_right {p : Entry → Bool} {entries new : List Entry} (last : Last p entries)
    (stays : ∀ entry ∈ new, entry.replaces = false) : Last p (entries ++ new) := by
  obtain ⟨earlier, entry, later, rfl, holds, stays'⟩ := last
  refine ⟨earlier, entry, later ++ new, by simp, holds, fun other member => ?_⟩
  exact (List.mem_append.mp member).elim (stays' other) (stays other)

/-- The last runtime dispatched `onServerShutdown`, the only one to do so, unless it was dead. -/
def Ended (entries : List Entry) : Prop :=
  shutdownDispatches entries = 1 ∧ Last Entry.dispatchesShutdown entries ∨ Last Entry.shutsDownDead entries

/-! ## Steps that do not matter here -/

/-- What a shutdown depends on in a runtime. -/
def Runtime.footing (runtime : Runtime) : ℕ × ℕ × Bool × Bool :=
  (runtime.serial, runtime.invoker.depth, runtime.luaOpen, runtime.closing)

def World.footing (world : World) : Option (ℕ × ℕ × Bool × Bool) := world.runtime.map Runtime.footing

/-- Nothing that matters for a shutdown has changed. -/
structure Steady (world world' : World) : Prop where
  footing : world'.footing = world.footing
  deferred : world'.shutdownDeferred = world.shutdownDeferred
  trace : ∃ new, world'.trace = world.trace ++ new ∧ ∀ entry ∈ new, entry.Quiet ∧ entry.arrives = false

theorem steady_updateRuntime {f : Runtime → Runtime} (keeps : ∀ runtime, (f runtime).footing = runtime.footing)
    (world : World) : Steady world (world.updateRuntime f) := by
  refine ⟨?_, rfl, [], (List.append_nil _).symm, nofun⟩
  simp only [World.footing, updateRuntime, Option.map_map]
  cases world.runtime with
  | none => rfl
  | some runtime => exact congrArg some (keeps runtime)

theorem steady_log {entry : Entry} (quiet : entry.Quiet) (noArrival : entry.arrives = false) (world : World) :
    Steady world (world.log entry) := by
  refine ⟨rfl, rfl, [entry], rfl, fun other member => ?_⟩
  rw [List.mem_singleton.mp member]
  exact ⟨quiet, noArrival⟩

theorem steady_of_eq {world world' : World} (runtime : world'.runtime = world.runtime)
    (deferred : world'.shutdownDeferred = world.shutdownDeferred) (trace : world'.trace = world.trace) :
    Steady world world' := by
  refine ⟨?_, deferred, [], ?_, nofun⟩
  · rw [World.footing, runtime, World.footing]
  · rw [trace, List.append_nil]

theorem Steady.trans {first second third : World} (one : Steady first second) (two : Steady second third) :
    Steady first third := by
  obtain ⟨footing, deferred, new, trace, quiet⟩ := one
  obtain ⟨footing', deferred', new', trace', quiet'⟩ := two
  refine ⟨footing'.trans footing, deferred'.trans deferred, new ++ new', ?_, fun entry member => ?_⟩
  · rw [trace', trace, List.append_assoc]
  · exact (List.mem_append.mp member).elim (quiet entry) (quiet' entry)

theorem steady_updatePool (kind : EntityKind) (f : EntityPool → EntityPool)
    (sameKind : ∀ pool, (f pool).kind = pool.kind) (world : World) :
    Steady world (world.updateRuntime fun runtime => runtime.updatePool kind f sameKind) :=
  steady_updateRuntime (by exact fun _ => rfl) world

theorem steady_adopt (kind : EntityKind) (id : Int) (world : World) : Steady world (world.adopt kind id) :=
  (steady_log (by trivial) (by rfl) world).trans (steady_updatePool kind _ _ _)

theorem steady_release (kind : EntityKind) (id : Int) (world : World) : Steady world (world.release kind id) :=
  (steady_log (by trivial) (by rfl) world).trans (steady_updatePool kind _ _ _)

theorem steady_markCreatedByUs (serial : ℕ) (kind : EntityKind) (id : Int) (world : World) :
    Steady world (world.markCreatedByUs serial kind id) :=
  (steady_log (by trivial) (by rfl) world).trans (steady_updatePool kind _ _ _)

theorem steady_enumerate (world : World) : Steady world (enumerate world) := by
  have adopted : ∀ (entities : List (EntityKind × Int)) (world : World),
      Steady world (entities.foldl (fun world entity => world.adopt entity.1 entity.2) world) := by
    intro entities
    induction entities with
    | nil => exact fun world => steady_of_eq rfl rfl rfl
    | cons head rest ih => exact fun world => (steady_adopt head.1 head.2 world).trans (ih _)
  exact (adopted _ world).trans (steady_updateRuntime (by exact fun _ => rfl) _)

/-! ## While Lua runs -/

/-- The runtime is still there, and a shutdown that arrived is remembered. -/
structure Nested (world world' : World) : Prop where
  footing : world'.footing = world.footing
  trace : ∃ new, world'.trace = world.trace ++ new ∧ (∀ entry ∈ new, entry.Quiet) ∧
    (world'.shutdownDeferred = true ↔ world.shutdownDeferred = true ∨ ∃ entry ∈ new, entry.arrives = true)

theorem Steady.nested {world world' : World} (steady : Steady world world') : Nested world world' := by
  obtain ⟨footing, deferred, new, trace, quiet⟩ := steady
  refine ⟨footing, new, trace, fun entry member => (quiet entry member).1, ?_⟩
  rw [deferred, iff_self_or]
  rintro ⟨entry, member, arrives⟩
  rw [(quiet entry member).2] at arrives
  cases arrives

instance : IsPreorder World Nested where
  refl world := (steady_of_eq rfl rfl rfl : Steady world world).nested
  trans first second third one two := by
    obtain ⟨footing, new, trace, quiet, deferred⟩ := one
    obtain ⟨footing', new', trace', quiet', deferred'⟩ := two
    refine ⟨footing'.trans footing, new ++ new', ?_, fun entry member => ?_, ?_⟩
    · rw [trace', trace, List.append_assoc]
    · exact (List.mem_append.mp member).elim (quiet entry) (quiet' entry)
    · simp only [deferred', deferred, List.mem_append, or_and_right, exists_or, or_assoc]

theorem depth_eq_of_footing {world world' : World} (same : world'.footing = world.footing) :
    world'.depth = world.depth := by
  have depths := congrArg (Option.map fun footing : ℕ × ℕ × Bool × Bool => footing.2.1) same
  simp only [World.footing, Option.map_map] at depths
  exact congrArg (·.getD 0) depths

/-- What holds inside of a call into Lua. -/
def InLua (world world' : World) : Prop := 0 < world.depth → Nested world world'

instance : IsPreorder World InLua where
  refl world _ := refl_of Nested world
  trans first second third one two inCall := by
    have start := one inCall
    rw [← depth_eq_of_footing start.footing] at inCall
    exact trans_of Nested start (two inCall)

/-- What holds of the code of a runtime, whether a call is active or not. -/
def Within (world world' : World) : Prop := world.runtime.isSome = true → Nested world world'

theorem isSome_of_footing {world world' : World} (same : world'.footing = world.footing) :
    world'.runtime.isSome = world.runtime.isSome := by
  have present := congrArg Option.isSome same
  simpa only [World.footing, Option.isSome_map] using present

instance : IsPreorder World Within where
  refl world _ := refl_of Nested world
  trans first second third one two present := by
    have start := one present
    rw [← isSome_of_footing start.footing] at present
    exact trans_of Nested start (two present)

theorem nested_scope {world world' : World} (nested : Nested (Invoker.enter world) world') :
    Nested world (Invoker.leave world') := by
  obtain ⟨footing, new, trace, quiet, deferred⟩ := nested
  refine ⟨?_, new, trace, quiet, deferred⟩
  cases present : world.runtime with
  | none =>
    simp only [World.footing, Invoker.enter, HasInvoker.setInvoker, updateRuntime, present, Option.map_none,
      Option.map_eq_none_iff] at footing
    simp [World.footing, Invoker.leave, HasInvoker.setInvoker, updateRuntime, present, footing]
  | some runtime =>
    simp only [World.footing, Invoker.enter, HasInvoker.setInvoker, updateRuntime, present, Option.map_some] at footing
    obtain ⟨runtime', present', same⟩ := Option.map_eq_some_iff.mp footing
    simp only [Runtime.footing, HasInvoker.invoker, present, Option.map_some, Option.getD_some, Prod.mk.injEq] at same
    obtain ⟨serial, depth, luaOpen, closing⟩ := same
    simp [World.footing, Invoker.leave, HasInvoker.setInvoker, HasInvoker.invoker, updateRuntime, present, present',
      Runtime.footing, serial, depth, luaOpen, closing]

theorem depth_enter {world : World} (present : world.runtime.isSome = true) :
    0 < (Invoker.enter world).depth := by
  obtain ⟨runtime, same⟩ := Option.isSome_iff_exists.mp present
  simp [World.depth, Invoker.enter, HasInvoker.setInvoker, updateRuntime, same]

theorem isSome_of_depth {world : World} (inCall : 0 < world.depth) : world.runtime.isSome = true := by
  cases present : world.runtime with
  | none => simp [World.depth, present] at inCall
  | some runtime => rfl

theorem outer_within : Outer InLua Within := fun _ _ inside present => nested_scope (inside (depth_enter present))

theorem outer_inLua : Outer InLua InLua := fun _ _ inside inCall =>
  nested_scope (inside (depth_enter (isSome_of_depth inCall)))

theorem Steady.inLua {world world' : World} (steady : Steady world world') : InLua world world' := fun _ => steady.nested

theorem Steady.within {world world' : World} (steady : Steady world world') : Within world world' := fun _ => steady.nested

theorem emitRules_inLua : EmitRules InLua where
  bus world bus := (steady_updateRuntime (by exact fun _ => rfl) world).inLua
  dead world := (steady_updateRuntime (by exact fun _ => rfl) world).inLua
  scope := outer_inLua
  handle world kind id generation := (steady_updatePool kind _ _ world).inLua
  called world event refs fn args := (steady_log (by trivial) (by rfl) world).inLua

/-! ## Between callbacks -/

/-- An installed runtime has its Lua state and is not closing. -/
def World.Open (world : World) : Prop :=
  ∀ runtime, world.runtime = some runtime → runtime.luaOpen = true ∧ runtime.closing = false

/-- No call into Lua is active, and no shutdown waits for one. -/
structure AtRest (world : World) : Prop where
  depth : world.depth = 0
  deferred : world.shutdownDeferred = false
  opened : world.Open

theorem open_of_footing {world world' : World} (same : world'.footing = world.footing) (opened : world.Open) :
    world'.Open := by
  intro runtime' present'
  rw [World.footing, present', Option.map_some] at same
  obtain ⟨runtime, present, footing⟩ := Option.map_eq_some_iff.mp same.symm
  simp only [Runtime.footing, Prod.mk.injEq] at footing
  obtain ⟨-, -, luaOpen, closing⟩ := footing
  rw [← luaOpen, ← closing]
  exact opened runtime present

/-- What the entries of some callbacks say about how they ended. -/
structure Course (before after : Option Runtime) (new : List Entry) : Prop where
  idle : ∀ entry ∈ new, entry.Idle
  gone : before = none → after = none ∧ shutdownDispatches new = 0 ∧
    ∀ entry ∈ new, entry.arrives = false ∧ entry.replaces = false
  lost : after = none → before = none ∨ ∃ entry ∈ new, entry.arrives = true
  dispatched : shutdownDispatches new ≠ 0 → after = none ∧ shutdownDispatches new = 1
  arrived : (∃ entry ∈ new, entry.arrives = true) →
    after = none ∧ Ended new

theorem Course.append {first second third : Option Runtime} {new new' : List Entry} (one : Course first second new)
    (two : Course second third new') : Course first third (new ++ new') := by
  have total : shutdownDispatches (new ++ new') = shutdownDispatches new + shutdownDispatches new' :=
    List.countP_append
  refine ⟨fun entry member => ?_, fun isNone => ?_, fun isNone => ?_, fun some => ?_, ?_⟩
  · exact (List.mem_append.mp member).elim (one.idle entry) (two.idle entry)
  · obtain ⟨isNone', count, noArrival⟩ := one.gone isNone
    obtain ⟨isNone'', count', noArrival'⟩ := two.gone isNone'
    refine ⟨isNone'', by omega, fun entry member => ?_⟩
    exact (List.mem_append.mp member).elim (noArrival entry) (noArrival' entry)
  · rcases two.lost isNone with middle | ⟨entry, member, arrives⟩
    · refine (one.lost middle).imp_right ?_
      exact fun ⟨entry, member, arrives⟩ => ⟨entry, List.mem_append_left _ member, arrives⟩
    · exact .inr ⟨entry, List.mem_append_right _ member, arrives⟩
  · by_cases early : shutdownDispatches new = 0
    · obtain ⟨isNone, count⟩ := two.dispatched (by omega)
      exact ⟨isNone, by omega⟩
    · obtain ⟨isNone, count⟩ := one.dispatched early
      obtain ⟨isNone', count', -⟩ := two.gone isNone
      exact ⟨isNone', by omega⟩
  · rintro ⟨entry, member, arrives⟩
    rcases List.mem_append.mp member with inFirst | inSecond
    · obtain ⟨isNone, ending⟩ := one.arrived ⟨entry, inFirst, arrives⟩
      obtain ⟨isNone', count', calm⟩ := two.gone isNone
      have stays : ∀ entry ∈ new', entry.replaces = false := fun entry member => (calm entry member).2
      refine ⟨isNone', ending.imp (fun ⟨count, last⟩ => ⟨by omega, last.append_right stays⟩) ?_⟩
      exact fun last => last.append_right stays
    · obtain ⟨isNone, ending⟩ := two.arrived ⟨entry, inSecond, arrives⟩
      have early : shutdownDispatches new = 0 := by
        by_contra some
        obtain ⟨isNone', -⟩ := one.dispatched some
        rw [((two.gone isNone').2.2 entry inSecond).1] at arrives
        cases arrives
      refine ⟨isNone, ending.imp (fun ⟨count, last⟩ => ⟨by omega, last.append_left new⟩) ?_⟩
      exact fun last => last.append_left new

/-- A callback, or several of them, from a state at rest. -/
structure Settled (world world' : World) : Prop where
  rest : AtRest world'
  course : ∃ new, world'.trace = world.trace ++ new ∧ Course world.runtime world'.runtime new

/-- What every request keeps. -/
structure Kept (world world' : World) : Prop where
  nested : 0 < world.depth → Nested world world'
  settled : AtRest world → Settled world world'

theorem shutdownDispatches_of_quiet {new : List Entry} (quiet : ∀ entry ∈ new, entry.Quiet) :
    shutdownDispatches new = 0 := by
  refine List.countP_eq_zero.mpr fun entry member => ?_
  rw [(quiet entry member).dispatchesShutdown]
  decide

theorem isNone_of_footing {world world' : World} (same : world'.footing = world.footing) :
    world'.runtime = none ↔ world.runtime = none := by
  rw [← Option.isNone_iff_eq_none, ← Option.isNone_iff_eq_none, ← Option.not_isSome, ← Option.not_isSome,
    isSome_of_footing same]

/-- Entries in which nothing happens. -/
theorem course_of_quiet {before after : Option Runtime} {new : List Entry} (quiet : ∀ entry ∈ new, entry.Quiet)
    (noArrival : ∀ entry ∈ new, entry.arrives = false) (gone : after = none ↔ before = none) :
    Course before after new := by
  have count := shutdownDispatches_of_quiet quiet
  refine ⟨fun entry member => (quiet entry member).idle, fun isNone => ⟨gone.mpr isNone, count, fun entry member => ?_⟩,
    fun isNone => .inl (gone.mp isNone), fun some => absurd count some, ?_⟩
  · exact ⟨noArrival entry member, (quiet entry member).replaces⟩
  rintro ⟨entry, member, arrives⟩
  rw [noArrival entry member] at arrives
  cases arrives

theorem Steady.kept {world world' : World} (steady : Steady world world') : Kept world world' := by
  refine ⟨fun _ => steady.nested, fun rest => ?_⟩
  obtain ⟨footing, deferred, new, trace, quiet⟩ := steady
  refine ⟨⟨(depth_eq_of_footing footing).trans rest.depth, deferred.trans rest.deferred,
    open_of_footing footing rest.opened⟩, new, trace, ?_⟩
  exact course_of_quiet (fun entry member => (quiet entry member).1) (fun entry member => (quiet entry member).2)
    (isNone_of_footing footing)

instance : IsPreorder World Kept where
  refl world := (steady_of_eq rfl rfl rfl : Steady world world).kept
  trans first second third one two := by
    refine ⟨fun inCall => ?_, fun rest => ?_⟩
    · have start := one.nested inCall
      rw [← depth_eq_of_footing start.footing] at inCall
      exact trans_of Nested start (two.nested inCall)
    · obtain ⟨rest', new, trace, course⟩ := one.settled rest
      obtain ⟨rest'', new', trace', course'⟩ := two.settled rest'
      refine ⟨rest'', new ++ new', ?_, course.append course'⟩
      rw [trace', trace, List.append_assoc]

theorem Kept.inLua {world world' : World} (kept : Kept world world') : InLua world world' := kept.nested

theorem keeps_inLua {ε α : Type} {m : EStateM ε World α} (keeps : Keeps Kept m) : Keeps InLua m :=
  fun world => (keeps world).inLua

/-! ## The end of a runtime -/

section Callbacks

variable {inner : Inner} (innerKept : ∀ site, Keeps Kept (inner site))

include innerKept

theorem within_disconnectPlayers (players : List Int) : Keeps Within (disconnectPlayers inner players) := by
  induction players with
  | nil => exact keeps_pure _
  | cons id rest ih =>
    refine keeps_get.bind fun world => ?_
    split_ifs
    · exact keeps_pure _
    · refine keeps_get.bind fun world => ?_
      split_ifs
      · exact ih
      · refine keeps_get.bind fun world => ?_
        refine (keeps_emitDisconnect emitRules_inLua outer_within (fun site => keeps_inLua (innerKept site))
          (fun world players => (steady_of_eq (by rfl) (by rfl) (by rfl)).within) _ _
          fun world => (steady_log (by trivial) (by rfl) world).within).bind fun _ => ?_
        exact (keeps_modify fun world => (steady_release _ _ world).within).bind fun _ => ih

theorem notify_of_usable {world : World} (usable : world.usable = true) :
    Nested (world.log (.dispatched .serverShutdown [])) (after (notifyServerShutdown inner) world) := by
  have present : world.runtime.isSome = true := by
    cases same : world.runtime with
    | none => simp [World.usable, same] at usable
    | some runtime => rfl
  have emitted : Nested (world.log (.dispatched .serverShutdown []))
      (after (emit inner .shutdown .serverShutdown []) world) :=
    emit_after emitRules_inLua outer_within (fun site => keeps_inLua (innerKept site)) _ _ _ world present
  have unfolded : after (notifyServerShutdown inner) world =
      after (emit inner .shutdown .serverShutdown [] >>= fun _ => get >>= fun world =>
        disconnectPlayers inner (alivePlayers world)) world := by
    simp only [notifyServerShutdown, after, get_bind, usable, Bool.not_true, Bool.false_eq_true, ↓reduceIte]
  rw [unfolded]
  rcases after_bind (emit inner .shutdown .serverShutdown []) (fun _ => get >>= fun world =>
    disconnectPlayers inner (alivePlayers world)) world with stopped | ⟨_, went⟩
  · rw [stopped]
    exact emitted
  · rw [went]
    refine trans_of Nested emitted ?_
    refine (keeps_get.bind fun world => within_disconnectPlayers innerKept _ : Keeps Within _) _ ?_
    rw [isSome_of_footing emitted.footing]
    exact present

omit innerKept in
theorem notify_of_not_usable {world : World} (unusable : world.usable = false) :
    after (notifyServerShutdown inner) world = world := by
  simp only [notifyServerShutdown, after, get_bind, unusable, Bool.not_false, ↓reduceIte]
  rfl

omit innerKept in
/-- A runtime that is open and in which no Lua code runs gets past the guard. -/
theorem shutdown_eq {runtime : Runtime} (luaOpen : runtime.luaOpen = true) (depth : runtime.invoker.depth = 0)
    (world : World) : ∃ runtime', runtime.shutdown (fun _ => pure ()) world =
      .ok runtime' (world.log (.shutDown 0 runtime.dead)) ∧ runtime'.invoker.depth = 0 := by
  simp only [Runtime.shutdown, luaOpen, Bool.not_true, Bool.false_eq_true, ↓reduceIte, Runtime.inLuaCall, depth,
    Nat.lt_irrefl, decide_false, modify_bind]
  cases runtime.dead with
  | true => exact ⟨_, rfl, depth⟩
  | false => exact ⟨_, rfl, depth⟩

/-- The runtime is still there when the handlers have run. -/
theorem guarded_notify_spec {world : World} (present : world.runtime.isSome = true) (depth : world.depth = 0)
    (opened : world.Open) :
    let told := after (guarded .onServerShutdown (notifyServerShutdown inner))
      { world with shutdownDeferred := false }
    ∃ runtime new, told.runtime = some runtime ∧ runtime.luaOpen = true ∧ runtime.invoker.depth = 0 ∧
      told.trace = world.trace ++ new ∧ (∀ entry ∈ new, entry.Idle ∧ entry.replaces = false) ∧
      (shutdownDispatches new = 1 ∨ shutdownDispatches new = 0 ∧ runtime.dead = true) := by
  intro told
  let start : World := { world with shutdownDeferred := false }
  let notified := after (notifyServerShutdown inner) start
  -- an exception only adds an entry
  obtain ⟨last, lastQuiet, toldRuntime, toldTrace⟩ : ∃ last : List Entry, (∀ entry ∈ last, entry.Quiet) ∧
      told.runtime = notified.runtime ∧ told.trace = notified.trace ++ last := by
    rcases after_guarded .onServerShutdown (notifyServerShutdown inner) start with returned | threw
    · exact ⟨[], nofun, congrArg World.runtime returned, (congrArg World.trace returned).trans (List.append_nil _).symm⟩
    · refine ⟨[.reported .onServerShutdown], fun entry member => ?_, (congrArg World.runtime threw).trans rfl,
        (congrArg World.trace threw).trans rfl⟩
      rw [List.mem_singleton.mp member]
      trivial
  have lastCount := shutdownDispatches_of_quiet lastQuiet
  have runtimeOf : notified.footing = world.footing → ∃ runtime, told.runtime = some runtime ∧
      runtime.luaOpen = true ∧ runtime.invoker.depth = 0 := by
    intro footing
    obtain ⟨runtime, installed⟩ := Option.isSome_iff_exists.mp ((isSome_of_footing footing).trans present)
    have depth' := (depth_eq_of_footing footing).trans depth
    simp only [World.depth, installed, Option.map_some, Option.getD_some] at depth'
    exact ⟨runtime, toldRuntime.trans installed, (open_of_footing footing opened runtime installed).1, depth'⟩
  cases usable : start.usable with
  | true =>
    obtain ⟨footing, new, trace, quiet, -⟩ := notify_of_usable innerKept usable
    obtain ⟨runtime, installed, luaOpen, noCall⟩ := runtimeOf footing
    refine ⟨runtime, .dispatched .serverShutdown [] :: (new ++ last), installed, luaOpen, noCall, ?_, ?_, .inl ?_⟩
    · rw [toldTrace, trace]
      simp [World.log, start]
    · intro entry member
      rcases List.mem_cons.mp member with rfl | inside
      · exact ⟨trivial, rfl⟩
      · exact (List.mem_append.mp inside).elim (fun here => ⟨(quiet entry here).idle, (quiet entry here).replaces⟩)
          fun here => ⟨(lastQuiet entry here).idle, (lastQuiet entry here).replaces⟩
    · have count := shutdownDispatches_of_quiet quiet
      simp only [shutdownDispatches, List.countP_cons, List.countP_append] at count lastCount ⊢
      rw [count, lastCount]
      rfl
  | false =>
    have same : notified = start := notify_of_not_usable usable
    obtain ⟨runtime, installed, luaOpen, noCall⟩ := runtimeOf (by rw [same]; rfl)
    refine ⟨runtime, last, installed, luaOpen, noCall, ?_, fun entry member => ?_, .inr ⟨lastCount, ?_⟩⟩
    · rw [toldTrace, same]
    · exact ⟨(lastQuiet entry member).idle, (lastQuiet entry member).replaces⟩
    · rw [toldRuntime, same] at installed
      obtain ⟨-, closing⟩ := opened runtime installed
      simp only [World.usable, installed, Option.any_some, Runtime.usable, luaOpen, closing] at usable
      simpa using usable

/-- `FinishShutdown` removes the runtime after it dispatched the event, unless the runtime is dead. -/
theorem finishShutdown_spec {world : World} (present : world.runtime.isSome = true) (depth : world.depth = 0)
    (opened : world.Open) :
    (after (finishShutdown inner) world).runtime = none ∧
      (after (finishShutdown inner) world).shutdownDeferred = false ∧
      ∃ new, (after (finishShutdown inner) world).trace = world.trace ++ new ∧
        (∀ entry ∈ new, entry.Idle ∧ entry.replaces = false) ∧
        (shutdownDispatches new = 1 ∨ shutdownDispatches new = 0 ∧ ∃ entry ∈ new, entry.shutsDownDead = true) := by
  let start : World := { world with shutdownDeferred := false }
  let told := after (guarded .onServerShutdown (notifyServerShutdown inner)) start
  have heard : ∃ runtime new, told.runtime = some runtime ∧ runtime.luaOpen = true ∧ runtime.invoker.depth = 0 ∧
      told.trace = world.trace ++ new ∧ (∀ entry ∈ new, entry.Idle ∧ entry.replaces = false) ∧
      (shutdownDispatches new = 1 ∨ shutdownDispatches new = 0 ∧ runtime.dead = true) :=
    guarded_notify_spec innerKept present depth opened
  obtain ⟨runtime, new, installed, luaOpen, noCall, trace, idle, count⟩ := heard
  obtain ⟨_, ran⟩ := eq_ok (guarded .onServerShutdown (notifyServerShutdown inner)) start
  obtain ⟨runtime', closed, depth'⟩ := shutdown_eq luaOpen noCall { told with runtime := none }
  have result : after (finishShutdown inner) world =
      { (({ told with runtime := none } : World).log (.shutDown 0 runtime.dead)).log (.deleted 0) with
        shutdownDeferred := false } := by
    have taken : takeRuntime told = .ok (some runtime) { told with runtime := none } := by
      rw [← installed]
      rfl
    refine after_of_ok (a := ()) ?_
    have isSome : start.runtime.isNone = false := by
      rw [← Option.not_isSome, Bool.not_eq_false']
      exact present
    have disposed : dispose (some runtime) { told with runtime := none } =
        .ok () ((({ told with runtime := none } : World).log (.shutDown 0 runtime.dead)).log (.deleted 0)) := by
      rw [dispose, bind_of_ok closed, depth']
      rfl
    rw [finishShutdown, modify_bind, get_bind, isSome, if_neg (by decide), bind_of_ok ran, bind_of_ok taken,
      bind_of_ok disposed]
    rfl
  rw [result]
  refine ⟨rfl, rfl, new ++ [.shutDown 0 runtime.dead, .deleted 0], ?_, ?_, ?_⟩
  · simp [World.log, trace]
  · intro entry member
    simp only [List.mem_append, List.mem_cons, List.not_mem_nil, or_false] at member
    rcases member with inside | rfl | rfl
    · exact idle entry inside
    · exact ⟨rfl, rfl⟩
    · exact ⟨rfl, rfl⟩
  · have total : shutdownDispatches (new ++ [.shutDown 0 runtime.dead, .deleted 0]) = shutdownDispatches new := by
      simp [shutdownDispatches, Entry.dispatchesShutdown]
    rw [total]
    exact count.imp_right fun closed => ⟨closed.1, .shutDown 0 runtime.dead, by simp, closed.2⟩

omit innerKept in
theorem afterCallback_in_call {world : World} (inCall : 0 < world.depth) :
    after (afterCallback inner) world = world := by
  refine afterCallback_of_not_due ?_
  obtain ⟨runtime, installed⟩ := Option.isSome_iff_exists.mp (isSome_of_depth inCall)
  simp only [World.depth, installed, Option.map_some, Option.getD_some] at inCall
  simp [World.due, installed, Runtime.inLuaCall, inCall]

/-- A callback that ends with `FinishShutdown`. -/
theorem finishShutdown_settled {world middle : World} {new : List Entry} (isSome : world.runtime ≠ none)
    (present : middle.runtime.isSome = true) (depth : middle.depth = 0) (opened : middle.Open)
    (trace : middle.trace = world.trace ++ new) (quiet : ∀ entry ∈ new, entry.Quiet)
    (arrived : ∃ entry ∈ new, entry.arrives = true) :
    Settled world (after (finishShutdown inner) middle) := by
  obtain ⟨gone, cleared, new', trace', idle', ending⟩ := finishShutdown_spec innerKept present depth opened
  have total : shutdownDispatches (new ++ new') = shutdownDispatches new' := by
    rw [shutdownDispatches, List.countP_append]
    exact (congrArg (· + _) (shutdownDispatches_of_quiet quiet)).trans (Nat.zero_add _)
  refine ⟨⟨by simp [World.depth, gone], cleared, fun runtime installed => ?_⟩, new ++ new', ?_, ?_, ?_, ?_, ?_, ?_⟩
  · rw [gone] at installed
    cases installed
  · rw [trace', trace, List.append_assoc]
  · intro entry member
    exact (List.mem_append.mp member).elim (fun here => (quiet entry here).idle) fun here => (idle' entry here).1
  · exact fun isNone => absurd isNone isSome
  · obtain ⟨entry, member, arrives⟩ := arrived
    exact fun _ => .inr ⟨entry, List.mem_append_left _ member, arrives⟩
  · intro dispatches
    rw [total] at dispatches ⊢
    exact ⟨gone, ending.resolve_right fun zero => dispatches zero.1⟩
  · rintro -
    have stays : ∀ entry ∈ new', entry.replaces = false := fun entry member => (idle' entry member).2
    refine ⟨gone, ending.imp (fun count => ⟨total.trans count, ?_⟩) fun dead => ?_⟩
    · refine (last_of_mem stays ?_).append_left new
      exact List.countP_pos_iff.mp (by rw [← shutdownDispatches]; omega)
    · exact (last_of_mem stays dead.2).append_left new

/-- The end of a callback in which the code of the runtime ran. -/
theorem afterCallback_settled {world middle : World} (rest : AtRest world) (present : world.runtime.isSome = true)
    (nested : Nested world middle) : Settled world (after (afterCallback inner) middle) := by
  obtain ⟨footing, new, trace, quiet, remembered⟩ := nested
  have present' := (isSome_of_footing footing).trans present
  have depth' := (depth_eq_of_footing footing).trans rest.depth
  have opened' := open_of_footing footing rest.opened
  have isSome : world.runtime ≠ none := Option.isSome_iff_ne_none.mp present
  cases deferred : middle.shutdownDeferred with
  | true =>
    rw [afterCallback_of_due]
    · refine finishShutdown_settled innerKept isSome present' depth' opened' trace quiet ?_
      exact (remembered.mp deferred).resolve_left (by simp [rest.deferred])
    · obtain ⟨runtime, installed⟩ := Option.isSome_iff_exists.mp present'
      simp only [World.depth, installed, Option.map_some, Option.getD_some] at depth'
      simp [World.due, deferred, installed, Runtime.inLuaCall, depth']
  | false =>
    rw [afterCallback_of_not_due (by rw [World.due, deferred]; rfl)]
    refine ⟨⟨depth', deferred, opened'⟩, new, trace, course_of_quiet quiet (fun entry member => ?_)
      (isNone_of_footing footing)⟩
    by_contra arrives
    rw [remembered.mpr (.inr ⟨entry, member, by simpa using arrives⟩)] at deferred
    cases deferred

/-- A body within the runtime, with what every callback ends with. -/
theorem kept_callback {body : EStateM Empty World Unit} (within : Keeps Within body)
    (idle : ∀ world : World, world.runtime = none → after body world = world) :
    Keeps Kept (do body; afterCallback inner) := by
  intro world
  obtain ⟨_, ran⟩ := eq_ok body world
  have unfolded : after (do body; afterCallback inner) world = after (afterCallback inner) (after body world) := by
    simp only [after, bind_of_ok ran]
  rw [unfolded]
  refine ⟨fun inCall => ?_, fun rest => ?_⟩
  · have nested := within world (isSome_of_depth inCall)
    rw [afterCallback_in_call (by rwa [depth_eq_of_footing nested.footing])]
    exact nested
  · cases present : world.runtime with
    | none =>
      rw [idle world present, afterCallback_of_not_due (by simp [World.due, present])]
      exact Kept.settled (refl_of Kept world) rest
    | some runtime =>
      have isSome : world.runtime.isSome = true := by rw [present]; rfl
      exact afterCallback_settled innerKept rest isSome (within world isSome)

/-- The body of most callbacks: nothing without a live runtime. -/
theorem kept_guarded (callback : Callback) {body : EStateM Exn World Unit} (within : Keeps Within body) :
    Keeps Kept (do
      guarded callback (do if (← get).live.isSome then body)
      afterCallback inner) := by
  refine kept_callback innerKept (keeps_guarded (fun world _ => (steady_log (by trivial) (by rfl) world).within) _ ?_) ?_
  · refine keeps_get.bind fun world => ?_
    split_ifs
    · exact within
    · exact keeps_pure _
  · intro world isNone
    refine guarded_of_ok _ ?_
    rw [get_bind]
    simp only [World.live, isNone, Option.filter_none, Option.isSome_none, Bool.false_eq_true, ↓reduceIte]
    rfl

theorem within_emit (label : Label) {event : Event} (refs : List (EntityKind × EntityRef))
    (other : event ≠ .serverShutdown) : Keeps Within (emit inner label event refs) := by
  refine keeps_emit emitRules_inLua outer_within (fun site => keeps_inLua (innerKept site)) label fun world =>
    (steady_log ?_ (by rfl) world).within
  cases event <;> trivial

theorem kept_onPlayerConnect (id : Int) : Keeps Kept (onPlayerConnect id inner) := by
  refine kept_guarded innerKept _ ?_
  refine (keeps_seen (fun world kind id => (steady_adopt kind id world).within) _ _).bind fun player => ?_
  refine keeps_get.bind fun world => ?_
  split_ifs
  · exact within_emit innerKept _ _ nofun
  · exact keeps_pure _

theorem within_emitDisconnect (label : Label) (id : Int) (player : EntityKind × EntityRef) :
    Keeps Within (emitDisconnect inner label id player) :=
  keeps_emitDisconnect emitRules_inLua outer_within (fun site => keeps_inLua (innerKept site))
    (fun _ _ => (steady_of_eq (by rfl) (by rfl) (by rfl)).within) label id
    fun world => (steady_log (by trivial) (by rfl) world).within

theorem kept_onPlayerDisconnect (id : Int) : Keeps Kept (onPlayerDisconnect id inner) := by
  refine (keeps_modify fun world => (steady_log (by trivial) (by rfl) world).kept).bind fun _ => ?_
  refine kept_guarded innerKept _ ?_
  refine (keeps_seen (fun world kind id => (steady_adopt kind id world).within) _ _).bind fun player => ?_
  have release : Keeps Within (do
      if (← get).live.isSome then
        modify (World.release .player id) : EStateM Exn World Unit) := by
    refine keeps_get.bind fun world => ?_
    split_ifs
    · exact keeps_modify fun world => (steady_release _ _ world).within
    · exact keeps_pure _
  refine keeps_get.bind fun world => ?_
  split_ifs
  · exact (within_emitDisconnect innerKept _ _ _).bind fun _ => release
  · exact release

theorem kept_onEntityPoolChange (kind : EntityKind) (id : Int) (deleted : Bool) :
    Keeps Kept (onEntityPoolChange kind id deleted inner) := by
  refine kept_guarded innerKept _ ?_
  have event : Keeps Within (emitPoolChange inner) := by
    refine keeps_get.bind fun world => ?_
    split_ifs
    · exact within_emit innerKept _ _ nofun
    · exact keeps_pure _
  cases deleted with
  | true =>
    refine event.bind fun _ => keeps_get.bind fun world => ?_
    split_ifs
    · exact keeps_modify fun world => (steady_release _ _ world).within
    · exact keeps_pure _
  | false => exact (keeps_modify fun world => (steady_adopt _ _ world).within).bind fun _ => event

theorem kept_onEvent (callback : EventCallback) : Keeps Kept (onEvent callback inner) := by
  refine keeps_get.bind fun world => ?_
  have other : (callback.reports world.server).1 ≠ .serverShutdown := by
    cases callback with
    | onPlayerDeath player killer =>
      simp only [EventCallback.reports]
      split_ifs <;> nofun
    | _ => nofun
  refine kept_callback innerKept (keeps_guarded (fun world _ => (steady_log (by trivial) (by rfl) world).within) _ ?_) ?_
  · refine keeps_get.bind fun world => ?_
    split_ifs
    · refine keeps_get.bind fun world => ?_
      split_ifs
      · exact (keeps_seenAll (fun world kind id => (steady_adopt kind id world).within) _).bind fun refs =>
          within_emit innerKept _ _ other
      · exact keeps_pure _
    · exact keeps_pure _
  · intro world isNone
    refine guarded_of_ok _ ?_
    rw [get_bind]
    simp only [World.usable, isNone, Option.any_none, Bool.false_eq_true, ↓reduceIte]
    rfl

theorem kept_onServerInitialise : Keeps Kept (onServerInitialise inner) :=
  kept_guarded innerKept _ (keeps_loadScripts emitRules_inLua outer_within (fun site => keeps_inLua (innerKept site))
    (fun world => (steady_enumerate world).within) fun world => (steady_log (by trivial) (by rfl) world).within)

theorem kept_onServerShutdown : Keeps Kept (onServerShutdown inner) := by
  intro world
  cases installed : world.runtime with
  | none =>
    have result : after (onServerShutdown inner) world = world.log .shutdownMissed := by
      simp only [after, onServerShutdown, get_bind, installed]
      rfl
    rw [result]
    exact (steady_log (by trivial) (by rfl) world).kept
  | some runtime =>
    let arrived := world.log (.shutdownArrived runtime.invoker.depth)
    have depth : world.depth = runtime.invoker.depth := by simp [World.depth, installed]
    by_cases inCall : 0 < runtime.invoker.depth
    · have result : after (onServerShutdown inner) world = { arrived with shutdownDeferred := true } := by
        simp only [after, onServerShutdown, get_bind, installed, modify_bind, Runtime.inLuaCall, inCall, decide_true,
          ↓reduceIte]
        rfl
      rw [result]
      refine ⟨fun _ => ⟨rfl, [.shutdownArrived runtime.invoker.depth], rfl, fun entry member => ?_, ?_⟩, fun rest => ?_⟩
      · rw [List.mem_singleton.mp member]
        trivial
      · simp [Entry.arrives]
      · exact absurd (depth.symm.trans rest.depth) (by omega)
    · have result : after (onServerShutdown inner) world = after (finishShutdown inner) arrived := by
        simp only [after, onServerShutdown, get_bind, installed, modify_bind, Runtime.inLuaCall, inCall, decide_false,
          Bool.false_eq_true, ↓reduceIte]
        rfl
      rw [result]
      refine ⟨fun active => absurd (depth ▸ active) inCall, fun rest => ?_⟩
      have present : arrived.runtime.isSome = true := by simp [arrived, World.log, installed]
      refine finishShutdown_settled innerKept (by rw [installed]; exact Option.some_ne_none runtime) present rest.depth rest.opened rfl
        (fun entry member => ?_) ⟨_, List.mem_singleton_self _, rfl⟩
      rw [List.mem_singleton.mp member]
      trivial

omit innerKept in
theorem steady_setEntity (kind : EntityKind) (id : Int) (owner : Option Owner) (world : World) :
    Steady world (world.setEntity kind id owner) := steady_of_eq (by rfl) (by rfl) (by rfl)

omit innerKept in
theorem steady_beginDeletion (kind : EntityKind) (id : Int) (world : World) :
    Steady world (beginDeletion kind id world) := by
  unfold beginDeletion
  split_ifs <;> exact steady_of_eq (by rfl) (by rfl) (by rfl)

omit innerKept in
theorem steady_endDeletion (kind : EntityKind) (id : Int) (world : World) :
    Steady world (endDeletion kind id world) := by
  unfold endDeletion
  split_ifs <;> exact steady_of_eq (by rfl) (by rfl) (by rfl)

theorem kept_createEntity (kind : EntityKind) (id : Int) (owner : Owner) :
    Keeps Kept (createEntity kind id owner inner) := by
  refine keeps_get.bind fun world => ?_
  split_ifs
  · exact keeps_pure _
  · refine (keeps_modify fun world => (steady_setEntity _ _ _ world).kept).bind fun _ => ?_
    refine (innerKept _).bind fun _ => (kept_onEntityPoolChange innerKept _ _ _).bind fun _ => ?_
    exact (innerKept _).bind fun _ => keeps_pure _

theorem kept_deleteEntity (kind : EntityKind) (id : Int) {before after : EStateM Empty World Ending}
    (beforeKept : Keeps Kept before) (afterKept : Keeps Kept after) :
    Keeps Kept (deleteEntity kind id before after inner) := by
  refine keeps_get.bind fun world => keeps_get.bind fun world => ?_
  split_ifs
  · exact keeps_pure _
  · refine (keeps_modify fun world => (steady_beginDeletion _ _ world).kept).bind fun _ => ?_
    refine beforeKept.bind fun _ => (kept_onEntityPoolChange innerKept _ _ _).bind fun _ => ?_
    refine afterKept.bind fun _ => (keeps_modify fun world => (steady_endDeletion _ _ world).kept).bind fun _ => ?_
    exact keeps_pure _

theorem kept_connectPlayer (id : Int) : Keeps Kept (connectPlayer id inner) := by
  refine keeps_get.bind fun world => ?_
  split_ifs
  · exact keeps_pure _
  · refine (keeps_modify fun world => (steady_setEntity _ _ _ world).kept).bind fun _ => ?_
    refine (innerKept _).bind fun _ => (kept_onPlayerConnect innerKept _).bind fun _ => ?_
    exact (innerKept _).bind fun _ => keeps_pure _

theorem kept_kickPlayer (id : Int) : Keeps Kept (kickPlayer id inner) := by
  refine keeps_get.bind fun world => ?_
  split_ifs
  · exact keeps_pure _
  · refine (innerKept _).bind fun _ => (kept_onPlayerDisconnect innerKept _).bind fun _ => ?_
    refine (innerKept _).bind fun _ => (keeps_modify fun world => (steady_setEntity _ _ _ world).kept).bind fun _ => ?_
    exact keeps_pure _

theorem kept_deleteCreated (runtime : Runtime) : Keeps Kept (deleteCreated inner runtime) := by
  refine (keeps_modify fun world => (steady_of_eq (by rfl) (by rfl) (by rfl)).kept).bind fun _ => ?_
  refine (keeps_forEach fun entity _ => ?_).bind fun _ => (keeps_forEach fun id _ => ?_).bind fun _ => ?_
  · refine (keeps_modify fun world => (steady_log (by trivial) (by rfl) world).kept).bind fun _ => ?_
    exact (kept_deleteEntity innerKept _ _ (innerKept _) (innerKept _)).bind fun _ => keeps_pure _
  · exact keeps_modify fun world =>
      ((steady_log (by trivial) (by rfl) world).trans (steady_setEntity _ _ _ _)).kept
  · refine keeps_modify fun world => Steady.kept ?_
    have logged : Steady world (world.log (.swept runtime.serial (leftOf runtime.serial world))) :=
      steady_log (by trivial) (by rfl) world
    exact logged.trans (steady_of_eq (by rfl) (by rfl) (by rfl))

/-! ## Reloading -/

theorem within_loadScripts : Keeps Within (loadScripts inner) :=
  keeps_loadScripts emitRules_inLua outer_within (fun site => keeps_inLua (innerKept site))
    (fun world => (steady_enumerate world).within) fun world => (steady_log (by trivial) (by rfl) world).within

/-- `DeleteCreated` runs with no runtime installed. -/
theorem deleteCreated_spec (runtime : Runtime) {world : World} (gone : world.runtime = none)
    (deferred : world.shutdownDeferred = false) :
    let swept := after (deleteCreated inner runtime) world
    swept.shutdownDeferred = false ∧ ∃ new, swept.trace = world.trace ++ new ∧ (∀ entry ∈ new, entry.Idle) ∧
      shutdownDispatches new = 0 ∧ ∀ entry ∈ new, entry.arrives = false := by
  intro swept
  have rest : AtRest world := ⟨by simp [World.depth, gone], deferred, fun runtime installed => by simp [gone] at installed⟩
  obtain ⟨rest', new, trace, course⟩ := (kept_deleteCreated innerKept runtime world).settled rest
  obtain ⟨-, count, noArrival⟩ := course.gone gone
  exact ⟨rest'.deferred, new, trace, course.idle, count, fun entry member => (noArrival entry member).1⟩

omit innerKept in
theorem steady_endFrame (world : World) : Steady world world.endFrame := steady_log (by trivial) (by rfl) world

omit innerKept in
theorem steady_cancelReload (world : World) : Steady world world.cancelReload :=
  (steady_log (by trivial) (by rfl) world).trans (steady_updateRuntime (by exact fun _ => rfl) _)

/-- The old runtime is closed and deleted before the new one is installed. -/
theorem replace_spec (config : Config) {world : World} {old : Runtime} (rest : AtRest world)
    (present : world.runtime = some old) (lives : old.dead = false) :
    let installed := ((after (old.shutdown (deleteCreated inner)) (world.taken config)).log (.deleted 0)).install config.scripts
    AtRest installed ∧ ∃ new, installed.trace = world.trace ++ new ∧ Course world.runtime installed.runtime new := by
  intro installed
  obtain ⟨luaOpen, -⟩ := rest.opened old present
  have noCall := rest.depth
  simp only [World.depth, present, Option.map_some, Option.getD_some] at noCall
  let closing : Runtime := Runtime.closePools { old with closing := true }
  let empty : World := (world.taken config).log (.shutDown 0 false)
  let swept := after (deleteCreated inner closing) empty
  have closed : after (old.shutdown (deleteCreated inner)) (world.taken config) = swept := by
    obtain ⟨_, ran⟩ := eq_ok (deleteCreated inner closing) empty
    refine after_of_ok (a := closing.closeLua) ?_
    rw [shutdown_of_lives _ luaOpen noCall lives]
    exact bind_of_ok ran
  obtain ⟨deferred, new, trace, idle, count, noArrival⟩ : swept.shutdownDeferred = false ∧
      ∃ new, swept.trace = empty.trace ++ new ∧ (∀ entry ∈ new, entry.Idle) ∧
        shutdownDispatches new = 0 ∧ ∀ entry ∈ new, entry.arrives = false :=
    deleteCreated_spec innerKept closing (by rfl) rest.deferred
  let first : List Entry := [.frameEnded (world.runtime.map (·.serial)) world.depth world.live.isSome world.shutdownDeferred,
    .reloading 0 world.server.deletions, .shutDown 0 false]
  let last : List Entry := [.deleted 0, .installed swept.nextSerial]
  have start : installed = (swept.log (.deleted 0)).install config.scripts := by rw [← closed]
  rw [start]
  have firstIdle : ∀ entry ∈ first, entry.Idle ∧ entry.arrives = false := by
    simp [first, Entry.Idle, Entry.arrives]
  have lastIdle : ∀ entry ∈ last, entry.Idle ∧ entry.arrives = false := by
    simp [last, Entry.Idle, Entry.arrives]
  refine ⟨⟨rfl, deferred, ?_⟩, first ++ new ++ last, ?_, ?_, fun isNone => ?_, fun isNone => absurd isNone (Option.some_ne_none _), fun dispatches => ?_, ?_⟩
  · rintro runtime ⟨⟩
    exact ⟨rfl, rfl⟩
  · simp [World.install, World.log, trace, empty, World.taken, World.endFrame, first, last]
  · intro entry member
    simp only [List.mem_append] at member
    rcases member with (front | inside) | back
    · exact (firstIdle entry front).1
    · exact idle entry inside
    · exact (lastIdle entry back).1
  · rw [present] at isNone
    cases isNone
  · refine absurd ?_ dispatches
    simp only [shutdownDispatches, List.countP_append] at count ⊢
    rw [count]
    rfl
  · rintro ⟨entry, member, arrives⟩
    simp only [List.mem_append] at member
    have none : entry.arrives = false := by
      rcases member with (front | inside) | back
      · exact (firstIdle entry front).2
      · exact noArrival entry inside
      · exact (lastIdle entry back).2
    rw [none] at arrives
    cases arrives

theorem kept_guarded_reload (restart : Restart) : Keeps Kept (do
    guarded .reload (do modify World.endFrame; if (← get).reloads then reload restart inner)
    afterCallback inner) := by
  intro world
  rw [after_seq]
  cases reloads : world.reloads with
  | false =>
    have ended : after (guarded .reload (do modify World.endFrame; if (← get).reloads then reload restart inner)) world =
        world.endFrame := by
      refine guarded_of_ok _ ?_
      have same : world.endFrame.reloads = false := reloads
      rw [modify_bind, get_bind, same]
      rfl
    rw [ended]
    refine ⟨fun inCall => ?_, fun rest => ?_⟩
    · rw [afterCallback_in_call (show 0 < world.endFrame.depth from inCall)]
      exact (steady_endFrame world).nested
    · rw [afterCallback_of_not_due (by rw [World.due, show world.endFrame.shutdownDeferred = false from rest.deferred]; rfl)]
      exact Kept.settled (steady_endFrame world).kept rest
  | true =>
    obtain ⟨old, present, lives, noCall⟩ := reloads_spec reloads
    refine ⟨fun inCall => by omega, fun rest => ?_⟩
    have reported : ∀ world : World, Nested world (world.log (.reported .reload)) :=
      fun world => (steady_log (by trivial) (by rfl) world).nested
    have body := @after_endFrame_of_reloads inner restart world reloads
    obtain ⟨config, rfl⟩ | ⟨e, fails⟩ := startRuntime_cases restart
    · obtain ⟨rest', new, trace, course⟩ := replace_spec innerKept config rest present lives
      let installed := ((after (old.shutdown (deleteCreated inner)) (world.taken config)).log (.deleted 0)).install config.scripts
      have within : Nested installed (after (loadScripts inner) installed) := within_loadScripts innerKept installed (by rfl)
      rw [reload_eq config present noCall] at body
      have settled : Settled installed (after (afterCallback inner) (after (guarded .reload (do
          modify World.endFrame; if (← get).reloads then reload (.starts config) inner)) world)) := by
        refine afterCallback_settled innerKept rest' (by rfl) ?_
        rcases after_guarded .reload (do modify World.endFrame; if (← get).reloads then reload (.starts config) inner)
          world with returned | threw
        · rw [returned, body]
          exact within
        · rw [threw, body]
          exact trans_of Nested within (reported _)
      obtain ⟨atRest, new', trace', course'⟩ := settled
      refine ⟨atRest, new ++ new', ?_, course.append course'⟩
      rw [trace', trace, List.append_assoc]
    · rw [after_of_ok (reload_of_error (fails _))] at body
      have steady : Nested world world.endFrame.cancelReload :=
        ((steady_endFrame world).trans (steady_cancelReload _)).nested
      refine afterCallback_settled innerKept rest (by rw [present]; rfl) ?_
      rcases after_guarded .reload (do modify World.endFrame; if (← get).reloads then reload restart inner)
        world with returned | threw
      · rw [returned, body]
        exact steady
      · rw [threw, body]
        exact trans_of Nested steady (reported _)

theorem kept_onServerFrame (timers transfers : ℕ) (restart : Restart) :
    Keeps Kept (onServerFrame timers transfers restart inner) := by
  have frame : Keeps Within (frame timers transfers inner) :=
    keeps_frame emitRules_inLua outer_within (fun site => keeps_inLua (innerKept site))
      (fun world => (steady_log (by trivial) (by rfl) world).within) _ _
  have both := (kept_guarded innerKept .onServerFrame frame).bind fun _ => kept_guarded_reload innerKept restart
  rw [bind_assoc] at both
  exact both

/-! ## Requests -/

omit innerKept in
theorem inLua_created (runtime : Runtime) (kind : EntityKind) (result : Option Int) :
    Keeps InLua (created runtime kind result) := by
  cases result with
  | none => exact keeps_throw _
  | some id =>
    refine (keeps_modify fun world => (steady_adopt _ _ world).inLua).bind fun _ => ?_
    exact (keeps_modify fun world => (steady_markCreatedByUs _ _ _ world).inLua).bind fun _ => keeps_pure _

omit innerKept in
theorem inLua_removeBind (id : Int) : Keeps InLua (removeBind id) := by
  refine (keeps_modify fun world => (steady_setEntity _ _ _ world).inLua).bind fun _ => ?_
  exact (keeps_modify fun world => (steady_release _ _ world).inLua).bind fun _ => keeps_pure _

omit innerKept in
theorem inLua_checkLive (kind : EntityKind) (id : Int) (generation : Generation) :
    Keeps InLua (checkLive kind id generation) := by
  refine (keeps_requireEntity kind id generation).bind fun _ => ?_
  split_ifs
  · refine keeps_get.bind fun world => ?_
    split_ifs
    · exact (keeps_modify fun world => (steady_release _ _ world).inLua).bind fun _ => keeps_throw _
    · exact keeps_pure _
  · exact keeps_pure _

theorem inLua_deleteEntity (kind : EntityKind) (id : Int) :
    Keeps InLua (safely (deleteEntity kind id (inner .before) (inner .after) inner) : EStateM Exn World Bool) :=
  (keeps_inLua (kept_deleteEntity innerKept kind id (innerKept _) (innerKept _))).safely

theorem bindingRules_inLua : BindingRules InLua inner where
  toEmitRules := emitRules_inLua
  create kind _ id := keeps_requireRuntime.bind fun runtime =>
    (keeps_inLua (kept_createEntity innerKept kind id _)).safely.bind fun result => inLua_created runtime kind result
  destroy kind _ id generation := by
    refine (inLua_checkLive kind id generation).bind fun _ => (inLua_deleteEntity innerKept kind id).bind fun deleted => ?_
    split_ifs
    · exact keeps_throw _
    · exact (keeps_modify fun world => (steady_release _ _ world).inLua).bind fun _ => keeps_pure _
  destroyBlip id := keeps_requireRuntime.bind fun _ => (inLua_deleteEntity innerKept _ id).bind fun _ =>
    (keeps_modify fun world => (steady_release _ _ world).inLua).bind fun _ => keeps_pure _
  createBind slot keys := by
    refine keeps_requireRuntime.bind fun runtime => keeps_get.bind fun world => ?_
    split_ifs
    · exact keeps_throw _
    · refine (keeps_modify fun world => (steady_setEntity _ _ _ world).inLua).bind fun _ => ?_
      exact inLua_created runtime .bind _
  removeBind := inLua_removeBind
  clearAllBinds := keeps_requireRuntime.bind fun runtime => (keeps_forEach fun id _ =>
    (keeps_modify fun world => (steady_log (by trivial) (by rfl) world).inLua).bind fun _ =>
      (inLua_removeBind id).bind fun _ => keeps_pure _).bind fun _ => keeps_pure _
  checkLive := inLua_checkLive
  kickPlayer id := keeps_inLua (kept_kickPlayer innerKept id)
  requestReload world :=
    ((steady_log (by trivial) (by rfl) world).trans (steady_updateRuntime (by exact fun _ => rfl) _)).inLua

/-- Bindings are refused outside of a call. -/
theorem kept_runBinding (binding : Binding) : Keeps Kept (runBinding inner binding) := by
  intro world
  by_cases idle : world.depth = 0
  · have same : after (runBinding inner binding) world = world := by
      simp only [after, runBinding, get_bind, idle, ↓reduceIte]
      rfl
    rw [same]
    exact refl_of Kept world
  · refine ⟨fun inCall => ?_, fun rest => absurd rest.depth idle⟩
    have runs : Keeps InLua (runBinding inner binding) := by
      refine keeps_get.bind fun world => ?_
      split_ifs
      · exact keeps_pure _
      · refine (keeps_binding (bindingRules_inLua innerKept) (fun site => keeps_inLua (innerKept site)) binding).caught.bind
          fun result => ?_
        cases result <;> exact keeps_pure _
    exact runs world inCall

theorem kept_serve (op : Op) : Keeps Kept (serve op inner) := by
  cases op with
  | lua binding => exact kept_runBinding innerKept binding
  | create kind id =>
    simp only [serve]
    split_ifs
    · exact kept_createEntity innerKept _ _ _
    · exact keeps_pure _
  | delete kind id =>
    simp only [serve]
    split_ifs
    · refine Keeps.bind ?_ fun _ => keeps_pure _
      refine (keeps_modify fun world => (steady_log (by trivial) (by rfl) world).kept).bind fun _ => ?_
      exact kept_deleteEntity innerKept _ _ (innerKept _) (innerKept _)
    · exact keeps_pure _
  | registerKeyBind slot keys =>
    simp only [serve]
    split_ifs
    · refine (keeps_modify fun world => ?_).bind fun _ => keeps_pure _
      exact ((steady_log (by trivial) (by rfl) world).trans (steady_setEntity _ _ _ _)).kept
    · exact keeps_pure _
  | removeKeyBind slot =>
    refine (keeps_modify fun world => ?_).bind fun _ => keeps_pure _
    exact ((steady_log (by trivial) (by rfl) world).trans (steady_setEntity _ _ _ _)).kept
  | connect id => exact (kept_connectPlayer innerKept id).bind fun _ => keeps_pure _
  | disconnect id => exact (kept_kickPlayer innerKept id).bind fun _ => keeps_pure _
  | initialise => exact (kept_onServerInitialise innerKept).bind fun _ => keeps_pure _
  | frame timers transfers restart =>
    exact (kept_onServerFrame innerKept timers transfers restart).bind fun _ => keeps_pure _
  | modules timers transfers =>
    exact (keeps_modify fun world => (steady_updateRuntime (by exact fun _ => rfl) world).kept).bind fun _ => keeps_pure _
  | shutdown => exact (kept_onServerShutdown innerKept).bind fun _ => keeps_pure _
  | event callback => exact (kept_onEvent innerKept callback).bind fun _ => keeps_pure _

end Callbacks

theorem kept_perform (behaviour : Behaviour) : Keeps Kept (perform behaviour) :=
  Script.keeps_run (fun op _ innerKept => kept_serve innerKept op) behaviour

theorem atRest_start (existing : EntityKind → Int → Bool) (scripts : ℕ) : AtRest (World.start existing scripts) := by
  refine ⟨rfl, rfl, ?_⟩
  rintro runtime ⟨⟩
  exact ⟨rfl, rfl⟩

/-- Runtimes are shut down, deleted and replaced only while no call into Lua is active, and a
shutdown that arrives during a call is carried out when the outermost callback returns. -/
theorem deferred_shutdown_completes (existing : EntityKind → Int → Bool) (scripts : ℕ) (behaviour : Behaviour) :
    let final := after (perform behaviour) (World.start existing scripts)
    (∀ entry ∈ final.trace, entry.Idle) ∧
      ((∃ entry ∈ final.trace, entry.arrivesInCall = true) → final.runtime = none ∧ final.shutdownDeferred = false ∧
        (shutdownDispatches final.trace = 1 ∨ ∃ entry ∈ final.trace, entry.shutsDownDead = true)) := by
  intro final
  obtain ⟨rest, new, trace, course⟩ := (kept_perform behaviour _).settled (atRest_start existing scripts)
  have all : final.trace = new := trace
  rw [all]
  refine ⟨course.idle, fun arrived => ?_⟩
  obtain ⟨entry, member, inCall⟩ := arrived
  obtain ⟨gone, ending⟩ := course.arrived ⟨entry, member, Entry.arrives_of_inCall inCall⟩
  refine ⟨gone, rest.deferred, ending.imp And.left ?_⟩
  rintro ⟨earlier, entry, later, rfl, dead, -⟩
  exact ⟨entry, by simp, dead⟩

/-- A frame whose only timer stops the server. -/
def shutdownInTimer : Behaviour :=
  .act (.frame 1 0 .configFails)
    (fun site => if site = .timer 0 then .act .shutdown (fun _ => .ret .returned) fun _ => .ret .returned else .ret .returned)
    fun _ => .ret .returned

theorem deferred_shutdown_in_timer :
    let final := after (perform shutdownInTimer) (World.start (fun _ _ => false) 0)
    (∃ entry ∈ final.trace, entry.arrivesInCall = true) ∧ final.runtime = none ∧
      (shutdownDispatches final.trace = 1 ∨ ∃ entry ∈ final.trace, entry.shutsDownDead = true) := by
  have arrived : ∃ entry ∈ (after (perform shutdownInTimer) (World.start (fun _ _ => false) 0)).trace, entry.arrivesInCall = true := by
    decide +kernel
  obtain ⟨gone, -, ending⟩ := (deferred_shutdown_completes (fun _ _ => false) 0 shutdownInTimer).2 arrived
  exact ⟨arrived, gone, ending⟩

end VcmpLua.Model.Plugin
