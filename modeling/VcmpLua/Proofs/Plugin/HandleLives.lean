import VcmpLua.Proofs.EntityValues
import VcmpLua.Proofs.Plugin.EntityRules

/-! # Handles through whole runs

What the operations of one pool guarantee is carried through runs of the plugin, in which callbacks,
Lua code and other plugins take turns at any nesting. As long as a runtime stays installed, the
pools that it has at one moment are those of an earlier moment after some operations, and lifetimes
begin in them only where the trace has an adoption. So the Lua value that stands for an entity is the
same at every push until the entity goes.
-/

namespace VcmpLua.Model.Plugin

open Effect VcmpLua.Model.Core VcmpLua.Model.Core.EntityPool World

/-- An entity that the runtime did not know is adopted at this id. -/
def Entry.begins (kind : EntityKind) (id : Int) : Entry → Bool
  | .adopted kind' id' known _ _ => decide (kind' = kind) && decide (id' = id) && !known
  | _ => false

def adoptions (kind : EntityKind) (id : Int) (entries : List Entry) : ℕ := entries.countP (Entry.begins kind id)

theorem adoptions_append (kind : EntityKind) (id : Int) (entries later : List Entry) :
    adoptions kind id (entries ++ later) = adoptions kind id entries + adoptions kind id later :=
  List.countP_append

/-- The one runtime became the other by operations on its pools. -/
structure Operated (new : List Entry) (runtime runtime' : Runtime) : Prop where
  serial : runtime'.serial = runtime.serial
  pools : ∀ kind, ∃ ops, .releaseRefs ∉ ops ∧ runtime'.entities kind = runOps (runtime.entities kind) ops ∧
    ∀ id, lifetimes (runtime.entities kind) ops id ≤ adoptions kind id new

/-- All that ever happened to the pools are operations. -/
def Runtime.Worked (runtime : Runtime) : Prop :=
  ∀ kind, ∃ ops, .releaseRefs ∉ ops ∧ runtime.entities kind = runOps { kind } ops

theorem Operated.refl (new : List Entry) {runtime runtime' : Runtime} (serial : runtime'.serial = runtime.serial)
    (entities : runtime'.entities = runtime.entities) : Operated new runtime runtime' where
  serial := serial
  pools kind := ⟨[], by simp, by rw [entities]; rfl, fun id => Nat.zero_le _⟩

theorem Operated.trans {new later : List Entry} {first second third : Runtime} (one : Operated new first second)
    (two : Operated later second third) : Operated (new ++ later) first third where
  serial := two.serial.trans one.serial
  pools kind := by
    obtain ⟨ops, kept, pool, few⟩ := one.pools kind
    obtain ⟨ops', kept', pool', few'⟩ := two.pools kind
    refine ⟨ops ++ ops', ?_, ?_, fun id => ?_⟩
    · simp [kept, kept']
    · rw [pool', pool, runOps_append]
    · rw [lifetimes_append, adoptions_append, ← pool]
      exact Nat.add_le_add (few id) (few' id)

theorem Runtime.Worked.operated {new : List Entry} {runtime runtime' : Runtime} (worked : runtime.Worked)
    (operated : Operated new runtime runtime') : runtime'.Worked := by
  intro kind
  obtain ⟨ops, kept, pool⟩ := worked kind
  obtain ⟨ops', kept', pool', -⟩ := operated.pools kind
  refine ⟨ops ++ ops', by simp [kept, kept'], ?_⟩
  rw [pool', pool, runOps_append]

/-- One operation on one pool. -/
theorem operated_updatePool {new : List Entry} (runtime : Runtime) {kind : EntityKind} {f : EntityPool → EntityPool}
    (sameKind : ∀ pool, (f pool).kind = pool.kind) (op : PoolOp) (kept : op ≠ .releaseRefs)
    (applies : f (runtime.entities kind) = op.apply (runtime.entities kind))
    (few : ∀ id, begins (runtime.entities kind) (op.apply (runtime.entities kind)) id ≤ adoptions kind id new) :
    Operated new runtime (runtime.updatePool kind f sameKind) where
  serial := rfl
  pools query := by
    by_cases same : query = kind
    · subst same
      refine ⟨[op], by simpa using kept.symm, ?_, fun id => ?_⟩
      · rw [Runtime.entities_updatePool, if_pos rfl, applies]
        rfl
      · exact few id
    · refine ⟨[], by simp, ?_, fun id => Nat.zero_le _⟩
      rw [Runtime.entities_updatePool, if_neg same]
      rfl

/-- No lifetime begins where nothing comes alive. -/
theorem begins_of_alive {pool pool' : EntityPool} {id : Int} (alive : pool'.alive id = true → pool.alive id = true) :
    begins pool pool' id = 0 := by
  unfold begins
  split_ifs with began
  · rw [Bool.and_eq_true, Bool.not_eq_true'] at began
    rw [alive began.2] at began
    cases began.1
  · rfl

theorem begins_adopt_le (pool : EntityPool) (kind : EntityKind) (id query : Int) (owner : Option Owner) (leaving : Bool) :
    begins pool (pool.adopt id) query ≤ adoptions kind query [.adopted kind id (pool.alive id) owner leaving] := by
  by_cases same : id = query
  · subst same
    by_cases alive : pool.alive id = true
    · rw [begins_of_alive fun _ => alive]
      exact Nat.zero_le _
    · simp only [begins, adoptions, Entry.begins, List.countP_singleton, alive]
      split_ifs <;> simp_all
  · rw [begins_of_alive]
    · exact Nat.zero_le _
    · intro later
      rw [alive_adopt, Bool.or_eq_true] at later
      refine later.resolve_right fun added => ?_
      rw [Bool.and_eq_true, beq_iff_eq] at added
      exact same added.1.symm

/-! ## Steps of a run -/

/-- What every step keeps: a runtime that is installed later was installed before and has had its pools
operated on since, or it is new. -/
structure Carries (world world' : World) : Prop where
  depth : world'.depth = world.depth
  serials : world.nextSerial ≤ world'.nextSerial
  runtimes : ∃ new, world'.trace = world.trace ++ new ∧ ∀ runtime', world'.runtime = some runtime' →
    (world.nextSerial ≤ runtime'.serial ∧ runtime'.serial < world'.nextSerial ∧ runtime'.Worked) ∨
      ∃ runtime, world.runtime = some runtime ∧ Operated new runtime runtime'

instance : IsPreorder World Carries where
  refl world := ⟨rfl, le_rfl, [], (List.append_nil _).symm, fun runtime installed =>
    .inr ⟨runtime, installed, .refl [] rfl rfl⟩⟩
  trans first second third one two := by
    obtain ⟨depth, serials, new, trace, before⟩ := one
    obtain ⟨depth', serials', later, trace', after⟩ := two
    refine ⟨depth'.trans depth, serials.trans serials', new ++ later, ?_, fun runtime'' installed => ?_⟩
    · rw [trace', trace, List.append_assoc]
    · rcases after runtime'' installed with ⟨fresh, below, worked⟩ | ⟨runtime', present, operated⟩
      · exact .inl ⟨serials.trans fresh, below, worked⟩
      · rcases before runtime' present with ⟨fresh, below, worked⟩ | ⟨runtime, present', operated'⟩
        · rw [← operated.serial] at fresh below
          exact .inl ⟨fresh, below.trans_le serials', worked.operated operated⟩
        · exact .inr ⟨runtime, present', operated'.trans operated⟩

theorem carries_updateRuntime {f : Runtime → Runtime} {world : World} {entries : List Entry}
    (depth : ∀ runtime, (f runtime).invoker.depth = runtime.invoker.depth)
    (operated : ∀ runtime, world.runtime = some runtime → Operated entries runtime (f runtime)) :
    Carries world (({ world with trace := world.trace ++ entries } : World).updateRuntime f) where
  depth := depth_updateRuntime depth _
  serials := le_rfl
  runtimes := by
    refine ⟨entries, rfl, fun runtime' installed => ?_⟩
    obtain ⟨runtime, present, rfl⟩ := Option.map_eq_some_iff.mp installed
    exact .inr ⟨runtime, present, operated runtime present⟩

/-- A step that leaves the runtime alone. -/
theorem carries_of_runtime {world world' : World} {new : List Entry} (runtime : world'.runtime = world.runtime)
    (next : world'.nextSerial = world.nextSerial) (trace : world'.trace = world.trace ++ new) : Carries world world' where
  depth := by rw [World.depth, World.depth, runtime]
  serials := next.ge
  runtimes := by
    refine ⟨new, trace, fun runtime' installed => ?_⟩
    rw [runtime] at installed
    exact .inr ⟨runtime', installed, .refl new rfl rfl⟩

theorem carries_log (world : World) (entry : Entry) : Carries world (world.log entry) := carries_of_runtime rfl rfl rfl

/-- A step that the trace says nothing about. -/
theorem carries_silent {f : Runtime → Runtime} (depth : ∀ runtime, (f runtime).invoker.depth = runtime.invoker.depth)
    (operated : ∀ runtime, Operated [] runtime (f runtime)) (world : World) : Carries world (world.updateRuntime f) := by
  have step : Carries world (({ world with trace := world.trace ++ [] } : World).updateRuntime f) :=
    carries_updateRuntime depth fun runtime _ => operated runtime
  rwa [List.append_nil] at step

/-- A step that leaves the pools alone. -/
theorem carries_of_entities {f : Runtime → Runtime} (depth : ∀ runtime, (f runtime).invoker.depth = runtime.invoker.depth)
    (serial : ∀ runtime, (f runtime).serial = runtime.serial) (entities : ∀ runtime, (f runtime).entities = runtime.entities)
    (world : World) : Carries world (world.updateRuntime f) :=
  carries_silent depth (fun runtime => .refl [] (serial runtime) (entities runtime)) world

theorem carries_adopt (world : World) (kind : EntityKind) (id : Int) : Carries world (world.adopt kind id) := by
  apply carries_updateRuntime
  · exact fun _ => rfl
  · intro runtime installed
    apply operated_updatePool runtime _ (.adopt id) (by simp) rfl
    intro query
    have known : world.alive kind id = (runtime.entities kind).alive id := by rw [World.alive, installed]; rfl
    rw [known]
    exact begins_adopt_le (runtime.entities kind) kind id query _ _

theorem carries_release (world : World) (kind : EntityKind) (id : Int) : Carries world (world.release kind id) := by
  apply carries_updateRuntime
  · exact fun _ => rfl
  · intro runtime _
    apply operated_updatePool runtime _ (.release id) (by simp) rfl
    intro query
    rw [begins_of_alive]
    · exact Nat.zero_le _
    · intro later
      rw [PoolOp.apply, alive_release, Bool.and_eq_true] at later
      exact later.1

theorem carries_markCreatedByUs (world : World) (serial : ℕ) (kind : EntityKind) (id : Int) :
    Carries world (world.markCreatedByUs serial kind id) := by
  apply carries_updateRuntime
  · exact fun _ => rfl
  · intro runtime _
    apply operated_updatePool runtime _ (.markCreatedByUs id) (by simp) rfl
    intro query
    rw [begins_of_alive]
    · exact Nat.zero_le _
    · intro later
      rwa [PoolOp.apply, alive_markCreatedByUs] at later

theorem operated_push (runtime : Runtime) (kind : EntityKind) (id : Int) (generation : Generation) :
    Operated [] runtime (runtime.updatePool kind (fun pool => (pool.push id generation).2) fun pool => pool.push_kind _ _) := by
  apply operated_updatePool runtime _ (.push id generation) (by simp) rfl
  intro query
  rw [begins_of_alive]
  · exact Nat.zero_le _
  · intro later
    rwa [PoolOp.apply, alive_push] at later

theorem carries_push (world : World) (kind : EntityKind) (id : Int) (generation : Generation) :
    Carries world (world.updateRuntime fun runtime =>
      runtime.updatePool kind (fun pool => (pool.push id generation).2) fun pool => pool.push_kind _ _) := by
  apply carries_silent
  · exact fun _ => rfl
  · intro runtime
    exact operated_push runtime kind id generation

/-- Entering and leaving a call does nothing to the pools. -/
theorem carries_scope {world world' : World} (inside : Carries (Invoker.enter world) world') :
    Carries world (Invoker.leave world') := by
  have enters : world.nextSerial = (Invoker.enter world : World).nextSerial := rfl
  obtain ⟨depth, serials, new, trace, before⟩ := inside
  refine ⟨by rw [depth_leave, depth, depth_enter_sub_one], serials, new, trace, fun runtime'' installed => ?_⟩
  obtain ⟨runtime', present, rfl⟩ := Option.map_eq_some_iff.mp installed
  rcases before runtime' present with ⟨fresh, below, worked⟩ | ⟨entered, present', operated⟩
  · exact .inl ⟨fresh, below, worked⟩
  · obtain ⟨runtime, here, rfl⟩ := Option.map_eq_some_iff.mp present'
    exact .inr ⟨runtime, here, ⟨operated.serial, operated.pools⟩⟩

theorem carries_entityRules : EntityRules Carries where
  bus world bus := carries_of_entities (by exact fun _ => rfl) (by exact fun _ => rfl) (by exact fun _ => rfl) world
  dead world := carries_of_entities (by exact fun _ => rfl) (by exact fun _ => rfl) (by exact fun _ => rfl) world
  scope _ _ := carries_scope
  handle := carries_push
  called world event refs fn args := carries_log world _
  inCall world world' related inCall := related.depth.symm ▸ inCall
  plain world entry _ := carries_log world entry
  adopt := carries_adopt
  enumerate := enumerate_of_rules carries_adopt fun world =>
    carries_of_entities (by exact fun _ => rfl) (by exact fun _ => rfl) (by exact fun _ => rfl) world
  reporting world players := carries_of_runtime rfl rfl (List.append_nil _).symm
  deferred world deferred := carries_of_runtime rfl rfl (List.append_nil _).symm
  player world id owner := carries_of_runtime rfl rfl (List.append_nil _).symm
  entity world kind id owner _ := carries_of_runtime rfl rfl (List.append_nil _).symm
  deletions world deletions := carries_of_runtime rfl rfl (List.append_nil _).symm
  release world kind id _ := carries_release world kind id
  mark world serial kind id _ := carries_markCreatedByUs world serial kind id
  passed world serial kind id owner := carries_log world _
  swept world serial left := carries_log world _
  sweeping world sweeping := carries_of_runtime rfl rfl (List.append_nil _).symm

/-! ## Runs -/

theorem carries_remove (world : World) (idle : world.depth = 0) : Carries world { world with runtime := none } := by
  refine ⟨idle.symm, le_rfl, [], (List.append_nil _).symm, fun runtime installed => ?_⟩
  cases installed

/-- The pools of a new runtime are empty. -/
theorem carries_install (world : World) (idle : world.depth = 0) (scripts : ℕ) : Carries world (world.install scripts) := by
  refine ⟨idle.symm, Nat.le_succ _, [_], rfl, fun runtime installed => ?_⟩
  cases installed
  exact .inl ⟨le_rfl, Nat.lt_succ_self _, fun kind => ⟨[], by simp, rfl⟩⟩

section Requests

variable {inner : Inner} (innerKeeps : ∀ site, Keeps Carries (inner site))

include innerKeeps

theorem carries_finishShutdown (world : World) (idle : world.depth = 0) :
    Carries world (after (finishShutdown inner) world) :=
  finishShutdown_of_remove carries_entityRules.toRequestRules innerKeeps (fun _ _ related => related.depth)
    (fun world id => carries_release world .player id) carries_remove world idle

theorem carries_replace (config : Config) (world : World) (old : Runtime) (idle : world.depth = 0) :
    Carries world (((after (old.shutdown (deleteCreated inner)) (world.taken config)).log (.deleted 0)).install
      config.scripts) := by
  let ended := world.endFrame.log (.reloading 0 world.server.deletions)
  have ends : Carries world ended := trans_of Carries (carries_log world _) (carries_log _ _)
  have removes : Carries ended { ended with runtime := none } := carries_remove ended idle
  have configures : Carries { ended with runtime := none } (world.taken config) :=
    carries_of_runtime rfl rfl (List.append_nil _).symm
  have taken : Carries world (world.taken config) := trans_of Carries ends (trans_of Carries removes configures)
  have deleted := deleted_of_rules carries_entityRules innerKeeps (keeps_afterCallback (carries_finishShutdown innerKeeps))
    old (world.taken config)
  refine trans_of Carries (trans_of Carries taken deleted) (carries_install _ ?_ config.scripts)
  exact deleted.depth

theorem carries_serveRules : ServeRules Carries inner := by
  have finish := carries_finishShutdown innerKeeps
  refine carries_entityRules.serveRules innerKeeps finish ?_ ?_ ?_ ?_ ?_ ?_
  · exact keeps_onPlayerDisconnect carries_entityRules.toRequestRules innerKeeps (keeps_afterCallback finish)
      fun world id => carries_release world .player id
  · intro world _
    exact trans_of Carries (carries_log world .reloadRequested)
      (carries_of_entities (by exact fun _ => rfl) (by exact fun _ => rfl) (by exact fun _ => rfl) _)
  · exact fun world _ => carries_log world _
  · intro world _
    exact trans_of Carries (carries_log world _) (trans_of Carries (carries_log _ .reloadFailed)
      (carries_of_entities (by exact fun _ => rfl) (by exact fun _ => rfl) (by exact fun _ => rfl) _))
  · intro config world old reloads _
    obtain ⟨-, -, -, idle⟩ := reloads_spec reloads
    exact carries_replace innerKeeps config world old idle
  · exact fun world timers transfers =>
      carries_of_entities (by exact fun _ => rfl) (by exact fun _ => rfl) (by exact fun _ => rfl) world

end Requests

theorem carries_perform (behaviour : Behaviour) : Keeps Carries (perform behaviour) :=
  Script.keeps_run (fun op _ innerKeeps => keeps_serve (carries_serveRules innerKeeps) innerKeeps op) behaviour

/-! ## Moments of a run -/

/-- The installed runtime has a serial of its own, and all that happened to its pools are operations. -/
def World.Worked (world : World) : Prop :=
  ∀ runtime, world.runtime = some runtime → runtime.serial < world.nextSerial ∧ runtime.Worked

theorem World.Worked.carries {world world' : World} (worked : world.Worked) (carries : Carries world world') :
    world'.Worked := by
  intro runtime' installed
  obtain ⟨-, serials, new, -, before⟩ := carries
  rcases before runtime' installed with ⟨-, below, worked'⟩ | ⟨runtime, present, operated⟩
  · exact ⟨below, worked'⟩
  · obtain ⟨below, worked'⟩ := worked runtime present
    rw [operated.serial]
    exact ⟨below.trans_le serials, worked'.operated operated⟩

theorem worked_start (existing : EntityKind → Int → Bool) (scripts : ℕ) : (World.start existing scripts).Worked := by
  intro runtime installed
  cases installed
  exact ⟨Nat.one_pos, fun kind => ⟨[], by simp, rfl⟩⟩

/-- The serial of the runtime at this moment. -/
def World.serial (world : World) : Option ℕ := world.runtime.map (·.serial)

/-- A runtime that is not new was there before. -/
theorem World.Worked.old {world world' : World} (worked : world.Worked) (same : world'.serial = world.serial)
    {runtime' : Runtime} (installed : world'.runtime = some runtime') : runtime'.serial < world.nextSerial := by
  rw [World.serial, installed, Option.map_some, World.serial] at same
  obtain ⟨runtime, present, serial⟩ := Option.map_eq_some_iff.mp same.symm
  rw [← serial]
  exact (worked runtime present).1

theorem Carries.operated {world world' : World} (carries : Carries world world') {runtime' : Runtime}
    (installed : world'.runtime = some runtime') (old : runtime'.serial < world.nextSerial) :
    ∃ new runtime, world'.trace = world.trace ++ new ∧ world.runtime = some runtime ∧ Operated new runtime runtime' := by
  obtain ⟨-, -, new, trace, before⟩ := carries
  rcases before runtime' installed with ⟨fresh, -, -⟩ | ⟨runtime, present, operated⟩
  · omega
  · exact ⟨new, runtime, trace, present, operated⟩

section Pools

variable {pool : EntityPool} {id : Int} {generation : Generation}

theorem eq_zero_of_add_ofNat {n : ℕ} (few : n < 2 ^ 32) (same : generation + BitVec.ofNat 32 n = generation) : n = 0 := by
  have number := congrArg BitVec.toNat same
  simp only [BitVec.toNat_add, BitVec.toNat_ofNat] at number
  have bound := generation.isLt
  omega

/-- Lifetimes that end are not those that come back. -/
theorem lifetimes_eq_zero {ops : List PoolOp} (valid : pool.valid id generation = true)
    (later : (runOps pool ops).valid id generation = true) (few : lifetimes pool ops id < 2 ^ 32) :
    lifetimes pool ops id = 0 := by
  rw [valid_iff] at valid later
  obtain ⟨-, now⟩ := later
  rw [generation_runOps, valid.2] at now
  exact eq_zero_of_add_ofNat few now

theorem valid_between {ops ops' : List PoolOp} (valid : pool.valid id generation = true)
    (later : (runOps pool (ops ++ ops')).valid id generation = true) (few : lifetimes pool (ops ++ ops') id < 2 ^ 32) :
    (runOps pool ops).valid id generation = true := by
  have none := lifetimes_eq_zero valid later few
  rw [lifetimes_append] at none
  rw [valid_iff] at valid later ⊢
  rw [runOps_append] at later
  constructor
  · exact alive_of_no_lifetime _ ops' id (by omega) later.1
  · have zero : lifetimes pool ops id = 0 := by omega
    rw [generation_runOps, zero, valid.2]
    exact BitVec.add_zero generation

theorem valid_of_push {handle : EntityHandle} (pushed : (pool.push id generation).1 = some handle) :
    pool.valid id generation = true := by
  unfold push at pushed
  split_ifs at pushed with refused
  rw [Bool.not_eq_true, Bool.or_eq_false_iff, Bool.not_eq_false'] at refused
  exact refused.2

end Pools

theorem pushEntity_eq_ok {kind : EntityKind} {ref : EntityRef} {handle : EntityHandle} {world pushed : World}
    (ran : pushEntity kind ref world = .ok (some handle) pushed) :
    ∃ runtime, world.runtime = some runtime ∧ ((runtime.entities kind).push ref.id ref.generation).1 = some handle ∧
      pushed = world.updateRuntime fun runtime =>
        runtime.updatePool kind (fun pool => (pool.push ref.id ref.generation).2) fun pool => pool.push_kind _ _ := by
  unfold pushEntity at ran
  cases installed : world.runtime with
  | none =>
    rw [installed] at ran
    cases ran
  | some runtime =>
    rw [installed] at ran
    simp only at ran
    split_ifs at ran
    · cases ran
    · simp only [EStateM.Result.ok.injEq] at ran
      exact ⟨runtime, rfl, ran.1, ran.2.symm⟩

/-! ## Two pushes -/

/-- The pools between two pushes. -/
theorem object_iff_ref {kind : EntityKind} {before ops : List PoolOp} {ref ref' : EntityRef} {handle handle' : EntityHandle}
    (first : ((runOps { kind } before).push ref.id ref.generation).1 = some handle)
    (second : ((runOps ((runOps { kind } before).push ref.id ref.generation).2 ops).push ref'.id ref'.generation).1 = some handle')
    (kept : .releaseRefs ∉ ops)
    (few : lifetimes ((runOps { kind } before).push ref.id ref.generation).2 ops ref.id < 2 ^ 32) :
    handle'.object = handle.object ↔ ref' = ref := by
  have valid := valid_of_push first
  have valid' := valid_of_push second
  let lives : Spec.Lives := Spec.Lives.run { kind } before
  have same : runOps { kind } before = lives.toPool := (Spec.toPool_runOps kind before).symm
  have pushed : ((runOps { kind } before).push ref.id ref.generation).2 = (lives.push ref.id ref.generation).2.toPool := by
    rw [same, Spec.toPool_push]
  have fresh : Spec.Fresh (lives.push ref.id ref.generation).2 := by
    have whole := Spec.fresh_run kind (before ++ [.push ref.id ref.generation])
    rwa [Spec.run_append] at whole
  have begun := Spec.begun_run (lives.push ref.id ref.generation).2 ops ref.id
  rw [← pushed] at begun
  rw [pushed, ← Spec.toPool_run, Spec.toPool_push] at second
  rw [same, Spec.toPool_push] at first
  rw [Spec.same_object_iff fresh first second, begun, Spec.begun_push first]
  constructor
  · rintro ⟨id, none, -⟩
    have zero : lifetimes ((runOps { kind } before).push ref.id ref.generation).2 ops ref.id = 0 := by omega
    rw [valid_iff, id, generation_runOps, zero, (sameLife_push _ _ _ _).2] at valid'
    rw [valid_iff] at valid
    have generation : ref'.generation = ref.generation := by
      rw [← valid'.2, valid.2]
      exact BitVec.add_zero _
    cases ref
    cases ref'
    simp only [EntityRef.mk.injEq]
    exact ⟨id, generation⟩
  · rintro rfl
    rw [lifetimes_eq_zero (by rw [valid_push]; exact valid) valid' few]
    exact ⟨rfl, rfl, kept⟩

theorem serial_updatePool (world : World) (kind : EntityKind) (f : EntityPool → EntityPool)
    (sameKind : ∀ pool, (f pool).kind = pool.kind) :
    (world.updateRuntime fun runtime => runtime.updatePool kind f sameKind).serial = world.serial := by
  rw [World.serial, World.serial, updateRuntime, Option.map_map]
  rfl

theorem handles_of_two_pushes {world pushed final : World} {kind : EntityKind} {ref ref' : EntityRef}
    {handle handle' : EntityHandle} {behaviour : Behaviour} (worked : world.Worked)
    (first : pushEntity kind ref world = .ok (some handle) pushed)
    (second : pushEntity kind ref' (after (perform behaviour) pushed) = .ok (some handle') final)
    (same : final.serial = world.serial) :
    ∃ new, final.trace = world.trace ++ new ∧
      (adoptions kind ref.id new < 2 ^ 32 → (handle'.object = handle.object ↔ ref' = ref)) := by
  obtain ⟨runtime, installed, made, rfl⟩ := pushEntity_eq_ok first
  obtain ⟨runtime'', installed'', made', rfl⟩ := pushEntity_eq_ok second
  rw [serial_updatePool, ← serial_updatePool world kind _ fun pool => pool.push_kind ref.id ref.generation] at same
  have old := (worked.carries (carries_push world kind ref.id ref.generation)).old same installed''
  obtain ⟨new, runtime', trace, installed', operated⟩ := (carries_perform behaviour _).operated installed'' old
  rw [updateRuntime, installed] at installed'
  cases installed'
  obtain ⟨before, -, pool⟩ := (worked runtime installed).2 kind
  obtain ⟨ops, kept, pool', few⟩ := operated.pools kind
  rw [Runtime.entities_updatePool, if_pos rfl] at pool' few
  refine ⟨new, trace, fun bound => ?_⟩
  rw [pool'] at made'
  rw [pool] at made made' few
  exact object_iff_ref made made' kept ((few ref.id).trans_lt bound)

theorem stays_invalid {world : World} {kind : EntityKind} {id : Int} {generation : Generation}
    {behaviour behaviour' : Behaviour} (worked : world.Worked) (valid : world.valid kind id generation = true)
    (ended : (after (perform behaviour) world).valid kind id generation = false)
    (same : (after (perform behaviour') (after (perform behaviour) world)).serial = world.serial) :
    ∃ new, (after (perform behaviour') (after (perform behaviour) world)).trace = world.trace ++ new ∧
      (adoptions kind id new < 2 ^ 32 →
        (after (perform behaviour') (after (perform behaviour) world)).valid kind id generation = false) := by
  have one := carries_perform behaviour world
  have two := carries_perform behaviour' (after (perform behaviour) world)
  cases installed : (after (perform behaviour') (after (perform behaviour) world)).runtime with
  | none =>
    obtain ⟨-, -, new, trace, -⟩ := trans_of Carries one two
    refine ⟨new, trace, fun _ => ?_⟩
    rw [World.valid, installed]
    rfl
  | some last =>
    have old := worked.old same installed
    obtain ⟨later, middle, trace', present', operated'⟩ := two.operated installed (old.trans_le one.serials)
    rw [operated'.serial] at old
    obtain ⟨new, first, trace, present, operated⟩ := one.operated present' old
    refine ⟨new ++ later, by rw [trace', trace, List.append_assoc], fun bound => ?_⟩
    obtain ⟨ops, -, pool, few⟩ := operated.pools kind
    obtain ⟨ops', -, pool', few'⟩ := operated'.pools kind
    simp only [World.valid, present, present', installed, Option.any_some] at valid ended ⊢
    rw [Bool.eq_false_iff]
    intro again
    rw [pool', pool, ← runOps_append] at again
    rw [pool, valid_between valid again] at ended
    · cases ended
    · rw [adoptions_append] at bound
      rw [lifetimes_append, ← pool]
      exact (Nat.add_le_add (few id) (few' id)).trans_lt bound

/-- Vehicle 5 is there when the server starts. -/
def oneVehicle : World :=
  after (perform (.single .initialise)) (World.start (fun kind id => kind == .vehicle && id == 5) 0)

/-- Another plugin deletes the vehicle and creates one with the same id. -/
def recreated : Behaviour := .request (.delete .vehicle 5) (fun _ => .ret .returned) (.single (.create .vehicle 5))

end VcmpLua.Model.Plugin
