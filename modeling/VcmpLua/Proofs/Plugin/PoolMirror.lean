import VcmpLua.Proofs.Plugin.EntityRules
import VcmpLua.Proofs.Plugin.Tracking

/-! # Pools mirror the server

Whether a pool agrees with the server at an id is tracked along a run. Agreement is lost while the
server creates or deletes the entity there, and what makes it come back is the adoption in the
created event and the release after the deleted one. The three ways in which this goes wrong are
what `Entry.Sound` excludes.
-/

namespace VcmpLua.Model.Plugin

open Effect VcmpLua.Model.Core World

/-- A lifetime starts only where the server has an entity that it is not deleting, a blip is
released only where the server has none, and no exception gets out of the event of a deletion. -/
def Entry.Sound : Entry → Prop
  | .adopted kind _ alive owner leaving => kind ∈ serverPools → alive = false → owner ≠ none ∧ leaving = false
  | .released .blip _ owner => owner = none
  | .reported (.onEntityPoolChange _ _ true) => False
  | _ => True

instance : DecidablePred Entry.Sound
  | .adopted kind _ alive owner leaving =>
    inferInstanceAs (Decidable (kind ∈ serverPools → alive = false → owner ≠ none ∧ leaving = false))
  | .released .blip _ owner => inferInstanceAs (Decidable (owner = none))
  | .reported (.onEntityPoolChange _ _ true) => isFalse id
  | .released .player .. | .released .vehicle .. | .released .object .. | .released .pickup ..
  | .released .checkpoint .. | .released .bind .. => isTrue trivial
  | .reported .onServerInitialise | .reported .onServerFrame | .reported .reload | .reported .onServerShutdown
  | .reported (.onPlayerConnect _) | .reported (.onPlayerDisconnect _) | .reported (.onEvent _)
  | .reported (.onEntityPoolChange _ _ false) => isTrue trivial
  | .marked .. | .dispatched .. | .called .. | .disconnected .. | .shutdownArrived .. | .shutdownMissed | .shutDown ..
  | .deleted .. | .reloadRequested | .frameEnded .. | .reloadFailed | .reloading .. | .installed .. | .passed ..
  | .swept .. | .removed .. | .rebound .. => isTrue trivial

/-! ## Agreement at one id -/

/-- What is tracked at an id. -/
inductive Mirror where
  /-- The server's ids are in the range of the pool. -/
  | ranged
  /-- What the runtime has, the server has. -/
  | known
  /-- And the other way around, except for what is being deleted. -/
  | agrees
  /-- A deletion is in progress and the runtime has released the entity. -/
  | gone
deriving DecidableEq, Repr

def Mirror.Holds (kind : EntityKind) (id : Int) (view : View) : Mirror → Prop
  | ranged => view.owner ≠ none → inRange kind id = true
  | known => (view.owner ≠ none → inRange kind id = true) ∧
      ∀ sight, view.sight = some sight → sight.alive = true → view.owner ≠ none
  | agrees => (view.owner ≠ none → inRange kind id = true) ∧
      ∀ sight, view.sight = some sight → (sight.alive = true → view.owner ≠ none) ∧
        (sight.enumerated = true → view.owner ≠ none → view.leaving = false → sight.alive = true)
  | gone => view.leaving = true ∧ ∀ sight, view.sight = some sight → sight.alive = false

def mirrors : EntityKind × Int × Mirror → World → Prop :=
  fun (kind, id, mirror) world => kind ∈ serverPools → mirror.Holds kind id (world.view kind id)

abbrev Mirrored : World → World → Prop :=
  Tracked Entry.Sound mirrors (fun (none : Empty) (_ : World) => none.elim)

theorem closed_mirrors (index : EntityKind × Int × Mirror) : Closed (mirrors index) := by
  obtain ⟨kind, id, mirror⟩ := index
  refine ⟨fun world world' calm holds known => ?_, fun world holds known => ?_, fun world holds known => ?_⟩
  · rw [calm.view kind (player_of_serverPools known) id]
    exact holds known
  · rw [view_dead]
    cases mirror <;> simp_all [mirrors, Mirror.Holds, View.blind]
  · rw [view_remove]
    cases mirror <;> simp_all [mirrors, Mirror.Holds, View.blind]

theorem Calm.mirrored {world world' : World} (calm : Calm world world') (depth : world'.depth = world.depth) :
    Mirrored world world' := calm.tracked closed_mirrors nofun depth

/-- An update of one view that keeps what is tracked there. -/
theorem Touch.mirrored {kind : EntityKind} {id : Int} {change : View → View} {entries : List Entry} {world world' : World}
    (touch : Touch kind id change entries world world')
    (keeps : kind ∈ serverPools → (∀ entry ∈ entries, entry.Sound) → ∀ mirror : Mirror,
      mirror.Holds kind id (world.view kind id) → mirror.Holds kind id (change (world.view kind id))) :
    Mirrored world world' := by
  refine ⟨⟨⟨entries, touch.trace.symm⟩, touch.deletions, touch.depth⟩, ?_, nofun⟩
  rintro fine ⟨query, other, mirror⟩ holds known
  have view := touch.view query other
  rw [view]
  split_ifs with same
  · obtain ⟨rfl, rfl⟩ := same
    refine keeps known (fun entry member => fine entry ?_) mirror (holds known)
    rw [touch.trace]
    exact List.mem_append_right _ member
  · exact holds known

/-- An update of the view of a key bind. -/
theorem Touch.mirrored_of_bind {id : Int} {change : View → View} {entries : List Entry} {world world' : World}
    (touch : Touch .bind id change entries world world') : Mirrored world world' :=
  touch.mirrored fun known => absurd known (by decide)

theorem sight_alive {world : World} {kind : EntityKind} {id : Int} {sight : Sight}
    (seen : (world.view kind id).sight = some sight) : world.alive kind id = sight.alive := by
  simp only [World.view, World.live] at seen
  cases installed : world.runtime with
  | none => simp [installed] at seen
  | some runtime =>
    cases lives : runtime.dead with
    | true => simp [installed, Option.filter_some, lives] at seen
    | false =>
      simp only [installed, Option.filter_some, lives, Bool.not_false, ↓reduceIte, Option.map_some, Option.some.injEq] at seen
      rw [← seen]
      simp [World.alive, installed, Runtime.sight]

theorem mirrored_adopt (world : World) (kind : EntityKind) (id : Int) : Mirrored world (world.adopt kind id) := by
  refine (touch_adopt world kind id).mirrored fun known sound mirror holds => ?_
  have fresh := sound _ (List.mem_singleton_self _) known
  have owner : (world.view kind id).owner = world.owner kind id := rfl
  have leaving : (world.view kind id).leaving = world.server.leaving kind id := rfl
  cases seen : (world.view kind id).sight with
  | none =>
    have same : View.update (fun sight => { sight with alive := sight.alive || inRange kind id }) (world.view kind id) =
        world.view kind id := View.ext (by simp [View.update, seen]) rfl rfl
    rw [same]
    exact holds
  | some sight =>
    rw [sight_alive seen] at fresh
    cases mirror <;> simp only [Mirror.Holds, View.update, seen, Option.map_some, Option.some.injEq, forall_eq',
      owner, leaving] at holds ⊢ <;> cases alive : sight.alive <;> simp_all

/-- A release where the server has nothing. -/
theorem mirrored_release {world : World} {kind : EntityKind} {id : Int}
    (free : kind ∈ serverPools → kind ≠ .blip → world.owner kind id = none) : Mirrored world (world.release kind id) := by
  refine (touch_release world kind id).mirrored fun known sound mirror holds => ?_
  have owner : (world.view kind id).owner = none := by
    by_cases blip : kind = .blip
    · subst blip
      exact sound _ (List.mem_singleton_self _)
    · exact free known blip
  cases seen : (world.view kind id).sight <;> cases mirror <;> simp_all [Mirror.Holds, View.update]

theorem mirrored_markCreatedByUs (world : World) (serial : ℕ) (kind : EntityKind) (id : Int) :
    Mirrored world (world.markCreatedByUs serial kind id) := by
  refine (touch_markCreatedByUs world serial kind id).mirrored fun _ _ mirror holds => ?_
  cases seen : (world.view kind id).sight <;> cases mirror <;> simp_all [Mirror.Holds, View.update]

/-- Everything that the server has is adopted before the runtime counts as having enumerated. -/
theorem mirrored_enumerate (world : World) : Mirrored world (enumerate world) := by
  let adopted := ((enumeratedKinds.flatMap kindIds).filter fun entity => world.server.exists? entity.1 entity.2).foldl
    (fun world entity => world.adopt entity.1 entity.2) world
  have adopts : Mirrored world adopted := adoptAll_of_rules mirrored_adopt _ world
  have flags : ∀ kind id, (enumerate world).view kind id =
      (adopted.view kind id).update fun sight => { sight with enumerated := true } := fun kind id =>
    view_updateRuntime _ (by exact fun _ => rfl) (by exact fun _ => rfl) adopted
  refine ⟨⟨adopts.trace, adopts.deletions, (depth_updateRuntime (by exact fun _ => rfl) _).trans adopts.depth⟩, ?_, ?_⟩
  rotate_left
  · rintro _ _ hold
    cases hold
  rintro fine ⟨kind, id, mirror⟩ holds known
  have kept := adopts.always fine ⟨kind, id, mirror⟩ holds known
  cases mirror with
  | ranged => simpa [flags, Mirror.Holds, View.update] using kept
  | known =>
    rw [flags]
    cases seen : (adopted.view kind id).sight <;> simp_all [Mirror.Holds, View.update]
  | gone =>
    rw [flags]
    cases seen : (adopted.view kind id).sight <;> simp_all [Mirror.Holds, View.update]
  | agrees =>
    obtain ⟨ranged, agree⟩ := holds known
    rw [view_enumerate]
    refine ⟨ranged, fun sight seen => ?_⟩
    simp only [View.update] at seen
    obtain ⟨before, here, rfl⟩ := Option.map_eq_some_iff.mp seen
    have owner : (world.view kind id).owner = world.server.entities kind id := rfl
    have alive := (agree before here).1
    cases has : world.server.entities kind id <;> simp_all [View.update, Server.exists?]

/-! ## Creations and deletions -/

section Requests

variable {inner : Inner}

theorem mirrored_requestRules : RequestRules Mirrored :=
  tracked_requestRules closed_mirrors nofun mirrored_adopt mirrored_enumerate

variable (innerKeeps : ∀ site, Keeps Mirrored (inner site))

include innerKeeps

theorem mirrored_finishShutdown (world : World) (idle : world.depth = 0) :
    Mirrored world (after (finishShutdown inner) world) :=
  finishShutdown_of_remove mirrored_requestRules innerKeeps (fun _ _ tracked => tracked.depth)
    (tracked_releasePlayer closed_mirrors nofun) (tracked_remove closed_mirrors nofun) world idle

theorem mirrored_afterCallback : Keeps Mirrored (afterCallback inner) :=
  keeps_afterCallback (mirrored_finishShutdown innerKeeps)

omit innerKeeps in
/-- The id that is created gets a view that agrees, whatever happens before the runtime is told. -/
theorem agrees_of_adopted {ready final : World} {kind : EntityKind} {id : Int} (known : kind ∈ serverPools)
    (range : inRange kind id = true) (holds : Mirror.known.Holds kind id (ready.view kind id))
    (told : (ready.live = none ∧ Mirrored ready final) ∨ Mirrored (ready.adopt kind id) final) (fine : final.Fine Entry.Sound) :
    Mirror.agrees.Holds kind id (final.view kind id) := by
  rcases told with ⟨gone, told⟩ | told
  · refine told.always fine ⟨kind, id, .agrees⟩ (fun _ => ?_) known
    have blind : (ready.view kind id).sight = none := by simp [World.view, gone]
    exact ⟨holds.1, fun sight seen => by simp [blind] at seen⟩
  · refine told.always fine ⟨kind, id, .agrees⟩ (fun _ => ?_) known
    have kept := (mirrored_adopt ready kind id).always (told.fine fine) ⟨kind, id, .known⟩ (fun _ => holds) known
    refine ⟨kept.1, fun sight seen => ⟨kept.2 sight seen, fun _ _ _ => ?_⟩⟩
    rw [view_adopt, if_pos ⟨rfl, rfl⟩] at seen
    obtain ⟨before, -, rfl⟩ := Option.map_eq_some_iff.mp seen
    simp [range]

theorem mirrored_createEntity (kind : EntityKind) (id : Int) (owner : Owner) :
    Keeps Mirrored (createEntity kind id owner inner) := by
  intro world
  rcases createEntity_path mirrored_requestRules innerKeeps (mirrored_afterCallback innerKeeps) kind id owner world with
    refused | ⟨ready, final, range, free, result, started, told⟩
  · rw [after_of_ok refused]
    exact refl_of Mirrored world
  · rw [after_of_ok result]
    have touch := touch_setEntity world kind id (some owner)
    have rest : Mirrored (world.setEntity kind id (some owner)) final := by
      rcases told with ⟨-, told⟩ | told
      · exact trans_of Mirrored started told
      · exact trans_of Mirrored started (trans_of Mirrored (mirrored_adopt ready kind id) told)
    refine ⟨⟨rest.trace, rest.deletions, rest.depth⟩, ?_, nofun⟩
    rintro fine ⟨query, other, mirror⟩ holds pool
    by_cases same : query = kind ∧ other = id
    · obtain ⟨rfl, rfl⟩ := same
      have view := touch.view query other
      rw [if_pos ⟨rfl, rfl⟩] at view
      have known : mirrors ⟨query, other, .known⟩ (world.setEntity query other (some owner)) := by
        intro _
        rw [view]
        exact ⟨fun _ => range, fun _ _ _ => nofun⟩
      cases mirror with
      | ranged => exact ((rest.always fine ⟨query, other, .known⟩ known) pool).1
      | known => exact rest.always fine ⟨query, other, .known⟩ known pool
      | gone =>
        refine rest.always fine ⟨query, other, .gone⟩ (fun _ => ?_) pool
        rw [view]
        exact holds pool
      | agrees =>
        refine agrees_of_adopted pool range ?_ told fine
        refine started.always ?_ ⟨query, other, .known⟩ known pool
        rcases told with ⟨-, told⟩ | told
        · exact told.fine fine
        · exact (mirrored_adopt ready query other).fine (told.fine fine)
    · refine rest.always fine ⟨query, other, mirror⟩ (fun _ => ?_) pool
      rw [touch.view, if_neg same]
      exact holds pool

omit innerKeeps in
/-- After the event of a deletion, what the released view has is tracked to the end. -/
theorem holds_of_released {told last : World} {kind : EntityKind} {id : Int} (known : kind ∈ serverPools)
    (ending : (told.live = none ∧ Mirrored told last) ∨ Mirrored (told.release kind id) last ∨
      Mirrored (told.log (.reported (.onEntityPoolChange kind id true))) last) (fine : last.Fine Entry.Sound)
    {mirror : Mirror} (blind : (told.view kind id).sight = none → mirror.Holds kind id (told.view kind id))
    (released : (kind = .blip → told.owner kind id = none) →
      mirror.Holds kind id ((told.release kind id).view kind id)) : mirror.Holds kind id (last.view kind id) := by
  rcases ending with ⟨gone, heard⟩ | heard | heard
  · exact heard.always fine ⟨kind, id, mirror⟩ (fun _ => blind (by simp [World.view, gone])) known
  · refine heard.always fine ⟨kind, id, mirror⟩ (fun _ => released fun blip => ?_) known
    subst blip
    exact heard.fine fine (.released .blip id (told.owner .blip id)) (List.mem_append_right _ (List.mem_singleton_self _))
  · exact (heard.fine fine _ (List.mem_append_right _ (List.mem_singleton_self _))).elim

omit innerKeeps in
/-- What was deleted has a view that agrees, whatever happens around the event. -/
theorem agrees_of_released {world told last : World} {kind : EntityKind} {id : Int} (known : kind ∈ serverPools)
    (stays : world.server.leaving kind id = false) (started : Mirrored (beginDeletion kind id world) told)
    (deletions : last.server.deletions = (kind, id) :: world.server.deletions)
    (ending : (told.live = none ∧ Mirrored told last) ∨ Mirrored (told.release kind id) last ∨
      Mirrored (told.log (.reported (.onEntityPoolChange kind id true))) last)
    (fine : last.Fine Entry.Sound) (earlier : told.Fine Entry.Sound) :
    Mirror.agrees.Holds kind id ((endDeletion kind id last).view kind id) := by
  have once : kind ≠ .blip → (kind, id) ∉ world.server.deletions := by
    intro notBlip member
    rw [(leaving_iff _ _ _).mpr ⟨notBlip, member⟩] at stays
    cases stays
  have view := view_beginDeletion world kind id kind id
  rw [if_pos ⟨rfl, rfl⟩] at view
  rw [view_endDeletion deletions once]
  by_cases blip : kind = .blip
  · rw [if_neg fun both => both.2 blip]
    have ranged : Mirror.ranged.Holds kind id (told.view kind id) := by
      refine started.always earlier ⟨kind, id, .ranged⟩ (fun _ => ?_) known
      rw [view, if_pos blip]
      exact fun some => absurd rfl some
    refine holds_of_released known ending fine (fun gone => ⟨ranged, by simp [gone]⟩) fun free => ?_
    rw [view_release, if_pos ⟨rfl, rfl⟩]
    have owner : (told.view kind id).owner = none := free blip
    refine ⟨ranged, fun sight seen => ?_⟩
    obtain ⟨before, -, rfl⟩ := Option.map_eq_some_iff.mp seen
    simp [View.update, owner]
  · have leaves : (told.view kind id).leaving = true := by
      refine (leaving_iff _ _ _).mpr ⟨blip, ?_⟩
      rw [started.deletions, deletions_beginDeletion]
      exact List.mem_cons_self ..
    have gone : Mirror.gone.Holds kind id (last.view kind id) := by
      refine holds_of_released known ending fine (fun gone => ⟨leaves, by simp [gone]⟩) fun _ => ?_
      rw [view_release, if_pos ⟨rfl, rfl⟩]
      refine ⟨leaves, fun sight seen => ?_⟩
      obtain ⟨before, -, rfl⟩ := Option.map_eq_some_iff.mp seen
      rfl
    rw [if_pos ⟨⟨rfl, rfl⟩, blip⟩]
    refine ⟨fun some => absurd rfl some, fun sight seen => ⟨fun alive => ?_, fun _ some => absurd rfl some⟩⟩
    rw [gone.2 sight seen] at alive
    cases alive

theorem mirrored_deleteEntity (kind : EntityKind) (id : Int) {before after' : EStateM Empty World Ending}
    (beforeKeeps : Keeps Mirrored before) (afterKeeps : Keeps Mirrored after') :
    Keeps Mirrored (deleteEntity kind id before after' inner) := by
  intro world
  rcases deleteEntity_path mirrored_requestRules innerKeeps (mirrored_afterCallback innerKeeps) kind id beforeKeeps afterKeeps
    world with refused | ⟨told, last, -, stays, result, started, ending⟩
  · rw [after_of_ok refused]
    exact refl_of Mirrored world
  · rw [after_of_ok result]
    have rest : Grows told last := by
      rcases ending with ⟨-, heard⟩ | heard | heard
      · exact heard.toGrows
      · exact (touch_release told kind id).grows.trans heard.toGrows
      · exact (grows_log told _).trans heard.toGrows
    have grows : Grows world (endDeletion kind id last) := (started.toGrows.trans rest).deletion
    have deletions : last.server.deletions = (kind, id) :: world.server.deletions := by
      rw [rest.deletions, started.deletions, deletions_beginDeletion]
    refine ⟨grows, ?_, nofun⟩
    rintro later ⟨query, other, mirror⟩ holds pool
    have fine : last.Fine Entry.Sound := by
      rwa [World.Fine, trace_endDeletion] at later
    by_cases same : query = kind ∧ other = id
    · obtain ⟨rfl, rfl⟩ := same
      have agrees := agrees_of_released pool stays started deletions ending fine (rest.fine fine)
      cases mirror with
      | agrees => exact agrees
      | ranged => exact agrees.1
      | known => exact ⟨agrees.1, fun sight seen => (agrees.2 sight seen).1⟩
      | gone =>
        have leaving : (world.view query other).leaving = true := (holds pool).1
        exact absurd (stays.symm.trans leaving) (by decide)
    · have once : kind ≠ .blip → (kind, id) ∉ world.server.deletions := by
        intro notBlip member
        rw [(leaving_iff _ _ _).mpr ⟨notBlip, member⟩] at stays
        cases stays
      rw [view_endDeletion deletions once, if_neg fun both => same both.1]
      have told : mirrors ⟨query, other, mirror⟩ told := by
        refine started.always (rest.fine fine) _ fun _ => ?_
        rw [view_beginDeletion, if_neg same]
        exact holds pool
      rcases ending with ⟨-, heard⟩ | heard | heard
      · exact heard.always fine _ told pool
      · refine heard.always fine ⟨query, other, mirror⟩ (fun _ => ?_) pool
        rw [view_release, if_neg same]
        exact told pool
      · exact heard.always fine ⟨query, other, mirror⟩ told pool

/-! ## Bindings -/

omit innerKeeps in
theorem mirrored_created (runtime : Runtime) (kind : EntityKind) (result : Option Int) :
    Keeps Mirrored (created runtime kind result) := by
  cases result with
  | none => exact keeps_throw _
  | some id =>
    refine (keeps_modify fun world => mirrored_adopt world kind id).bind fun _ => ?_
    exact (keeps_modify fun world => mirrored_markCreatedByUs world _ kind id).bind fun _ => keeps_pure _

omit innerKeeps in
theorem mirrored_removeBind (id : Int) : Keeps Mirrored (removeBind id) := by
  refine (keeps_modify fun world => (touch_setEntity world .bind id none).mirrored_of_bind).bind fun _ => ?_
  exact (keeps_modify fun world => (touch_release world .bind id).mirrored_of_bind).bind fun _ => keeps_pure _

omit innerKeeps in
theorem mirrored_log (world : World) (entry : Entry) : Mirrored world (world.log entry) :=
  ⟨grows_log world entry, fun _ _ holds => holds, nofun⟩

omit innerKeeps in
theorem mirrored_checkLive (kind : EntityKind) (id : Int) (generation : Generation) :
    Keeps Mirrored (checkLive kind id generation) := by
  refine (keeps_requireEntity kind id generation).bind fun _ => ?_
  split_ifs with bind
  · refine keeps_get.bind fun world => ?_
    split_ifs
    · exact (keeps_modify fun world => (touch_release world .bind id).mirrored_of_bind).bind fun _ => keeps_throw _
    · exact keeps_pure _
  · exact keeps_pure _

theorem mirrored_destroy (kind : EntityKind) (notBlip : kind ≠ .blip) (id : Int) (generation : Generation) :
    Keeps Mirrored (destroy kind id generation inner) := by
  refine (mirrored_checkLive kind id generation).bind fun _ world => ?_
  have deletes := mirrored_deleteEntity innerKeeps kind id (innerKeeps .before) (innerKeeps .after) world
  rcases deleteEntity_cases kind id (inner .before) (inner .after) inner world with refused | ⟨-, -, result⟩
  · simp only [after, bind_of_ok (safely_of_ok refused)]
    exact refl_of Mirrored world
  · rw [after_of_ok result] at deletes
    simp only [after, bind_of_ok (safely_of_ok result), Bool.not_true, Bool.false_eq_true, ↓reduceIte, modify_bind]
    refine trans_of Mirrored deletes (mirrored_release fun _ _ => ?_)
    exact owner_endDeletion notBlip _ id

theorem mirrored_destroyBlip (id : Int) : Keeps Mirrored (destroyBlip id inner) := by
  refine keeps_requireRuntime.bind fun _ => ?_
  refine (mirrored_deleteEntity innerKeeps _ _ (innerKeeps .before) (innerKeeps .after)).safely.bind fun _ => ?_
  exact (keeps_modify fun world => mirrored_release fun _ notBlip => absurd rfl notBlip).bind fun _ => keeps_pure _

omit innerKeeps in
theorem mirrored_updateRuntime {f : Runtime → Runtime} (serial : ∀ runtime, (f runtime).serial = runtime.serial)
    (dead : ∀ runtime, (f runtime).dead = runtime.dead) (invoker : ∀ runtime, (f runtime).invoker = runtime.invoker)
    (sight : ∀ runtime, ∀ kind ≠ .player, ∀ id, (f runtime).sight kind id = runtime.sight kind id) (world : World) :
    Mirrored world (world.updateRuntime f) :=
  tracked_updateRuntime closed_mirrors nofun serial dead invoker sight world

theorem mirrored_bindingRules : BindingRules Mirrored inner where
  toEmitRules := mirrored_requestRules.toEmitRules
  create kind _ id := keeps_requireRuntime.bind fun runtime =>
    (mirrored_createEntity innerKeeps kind id _).safely.bind fun result => mirrored_created runtime kind result
  destroy kind known := mirrored_destroy innerKeeps kind (by rintro rfl; revert known; decide)
  destroyBlip := mirrored_destroyBlip innerKeeps
  createBind slot keys := by
    refine keeps_requireRuntime.bind fun runtime => keeps_get.bind fun world => ?_
    split_ifs
    · exact keeps_throw _
    · refine (keeps_modify fun world => (touch_setEntity world .bind slot _).mirrored_of_bind).bind fun _ => ?_
      exact mirrored_created runtime .bind _
  removeBind := mirrored_removeBind
  clearAllBinds := keeps_requireRuntime.bind fun runtime => (keeps_forEach fun id _ =>
    (keeps_modify fun world => mirrored_log world _).bind fun _ =>
      (mirrored_removeBind id).bind fun _ => keeps_pure _).bind fun _ => keeps_pure _
  checkLive := mirrored_checkLive
  kickPlayer := keeps_kickPlayer mirrored_requestRules innerKeeps (keeps_onPlayerDisconnect mirrored_requestRules innerKeeps
    (mirrored_afterCallback innerKeeps) (tracked_releasePlayer closed_mirrors nofun))
  requestReload world := trans_of Mirrored (mirrored_log world _) (mirrored_updateRuntime (by exact fun _ => rfl)
    (by exact fun _ => rfl) (by exact fun _ => rfl) (by exact fun _ _ _ _ => rfl) _)

theorem mirrored_deleteCreated (runtime : Runtime) : Keeps Mirrored (deleteCreated inner runtime) := by
  have sweeps : ∀ (world : World) sweeping, Mirrored world { world with sweeping } := by
    intro world sweeping
    exact ⟨⟨List.prefix_refl _, rfl, rfl⟩, fun _ _ holds => holds, nofun⟩
  refine (keeps_modify fun world => sweeps world _).bind fun _ => ?_
  refine (keeps_forEach fun entity _ => ?_).bind fun _ => (keeps_forEach fun id _ => ?_).bind fun _ => ?_
  · refine (keeps_modify fun world => mirrored_log world _).bind fun _ => ?_
    exact (mirrored_deleteEntity innerKeeps _ _ (innerKeeps _) (innerKeeps _)).bind fun _ => keeps_pure _
  · exact keeps_modify fun world =>
      trans_of Mirrored (mirrored_log world _) (touch_setEntity _ .bind id none).mirrored_of_bind
  · exact keeps_modify fun world => trans_of Mirrored (mirrored_log world _) (sweeps _ none)

omit innerKeeps in
theorem mirrored_install (scripts : ℕ) (world : World) (idle : world.depth = 0) :
    Mirrored world (world.install scripts) := by
  refine ⟨⟨⟨[_], rfl⟩, rfl, idle.symm⟩, ?_, nofun⟩
  rintro - ⟨kind, id, mirror⟩ holds known
  have before := holds known
  rw [view_install]
  cases mirror <;> simp_all [Mirror.Holds]

theorem mirrored_replace (config : Config) (world : World) (old : Runtime) (idle : world.depth = 0) :
    Mirrored world (((after (old.shutdown (deleteCreated inner)) (world.taken config)).log (.deleted 0)).install
      config.scripts) := by
  let ended := world.endFrame.log (.reloading 0 world.server.deletions)
  have ends : Mirrored world ended := trans_of Mirrored (mirrored_log world _) (mirrored_log _ _)
  have removes : Mirrored ended { ended with runtime := none } := tracked_remove closed_mirrors nofun ended idle
  have configures : Mirrored { ended with runtime := none } (world.taken config) :=
    (calm_of_eq (by rfl) (by rfl) (by rfl) (by rfl) (by rfl)).mirrored (by rfl)
  have taken : Mirrored world (world.taken config) := trans_of Mirrored ends (trans_of Mirrored removes configures)
  have closed := keeps_shutdown (fun world entry _ => mirrored_log world entry) (mirrored_deleteCreated innerKeeps) old
  have deleted := trans_of Mirrored (trans_of Mirrored taken (closed _)) (mirrored_log _ (.deleted 0))
  exact trans_of Mirrored deleted (mirrored_install config.scripts _ (deleted.depth.trans idle))

theorem mirrored_serveRules : ServeRules Mirrored inner where
  toRequestRules := mirrored_requestRules
  finishShutdown := mirrored_finishShutdown innerKeeps
  disconnect := keeps_onPlayerDisconnect mirrored_requestRules innerKeeps (mirrored_afterCallback innerKeeps)
    (tracked_releasePlayer closed_mirrors nofun)
  endFrame world _ := mirrored_log world _
  cancelReload world _ := trans_of Mirrored (mirrored_log world _) (trans_of Mirrored (mirrored_log _ _)
    (mirrored_updateRuntime (by exact fun _ => rfl) (by exact fun _ => rfl) (by exact fun _ => rfl)
      (by exact fun _ _ _ _ => rfl) _))
  replace config world old reloads _ := by
    obtain ⟨-, -, -, idle⟩ := reloads_spec reloads
    exact mirrored_replace innerKeeps config world old idle
  modules world timers transfers := mirrored_updateRuntime (by exact fun _ => rfl) (by exact fun _ => rfl)
    (by exact fun _ => rfl) (by exact fun _ _ _ _ => rfl) world
  create kind _ id := mirrored_createEntity innerKeeps kind id .other
  delete kind _ id := (keeps_modify fun world => mirrored_log world _).bind fun _ =>
    mirrored_deleteEntity innerKeeps kind id (innerKeeps .before) (innerKeeps .after)
  register slot _ world := trans_of Mirrored (mirrored_log world _) (touch_setEntity _ .bind slot _).mirrored_of_bind
  remove slot world := trans_of Mirrored (mirrored_log world _) (touch_setEntity _ .bind slot _).mirrored_of_bind
  bindings := (mirrored_bindingRules innerKeeps).inCall

end Requests

/-! ## Runs -/

theorem mirrored_perform (behaviour : Behaviour) : Keeps Mirrored (perform behaviour) :=
  Script.keeps_run (fun op _ innerKeeps => keeps_serve (mirrored_serveRules innerKeeps) innerKeeps op) behaviour

theorem agrees_start (existing : EntityKind → Int → Bool) (scripts : ℕ) (kind : EntityKind) (id : Int) :
    Mirror.agrees.Holds kind id ((World.start existing scripts).view kind id) := by
  have owner : ((World.start existing scripts).view kind id).owner =
      if existing kind id && inRange kind id then some .other else none := rfl
  refine ⟨fun owned => ?_, fun sight seen => ?_⟩
  · by_contra outside
    rw [owner, Bool.not_eq_true _ |>.mp outside, Bool.and_false] at owned
    exact owned rfl
  · have fresh : sight = ⟨0, false, false, false⟩ := by
      simpa [World.start, World.view, World.live, Option.filter_some, Runtime.sight, EntityPool.alive, EntityPool.made,
        EntityPool.slot, eq_comm] using seen
    rw [fresh]
    exact ⟨fun alive => absurd alive Bool.false_ne_true, fun enumerated => absurd enumerated Bool.false_ne_true⟩

/-- As long as every entry is sound, the pools of a runtime that has enumerated the server have
exactly what the server has whenever nothing is in progress. -/
theorem pools_mirror_server (existing : EntityKind → Int → Bool) (scripts : ℕ) (behaviour : Behaviour)
    (sound : ∀ entry ∈ (after (perform behaviour) (World.start existing scripts)).trace, entry.Sound) :
    let final := after (perform behaviour) (World.start existing scripts)
    ∀ runtime, final.runtime = some runtime → runtime.usable = true → runtime.enumerated = true →
      ∀ kind ∈ serverPools, ∀ id, (runtime.entities kind).alive id = final.server.exists? kind id := by
  intro final runtime installed usable enumerated kind known id
  have tracked := mirrored_perform behaviour (World.start existing scripts)
  have agrees : Mirror.agrees.Holds kind id (final.view kind id) :=
    tracked.always sound ⟨kind, id, .agrees⟩ (fun _ => agrees_start existing scripts kind id) known
  have lives : runtime.dead = false := by
    simp only [Runtime.usable, Bool.and_eq_true, Bool.not_eq_true'] at usable
    exact usable.2
  have seen : (final.view kind id).sight = some (runtime.sight kind id) := by
    simp [World.view, World.live, installed, Option.filter_some, lives]
  have stays : (final.view kind id).leaving = false := by
    have none : final.server.deletions = [] := tracked.deletions
    simp [World.view, Server.leaving, none]
  obtain ⟨alive, complete⟩ := agrees.2 _ seen
  rw [Bool.eq_iff_iff]
  have owned : (final.view kind id).owner ≠ none ↔ final.server.exists? kind id = true := by
    rw [Server.exists?, Option.isSome_iff_ne_none]
    rfl
  exact ⟨fun isAlive => owned.mp (alive isAlive), fun has => complete enumerated (owned.mpr has) stays⟩

/-- A script handles pool events, and a timer creates a vehicle. -/
def vehicleFromTimer (inEvent : Behaviour) : Behaviour :=
  .request .initialise (.only (.script 0) (.single (.lua (.bind Event.entityPoolChange.index 0))))
    (.request (.frame 1 0 .configFails)
      (.only (.timer 0) (.request (.lua (.create .vehicle 5)) (.only (.handler .event 0) inEvent) (.ret .returned)))
      (.ret .returned))

theorem exists_of_any {world : World} {check : Runtime → Bool} (found : world.runtime.any check = true) :
    ∃ runtime, world.runtime = some runtime ∧ check runtime = true := by
  cases installed : world.runtime with
  | none => simp [installed] at found
  | some runtime => exact ⟨runtime, rfl, by simpa [installed] using found⟩

theorem pools_mirror_server_vehicle :
    let final := after (perform (vehicleFromTimer (.ret .returned))) (World.start (fun _ _ => false) 1)
    ∃ runtime, final.runtime = some runtime ∧ runtime.usable = true ∧ runtime.enumerated = true ∧
      (runtime.entities .vehicle).alive 5 = final.server.exists? .vehicle 5 := by
  intro final
  have run : (∀ entry ∈ final.trace, entry.Sound) ∧
      final.runtime.any (fun runtime => runtime.usable && runtime.enumerated) = true := by
    decide +kernel
  obtain ⟨runtime, installed, checked⟩ := exists_of_any run.2
  obtain ⟨usable, enumerated⟩ := Bool.and_eq_true_iff.mp checked
  exact ⟨runtime, installed, usable, enumerated, pools_mirror_server (fun _ _ => false) 1
    (vehicleFromTimer (.ret .returned)) run.1 runtime installed usable enumerated .vehicle (by decide) 5⟩

/-- The handler destroys the vehicle before `Create*` has returned: it comes back in the pool. -/
theorem destroyed_in_event_stays_alive :
    let final := after (perform (vehicleFromTimer (.single (.lua (.destroy .vehicle 5 1))))) (World.start (fun _ _ => false) 1)
    ∃ runtime, final.runtime = some runtime ∧ (runtime.usable && runtime.enumerated) = true ∧
      (runtime.entities .vehicle).alive 5 = true ∧ final.server.exists? .vehicle 5 = false := by
  intro final
  have run : final.runtime.any (fun runtime => (runtime.usable && runtime.enumerated) &&
      (runtime.entities .vehicle).alive 5) = true ∧ final.server.exists? .vehicle 5 = false := by
    decide +kernel
  obtain ⟨runtime, installed, checked⟩ := exists_of_any run.1
  obtain ⟨checked, alive⟩ := Bool.and_eq_true_iff.mp checked
  exact ⟨runtime, installed, checked, alive, run.2⟩

end VcmpLua.Model.Plugin
