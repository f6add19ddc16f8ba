import VcmpLua.Proofs.Plugin.Ownership

/-! # `DeleteCreated` and `clearAllBinds`

Every request keeps what is tracked about the marks of the runtime, and `DeleteCreated` passes to the
server exactly what is marked. So in a run that is honest in the sense of `Entry.Honest` everything
that is passed is the runtime's own, and nothing of it is left.
-/

namespace VcmpLua.Model.Plugin

open Effect VcmpLua.Model.Core World

/-! ## Requests -/

/-- The server has what the runtime creates, but the runtime does not know yet. -/
theorem Stake.Holds.place {kind : EntityKind} {spot : Spot} {stake : Stake} (before : stake.Holds kind spot)
    (free : spot.view.owner = none) {serial : ℕ} (current : spot.current = some serial) :
    (if stake = .settled then Stake.half else stake).Holds kind
      { spot with view := { spot.view with owner := some (.runtime serial) } } := by
  cases seen : spot.view.sight <;> cases stake <;> simp_all [Stake.Holds, Spot.Bounded]

instance : IsPreorder World (InCall Owns) := inCall_preorder owns_requestRules

theorem staked_log {kind : EntityKind} {id : Int} {stake : Stake} {world : World} {entry : Entry}
    (right : entry.Right kind id) (staked : Staked kind id stake world) : Staked kind id stake (world.log entry) :=
  staked.of_spot ⟨[entry], rfl, fun _ member => List.mem_singleton.mp member ▸ right⟩ fun before => before

theorem owns_log (world : World) {entry : Entry} (right : ∀ kind id, entry.Right kind id) : Owns world (world.log entry) := by
  have staked : ∀ kind id stake, Staked kind id stake world → Staked kind id stake (world.log entry) :=
    fun kind id stake => staked_log (right kind id)
  refine ⟨grows_log world entry, fun _ index before notHalf => staked _ _ _ (before notHalf), fun _ _ hold before => ?_⟩
  cases hold with
  | half kind id => exact staked kind id .half before
  | current serial => exact before

theorem owns_updateRuntime {f : Runtime → Runtime} (serial : ∀ runtime, (f runtime).serial = runtime.serial)
    (dead : ∀ runtime, (f runtime).dead = runtime.dead) (invoker : ∀ runtime, (f runtime).invoker = runtime.invoker)
    (sight : ∀ runtime, ∀ kind ≠ .player, ∀ id, (f runtime).sight kind id = runtime.sight kind id) (world : World) :
    Owns world (world.updateRuntime f) := tracked_updateRuntime closed_stakes closed_holds serial dead invoker sight world

section Bindings

variable {inner : Inner} (innerKeeps : ∀ site, Keeps Owns (inner site))

include innerKeeps

theorem owns_deleteEntity {kind : EntityKind} {id : Int} {before after' : EStateM Empty World Ending}
    (beforeKeeps : Keeps Owns before) (afterKeeps : Keeps Owns after') {world : World}
    (unheld : (after (deleteEntity kind id before after' inner) world).Fine Entry.Honest →
      ∀ serial, ¬(Stake.held serial).Holds kind (world.spot kind id)) :
    Owns world (after (deleteEntity kind id before after' inner) world) := by
  rcases deleteEntity_owns innerKeeps kind id beforeKeeps afterKeeps world with refused | ⟨told, last, result, deletion⟩
  · rw [after_of_ok refused]
    exact refl_of Owns world
  · rw [after_of_ok result] at unheld ⊢
    have staked : (endDeletion kind id last).Fine Entry.Honest → ∀ query other stake, (stake = .half → 0 < world.depth) →
        Staked query other stake world → Staked query other stake (endDeletion kind id last) := by
      intro later query other stake inside staked
      have fine : last.Fine Entry.Honest := by rwa [World.Fine, trace_endDeletion] at later
      by_cases same : query = kind ∧ other = id
      · obtain ⟨rfl, rfl⟩ := same
        intro notPlayer
        refine deletion.here fine ?_ inside staked notPlayer
        rintro serial rfl
        exact unheld later serial (staked notPlayer).2
      · exact deletion.elsewhere same fine inside staked
    refine ⟨deletion.grows, fun later index held notHalf => staked later _ _ _ (fun half => absurd half notHalf) (held notHalf),
      fun later inCall hold held => ?_⟩
    cases hold with
    | half query other => exact staked later query other .half (fun _ => inCall) held
    | current number =>
      have fine : last.Fine Entry.Honest := by rwa [World.Fine, trace_endDeletion] at later
      have begins := (beginDeletion_spec kind id world).1
      have begun : holds (.current number) (beginDeletion kind id world) := by
        simpa only [holds, (runtime_deletion kind id world).1] using held
      have told := deletion.started.inside (deletion.rest.fine fine) (begins.symm ▸ inCall) _ begun
      have kept := deletion.rest.inside fine ((deletion.started.depth.trans begins).symm ▸ inCall) _ told
      simpa only [holds, (runtime_deletion kind id last).2] using kept

omit innerKeeps in
/-- Inside of a call nothing waits for `DeleteCreated`. -/
theorem unheld_in_call {world : World} (inCall : 0 < world.depth) (kind : EntityKind) (id : Int) (serial : ℕ) :
    ¬(Stake.held serial).Holds kind (world.spot kind id) := by
  rintro ⟨-, gone, -⟩
  cases installed : world.runtime with
  | none => simp [World.depth, installed] at inCall
  | some runtime => simp [spot_current installed] at gone

theorem owns_deleteByOther (kind : EntityKind) (id : Int) : Keeps Owns (deleteByOther kind id inner) := by
  intro world
  let logged := world.log (.removed kind id (world.owner kind id) world.sweeping)
  have same : after (deleteByOther kind id inner) world =
      after (deleteEntity kind id (inner .before) (inner .after) inner) logged := rfl
  rw [same]
  refine trans_of Owns (owns_requestRules.plain world _ (by trivial) : Owns world logged) ?_
  refine owns_deleteEntity innerKeeps (innerKeeps _) (innerKeeps _) fun fine serial held => ?_
  have grows : logged.trace <+: (after (deleteEntity kind id (inner .before) (inner .after) inner) logged).trace := by
    rcases deleteEntity_owns innerKeeps kind id (innerKeeps .before) (innerKeeps .after) logged with
      refused | ⟨told, last, result, deletion⟩
    · rw [after_of_ok refused]
    · rw [after_of_ok result]
      exact deletion.grows.trace
  have honest := fine (.removed kind id (world.owner kind id) world.sweeping)
    (grows.subset (List.mem_append_right _ (List.mem_singleton_self _)))
  obtain ⟨-, -, sweeping, owner, -⟩ := held
  have sweeps : world.sweeping = some serial := sweeping
  have owned : world.owner kind id = some (.runtime serial) := owner
  simp [Entry.Honest, sweeps, owned] at honest

omit innerKeeps in
theorem owns_checkLive (kind : EntityKind) (id : Int) (generation : Generation) :
    Keeps Owns (checkLive kind id generation) := by
  refine (keeps_requireEntity kind id generation).bind fun _ => ?_
  split_ifs
  · intro world
    by_cases missing : (!world.server.exists? .bind id) = true
    · have released : after (requireBindExists id) world = world.release .bind id := by
        simp only [after, requireBindExists, get_bind, if_pos missing]
        rfl
      rw [released]
      refine owns_release fun _ => .inl fun serial owned => ?_
      have here : world.server.entities .bind id = some (.runtime serial) := owned
      simp [Server.exists?, here] at missing
    · have same : after (requireBindExists id) world = world := by
        simp only [after, requireBindExists, get_bind, if_neg missing]
        rfl
      rw [same]
      exact refl_of Owns world
  · exact keeps_pure _

theorem owns_destroy (kind : EntityKind) (notBlip : kind ≠ .blip) (id : Int) (generation : Generation) :
    Keeps (InCall Owns) (destroy kind id generation inner) := by
  refine Keeps.bind ((owns_checkLive kind id generation).mono fun _ _ related _ => related) fun _ world inCall => ?_
  have deletes : Owns world (after (deleteEntity kind id (inner .before) (inner .after) inner) world) :=
    owns_deleteEntity innerKeeps (innerKeeps _) (innerKeeps _) fun _ => unheld_in_call inCall kind id
  rcases deleteEntity_cases kind id (inner .before) (inner .after) inner world with refused | ⟨-, -, result⟩
  · simp only [after, bind_of_ok (safely_of_ok refused)]
    exact refl_of Owns world
  · rw [after_of_ok result] at deletes
    simp only [after, bind_of_ok (safely_of_ok result), Bool.not_true, Bool.false_eq_true, ↓reduceIte, modify_bind]
    refine trans_of Owns deletes (owns_release fun _ => .inl fun serial owned => ?_)
    rw [owner_endDeletion notBlip] at owned
    cases owned

theorem owns_destroyBlip (id : Int) : Keeps (InCall Owns) (destroyBlip id inner) := by
  refine keeps_requireRuntime.bind fun _ => Keeps.bind (R := InCall Owns) (fun world inCall => ?_) fun _ => ?_
  · rw [after_safely]
    exact owns_deleteEntity innerKeeps (innerKeeps .before) (innerKeeps .after) fun _ => unheld_in_call inCall .blip id
  · exact (keeps_modify fun world _ => owns_release fun notBlip => absurd rfl notBlip).bind fun _ => keeps_pure _

theorem owns_createEntity (kind : EntityKind) (id : Int) : Keeps Owns (createEntity kind id .other inner) := by
  intro world
  rcases createEntity_path owns_requestRules innerKeeps (owns_afterCallback innerKeeps) kind id .other world with
    refused | ⟨ready, final, -, free, result, started, told⟩
  · rw [after_of_ok refused]
    exact refl_of Owns world
  · rw [after_of_ok result]
    have placed : Owns world (world.setEntity kind id (some .other)) := by
      refine (touch_setEntity world kind id (some .other)).owns nofun fun _ _ _ before => before.setOwner nofun ?_ ?_
      all_goals
        intro _ _ owned
        have here : world.owner kind id = _ := owned
        rw [free] at here
        cases here
    refine trans_of Owns placed (trans_of Owns started ?_)
    rcases told with ⟨-, told⟩ | told
    · exact told
    · exact trans_of Owns (owns_adopt ready kind id) told

omit innerKeeps in
/-- The mark completes what the runtime created, wherever it is still there. -/
theorem settled_of_marked {world : World} {serial : ℕ} {kind : EntityKind} {id : Int} (range : inRange kind id = true)
    (current : holds (.current serial) world) (half : Staked kind id .half world)
    (fine : ((world.adopt kind id).markCreatedByUs serial kind id).Fine Entry.Honest) :
    Staked kind id .settled ((world.adopt kind id).markCreatedByUs serial kind id) := by
  have adopts := touch_adopt world kind id
  have marks := touch_markCreatedByUs (world.adopt kind id) serial kind id
  have adopted : Staked kind id .half (world.adopt kind id) := by
    refine half.of_spot ⟨_, adopts.trace, by simp [Entry.Right]⟩ fun before => ?_
    rw [adopts.spot, if_pos ⟨rfl, rfl⟩]
    exact before.update (by exact fun _ => rfl) (by exact fun _ => rfl)
  intro notPlayer
  obtain ⟨right, before⟩ := adopted notPlayer
  obtain ⟨owner, -⟩ := fine (.marked serial kind id ((world.adopt kind id).owner kind id)
    ((world.adopt kind id).server.leaving kind id)) (by rw [marks.trace]; exact List.mem_append_right _ (List.mem_singleton_self _))
  refine ⟨?_, ?_⟩
  · rw [marks.trace]
    exact right_append right (by simp [Entry.Plain])
  · rw [marks.spot, if_pos ⟨rfl, rfl⟩]
    refine before.complete owner (fun sight seen => adopts.current current _ (current_of_sight seen)) fun sight seen => ?_
    have view := adopts.view kind id
    rw [if_pos ⟨rfl, rfl⟩] at view
    have known : ((world.adopt kind id).view kind id).sight = some sight := seen
    rw [view] at known
    obtain ⟨earlier, -, rfl⟩ := Option.map_eq_some_iff.mp known
    simp [range]

theorem owns_create (kind : EntityKind) (id : Int) : Keeps (InCall Owns) (create kind id inner) := by
  refine keeps_required fun world runtime installed _ inCall => ?_
  rcases createEntity_path owns_requestRules innerKeeps (owns_afterCallback innerKeeps) kind id (.runtime runtime.serial) world
    with refused | ⟨ready, final, range, free, result, started, told⟩
  · simp only [after, bind_of_ok (safely_of_ok refused)]
    exact refl_of Owns world
  · simp only [after, bind_of_ok (safely_of_ok result)]
    let placed := world.setEntity kind id (some (.runtime runtime.serial))
    let marked := (final.adopt kind id).markCreatedByUs runtime.serial kind id
    have places := touch_setEntity world kind id (some (.runtime runtime.serial))
    have rest : Owns placed final := by
      rcases told with ⟨-, told⟩ | told
      · exact trans_of Owns started told
      · exact trans_of Owns started (trans_of Owns (owns_adopt ready kind id) told)
    have grows : Grows final marked :=
      (touch_adopt final kind id).grows.trans (touch_markCreatedByUs _ runtime.serial kind id).grows
    have current : final.Fine Entry.Honest → holds (.current runtime.serial) final := fun fine =>
      rest.inside fine inCall _ (places.current (current_of_installed installed))
    have tail : final.Fine Entry.Honest → Owns final marked := fun fine =>
      trans_of Owns (owns_adopt final kind id) (owns_mark ((touch_adopt final kind id).current (current fine)) kind id)
    have place : ∀ stake, Staked kind id stake world → Staked kind id (if stake = .settled then .half else stake) placed := by
      intro stake staked notPlayer
      refine ⟨?_, ?_⟩
      · exact (staked notPlayer).1
      · rw [places.spot, if_pos ⟨rfl, rfl⟩]
        exact (staked notPlayer).2.place free (spot_current installed kind id)
    have staked : marked.Fine Entry.Honest → ∀ query other stake, Staked query other stake world →
        Staked query other stake marked := by
      intro later query other stake staked
      have fine := grows.fine later
      have inside : ∀ stake : Stake, stake = .half → 0 < placed.depth := fun _ _ => inCall
      have inside' : ∀ stake : Stake, stake = .half → 0 < final.depth := fun _ _ => rest.depth.symm ▸ inCall
      by_cases same : query = kind ∧ other = id
      · obtain ⟨rfl, rfl⟩ := same
        have ready := place stake staked
        by_cases settled : stake = .settled
        · subst settled
          exact settled_of_marked range (current fine) (owns_staked rest fine (inside _) ready) later
        · rw [if_neg settled] at ready
          exact owns_staked (tail fine) later (inside' _) (owns_staked rest fine (inside _) ready)
      · have ready : Staked query other stake placed := places.elsewhere (fun _ member => absurd member List.not_mem_nil) same staked
        exact owns_staked (tail fine) later (inside' _) (owns_staked rest fine (inside _) ready)
    refine ⟨places.grows.trans (rest.toGrows.trans grows), fun later index held notHalf => staked later _ _ _ (held notHalf),
      fun later _ hold held => ?_⟩
    have fine := grows.fine later
    cases hold with
    | half query other => exact staked later query other .half held
    | current serial =>
      exact (tail fine).inside later (rest.depth.symm ▸ inCall) _ (rest.inside fine inCall _ (places.current held))

theorem owns_bindingRules : BindingRules (InCall Owns) inner where
  toEmitRules := owns_requestRules.toEmitRules.inCall
  create kind _ id := owns_create innerKeeps kind id
  destroy kind known := owns_destroy innerKeeps kind (by rintro rfl; revert known; decide)
  destroyBlip := owns_destroyBlip innerKeeps
  createBind slot keys := (owns_createBind slot keys).mono fun _ _ related _ => related
  removeBind := owns_removeBind
  clearAllBinds := owns_clearAllBinds.mono fun _ _ related _ => related
  checkLive kind id generation := (owns_checkLive kind id generation).mono fun _ _ related _ => related
  kickPlayer id := (keeps_kickPlayer owns_requestRules innerKeeps (keeps_onPlayerDisconnect owns_requestRules innerKeeps
    (owns_afterCallback innerKeeps) (tracked_releasePlayer closed_stakes closed_holds)) id).mono fun _ _ related _ => related
  requestReload world _ := trans_of Owns (owns_log world (by exact fun _ _ => trivial))
    (owns_updateRuntime (by exact fun _ => rfl) (by exact fun _ => rfl) (by exact fun _ => rfl) (by exact fun _ _ _ _ => rfl) _)

end Bindings

/-! ## `DeleteCreated` -/

/-- One entity is passed to the server while `DeleteCreated` runs: it is not ours anymore, and nothing
else changes hands. -/
structure Passes (serial : ℕ) (kind : EntityKind) (id : Int) (world world' : World) : Prop extends Grows world world' where
  others : world'.Fine Entry.Honest → ∀ query other stake, ¬(query = kind ∧ other = id) →
    stake = .held serial ∨ stake = .free serial → Staked query other stake world → Staked query other stake world'
  here : world'.Fine Entry.Honest → Staked kind id (.held serial) world → Staked kind id (.free serial) world'

/-- What the whole loop does to one spot. -/
theorem passes_forEach {serial : ℕ} {body : EntityKind × Int → EStateM Empty World Unit}
    (points : List (EntityKind × Int)) (distinct : points.Nodup)
    (step : ∀ point ∈ points, ∀ world, Passes serial point.1 point.2 world (after (body point) world)) (world : World) :
    let final := after (forEach body points) world
    Grows world final ∧ (final.Fine Entry.Honest → ∀ kind id,
      ((kind, id) ∈ points → Staked kind id (.held serial) world → Staked kind id (.free serial) final) ∧
      ((kind, id) ∉ points → ∀ stake, stake = .held serial ∨ stake = .free serial →
        Staked kind id stake world → Staked kind id stake final)) := by
  induction points generalizing world with
  | nil => exact ⟨⟨List.prefix_refl _, rfl, rfl⟩, fun _ kind id => ⟨nofun, fun _ _ _ staked => staked⟩⟩
  | cons head rest ih =>
    intro final
    obtain ⟨fresh, distinct'⟩ := List.nodup_cons.mp distinct
    have first := step head (List.mem_cons_self ..) world
    have result : final = after (forEach body rest) (after (body head) world) := after_seq _ _ world
    obtain ⟨grows, later⟩ := ih distinct' (fun point member => step point (List.mem_cons_of_mem _ member)) (after (body head) world)
    rw [result]
    refine ⟨first.toGrows.trans grows, fun fine kind id => ?_⟩
    obtain ⟨listed, unlisted⟩ := later fine kind id
    have earlier := grows.fine fine
    refine ⟨fun member held => ?_, fun absent stake sweeps staked => ?_⟩
    · rcases List.mem_cons.mp member with rfl | inside
      · exact unlisted fresh _ (.inr rfl) (first.here earlier held)
      · refine listed inside (first.others earlier kind id _ ?_ (.inl rfl) held)
        rintro ⟨rfl, rfl⟩
        exact fresh inside
    · refine unlisted (fun inside => absent (List.mem_cons_of_mem _ inside)) stake sweeps
        (first.others earlier kind id stake ?_ sweeps staked)
      rintro ⟨rfl, rfl⟩
      exact absent (List.mem_cons_self ..)

theorem right_passed {serial : ℕ} {kind query : EntityKind} {id other : Int} {owner : Option Owner}
    (notPlayer : kind ≠ .player) (elsewhere : ¬(query = kind ∧ other = id)) :
    (Entry.passed serial kind id owner).Right query other :=
  ⟨notPlayer, fun same => absurd ⟨same.1.symm, same.2.symm⟩ elsewhere⟩

/-- The bodies of the two loops of `DeleteCreated`. -/
def passEntity (inner : Inner) (serial : ℕ) : EntityKind × Int → EStateM Empty World Unit := fun (kind, id) => do
  modify fun world => world.log (.passed serial kind id (world.owner kind id))
  let _ ← deleteEntity kind id (inner (.sweep kind id false)) (inner (.sweep kind id true)) inner

def passKeyBind (serial : ℕ) : EntityKind × Int → EStateM Empty World Unit := fun (_, id) =>
  modify fun world => removeKeyBind id (world.log (.passed serial .bind id (world.owner .bind id)))

def sweepEntities (runtime : Runtime) : List (EntityKind × Int) :=
  serverPools.flatMap fun kind => (runtime.entities kind).createdByUs.map (kind, ·)

def sweepBinds (runtime : Runtime) : List (EntityKind × Int) := (runtime.entities .bind).createdByUs.map (.bind, ·)

/-- `DeleteCreated` is its two loops, and then a record of what is left. -/
theorem after_deleteCreated (inner : Inner) (runtime : Runtime) (world : World) :
    let swept := after (forEach (passKeyBind runtime.serial) (sweepBinds runtime))
      (after (forEach (passEntity inner runtime.serial) (sweepEntities runtime))
        { world with sweeping := some runtime.serial })
    after (deleteCreated inner runtime) world =
      { swept.log (.swept runtime.serial (leftOf runtime.serial swept)) with sweeping := none } := by
  intro swept
  have binds : forEach (passKeyBind runtime.serial) (sweepBinds runtime) = forEach (fun id => modify fun world =>
      removeKeyBind id (world.log (.passed runtime.serial .bind id (world.owner .bind id))))
        (runtime.entities .bind).createdByUs := forEach_map _ _ _
  have parts : after (deleteCreated inner runtime) world = after (do
      modify fun world => { world with sweeping := some runtime.serial }
      forEach (passEntity inner runtime.serial) (sweepEntities runtime)
      forEach (passKeyBind runtime.serial) (sweepBinds runtime)
      modify fun world => { world.log (.swept runtime.serial (leftOf runtime.serial world)) with sweeping := none } :
        EStateM Empty World PUnit) world := by
    rw [binds]
    rfl
  rw [parts, after_seq, after_seq, after_seq]
  rfl

theorem mem_sweepEntities (runtime : Runtime) (kind : EntityKind) (id : Int) :
    (kind, id) ∈ sweepEntities runtime ↔ kind ∈ serverPools ∧ id ∈ (runtime.entities kind).createdByUs := by
  simp only [sweepEntities, List.mem_flatMap, List.mem_map, Prod.mk.injEq]
  constructor
  · rintro ⟨other, known, number, member, rfl, rfl⟩
    exact ⟨known, member⟩
  · rintro ⟨known, member⟩
    exact ⟨kind, known, id, member, rfl, rfl⟩

theorem mem_sweepBinds (runtime : Runtime) (kind : EntityKind) (id : Int) :
    (kind, id) ∈ sweepBinds runtime ↔ kind = .bind ∧ id ∈ (runtime.entities kind).createdByUs := by
  simp only [sweepBinds, List.mem_map, Prod.mk.injEq]
  constructor
  · rintro ⟨number, member, rfl, rfl⟩
    exact ⟨rfl, member⟩
  · rintro ⟨rfl, member⟩
    exact ⟨id, member, rfl, rfl⟩

theorem nodup_sweepBinds (runtime : Runtime) : (sweepBinds runtime).Nodup :=
  (nodup_createdByUs _).map fun _ _ same => (Prod.mk.inj same).2

theorem nodup_sweepEntities (runtime : Runtime) : (sweepEntities runtime).Nodup := by
  refine List.nodup_flatMap.mpr ⟨fun kind _ => (nodup_createdByUs _).map fun _ _ same => (Prod.mk.inj same).2, ?_⟩
  refine List.Pairwise.imp_of_mem ?_ (show serverPools.Nodup by decide)
  rintro first second - - different ⟨kind, id⟩ one two
  obtain ⟨_, -, same⟩ := List.mem_map.mp one
  obtain ⟨_, -, same'⟩ := List.mem_map.mp two
  exact different ((Prod.mk.inj same).1.trans (Prod.mk.inj same').1.symm)

section Sweep

variable {inner : Inner} (innerKeeps : ∀ site, Keeps Owns (inner site))

include innerKeeps

theorem passes_passEntity (serial : ℕ) {kind : EntityKind} (notPlayer : kind ≠ .player) (id : Int) (world : World) :
    Passes serial kind id world (after (passEntity inner serial (kind, id)) world) := by
  let logged := world.log (.passed serial kind id (world.owner kind id))
  have logs := grows_log world (.passed serial kind id (world.owner kind id))
  have result : after (passEntity inner serial (kind, id)) world =
      after (deleteEntity kind id (inner (.sweep kind id false)) (inner (.sweep kind id true)) inner) logged := after_seq _ _ logged
  rw [result]
  have passed : Staked kind id (.held serial) world → Staked kind id (.held serial) logged :=
    fun held => staked_log ⟨notPlayer, fun _ => (held notPlayer).2.2.2.2.1⟩ held
  rcases deleteEntity_owns innerKeeps kind id (innerKeeps (.sweep kind id false)) (innerKeeps (.sweep kind id true)) logged
    with refused | ⟨told, last, deleted, deletion⟩
  · rw [after_of_ok refused]
    refine ⟨logs, fun _ query other stake elsewhere _ => staked_log (right_passed notPlayer elsewhere), fun _ held => ?_⟩
    obtain ⟨-, -, -, owner, stays⟩ := (passed held notPlayer).2
    have owned : logged.server.entities kind id = some (.runtime serial) := owner
    have here : logged.server.exists? kind id = true := by rw [Server.exists?, owned]; rfl
    rw [deleteEntity_of_here _ _ _ here stays] at refused
    cases refused
  · rw [after_of_ok deleted]
    have fine : (endDeletion kind id last).Fine Entry.Honest → last.Fine Entry.Honest := by
      intro later
      rwa [World.Fine, trace_endDeletion] at later
    refine ⟨logs.trans deletion.grows, fun later query other stake elsewhere sweeps staked => ?_, fun later held => ?_⟩
    · refine deletion.elsewhere elsewhere (fine later) ?_ (staked_log (right_passed notPlayer elsewhere) staked)
      rintro rfl
      rcases sweeps with same | same <;> cases same
    · obtain ⟨settled, sweeping⟩ := staked_of_sweeping (.inl rfl) (passed held)
      exact deletion.free (fine later) settled sweeping

omit innerKeeps in
theorem passes_passKeyBind (serial : ℕ) (id : Int) (world : World) :
    Passes serial .bind id world (after (passKeyBind serial (.bind, id)) world) := by
  let logged := world.log (.passed serial .bind id (world.owner .bind id))
  have touch := touch_setEntity logged .bind id none
  refine ⟨(grows_log world _).trans touch.grows, fun _ query other stake elsewhere _ staked => ?_, fun _ held => ?_⟩
  · exact touch.elsewhere nofun elsewhere (staked_log (right_passed nofun elsewhere) staked)
  · intro notPlayer
    have passed : Staked .bind id (.held serial) logged := staked_log ⟨notPlayer, fun _ => (held notPlayer).2.2.2.2.1⟩ held
    obtain ⟨settled, sweeping⟩ := staked_of_sweeping (.inl rfl) passed
    refine ⟨(passed notPlayer).1, ?_⟩
    change (Stake.free serial).Holds .bind ((logged.setEntity .bind id none).spot .bind id)
    rw [touch.spot, if_pos ⟨rfl, rfl⟩]
    exact (settled notPlayer).2.vacate (sweeping notPlayer).2 _ _

omit innerKeeps in
theorem known_kind {kind : EntityKind} (notPlayer : kind ≠ .player) : kind ∈ serverPools ∨ kind = .bind := by
  revert notPlayer
  cases kind <;> decide

/-- After `DeleteCreated` nothing at a spot is the runtime's, if it began with the right marks. -/
theorem staked_deleteCreated (runtime : Runtime) (world : World) (gone : world.runtime = none) :
    let final := after (deleteCreated inner runtime) world
    Grows world final ∧ (final.Fine Entry.Honest → ∀ kind id, Staked kind id .settled world →
      (kind ≠ .player → world.server.leaving kind id = false ∧ (id ∈ (runtime.entities kind).createdByUs ↔
        world.owner kind id = some (.runtime runtime.serial))) → Staked kind id .settled final) := by
  intro final
  let started : World := { world with sweeping := some runtime.serial }
  let entities := after (forEach (passEntity inner runtime.serial) (sweepEntities runtime)) started
  let binds := after (forEach (passKeyBind runtime.serial) (sweepBinds runtime)) entities
  have result : final = { binds.log (.swept runtime.serial (leftOf runtime.serial binds)) with sweeping := none } :=
    after_deleteCreated inner runtime world
  obtain ⟨grows, first⟩ := passes_forEach (sweepEntities runtime) (nodup_sweepEntities runtime) (fun point member world => by
    obtain ⟨kind, id⟩ := point
    have known := ((mem_sweepEntities runtime kind id).mp member).1
    exact passes_passEntity innerKeeps runtime.serial (player_of_serverPools known) id world) started
  obtain ⟨grows', second⟩ := passes_forEach (sweepBinds runtime) (nodup_sweepBinds runtime) (fun point member world => by
    obtain ⟨kind, id⟩ := point
    obtain ⟨rfl, -⟩ := (mem_sweepBinds runtime kind id).mp member
    exact passes_passKeyBind runtime.serial id world) entities
  have recorded : Grows binds final := by
    rw [result]
    exact ⟨⟨[_], rfl⟩, rfl, rfl⟩
  have starts : Grows world started := ⟨List.prefix_refl _, rfl, rfl⟩
  refine ⟨starts.trans (grows.trans (grows'.trans recorded)), fun fine kind id settled marks notPlayer => ?_⟩
  have fineBinds := recorded.fine fine
  have fineEntities := grows'.fine fineBinds
  obtain ⟨stays, marked⟩ := marks notPlayer
  have current : (started.spot kind id).current = none := by simp [World.spot, started, gone]
  have bounded : (started.spot kind id).Bounded := (settled notPlayer).2.1
  have free : Staked kind id (.free runtime.serial) binds := by
    by_cases listed : id ∈ (runtime.entities kind).createdByUs
    · have held : Staked kind id (.held runtime.serial) started := fun _ =>
        ⟨(settled notPlayer).1, bounded, current, rfl, marked.mp listed, stays⟩
      rcases known_kind notPlayer with known | rfl
      · have absent : (kind, id) ∉ sweepBinds runtime := by
          intro member
          obtain ⟨rfl, -⟩ := (mem_sweepBinds runtime kind id).mp member
          revert known
          decide
        exact (second fineBinds kind id).2 absent _ (.inr rfl)
          ((first fineEntities kind id).1 ((mem_sweepEntities runtime kind id).mpr ⟨known, listed⟩) held)
      · have absent : (EntityKind.bind, id) ∉ sweepEntities runtime := by
          intro member
          have known := ((mem_sweepEntities runtime .bind id).mp member).1
          revert known
          decide
        exact (second fineBinds .bind id).1 ((mem_sweepBinds runtime .bind id).mpr ⟨rfl, listed⟩)
          ((first fineEntities .bind id).2 absent _ (.inl rfl) held)
    · have free : Staked kind id (.free runtime.serial) started := fun _ =>
        ⟨(settled notPlayer).1, bounded, current, rfl, fun owned => listed (marked.mpr owned)⟩
      have absent : (kind, id) ∉ sweepEntities runtime := fun member => listed ((mem_sweepEntities runtime kind id).mp member).2
      have absent' : (kind, id) ∉ sweepBinds runtime := fun member => listed ((mem_sweepBinds runtime kind id).mp member).2
      exact (second fineBinds kind id).2 absent' _ (.inr rfl) ((first fineEntities kind id).2 absent _ (.inr rfl) free)
  have left : (Entry.swept runtime.serial (leftOf runtime.serial binds)).Right kind id := by
    refine ⟨fun member => ?_, fun what member => ?_⟩
    · have owned : binds.owner kind id = some (.runtime runtime.serial) := by simpa using (List.mem_filter.mp member).2
      exact (free notPlayer).2.2.2.2 owned
    · obtain ⟨kind, known, listed⟩ := List.mem_flatMap.mp (List.mem_filter.mp member).1
      rw [((mem_kindIds kind what.1 what.2).mp listed).1]
      revert known
      cases kind <;> decide
  have logged := (staked_of_sweeping (.inr rfl) (staked_log left free)).1
  rw [result]
  exact logged notPlayer

omit innerKeeps in
/-- A new runtime has no marks, and nothing is its own. -/
theorem staked_install {kind : EntityKind} {id : Int} {world : World} (settled : Staked kind id .settled world)
    (scripts : ℕ) : Staked kind id .settled (world.install scripts) := by
  refine settled.of_spot ⟨[.installed world.nextSerial], rfl, by simp [Entry.Right]⟩ fun before => ?_
  have spot : (world.install scripts).spot kind id = { world.spot kind id with
      view := { world.view kind id with sight := some ⟨world.nextSerial, false, false, false⟩ }
      current := some world.nextSerial
      next := world.nextSerial + 1 } := by
    simp only [World.spot, view_install]
    rfl
  rw [spot]
  obtain ⟨owner, -⟩ := before.1
  refine ⟨⟨fun serial owned => Nat.lt_succ_of_lt (owner serial owned), ?_⟩, ?_⟩
  · rintro serial ⟨⟩
    exact Nat.lt_succ_self _
  · rintro sight ⟨⟩
    exact ⟨fun created => absurd created Bool.false_ne_true, fun owned => absurd (owner _ owned) (Nat.lt_irrefl _)⟩

omit innerKeeps in
/-- The reload's first steps take the runtime away. -/
theorem staked_taken {kind : EntityKind} {id : Int} {world : World} (settled : Staked kind id .settled world)
    (config : Config) : Staked kind id .settled (world.taken config) := by
  have ended : Staked kind id .settled (world.endFrame.log (.reloading 0 world.server.deletions)) :=
    staked_log (by trivial) (staked_log (by trivial) settled)
  exact staked_remove ended

omit innerKeeps in
/-- While nothing is being deleted, the marks of a live runtime are exactly what it owns. -/
theorem marks_of_settled {world : World} {runtime : Runtime} (installed : world.runtime = some runtime)
    (lives : runtime.dead = false) (none : world.server.deletions = []) {kind : EntityKind} {id : Int}
    (settled : Stake.settled.Holds kind (world.spot kind id)) :
    world.server.leaving kind id = false ∧ (id ∈ (runtime.entities kind).createdByUs ↔
      world.owner kind id = some (.runtime runtime.serial)) := by
  have stays : world.server.leaving kind id = false := by simp [Server.leaving, none]
  obtain ⟨sight, seen, serial, listed⟩ := created_of_listed installed lives kind id
  obtain ⟨owned, marked⟩ := settled.2 sight seen
  rw [serial] at owned marked
  exact ⟨stays, listed.trans ⟨owned, fun owner => marked owner stays⟩⟩

/-- What the old runtime does on its way out. -/
theorem staked_shutdown {world : World} {old : Runtime} (lives : old.dead = false) (idle : old.invoker.depth = 0)
    (gone : world.runtime = none) :
    let closed := after (old.shutdown (deleteCreated inner)) world
    Grows world closed ∧ (closed.Fine Entry.Honest → ∀ kind id, Staked kind id .settled world →
      (kind ≠ .player → world.server.leaving kind id = false ∧ (id ∈ (old.entities kind).createdByUs ↔
        world.owner kind id = some (.runtime old.serial))) → Staked kind id .settled closed) := by
  intro closed
  cases luaOpen : old.luaOpen with
  | false =>
    have same : closed = world := by
      simp only [closed, after, Runtime.shutdown, luaOpen, Bool.not_false, ↓reduceIte]
      rfl
    rw [same]
    exact ⟨⟨List.prefix_refl _, rfl, rfl⟩, fun _ _ _ settled _ => settled⟩
  | true =>
    let closing : Runtime := Runtime.closePools { old with closing := true }
    let logged := world.log (.shutDown 0 false)
    have result : closed = after (deleteCreated inner closing) logged := by
      obtain ⟨_, ran⟩ := eq_ok (deleteCreated inner closing) logged
      refine after_of_ok (a := closing.closeLua) ?_
      rw [shutdown_of_lives _ luaOpen idle lives]
      exact bind_of_ok ran
    obtain ⟨grows, sweeps⟩ := staked_deleteCreated innerKeeps closing logged gone
    rw [result]
    refine ⟨(grows_log world _).trans grows, fun fine kind id settled marks => ?_⟩
    exact sweeps fine kind id (staked_log (by trivial) settled) marks

theorem owns_replace (config : Config) (world : World) (old : Runtime) (reloads : world.reloads = true)
    (present : world.runtime = some old) :
    Owns world (((after (old.shutdown (deleteCreated inner)) (world.taken config)).log (.deleted 0)).install
      config.scripts) := by
  obtain ⟨runtime, installed, lives, idle⟩ := reloads_spec reloads
  obtain rfl : runtime = old := Option.some.inj (installed.symm.trans present)
  have noCall : runtime.invoker.depth = 0 := by
    simpa only [World.depth, present, Option.map_some, Option.getD_some] using idle
  obtain ⟨grows, sweeps⟩ := staked_shutdown innerKeeps lives noCall (show (world.taken config).runtime = none from rfl)
  let closed := after (runtime.shutdown (deleteCreated inner)) (world.taken config)
  have takes : Grows world (world.taken config) := by
    refine ⟨?_, rfl, idle.symm⟩
    exact List.IsPrefix.trans ⟨[_], rfl⟩ (show world.endFrame.trace <+: (world.taken config).trace from ⟨[_], rfl⟩)
  have installs : Grows closed ((closed.log (.deleted 0)).install config.scripts) := by
    refine ⟨List.IsPrefix.trans ⟨[_], rfl⟩ (show (closed.log (.deleted 0)).trace <+: _ from ⟨[_], rfl⟩), rfl, ?_⟩
    exact (grows.depth.trans (takes.depth.trans idle)).symm
  refine ⟨takes.trans (grows.trans installs), ?_, fun _ inCall => absurd idle (Nat.ne_of_gt inCall)⟩
  rintro fine ⟨kind, id, stake⟩ before notHalf notPlayer
  have fineClosed := installs.fine fine
  have none : world.server.deletions = [] :=
    grows.fine fineClosed (.reloading 0 world.server.deletions) (List.mem_append_right _ (List.mem_singleton_self _))
  have holds := (before notHalf notPlayer).2
  obtain ⟨notHeld, notFree, notSweeping⟩ := holds.ended (by simp [spot_current present])
  cases stake with
  | settled =>
    have settled := sweeps fineClosed kind id (staked_taken (before notHalf) config) fun _ =>
      marks_of_settled present lives none holds
    exact staked_install (staked_log (by trivial) settled) config.scripts notPlayer
  | half => exact absurd rfl notHalf
  | gone =>
    have leaves := ((leaving_iff world.server kind id).mp holds.2.1).2
    rw [none] at leaves
    cases leaves
  | dangling =>
    have deleting : (!world.server.deletions.isEmpty) = true := holds.2.2
    rw [none] at deleting
    cases deleting
  | held serial => exact absurd rfl (notHeld serial)
  | free serial => exact absurd rfl (notFree serial)
  | sweeping serial => exact absurd rfl (notSweeping serial)

theorem owns_serveRules : ServeRules Owns inner where
  toRequestRules := owns_requestRules
  finishShutdown := owns_finishShutdown innerKeeps
  disconnect := keeps_onPlayerDisconnect owns_requestRules innerKeeps (owns_afterCallback innerKeeps)
    (tracked_releasePlayer closed_stakes closed_holds)
  endFrame world _ := owns_log world (by exact fun _ _ => trivial)
  cancelReload world _ := trans_of Owns (owns_log world (by exact fun _ _ => trivial))
    (trans_of Owns (owns_log _ (by exact fun _ _ => trivial)) (owns_updateRuntime (by exact fun _ => rfl)
      (by exact fun _ => rfl) (by exact fun _ => rfl) (by exact fun _ _ _ _ => rfl) _))
  replace := owns_replace innerKeeps
  modules world timers transfers := owns_updateRuntime (by exact fun _ => rfl) (by exact fun _ => rfl)
    (by exact fun _ => rfl) (by exact fun _ _ _ _ => rfl) world
  create kind _ id := owns_createEntity innerKeeps kind id
  delete kind _ id := owns_deleteByOther innerKeeps kind id
  register slot keys world := owns_rebind slot _ (by intro serial; split_ifs <;> simp) world
  remove slot world := owns_rebind slot none nofun world
  bindings := owns_bindingRules innerKeeps

end Sweep

/-! ## Runs -/

theorem owns_perform (behaviour : Behaviour) : Keeps Owns (perform behaviour) :=
  Script.keeps_run (fun op _ innerKeeps => keeps_serve (owns_serveRules innerKeeps) innerKeeps op) behaviour

theorem settled_start (existing : EntityKind → Int → Bool) (scripts : ℕ) (kind : EntityKind) (id : Int) :
    Staked kind id .settled (World.start existing scripts) := by
  intro _
  have owner : (World.start existing scripts).owner kind id =
      if existing kind id && inRange kind id then some .other else none := rfl
  have other : ∀ serial, (World.start existing scripts).owner kind id ≠ some (.runtime serial) := by
    intro serial
    rw [owner]
    split_ifs <;> simp
  refine ⟨nofun, ⟨fun serial owned => absurd owned (other serial), ?_⟩, fun sight seen => ⟨?_, fun owned => ?_⟩⟩
  · rintro serial ⟨⟩
    exact Nat.one_pos
  · have fresh : sight = ⟨0, false, false, false⟩ := by
      simpa [World.start, World.spot, World.view, World.live, Option.filter_some, Runtime.sight, EntityPool.alive,
        EntityPool.made, EntityPool.slot, eq_comm] using seen
    rw [fresh]
    exact fun created => by cases created
  · exact absurd owned (other sight.serial)

/-- In an honest run everything that `DeleteCreated` and `clearAllBinds` pass to the server is an entity
or a key bind that the runtime created and that has been there since, and `DeleteCreated` leaves
nothing of the runtime behind. -/
theorem only_own_entities_deleted (existing : EntityKind → Int → Bool) (scripts : ℕ) (behaviour : Behaviour)
    (honest : ∀ entry ∈ (after (perform behaviour) (World.start existing scripts)).trace, entry.Honest) :
    let final := after (perform behaviour) (World.start existing scripts)
    (∀ serial kind id owner, .passed serial kind id owner ∈ final.trace → owner = some (.runtime serial)) ∧
      ∀ serial left, .swept serial left ∈ final.trace → left = [] := by
  intro final
  have owns := owns_perform behaviour (World.start existing scripts)
  have right : ∀ kind ≠ .player, ∀ id, ∀ entry ∈ final.trace, entry.Right kind id := fun kind notPlayer id =>
    (owns_staked owns honest (by exact nofun) (settled_start existing scripts kind id) notPlayer).1
  refine ⟨fun serial kind id owner member => ?_, fun serial left member => ?_⟩
  · obtain ⟨notPlayer, -⟩ := right .bind nofun 0 _ member
    exact (right kind notPlayer id _ member).2 ⟨rfl, rfl⟩
  · obtain ⟨-, known⟩ := right .bind nofun 0 _ member
    refine List.eq_nil_iff_forall_not_mem.mpr ?_
    rintro ⟨kind, id⟩ inside
    exact (right kind (known _ inside) id _ member).1 inside

/-- A timer creates a key bind in slot 3. Between this frame and the next, in which all key binds are
cleared, other plugins do something. -/
def clearBindsAfter (between : Behaviour → Behaviour) : Behaviour :=
  .request (.frame 1 0 .configFails) (.only (.timer 0) (.single (.lua (.createBind 3 (65, 0, 0)))))
    (between (.request (.frame 1 0 .configFails) (.only (.timer 0) (.single (.lua .clearAllBinds))) (.ret .returned)))

theorem only_own_binds_cleared :
    let final := after (perform (clearBindsAfter fun next => next)) (World.start (fun _ _ => false) 0)
    .passed 0 .bind 3 (some (.runtime 0)) ∈ final.trace ∧
      ∀ serial kind id owner, .passed serial kind id owner ∈ final.trace → owner = some (.runtime serial) := by
  intro final
  have run : .passed 0 .bind 3 (some (.runtime 0)) ∈ final.trace ∧ ∀ entry ∈ final.trace, entry.Honest := by
    decide +kernel
  exact ⟨run.1, (only_own_entities_deleted (fun _ _ => false) 0 (clearBindsAfter fun next => next) run.2).1⟩

/-- Another plugin takes over the slot: `clearAllBinds` removes that plugin's key bind. -/
theorem foreign_bind_cleared :
    let final := after (perform (clearBindsAfter fun next =>
      .request (.removeKeyBind 3) (fun _ => .ret .returned)
        (.request (.registerKeyBind 3 (66, 0, 0)) (fun _ => .ret .returned) next))) (World.start (fun _ _ => false) 0)
    .passed 0 .bind 3 (some .other) ∈ final.trace ∧ final.server.exists? .bind 3 = false := by
  decide +kernel

end VcmpLua.Model.Plugin
