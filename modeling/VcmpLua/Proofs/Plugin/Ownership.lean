import VcmpLua.Proofs.Plugin.EntityRules
import VcmpLua.Proofs.Plugin.Tracking

/-! # Only what the runtime created is deleted

The mark of a slot says that the runtime created the entity there. At one kind and id (a spot) it is
tracked along a run that the mark is right: inside of a creation it is still missing, during a
deletion it goes away, and while `DeleteCreated` runs nobody else touches what is marked. The ways in
which this goes wrong are what `Entry.Honest` excludes.
-/

namespace VcmpLua.Model.Plugin

open Effect VcmpLua.Model.Core World

/-! ## What is recorded -/

/-- When `Create*` has returned, what it created is there. A blip is released only where the server has
none of ours. No exception gets out of the event of a deletion, and no reload starts during one. Other
plugins leave our key binds alone, and while `DeleteCreated` runs also our entities. -/
def Entry.Honest : Entry → Prop
  | .marked serial _ _ owner leaving => owner = some (.runtime serial) ∧ leaving = false
  | .released .blip _ owner => owner = none ∨ owner = some .other
  | .reported (.onEntityPoolChange _ _ true) => False
  | .reloading _ deletions => deletions = []
  | .removed _ _ owner sweeping => owner = none ∨ owner ≠ sweeping.map .runtime
  | .rebound _ owner current sweeping => owner = none ∨ owner ≠ current.map .runtime ∧ owner ≠ sweeping.map .runtime
  | _ => True

instance (entry : Entry) : Decidable entry.Honest := by
  unfold Entry.Honest
  split <;> infer_instance

/-- What is passed to the server at a spot is the runtime's own, and nothing of it is left there. -/
def Entry.Right (kind : EntityKind) (id : Int) : Entry → Prop
  | .passed serial what place owner => what ≠ .player ∧ (what = kind ∧ place = id → owner = some (.runtime serial))
  | .swept _ left => (kind, id) ∉ left ∧ ∀ what ∈ left, what.1 ≠ .player
  | _ => True

theorem Entry.Plain.right {entry : Entry} (plain : entry.Plain) (kind : EntityKind) (id : Int) : entry.Right kind id := by
  cases entry <;> trivial

/-! ## Spots -/

/-- What matters of the world at one kind and id. -/
structure Spot where
  view : View
  /-- The installed runtime. -/
  current : Option ℕ
  next : ℕ
  sweeping : Option ℕ
  deleting : Bool

def World.spot (world : World) (kind : EntityKind) (id : Int) : Spot where
  view := world.view kind id
  current := world.runtime.map (·.serial)
  next := world.nextSerial
  sweeping := world.sweeping
  deleting := !world.server.deletions.isEmpty

/-- No serial is used before its turn. -/
def Spot.Bounded (spot : Spot) : Prop :=
  (∀ serial, spot.view.owner = some (.runtime serial) → serial < spot.next) ∧
    ∀ serial, spot.current = some serial → serial < spot.next

/-- What is tracked at a spot. -/
inductive Stake where
  /-- The mark of the runtime is right. -/
  | settled
  /-- It is right if it is there: a creation is in progress. -/
  | half
  /-- A deletion is in progress and the mark is gone. -/
  | gone
  /-- A blip is being deleted: anybody may have taken its id. -/
  | dangling
  /-- `DeleteCreated` of the runtime runs, and this is the runtime's. -/
  | held (serial : ℕ)
  /-- `DeleteCreated` of the runtime runs, and this is not, or no longer, the runtime's. -/
  | free (serial : ℕ)
  | sweeping (serial : ℕ)
deriving DecidableEq, Repr

def Stake.Holds (kind : EntityKind) (spot : Spot) : Stake → Prop
  | settled => spot.Bounded ∧ ∀ sight, spot.view.sight = some sight →
      (sight.created = true → spot.view.owner = some (.runtime sight.serial)) ∧
        (spot.view.owner = some (.runtime sight.serial) → spot.view.leaving = false → sight.created = true)
  | half => spot.Bounded ∧ ∀ sight, spot.view.sight = some sight →
      sight.created = true → spot.view.owner = some (.runtime sight.serial)
  | gone => spot.Bounded ∧ spot.view.leaving = true ∧ ∀ sight, spot.view.sight = some sight → sight.created = false
  | dangling => spot.Bounded ∧ kind = .blip ∧ spot.deleting = true
  | held serial => spot.Bounded ∧ spot.current = none ∧ spot.sweeping = some serial ∧
      spot.view.owner = some (.runtime serial) ∧ spot.view.leaving = false
  | free serial => spot.Bounded ∧ spot.current = none ∧ spot.sweeping = some serial ∧
      spot.view.owner ≠ some (.runtime serial)
  | sweeping serial => spot.current = none ∧ spot.sweeping = some serial

/-- What is tracked at a spot, with what was passed to the server there so far. -/
def Staked (kind : EntityKind) (id : Int) (stake : Stake) (world : World) : Prop :=
  kind ≠ .player → (∀ entry ∈ world.trace, entry.Right kind id) ∧ stake.Holds kind (world.spot kind id)

/-- A creation is in progress only inside of a call. -/
def stakes : EntityKind × Int × Stake → World → Prop :=
  fun (kind, id, stake) world => stake ≠ .half → Staked kind id stake world

/-- What is tracked inside of a call: a spot, or the runtime that is called. -/
inductive Hold where
  | half (kind : EntityKind) (id : Int)
  | current (serial : ℕ)
deriving DecidableEq, Repr

def holds : Hold → World → Prop
  | .half kind id => Staked kind id .half
  | .current serial => fun world => ∀ other, world.runtime.map (·.serial) = some other → other = serial

abbrev Owns : World → World → Prop := Tracked Entry.Honest stakes holds

theorem right_append {kind : EntityKind} {id : Int} {entries new : List Entry}
    (right : ∀ entry ∈ entries, entry.Right kind id) (plain : ∀ entry ∈ new, entry.Plain) :
    ∀ entry ∈ entries ++ new, entry.Right kind id := by
  intro entry member
  exact (List.mem_append.mp member).elim (right entry) fun inside => (plain entry inside).right kind id

/-! ## Steps that leave a spot alone -/

/-- The spot and its record are as before. -/
theorem Staked.of_spot {kind : EntityKind} {id : Int} {stake : Stake} {world world' : World}
    (staked : Staked kind id stake world) (trace : ∃ new, world'.trace = world.trace ++ new ∧ ∀ entry ∈ new, entry.Right kind id)
    (spot : stake.Holds kind (world.spot kind id) → stake.Holds kind (world'.spot kind id)) : Staked kind id stake world' := by
  intro notPlayer
  obtain ⟨right, before⟩ := staked notPlayer
  obtain ⟨new, same, right'⟩ := trace
  refine ⟨fun entry member => ?_, spot before⟩
  rw [same] at member
  exact (List.mem_append.mp member).elim (right entry) (right' entry)

theorem Calm.spot {world world' : World} (calm : Calm world world') {kind : EntityKind} (notPlayer : kind ≠ .player)
    (id : Int) : world'.spot kind id = world.spot kind id := by
  simp only [World.spot, calm.view kind notPlayer id, calm.serial, calm.next, calm.sweeping, calm.deletions]

theorem Calm.staked {world world' : World} (calm : Calm world world') {kind : EntityKind} {id : Int} {stake : Stake}
    (staked : Staked kind id stake world) : Staked kind id stake world' := by
  intro notPlayer
  obtain ⟨new, trace, plain⟩ := calm.trace
  refine staked.of_spot ⟨new, trace, fun entry member => (plain entry member).right kind id⟩ ?_ notPlayer
  rw [calm.spot notPlayer]
  exact fun holds => holds

/-- Without a live runtime less is tracked. -/
theorem Stake.Holds.blind {kind : EntityKind} {spot : Spot} {stake : Stake} (before : stake.Holds kind spot) :
    stake.Holds kind { spot with view := spot.view.blind } := by
  cases stake <;> simp_all [Stake.Holds, Spot.Bounded, View.blind]

theorem Stake.Holds.remove {kind : EntityKind} {spot : Spot} {stake : Stake} (before : stake.Holds kind spot) :
    stake.Holds kind { spot with view := spot.view.blind, current := none } := by
  cases stake <;> simp_all [Stake.Holds, Spot.Bounded, View.blind]

theorem staked_dead {kind : EntityKind} {id : Int} {stake : Stake} {world : World} (staked : Staked kind id stake world) :
    Staked kind id stake (HasInvoker.markDead world) := by
  refine staked.of_spot ⟨[], (List.append_nil _).symm, nofun⟩ fun before => ?_
  have spot : (HasInvoker.markDead world : World).spot kind id =
      { world.spot kind id with view := (world.view kind id).blind } := by
    have serial : (HasInvoker.markDead world : World).runtime.map (·.serial) = world.runtime.map (·.serial) := by
      simp only [HasInvoker.markDead, updateRuntime, Option.map_map]
      rfl
    simp only [World.spot, view_dead, serial]
    rfl
  rw [spot]
  exact before.blind

theorem staked_remove {kind : EntityKind} {id : Int} {stake : Stake} {world : World} (staked : Staked kind id stake world) :
    Staked kind id stake { world with runtime := none } :=
  staked.of_spot ⟨[], (List.append_nil _).symm, nofun⟩ fun before => before.remove

theorem closed_stakes (index : EntityKind × Int × Stake) : Closed (stakes index) where
  calm _ _ calm staked notHalf := calm.staked (staked notHalf)
  dead _ staked notHalf := staked_dead (staked notHalf)
  remove _ staked notHalf := staked_remove (staked notHalf)

theorem closed_holds (hold : Hold) : Closed (holds hold) := by
  cases hold with
  | half kind id => exact ⟨fun _ _ calm => calm.staked, fun _ => staked_dead, fun _ => staked_remove⟩
  | current serial =>
    refine ⟨fun world world' calm same other here => same other (by rw [← calm.serial, here]), fun world same other here => ?_,
      nofun⟩
    refine same other ?_
    rw [← here]
    simp only [HasInvoker.markDead, updateRuntime, Option.map_map]
    rfl

theorem Calm.owns {world world' : World} (calm : Calm world world') (depth : world'.depth = world.depth) :
    Owns world world' := calm.tracked closed_stakes closed_holds depth

/-! ## Steps at one spot -/

theorem Touch.spot {kind : EntityKind} {id : Int} {change : View → View} {entries : List Entry} {world world' : World}
    (touch : Touch kind id change entries world world') (query : EntityKind) (other : Int) :
    world'.spot query other = if query = kind ∧ other = id then
      { world.spot query other with view := change (world.view query other) } else world.spot query other := by
  have view := touch.view query other
  split_ifs at view ⊢ <;>
    simp only [World.spot, view, touch.serial, touch.next, touch.sweeping, touch.deletions]

theorem Touch.current {kind : EntityKind} {id : Int} {change : View → View} {entries : List Entry} {world world' : World}
    (touch : Touch kind id change entries world world') {serial : ℕ} (same : holds (.current serial) world) :
    holds (.current serial) world' := fun other here => same other (by rw [← touch.serial, here])

/-- Elsewhere a step at one spot changes nothing. -/
theorem Touch.elsewhere {kind : EntityKind} {id : Int} {change : View → View} {entries : List Entry} {world world' : World}
    (touch : Touch kind id change entries world world') {query : EntityKind} {other : Int} {stake : Stake}
    (right : ∀ entry ∈ entries, entry.Right query other) (elsewhere : ¬(query = kind ∧ other = id))
    (staked : Staked query other stake world) : Staked query other stake world' := by
  refine staked.of_spot ⟨entries, touch.trace, right⟩ ?_
  rw [touch.spot, if_neg elsewhere]
  exact fun before => before

/-- A step that keeps what is tracked at its spot. -/
theorem Touch.owns {kind : EntityKind} {id : Int} {change : View → View} {entries : List Entry} {world world' : World}
    (touch : Touch kind id change entries world world') (plain : ∀ entry ∈ entries, entry.Plain)
    (keeps : kind ≠ .player → (∀ entry ∈ entries, entry.Honest) → ∀ stake : Stake, stake.Holds kind (world.spot kind id) →
      stake.Holds kind { world.spot kind id with view := change (world.view kind id) }) : Owns world world' := by
  have staked : world'.Fine Entry.Honest → ∀ query other stake, Staked query other stake world →
      Staked query other stake world' := by
    intro fine query other stake staked
    by_cases same : query = kind ∧ other = id
    · obtain ⟨rfl, rfl⟩ := same
      intro notPlayer
      refine staked.of_spot ⟨entries, touch.trace, fun entry member => (plain entry member).right _ _⟩ (fun before => ?_)
        notPlayer
      rw [touch.spot, if_pos ⟨rfl, rfl⟩]
      refine keeps notPlayer (fun entry member => fine entry ?_) stake before
      rw [touch.trace]
      exact List.mem_append_right _ member
    · exact touch.elsewhere (fun entry member => (plain entry member).right _ _) same staked
  refine ⟨touch.grows, fun fine index before notHalf => staked fine _ _ _ (before notHalf), fun fine _ hold before => ?_⟩
  cases hold with
  | half query other => exact staked fine query other .half before
  | current serial => exact touch.current before

/-- A change of what the runtime knows that is not about its mark. -/
theorem Stake.Holds.update {kind : EntityKind} {spot : Spot} {stake : Stake} {change : Sight → Sight}
    (serial : ∀ sight, (change sight).serial = sight.serial) (created : ∀ sight, (change sight).created = sight.created)
    (before : stake.Holds kind spot) : stake.Holds kind { spot with view := spot.view.update change } := by
  cases seen : spot.view.sight <;> cases stake <;>
    simp_all [Stake.Holds, Spot.Bounded, View.update]

theorem owns_adopt (world : World) (kind : EntityKind) (id : Int) : Owns world (world.adopt kind id) :=
  (touch_adopt world kind id).owns (by simp [Entry.Plain]) fun _ _ _ before =>
    before.update (by exact fun _ => rfl) (by exact fun _ => rfl)

/-- The mark goes away where the server has nothing of ours, or is deleting it. -/
theorem Stake.Holds.release {kind : EntityKind} {spot : Spot} {stake : Stake} (before : stake.Holds kind spot)
    (free : (∀ serial, spot.view.owner ≠ some (.runtime serial)) ∨ spot.view.leaving = true) :
    stake.Holds kind { spot with view := spot.view.update fun sight => { sight with alive := false, created := false } } := by
  cases seen : spot.view.sight <;> cases stake <;>
    simp_all [Stake.Holds, Spot.Bounded, View.update]
  rcases free with free | leaves <;> simp_all

theorem owns_release {world : World} {kind : EntityKind} {id : Int}
    (free : kind ≠ .blip → (∀ serial, world.owner kind id ≠ some (.runtime serial)) ∨ world.server.leaving kind id = true) :
    Owns world (world.release kind id) := by
  refine (touch_release world kind id).owns (by simp [Entry.Plain]) fun _ honest _ before => before.release ?_
  by_cases blip : kind = .blip
  · subst blip
    have owner : world.owner .blip id = none ∨ world.owner .blip id = some .other := honest _ (List.mem_singleton_self _)
    refine .inl fun serial same => ?_
    have here : world.owner .blip id = some (.runtime serial) := same
    rcases owner with owner | owner <;> simp [owner] at here
  · exact free blip

theorem owns_enumerate (world : World) : Owns world (enumerate world) :=
  enumerate_of_rules owns_adopt (fun world => by
    have views : ∀ kind id, (world.updateRuntime fun runtime => { runtime with enumerated := true }).view kind id =
        (world.view kind id).update fun sight => { sight with enumerated := true } := fun kind id =>
      view_updateRuntime _ (by exact fun _ => rfl) (by exact fun _ => rfl) world
    have serial : (world.updateRuntime fun runtime => { runtime with enumerated := true }).runtime.map (·.serial) =
        world.runtime.map (·.serial) := by
      cases installed : world.runtime <;> simp [updateRuntime, installed]
    have staked : ∀ query other stake, Staked query other stake world →
        Staked query other stake (world.updateRuntime fun runtime => { runtime with enumerated := true }) := by
      intro query other stake staked
      refine staked.of_spot ⟨[], (List.append_nil _).symm, fun _ member => absurd member List.not_mem_nil⟩ fun before => ?_
      have spot : (world.updateRuntime fun runtime => { runtime with enumerated := true }).spot query other =
          { world.spot query other with
            view := (world.view query other).update fun sight => { sight with enumerated := true } } := by
        simp only [World.spot, views, serial]
        rfl
      rw [spot]
      exact before.update (by exact fun _ => rfl) (by exact fun _ => rfl)
    refine ⟨⟨List.prefix_refl _, rfl, depth_updateRuntime (by exact fun _ => rfl) world⟩,
      fun _ index before notHalf => staked _ _ _ (before notHalf), fun _ _ hold before => ?_⟩
    cases hold with
    | half query other => exact staked query other .half before
    | current number => exact fun other here => before other (by rw [← serial, here])) world

/-- What the runtime knows is what the installed one knows. -/
theorem current_of_sight {world : World} {kind : EntityKind} {id : Int} {sight : Sight}
    (seen : (world.view kind id).sight = some sight) : world.runtime.map (·.serial) = some sight.serial := by
  simp only [World.view, World.live] at seen
  obtain ⟨runtime, lives, rfl⟩ := Option.map_eq_some_iff.mp seen
  rw [(Option.filter_eq_some_iff.mp lives).1]
  rfl

theorem Stake.Holds.mark {kind : EntityKind} {spot : Spot} {stake : Stake} (before : stake.Holds kind spot) {serial : ℕ}
    (owner : spot.view.owner = some (.runtime serial)) (stays : spot.view.leaving = false)
    (same : ∀ sight, spot.view.sight = some sight → sight.serial = serial) :
    stake.Holds kind { spot with
      view := spot.view.update fun sight => { sight with created := sight.created || sight.alive } } := by
  cases seen : spot.view.sight <;> cases stake <;> simp_all [Stake.Holds, Spot.Bounded, View.update]
  all_goals
    obtain ⟨⟨bounded, -⟩, -, -, rfl⟩ := before
    exact bounded

theorem owns_mark {world : World} {serial : ℕ} (current : holds (.current serial) world) (kind : EntityKind) (id : Int) :
    Owns world (world.markCreatedByUs serial kind id) := by
  refine (touch_markCreatedByUs world serial kind id).owns (by simp [Entry.Plain]) fun _ honest _ before => ?_
  obtain ⟨owner, stays⟩ := honest _ (List.mem_singleton_self _)
  exact before.mark owner stays fun sight seen => current _ (current_of_sight seen)

/-- The mark completes a creation. -/
theorem Stake.Holds.complete {kind : EntityKind} {spot : Spot} (before : Stake.half.Holds kind spot) {serial : ℕ}
    (owner : spot.view.owner = some (.runtime serial)) (same : ∀ sight, spot.view.sight = some sight → sight.serial = serial)
    (alive : ∀ sight, spot.view.sight = some sight → sight.alive = true) :
    Stake.settled.Holds kind { spot with
      view := spot.view.update fun sight => { sight with created := sight.created || sight.alive } } := by
  cases seen : spot.view.sight <;> simp_all [Stake.Holds, Spot.Bounded, View.update]

/-- Somebody else has the id now, and it was not the runtime's before. -/
theorem Stake.Holds.setOwner {kind : EntityKind} {spot : Spot} {stake : Stake} {owner : Option Owner}
    (before : stake.Holds kind spot) (other : ∀ serial, owner ≠ some (.runtime serial))
    (unmarked : ∀ sight, spot.view.sight = some sight → spot.view.owner ≠ some (.runtime sight.serial))
    (unheld : ∀ serial, spot.sweeping = some serial → spot.view.owner ≠ some (.runtime serial)) :
    stake.Holds kind { spot with view := { spot.view with owner } } := by
  cases seen : spot.view.sight <;> cases stake <;> simp_all [Stake.Holds, Spot.Bounded]

/-- While a runtime is installed, `DeleteCreated` does not run. -/
theorem Stake.Holds.ended {kind : EntityKind} {spot : Spot} {stake : Stake} (before : stake.Holds kind spot)
    (present : spot.current ≠ none) : (∀ serial, stake ≠ .held serial) ∧ (∀ serial, stake ≠ .free serial) ∧
      ∀ serial, stake ≠ .sweeping serial := by
  cases stake <;> simp_all [Stake.Holds]

/-! ## Key binds -/

theorem Stake.Holds.unbind {spot : Spot} {stake : Stake} (before : stake.Holds .bind spot) (present : spot.current ≠ none) :
    stake.Holds .bind { spot with
      view := View.update (fun sight => { sight with alive := false, created := false }) { spot.view with owner := none } } := by
  obtain ⟨notHeld, notFree, notSweeping⟩ := before.ended present
  cases seen : spot.view.sight <;> cases stake <;> simp_all [Stake.Holds, Spot.Bounded, View.update]

theorem touch_removeBind (world : World) (id : Int) :
    Touch .bind id (fun view => View.update (fun sight => { sight with alive := false, created := false }) { view with owner := none })
      [.released .bind id none] world ((removeKeyBind id world).release .bind id) := by
  have released := (touch_setEntity world .bind id none).trans (touch_release (removeKeyBind id world) .bind id)
  have owner : (removeKeyBind id world).owner .bind id = none := by
    rw [removeKeyBind, owner_setEntity, if_pos ⟨rfl, rfl⟩]
  rwa [owner] at released

theorem owns_removeBind (id : Int) : Keeps (InCall Owns) (removeBind id) := by
  intro world inCall
  refine (touch_removeBind world id).owns (by simp [Entry.Plain]) fun _ _ _ before => before.unbind ?_
  cases installed : world.runtime with
  | none => simp [World.depth, installed] at inCall
  | some runtime => simp [World.spot, installed]

theorem owns_rebind (slot : Int) (owner : Option Owner) (other : ∀ serial, owner ≠ some (.runtime serial)) (world : World) :
    Owns world (rebind slot (World.setEntity .bind slot owner) world) := by
  let logged := world.log (.rebound slot (world.owner .bind slot) (world.runtime.map (·.serial)) world.sweeping)
  have logs : Touch .bind slot (fun view => view)
      [.rebound slot (world.owner .bind slot) (world.runtime.map (·.serial)) world.sweeping] world logged :=
    ⟨rfl, fun query other => by rw [ite_self]; rfl, rfl, rfl, rfl, rfl, rfl⟩
  refine (logs.trans (touch_setEntity logged .bind slot owner)).owns (by simp [Entry.Plain]) fun _ honest _ before => ?_
  have free := honest _ (List.mem_singleton_self _)
  have owned : (world.spot .bind slot).view.owner = world.owner .bind slot := rfl
  refine before.setOwner other (fun sight seen same => ?_) fun serial sweeping same => ?_
  · have current := current_of_sight seen
    simp [Entry.Honest, current, ← owned, same] at free
  · have sweeps : world.sweeping = some serial := sweeping
    simp [Entry.Honest, sweeps, ← owned, same] at free

/-- A creation in one step: the server has it, and it is adopted and marked. -/
theorem Stake.Holds.create {kind : EntityKind} {spot : Spot} {stake : Stake} (before : stake.Holds kind spot)
    (present : spot.current ≠ none) {serial : ℕ} (same : ∀ sight, spot.view.sight = some sight → sight.serial = serial)
    (stays : spot.view.leaving = false) (early : serial < spot.next) :
    stake.Holds kind { spot with
      view := View.update (fun sight => { sight with created := sight.created || sight.alive })
        (View.update (fun sight => { sight with alive := sight.alive || true })
          { spot.view with owner := some (.runtime serial) }) } := by
  obtain ⟨notHeld, notFree, notSweeping⟩ := before.ended present
  cases seen : spot.view.sight <;> cases stake <;> simp_all [Stake.Holds, Spot.Bounded, View.update]

theorem spot_current {world : World} {runtime : Runtime} (installed : world.runtime = some runtime) (kind : EntityKind)
    (id : Int) : (world.spot kind id).current = some runtime.serial := by
  simp [World.spot, installed]

theorem current_of_installed {world : World} {runtime : Runtime} (installed : world.runtime = some runtime) :
    holds (.current runtime.serial) world := by
  intro other here
  simpa [installed, eq_comm] using here

/-- The `create` of a key bind, in the slot that the server has free. -/
theorem owns_createdBind {world : World} {runtime : Runtime} (installed : world.runtime = some runtime) {slot : Int}
    (range : inRange .bind slot = true) (owner : Option Owner) :
    Owns world (((world.setEntity .bind slot owner).adopt .bind slot).markCreatedByUs runtime.serial .bind slot) := by
  let placed := world.setEntity .bind slot owner
  have touch := ((touch_setEntity world .bind slot owner).trans (touch_adopt placed .bind slot)).trans
    (touch_markCreatedByUs (placed.adopt .bind slot) runtime.serial .bind slot)
  refine touch.owns (by simp [Entry.Plain]) fun notPlayer honest stake before => ?_
  have owned : (placed.adopt .bind slot).owner .bind slot = owner := by
    rw [show (placed.adopt .bind slot).owner .bind slot = placed.owner .bind slot from rfl, owner_setEntity, if_pos ⟨rfl, rfl⟩]
  obtain ⟨mine, stays⟩ := honest (.marked runtime.serial .bind slot ((placed.adopt .bind slot).owner .bind slot)
    ((placed.adopt .bind slot).server.leaving .bind slot)) (by simp)
  rw [owned] at mine
  subst mine
  have bounded : runtime.serial < world.nextSerial := by
    cases stake with
    | sweeping serial => simp [Stake.Holds, spot_current installed] at before
    | _ => exact before.1.2 runtime.serial (spot_current installed _ _)
  have complete := before.create (by simp [spot_current installed])
    (fun sight seen => current_of_installed installed _ (current_of_sight seen)) stays bounded
  rw [range]
  exact complete

theorem owns_createBind (slot : Int) (keys : Int × Int × Int) : Keeps Owns (createBind slot keys) := by
  refine keeps_required fun world runtime installed _ => ?_
  by_cases refused : (!(inRange .bind slot) || world.server.exists? .bind slot) = true
  · simp only [after, get_bind, if_pos refused]
    exact refl_of Owns world
  · have range : inRange .bind slot = true := by
      simp only [Bool.or_eq_true, Bool.not_eq_true', not_or, Bool.not_eq_false] at refused
      exact refused.1
    simp only [after, get_bind, if_neg refused]
    exact owns_createdBind installed range _

/-- One step of `clearAllBinds`. -/
def passBind (serial : ℕ) (id : Int) (world : World) : World :=
  (removeKeyBind id (world.log (.passed serial .bind id (world.owner .bind id)))).release .bind id

theorem touch_passBind (world : World) (serial : ℕ) (id : Int) :
    Touch .bind id (fun view => View.update (fun sight => { sight with alive := false, created := false }) { view with owner := none })
      [.passed serial .bind id (world.owner .bind id), .released .bind id none] world (passBind serial id world) := by
  have logs : Touch .bind id (fun view => view) [.passed serial .bind id (world.owner .bind id)] world
      (world.log (.passed serial .bind id (world.owner .bind id))) :=
    ⟨rfl, fun query other => by rw [ite_self]; rfl, rfl, rfl, rfl, rfl, rfl⟩
  exact logs.trans (touch_removeBind _ id)

/-- What the loop passes is the runtime's own, as long as it was at the start. -/
theorem staked_passBinds {kind : EntityKind} {id : Int} {stake : Stake} {serial : ℕ} (ids : List Int) (distinct : ids.Nodup)
    (world : World) (present : (world.spot kind id).current ≠ none)
    (own : kind = .bind → id ∈ ids → world.owner .bind id = some (.runtime serial)) (staked : Staked kind id stake world) :
    Staked kind id stake (ids.foldl (fun world id => passBind serial id world) world) := by
  induction ids generalizing world with
  | nil => exact staked
  | cons head rest ih =>
    obtain ⟨fresh, distinct'⟩ := List.nodup_cons.mp distinct
    have touch := touch_passBind world serial head
    have present' : ((passBind serial head world).spot kind id).current ≠ none := by
      simpa only [World.spot, touch.serial] using present
    by_cases same : kind = .bind ∧ id = head
    · obtain ⟨rfl, rfl⟩ := same
      refine ih distinct' _ present' (fun _ later => absurd later fresh) ?_
      have owner := own rfl (List.mem_cons_self ..)
      refine staked.of_spot ⟨_, touch.trace, ?_⟩ fun before => ?_
      · intro entry member
        simp only [List.mem_cons, List.not_mem_nil, or_false] at member
        rcases member with rfl | rfl
        · exact ⟨nofun, fun _ => owner⟩
        · trivial
      · rw [touch.spot, if_pos ⟨rfl, rfl⟩]
        exact before.unbind present
    · refine ih distinct' _ present' (fun isBind later => ?_) (touch.elsewhere ?_ same staked)
      · have view := congrArg View.owner (touch.view kind id)
        rw [if_neg same] at view
        have owner : (passBind serial head world).owner kind id = world.owner kind id := view
        subst isBind
        rw [owner]
        exact own rfl (List.mem_cons_of_mem _ later)
      · intro entry member
        simp only [List.mem_cons, List.not_mem_nil, or_false] at member
        rcases member with rfl | rfl
        · exact ⟨nofun, fun here => absurd ⟨here.1.symm, here.2.symm⟩ same⟩
        · trivial

theorem nodup_createdByUs (pool : EntityPool) : pool.createdByUs.Nodup := by
  refine (List.nodup_range.map ?_).filter _
  intro first second same
  simpa using same

/-- A live runtime's marks are what its view shows. -/
theorem created_of_listed {world : World} {runtime : Runtime} (installed : world.runtime = some runtime)
    (lives : runtime.dead = false) (kind : EntityKind) (id : Int) :
    ∃ sight, (world.view kind id).sight = some sight ∧ sight.serial = runtime.serial ∧
      (id ∈ (runtime.entities kind).createdByUs ↔ sight.created = true) := by
  refine ⟨runtime.sight kind id, by simp [World.view, World.live, installed, Option.filter_some, lives], rfl, ?_⟩
  rw [EntityPool.mem_createdByUs, Runtime.sight, EntityPool.made, Bool.and_eq_true]

theorem owner_of_listed {world : World} {runtime : Runtime} (installed : world.runtime = some runtime)
    (lives : runtime.dead = false) {kind : EntityKind} {id : Int} (notBlip : kind ≠ .blip) {stake : Stake}
    (before : stake.Holds kind (world.spot kind id)) (listed : id ∈ (runtime.entities kind).createdByUs) :
    world.owner kind id = some (.runtime runtime.serial) := by
  obtain ⟨sight, seen, serial, iff⟩ := created_of_listed installed lives kind id
  obtain ⟨notHeld, notFree, notSweeping⟩ := before.ended (by simp [spot_current installed])
  have created := iff.mp listed
  rw [← serial]
  cases stake with
  | settled => exact (before.2 sight seen).1 created
  | half => exact before.2 sight seen created
  | gone => rw [before.2.2 sight seen] at created; cases created
  | dangling => exact absurd before.2.1 notBlip
  | held other => exact absurd rfl (notHeld other)
  | free other => exact absurd rfl (notFree other)
  | sweeping other => exact absurd rfl (notSweeping other)

theorem grows_passBinds (serial : ℕ) (ids : List Int) (world : World) :
    Grows world (ids.foldl (fun world id => passBind serial id world) world) ∧
      (ids.foldl (fun world id => passBind serial id world) world).runtime.map (·.serial) = world.runtime.map (·.serial) := by
  induction ids generalizing world with
  | nil => exact ⟨⟨List.prefix_refl _, rfl, rfl⟩, rfl⟩
  | cons head rest ih =>
    have touch := touch_passBind world serial head
    obtain ⟨grows, same⟩ := ih (passBind serial head world)
    exact ⟨touch.grows.trans grows, same.trans touch.serial⟩

theorem after_passBinds (serial : ℕ) (ids : List Int) (world : World) :
    forEach (fun id => do
      modify fun world => world.log (.passed serial .bind id (world.owner .bind id))
      let _ ← removeBind id) ids world = (.ok () (ids.foldl (fun world id => passBind serial id world) world) :
        EStateM.Result Exn World Unit) := by
  induction ids generalizing world with
  | nil => rfl
  | cons head rest ih =>
    rw [forEach]
    exact ih (passBind serial head world)

theorem owns_clearAllBinds : Keeps Owns clearAllBinds := by
  refine keeps_required fun world runtime installed usable => ?_
  have lives : runtime.dead = false := by
    simp only [Runtime.usable, Bool.and_eq_true, Bool.not_eq_true'] at usable
    exact usable.2
  let ids := (runtime.entities .bind).createdByUs
  have result : after (do
      forEach (fun id => do
        modify fun world => world.log (.passed runtime.serial .bind id (world.owner .bind id))
        let _ ← removeBind id) ids
      return 0 : EStateM Exn World Int) world = ids.foldl (fun world id => passBind runtime.serial id world) world := by
    simp only [after, bind_of_ok (after_passBinds runtime.serial ids world)]
    rfl
  rw [result]
  obtain ⟨grows, same⟩ := grows_passBinds runtime.serial ids world
  have staked : ∀ kind id stake, Staked kind id stake world →
      Staked kind id stake (ids.foldl (fun world id => passBind runtime.serial id world) world) := by
    intro kind id stake staked notPlayer
    refine staked_passBinds ids (nodup_createdByUs _) world (by simp [spot_current installed]) (fun isBind listed => ?_)
      staked notPlayer
    subst isBind
    exact owner_of_listed installed lives (by decide) (staked notPlayer).2 listed
  refine ⟨grows, fun _ index before notHalf => staked _ _ _ (before notHalf), fun _ _ hold before => ?_⟩
  cases hold with
  | half kind id => exact staked kind id .half before
  | current serial => exact fun other here => before other (by rw [← same, here])

/-! ## Deletions -/

theorem spot_beginDeletion (world : World) (kind : EntityKind) (deleted : Int) (query : EntityKind) (id : Int) :
    (beginDeletion kind deleted world).spot query id =
      { world.spot query id with view := (beginDeletion kind deleted world).view query id, deleting := true } := by
  have deleting : (!(beginDeletion kind deleted world).server.deletions.isEmpty) = true := by
    rw [deletions_beginDeletion]
    rfl
  simp only [World.spot, deleting]
  unfold beginDeletion
  split_ifs <;> rfl

theorem spot_endDeletion (world : World) (kind : EntityKind) (deleted : Int) (query : EntityKind) (id : Int) :
    (endDeletion kind deleted world).spot query id =
      { world.spot query id with
        view := (endDeletion kind deleted world).view query id
        deleting := !(world.server.deletions.erase (kind, deleted)).isEmpty } := by
  simp only [World.spot, deletions_endDeletion]
  unfold endDeletion
  split_ifs <;> rfl

/-- Whether something is being deleted matters only to a blip that is. -/
theorem Stake.Holds.deleting {kind : EntityKind} {spot : Spot} {stake : Stake} (before : stake.Holds kind spot)
    {deleting : Bool} (same : stake = .dangling → deleting = true) : stake.Holds kind { spot with deleting } := by
  cases stake with
  | dangling => exact ⟨before.1, before.2.1, same rfl⟩
  | _ => exact before

/-- The deletion begins. -/
theorem Stake.Holds.leave {kind : EntityKind} {spot : Spot} {stake : Stake} (before : stake.Holds kind spot)
    (unheld : ∀ serial, stake ≠ .held serial) :
    stake.Holds kind { spot with view := { spot.view with leaving := true }, deleting := true } := by
  cases seen : spot.view.sight <;> cases stake <;> simp_all [Stake.Holds, Spot.Bounded]

/-- The deletion of a blip begins: what is known about the mark is lost. -/
theorem Stake.Holds.dangle {spot : Spot} {stake : Stake} (before : stake.Holds .blip spot)
    (bounded : ∀ serial, stake ≠ .sweeping serial) :
    Stake.dangling.Holds .blip { spot with view := { spot.view with owner := none }, deleting := true } := by
  cases stake <;> simp_all [Stake.Holds, Spot.Bounded]

/-- While `DeleteCreated` runs, what the server no longer has is not ours. -/
theorem Stake.Holds.vacate {kind : EntityKind} {spot : Spot} {serial : ℕ} (settled : Stake.settled.Holds kind spot)
    (sweeping : (Stake.sweeping serial).Holds kind spot) (leaving deleting : Bool) :
    (Stake.free serial).Holds kind { spot with view := { spot.view with owner := none, leaving }, deleting } :=
  ⟨⟨nofun, settled.1.2⟩, sweeping.1, sweeping.2, nofun⟩

/-- The deletion returns. -/
theorem Stake.Holds.finish {kind : EntityKind} {spot : Spot} (before : Stake.gone.Holds kind spot) (deleting : Bool) :
    Stake.settled.Holds kind { spot with view := { spot.view with owner := none, leaving := false }, deleting } := by
  simp_all [Stake.Holds, Spot.Bounded]

theorem Stake.Holds.half {kind : EntityKind} {spot : Spot} (before : Stake.settled.Holds kind spot) :
    Stake.half.Holds kind spot := ⟨before.1, fun sight seen => (before.2 sight seen).1⟩

/-- What is tracked, whether only inside of a call or always. -/
theorem owns_staked {world world' : World} (owns : Owns world world') (fine : world'.Fine Entry.Honest) {kind : EntityKind}
    {id : Int} {stake : Stake} (inside : stake = .half → 0 < world.depth) (staked : Staked kind id stake world) :
    Staked kind id stake world' := by
  by_cases half : stake = .half
  · subst half
    exact owns.inside fine (inside rfl) (.half kind id) staked
  · exact owns.always fine ⟨kind, id, stake⟩ (fun _ => staked) half

section Requests

variable {inner : Inner}

theorem owns_requestRules : RequestRules Owns := tracked_requestRules closed_stakes closed_holds owns_adopt owns_enumerate

variable (innerKeeps : ∀ site, Keeps Owns (inner site))

include innerKeeps

theorem owns_finishShutdown (world : World) (idle : world.depth = 0) : Owns world (after (finishShutdown inner) world) :=
  finishShutdown_of_remove owns_requestRules innerKeeps (fun _ _ tracked => tracked.depth)
    (tracked_releasePlayer closed_stakes closed_holds) (tracked_remove closed_stakes closed_holds) world idle

theorem owns_afterCallback : Keeps Owns (afterCallback inner) := keeps_afterCallback (owns_finishShutdown innerKeeps)

omit innerKeeps in
theorem beginDeletion_spec (kind : EntityKind) (id : Int) (world : World) :
    (beginDeletion kind id world).depth = world.depth ∧ (beginDeletion kind id world).trace = world.trace := by
  unfold beginDeletion
  split_ifs <;> exact ⟨rfl, rfl⟩

omit innerKeeps in
theorem runtime_deletion (kind : EntityKind) (id : Int) (world : World) :
    (beginDeletion kind id world).runtime = world.runtime ∧ (endDeletion kind id world).runtime = world.runtime := by
  unfold beginDeletion endDeletion
  split_ifs <;> exact ⟨rfl, rfl⟩

/-- A deletion that was not refused, from its beginning to right before it returns. -/
structure Deletion (kind : EntityKind) (id : Int) (world told last : World) : Prop where
  stays : world.server.leaving kind id = false
  started : Owns (beginDeletion kind id world) told
  rest : Owns told last
  /-- The runtime, if it lives, releases the entity after the event. -/
  ending : last.Fine Entry.Honest → (told.live = none ∧ Owns told last) ∨ Owns (told.release kind id) last

theorem deleteEntity_owns (kind : EntityKind) (id : Int) {before after' : EStateM Empty World Ending}
    (beforeKeeps : Keeps Owns before) (afterKeeps : Keeps Owns after') (world : World) :
    deleteEntity kind id before after' inner world = .ok false world ∨
      ∃ told last, deleteEntity kind id before after' inner world = .ok true (endDeletion kind id last) ∧
        Deletion kind id world told last := by
  rcases deleteEntity_path owns_requestRules innerKeeps (owns_afterCallback innerKeeps) kind id beforeKeeps afterKeeps world
    with refused | ⟨told, last, -, stays, result, started, ending⟩
  · exact .inl refused
  · have releases : Owns told (told.release kind id) := by
      refine owns_release fun notBlip => .inr ((leaving_iff _ _ _).mpr ⟨notBlip, ?_⟩)
      rw [started.deletions, deletions_beginDeletion]
      exact List.mem_cons_self ..
    refine .inr ⟨told, last, result, stays, started, ?_, fun fine => ?_⟩
    · rcases ending with ⟨-, heard⟩ | heard | heard
      · exact heard
      · exact trans_of Owns releases heard
      · exact trans_of Owns (owns_requestRules.plain told _ (by trivial)) heard
    · rcases ending with silent | heard | heard
      · exact .inl silent
      · exact .inr heard
      · exact (heard.fine fine _ (List.mem_append_right _ (List.mem_singleton_self _))).elim

end Requests

/-- While `DeleteCreated` runs, no runtime is there to know anything. -/
theorem staked_of_sweeping {kind : EntityKind} {id : Int} {world : World} {stake : Stake} {serial : ℕ}
    (sweeps : stake = .held serial ∨ stake = .free serial) (staked : Staked kind id stake world) :
    Staked kind id .settled world ∧ Staked kind id (.sweeping serial) world := by
  have parts : kind ≠ .player → (world.spot kind id).Bounded ∧ (Stake.sweeping serial).Holds kind (world.spot kind id) := by
    intro notPlayer
    rcases sweeps with rfl | rfl <;> exact ⟨(staked notPlayer).2.1, (staked notPlayer).2.2.1, (staked notPlayer).2.2.2.1⟩
  refine ⟨fun notPlayer => ⟨(staked notPlayer).1, (parts notPlayer).1, fun sight seen => ?_⟩,
    fun notPlayer => ⟨(staked notPlayer).1, (parts notPlayer).2⟩⟩
  have none : world.runtime.map (·.serial) = none := (parts notPlayer).2.1
  rw [current_of_sight seen] at none
  cases none

section Deletion

variable {kind : EntityKind} {id : Int} {world told last : World} (deletion : Deletion kind id world told last)

include deletion

theorem Deletion.deletions : last.server.deletions = (kind, id) :: world.server.deletions := by
  rw [deletion.rest.deletions, deletion.started.deletions, deletions_beginDeletion]

theorem Deletion.once (notBlip : kind ≠ .blip) : (kind, id) ∉ world.server.deletions := by
  intro member
  have leaves := (leaving_iff world.server kind id).mpr ⟨notBlip, member⟩
  rw [deletion.stays] at leaves
  cases leaves

theorem Deletion.grows : Grows world (endDeletion kind id last) :=
  (deletion.started.toGrows.trans deletion.rest.toGrows).deletion

/-- What the deletion leaves at a spot. -/
theorem Deletion.spot (query : EntityKind) (other : Int) : (endDeletion kind id last).spot query other =
    { last.spot query other with
      view := if (query = kind ∧ other = id) ∧ kind ≠ .blip then
        { last.view query other with owner := none, leaving := false } else last.view query other
      deleting := (world.spot query other).deleting } := by
  rw [spot_endDeletion, view_endDeletion deletion.deletions deletion.once, deletion.deletions, List.erase_cons_head]
  rfl

/-- What the event of the deletion keeps. -/
theorem Deletion.toTold {query : EntityKind} {other : Int} {stake : Stake} (fine : last.Fine Entry.Honest)
    (inside : stake = .half → 0 < world.depth) (staked : Staked query other stake (beginDeletion kind id world)) :
    Staked query other stake told := by
  have begins := (beginDeletion_spec kind id world).1
  exact owns_staked deletion.started (deletion.rest.fine fine) (fun half => begins.symm ▸ inside half) staked

theorem Deletion.toLast {query : EntityKind} {other : Int} {stake : Stake} (fine : last.Fine Entry.Honest)
    (inside : stake = .half → 0 < world.depth) (staked : Staked query other stake (beginDeletion kind id world)) :
    Staked query other stake last := by
  have depth : told.depth = world.depth := deletion.started.depth.trans (beginDeletion_spec kind id world).1
  exact owns_staked deletion.rest fine (fun half => depth.symm ▸ inside half) (deletion.toTold fine inside staked)

/-- After the event the runtime's mark is gone. -/
theorem Deletion.released {stake stake' : Stake} (fine : last.Fine Entry.Honest) (notHalf : stake' ≠ .half)
    (staked : Staked kind id stake told) (blind : (told.spot kind id).view.sight = none → stake.Holds kind (told.spot kind id) →
      stake'.Holds kind (told.spot kind id))
    (released : (kind = .blip → told.owner kind id = none ∨ told.owner kind id = some .other) →
      stake.Holds kind (told.spot kind id) → stake'.Holds kind { told.spot kind id with
        view := (told.view kind id).update fun sight => { sight with alive := false, created := false } }) :
    Staked kind id stake' last := by
  intro notPlayer
  obtain ⟨right, holds⟩ := staked notPlayer
  rcases deletion.ending fine with ⟨silent, heard⟩ | heard
  · refine owns_staked heard fine (fun half => absurd half notHalf) (fun _ => ⟨right, blind ?_ holds⟩) notPlayer
    simp [World.spot, World.view, silent]
  · have touch := touch_release told kind id
    refine owns_staked heard fine (fun half => absurd half notHalf) (fun _ => ⟨?_, ?_⟩) notPlayer
    · rw [touch.trace]
      exact right_append right (by simp [Entry.Plain])
    · rw [touch.spot, if_pos ⟨rfl, rfl⟩]
      refine released (fun blip => ?_) holds
      subst blip
      exact heard.fine fine (.released .blip id (told.owner .blip id)) (List.mem_append_right _ (List.mem_singleton_self _))

/-- The deletion of a blip: its id is free from the beginning, so anybody may have taken it. -/
theorem Deletion.settled_of_blip {stake : Stake} (blip : kind = .blip) (fine : last.Fine Entry.Honest)
    (marked : ∀ serial, stake ≠ .sweeping serial) (staked : Staked kind id stake world) : Staked kind id .settled last := by
  subst blip
  have dangling : Staked .blip id .dangling told := by
    refine deletion.toTold fine nofun fun notPlayer => ?_
    rw [(beginDeletion_spec .blip id world).2, spot_beginDeletion, view_beginDeletion, if_pos ⟨rfl, rfl⟩, if_pos rfl]
    exact ⟨(staked notPlayer).1, (staked notPlayer).2.dangle marked⟩
  refine deletion.released fine nofun dangling (fun blind before => ⟨before.1, by simp [blind]⟩) fun free before => ?_
  refine ⟨before.1, fun sight seen => ?_⟩
  obtain ⟨known, -, rfl⟩ := Option.map_eq_some_iff.mp seen
  refine ⟨nofun, fun same => ?_⟩
  have owner : told.owner .blip id = some (.runtime known.serial) := same
  rcases free rfl with none | other
  · simp [none] at owner
  · simp [other] at owner

/-- The deletion of anything else: its id stays in use until it returns. -/
theorem Deletion.gone_of_other {stake : Stake} (notBlip : kind ≠ .blip) (fine : last.Fine Entry.Honest)
    (marked : stake = .settled ∨ stake = .half) (inside : stake = .half → 0 < world.depth)
    (staked : Staked kind id stake world) : Staked kind id .gone last := by
  have leaves : (told.spot kind id).view.leaving = true := by
    refine (leaving_iff _ _ _).mpr ⟨notBlip, ?_⟩
    rw [deletion.started.deletions, deletions_beginDeletion]
    exact List.mem_cons_self ..
  have kept : Staked kind id stake told := by
    refine deletion.toTold fine inside fun notPlayer => ?_
    rw [(beginDeletion_spec kind id world).2, spot_beginDeletion, view_beginDeletion, if_pos ⟨rfl, rfl⟩, if_neg notBlip]
    refine ⟨(staked notPlayer).1, (staked notPlayer).2.leave ?_⟩
    rcases marked with rfl | rfl <;> exact nofun
  have bounded : stake.Holds kind (told.spot kind id) → (told.spot kind id).Bounded := by
    rcases marked with rfl | rfl <;> exact And.left
  refine deletion.released fine nofun kept (fun blind before => ⟨bounded before, leaves, by simp [blind]⟩) fun _ before => ?_
  refine ⟨bounded before, leaves, fun sight seen => ?_⟩
  obtain ⟨known, -, rfl⟩ := Option.map_eq_some_iff.mp seen
  rfl

/-- Where the runtime's mark was right, it is right when the deletion returns. -/
theorem Deletion.settled {stake : Stake} (fine : last.Fine Entry.Honest) (marked : stake = .settled ∨ stake = .half)
    (inside : stake = .half → 0 < world.depth) (staked : Staked kind id stake world) :
    Staked kind id .settled (endDeletion kind id last) := by
  intro notPlayer
  rw [trace_endDeletion, deletion.spot]
  by_cases blip : kind = .blip
  · rw [if_neg fun both => both.2 blip]
    have settled := deletion.settled_of_blip blip fine (by rcases marked with rfl | rfl <;> exact nofun) staked notPlayer
    exact ⟨settled.1, settled.2.deleting nofun⟩
  · rw [if_pos ⟨⟨rfl, rfl⟩, blip⟩]
    have gone := deletion.gone_of_other blip fine marked inside staked notPlayer
    exact ⟨gone.1, gone.2.finish _⟩

/-- What a deletion keeps elsewhere. -/
theorem Deletion.elsewhere {query : EntityKind} {other : Int} {stake : Stake} (elsewhere : ¬(query = kind ∧ other = id))
    (fine : last.Fine Entry.Honest) (inside : stake = .half → 0 < world.depth) (staked : Staked query other stake world) :
    Staked query other stake (endDeletion kind id last) := by
  have begun : Staked query other stake (beginDeletion kind id world) := by
    intro notPlayer
    rw [(beginDeletion_spec kind id world).2, spot_beginDeletion, view_beginDeletion, if_neg elsewhere]
    exact ⟨(staked notPlayer).1, (staked notPlayer).2.deleting fun _ => rfl⟩
  have kept := deletion.toLast fine inside begun
  intro notPlayer
  rw [trace_endDeletion, deletion.spot, if_neg fun both => elsewhere both.1]
  refine ⟨(kept notPlayer).1, (kept notPlayer).2.deleting ?_⟩
  rintro rfl
  exact (staked notPlayer).2.2.2

/-- While `DeleteCreated` runs, what was deleted is not ours anymore. -/
theorem Deletion.free {serial : ℕ} (fine : last.Fine Entry.Honest) (settled : Staked kind id .settled world)
    (sweeping : Staked kind id (.sweeping serial) world) : Staked kind id (.free serial) (endDeletion kind id last) := by
  intro notPlayer
  have right := (settled notPlayer).1
  rw [trace_endDeletion, deletion.spot]
  by_cases blip : kind = .blip
  · rw [if_neg fun both => both.2 blip]
    have begun : Staked kind id (.free serial) (beginDeletion kind id world) := by
      intro _
      rw [(beginDeletion_spec kind id world).2, spot_beginDeletion, view_beginDeletion, if_pos ⟨rfl, rfl⟩, if_pos blip]
      exact ⟨right, (settled notPlayer).2.vacate (sweeping notPlayer).2 _ _⟩
    have kept := deletion.toLast fine (by exact nofun) begun notPlayer
    exact ⟨kept.1, kept.2.deleting nofun⟩
  · rw [if_pos ⟨⟨rfl, rfl⟩, blip⟩]
    have begun : ∀ stake : Stake, (∀ number, stake ≠ .held number) → Staked kind id stake world →
        Staked kind id stake (beginDeletion kind id world) := by
      intro stake unheld staked _
      rw [(beginDeletion_spec kind id world).2, spot_beginDeletion, view_beginDeletion, if_pos ⟨rfl, rfl⟩, if_neg blip]
      exact ⟨right, (staked notPlayer).2.leave unheld⟩
    have kept := deletion.toLast fine (by exact nofun) (begun .settled nofun settled) notPlayer
    have sweeps := deletion.toLast fine (by exact nofun) (begun (.sweeping serial) nofun sweeping) notPlayer
    exact ⟨kept.1, kept.2.vacate sweeps.2 _ _⟩

/-- What a deletion keeps at its own spot, unless `DeleteCreated` has yet to come to it. -/
theorem Deletion.here {stake : Stake} (fine : last.Fine Entry.Honest) (unheld : ∀ serial, stake ≠ .held serial)
    (inside : stake = .half → 0 < world.depth) (staked : Staked kind id stake world) :
    Staked kind id stake (endDeletion kind id last) := by
  cases stake with
  | settled => exact deletion.settled fine (.inl rfl) inside staked
  | half =>
    intro notPlayer
    have settled := deletion.settled fine (.inr rfl) inside staked notPlayer
    exact ⟨settled.1, settled.2.half⟩
  | gone =>
    intro notPlayer
    have leaves : world.server.leaving kind id = true := (staked notPlayer).2.2.1
    rw [deletion.stays] at leaves
    cases leaves
  | dangling =>
    intro notPlayer
    have blip : kind = .blip := (staked notPlayer).2.2.1
    have settled := deletion.settled_of_blip blip fine (by exact nofun) staked notPlayer
    rw [trace_endDeletion, deletion.spot, if_neg fun both => both.2 blip]
    exact ⟨settled.1, settled.2.1, blip, (staked notPlayer).2.2.2⟩
  | held serial => exact absurd rfl (unheld serial)
  | free serial =>
    obtain ⟨settled, sweeping⟩ := staked_of_sweeping (Or.inr rfl) staked
    exact deletion.free fine settled sweeping
  | sweeping serial =>
    intro notPlayer
    have begun : Staked kind id (.sweeping serial) (beginDeletion kind id world) := by
      intro _
      rw [(beginDeletion_spec kind id world).2, spot_beginDeletion]
      exact staked notPlayer
    have sweeps := deletion.toLast fine (by exact nofun) begun notPlayer
    rw [trace_endDeletion, deletion.spot]
    exact sweeps

end Deletion

end VcmpLua.Model.Plugin
