import VcmpLua.Proofs.Plugin.RequestRules

/-! # What is known about one id

For one kind and id, a view has what the live runtime knows (`Sight`) next to what the server has.
Every update of the model changes the view of one id, if any, in a way that is written down here
once.
-/

namespace VcmpLua.Model.Plugin

open Effect VcmpLua.Model.Core World

/-- What a runtime knows about an id. `created`: alive and marked as created by the runtime. -/
structure Sight where
  serial : ℕ
  enumerated : Bool
  alive : Bool
  created : Bool
deriving DecidableEq, Repr

/-- What the live runtime, if there is one, and the server have at an id. -/
@[ext] structure View where
  sight : Option Sight
  owner : Option Owner
  leaving : Bool
deriving DecidableEq, Repr

def Runtime.sight (runtime : Runtime) (kind : EntityKind) (id : Int) : Sight where
  serial := runtime.serial
  enumerated := runtime.enumerated
  alive := (runtime.entities kind).alive id
  created := (runtime.entities kind).made id

def World.view (world : World) (kind : EntityKind) (id : Int) : View where
  sight := world.live.map (·.sight kind id)
  owner := world.owner kind id
  leaving := world.server.leaving kind id

/-- No live runtime. -/
def View.blind (view : View) : View := { view with sight := none }

def View.update (f : Sight → Sight) (view : View) : View := { view with sight := view.sight.map f }

/-! ## Updates of the runtime -/

theorem view_log (world : World) (entry : Entry) (kind : EntityKind) (id : Int) :
    (world.log entry).view kind id = world.view kind id := rfl

/-- An update that neither kills nor revives the runtime. -/
theorem view_updateRuntime {f : Runtime → Runtime} {kind : EntityKind} {id : Int} (change : Sight → Sight)
    (sameDead : ∀ runtime, (f runtime).dead = runtime.dead)
    (sight : ∀ runtime, (f runtime).sight kind id = change (runtime.sight kind id)) (world : World) :
    (world.updateRuntime f).view kind id = (world.view kind id).update change := by
  simp only [World.view, View.update, View.mk.injEq]
  refine ⟨?_, rfl, rfl⟩
  simp only [World.live, updateRuntime]
  cases world.runtime with
  | none => rfl
  | some runtime => cases lives : runtime.dead <;> simp [Option.filter_some, lives, sameDead, sight]

@[simp] theorem View.update_same (view : View) : view.update (fun sight => sight) = view := by
  cases view
  simp [View.update]

theorem view_updateRuntime_same {f : Runtime → Runtime} {kind : EntityKind} {id : Int}
    (sameDead : ∀ runtime, (f runtime).dead = runtime.dead)
    (sight : ∀ runtime, (f runtime).sight kind id = runtime.sight kind id) (world : World) :
    (world.updateRuntime f).view kind id = world.view kind id := by
  rw [view_updateRuntime (fun sight => sight) sameDead sight, View.update_same]

/-- An update of one pool, at the ids that it changes and at the others. -/
theorem view_updatePool {kind : EntityKind} {f : EntityPool → EntityPool}
    {sameKind : ∀ pool, (f pool).kind = pool.kind} {query : EntityKind} {id : Int} (touched : Prop) [Decidable touched]
    (change : Sight → Sight) (there : touched → query = kind)
    (changed : touched → ∀ runtime : Runtime, { runtime.sight kind id with
      alive := (f (runtime.entities kind)).alive id
      created := (f (runtime.entities kind)).made id } = change (runtime.sight kind id))
    (same : ¬touched → ∀ pool : EntityPool, query = kind → (f pool).alive id = pool.alive id ∧ (f pool).made id = pool.made id)
    (world : World) :
    (world.updateRuntime fun runtime => runtime.updatePool kind f sameKind).view query id =
      if touched then (world.view query id).update change else world.view query id := by
  split_ifs with touches
  · cases there touches
    refine view_updateRuntime _ (by exact fun _ => rfl) (fun runtime => ?_) world
    rw [← changed touches]
    simp [Runtime.sight, Runtime.updatePool]
  · refine view_updateRuntime_same (by exact fun _ => rfl) (fun runtime => ?_) world
    by_cases there : query = kind
    · cases there
      simp [Runtime.sight, Runtime.updatePool, same touches _ rfl]
    · simp [Runtime.sight, Runtime.updatePool, there]

theorem view_handle (world : World) (kind : EntityKind) (pushed : Int) (generation : Generation) (query : EntityKind)
    (id : Int) : (world.updateRuntime fun runtime => runtime.updatePool kind
      (fun pool => (pool.push pushed generation).2) fun pool => pool.push_kind _ _).view query id = world.view query id := by
  rw [view_updatePool False (fun sight => sight) nofun nofun, if_neg not_false]
  exact fun _ pool _ => ⟨pool.alive_push _ _ _, pool.made_push _ _ _⟩

theorem view_adopt (world : World) (kind : EntityKind) (adopted : Int) (query : EntityKind) (id : Int) :
    (world.adopt kind adopted).view query id =
      if query = kind ∧ id = adopted then
        (world.view query id).update fun sight => { sight with alive := sight.alive || inRange kind adopted }
      else world.view query id := by
  rw [World.adopt, view_updatePool (query = kind ∧ id = adopted)
    (fun sight => { sight with alive := sight.alive || inRange kind adopted }) And.left, view_log]
  · rintro ⟨rfl, rfl⟩ runtime
    have range : (runtime.entities query).inRange id = inRange query id := by
      rw [EntityPool.inRange, runtime.kinds, inRange]
    simp [Runtime.sight, EntityPool.alive_adopt, EntityPool.made_adopt, range]
  · intro elsewhere pool sameKind
    refine ⟨?_, pool.made_adopt _ _⟩
    rw [EntityPool.alive_adopt]
    have other : id ≠ adopted := fun same => elsewhere ⟨sameKind, same⟩
    simp [other]

theorem view_release (world : World) (kind : EntityKind) (released : Int) (query : EntityKind) (id : Int) :
    (world.release kind released).view query id =
      if query = kind ∧ id = released then
        (world.view query id).update fun sight => { sight with alive := false, created := false }
      else world.view query id := by
  rw [World.release, view_updatePool (query = kind ∧ id = released)
    (fun sight => { sight with alive := false, created := false }) And.left, view_log]
  · rintro ⟨rfl, rfl⟩ runtime
    simp [Runtime.sight, EntityPool.alive_release, EntityPool.made_release]
  · intro elsewhere pool sameKind
    rw [EntityPool.alive_release, EntityPool.made_release]
    have other : id ≠ released := fun same => elsewhere ⟨sameKind, same⟩
    simp [other]

theorem view_markCreatedByUs (world : World) (serial : ℕ) (kind : EntityKind) (marked : Int) (query : EntityKind)
    (id : Int) : (world.markCreatedByUs serial kind marked).view query id =
      if query = kind ∧ id = marked then
        (world.view query id).update fun sight => { sight with created := sight.created || sight.alive }
      else world.view query id := by
  rw [World.markCreatedByUs, view_updatePool (query = kind ∧ id = marked)
    (fun sight => { sight with created := sight.created || sight.alive }) And.left, view_log]
  · rintro ⟨rfl, rfl⟩ runtime
    simp [Runtime.sight, EntityPool.alive_markCreatedByUs, EntityPool.made_markCreatedByUs]
  · intro elsewhere pool sameKind
    rw [EntityPool.alive_markCreatedByUs, EntityPool.made_markCreatedByUs]
    have other : id ≠ marked := fun same => elsewhere ⟨sameKind, same⟩
    simp [other]

theorem view_dead (world : World) (kind : EntityKind) (id : Int) :
    ((HasInvoker.markDead world : World)).view kind id = (world.view kind id).blind := by
  simp only [World.view, View.blind, View.mk.injEq]
  refine ⟨?_, rfl, rfl⟩
  simp only [World.live, HasInvoker.markDead, updateRuntime]
  cases world.runtime with
  | none => rfl
  | some runtime => rfl

theorem view_remove (world : World) (kind : EntityKind) (id : Int) :
    ({ world with runtime := none } : World).view kind id = (world.view kind id).blind := rfl

/-- A new runtime knows nothing yet. -/
theorem view_install (world : World) (scripts : ℕ) (kind : EntityKind) (id : Int) :
    (world.install scripts).view kind id =
      { world.view kind id with sight := some ⟨world.nextSerial, false, false, false⟩ } := by
  simp [World.view, World.install, World.log, World.live, Runtime.sight, EntityPool.alive, EntityPool.made, EntityPool.slot,
    World.owner]

/-! ## Updates of the server -/

theorem owner_setEntity (world : World) (kind : EntityKind) (set : Int) (owner : Option Owner) (query : EntityKind)
    (id : Int) : (world.setEntity kind set owner).owner query id =
      if query = kind ∧ id = set then owner else world.owner query id := by
  by_cases sameKind : query = kind
  · subst sameKind
    by_cases same : id = set <;> simp [World.setEntity, Server.setEntity, World.owner, same]
  · simp [World.setEntity, Server.setEntity, World.owner, sameKind]

theorem view_setEntity (world : World) (kind : EntityKind) (set : Int) (owner : Option Owner) (query : EntityKind)
    (id : Int) : (world.setEntity kind set owner).view query id =
      if query = kind ∧ id = set then { world.view query id with owner } else world.view query id := by
  have owned := owner_setEntity world kind set owner query id
  split_ifs at owned ⊢
  · exact View.ext rfl owned rfl
  · exact View.ext rfl owned rfl

theorem leaving_iff (server : Server) (kind : EntityKind) (id : Int) :
    server.leaving kind id = true ↔ kind ≠ .blip ∧ (kind, id) ∈ server.deletions := by
  simp [Server.leaving]

theorem deletions_beginDeletion (world : World) (kind : EntityKind) (deleted : Int) :
    (beginDeletion kind deleted world).server.deletions = (kind, deleted) :: world.server.deletions := by
  unfold beginDeletion
  split_ifs <;> rfl

theorem deletions_endDeletion (world : World) (kind : EntityKind) (deleted : Int) :
    (endDeletion kind deleted world).server.deletions = world.server.deletions.erase (kind, deleted) := by
  unfold endDeletion
  split_ifs <;> rfl

theorem trace_endDeletion (world : World) (kind : EntityKind) (deleted : Int) :
    (endDeletion kind deleted world).trace = world.trace := by
  unfold endDeletion
  split_ifs <;> rfl

theorem owner_endDeletion {kind : EntityKind} (notBlip : kind ≠ .blip) (world : World) (deleted : Int) :
    (endDeletion kind deleted world).owner kind deleted = none := by
  unfold endDeletion
  rw [if_neg notBlip, owner_setEntity, if_pos ⟨rfl, rfl⟩]

theorem view_beginDeletion (world : World) (kind : EntityKind) (deleted : Int) (query : EntityKind) (id : Int) :
    (beginDeletion kind deleted world).view query id =
      if query = kind ∧ id = deleted then
        if kind = .blip then { world.view query id with owner := none } else { world.view query id with leaving := true }
      else world.view query id := by
  have leaves := leaving_iff (beginDeletion kind deleted world).server query id
  rw [deletions_beginDeletion, List.mem_cons, Prod.mk.injEq] at leaves
  have left := leaving_iff world.server query id
  have owned : (beginDeletion kind deleted world).owner query id =
      if kind = .blip ∧ query = kind ∧ id = deleted then none else world.owner query id := by
    unfold beginDeletion
    by_cases blip : kind = .blip
    · rw [if_pos blip, owner_setEntity]
      exact if_congr (by simp [blip]) rfl rfl
    · rw [if_neg blip, if_neg fun both => blip both.1]
      rfl
  have sight : ((beginDeletion kind deleted world).view query id).sight = (world.view query id).sight := by
    unfold beginDeletion
    split_ifs <;> rfl
  split_ifs with same blip
  · refine View.ext sight (owned.trans (if_pos ⟨blip, same⟩)) (Bool.eq_iff_iff.mpr ?_)
    refine leaves.trans (Iff.trans ?_ left.symm)
    simp [same.1, blip]
  · refine View.ext sight (owned.trans (if_neg fun both => blip both.1)) (leaves.mpr ⟨same.1 ▸ blip, .inl same⟩)
  · refine View.ext sight (owned.trans (if_neg fun both => same both.2)) (Bool.eq_iff_iff.mpr (leaves.trans (Iff.trans ?_ left.symm)))
    simp [same]

/-- The last deletion that began returns. -/
theorem view_endDeletion {world : World} {kind : EntityKind} {deleted : Int} {rest : List (EntityKind × Int)}
    (last : world.server.deletions = (kind, deleted) :: rest) (once : kind ≠ .blip → (kind, deleted) ∉ rest)
    (query : EntityKind) (id : Int) :
    (endDeletion kind deleted world).view query id =
      if (query = kind ∧ id = deleted) ∧ kind ≠ .blip then { world.view query id with owner := none, leaving := false }
      else world.view query id := by
  have leaves := leaving_iff (endDeletion kind deleted world).server query id
  rw [deletions_endDeletion, last, List.erase_cons_head] at leaves
  have left := leaving_iff world.server query id
  rw [last, List.mem_cons, Prod.mk.injEq] at left
  have owned : (endDeletion kind deleted world).owner query id =
      if (query = kind ∧ id = deleted) ∧ kind ≠ .blip then none else world.owner query id := by
    unfold endDeletion
    by_cases blip : kind = .blip
    · rw [if_pos blip, if_neg fun both => both.2 blip]
      rfl
    · rw [if_neg blip, owner_setEntity]
      exact if_congr (by simp [blip]) rfl rfl
  have sight : ((endDeletion kind deleted world).view query id).sight = (world.view query id).sight := by
    unfold endDeletion
    split_ifs <;> rfl
  split_ifs with same
  · refine View.ext sight (owned.trans (if_pos same)) (Bool.eq_false_iff.mpr fun leaving => ?_)
    obtain ⟨⟨rfl, rfl⟩, notBlip⟩ := same
    exact once notBlip (leaves.mp leaving).2
  · refine View.ext sight (owned.trans (if_neg same)) (Bool.eq_iff_iff.mpr (leaves.trans (Iff.trans ?_ left.symm)))
    constructor
    · exact fun ⟨notBlip, member⟩ => ⟨notBlip, .inr member⟩
    · rintro ⟨notBlip, here | member⟩
      · exact absurd ⟨here, here.1 ▸ notBlip⟩ same
      · exact ⟨notBlip, member⟩

/-! ## Enumerating -/

theorem view_adoptAll (entities : List (EntityKind × Int)) (world : World) (query : EntityKind) (id : Int) :
    (entities.foldl (fun world (kind, id) => world.adopt kind id) world).view query id =
      (world.view query id).update fun sight =>
        { sight with alive := sight.alive || (decide ((query, id) ∈ entities) && inRange query id) } := by
  induction entities generalizing world with
  | nil => simp
  | cons head rest ih =>
    obtain ⟨kind, adopted⟩ := head
    rw [List.foldl_cons, ih, view_adopt]
    split_ifs with same
    · obtain ⟨rfl, rfl⟩ := same
      simp only [View.update, Option.map_map, List.mem_cons, true_or, decide_true, Bool.true_and]
      congr 2
      funext sight
      cases inRange query id <;> simp
    · have other : (query, id) ≠ (kind, adopted) := fun equal => same (by simpa using equal)
      simp [other]

theorem mem_kindIds (kind query : EntityKind) (id : Int) :
    (query, id) ∈ kindIds kind ↔ query = kind ∧ inRange query id = true := by
  simp only [kindIds, List.mem_map, Prod.mk.injEq, EntityPool.mem_ids]
  constructor
  · rintro ⟨other, range, rfl, rfl⟩
    exact ⟨rfl, range⟩
  · rintro ⟨rfl, range⟩
    exact ⟨id, range, rfl, rfl⟩

/-- Every entity that the server has becomes alive. -/
theorem view_enumerate (world : World) (kind : EntityKind) (id : Int) :
    (enumerate world).view kind id = (world.view kind id).update fun sight => { sight with
      enumerated := true, alive := sight.alive || (world.server.exists? kind id && inRange kind id) } := by
  have listed : (kind, id) ∈ (enumeratedKinds.flatMap kindIds).filter (fun (kind, id) => world.server.exists? kind id) ↔
      inRange kind id = true ∧ world.server.exists? kind id = true := by
    rw [List.mem_filter, List.mem_flatMap]
    refine and_congr_left fun _ => ⟨?_, fun range => ⟨kind, by cases kind <;> decide, (mem_kindIds _ _ _).mpr ⟨rfl, range⟩⟩⟩
    rintro ⟨other, -, member⟩
    exact ((mem_kindIds _ _ _).mp member).2
  rw [enumerate, view_updateRuntime (fun sight => { sight with enumerated := true }) (by exact fun _ => rfl) (by exact fun _ => rfl),
    view_adoptAll]
  simp only [View.update, Option.map_map, listed]
  congr 2
  funext sight
  simp only [Function.comp_apply, Sight.mk.injEq, true_and, and_true]
  cases inRange kind id <;> cases world.server.exists? kind id <;> simp

end VcmpLua.Model.Plugin
