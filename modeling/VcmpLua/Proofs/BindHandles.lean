import VcmpLua.Model.Bindings.Bind
import VcmpLua.Proofs.EntityLifetimes

/-! # Handles of new key binds

Every interleaving of this runtime's key binds with those of other plugins. The pool learns that a
bind is gone only when a script uses its handle, so its idea of a slot may be out of date when the
server hands the slot out again. The invariant ties the slots to the handles given out so far; from
it follows exactly when `Bind.create` returns a new handle: when none of the older handles of the
slot is valid any more in the pool.
-/

namespace VcmpLua.Model.Bindings

open Effect VcmpLua.Model.Core

/-- The slots agree with the handles that scripts got. -/
structure BindInv (binds : Binds) : Prop where
  /-- The generation counts the lifetimes. -/
  generation : ∀ id, (binds.pool.slot id).generation = BitVec.ofNat 32 (binds.begun id)
  numbered : ∀ handle ∈ binds.obtained, ∃ number ≤ binds.begun handle.id, handle.generation = BitVec.ofNat 32 number
  objects : ∀ handle ∈ binds.obtained, handle.object < binds.pool.nextObject
  cached : ∀ id handle, (binds.pool.slot id).handle = some handle →
    handle ∈ binds.obtained ∧ handle.id = id ∧ handle.generation = (binds.pool.slot id).generation
  ended : ∀ id, binds.pool.alive id = false → (binds.pool.slot id).handle = none ∧ (binds.pool.slot id).data = none ∧
    (binds.pool.slot id).tag = ""
  /-- A bind that no handle was given out for has no data and no tag. -/
  unused : ∀ id, (∀ handle ∈ binds.obtained, handle.id = id → handle.generation ≠ (binds.pool.slot id).generation) →
    (binds.pool.slot id).data = none ∧ (binds.pool.slot id).tag = ""

/-- What a step keeps: the invariant, the handles given out and the count of lifetimes. -/
structure Evolves (binds binds' : Binds) : Prop where
  inv : BindInv binds → BindInv binds'
  obtained : binds.obtained ⊆ binds'.obtained
  begun : ∀ id, binds.begun id ≤ binds'.begun id

instance : IsPreorder Binds Evolves where
  refl _ := ⟨id, fun _ => id, fun _ => Nat.le_refl _⟩
  trans _ _ _ one two :=
    ⟨two.inv ∘ one.inv, fun _ member => two.obtained (one.obtained member), fun id => Nat.le_trans (one.begun id) (two.begun id)⟩

/-- The same for a step that uses a handle. -/
def EvolvesWith (handle : EntityHandle) (binds binds' : Binds) : Prop := handle ∈ binds.obtained → Evolves binds binds'

instance (handle : EntityHandle) : IsPreorder Binds (EvolvesWith handle) where
  refl binds _ := refl_of Evolves binds
  trans _ _ _ one two member := trans_of Evolves (one member) (two ((one member).obtained member))

theorem Evolves.with {binds binds' : Binds} (evolves : Evolves binds binds') (handle : EntityHandle) :
    EvolvesWith handle binds binds' := fun _ => evolves

/-! ## The operations of the pool -/

/-- A step that keeps the lifetimes and the cached handles. -/
theorem evolves_pool {binds : Binds} {pool : EntityPool} (alive : ∀ id, pool.alive id = binds.pool.alive id)
    (generation : ∀ id, (pool.slot id).generation = (binds.pool.slot id).generation)
    (handle : ∀ id, (pool.slot id).handle = (binds.pool.slot id).handle) (nextObject : binds.pool.nextObject ≤ pool.nextObject)
    (values : ∀ id, ((pool.slot id).data = (binds.pool.slot id).data ∧ (pool.slot id).tag = (binds.pool.slot id).tag) ∨
      binds.pool.alive id = true ∧ ∃ handle ∈ binds.obtained, handle.id = id ∧ handle.generation = (binds.pool.slot id).generation) :
    Evolves binds { binds with pool } := by
  refine ⟨fun inv => ⟨fun id => ?_, inv.numbered, fun handle member => ?_, fun id cached stored => ?_,
    fun id gone => ?_, fun id fresh => ?_⟩, fun _ => id, fun _ => Nat.le_refl _⟩
  · rw [generation, inv.generation]
  · exact Nat.lt_of_lt_of_le (inv.objects handle member) nextObject
  · rw [handle] at stored
    rw [generation]
    exact inv.cached id cached stored
  · rw [alive] at gone
    rcases values id with ⟨data, tag⟩ | ⟨live, -⟩
    · rw [handle, data, tag]
      exact inv.ended id gone
    · rw [live] at gone
      cases gone
  · simp only [generation] at fresh
    rcases values id with ⟨data, tag⟩ | ⟨-, given, member, same, current⟩
    · rw [data, tag]
      exact inv.unused id fresh
    · exact absurd current (fresh given member same)

theorem evolves_server (binds : Binds) (server : KeyBinds) : Evolves binds { binds with server } :=
  ⟨fun inv => ⟨inv.generation, inv.numbered, inv.objects, inv.cached, inv.ended, inv.unused⟩, fun _ => id,
    fun _ => Nat.le_refl _⟩

/-- Adopting a slot that is alive, or none of the pool's, changes nothing. -/
theorem adopt_of_not_begins {id : Int} {binds : Binds} (begins : (binds.pool.inRange id && !binds.pool.alive id) = false) :
    binds.adopt id = binds := by
  have same : binds.pool.adopt id = binds.pool := by
    unfold EntityPool.adopt
    by_cases range : binds.pool.inRange id
    · have alive : (binds.pool.slot id).alive = true := by simpa [range, EntityPool.alive] using begins
      simp [range, alive]
    · simp [range]
  simp [Binds.adopt, same, begins]

theorem adopt_of_begins {id : Int} {binds : Binds} (begins : (binds.pool.inRange id && !binds.pool.alive id) = true) :
    binds.adopt id = { binds with
      pool := binds.pool.setSlot id { binds.pool.slot id with
        alive := true, createdByUs := false, generation := (binds.pool.slot id).generation + 1 }
      begun := Function.update binds.begun id (binds.begun id + 1) } := by
  obtain ⟨range, gone⟩ := Bool.and_eq_true_iff.mp begins
  have dead : (binds.pool.slot id).alive = false := by simpa [EntityPool.alive, range] using gone
  simp [Binds.adopt, EntityPool.adopt, range, dead, EntityPool.alive]

theorem evolves_adopt (id : Int) (binds : Binds) : Evolves binds (binds.adopt id) := by
  cases begins : binds.pool.inRange id && !binds.pool.alive id with
  | false =>
    rw [adopt_of_not_begins begins]
    exact refl_of Evolves binds
  | true =>
    rw [adopt_of_begins begins]
    obtain ⟨range, dead⟩ : binds.pool.inRange id = true ∧ binds.pool.alive id = false := by
      simpa using begins
    have grows : ∀ query, binds.begun query ≤ Function.update binds.begun id (binds.begun id + 1) query := by
      intro query
      by_cases same : query = id
      · subst same
        simp
      · simp [same]
    refine ⟨fun inv => ⟨fun query => ?_, fun handle member => ?_, inv.objects, fun query handle stored => ?_,
      fun query gone => ?_, fun query fresh => ?_⟩, fun _ member => member, grows⟩
    · by_cases same : query = id
      · subst same
        simp [inv.generation, BitVec.ofNat_add]
      · simp [same, inv.generation]
    · obtain ⟨number, bound, generation⟩ := inv.numbered handle member
      exact ⟨number, Nat.le_trans bound (grows _), generation⟩
    · by_cases same : query = id
      · subst same
        rw [EntityPool.slot_setSlot, if_pos rfl] at stored
        have missing : (binds.pool.slot query).handle = none := (inv.ended query dead).1
        rw [show _ = some handle from stored] at missing
        cases missing
      · rw [EntityPool.slot_setSlot, if_neg same] at stored ⊢
        exact inv.cached query handle stored
    · by_cases same : query = id
      · subst same
        simp [EntityPool.alive, range] at gone
      · rw [EntityPool.slot_setSlot, if_neg same]
        refine inv.ended query ?_
        simpa [EntityPool.alive, same] using gone
    · by_cases same : query = id
      · subst same
        rw [EntityPool.slot_setSlot, if_pos rfl]
        exact (inv.ended query dead).2
      · rw [EntityPool.slot_setSlot, if_neg same] at fresh ⊢
        exact inv.unused query fresh

theorem evolves_release (id : Int) (binds : Binds) : Evolves binds (binds.release id) := by
  cases live : binds.pool.alive id with
  | false =>
    have same : binds.release id = binds := by simp [Binds.release, EntityPool.release, live]
    rw [same]
    exact refl_of Evolves binds
  | true =>
    have released : binds.release id = { binds with
        pool := binds.pool.setSlot id { binds.pool.slot id with
          alive := false, createdByUs := false, handle := none, data := none, tag := "" } } := by
      simp [Binds.release, EntityPool.release, live]
    rw [released]
    refine ⟨fun inv => ⟨fun query => ?_, inv.numbered, inv.objects, fun query handle stored => ?_,
      fun query gone => ?_, fun query fresh => ?_⟩, fun _ member => member, fun _ => Nat.le_refl _⟩
    · by_cases same : query = id
      · subst same
        simp [inv.generation]
      · simp [same, inv.generation]
    · by_cases same : query = id
      · simp [same] at stored
      · rw [EntityPool.slot_setSlot, if_neg same] at stored ⊢
        exact inv.cached query handle stored
    · by_cases same : query = id
      · simp [same]
      · rw [EntityPool.slot_setSlot, if_neg same]
        refine inv.ended query ?_
        simpa [EntityPool.alive, same] using gone
    · by_cases same : query = id
      · simp [same]
      · rw [EntityPool.slot_setSlot, if_neg same] at fresh ⊢
        exact inv.unused query fresh

/-- A slot gets its handle. -/
theorem evolves_newHandle {binds : Binds} {id : Int} (live : binds.pool.alive id = true) : Evolves binds { binds with
    pool := { binds.pool.setSlot id { binds.pool.slot id with
      handle := some ⟨binds.pool.nextObject, id, (binds.pool.slot id).generation⟩ } with
      nextObject := binds.pool.nextObject + 1 }
    obtained := binds.obtained ++ [⟨binds.pool.nextObject, id, (binds.pool.slot id).generation⟩] } := by
  have slot : ∀ (data : SlotData) query, EntityPool.slot { binds.pool.setSlot id data with
      nextObject := binds.pool.nextObject + 1 } query = if query = id then data else binds.pool.slot query :=
    fun data query => EntityPool.slot_setSlot binds.pool id query data
  refine ⟨fun inv => ⟨fun query => ?_, fun other member => ?_, fun other member => ?_, fun query other cached => ?_,
    fun query gone => ?_, fun query fresh => ?_⟩, List.subset_append_left .., fun _ => Nat.le_refl _⟩
  · rw [slot, ← inv.generation]
    split_ifs with same
    · rw [same]
    · rfl
  · rcases List.mem_append.mp member with earlier | now
    · exact inv.numbered other earlier
    · rw [List.mem_singleton.mp now]
      exact ⟨binds.begun id, Nat.le_refl _, inv.generation id⟩
  · rcases List.mem_append.mp member with earlier | now
    · exact Nat.lt_succ_of_lt (inv.objects other earlier)
    · rw [List.mem_singleton.mp now]
      exact Nat.lt_succ_self _
  · rw [slot] at cached ⊢
    split_ifs at cached ⊢ with same
    · cases cached
      exact ⟨List.mem_append_right _ (List.mem_singleton_self _), same.symm, rfl⟩
    · obtain ⟨member, facts⟩ := inv.cached query other cached
      exact ⟨List.mem_append_left _ member, facts⟩
  · have different : query ≠ id := by
      rintro rfl
      obtain ⟨range, occupied⟩ := (EntityPool.alive_iff ..).mp live
      have still : EntityPool.alive { binds.pool.setSlot query { binds.pool.slot query with
          handle := some ⟨binds.pool.nextObject, query, (binds.pool.slot query).generation⟩ } with
          nextObject := binds.pool.nextObject + 1 } query = true := by
        rw [EntityPool.alive_iff, slot, if_pos rfl]
        exact ⟨range, occupied⟩
      rw [still] at gone
      cases gone
    have before : binds.pool.alive query = false := by
      rw [EntityPool.alive, slot, if_neg different] at gone
      exact gone
    rw [slot, if_neg different]
    exact inv.ended query before
  · have kept : (∀ handle ∈ binds.obtained, handle.id = query → handle.generation ≠ (binds.pool.slot query).generation) →
        (binds.pool.slot query).data = none ∧ (binds.pool.slot query).tag = "" := inv.unused query
    rw [slot] at fresh ⊢
    split_ifs at fresh ⊢ with same
    · subst same
      exact kept fun handle member => fresh handle (List.mem_append_left _ member)
    · exact kept fun handle member => fresh handle (List.mem_append_left _ member)

/-- A reference that is valid is pushed as the handle that the slot caches. -/
theorem keeps_pushEntity (ref : EntityRef) : Keeps Evolves (Binds.pushEntity ref) := by
  intro binds
  change Evolves binds { binds with
    pool := (binds.pool.push ref.id ref.generation).2
    obtained := binds.obtained ++ (binds.pool.push ref.id ref.generation).1.toList }
  rw [EntityPool.push]
  split_ifs with refused
  · simpa using refl_of Evolves binds
  · have valid : binds.pool.valid ref.id ref.generation = true := by
      by_contra invalid
      simp [invalid] at refused
    obtain ⟨live, current⟩ := (EntityPool.valid_iff ..).mp valid
    cases stored : (binds.pool.slot ref.id).handle with
    | some handle =>
      refine ⟨fun inv => ?_, List.subset_append_left .., fun _ => Nat.le_refl _⟩
      obtain ⟨given, -⟩ := inv.cached ref.id handle stored
      have old : ∀ other, other ∈ binds.obtained ++ [handle] → other ∈ binds.obtained := by
        intro other member
        rcases List.mem_append.mp member with earlier | now
        · exact earlier
        · rw [List.mem_singleton.mp now]
          exact given
      refine ⟨inv.generation, fun other member => inv.numbered other (old other member),
        fun other member => inv.objects other (old other member), fun query other cached => ?_, inv.ended,
        fun query fresh => inv.unused query fun other member => fresh other (List.mem_append_left _ member)⟩
      obtain ⟨member, facts⟩ := inv.cached query other cached
      exact ⟨List.mem_append_left _ member, facts⟩
    | none =>
      rw [← current]
      exact evolves_newHandle live

theorem evolves_markCreatedByUs (id : Int) (binds : Binds) :
    Evolves binds { binds with pool := binds.pool.markCreatedByUs id } := by
  have fields : ∀ query, ((binds.pool.markCreatedByUs id).slot query).generation = (binds.pool.slot query).generation ∧
      ((binds.pool.markCreatedByUs id).slot query).handle = (binds.pool.slot query).handle ∧
      ((binds.pool.markCreatedByUs id).slot query).data = (binds.pool.slot query).data ∧
      ((binds.pool.markCreatedByUs id).slot query).tag = (binds.pool.slot query).tag := by
    intro query
    unfold EntityPool.markCreatedByUs
    split_ifs
    · rw [EntityPool.slot_setSlot]
      split_ifs with same
      · simp [same]
      · simp
    · simp
  have nextObject : (binds.pool.markCreatedByUs id).nextObject = binds.pool.nextObject := by
    unfold EntityPool.markCreatedByUs
    split_ifs <;> rfl
  exact evolves_pool (EntityPool.alive_markCreatedByUs binds.pool id) (fun query => (fields query).1)
    (fun query => (fields query).2.1) (Nat.le_of_eq nextObject.symm) fun query => .inl (fields query).2.2

/-- A member of a valid handle writes the data or the tag of its slot. -/
theorem evolves_write {binds : Binds} {handle : EntityHandle} {data : SlotData} {nextObject : ℕ}
    (given : handle ∈ binds.obtained) (valid : binds.pool.valid handle.id handle.generation = true)
    (alive : data.alive = (binds.pool.slot handle.id).alive)
    (generation : data.generation = (binds.pool.slot handle.id).generation)
    (cached : data.handle = (binds.pool.slot handle.id).handle) (allocated : binds.pool.nextObject ≤ nextObject) :
    Evolves binds { binds with pool := { binds.pool.setSlot handle.id data with nextObject } } := by
  obtain ⟨live, current⟩ := (EntityPool.valid_iff ..).mp valid
  have slot : ∀ query, EntityPool.slot { binds.pool.setSlot handle.id data with nextObject } query =
      if query = handle.id then data else binds.pool.slot query :=
    fun query => EntityPool.slot_setSlot binds.pool handle.id query data
  refine evolves_pool (fun query => ?_) (fun query => ?_) (fun query => ?_) allocated fun query => ?_
  · have range : EntityPool.inRange { binds.pool.setSlot handle.id data with nextObject } query =
        binds.pool.inRange query := rfl
    rw [EntityPool.alive, EntityPool.alive, range, slot]
    split_ifs with same
    · rw [alive, same]
    · rfl
  · rw [slot]
    split_ifs with same
    · rw [generation, same]
    · rfl
  · rw [slot]
    split_ifs with same
    · rw [cached, same]
    · rfl
  · rw [slot]
    split_ifs with same
    · subst same
      exact .inr ⟨live, handle, given, rfl, current.symm⟩
    · exact .inl ⟨rfl, rfl⟩

/-! ## The bindings -/

theorem keeps_ofPool {α : Type} (member : EntityPool → Except String α) : Keeps Evolves (Binds.ofPool member) := by
  refine keeps_get.bind fun binds => ?_
  cases member binds.pool with
  | ok value => exact keeps_pure value
  | error what => exact keeps_throw _

theorem keeps_check (function : String) (error : VcmpError) : Keeps Evolves (Binds.check function error) := by
  cases error with
  | none | requestDenied => exact keeps_pure _
  | noSuchEntity | other => exact keeps_throw _

theorem keeps_checkLive (handle : EntityHandle) : Keeps Evolves (Binds.checkLive handle) := by
  refine (keeps_ofPool _).bind fun _ => keeps_get.bind fun binds => ?_
  split_ifs
  · exact (keeps_modify (evolves_release handle.id)).bind fun _ => keeps_throw _
  · exact keeps_pure _

theorem keeps_created (id : Int) : Keeps Evolves (Binds.created id) := by
  refine (keeps_modify (evolves_adopt id)).bind fun _ => keeps_get.bind fun binds => ?_
  exact (keeps_modify (evolves_markCreatedByUs id)).bind fun _ => keeps_pushEntity _

theorem keeps_create (pick : Int) (error : VcmpError) (onRelease : Bool) (key1 : Int) (key2 key3 : Option Int) :
    Keeps Evolves (Binds.create pick error onRelease key1 key2 key3) := by
  have granted : ∀ slot, Keeps Evolves (do
      if !(← Binds.check "create" error) then
        throw (.thrown "'create' failed: request denied")
      Binds.created slot) := by
    refine fun slot => (keeps_check "create" error).bind fun accepted => ?_
    cases accepted with
    | true => exact keeps_created slot
    | false => exact keeps_throw (α := Option EntityHandle) _
  unfold Binds.create
  refine keeps_get.bind fun binds => ?_
  dsimp only
  split_ifs
  · exact keeps_throw (α := Option EntityHandle) _
  · exact keeps_throw (α := Option EntityHandle) _
  · exact (keeps_modify fun binds => evolves_server binds _).bind fun _ => granted _
  · exact granted _

theorem keeps_remove (function : String) (error : VcmpError) (id : Int) :
    Keeps Evolves (Binds.remove function error id) := by
  have answered : Keeps Evolves (do
      if error = .none ∨ error = .noSuchEntity then
        modify (Binds.release id)
        return true
      Binds.check function error) := by
    split_ifs
    · exact (keeps_modify (evolves_release id)).bind fun _ => keeps_pure true
    · exact keeps_check function error
  unfold Binds.remove
  dsimp only
  by_cases granted : error = .none
  · rw [if_pos granted]
    exact (keeps_modify fun binds => evolves_server binds _).bind fun _ => answered
  · rw [if_neg granted]
    exact answered

/-- A binding that a script calls on a handle it was given. -/
theorem keeps_withHandle {α : Type} {handle : EntityHandle} {member : EStateM Exn Binds α}
    (keeps : Keeps (EvolvesWith handle) member) : Keeps Evolves (BindOp.withHandle handle member) := by
  intro binds
  by_cases given : handle ∈ binds.obtained
  · have same : after (BindOp.withHandle handle member) binds = after ((fun _ => ()) <$> member) binds := by
      rw [after, BindOp.withHandle, get_bind, if_pos given]
      rfl
    rw [same, after_map]
    exact keeps binds given
  · have same : after (BindOp.withHandle handle member) binds = binds := by
      rw [after, BindOp.withHandle, get_bind, if_neg given]
      rfl
    rw [same]
    exact refl_of Evolves binds

theorem ofPool_of_ok {α : Type} {member : EntityPool → Except String α} {binds : Binds} {value : α}
    (passed : member binds.pool = .ok value) : Binds.ofPool member binds = .ok value binds := by
  rw [Binds.ofPool, get_bind]
  simp only [passed]
  rfl

theorem ofPool_of_error {α : Type} {member : EntityPool → Except String α} {binds : Binds} {what : String}
    (failed : member binds.pool = .error what) : Binds.ofPool member binds = .error (.thrown what) binds := by
  rw [Binds.ofPool, get_bind]
  simp only [failed]
  rfl

/-- A member that raises, or passes the check and goes on. -/
theorem evolves_ofPool {α β : Type} {member : EntityPool → Except String α} {rest : α → EStateM Exn Binds β}
    {binds : Binds} (passes : ∀ value, member binds.pool = .ok value → Evolves binds (after (rest value) binds)) :
    Evolves binds (after (Binds.ofPool member >>= rest) binds) := by
  cases result : member binds.pool with
  | ok value =>
    rw [after, bind_of_ok (ofPool_of_ok result)]
    exact passes value result
  | error what =>
    rw [after_of_error (bind_of_error (ofPool_of_error result))]
    exact refl_of Evolves binds

/-- A member that does not raise is one of a valid handle. -/
theorem passed_of_require {α : Type} {pool : EntityPool} {id : Int} {generation : Generation}
    {rest : Unit → Except String α} {value : α} (passed : (pool.require id generation >>= rest) = .ok value) :
    pool.valid id generation = true ∧ rest () = .ok value := by
  cases required : pool.require id generation with
  | error what =>
    rw [required] at passed
    cases passed
  | ok _ =>
    rw [required] at passed
    unfold EntityPool.require at required
    split_ifs at required with closed invalid
    exact ⟨by simpa using invalid, passed⟩

theorem keeps_setTag (handle : EntityHandle) (tag : String) : Keeps (EvolvesWith handle) (Binds.setTag handle tag) := by
  refine Keeps.bind (fun binds => (keeps_checkLive handle binds).with handle) fun _ => ?_
  intro binds given
  refine evolves_ofPool fun pool passed => ?_
  obtain ⟨valid, written⟩ := passed_of_require passed
  cases written
  exact evolves_write given valid rfl rfl rfl (Nat.le_refl _)

theorem keeps_getData (handle : EntityHandle) : Keeps (EvolvesWith handle) (Binds.getData handle) := by
  intro binds given
  refine evolves_ofPool fun result passed => ?_
  obtain ⟨valid, read⟩ := passed_of_require passed
  cases stored : (binds.pool.slot handle.id).data with
  | some table =>
    rw [stored] at read
    cases read
    exact refl_of Evolves binds
  | none =>
    rw [stored] at read
    cases read
    exact evolves_write given valid rfl rfl rfl (Nat.le_succ _)

theorem keeps_setData (handle : EntityHandle) (table : LuaTable) :
    Keeps (EvolvesWith handle) (Binds.setData handle table) := by
  intro binds given
  refine evolves_ofPool fun pool passed => ?_
  obtain ⟨valid, written⟩ := passed_of_require passed
  cases written
  exact evolves_write given valid rfl rfl rfl (Nat.le_refl _)

theorem keeps_findByID (id : Int) : Keeps Evolves (Binds.findByID id) :=
  keeps_get.bind fun _ => keeps_pushEntity _

theorem keeps_findByTag (tag : String) : Keeps Evolves (Binds.findByTag tag) := by
  refine keeps_get.bind fun binds => ?_
  dsimp only
  split
  · exact keeps_pushEntity _
  · exact keeps_pure _

/-- Every step keeps the invariant. -/
theorem keeps_run (op : BindOp) : Keeps Evolves op.run := by
  cases op with
  | create pick error onRelease key1 key2 key3 => exact (keeps_create pick error onRelease key1 key2 key3).bind fun _ => keeps_pure ()
  | destroy error handle =>
    refine keeps_withHandle (Keeps.mono ?_ fun _ _ evolves => Evolves.with evolves handle)
    exact (keeps_checkLive handle).bind fun _ => keeps_remove _ error _
  | clearAllBinds errors =>
    exact keeps_get.bind fun _ => keeps_forEach fun id _ => (keeps_remove _ (errors id) id).bind fun _ => keeps_pure ()
  | getTag handle =>
    refine keeps_withHandle (Keeps.mono ?_ fun _ _ evolves => Evolves.with evolves handle)
    exact (keeps_checkLive handle).bind fun _ => keeps_ofPool _
  | setTag handle tag => exact keeps_withHandle (keeps_setTag handle tag)
  | getData handle => exact keeps_withHandle (keeps_getData handle)
  | setData handle table => exact keeps_withHandle (keeps_setData handle table)
  | findByTag tag => exact (keeps_findByTag tag).bind fun _ => keeps_pure ()
  | findByID id => exact (keeps_findByID id).bind fun _ => keeps_pure ()
  | getActive => exact keeps_get.bind fun _ => keeps_forEach fun id _ => (keeps_findByID id).bind fun _ => keeps_pure ()
  | keyEvent id => exact keeps_modify (evolves_adopt id)
  | pass ref => exact (keeps_pushEntity ref).bind fun _ => keeps_pure ()
  | otherRegisters slot data => exact keeps_modify fun binds => evolves_server binds _
  | otherRemoves slot => exact keeps_modify fun binds => evolves_server binds _

theorem evolves_steps (ops : List BindOp) (binds : Binds) : Evolves binds (binds.steps ops) := by
  induction ops generalizing binds with
  | nil => exact refl_of Evolves binds
  | cons op rest ih => exact trans_of Evolves (keeps_run op binds) (ih _)

theorem inv_init (server : KeyBinds) : BindInv { server } :=
  ⟨fun _ => rfl, nofun, nofun, nofun, fun _ _ => ⟨rfl, rfl, rfl⟩, fun _ _ => ⟨rfl, rfl⟩⟩

theorem inv_enumerate (server : KeyBinds) : BindInv (Binds.enumerate server) := by
  unfold Binds.enumerate
  generalize ({ server } : Binds).pool.ids = ids
  have start := inv_init server
  generalize ({ server } : Binds) = binds at start
  induction ids generalizing binds with
  | nil => exact start
  | cons id rest ih =>
    rw [List.foldl_cons]
    split_ifs
    · exact ih _ ((evolves_adopt id binds).inv start)
    · exact ih _ start

/-! ## New handles -/

/-- The generation of the lifetime that a slot is in after it was adopted. -/
def nextGeneration (binds : Binds) (id : Int) : Generation :=
  if binds.pool.alive id then (binds.pool.slot id).generation else (binds.pool.slot id).generation + 1

/-- What `Created` leaves: the slot alive, with the handle that was cached or a new one. -/
structure Opened (binds : Binds) (slot : Int) (handle : EntityHandle) (binds' : Binds) : Prop where
  id : handle.id = slot
  alive : binds'.pool.alive slot = true
  generation : (binds'.pool.slot slot).generation = nextGeneration binds slot
  own : handle.generation = nextGeneration binds slot
  data : (binds'.pool.slot slot).data = (binds.pool.slot slot).data
  tag : (binds'.pool.slot slot).tag = (binds.pool.slot slot).tag
  cached : (binds.pool.slot slot).handle = some handle ∨
    (binds.pool.slot slot).handle = none ∧ handle.object = binds.pool.nextObject

/-- The slot that `Created` pushes: adopted and marked. -/
theorem slot_adopted {pool : EntityPool} {slot : Int} (range : pool.inRange slot = true) :
    ((pool.adopt slot).markCreatedByUs slot).slot slot = { pool.slot slot with
      alive := true
      createdByUs := true
      generation := if pool.alive slot then (pool.slot slot).generation else (pool.slot slot).generation + 1 } := by
  have live : (pool.adopt slot).alive slot = true := by simp [EntityPool.alive_adopt, range]
  rw [EntityPool.markCreatedByUs, if_pos live, EntityPool.slot_setSlot, if_pos rfl]
  by_cases occupied : (pool.slot slot).alive
  · simp [EntityPool.adopt, EntityPool.alive, range, occupied]
  · simp [EntityPool.adopt, EntityPool.alive, range, occupied]

theorem nextObject_adopted (pool : EntityPool) (slot : Int) :
    ((pool.adopt slot).markCreatedByUs slot).nextObject = pool.nextObject := by
  unfold EntityPool.markCreatedByUs EntityPool.adopt
  split_ifs <;> rfl

/-- A reference that is pushed as a handle is valid, and the slot caches the handle. -/
theorem push_of_some {pool : EntityPool} {id : Int} {generation : Generation} {handle : EntityHandle}
    (pushed : (pool.push id generation).1 = some handle) : pool.valid id generation = true ∧
      ((pool.slot id).handle = some handle ∧ (pool.push id generation).2 = pool ∨
        (pool.slot id).handle = none ∧ handle = ⟨pool.nextObject, id, generation⟩ ∧
          (pool.push id generation).2 = { pool.setSlot id { pool.slot id with handle := some handle } with
            nextObject := pool.nextObject + 1 }) := by
  unfold EntityPool.push at pushed ⊢
  split_ifs at pushed ⊢ with refused
  have valid : pool.valid id generation = true := by
    by_contra invalid
    simp [invalid] at refused
  refine ⟨valid, ?_⟩
  cases stored : (pool.slot id).handle with
  | some cached =>
    rw [stored] at pushed
    exact .inl ⟨pushed, rfl⟩
  | none =>
    rw [stored] at pushed
    cases pushed
    exact .inr ⟨rfl, rfl, rfl⟩

theorem opened_of_created {binds binds' : Binds} {slot : Int} {handle : EntityHandle} (inv : BindInv binds)
    (ran : Binds.created slot binds = .ok (some handle) binds') : Opened binds slot handle binds' := by
  let pool := (binds.pool.adopt slot).markCreatedByUs slot
  obtain ⟨pushed, left⟩ : (pool.push ((binds.pool.adopt slot).ref slot).id ((binds.pool.adopt slot).ref slot).generation).1 =
        some handle ∧
      binds'.pool = (pool.push ((binds.pool.adopt slot).ref slot).id ((binds.pool.adopt slot).ref slot).generation).2 := by
    injection ran with value state
    exact ⟨value, state ▸ rfl⟩
  cases range : binds.pool.inRange slot with
  | false =>
    have dead : (binds.pool.adopt slot).alive slot = false := by
      rw [EntityPool.alive_adopt, range, EntityPool.alive, range]
      simp
    have none : (binds.pool.adopt slot).ref slot = {} := by simp [EntityPool.ref, dead]
    rw [none, EntityPool.push, EntityPool.not_valid_default] at pushed
    simp at pushed
  | true =>
    have slots : pool.slot slot = _ := slot_adopted range
    have live : (binds.pool.adopt slot).alive slot = true := by simp [EntityPool.alive_adopt, range]
    have ref : (binds.pool.adopt slot).ref slot = ⟨slot, nextGeneration binds slot⟩ := by
      have marked := congrArg SlotData.generation slots
      rw [show (pool.slot slot).generation = ((binds.pool.adopt slot).slot slot).generation by
        simp [pool, EntityPool.markCreatedByUs, live]] at marked
      simp [EntityPool.ref, live, marked, nextGeneration]
    rw [ref] at pushed left
    have generation : (pool.slot slot).generation = nextGeneration binds slot := by rw [slots, nextGeneration]
    obtain ⟨valid, ⟨cached, same⟩ | ⟨missing, rfl, written⟩⟩ := push_of_some pushed
    · rw [same] at left
      have stored : (binds.pool.slot slot).handle = some handle := by simpa [slots] using cached
      obtain ⟨-, own, current⟩ := inv.cached slot handle stored
      have alive : binds.pool.alive slot = true := by
        by_contra gone
        rw [(inv.ended slot (by simpa using gone)).1] at stored
        cases stored
      refine ⟨own, ?_, ?_, ?_, ?_, ?_, .inl stored⟩
      · rw [left]
        exact ((EntityPool.valid_iff ..).mp valid).1
      · rw [left, generation]
      · rw [current, nextGeneration, if_pos alive]
      · rw [left, slots]
      · rw [left, slots]
    · rw [written] at left
      have slot' : binds'.pool.slot slot = { pool.slot slot with
          handle := some ⟨pool.nextObject, slot, nextGeneration binds slot⟩ } := by
        rw [left]
        exact (EntityPool.slot_setSlot ..).trans (if_pos rfl)
      refine ⟨rfl, ?_, ?_, rfl, ?_, ?_, .inr ⟨by simpa [slots] using missing, nextObject_adopted ..⟩⟩
      · have range' : binds'.pool.inRange slot = pool.inRange slot := by rw [left]; rfl
        obtain ⟨alive, -⟩ := (EntityPool.valid_iff ..).mp valid
        obtain ⟨inside, occupied⟩ := (EntityPool.alive_iff ..).mp alive
        rw [EntityPool.alive_iff, range', slot']
        exact ⟨inside, occupied⟩
      · rw [slot']
        exact generation
      · rw [slot', slots]
      · rw [slot', slots]

/-- A successful `Bind.create` leaves what `Created` does. -/
theorem opened_of_create {binds binds' : Binds} {pick key1 : Int} {error : VcmpError} {onRelease : Bool}
    {key2 key3 : Option Int} {handle : EntityHandle} (inv : BindInv binds)
    (ran : Binds.create pick error onRelease key1 key2 key3 binds = .ok (some handle) binds') :
    Opened binds pick handle binds' := by
  rw [Binds.create, get_bind] at ran
  dsimp only at ran
  by_cases refused : binds.server.getKeyBindUnusedSlot pick < 0
  · rw [if_pos refused] at ran
    cases ran
  · rw [if_neg refused] at ran
    have picked : binds.server.getKeyBindUnusedSlot pick = pick := by
      unfold KeyBinds.getKeyBindUnusedSlot at refused ⊢
      split_ifs at refused ⊢ with free
      · rfl
      · omega
    rw [picked] at ran
    cases error with
    | none =>
      let server := binds.server.setSlot pick ⟨onRelease, key1, key2.getD 0, key3.getD 0⟩
      have registered : Binds.created pick { binds with server } = .ok (some handle) binds' := ran
      have opened := opened_of_created ((evolves_server binds server).inv inv) registered
      exact ⟨opened.id, opened.alive, opened.generation, opened.own, opened.data, opened.tag, opened.cached⟩
    | requestDenied | noSuchEntity | other => cases ran

/-- The bind that `Bind.create` returned is a new one. -/
structure NewHandle (binds : Binds) (handle : EntityHandle) (binds' : Binds) : Prop where
  different : ∀ old ∈ binds.obtained, handle.object ≠ old.object
  stale : ∀ old ∈ binds.obtained, old.id = handle.id → binds'.pool.valid old.id old.generation = false
  untagged : (binds'.pool.slot handle.id).tag = ""
  fresh : (binds'.pool.slot handle.id).data = none

/-- No handle that scripts got for this slot is still valid in the pool, and none is again in the
next lifetime, which needs `2 ^ 32` lifetimes in between. -/
def Vacant (binds : Binds) (slot : Int) : Prop :=
  ∀ old ∈ binds.obtained, old.id = slot → binds.pool.valid slot old.generation = false ∧
    (binds.pool.alive slot = false → old.generation ≠ (binds.pool.slot slot).generation + 1)

theorem vacant_iff (binds : Binds) (slot : Int) :
    Vacant binds slot ↔ ∀ old ∈ binds.obtained, old.id = slot → old.generation ≠ nextGeneration binds slot := by
  refine forall_congr' fun old => forall_congr' fun _ => forall_congr' fun _ => ?_
  cases live : binds.pool.alive slot with
  | true => simp [EntityPool.valid, live, nextGeneration, ne_comm]
  | false => simp [EntityPool.valid, live, nextGeneration]

theorem Opened.newHandle_iff {binds binds' : Binds} {slot : Int} {handle : EntityHandle}
    (opened : Opened binds slot handle binds') (inv : BindInv binds) :
    NewHandle binds handle binds' ↔ Vacant binds slot := by
  rw [vacant_iff]
  have valid : ∀ generation, binds'.pool.valid slot generation = true ↔ generation = nextGeneration binds slot := by
    intro generation
    rw [EntityPool.valid_iff, opened.generation]
    exact ⟨fun facts => facts.2.symm, fun same => ⟨opened.alive, same.symm⟩⟩
  constructor
  · intro isNew old member same current
    have stale := isNew.stale old member (same.trans opened.id.symm)
    rw [same, (valid _).mpr current] at stale
    cases stale
  · intro vacant
    have unused : (binds.pool.slot slot).data = none ∧ (binds.pool.slot slot).tag = "" := by
      cases live : binds.pool.alive slot with
      | true =>
        refine inv.unused slot fun old member same current => vacant old member same ?_
        rw [current, nextGeneration, if_pos live]
      | false => exact (inv.ended slot live).2
    refine ⟨fun old member => ?_, fun old member same => ?_, ?_, ?_⟩
    · rcases opened.cached with cached | ⟨-, isNew⟩
      · obtain ⟨given, same, -⟩ := inv.cached slot handle cached
        exact absurd opened.own (vacant handle given same)
      · have older := inv.objects old member
        omega
    · rw [Bool.eq_false_iff, same, opened.id, ne_eq, valid]
      exact vacant old member (same.trans opened.id)
    · rw [opened.id, opened.tag, unused.2]
    · rw [opened.id, opened.data, unused.1]

/-- Handles of an earlier lifetime stay invalid for as long as the generation does not wrap. -/
theorem Opened.stale_later {binds binds' : Binds} {slot : Int} {handle : EntityHandle}
    (opened : Opened binds slot handle binds') (inv : BindInv binds) (evolves : Evolves binds binds')
    (vacant : Vacant binds slot) (later : List BindOp) (few : (binds'.steps later).begun slot < 2 ^ 32) :
    ∀ old ∈ binds.obtained, old.id = slot → (binds'.steps later).pool.valid slot old.generation = false := by
  intro old member same
  have onward := evolves_steps later binds'
  have inv' := evolves.inv inv
  obtain ⟨number, bound, own⟩ := inv.numbered old member
  rw [same] at bound
  have earlier : number ≠ binds'.begun slot := by
    rintro rfl
    refine (vacant_iff binds slot).mp vacant old member same ?_
    rw [own, ← inv'.generation, opened.generation]
  have grown := evolves.begun slot
  have grows := onward.begun slot
  rw [Bool.eq_false_iff, ne_eq, EntityPool.valid_iff]
  rintro ⟨-, current⟩
  rw [(onward.inv inv').generation, own, ← BitVec.toNat_inj, BitVec.toNat_ofNat, BitVec.toNat_ofNat,
    Nat.mod_eq_of_lt few, Nat.mod_eq_of_lt (by omega)] at current
  omega

/-- In every run, a `Bind.create` that succeeds returns a new handle to a bind without tag and data
if and only if no handle that scripts got for its slot was still valid in the pool. Then these
handles stay invalid, within `2 ^ 32` lifetimes of the slot. -/
theorem new_bind_new_handle_iff (server : KeyBinds) (run : List BindOp) (pick : Int) (error : VcmpError)
    (onRelease : Bool) (key1 : Int) (key2 key3 : Option Int) (handle : EntityHandle) (binds : Binds)
    (created : Binds.create pick error onRelease key1 key2 key3 ((Binds.enumerate server).steps run) =
      .ok (some handle) binds) :
    (NewHandle ((Binds.enumerate server).steps run) handle binds ↔ Vacant ((Binds.enumerate server).steps run) pick) ∧
      (Vacant ((Binds.enumerate server).steps run) pick → ∀ later, (binds.steps later).begun pick < 2 ^ 32 →
        ∀ old ∈ ((Binds.enumerate server).steps run).obtained, old.id = pick →
          (binds.steps later).pool.valid pick old.generation = false) := by
  have inv := (evolves_steps run _).inv (inv_enumerate server)
  have opened := opened_of_create inv created
  have evolves := keeps_create pick error onRelease key1 key2 key3 ((Binds.enumerate server).steps run)
  rw [after_of_ok created] at evolves
  exact ⟨opened.newHandle_iff inv, fun vacant later few => opened.stale_later inv evolves vacant later few⟩

/-- A server without binds. -/
theorem enumerate_none : Binds.enumerate {} = { server := {} } := by
  have none : ∀ id, KeyBinds.keyBindExists {} id = false := by
    intro id
    unfold KeyBinds.keyBindExists KeyBinds.getKeyBindData
    split_ifs <;> rfl
  simp only [Binds.enumerate, none, Bool.false_eq_true, ↓reduceIte, List.foldl_fixed]

/-- A bind that the script destroyed: the next one in the slot is a new one. -/
theorem new_bind_after_destroy :
    NewHandle ((Binds.enumerate {}).steps [.create 0 .none true 65 none none, .destroy .none ⟨0, 0, 1⟩]) ⟨1, 0, 2⟩
      (after (Binds.create 0 .none true 66 none none)
        ((Binds.enumerate {}).steps [.create 0 .none true 65 none none, .destroy .none ⟨0, 0, 1⟩])) := by
  refine (new_bind_new_handle_iff {} [.create 0 .none true 65 none none, .destroy .none ⟨0, 0, 1⟩] 0 .none true 66
    none none ⟨1, 0, 2⟩ _ ?_).1.mpr fun old member _ => ?_
  · rw [enumerate_none]
    rfl
  · rw [enumerate_none] at member ⊢
    have first : (({ server := {} } : Binds).steps
        [.create 0 .none true 65 none none, .destroy .none ⟨0, 0, 1⟩]).obtained = [⟨0, 0, 1⟩] := rfl
    rw [first, List.mem_singleton] at member
    subst member
    decide

/-- A bind that another plugin removed: the pool still believes in it, and the next bind in its slot
gets its handle and its tag. -/
theorem new_bind_old_handle :
    ∃ binds, Binds.create 0 .none true 66 none none ((Binds.enumerate {}).steps
        [.create 0 .none true 65 none none, .setTag ⟨0, 0, 1⟩ "door", .otherRemoves 0]) = .ok (some ⟨0, 0, 1⟩) binds ∧
      ⟨0, 0, 1⟩ ∈ ((Binds.enumerate {}).steps
        [.create 0 .none true 65 none none, .setTag ⟨0, 0, 1⟩ "door", .otherRemoves 0]).obtained ∧
      binds.pool.valid 0 1 = true ∧ (binds.pool.slot 0).tag = "door" ∧
      ¬ NewHandle ((Binds.enumerate {}).steps
        [.create 0 .none true 65 none none, .setTag ⟨0, 0, 1⟩ "door", .otherRemoves 0]) ⟨0, 0, 1⟩ binds := by
  rw [enumerate_none]
  refine ⟨_, rfl, by decide, by decide, by decide, fun isNew => ?_⟩
  exact isNew.different ⟨0, 0, 1⟩ (by decide) rfl

end VcmpLua.Model.Bindings
