import Mathlib

/-! # Entity slots, handles and generations

One pool of `core/entity_pool.cpp`. Lua never owns an entity: the server does, and a slot records
what this runtime knows of the entity at one id. A slot is adopted when the entity appears and
released when it goes; the 32-bit generation changes once per lifetime. Slots are addressed by id
(the source's vector index is `id - first_id`), and a slot outside the pool's range is never read
or written, because every access goes through `inRange`. Lua values are identified by the number
of their allocation; the warning logged for an id outside the pool is not modelled.
-/

namespace VcmpLua.Model.Core

/-- The server entities scripts get handles to. Key binds raise no pool events. -/
inductive EntityKind where
  | player | vehicle | object | pickup | checkpoint | blip | bind
deriving DecidableEq, Repr

structure EntityTraits where
  name : String
  typeName : String
  firstId : Int
  capacity : Int
deriving DecidableEq, Repr

/-- Pool limits of the 0.4 server: valid ids are `[firstId, capacity)`. -/
def traits : EntityKind → EntityTraits
  | .player => ⟨"player", "Player", 0, 100⟩
  | .vehicle => ⟨"vehicle", "Vehicle", 1, 1001⟩
  | .object => ⟨"object", "Object", 0, 3000⟩
  | .pickup => ⟨"pickup", "Pickup", 0, 2000⟩
  | .checkpoint => ⟨"checkpoint", "Checkpoint", 0, 2000⟩
  | .blip => ⟨"blip", "Blip", 0, 100⟩
  | .bind => ⟨"bind", "Bind", 0, 256⟩

theorem traits_firstId_nonneg (kind : EntityKind) : 0 ≤ (traits kind).firstId := by
  cases kind <;> decide

/-- `std::uint32_t`. -/
abbrev Generation := BitVec 32

/-- What C++ passes to Lua for an entity; the default refers to none. -/
structure EntityRef where
  id : Int := -1
  generation : Generation := 0
deriving DecidableEq, Repr

/-- The userdata scripts hold: the Lua object and the two fields it carries. -/
structure EntityHandle where
  object : ℕ
  id : Int
  generation : Generation
deriving DecidableEq, Repr

/-- A Lua table, by the number of its allocation. -/
abbrev LuaTable := ℕ

structure SlotData where
  alive : Bool := false
  createdByUs : Bool := false
  generation : Generation := 0
  handle : Option EntityHandle := none
  data : Option LuaTable := none
  tag : String := ""
deriving DecidableEq, Repr

structure EntityPool where
  kind : EntityKind
  slots : Int → SlotData := fun _ => {}
  closed : Bool := false
  /-- The next Lua object the pool allocates (a handle or a data table). -/
  nextObject : ℕ := 0

namespace EntityPool

def inRange (pool : EntityPool) (id : Int) : Bool :=
  decide ((traits pool.kind).firstId ≤ id) && decide (id < (traits pool.kind).capacity)

def slot (pool : EntityPool) (id : Int) : SlotData := pool.slots id

def setSlot (pool : EntityPool) (id : Int) (data : SlotData) : EntityPool :=
  { pool with slots := Function.update pool.slots id data }

def alive (pool : EntityPool) (id : Int) : Bool := pool.inRange id && (pool.slot id).alive

def valid (pool : EntityPool) (id : Int) (generation : Generation) : Bool :=
  pool.alive id && (pool.slot id).generation == generation

/-- Starts a lifetime unless the slot is alive already. -/
def adopt (pool : EntityPool) (id : Int) : EntityPool :=
  if !pool.inRange id then pool
  else if (pool.slot id).alive then pool
  else pool.setSlot id { pool.slot id with
    alive := true, createdByUs := false, generation := (pool.slot id).generation + 1 }

/-- Ends the lifetime, if any, and drops the handle, the data table and the tag. -/
def release (pool : EntityPool) (id : Int) : EntityPool :=
  if !pool.alive id then pool
  else pool.setSlot id { pool.slot id with
    alive := false, createdByUs := false, handle := none, data := none, tag := "" }

/-- The reference to the current lifetime; the default one if not alive. -/
def ref (pool : EntityPool) (id : Int) : EntityRef :=
  if !pool.alive id then {} else ⟨id, (pool.slot id).generation⟩

/-- Adopt, then the reference. -/
def seen (pool : EntityPool) (id : Int) : EntityRef × EntityPool :=
  ((pool.adopt id).ref id, pool.adopt id)

def markCreatedByUs (pool : EntityPool) (id : Int) : EntityPool :=
  if pool.alive id then pool.setSlot id { pool.slot id with createdByUs := true } else pool

/-- The ids of the pool in increasing order. -/
def ids (pool : EntityPool) : List Int :=
  (List.range ((traits pool.kind).capacity - (traits pool.kind).firstId).toNat).map
    fun offset : ℕ => (traits pool.kind).firstId + (offset : Int)

def createdByUs (pool : EntityPool) : List Int :=
  pool.ids.filter fun id => (pool.slot id).alive && (pool.slot id).createdByUs

def aliveIds (pool : EntityPool) : List Int := pool.ids.filter fun id => (pool.slot id).alive

/-- The check of every member of a handle, with the error it raises. -/
def require (pool : EntityPool) (id : Int) (generation : Generation) : Except String Unit :=
  if pool.closed then .error "runtime shutting down"
  else if !pool.valid id generation then .error s!"{(traits pool.kind).name} no longer exists"
  else .ok ()

/-- The cached handle, created on first use; `none` is Lua's nil. -/
def push (pool : EntityPool) (id : Int) (generation : Generation) :
    Option EntityHandle × EntityPool :=
  if pool.closed || !pool.valid id generation then (none, pool)
  else match (pool.slot id).handle with
    | some handle => (some handle, pool)
    | none =>
      let handle : EntityHandle := ⟨pool.nextObject, id, generation⟩
      (some handle, { pool.setSlot id { pool.slot id with handle := some handle } with
        nextObject := pool.nextObject + 1 })

/-- The entity's data table, created on first use. -/
def data (pool : EntityPool) (id : Int) (generation : Generation) :
    Except String (LuaTable × EntityPool) := do
  pool.require id generation
  match (pool.slot id).data with
  | some table => return (table, pool)
  | none =>
    return (pool.nextObject, { pool.setSlot id { pool.slot id with data := some pool.nextObject } with
      nextObject := pool.nextObject + 1 })

def setData (pool : EntityPool) (id : Int) (generation : Generation) (table : LuaTable) :
    Except String EntityPool := do
  pool.require id generation
  return pool.setSlot id { pool.slot id with data := some table }

def tag (pool : EntityPool) (id : Int) (generation : Generation) : Except String String := do
  pool.require id generation
  return (pool.slot id).tag

def setTag (pool : EntityPool) (id : Int) (generation : Generation) (tag : String) :
    Except String EntityPool := do
  pool.require id generation
  return pool.setSlot id { pool.slot id with tag := tag }

def close (pool : EntityPool) : EntityPool := { pool with closed := true }

/-- Every Lua reference the pool holds is dropped; the lifetimes go on. -/
def releaseRefs (pool : EntityPool) : EntityPool :=
  { pool with slots := fun id => { pool.slot id with handle := none, data := none } }

/-! ## Reading the slots after an update -/

@[simp] theorem setSlot_kind (pool : EntityPool) (id : Int) (data : SlotData) :
    (pool.setSlot id data).kind = pool.kind := rfl

@[simp] theorem slot_setSlot (pool : EntityPool) (id query : Int) (data : SlotData) :
    (pool.setSlot id data).slot query = if query = id then data else pool.slot query := by
  simp only [setSlot, slot, Function.update_apply]

@[simp] theorem inRange_setSlot (pool : EntityPool) (id query : Int) (data : SlotData) :
    (pool.setSlot id data).inRange query = pool.inRange query := rfl

theorem inRange_iff (pool : EntityPool) (id : Int) :
    pool.inRange id = true ↔ (traits pool.kind).firstId ≤ id ∧ id < (traits pool.kind).capacity := by
  simp [inRange]

theorem alive_iff (pool : EntityPool) (id : Int) :
    pool.alive id = true ↔ pool.inRange id = true ∧ (pool.slot id).alive = true := by
  simp [alive]

theorem valid_iff (pool : EntityPool) (id : Int) (generation : Generation) :
    pool.valid id generation = true ↔
      pool.alive id = true ∧ (pool.slot id).generation = generation := by
  simp [valid]

@[simp] theorem adopt_kind (pool : EntityPool) (id : Int) : (pool.adopt id).kind = pool.kind := by
  unfold adopt
  split_ifs <;> rfl

@[simp] theorem release_kind (pool : EntityPool) (id : Int) : (pool.release id).kind = pool.kind := by
  unfold release
  split_ifs <;> rfl

@[simp] theorem markCreatedByUs_kind (pool : EntityPool) (id : Int) :
    (pool.markCreatedByUs id).kind = pool.kind := by
  unfold markCreatedByUs
  split_ifs <;> rfl

@[simp] theorem push_kind (pool : EntityPool) (id : Int) (generation : Generation) :
    (pool.push id generation).2.kind = pool.kind := by
  unfold push
  split_ifs
  · rfl
  · cases (pool.slot id).handle <;> rfl

theorem mem_ids (pool : EntityPool) (id : Int) : id ∈ pool.ids ↔ pool.inRange id = true := by
  simp only [ids, List.mem_map, List.mem_range, inRange_iff]
  constructor
  · rintro ⟨offset, bound, rfl⟩
    omega
  · rintro ⟨lower, upper⟩
    exact ⟨(id - (traits pool.kind).firstId).toNat, by omega, by omega⟩

theorem ids_nodup (pool : EntityPool) : pool.ids.Nodup := by
  refine List.Nodup.map (fun left right equal => ?_) List.nodup_range
  omega

theorem mem_aliveIds (pool : EntityPool) (id : Int) : id ∈ pool.aliveIds ↔ pool.alive id = true := by
  rw [aliveIds, List.mem_filter, mem_ids, alive_iff]

theorem mem_createdByUs (pool : EntityPool) (id : Int) :
    id ∈ pool.createdByUs ↔ pool.alive id = true ∧ (pool.slot id).createdByUs = true := by
  rw [createdByUs, List.mem_filter, mem_ids, alive_iff, Bool.and_eq_true, and_assoc]

/-- Adopting makes exactly the adopted id alive, if the pool has it. -/
theorem alive_adopt (pool : EntityPool) (id query : Int) :
    (pool.adopt id).alive query = (pool.alive query || (query == id && pool.inRange id)) := by
  unfold adopt
  by_cases range : pool.inRange id <;> by_cases occupied : (pool.slot id).alive <;>
    by_cases same : query = id <;> simp_all [alive]

/-- Releasing makes exactly the released id not alive. -/
theorem alive_release (pool : EntityPool) (id query : Int) :
    (pool.release id).alive query = (pool.alive query && query != id) := by
  unfold release
  by_cases occupied : pool.alive id
  · by_cases same : query = id <;> simp_all [alive]
  · by_cases same : query = id
    · simp_all
    · simp [occupied, same]

/-- A pushed handle changes no lifetime. -/
theorem slot_push (pool : EntityPool) (id : Int) (generation : Generation) (query : Int) :
    ((pool.push id generation).2.slot query).alive = (pool.slot query).alive ∧
      ((pool.push id generation).2.slot query).createdByUs = (pool.slot query).createdByUs := by
  unfold push
  split_ifs
  · exact ⟨rfl, rfl⟩
  · cases (pool.slot id).handle with
    | some handle => exact ⟨rfl, rfl⟩
    | none =>
      by_cases same : query = id
      · subst same
        simp [slot, setSlot]
      · simp [slot, setSlot, same]

theorem alive_push (pool : EntityPool) (id : Int) (generation : Generation) (query : Int) :
    (pool.push id generation).2.alive query = pool.alive query := by
  rw [alive, alive, inRange, inRange, push_kind, (slot_push pool id generation query).1]

/-- The entity is alive and marked as created by this runtime. -/
def made (pool : EntityPool) (id : Int) : Bool := pool.alive id && (pool.slot id).createdByUs

theorem made_push (pool : EntityPool) (id : Int) (generation : Generation) (query : Int) :
    (pool.push id generation).2.made query = pool.made query := by
  rw [made, made, alive_push, (slot_push pool id generation query).2]

/-- A lifetime starts without the mark. -/
theorem made_adopt (pool : EntityPool) (id query : Int) : (pool.adopt id).made query = pool.made query := by
  unfold adopt
  by_cases range : pool.inRange id <;> by_cases occupied : (pool.slot id).alive <;>
    by_cases same : query = id <;> simp_all [made, alive]

theorem made_release (pool : EntityPool) (id query : Int) :
    (pool.release id).made query = (pool.made query && query != id) := by
  unfold release
  by_cases range : pool.inRange id <;> by_cases occupied : (pool.slot id).alive <;>
    by_cases same : query = id <;> simp_all [made, alive]

theorem alive_markCreatedByUs (pool : EntityPool) (id query : Int) :
    (pool.markCreatedByUs id).alive query = pool.alive query := by
  unfold markCreatedByUs
  by_cases range : pool.inRange id <;> by_cases occupied : (pool.slot id).alive <;>
    by_cases same : query = id <;> simp_all [alive]

theorem made_markCreatedByUs (pool : EntityPool) (id query : Int) :
    (pool.markCreatedByUs id).made query = (pool.made query || (query == id && pool.alive id)) := by
  unfold markCreatedByUs
  by_cases range : pool.inRange id <;> by_cases occupied : (pool.slot id).alive <;>
    by_cases same : query = id <;> simp_all [made, alive]

end EntityPool

end VcmpLua.Model.Core
