import VcmpLua.Model.Core.EntityPool

/-! # Generations count lifetimes

A ghost count of the lifetimes begun at an id is tied to the stored 32-bit generation through every
operation of a pool, in any order and with any ids. A reference taken in one lifetime is therefore
valid in a later state exactly when the id is alive there in a lifetime with a congruent number:
redundant adoptions keep it valid, and a release ends it until the counter has wrapped around.
-/

namespace VcmpLua.Model.Core.EntityPool

/-- The operations of a pool, with the arguments its callers pass. -/
inductive PoolOp where
  | adopt (id : Int)
  | release (id : Int)
  | seen (id : Int)
  | ref (id : Int)
  | markCreatedByUs (id : Int)
  | push (id : Int) (generation : Generation)
  | data (id : Int) (generation : Generation)
  | setData (id : Int) (generation : Generation) (table : LuaTable)
  | tag (id : Int) (generation : Generation)
  | setTag (id : Int) (generation : Generation) (text : String)
  | close
  | releaseRefs
deriving DecidableEq, Repr

/-- The state after one operation; one that raises leaves the pool as it was. -/
def PoolOp.apply : PoolOp → EntityPool → EntityPool
  | .adopt id, pool => pool.adopt id
  | .release id, pool => pool.release id
  | .seen id, pool => (pool.seen id).2
  | .ref _, pool => pool
  | .markCreatedByUs id, pool => pool.markCreatedByUs id
  | .push id generation, pool => (pool.push id generation).2
  | .data id generation, pool => ((pool.data id generation).toOption.map Prod.snd).getD pool
  | .setData id generation table, pool => (pool.setData id generation table).toOption.getD pool
  | .tag _ _, pool => pool
  | .setTag id generation text, pool => (pool.setTag id generation text).toOption.getD pool
  | .close, pool => pool.close
  | .releaseRefs, pool => pool.releaseRefs

def runOps (pool : EntityPool) (ops : List PoolOp) : EntityPool :=
  ops.foldl (fun pool op => op.apply pool) pool

/-- One if the step begins a lifetime at `id`. -/
def begins (old new : EntityPool) (id : Int) : ℕ := if !old.alive id && new.alive id then 1 else 0

/-- How many lifetimes begin at `id` in a sequence of operations. -/
def lifetimes (pool : EntityPool) : List PoolOp → Int → ℕ
  | [], _ => 0
  | op :: rest, id => begins pool (op.apply pool) id + lifetimes (op.apply pool) rest id

@[simp] theorem runOps_cons (pool : EntityPool) (op : PoolOp) (ops : List PoolOp) :
    runOps pool (op :: ops) = runOps (op.apply pool) ops := rfl

theorem runOps_append (pool : EntityPool) (first second : List PoolOp) :
    runOps pool (first ++ second) = runOps (runOps pool first) second :=
  List.foldl_append

theorem lifetimes_append (pool : EntityPool) (first second : List PoolOp) (id : Int) :
    lifetimes pool (first ++ second) id =
      lifetimes pool first id + lifetimes (runOps pool first) second id := by
  induction first generalizing pool with
  | nil => simp [lifetimes, runOps]
  | cons op rest ih => simp only [List.cons_append, lifetimes, ih, runOps_cons, Nat.add_assoc]

/-! ## What one operation can do to a slot -/

/-- A step that keeps the lifetime at `id`: alive as before, with the same generation. -/
def SameLife (old new : EntityPool) (id : Int) : Prop :=
  new.alive id = old.alive id ∧ (new.slot id).generation = (old.slot id).generation

/-- A step at `id` keeps its lifetime, ends it, or begins the next one. -/
def LifeStep (old new : EntityPool) (id : Int) : Prop :=
  SameLife old new id ∨
  (old.alive id = true ∧ new.alive id = false ∧
    (new.slot id).generation = (old.slot id).generation) ∨
  (old.alive id = false ∧ new.alive id = true ∧
    (new.slot id).generation = (old.slot id).generation + 1)

theorem lifeStep_adopt (pool : EntityPool) (id query : Int) :
    LifeStep pool (pool.adopt id) query := by
  by_cases range : pool.inRange id
  · by_cases occupied : (pool.slot id).alive
    · exact .inl ⟨by simp [adopt, range, occupied], by simp [adopt, range, occupied]⟩
    · by_cases same : query = id
      · subst same
        exact .inr (.inr ⟨by simp [alive, occupied], by simp [alive_adopt, range],
          by simp [adopt, range, occupied]⟩)
      · exact .inl ⟨by simp [alive_adopt, same], by simp [adopt, range, occupied, same]⟩
  · exact .inl ⟨by simp [adopt, range], by simp [adopt, range]⟩

theorem lifeStep_release (pool : EntityPool) (id query : Int) :
    LifeStep pool (pool.release id) query := by
  have generation : ((pool.release id).slot query).generation = (pool.slot query).generation := by
    unfold release
    split_ifs
    · rfl
    · simp only [slot_setSlot]
      split_ifs with same
      · rw [same]
      · rfl
  by_cases same : query = id
  · subst same
    by_cases occupied : pool.alive query
    · exact .inr (.inl ⟨occupied, by simp [alive_release], generation⟩)
    · exact .inl ⟨by simp [alive_release, occupied], generation⟩
  · exact .inl ⟨by simp [alive_release, same], generation⟩

/-- Writing a slot without touching its lifetime fields keeps every lifetime. -/
theorem sameLife_setSlot (pool : EntityPool) (id query : Int) (data : SlotData)
    (alive : data.alive = (pool.slot id).alive)
    (generation : data.generation = (pool.slot id).generation) :
    SameLife pool (pool.setSlot id data) query := by
  by_cases same : query = id
  · subst same
    exact ⟨by simp [EntityPool.alive, alive], by simp [generation]⟩
  · exact ⟨by simp [EntityPool.alive, same], by simp [same]⟩

theorem sameLife_markCreatedByUs (pool : EntityPool) (id query : Int) :
    SameLife pool (pool.markCreatedByUs id) query := by
  unfold markCreatedByUs
  split_ifs
  · exact sameLife_setSlot pool id query _ rfl rfl
  · exact ⟨rfl, rfl⟩

theorem sameLife_push (pool : EntityPool) (id query : Int) (generation : Generation) :
    SameLife pool (pool.push id generation).2 query := by
  unfold push
  split_ifs
  · exact ⟨rfl, rfl⟩
  · split
    · exact ⟨rfl, rfl⟩
    · exact sameLife_setSlot pool id query _ rfl rfl

theorem valid_push (pool : EntityPool) (id query : Int) (generation other : Generation) :
    (pool.push id generation).2.valid query other = pool.valid query other := by
  obtain ⟨alive, same⟩ := sameLife_push pool id query generation
  rw [valid, valid, alive, same]

theorem sameLife_releaseRefs (pool : EntityPool) (query : Int) :
    SameLife pool pool.releaseRefs query := ⟨rfl, rfl⟩

/-- A member that passes its check may write its slot; one that raises writes nothing. -/
theorem sameLife_ofRequire (pool : EntityPool) (id query : Int) (generation : Generation)
    (write : EntityPool) (same : SameLife pool write query) :
    SameLife pool ((pool.require id generation >>= fun _ => Except.ok write).toOption.getD pool)
      query := by
  cases pool.require id generation with
  | error message => exact ⟨rfl, rfl⟩
  | ok _ => exact same

theorem sameLife_data (pool : EntityPool) (id query : Int) (generation : Generation) :
    SameLife pool (((pool.data id generation).toOption.map Prod.snd).getD pool) query := by
  unfold data
  cases pool.require id generation with
  | error message => exact ⟨rfl, rfl⟩
  | ok _ =>
    cases (pool.slot id).data with
    | some table => exact ⟨rfl, rfl⟩
    | none => exact sameLife_setSlot pool id query _ rfl rfl

/-- Every operation keeps, ends or begins a lifetime at every id. -/
theorem lifeStep_apply (op : PoolOp) (pool : EntityPool) (id : Int) :
    LifeStep pool (op.apply pool) id := by
  cases op with
  | adopt target => exact lifeStep_adopt pool target id
  | seen target => exact lifeStep_adopt pool target id
  | release target => exact lifeStep_release pool target id
  | ref _ => exact .inl ⟨rfl, rfl⟩
  | tag _ _ => exact .inl ⟨rfl, rfl⟩
  | close => exact .inl ⟨rfl, rfl⟩
  | markCreatedByUs target => exact .inl (sameLife_markCreatedByUs pool target id)
  | push target generation => exact .inl (sameLife_push pool target id generation)
  | data target generation => exact .inl (sameLife_data pool target id generation)
  | setData target generation table =>
    exact .inl (sameLife_ofRequire pool target id generation _ (sameLife_setSlot pool target id _ rfl rfl))
  | setTag target generation tag =>
    exact .inl (sameLife_ofRequire pool target id generation _ (sameLife_setSlot pool target id _ rfl rfl))
  | releaseRefs => exact .inl (sameLife_releaseRefs pool id)

/-! ## Whole runs -/

theorem generation_step (op : PoolOp) (pool : EntityPool) (id : Int) :
    ((op.apply pool).slot id).generation =
      (pool.slot id).generation + BitVec.ofNat 32 (begins pool (op.apply pool) id) := by
  rcases lifeStep_apply op pool id with ⟨alive, same⟩ | ⟨before, now, same⟩ | ⟨before, now, next⟩
  · simp [begins, alive, same]
  · simp [begins, before, same]
  · simp [begins, before, now, next]

/-- The stored counter advances by exactly the lifetimes begun, modulo `2 ^ 32`. -/
theorem generation_runOps (pool : EntityPool) (ops : List PoolOp) (id : Int) :
    ((runOps pool ops).slot id).generation =
      (pool.slot id).generation + BitVec.ofNat 32 (lifetimes pool ops id) := by
  induction ops generalizing pool with
  | nil => simp [runOps, lifetimes]
  | cons op rest ih =>
    rw [runOps_cons, ih, generation_step, lifetimes, BitVec.ofNat_add, BitVec.add_assoc]

theorem generation_fresh (kind : EntityKind) (ops : List PoolOp) (id : Int) :
    ((runOps { kind } ops).slot id).generation = BitVec.ofNat 32 (lifetimes { kind } ops id) := by
  rw [generation_runOps]
  simp [slot]

theorem runOps_kind (pool : EntityPool) (ops : List PoolOp) : (runOps pool ops).kind = pool.kind := by
  induction ops generalizing pool with
  | nil => rfl
  | cons op rest ih =>
    rw [runOps_cons, ih]
    cases op <;> simp only [PoolOp.apply, seen, adopt_kind, release_kind]
    case markCreatedByUs id => unfold markCreatedByUs; split_ifs <;> rfl
    case push id generation => unfold push; split_ifs <;> [rfl; split <;> rfl]
    case data id generation =>
      unfold data
      cases pool.require id generation with
      | error message => rfl
      | ok _ => cases (pool.slot id).data <;> rfl
    case setData id generation table =>
      unfold setData
      cases pool.require id generation <;> rfl
    case setTag id generation tag =>
      unfold setTag
      cases pool.require id generation <;> rfl
    all_goals rfl

/-- Without a new lifetime, an id that is alive afterwards was alive all along. -/
theorem alive_of_no_lifetime (pool : EntityPool) (ops : List PoolOp) (id : Int)
    (none : lifetimes pool ops id = 0) (alive : (runOps pool ops).alive id = true) :
    pool.alive id = true := by
  induction ops generalizing pool with
  | nil => exact alive
  | cons op rest ih =>
    have split : begins pool (op.apply pool) id = 0 ∧ lifetimes (op.apply pool) rest id = 0 := by
      simpa [lifetimes] using none
    have next := ih (op.apply pool) split.2 alive
    by_contra dead
    simp [begins, dead, next] at split

private theorem ofNat_eq_iff (left right : ℕ) :
    BitVec.ofNat 32 left = BitVec.ofNat 32 right ↔ left ≡ right [MOD 2 ^ 32] := by
  rw [← BitVec.toNat_inj, BitVec.toNat_ofNat, BitVec.toNat_ofNat, Nat.ModEq]

/-- A reference to the current lifetime carries the number of that lifetime. -/
theorem ref_generation (kind : EntityKind) (ops : List PoolOp) (id : Int)
    (alive : (runOps { kind } ops).alive id = true) :
    (runOps { kind } ops).ref id = ⟨id, BitVec.ofNat 32 (lifetimes { kind } ops id)⟩ := by
  simp only [ref, alive, Bool.not_true, Bool.false_eq_true, ↓reduceIte, generation_fresh]

/-- A reference from `before` is valid later exactly in a lifetime with a congruent number. -/
theorem valid_later_iff (kind : EntityKind) (before after : List PoolOp) (id : Int)
    (alive : (runOps { kind } before).alive id = true) :
    (runOps { kind } (before ++ after)).valid id ((runOps { kind } before).ref id).generation = true ↔
      (runOps { kind } (before ++ after)).alive id = true ∧
        lifetimes { kind } (before ++ after) id ≡ lifetimes { kind } before id [MOD 2 ^ 32] := by
  rw [ref_generation kind before id alive, valid_iff, generation_fresh, ofNat_eq_iff]

/-- The default reference is outside every pool. -/
theorem not_valid_default (pool : EntityPool) (generation : Generation) :
    pool.valid (-1) generation = false := by
  have first := traits_firstId_nonneg pool.kind
  have outside : pool.inRange (-1) = false := by
    rw [Bool.eq_false_iff, ne_eq, inRange_iff]
    omega
  simp [valid, alive, outside]

/-- A reference whose lifetime has ended is not valid before `2 ^ 32` further lifetimes began. -/
theorem not_valid_after_end (kind : EntityKind) (before middle rest : List PoolOp) (id : Int)
    (alive : (runOps { kind } before).alive id = true)
    (ended : (runOps { kind } (before ++ middle)).alive id = false)
    (few : lifetimes (runOps { kind } before) (middle ++ rest) id < 2 ^ 32) :
    (runOps { kind } (before ++ (middle ++ rest))).valid id
      ((runOps { kind } before).ref id).generation = false := by
  rw [Bool.eq_false_iff, ne_eq, valid_later_iff kind before (middle ++ rest) id alive]
  rintro ⟨again, congruent⟩
  rw [lifetimes_append, Nat.add_modEq_left_iff] at congruent
  have none := Nat.eq_zero_of_dvd_of_lt congruent few
  rw [lifetimes_append, ← runOps_append] at none
  rw [← List.append_assoc, runOps_append] at again
  have middleAlive := alive_of_no_lifetime _ rest id (by omega) again
  exact absurd middleAlive (by rw [ended]; decide)

/-- Generations count lifetimes, and a reference is valid exactly in lifetimes congruent to its own:
throughout the one it was taken in, and never between its end and the wrap-around. A reference from
`seen` is one from `ref` in the state after it. -/
theorem reference_valid_iff_same_lifetime (kind : EntityKind) (before : List PoolOp) (id : Int) :
    ((runOps { kind } before).slot id).generation.toNat = lifetimes { kind } before id % 2 ^ 32 ∧
    (runOps { kind } before).valid ({} : EntityRef).id ({} : EntityRef).generation = false ∧
    ((runOps { kind } before).seen id).1 = (runOps { kind } (before ++ [.seen id])).ref id ∧
    ((runOps { kind } before).alive id = true →
      (∀ after, (runOps { kind } (before ++ after)).valid id
          ((runOps { kind } before).ref id).generation = true ↔
        (runOps { kind } (before ++ after)).alive id = true ∧
          lifetimes { kind } (before ++ after) id ≡ lifetimes { kind } before id [MOD 2 ^ 32]) ∧
      (∀ after, lifetimes (runOps { kind } before) after id = 0 →
        (runOps { kind } (before ++ after)).alive id = true →
          (runOps { kind } (before ++ after)).valid id
            ((runOps { kind } before).ref id).generation = true) ∧
      (∀ middle rest, (runOps { kind } (before ++ middle)).alive id = false →
        lifetimes (runOps { kind } before) (middle ++ rest) id < 2 ^ 32 →
          (runOps { kind } (before ++ (middle ++ rest))).valid id
            ((runOps { kind } before).ref id).generation = false)) := by
  refine ⟨?_, not_valid_default _ _, ?_, fun alive => ⟨fun after => ?_, fun after none later => ?_,
    fun middle rest ended few => not_valid_after_end kind before middle rest id alive ended few⟩⟩
  · rw [generation_fresh, BitVec.toNat_ofNat]
  · rw [runOps_append]
    rfl
  · exact valid_later_iff kind before after id alive
  · rw [valid_later_iff kind before after id alive, lifetimes_append, none]
    exact ⟨later, rfl⟩

/-- A vehicle adopted, adopted again, deleted and created anew at the same id. -/
theorem reference_valid_iff_same_lifetime_reuse :
    (runOps { kind := .vehicle } [.adopt 5, .adopt 5]).valid 5
      ((runOps { kind := .vehicle } [.adopt 5]).ref 5).generation = true ∧
    (runOps { kind := .vehicle } [.adopt 5, .release 5, .adopt 5]).valid 5
      ((runOps { kind := .vehicle } [.adopt 5]).ref 5).generation = false := by
  obtain ⟨_, _, _, taken⟩ := reference_valid_iff_same_lifetime .vehicle [.adopt 5] 5
  obtain ⟨_, within, stale⟩ := taken (by decide)
  exact ⟨within [.adopt 5] (by decide) (by decide), stale [.release 5] [.adopt 5] (by decide) (by decide)⟩

end VcmpLua.Model.Core.EntityPool
