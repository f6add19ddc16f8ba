import Mathlib
import VcmpLua.Spec.EntityLives

/-! # One Lua value per lifetime

The slots of a pool are the lives of its specification, and every operation gives the same answer on
both. So nothing leaks from a lifetime into the next one that uses its slot. On the lives it is then
shown that a Lua object belongs to one life for good: it is made once, it stays until the life ends,
and no other life ever gets it.
-/

namespace VcmpLua.Spec

open VcmpLua.Model.Core VcmpLua.Model.Core.EntityPool

/-! ## The slots stand for the lives -/

section Slots

variable {lives : Lives} {id : Int}

theorem pool_ext {pool other : EntityPool} (kind : pool.kind = other.kind) (slots : ∀ id, pool.slot id = other.slot id)
    (closed : pool.closed = other.closed) (nextObject : pool.nextObject = other.nextObject) : pool = other := by
  have same : pool.slots = other.slots := funext slots
  cases pool
  cases other
  simp_all

theorem slot_of_none (none : lives.current id = none) :
    lives.slot id = { generation := BitVec.ofNat 32 (lives.begun id) } := by
  rw [Lives.slot, none]

theorem slot_of_some {life : Life} (some : lives.current id = some life) :
    lives.slot id = life.slot id (BitVec.ofNat 32 (lives.begun id)) := by
  rw [Lives.slot, some]

@[simp] theorem toPool_slot (lives : Lives) (id : Int) : lives.toPool.slot id = lives.slot id := rfl

theorem toPool_inRange (lives : Lives) (id : Int) : lives.toPool.inRange id = true ↔ Known lives.kind id :=
  inRange_iff _ _

theorem toPool_alive (lives : Lives) (id : Int) : lives.toPool.alive id = (lives.current id).isSome := by
  cases current : lives.current id with
  | none => simp [alive, slot_of_none current]
  | some life =>
    have known := (toPool_inRange lives id).mpr (lives.known id (by rw [current]; rfl))
    simp [alive, slot_of_some current, known, Life.slot]

theorem toPool_generation (lives : Lives) (id : Int) :
    (lives.toPool.slot id).generation = BitVec.ofNat 32 (lives.begun id) := by
  cases current : lives.current id with
  | none => rw [toPool_slot, slot_of_none current]
  | some life => rw [toPool_slot, slot_of_some current, Life.slot]

theorem toPool_valid (lives : Lives) (id : Int) (generation : Generation) :
    lives.toPool.valid id generation = (lives.find id generation).isSome := by
  rw [valid, toPool_alive, toPool_generation, Lives.find]
  split_ifs with same
  · simp [same]
  · simp [Ne.symm same]

end Slots

/-! ## One operation -/

section Operations

variable {id : Int} {generation : Generation}

/-- Writing to a life is writing its slot. -/
theorem toPool_write (lives : Lives) {life : Life} (change : Life → Life) (current : lives.current id = some life) :
    (lives.write id change).toPool =
      lives.toPool.setSlot id ((change life).slot id (BitVec.ofNat 32 (lives.begun id))) := by
  refine pool_ext rfl (fun other => ?_) rfl rfl
  rw [toPool_slot, slot_setSlot, toPool_slot]
  split_ifs with same
  · subst same
    have changed : (lives.write other change).current other = some (change life) := by
      simp [Lives.write, current]
    exact slot_of_some changed
  · simp only [Lives.slot, Lives.write, Function.update_of_ne same]

theorem toPool_begin (lives : Lives) (id : Int) : (lives.begin id).toPool = lives.toPool.adopt id := by
  unfold adopt
  by_cases fresh : Known lives.kind id ∧ lives.current id = none
  · have inside := (toPool_inRange lives id).mpr fresh.1
    rw [Lives.begin, dif_pos fresh]
    simp only [inside, Bool.not_true, Bool.false_eq_true, ↓reduceIte, toPool_slot, slot_of_none fresh.2]
    refine pool_ext rfl (fun other => ?_) rfl rfl
    rw [toPool_slot, slot_setSlot, toPool_slot]
    split_ifs with same
    · subst same
      simp [Lives.slot, Life.slot, BitVec.ofNat_add]
    · simp only [Lives.slot, Function.update_of_ne same]
  · rw [Lives.begin, dif_neg fresh]
    by_cases inside : lives.toPool.inRange id = true
    · cases current : lives.current id with
      | none => exact absurd ⟨(toPool_inRange lives id).mp inside, current⟩ fresh
      | some life => simp [inside, slot_of_some current, Life.slot]
    · simp [inside]

theorem toPool_finish (lives : Lives) (id : Int) : (lives.finish id).toPool = lives.toPool.release id := by
  unfold release
  rw [toPool_alive]
  apply pool_ext
  · split_ifs <;> rfl
  · intro other
    have others : other ≠ id → (lives.finish id).slot other = lives.slot other := by
      intro different
      simp only [Lives.slot, Lives.finish, Function.update_of_ne different]
    have own : (lives.finish id).slot id = { generation := BitVec.ofNat 32 (lives.begun id) } := by
      simp [Lives.slot, Lives.finish]
    rw [toPool_slot]
    cases current : lives.current id with
    | none =>
      by_cases same : other = id
      · subst same
        rw [own]
        exact (slot_of_none current).symm
      · exact others same
    | some life =>
      by_cases same : other = id
      · subst same
        rw [own]
        simp [slot_of_some current, Life.slot]
      · rw [others same]
        simp [same]
  · split_ifs <;> rfl
  · split_ifs <;> rfl

theorem toPool_ref (lives : Lives) (id : Int) : lives.ref id = lives.toPool.ref id := by
  rw [ref, toPool_alive, toPool_generation, Lives.ref]
  cases lives.current id <;> rfl

theorem toPool_markCreatedByUs (lives : Lives) (id : Int) :
    (lives.write id fun life => { life with made := true }).toPool = lives.toPool.markCreatedByUs id := by
  unfold markCreatedByUs
  rw [toPool_alive]
  cases current : lives.current id with
  | none =>
    refine pool_ext rfl (fun other => ?_) rfl rfl
    by_cases same : other = id
    · subst same
      simp [Lives.slot, Lives.write, current]
    · simp [Lives.slot, Lives.write, Function.update_of_ne same]
  | some life =>
    rw [toPool_write lives _ current, toPool_slot, slot_of_some current]
    rfl

theorem find_eq_some {lives : Lives} {life : Life} (found : lives.find id generation = some life) :
    lives.current id = some life ∧ generation = BitVec.ofNat 32 (lives.begun id) := by
  unfold Lives.find at found
  split_ifs at found with same
  exact ⟨found, same⟩

theorem toPool_require (lives : Lives) (id : Int) (generation : Generation) :
    lives.toPool.require id generation = (lives.require id generation).map fun _ => () := by
  unfold require Lives.require
  rw [toPool_valid]
  cases closed : lives.closed with
  | true => simp [Lives.toPool, closed, Except.map]
  | false => cases lives.find id generation <;> simp [Lives.toPool, closed, Except.map]

theorem require_eq_ok {lives : Lives} {life : Life} (ran : lives.require id generation = .ok life) :
    lives.closed = false ∧ lives.current id = some life ∧ generation = BitVec.ofNat 32 (lives.begun id) := by
  unfold Lives.require at ran
  split_ifs at ran with closed
  cases found : lives.find id generation with
  | none =>
    rw [found] at ran
    cases ran
  | some other =>
    rw [found] at ran
    cases ran
    exact ⟨by simpa using closed, find_eq_some found⟩

/-- A reference that names the life it is used in. -/
theorem toPool_push (lives : Lives) (id : Int) (generation : Generation) :
    lives.toPool.push id generation = ((lives.push id generation).1, (lives.push id generation).2.toPool) := by
  have checked : (lives.toPool.closed || !lives.toPool.valid id generation) =
      !(lives.require id generation).toOption.isSome := by
    rw [toPool_valid, Lives.require]
    cases closed : lives.closed with
    | true => simp [Lives.toPool, closed, Except.toOption]
    | false => cases lives.find id generation <;> simp [Lives.toPool, closed, Except.toOption]
  unfold push Lives.push
  rw [checked]
  cases required : lives.require id generation with
  | error message => simp [Except.toOption]
  | ok life =>
    obtain ⟨-, current, rfl⟩ := require_eq_ok required
    rw [toPool_slot, slot_of_some current]
    cases handle : life.handle with
    | some object => simp [Except.toOption, Life.slot, handle]
    | none =>
      have written := toPool_write lives (fun life => { life with handle := some lives.nextObject }) current
      simp only [Except.toOption, Option.isSome_some, Bool.not_true, Bool.false_eq_true, ↓reduceIte, Life.slot, handle,
        Option.map_none, Prod.mk.injEq]
      refine ⟨rfl, ?_⟩
      refine pool_ext rfl (fun other => ?_) rfl rfl
      exact (congrArg (slot · other) written).symm

theorem toPool_data (lives : Lives) (id : Int) (generation : Generation) :
    lives.toPool.data id generation = (lives.data id generation).map fun result => (result.1, result.2.toPool) := by
  unfold EntityPool.data Lives.data
  rw [toPool_require]
  cases required : lives.require id generation with
  | error message => rfl
  | ok life =>
    obtain ⟨-, current, rfl⟩ := require_eq_ok required
    rw [toPool_slot, slot_of_some current]
    cases data : life.data with
    | some table => simp [bind, Except.bind, Except.map, pure, Except.pure, Life.slot, data]
    | none =>
      have written := toPool_write lives (fun life => { life with data := some lives.nextObject }) current
      simp only [bind, Except.bind, Except.map, pure, Except.pure, Life.slot, data, Except.ok.injEq, Prod.mk.injEq]
      refine ⟨rfl, ?_⟩
      refine pool_ext rfl (fun other => ?_) rfl rfl
      exact (congrArg (slot · other) written).symm

/-- A member that writes to the life after its check. -/
theorem toPool_written (lives : Lives) (id : Int) (generation : Generation) (change : Life → Life)
    (own : SlotData → SlotData)
    (same : ∀ life : Life, own (life.slot id generation) = (change life).slot id generation) :
    (do
      lives.toPool.require id generation
      return lives.toPool.setSlot id (own (lives.toPool.slot id)) : Except String EntityPool) =
      (do
        let _ ← lives.require id generation
        return lives.write id change : Except String Lives).map Lives.toPool := by
  rw [toPool_require]
  cases required : lives.require id generation with
  | error message => rfl
  | ok life =>
    obtain ⟨-, current, rfl⟩ := require_eq_ok required
    change Except.ok (lives.toPool.setSlot id (own (lives.slot id))) = Except.ok (lives.write id change).toPool
    rw [slot_of_some current, same, toPool_write lives change current]

theorem toPool_setData (lives : Lives) (id : Int) (generation : Generation) (table : LuaTable) :
    lives.toPool.setData id generation table = (lives.setData id generation table).map Lives.toPool :=
  toPool_written lives id generation (fun life => { life with data := some table })
    (fun data => { data with data := some table }) fun _ => rfl

theorem toPool_setTag (lives : Lives) (id : Int) (generation : Generation) (tag : String) :
    lives.toPool.setTag id generation tag = (lives.setTag id generation tag).map Lives.toPool :=
  toPool_written lives id generation (fun life => { life with tag := tag })
    (fun data => { data with tag := tag }) fun _ => rfl

theorem toPool_tag (lives : Lives) (id : Int) (generation : Generation) :
    lives.toPool.tag id generation = (lives.require id generation).map (·.tag) := by
  unfold EntityPool.tag
  rw [toPool_require]
  cases required : lives.require id generation with
  | error message => rfl
  | ok life =>
    obtain ⟨-, current, -⟩ := require_eq_ok required
    change Except.ok (lives.slot id).tag = Except.ok life.tag
    rw [slot_of_some current]
    rfl

theorem toPool_releaseRefs (lives : Lives) : lives.releaseRefs.toPool = lives.toPool.releaseRefs := by
  refine pool_ext rfl (fun id => ?_) rfl rfl
  change lives.releaseRefs.slot id = { lives.slot id with handle := none, data := none }
  cases current : lives.current id <;> simp [Lives.slot, Lives.releaseRefs, current, Life.slot]

/-- Every operation does to the slots what it does to the lives. -/
theorem toPool_perform (op : PoolOp) (lives : Lives) : (PoolOp.perform op lives).toPool = op.apply lives.toPool := by
  cases op with
  | adopt id => exact toPool_begin lives id
  | release id => exact toPool_finish lives id
  | seen id => exact toPool_begin lives id
  | ref id => rfl
  | markCreatedByUs id => exact toPool_markCreatedByUs lives id
  | push id generation => exact (congrArg Prod.snd (toPool_push lives id generation)).symm
  | data id generation =>
    rw [PoolOp.apply, toPool_data, PoolOp.perform]
    cases lives.data id generation <;> rfl
  | setData id generation table =>
    rw [PoolOp.apply, toPool_setData, PoolOp.perform]
    cases lives.setData id generation table <;> rfl
  | tag id generation => rfl
  | setTag id generation tag =>
    rw [PoolOp.apply, toPool_setTag, PoolOp.perform]
    cases lives.setTag id generation tag <;> rfl
  | close => rfl
  | releaseRefs => exact toPool_releaseRefs lives

/-- And answers the same. -/
theorem reply_toPool (op : PoolOp) (lives : Lives) : PoolOp.reply op lives.toPool = PoolOp.answer op lives := by
  cases op with
  | seen id =>
    have same := toPool_ref (lives.begin id) id
    rw [toPool_begin] at same
    exact congrArg PoolReply.ref same.symm
  | ref id => exact congrArg PoolReply.ref (toPool_ref lives id).symm
  | push id generation => exact congrArg (fun result => PoolReply.handle result.1) (toPool_push lives id generation)
  | data id generation =>
    rw [PoolOp.reply, toPool_data, PoolOp.answer]
    cases lives.data id generation <;> rfl
  | setData id generation table =>
    rw [PoolOp.reply, toPool_setData, PoolOp.answer, Lives.setData]
    cases lives.require id generation <;> rfl
  | tag id generation => exact congrArg PoolReply.text (toPool_tag lives id generation)
  | setTag id generation tag =>
    rw [PoolOp.reply, toPool_setTag, PoolOp.answer, Lives.setTag]
    cases lives.require id generation <;> rfl
  | adopt | release | markCreatedByUs | close | releaseRefs => rfl

end Operations

/-! ## Whole runs -/

theorem toPool_run (lives : Lives) (ops : List PoolOp) : (lives.run ops).toPool = runOps lives.toPool ops := by
  induction ops generalizing lives with
  | nil => rfl
  | cons op rest ih =>
    rw [runOps_cons, ← toPool_perform]
    exact ih _

theorem replies_toPool (lives : Lives) (ops : List PoolOp) : replies lives.toPool ops = answers lives ops := by
  induction ops generalizing lives with
  | nil => rfl
  | cons op rest ih => rw [replies, answers, reply_toPool, ← toPool_perform, ih]

/-! ## Objects and lives -/

/-- The object that stands for the entity at an id, if one was made in its life. -/
def Lives.handleAt (lives : Lives) (id : Int) : Option ℕ := (lives.current id).bind (·.handle)

/-- What an operation may do to the objects: take one away, make a new one for one id, or begin a life without one. -/
structure ObjectStep (op : PoolOp) (lives lives' : Lives) : Prop where
  objects : lives.nextObject ≤ lives'.nextObject
  handles : ∀ id, lives'.handleAt id = lives.handleAt id ∨ lives'.handleAt id = none ∨
    lives'.handleAt id = some lives.nextObject ∧ lives.nextObject < lives'.nextObject ∧ ∃ generation, op = .push id generation
  lives : ∀ id, (lives'.begun id = lives.begun id ∧
      ((lives'.current id).isSome = true → (lives.current id).isSome = true ∧
        (op ≠ .releaseRefs → ∀ object, lives.handleAt id = some object → lives'.handleAt id = some object))) ∨
    (lives'.begun id = lives.begun id + 1 ∧ (lives.current id).isSome = false ∧ (lives'.current id).isSome = true ∧
      lives'.handleAt id = none)

section ObjectStep

variable {op : PoolOp} {lives lives' : Lives}

/-- An operation that touches no object and no life. -/
theorem ObjectStep.quiet (objects : lives.nextObject ≤ lives'.nextObject) (begun : lives'.begun = lives.begun)
    (current : ∀ id, (lives'.current id).isSome = (lives.current id).isSome)
    (handles : ∀ id, lives'.handleAt id = lives.handleAt id) : ObjectStep op lives lives' := by
  refine ⟨objects, fun id => .inl (handles id), fun id => .inl ⟨congrFun begun id, fun lived => ⟨?_, fun _ object => ?_⟩⟩⟩
  · rwa [← current]
  · rw [handles]
    exact fun has => has

theorem ObjectStep.refl (op : PoolOp) (lives : Lives) : ObjectStep op lives lives :=
  .quiet le_rfl rfl (fun _ => rfl) fun _ => rfl

theorem isSome_write (lives : Lives) (id other : Int) (change : Life → Life) :
    ((lives.write id change).current other).isSome = (lives.current other).isSome := by
  by_cases same : other = id
  · subst same
    simp [Lives.write]
  · simp [Lives.write, Function.update_of_ne same]

theorem handleAt_write (lives : Lives) (id other : Int) {change : Life → Life}
    (keeps : ∀ life, (change life).handle = life.handle) :
    (lives.write id change).handleAt other = lives.handleAt other := by
  by_cases same : other = id
  · subst same
    cases current : lives.current other <;> simp [Lives.handleAt, Lives.write, current, keeps]
  · simp [Lives.handleAt, Lives.write, Function.update_of_ne same]

theorem ObjectStep.write (op : PoolOp) (lives : Lives) (id : Int) {change : Life → Life}
    (keeps : ∀ life, (change life).handle = life.handle) : ObjectStep op lives (lives.write id change) :=
  .quiet le_rfl rfl (isSome_write lives id · change) fun other => handleAt_write lives id other keeps

theorem ObjectStep.begin (op : PoolOp) (lives : Lives) (id : Int) : ObjectStep op lives (lives.begin id) := by
  unfold Lives.begin
  split_ifs with fresh
  · refine ⟨le_rfl, fun other => ?_, fun other => ?_⟩
    · by_cases same : other = id
      · subst same
        exact .inr (.inl (by simp [Lives.handleAt]))
      · exact .inl (by simp [Lives.handleAt, Function.update_of_ne same])
    · by_cases same : other = id
      · subst same
        exact .inr ⟨by simp, by simp [fresh.2], by simp, by simp [Lives.handleAt]⟩
      · refine .inl ⟨by simp [Function.update_of_ne same], ?_⟩
        simp [Lives.handleAt, Function.update_of_ne same]
  · exact .refl op lives

theorem ObjectStep.finish (op : PoolOp) (lives : Lives) (id : Int) : ObjectStep op lives (lives.finish id) := by
  refine ⟨le_rfl, fun other => ?_, fun other => ?_⟩
  · by_cases same : other = id
    · subst same
      exact .inr (.inl (by simp [Lives.handleAt, Lives.finish]))
    · exact .inl (by simp [Lives.handleAt, Lives.finish, Function.update_of_ne same])
  · refine .inl ⟨rfl, ?_⟩
    by_cases same : other = id
    · subst same
      simp [Lives.finish]
    · simp [Lives.handleAt, Lives.finish, Function.update_of_ne same]

theorem ObjectStep.push (lives : Lives) (id : Int) (generation : Generation) :
    ObjectStep (.push id generation) lives (lives.push id generation).2 := by
  unfold Lives.push
  cases required : lives.require id generation with
  | error message => exact .refl _ lives
  | ok life =>
    obtain ⟨-, current, -⟩ := require_eq_ok required
    cases handle : life.handle with
    | some object =>
      simp only [handle]
      exact .refl _ lives
    | none =>
      simp only [handle]
      refine ⟨Nat.le_succ _, fun other => ?_, fun other => .inl ⟨rfl, fun lived => ⟨?_, fun _ object has => ?_⟩⟩⟩
      · by_cases same : other = id
        · subst same
          refine .inr (.inr ⟨?_, Nat.lt_succ_self _, generation, rfl⟩)
          simp [Lives.handleAt, Lives.write, current]
        · exact .inl (by simp [Lives.handleAt, Lives.write, Function.update_of_ne same])
      · rwa [← isSome_write lives id other fun life => { life with handle := some lives.nextObject }]
      · by_cases same : other = id
        · subst same
          rw [Lives.handleAt, current, Option.bind_some, handle] at has
          cases has
        · simpa [Lives.handleAt, Lives.write, Function.update_of_ne same] using has

theorem ObjectStep.data (lives : Lives) (id : Int) (generation : Generation) :
    ObjectStep (.data id generation) lives (((lives.data id generation).toOption.map Prod.snd).getD lives) := by
  cases required : lives.require id generation with
  | error message =>
    have failed : lives.data id generation = .error message := by
      rw [Lives.data, required]
      rfl
    rw [failed]
    exact .refl _ lives
  | ok life =>
    cases data : life.data with
    | some table =>
      have found : lives.data id generation = .ok (table, lives) := by
        rw [Lives.data, required]
        simp [bind, Except.bind, pure, Except.pure, data]
      rw [found]
      exact .refl _ lives
    | none =>
      have made : lives.data id generation = .ok (lives.nextObject,
          { lives.write id fun life => { life with data := some lives.nextObject } with
            nextObject := lives.nextObject + 1 }) := by
        rw [Lives.data, required]
        simp [bind, Except.bind, pure, Except.pure, data]
      rw [made]
      refine .quiet (Nat.le_succ _) rfl (fun other => ?_) fun other => ?_
      · exact isSome_write lives id other fun life => { life with data := some lives.nextObject }
      · exact handleAt_write lives id other (fun _ => rfl : ∀ life : Life,
          ({ life with data := some lives.nextObject } : Life).handle = life.handle)

/-- A member that writes something else than the object. -/
theorem ObjectStep.written {op : PoolOp} (lives : Lives) (id : Int) (generation : Generation) {change : Life → Life}
    (keeps : ∀ life, (change life).handle = life.handle) :
    ObjectStep op lives ((do
      let _ ← lives.require id generation
      return lives.write id change : Except String Lives).toOption.getD lives) := by
  cases required : lives.require id generation with
  | error message => exact .refl _ lives
  | ok life => exact .write _ lives id keeps

theorem ObjectStep.perform (op : PoolOp) (lives : Lives) : ObjectStep op lives (PoolOp.perform op lives) := by
  cases op with
  | adopt id => exact .begin _ lives id
  | release id => exact .finish _ lives id
  | seen id => exact .begin _ lives id
  | ref id => exact .refl _ lives
  | markCreatedByUs id => exact .write _ lives id fun _ => rfl
  | push id generation => exact .push lives id generation
  | data id generation => exact .data lives id generation
  | setData id generation table => exact .written lives id generation fun _ => rfl
  | tag id generation => exact .refl _ lives
  | setTag id generation tag => exact .written lives id generation fun _ => rfl
  | close => exact .quiet le_rfl rfl (fun _ => rfl) fun _ => rfl
  | releaseRefs =>
    refine ⟨le_rfl, fun id => .inr (.inl ?_), fun id => .inl ⟨rfl, fun lived => ⟨?_, fun other => absurd rfl other⟩⟩⟩
    · cases current : lives.current id <;> simp [Lives.handleAt, PoolOp.perform, Lives.releaseRefs, current]
    · simpa [PoolOp.perform, Lives.releaseRefs] using lived

end ObjectStep

/-! ## Where an object is -/

section Objects

variable {op : PoolOp} {lives lives' : Lives}

/-- No two entities share an object, and the next one is new. -/
structure Fresh (lives : Lives) : Prop where
  bounded : ∀ id object, lives.handleAt id = some object → object < lives.nextObject
  apart : ∀ id other object, lives.handleAt id = some object → lives.handleAt other = some object → id = other

theorem Fresh.step (fresh : Fresh lives) (step : ObjectStep op lives lives') : Fresh lives' := by
  have before : ∀ id object, lives'.handleAt id = some object →
      lives.handleAt id = some object ∨
        object = lives.nextObject ∧ lives.nextObject < lives'.nextObject ∧ ∃ generation, op = .push id generation := by
    intro id object has
    rcases step.handles id with same | gone | ⟨made, more, asked⟩
    · exact .inl (same ▸ has)
    · rw [gone] at has
      cases has
    · rw [made] at has
      cases has
      exact .inr ⟨rfl, more, asked⟩
  constructor
  · intro id object has
    rcases before id object has with old | ⟨rfl, more, -⟩
    · exact (fresh.bounded id object old).trans_le step.objects
    · exact more
  · intro id other object first second
    rcases before id object first with old | ⟨rfl, -, generation, asked⟩
    · rcases before other object second with old' | ⟨rfl, -⟩
      · exact fresh.apart id other object old old'
      · exact absurd (fresh.bounded id _ old) (Nat.lt_irrefl _)
    · rcases before other _ second with old' | ⟨-, -, generation', asked'⟩
      · exact absurd (fresh.bounded other _ old') (Nat.lt_irrefl _)
      · rw [asked] at asked'
        cases asked'
        rfl

/-- The object stands for nothing but one life, if at all. -/
structure Owned (object : ℕ) (id : Int) (number : ℕ) (lives : Lives) : Prop where
  made : object < lives.nextObject
  only : ∀ other, lives.handleAt other = some object → other = id ∧ lives.begun other = number

theorem Owned.step {object number : ℕ} {id : Int} (owned : Owned object id number lives)
    (step : ObjectStep op lives lives') : Owned object id number lives' := by
  refine ⟨owned.made.trans_le step.objects, fun other has => ?_⟩
  have old : lives.handleAt other = some object := by
    rcases step.handles other with same | gone | ⟨made, -, -⟩
    · exact same ▸ has
    · rw [gone] at has
      cases has
    · rw [made] at has
      cases has
      exact absurd owned.made (Nat.lt_irrefl _)
  obtain ⟨rfl, number⟩ := owned.only other old
  refine ⟨rfl, ?_⟩
  rcases step.lives other with ⟨same, -⟩ | ⟨-, -, -, none⟩
  · exact same.trans number
  · rw [none] at has
    cases has

/-- The object stands for the entity as long as the life goes on. -/
structure Stays (object : ℕ) (id : Int) (number : ℕ) (lives : Lives) : Prop where
  reached : number ≤ lives.begun id
  here : lives.begun id = number → (lives.current id).isSome = true → lives.handleAt id = some object

theorem Stays.step {object number : ℕ} {id : Int} (stays : Stays object id number lives)
    (step : ObjectStep op lives lives') (kept : op ≠ .releaseRefs) : Stays object id number lives' := by
  rcases step.lives id with ⟨same, goesOn⟩ | ⟨next, -⟩
  · refine ⟨same ▸ stays.reached, fun now lived => ?_⟩
    obtain ⟨before, keeps⟩ := goesOn lived
    exact keeps kept object (stays.here (same ▸ now) before)
  · have reached := stays.reached
    refine ⟨by omega, fun now => ?_⟩
    omega

/-- No entity has the object any more. -/
structure Lost (object : ℕ) (lives : Lives) : Prop where
  made : object < lives.nextObject
  nowhere : ∀ id, lives.handleAt id ≠ some object

theorem Lost.step {object : ℕ} (lost : Lost object lives) (step : ObjectStep op lives lives') : Lost object lives' := by
  refine ⟨lost.made.trans_le step.objects, fun id has => ?_⟩
  rcases step.handles id with same | gone | ⟨made, -, -⟩
  · exact lost.nowhere id (same ▸ has)
  · rw [gone] at has
    cases has
  · rw [made] at has
    cases has
    exact absurd lost.made (Nat.lt_irrefl _)

/-- A property that every operation keeps holds after any of them. -/
theorem run_keeps {P : Lives → Prop} (ops : List PoolOp)
    (step : ∀ op ∈ ops, ∀ lives lives', ObjectStep op lives lives' → P lives → P lives') (start : P lives) :
    P (lives.run ops) := by
  induction ops generalizing lives with
  | nil => exact start
  | cons op rest ih =>
    apply ih fun other member => step other (List.mem_cons_of_mem _ member)
    exact step op (List.mem_cons_self ..) _ _ (.perform op lives) start

theorem run_append (lives : Lives) (first second : List PoolOp) : lives.run (first ++ second) = (lives.run first).run second :=
  List.foldl_append

/-- The lives are the lifetimes that the operations begin. -/
theorem begun_run (lives : Lives) (ops : List PoolOp) (id : Int) :
    (lives.run ops).begun id = lives.begun id + lifetimes lives.toPool ops id := by
  induction ops generalizing lives with
  | nil => rfl
  | cons op rest ih =>
    have next : (PoolOp.perform op lives).begun id = lives.begun id + begins lives.toPool (op.apply lives.toPool) id := by
      rw [← toPool_perform, begins, toPool_alive, toPool_alive]
      rcases (ObjectStep.perform op lives).lives id with ⟨same, goesOn⟩ | ⟨next, before, now, -⟩
      · rw [same, if_neg]
        · rfl
        · intro both
          rw [Bool.and_eq_true, Bool.not_eq_true'] at both
          rw [(goesOn both.2).1] at both
          cases both.1
      · rw [next, before, now]
        rfl
    change ((PoolOp.perform op lives).run rest).begun id = _
    rw [ih, next, toPool_perform, lifetimes, Nat.add_assoc]

theorem handleAt_push {id : Int} {generation : Generation} {handle : EntityHandle}
    (pushed : (lives.push id generation).1 = some handle) :
    (lives.push id generation).2.handleAt id = some handle.object ∧
      ((lives.push id generation).2.current id).isSome = true := by
  unfold Lives.push at pushed ⊢
  cases required : lives.require id generation with
  | error message =>
    rw [required] at pushed
    cases pushed
  | ok life =>
    obtain ⟨-, current, -⟩ := require_eq_ok required
    rw [required] at pushed
    cases has : life.handle with
    | some object =>
      simp only [has] at pushed ⊢
      cases pushed
      simp [Lives.handleAt, current, has]
    | none =>
      simp only [has] at pushed ⊢
      cases pushed
      simp [Lives.handleAt, Lives.write, current]

/-- Pushing begins no life. -/
theorem begun_push {id : Int} {generation : Generation} {handle : EntityHandle}
    (pushed : (lives.push id generation).1 = some handle) :
    (lives.push id generation).2.begun id = lives.begun id := by
  obtain ⟨has, -⟩ := handleAt_push pushed
  rcases (ObjectStep.push lives id generation).lives id with ⟨same, -⟩ | ⟨-, -, -, none⟩
  · exact same
  · rw [none] at has
    cases has

/-- Released references are made anew. -/
theorem lost_run {object number : ℕ} {id : Int} {ops : List PoolOp} (owned : Owned object id number lives)
    (released : .releaseRefs ∈ ops) : Lost object (lives.run ops) := by
  obtain ⟨early, late, rfl⟩ := List.append_of_mem released
  rw [run_append]
  have there : Owned object id number (lives.run early) :=
    run_keeps early (fun _ _ _ _ step kept => kept.step step) owned
  have dropped : Lost object (lives.run early).releaseRefs := by
    refine ⟨there.made, fun other has => ?_⟩
    obtain ⟨life, current, handle⟩ := Option.bind_eq_some_iff.mp has
    obtain ⟨old, -, rfl⟩ := Option.map_eq_some_iff.mp current
    cases handle
  change Lost object ((lives.run early).releaseRefs.run late)
  exact run_keeps late (fun _ _ _ _ step kept => kept.step step) dropped

/-- Two pushes give the same object exactly for the same entity, while the references are kept. -/
theorem same_object_iff {id other : Int} {generation generation' : Generation} {handle handle' : EntityHandle}
    {middle : List PoolOp} (fresh : Fresh (lives.push id generation).2) (first : (lives.push id generation).1 = some handle)
    (second : (((lives.push id generation).2.run middle).push other generation').1 = some handle') :
    handle'.object = handle.object ↔
      other = id ∧ ((lives.push id generation).2.run middle).begun id = lives.begun id ∧ .releaseRefs ∉ middle := by
  obtain ⟨has, lived⟩ := handleAt_push first
  obtain ⟨has', lived'⟩ := handleAt_push second
  have last := ObjectStep.push ((lives.push id generation).2.run middle) other generation'
  have number := begun_push first
  have number' := begun_push second
  have owned : Owned handle.object id (lives.begun id) (lives.push id generation).2 := by
    refine ⟨fresh.bounded id _ has, fun other there => ?_⟩
    obtain rfl := fresh.apart other id _ there has
    exact ⟨rfl, number⟩
  constructor
  · intro same
    rw [same] at has'
    have still := (run_keeps middle (fun _ _ _ _ step kept => kept.step step) owned).step last
    obtain ⟨rfl, lifetime⟩ := still.only other has'
    refine ⟨rfl, number'.symm.trans lifetime, fun released => ?_⟩
    exact ((lost_run owned released).step last).nowhere other has'
  · rintro ⟨rfl, none, kept⟩
    have stays : Stays handle.object other (lives.begun other) (lives.push other generation).2 :=
      ⟨number.ge, fun _ _ => has⟩
    have asked : PoolOp.push other generation' ≠ .releaseRefs := by
      intro same
      cases same
    have still := (run_keeps middle (fun op member _ _ step stays => Stays.step stays step fun released =>
      kept (released ▸ member)) stays).step last asked
    exact Option.some_inj.mp (has'.symm.trans (still.here (number'.trans none) lived'))

end Objects

/-! ## What Lua sees of a pool -/

section Pool

variable {kind : EntityKind}

theorem toPool_fresh (kind : EntityKind) : ({ kind } : Lives).toPool = { kind } := pool_ext rfl (fun _ => rfl) rfl rfl

theorem toPool_runOps (kind : EntityKind) (ops : List PoolOp) : (Lives.run { kind } ops).toPool = runOps { kind } ops := by
  rw [toPool_run, toPool_fresh]

theorem fresh_run (kind : EntityKind) (ops : List PoolOp) : Fresh (Lives.run { kind } ops) := by
  apply run_keeps ops fun _ _ _ _ step fresh => Fresh.step fresh step
  refine ⟨fun id object has => ?_, fun id other object has => ?_⟩ <;> cases has

/-- The slots of a pool are the lives of its specification, with the same answer to every operation: the
references, handles, tables and tags that callers get are those of the life that the reference is to. A
slot without a life holds the number of the last one and nothing else, and a cached handle is of its own
slot. -/
theorem pool_refines (kind : EntityKind) (ops : List PoolOp) :
    replies { kind } ops = answers { kind } ops ∧
      (∀ id, (runOps { kind } ops).alive id = ((Lives.run { kind } ops).current id).isSome) ∧
      (∀ id, (Lives.run { kind } ops).begun id = lifetimes { kind } ops id) ∧
      (∀ id, (runOps { kind } ops).alive id = false →
        (runOps { kind } ops).slot id = { generation := BitVec.ofNat 32 (lifetimes { kind } ops id) }) ∧
      ∀ id handle, ((runOps { kind } ops).slot id).handle = some handle →
        handle.id = id ∧ handle.generation = ((runOps { kind } ops).slot id).generation := by
  have begun : ∀ id, (Lives.run { kind } ops).begun id = lifetimes { kind } ops id := by
    intro id
    rw [begun_run, toPool_fresh]
    exact Nat.zero_add _
  rw [← toPool_runOps]
  refine ⟨?_, fun id => toPool_alive _ id, begun, fun id dead => ?_, fun id handle cached => ?_⟩
  · rw [← replies_toPool, toPool_fresh]
  · rw [toPool_alive, Option.isSome_eq_false_iff, Option.isNone_iff_eq_none] at dead
    rw [toPool_slot, slot_of_none dead, begun]
  · rw [toPool_generation]
    cases current : (Lives.run { kind } ops).current id with
    | none =>
      rw [toPool_slot, slot_of_none current] at cached
      cases cached
    | some life =>
      rw [toPool_slot, slot_of_some current] at cached
      obtain ⟨object, -, rfl⟩ := Option.map_eq_some_iff.mp cached
      exact ⟨rfl, rfl⟩

/-- Pushing gives the same Lua object exactly for the same entity: for the same id in the same lifetime.
(The references are released only by a runtime that is closing, and a closed pool pushes nothing.) -/
theorem one_value_per_lifetime {before middle : List PoolOp} {id other : Int} {generation generation' : Generation}
    {handle handle' : EntityHandle} (first : ((runOps { kind } before).push id generation).1 = some handle)
    (second : ((runOps { kind } (before ++ .push id generation :: middle)).push other generation').1 = some handle') :
    handle'.object = handle.object ↔
      other = id ∧ lifetimes (runOps { kind } before) (.push id generation :: middle) id = 0 ∧ .releaseRefs ∉ middle := by
  rw [← toPool_runOps, toPool_push] at first second
  rw [← toPool_runOps]
  rw [run_append] at second
  have fresh : Fresh ((Lives.run { kind } before).push id generation).2 := by
    have whole := fresh_run kind (before ++ [.push id generation])
    rwa [run_append] at whole
  have begun := begun_run (Lives.run { kind } before) (.push id generation :: middle) id
  change ((((Lives.run { kind } before).push id generation).2).run middle).begun id = _ at begun
  rw [same_object_iff fresh first second, begun]
  constructor
  · rintro ⟨rfl, number, kept⟩
    exact ⟨rfl, by omega, kept⟩
  · rintro ⟨rfl, none, kept⟩
    exact ⟨rfl, by omega, kept⟩

/-- A vehicle pushed twice, and then deleted and created anew at the same id. -/
theorem one_value_per_lifetime_reuse :
    (∃ handle handle', ((runOps { kind := .vehicle } [.adopt 5]).push 5 1).1 = some handle ∧
      ((runOps { kind := .vehicle } [.adopt 5, .push 5 1]).push 5 1).1 = some handle' ∧ handle'.object = handle.object) ∧
    ∃ handle handle', ((runOps { kind := .vehicle } [.adopt 5]).push 5 1).1 = some handle ∧
      ((runOps { kind := .vehicle } [.adopt 5, .push 5 1, .release 5, .adopt 5]).push 5 2).1 = some handle' ∧
      handle'.object ≠ handle.object := by
  have first : ((runOps { kind := .vehicle } [.adopt 5]).push 5 1).1 = some ⟨0, 5, 1⟩ := by decide
  have again : ((runOps { kind := .vehicle } ([.adopt 5] ++ .push 5 1 :: [])).push 5 1).1 = some ⟨0, 5, 1⟩ := by decide
  have anew : ((runOps { kind := .vehicle } ([.adopt 5] ++ .push 5 1 :: [.release 5, .adopt 5])).push 5 2).1 =
      some ⟨1, 5, 2⟩ := by decide
  refine ⟨⟨_, _, first, again, ?_⟩, ⟨_, _, first, anew, fun same => ?_⟩⟩
  · exact (one_value_per_lifetime first again).mpr ⟨rfl, by decide, by decide⟩
  · have later := ((one_value_per_lifetime first anew).mp same).2.1
    revert later
    decide

end Pool

end VcmpLua.Spec
