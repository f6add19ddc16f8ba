import Mathlib
import VcmpLua.Proofs.EntityLifetimes

/-! # What an entity pool is for

The specification has no slots that are used again. An id has a life while the server has an entity
there, and a life is a record of its own: the handle, the data table, the tag and the mark begin
empty with it and go with it. A reference names a life by its id and its number, of which 32 bits
are kept. So nothing can be left over from an earlier life; that the slots behave in the same way is
proved of the model.
-/

namespace VcmpLua.Spec

open VcmpLua.Model.Core VcmpLua.Model.Core.EntityPool

/-- What is known of an entity while it lives. -/
structure Life where
  made : Bool := false
  /-- The Lua object that stands for it. -/
  handle : Option ℕ := none
  data : Option LuaTable := none
  tag : String := ""
deriving DecidableEq, Repr

/-- The ids of a kind are those the server has. -/
def Known (kind : EntityKind) (id : Int) : Prop := (traits kind).firstId ≤ id ∧ id < (traits kind).capacity

instance (kind : EntityKind) (id : Int) : Decidable (Known kind id) :=
  inferInstanceAs (Decidable (_ ∧ _))

structure Lives where
  kind : EntityKind
  current : Int → Option Life := fun _ => none
  /-- How many lives each id has had. -/
  begun : Int → ℕ := fun _ => 0
  closed : Bool := false
  nextObject : ℕ := 0
  known : ∀ id, (current id).isSome = true → Known kind id := by simp

namespace Lives

/-- The life that a reference is to. -/
def find (lives : Lives) (id : Int) (generation : Generation) : Option Life :=
  if generation = BitVec.ofNat 32 (lives.begun id) then lives.current id else none

/-- Write to the life at an id, if there is one. -/
def write (lives : Lives) (id : Int) (change : Life → Life) : Lives :=
  { lives with
    current := Function.update lives.current id ((lives.current id).map change)
    known := by
      intro other lived
      apply lives.known
      rw [Function.update_apply] at lived
      split_ifs at lived with same
      · rwa [same, ← Option.isSome_map]
      · exact lived }

def begin (lives : Lives) (id : Int) : Lives :=
  if found : Known lives.kind id ∧ lives.current id = none then
    { lives with
      current := Function.update lives.current id (some {})
      begun := Function.update lives.begun id (lives.begun id + 1)
      known := by
        intro other lived
        rw [Function.update_apply] at lived
        split_ifs at lived with same
        · rw [same]
          exact found.1
        · exact lives.known other lived }
  else lives

def finish (lives : Lives) (id : Int) : Lives :=
  { lives with
    current := Function.update lives.current id none
    known := by
      intro other lived
      rw [Function.update_apply] at lived
      split_ifs at lived with same
      · cases lived
      · exact lives.known other lived }

def ref (lives : Lives) (id : Int) : EntityRef :=
  match lives.current id with
  | none => {}
  | some _ => ⟨id, BitVec.ofNat 32 (lives.begun id)⟩

def require (lives : Lives) (id : Int) (generation : Generation) : Except String Life :=
  if lives.closed then .error "runtime shutting down"
  else match lives.find id generation with
    | none => .error s!"{(traits lives.kind).name} no longer exists"
    | some life => .ok life

/-- The object that stands for the life, made when it is first asked for. -/
def push (lives : Lives) (id : Int) (generation : Generation) : Option EntityHandle × Lives :=
  match lives.require id generation with
  | .error _ => (none, lives)
  | .ok life =>
    match life.handle with
    | some object => (some ⟨object, id, generation⟩, lives)
    | none =>
      (some ⟨lives.nextObject, id, generation⟩,
        { lives.write id fun life => { life with handle := some lives.nextObject } with
          nextObject := lives.nextObject + 1 })

def data (lives : Lives) (id : Int) (generation : Generation) : Except String (LuaTable × Lives) := do
  let life ← lives.require id generation
  match life.data with
  | some table => return (table, lives)
  | none =>
    return (lives.nextObject,
      { lives.write id fun life => { life with data := some lives.nextObject } with
        nextObject := lives.nextObject + 1 })

def setData (lives : Lives) (id : Int) (generation : Generation) (table : LuaTable) : Except String Lives := do
  let _ ← lives.require id generation
  return lives.write id fun life => { life with data := some table }

def setTag (lives : Lives) (id : Int) (generation : Generation) (tag : String) : Except String Lives := do
  let _ ← lives.require id generation
  return lives.write id fun life => { life with tag := tag }

/-- The lives go on without their objects. -/
def releaseRefs (lives : Lives) : Lives :=
  { lives with
    current := fun id => (lives.current id).map fun life => { life with handle := none, data := none }
    known := by
      intro id lived
      apply lives.known
      rwa [← Option.isSome_map] }

end Lives

/-! ## Runs -/

/-- What an operation answers. -/
inductive PoolReply where
  | done
  | ref (ref : EntityRef)
  | handle (handle : Option EntityHandle)
  | table (result : Except String LuaTable)
  | text (result : Except String String)
  | written (result : Except String Unit)

/-- The answer of an operation of the pool. -/
def PoolOp.reply : PoolOp → EntityPool → PoolReply
  | .seen id, pool => .ref (pool.seen id).1
  | .ref id, pool => .ref (pool.ref id)
  | .push id generation, pool => .handle (pool.push id generation).1
  | .data id generation, pool => .table ((pool.data id generation).map Prod.fst)
  | .setData id generation table, pool => .written ((pool.setData id generation table).map fun _ => ())
  | .tag id generation, pool => .text (pool.tag id generation)
  | .setTag id generation tag, pool => .written ((pool.setTag id generation tag).map fun _ => ())
  | _, _ => .done

/-- The state of the specification after an operation. -/
def PoolOp.perform : PoolOp → Lives → Lives
  | .adopt id, lives => lives.begin id
  | .release id, lives => lives.finish id
  | .seen id, lives => lives.begin id
  | .ref _, lives => lives
  | .markCreatedByUs id, lives => lives.write id fun life => { life with made := true }
  | .push id generation, lives => (lives.push id generation).2
  | .data id generation, lives => ((lives.data id generation).toOption.map Prod.snd).getD lives
  | .setData id generation table, lives => (lives.setData id generation table).toOption.getD lives
  | .tag _ _, lives => lives
  | .setTag id generation tag, lives => (lives.setTag id generation tag).toOption.getD lives
  | .close, lives => { lives with closed := true }
  | .releaseRefs, lives => lives.releaseRefs

/-- The answer of the specification. -/
def PoolOp.answer : PoolOp → Lives → PoolReply
  | .seen id, lives => .ref ((lives.begin id).ref id)
  | .ref id, lives => .ref (lives.ref id)
  | .push id generation, lives => .handle (lives.push id generation).1
  | .data id generation, lives => .table ((lives.data id generation).map Prod.fst)
  | .setData id generation _, lives => .written ((lives.require id generation).map fun _ => ())
  | .tag id generation, lives => .text ((lives.require id generation).map (·.tag))
  | .setTag id generation _, lives => .written ((lives.require id generation).map fun _ => ())
  | _, _ => .done

def replies (pool : EntityPool) : List PoolOp → List PoolReply
  | [] => []
  | op :: rest => PoolOp.reply op pool :: replies (op.apply pool) rest

def Lives.run (lives : Lives) (ops : List PoolOp) : Lives := ops.foldl (fun lives op => PoolOp.perform op lives) lives

def answers (lives : Lives) : List PoolOp → List PoolReply
  | [] => []
  | op :: rest => PoolOp.answer op lives :: answers (PoolOp.perform op lives) rest

/-! ## The representation -/

/-- The slot of a life. -/
def Life.slot (life : Life) (id : Int) (generation : Generation) : SlotData where
  alive := true
  createdByUs := life.made
  generation := generation
  handle := life.handle.map fun object => ⟨object, id, generation⟩
  data := life.data
  tag := life.tag

/-- Without a life, a slot holds only the number of the last one. -/
def Lives.slot (lives : Lives) (id : Int) : SlotData :=
  match lives.current id with
  | none => { generation := BitVec.ofNat 32 (lives.begun id) }
  | some life => life.slot id (BitVec.ofNat 32 (lives.begun id))

/-- The pool that stands for the lives. -/
def Lives.toPool (lives : Lives) : EntityPool where
  kind := lives.kind
  slots := lives.slot
  closed := lives.closed
  nextObject := lives.nextObject

end VcmpLua.Spec
