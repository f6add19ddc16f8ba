import VcmpLua.Model.Bindings.Args

/-! # Bindings that accept several forms

`ArgReader` of `bindings/args.cpp`, and the bindings that inspect their arguments with it: positions
as a table or as three numbers, optional arguments in the middle and at the front. A binding is here
what it passes to the server function, with numbers before their conversion to a C++ float. Server
functions, and the check of the runtime before them, are left out.
-/

namespace VcmpLua.Model.Bindings

open VcmpLua.Model.Lua

structure ArgReader where
  heap : Heap
  /-- The stack index of argument 1. -/
  first : ℕ
  /-- The arguments from argument 1 on. -/
  args : List Value

structure Vec3 where
  x : Number
  y : Number
  z : Number
deriving DecidableEq, Repr

/-- `TypeError` for an argument that may be missing. -/
def argTypeError {α : Type} (index : ℕ) (expected : String) : Option Value → Except ArgError α
  | some value => .error (typeError index expected value)
  | none => .error ⟨index, s!"{expected} expected, got no value"⟩

def checkInteger (index : ℕ) (min max : ℤ) : Option Value → Except ArgError ℤ
  | some (.number number) =>
    match number.integer? with
    | none => .error ⟨index, "number has no integer representation"⟩
    | some value =>
      if value < min ∨ value > max then .error ⟨index, s!"value {value} out of range [{min}, {max}]"⟩ else .ok value
  | value => argTypeError index "integer" value

def checkNumber (index : ℕ) : Option Value → Except ArgError Number
  | some (.number number) => .ok number
  | value => argTypeError index "number" value

def checkBoolean (index : ℕ) : Option Value → Except ArgError Bool
  | some (.boolean value) => .ok value
  | value => argTypeError index "boolean" value

/-- The 32 bits of a colour. -/
def checkColour (index : ℕ) (value : Option Value) : Except ArgError ℤ :=
  (checkInteger index (-2 ^ 31) (2 ^ 32 - 1) value).map (· % 2 ^ 32)

/-- `TableInteger`; the table is at stack index `index`. -/
def tableInteger (table : Table) (index i : ℕ) (min max : ℤ) (fallback : Option ℤ) : Except ArgError ℤ :=
  match table.rawGetI i, fallback with
  | .nil, some fallback => .ok fallback
  | .number number, _ =>
    match number.integer? with
    | none => .error ⟨index, s!"element {i} has no integer representation"⟩
    | some value =>
      if value < min ∨ value > max then
        .error ⟨index, s!"element {i}: value {value} out of range [{min}, {max}]"⟩
      else .ok value
  | value, _ => .error ⟨index, s!"element {i} must be an integer, got {value.typeName}"⟩

namespace ArgReader

variable (reader : ArgReader)

def index (i : ℕ) : ℕ := reader.first + i - 1

/-- Argument `i`, counting from 1. -/
def arg (i : ℕ) : Option Value := reader.args[i - 1]?

def isTable (i : ℕ) : Bool := ((reader.arg i).bind Value.table?).isSome

def isNumber (i : ℕ) : Bool :=
  match reader.arg i with
  | some (.number _) => true
  | _ => false

/-- `lua_isnoneornil`. -/
def missing (i : ℕ) : Bool := reader.arg i = none ∨ reader.arg i = some .nil

def count : ℕ := reader.args.length

def int32 (i : ℕ) : Except ArgError ℤ := checkInteger (reader.index i) (-2 ^ 31) (2 ^ 31 - 1) (reader.arg i)

def int32Or (i : ℕ) (fallback : ℤ) : Except ArgError ℤ := if reader.missing i then .ok fallback else reader.int32 i

def uint32Or (i : ℕ) (fallback : ℤ) : Except ArgError ℤ :=
  if reader.missing i then .ok fallback else checkInteger (reader.index i) 0 (2 ^ 32 - 1) (reader.arg i)

def uint8Or (i : ℕ) (fallback : ℤ) : Except ArgError ℤ :=
  if reader.missing i then .ok fallback else checkInteger (reader.index i) 0 255 (reader.arg i)

def number (i : ℕ) : Except ArgError Number := checkNumber (reader.index i) (reader.arg i)

def boolOr (i : ℕ) (fallback : Bool) : Except ArgError Bool :=
  if reader.missing i then .ok fallback else checkBoolean (reader.index i) (reader.arg i)

def colourAt (i : ℕ) : Except ArgError ℤ := checkColour (reader.index i) (reader.arg i)

/-- The first three elements of a table. -/
def elements (id i : ℕ) : Except ArgError Vec3 := do
  let x ← tableNumber (reader.heap id) (reader.index i) 1
  let y ← tableNumber (reader.heap id) (reader.index i) 2
  let z ← tableNumber (reader.heap id) (reader.index i) 3
  return ⟨x, y, z⟩

/-- A table (one argument) or three numbers from argument `i` on, and the argument after them. -/
def vector (i : ℕ) : Except ArgError (Vec3 × ℕ) :=
  match reader.arg i with
  | some (.table id) => do
    let position ← reader.elements id i
    return (position, i + 1)
  | some (.number x) => do
    let y ← reader.number (i + 1)
    let z ← reader.number (i + 2)
    return (⟨x, y, z⟩, i + 3)
  | value => argTypeError (reader.index i) "table or number" value

end ArgReader

/-! ## The bindings -/

/-- The arguments of `CreateVehicle`. -/
structure VehicleCall where
  model : ℤ
  world : ℤ
  position : Vec3
  angle : Number
  primary : ℤ
  secondary : ℤ
deriving DecidableEq, Repr

/-- The fourth element of a position with an angle. -/
def tableAngle (table : Table) (index : ℕ) : Except ArgError Number :=
  match table.rawGetI 4 with
  | .number angle => .ok angle
  | .nil => .ok (.integer 0)
  | value => .error ⟨index, s!"angle (element 4) must be a number, got {typeName value}"⟩

/-- `Create` of `vehicle.cpp`. -/
def createVehicle (args : ArgReader) : Except ArgError VehicleCall := do
  let model ← args.int32 1
  let world ← args.int32 2
  let (position, i) ← args.vector 3
  let (angle, i) ← match (args.arg 3).bind Value.table? with
    | some id => (tableAngle (args.heap id) (args.index 3)).map (·, i)
    | none => (args.number i).map (·, i + 1)
  let primary ← args.int32Or i (-1)
  let secondary ← args.int32Or (i + 1) (-1)
  return { model, world, position, angle, primary, secondary }

/-- The arguments of `SetVehicleSpeed` or, for a turn speed, of `SetVehicleTurnSpeed`. -/
structure SpeedCall where
  turn : Bool
  relative : Bool
  speed : Vec3
  add : Bool
deriving DecidableEq, Repr

/-- `SetSpeed`. The type comes first if the argument after it starts the speed: a table, or the first of
three numbers followed by at most a boolean. -/
def setSpeed (args : ArgReader) : Except ArgError SpeedCall := do
  let typed := args.isNumber 1 && (args.isTable 2 || args.isNumber 2 && args.isNumber 4)
  let which ← if typed then args.int32 1 else .ok 1
  let (speed, i) ← args.vector (if typed then 2 else 1)
  let add ← args.boolOr i false
  if which = 1 ∨ which = 2 then
    return { turn := false, relative := which = 2, speed, add }
  else if which = 3 ∨ which = 4 then
    return { turn := true, relative := which = 4, speed, add }
  else .error ⟨args.index 1, "VehicleSpeed value expected"⟩

/-- The arguments of `CreateObject`. -/
structure ObjectCall where
  model : ℤ
  world : ℤ
  position : Vec3
  alpha : ℤ
deriving DecidableEq, Repr

/-- `Create` of `object.cpp`. -/
def createObject (args : ArgReader) : Except ArgError ObjectCall := do
  let model ← args.int32 1
  let world ← args.int32 2
  let (position, i) ← args.vector 3
  let alpha ← match (args.arg 3).bind Value.table? with
    | some id => tableInteger (args.heap id) (args.index 3) 4 0 255 (some 255)
    | none => args.uint8Or i 255
  return { model, world, position, alpha }

/-- `MoveObject`: where to, and in how many milliseconds. -/
def moveObject (args : ArgReader) : Except ArgError (Vec3 × ℤ) := do
  let (target, i) ← args.vector 1
  let ms ← match (args.arg 1).bind Value.table?, args.missing 2 with
    | some id, true => tableInteger (args.heap id) (args.index 1) 4 0 (2 ^ 32 - 1) (some 0)
    | _, _ => args.uint32Or i 0
  return (target, ms)

/-- The arguments of `CreatePickup`. -/
structure PickupCall where
  model : ℤ
  world : ℤ
  quantity : ℤ
  position : Vec3
  alpha : ℤ
  automatic : Bool
deriving DecidableEq, Repr

/-- `Create` of `pickup.cpp`. -/
def createPickup (args : ArgReader) : Except ArgError PickupCall := do
  let model ← args.int32 1
  let world ← args.int32 2
  let quantity ← args.int32 3
  let (position, i) ← args.vector 4
  let alpha ← args.uint8Or i 255
  let automatic ← args.boolOr (i + 1) true
  return { model, world, quantity, position, alpha, automatic }

/-- The arguments of `AddPlayerClass`. -/
structure ClassCall where
  team : ℤ
  colour : ℤ
  skin : ℤ
  position : Vec3
  angle : Number
  weapons : List ℤ
deriving DecidableEq, Repr

/-- `AddClass`: three weapons, each with its ammunition. -/
def addClass (args : ArgReader) : Except ArgError ClassCall := do
  let team ← args.int32 1
  let colour ← args.colourAt 2
  let skin ← args.int32 3
  let inTable := ((args.arg 4).bind Value.table?).filter fun id => 4 ≤ tableLength (args.heap id)
  let (position, i) ← args.vector 4
  let (angle, i) ← match inTable with
    | some id => (tableNumber (args.heap id) (args.index 4) 4).map (·, i)
    | none => (args.number i).map (·, i + 1)
  let weapons ← (List.range 6).mapM fun w => args.int32Or (i + w) 0
  return { team, colour, skin, position, angle, weapons }

/-- The arguments of `CreateCoordBlip`. -/
structure BlipCall where
  blip : ℤ
  world : ℤ
  position : Vec3
  scale : ℤ
  colour : ℤ
  sprite : ℤ
deriving DecidableEq, Repr

/-- `CreateBlip`: the forms differ in length. With an index and three numbers there are eight arguments,
with a table six; without an index seven or five. -/
def createBlip (args : ArgReader) : Except ArgError BlipCall := do
  let table := args.isTable 2 || args.isTable 3
  let indexed := if table then args.isTable 3 else decide (args.count ≥ 8)
  let blip ← if indexed then args.int32 1 else .ok (-1)
  let i := if indexed then 2 else 1
  let world ← args.int32 i
  let (position, i) ← args.vector (i + 1)
  let scale ← args.int32 i
  let colour ← args.colourAt (i + 1)
  let sprite ← args.int32 (i + 2)
  return { blip, world, position, scale, colour, sprite }

/-- The arguments of `PlaySound`; without a position the sound is not positional. -/
structure SoundCall where
  world : ℤ
  sound : ℤ
  position : Option Vec3
deriving DecidableEq, Repr

/-- `Sound.play`. With a world: (world, sound), (world, sound, {..}), (world, sound, x, y, z). -/
def playSound (args : ArgReader) : Except ArgError SoundCall := do
  let hasWorld := args.count = 2 ∧ args.isTable 2 = false ∨ args.count = 3 ∨ args.count ≥ 5
  let world ← if hasWorld then args.int32 1 else .ok 0
  let i := if hasWorld then 2 else 1
  let sound ← args.int32 i
  let position ← if args.missing (i + 1) then .ok none else (args.vector (i + 1)).map fun read => some read.1
  return { world, sound, position }

end VcmpLua.Model.Bindings
