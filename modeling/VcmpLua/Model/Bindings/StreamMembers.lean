import VcmpLua.Lib.Effect
import VcmpLua.Model.Bindings.Stream

/-! # The members of a stream, update by update

The functions of `Stream` say what a member returns. Here the same members run as the source does:
each update of the buffer and of the read position happens where it stands in the code, and an
exception leaves what was updated before it. Arguments are the Lua values that `CheckInteger`,
`CheckNumber` and `CheckString` look at; for a number that is its integer representation, if it has
one, the float that `static_cast` gives and the text that `lua_tolstring` gives.
-/

namespace VcmpLua.Model.Bindings.Stream.Member

open Effect

inductive Value where
  | number (integral : Option Int) (single : BitVec 32) (text : List Byte)
  | string (text : List Byte)
  | other (typeName : String)
deriving DecidableEq, Repr

def Value.typeName : Value → String
  | .number _ _ _ => "number"
  | .string _ => "string"
  | .other typeName => typeName

abbrev Members := EStateM StreamError Stream

/-- Code that only looks at the stream. -/
def inspect {α : Type} (look : Stream → Except StreamError α) : Members α := fun stream =>
  match look stream with
  | .ok value => .ok value stream
  | .error e => .error e stream

/-- `ArgError`, for the only argument of a method. -/
def argError {α : Type} (function message : String) : Members α :=
  throw (.raised s!"bad argument #1 to '{function}' ({message})")

/-- `TypeError`. -/
def typeError {α : Type} (function expected : String) (value : Value) : Members α :=
  argError function s!"{expected} expected, got {value.typeName}"

def checkInteger (function : String) (value : Value) (min max : Int) : Members Int :=
  match value with
  | .number (some integer) _ _ => inspect fun _ => Stream.checkInteger function integer min max
  | .number none _ _ => argError function "number has no integer representation"
  | _ => typeError function "integer" value

/-- `CheckNumber`, converted to a float. -/
def checkFloat (function : String) (value : Value) : Members (BitVec 32) :=
  match value with
  | .number _ single _ => pure single
  | _ => typeError function "number" value

def checkString (function : String) (value : Value) : Members (List Byte) :=
  match value with
  | .number _ _ text => pure text
  | .string text => pure text
  | .other _ => typeError function "string" value

def advance (size : ℕ) : Members Unit := modify fun stream => { stream with read := stream.read + size }

def pushBack (byte : Byte) : Members Unit := modify fun stream => { stream with bytes := stream.bytes ++ [byte] }

def readU32 (what : String) : Members (BitVec 32) := do
  inspect (·.need 4 what)
  let p := (← get).read
  advance 4
  let p0 ← inspect (·.byteAt p)
  let p1 ← inspect (·.byteAt (p + 1))
  let p2 ← inspect (·.byteAt (p + 2))
  let p3 ← inspect (·.byteAt (p + 3))
  return p0.setWidth 32 ||| p1.setWidth 32 <<< 8 ||| p2.setWidth 32 <<< 16 ||| p3.setWidth 32 <<< 24

def writeU32 (value : BitVec 32) (what : String) : Members Unit := do
  inspect (·.room 4 what)
  forEach (fun shift => pushBack ((value >>> shift).setWidth 8)) [0, 8, 16, 24]

def readByte : Members Int := do
  inspect (·.need 1 "a byte")
  let byte ← inspect fun stream => stream.byteAt stream.read
  advance 1
  return byte.toNat

def readNumber : Members Int := do
  return (← readU32 "a number").toInt

def readFloat : Members (BitVec 32) := readU32 "a float"

def readString : Members (List Byte) := do
  inspect (·.need 2 "a string length")
  let high ← inspect fun stream => stream.byteAt stream.read
  let low ← inspect fun stream => stream.byteAt (stream.read + 1)
  let length := high.toNat <<< 8 ||| low.toNat
  inspect fun stream =>
    if sizeSub (sizeSub stream.bytes.length stream.read) 2 < length then
      .error (.raised s!"Stream: not enough data to read a string of {length} bytes")
    else .ok ()
  advance 2
  let text ← inspect fun stream => stream.slice stream.read length
  advance length
  return text

def writeByte (argument : Value) : Members Unit := do
  let value ← checkInteger "writeByte" argument (-128) 255
  inspect (·.room 1 "a byte")
  pushBack (BitVec.ofInt 8 value)

def writeNumber (argument : Value) : Members Unit := do
  let value ← checkInteger "writeNumber" argument (-2147483648) 4294967295
  writeU32 (BitVec.ofInt 32 value) "a number"

def writeFloat (argument : Value) : Members Unit := do
  let bits ← checkFloat "writeFloat" argument
  writeU32 bits "a float"

def writeString (argument : Value) : Members Unit := do
  let value ← checkString "writeString" argument
  inspect fun _ =>
    if value.length > 0xFFFF then .error (.raised "Stream: a string is at most 65535 bytes") else .ok ()
  inspect (·.room (2 + value.length) "a string")
  pushBack (BitVec.ofNat 8 (value.length >>> 8))
  pushBack (BitVec.ofNat 8 (value.length &&& 0xFF))
  modify fun stream => { stream with bytes := stream.bytes ++ value }

/-! ## Scripts -/

inductive Operation where
  | readByte | readNumber | readFloat | readString
  | writeByte (argument : Value)
  | writeNumber (argument : Value)
  | writeFloat (argument : Value)
  | writeString (argument : Value)
  | clear | size | remaining
deriving DecidableEq, Repr

/-- What a script gets back. -/
inductive Reply where
  | nothing
  | integer (value : Int)
  | float (bits : BitVec 32)
  | text (bytes : List Byte)
deriving DecidableEq, Repr

def Operation.run : Operation → Members Reply
  | .readByte => .integer <$> Member.readByte
  | .readNumber => .integer <$> Member.readNumber
  | .readFloat => .float <$> Member.readFloat
  | .readString => .text <$> Member.readString
  | .writeByte argument => (fun _ => .nothing) <$> Member.writeByte argument
  | .writeNumber argument => (fun _ => .nothing) <$> Member.writeNumber argument
  | .writeFloat argument => (fun _ => .nothing) <$> Member.writeFloat argument
  | .writeString argument => (fun _ => .nothing) <$> Member.writeString argument
  | .clear => do
      modify Stream.clear
      return .nothing
  | .size => do
      return .integer (← get).size
  | .remaining => do
      return .integer (← get).remaining

/-- The stream of `OnClientScriptData`, or of a script if there are no bytes. -/
def received (bytes : List Byte) : Stream := { bytes }

/-- A script that goes on after every error. -/
def performAll (operations : List Operation) (stream : Stream) : Stream :=
  operations.foldl (fun stream operation => after operation.run stream) stream

end VcmpLua.Model.Bindings.Stream.Member
