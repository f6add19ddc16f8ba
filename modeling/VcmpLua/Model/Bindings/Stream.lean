import Mathlib

/-! # Client script data

`bindings/stream.cpp`: one byte buffer with an append position (its end) and a read position.
Numbers and floats are four bytes little-endian, strings a big-endian 16-bit length and the bytes.
Sizes are `std::size_t`, so their subtraction wraps around; indexing the buffer is unchecked in the
source and `outOfBounds` here. A float is the 32-bit pattern that `memcpy` moves.
-/

namespace VcmpLua.Model.Bindings

abbrev Byte := BitVec 8

inductive StreamError where
  /-- The text of the exception that sol2 turns into a Lua error. -/
  | raised (message : String)
  /-- An access outside the buffer, which the source does not check. -/
  | outOfBounds
deriving DecidableEq, Repr

structure Stream where
  bytes : List Byte := []
  read : ℕ := 0
deriving DecidableEq, Repr

namespace Stream

/-- The largest stream a script may build. -/
def maxSize : ℕ := 4096

/-- Subtraction of two `std::size_t` values. -/
def sizeSub (left right : ℕ) : ℕ := if right ≤ left then left - right else left + 2 ^ 64 - right

def need (stream : Stream) (size : ℕ) (what : String) : Except StreamError Unit :=
  if sizeSub stream.bytes.length stream.read < size then
    .error (.raised s!"Stream: not enough data to read {what} ({sizeSub stream.bytes.length stream.read} of {size} bytes left)")
  else .ok ()

/-- A received stream may be larger than `maxSize`. -/
def room (stream : Stream) (size : ℕ) (what : String) : Except StreamError Unit :=
  if stream.bytes.length > maxSize ∨ sizeSub maxSize stream.bytes.length < size then
    .error (.raised s!"Stream: no room to write {what} ({stream.bytes.length} of {maxSize} bytes used)")
  else .ok ()

def byteAt (stream : Stream) (index : ℕ) : Except StreamError Byte :=
  match stream.bytes[index]? with
  | some byte => .ok byte
  | none => .error .outOfBounds

/-- The bytes `[start, start + length)`. -/
def slice (stream : Stream) (start length : ℕ) : Except StreamError (List Byte) :=
  if start + length ≤ stream.bytes.length then .ok ((stream.bytes.drop start).take length)
  else .error .outOfBounds

def readU32 (stream : Stream) (what : String) : Except StreamError (BitVec 32 × Stream) := do
  need stream 4 what
  let p0 ← stream.byteAt stream.read
  let p1 ← stream.byteAt (stream.read + 1)
  let p2 ← stream.byteAt (stream.read + 2)
  let p3 ← stream.byteAt (stream.read + 3)
  return (p0.setWidth 32 ||| p1.setWidth 32 <<< 8 ||| p2.setWidth 32 <<< 16 ||| p3.setWidth 32 <<< 24,
    { stream with read := stream.read + 4 })

def writeU32 (stream : Stream) (value : BitVec 32) (what : String) : Except StreamError Stream := do
  room stream 4 what
  return { stream with
    bytes := stream.bytes ++ [0, 8, 16, 24].map fun shift => (value >>> shift).setWidth 8 }

/-- `CheckInteger` on an argument that is an integer, or a float with an integral value. -/
def checkInteger (function : String) (value min max : Int) : Except StreamError Int :=
  if value < min ∨ value > max then
    .error (.raised s!"bad argument #1 to '{function}' (value {value} out of range [{min}, {max}])")
  else .ok value

def readByte (stream : Stream) : Except StreamError (Int × Stream) := do
  need stream 1 "a byte"
  let byte ← stream.byteAt stream.read
  return (byte.toNat, { stream with read := stream.read + 1 })

def readNumber (stream : Stream) : Except StreamError (Int × Stream) := do
  let (value, stream) ← readU32 stream "a number"
  return (value.toInt, stream)

def readFloat (stream : Stream) : Except StreamError (BitVec 32 × Stream) := readU32 stream "a float"

def readString (stream : Stream) : Except StreamError (List Byte × Stream) := do
  need stream 2 "a string length"
  let high ← stream.byteAt stream.read
  let low ← stream.byteAt (stream.read + 1)
  let length := high.toNat <<< 8 ||| low.toNat
  if sizeSub (sizeSub stream.bytes.length stream.read) 2 < length then
    throw (.raised s!"Stream: not enough data to read a string of {length} bytes")
  let text ← stream.slice (stream.read + 2) length
  return (text, { stream with read := stream.read + 2 + length })

/-- `-128` to `255`; the low eight bits are written. -/
def writeByte (stream : Stream) (argument : Int) : Except StreamError Stream := do
  let value ← checkInteger "writeByte" argument (-128) 255
  room stream 1 "a byte"
  return { stream with bytes := stream.bytes ++ [BitVec.ofInt 8 value] }

/-- A 32-bit integer, signed or unsigned. -/
def writeNumber (stream : Stream) (argument : Int) : Except StreamError Stream := do
  let value ← checkInteger "writeNumber" argument (-2147483648) 4294967295
  writeU32 stream (BitVec.ofInt 32 value) "a number"

def writeFloat (stream : Stream) (bits : BitVec 32) : Except StreamError Stream :=
  writeU32 stream bits "a float"

def writeString (stream : Stream) (text : List Byte) : Except StreamError Stream := do
  if text.length > 0xFFFF then
    throw (.raised "Stream: a string is at most 65535 bytes")
  room stream (2 + text.length) "a string"
  return { stream with bytes := stream.bytes ++
    [BitVec.ofNat 8 (text.length >>> 8), BitVec.ofNat 8 (text.length &&& 0xFF)] ++ text }

def clear (_ : Stream) : Stream := {}

def size (stream : Stream) : ℕ := stream.bytes.length

def remaining (stream : Stream) : ℕ := sizeSub stream.bytes.length stream.read

end Stream

end VcmpLua.Model.Bindings
