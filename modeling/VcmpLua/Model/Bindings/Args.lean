import VcmpLua.Model.Lua.Tables

/-! # Arguments of bindings

`bindings/args.cpp`, as far as it is about the fields of tables. An error keeps the stack index and
the message that `ArgError` was called with; the name of the function, which it adds from the debug
information of the call, is left out.
-/

namespace VcmpLua.Model.Bindings

open VcmpLua.Model.Lua

structure ArgError where
  index : ℕ
  message : String
deriving DecidableEq, Repr

/-- `TypeName`: for a handle the type of its entity. -/
def typeName : Value → String
  | .userdata (some entity) _ => entity
  | value => value.typeName

/-- `TypeError`. -/
def typeError (index : ℕ) (expected : String) (value : Value) : ArgError :=
  ⟨index, s!"{expected} expected, got {typeName value}"⟩

/-- `RawField`. -/
def rawField (table : Table) (key : String) : Value := table.rawGet (.string key.toList)

/-- `TableNumber`, before the conversion to a float; the table is at stack index `index`. -/
def tableNumber (table : Table) (index i : ℕ) : Except ArgError Number :=
  match table.rawGetI i with
  | .number number => .ok number
  | value => .error ⟨index, s!"element {i} must be a number, got {value.typeName}"⟩

/-- `TableLength`, which is a C++ `int`. -/
def tableLength (table : Table) : ℤ := (table.length : ℤ).bmod (2 ^ 32)

end VcmpLua.Model.Bindings
