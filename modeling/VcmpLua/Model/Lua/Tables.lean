import Mathlib
import VcmpLua.Lib.Assoc
import VcmpLua.Model.Core.Text
import VcmpLua.Model.Lua.Sql

/-! # Lua values and tables

What C++ sees through the raw functions of the Lua API: the type of a value, the keys of a table in
the order in which `lua_next` visits them, `lua_rawget`, `lua_rawgeti` and `lua_rawlen`. A table
value is the number of its allocation, and the heap has what is in it, so a table can contain itself
and several fields can share one table. The order of the keys is that of the list; Lua does not
specify it.
-/

namespace VcmpLua.Model.Lua

open VcmpLua.Model.Core

/-- A finite float is `± mantissa * 2 ^ exponent`; zero and NaN have a sign. -/
inductive Number where
  | integer (value : ℤ)
  | finite (negative : Bool) (mantissa : ℕ) (exponent : ℤ)
  | infinite (negative : Bool)
  | nan (negative : Bool)
deriving DecidableEq, Repr

inductive Value where
  | nil
  | boolean (value : Bool)
  | number (value : Number)
  | string (text : Text)
  | table (id : ℕ)
  /-- A handle of an entity has the name of its type. -/
  | userdata (entity : Option String) (id : ℕ)
  /-- A function or a thread, by the name of its type. -/
  | other (kind : String) (id : ℕ)
deriving DecidableEq, Repr

/-- `lua_typename` of the value's type. -/
def Value.typeName : Value → String
  | .nil => "nil"
  | .boolean _ => "boolean"
  | .number _ => "number"
  | .string _ => "string"
  | .table _ => "table"
  | .userdata _ _ => "userdata"
  | .other kind _ => kind

def Value.table? : Value → Option ℕ
  | .table id => some id
  | _ => none

/-- A finite number: its sign, and a numerator over a power of two. -/
def Number.ratio? : Number → Option (Bool × ℕ × ℕ)
  | .integer value => some (decide (value < 0), value.natAbs, 1)
  | .finite negative mantissa exponent => some (negative, mantissa * 2 ^ exponent.toNat, 2 ^ (-exponent).toNat)
  | _ => none

/-- A number as a 64-bit integer, if it is one. -/
def Number.integer? (number : Number) : Option ℤ :=
  number.ratio?.bind fun (negative, num, den) =>
    let value : ℤ := (if negative then -1 else 1) * (num / den : ℕ)
    if num % den = 0 ∧ -2 ^ 63 ≤ value ∧ value < 2 ^ 63 then some value else none

/-! ## Numbers as text -/

/-- A positive `mantissa * 2 ^ exponent` to `precision` significant digits: the digits as a number,
and the power of ten of the first one. -/
def significant (precision mantissa : ℕ) (exponent : ℤ) : ℕ × ℤ :=
  let num := if 0 ≤ exponent then mantissa * 2 ^ exponent.toNat else mantissa
  let den := if 0 ≤ exponent then 1 else 2 ^ (-exponent).toNat
  let power : ℤ := if den ≤ num then Nat.log 10 (num / den) else -Nat.clog 10 ((den + num - 1) / num)
  let shift := precision - 1 - power
  let rounded := Sql.roundHalfEven (if 0 ≤ shift then num * 10 ^ shift.toNat else num)
    (if 0 ≤ shift then den else den * 10 ^ (-shift).toNat)
  if rounded = 10 ^ precision then (10 ^ (precision - 1), power + 1) else (rounded, power)

/-- `%.14g` of a number that is not negative. -/
def magnitudeText (mantissa : ℕ) (exponent : ℤ) : Text :=
  if mantissa = 0 then ['0']
  else
    let digits := Sql.decimal (significant 14 mantissa exponent).1
    let power := (significant 14 mantissa exponent).2
    if -4 ≤ power ∧ power < 14 then Sql.fixedText digits power else Sql.scientificText digits power

/-- What looks like an integer gets `.0`. -/
def markFloat (text : Text) : Text :=
  if text.all fun char => char.isDigit || char = '-' then text ++ ['.', '0'] else text

def signed (negative : Bool) (text : Text) : Text := if negative then '-' :: text else text

/-- What `lua_tolstring` makes of a number. -/
def Number.text : Number → Text
  | .integer value => Sql.integerText value
  | .finite negative mantissa exponent => markFloat (signed negative (magnitudeText mantissa exponent))
  | .infinite negative => signed negative "inf".toList
  | .nan negative => signed negative "nan".toList

/-! ## Tables -/

abbrev Entry := Value × Value

def rawGet (entries : List Entry) (key : Value) : Value := (entries.lookup key).getD .nil

structure Table where
  entries : List Entry
  /-- `lua_rawlen`: some index before a nil. -/
  length : ℕ := 0
  distinct : (entries.map Prod.fst).Nodup
  present : ∀ entry ∈ entries, entry.1 ≠ .nil ∧ entry.2 ≠ .nil
  border : (length = 0 ∨ rawGet entries (.number (.integer length)) ≠ .nil) ∧
    rawGet entries (.number (.integer (length + 1))) = .nil

namespace Table

def rawGet (table : Table) (key : Value) : Value := Lua.rawGet table.entries key

def rawGetI (table : Table) (index : ℕ) : Value := table.rawGet (.number (.integer index))

theorem mem_of_rawGet {table : Table} {key value : Value} (held : table.rawGet key = value) (present : value ≠ .nil) :
    (key, value) ∈ table.entries := by
  unfold rawGet Lua.rawGet at held
  cases found : table.entries.lookup key with
  | none =>
    rw [found] at held
    exact absurd held.symm present
  | some value' =>
    rw [found] at held
    cases held
    exact Assoc.mem_of_lookup found

theorem rawGet_of_mem {table : Table} {key value : Value} (member : (key, value) ∈ table.entries) :
    table.rawGet key = value := by
  rw [rawGet, Lua.rawGet, (Assoc.lookup_eq_some_iff_mem table.distinct).mpr member]
  rfl

theorem rawGet_perm {entries other : List Entry} (perm : entries.Perm other) (distinct : (entries.map Prod.fst).Nodup)
    (key : Value) : Lua.rawGet other key = Lua.rawGet entries key := by
  rw [Lua.rawGet, Lua.rawGet, Assoc.lookup_perm perm distinct]

/-- The same table, visited in another order. -/
def reorder (table : Table) (entries : List Entry) (perm : table.entries.Perm entries) : Table where
  entries
  length := table.length
  distinct := (perm.map Prod.fst).nodup_iff.mp table.distinct
  present entry member := table.present entry (perm.mem_iff.mpr member)
  border := by
    rw [rawGet_perm perm table.distinct, rawGet_perm perm table.distinct]
    exact table.border

theorem perm_moveLast (entries : List Entry) (key : Value) :
    entries.Perm (entries.filter (·.1 ≠ key) ++ entries.filter (·.1 = key)) := by
  have split := (List.filter_append_perm (fun entry : Entry => decide (entry.1 ≠ key)) entries).symm
  simpa using split

/-- The same table, with one key visited last. -/
def moveLast (table : Table) (key : Value) : Table := table.reorder _ (perm_moveLast table.entries key)

/-- The entry of a key that is visited last. -/
theorem entries_moveLast {table : Table} {key value : Value} (member : (key, value) ∈ table.entries) :
    (table.moveLast key).entries = table.entries.filter (·.1 ≠ key) ++ [(key, value)] :=
  congrArg (_ ++ ·) (Assoc.filter_key table.distinct member)

end Table

abbrev Heap := ℕ → Table

/-- The same tables, each visited in any order. -/
def Reordered (heap other : Heap) : Prop :=
  ∀ id, (heap id).entries.Perm (other id).entries ∧ (heap id).length = (other id).length

theorem Reordered.refl (heap : Heap) : Reordered heap heap := fun _ => ⟨List.Perm.refl _, rfl⟩

theorem Reordered.trans {heap second third : Heap} (first : Reordered heap second) (next : Reordered second third) :
    Reordered heap third := fun id => ⟨(first id).1.trans (next id).1, (first id).2.trans (next id).2⟩

/-- The same tables, with one key visited last in each. -/
def Heap.moveLast (heap : Heap) (key : Value) : Heap := fun id => (heap id).moveLast key

theorem Heap.reordered_moveLast (heap : Heap) (key : Value) : Reordered heap (heap.moveLast key) := fun id =>
  ⟨Table.perm_moveLast (heap id).entries key, rfl⟩

theorem Reordered.rawGet {heap other : Heap} (same : Reordered heap other) (id : ℕ) (key : Value) :
    (other id).rawGet key = (heap id).rawGet key :=
  Table.rawGet_perm (same id).1 (heap id).distinct key

theorem Reordered.rawGetI {heap other : Heap} (same : Reordered heap other) (id index : ℕ) :
    (other id).rawGetI index = (heap id).rawGetI index :=
  same.rawGet id _

end VcmpLua.Model.Lua
