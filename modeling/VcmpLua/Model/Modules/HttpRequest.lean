import VcmpLua.Model.Bindings.Args

/-! # The header lines of a request

`modules/http.cpp`: how `ReadHeaders` turns the headers table of a request into lines, and how
`Http::Start` hands them to libcurl.
-/

namespace VcmpLua.Model.Modules

open VcmpLua.Model.Core VcmpLua.Model.Lua VcmpLua.Model.Bindings

/-- `TokenChar`; `std::isalnum` in the C locale. -/
def tokenChar (char : Char) : Bool := char.isAlphanum || char ∈ "!#$%&'*+-.^_`|~".toList

/-- The text of a string or a number. -/
def view : Value → Option Text
  | .string text => some text
  | .number number => some number.text
  | _ => none

/-- `"Name;"` sends an empty header; `"Name:"` would remove it. -/
def headerLine (name value : Text) : Text := if value.isEmpty then name ++ [';'] else name ++ ':' :: ' ' :: value

/-- One round of the loop of `ReadHeaders`. -/
def readHeader (entry : Entry) : Except ArgError Text :=
  match entry.1 with
  | .string name =>
    if name.isEmpty ∨ !name.all tokenChar then .error ⟨1, s!"invalid header name '{String.ofList name}'"⟩
    else
      match view entry.2 with
      | none => .error ⟨1, s!"header '{String.ofList name}' must be a string (got {typeName entry.2})"⟩
      | some value =>
        if value.any fun char => char ∈ ['\r', '\n', '\x00'] then
          .error ⟨1, s!"header '{String.ofList name}' contains a line break or NUL"⟩
        else .ok (headerLine name value)
  | _ => .error ⟨1, "header names must be strings"⟩

/-- `ReadHeaders`, for the entries of the table in the order of `lua_next`. -/
def readHeaders : List Entry → Except ArgError (List Text)
  | [] => .ok []
  | entry :: rest => do
    let line ← readHeader entry
    let lines ← readHeaders rest
    return line :: lines

/-- The lines that `Http::Start` appends, as libcurl gets them. -/
def headerList (headers : List Text) : List Text := headers.map Text.cString

end VcmpLua.Model.Modules
