import Mathlib

/-! # `require "sql"`

`lua/sql.lua`: `sql.format` fills the placeholders of a SQL text with literals. A Lua string is its
list of characters. A position of the text is kept with what is left of the text from there, so each
`find` of the source is a walk over the rest. What is added to the output is kept with where it comes
from: a stretch of the text (with the position of its first character) or a value. The connection is
a parameter: its `escape` returns a string or an error message.
-/

namespace VcmpLua.Model.Lua.Sql

abbrev Text := List Char

/-- A Lua float: finite ones are `± mantissa * 2 ^ exponent`, and zero has a sign. -/
inductive FloatValue where
  | finite (negative : Bool) (mantissa : ℕ) (exponent : ℤ)
  | infinite (negative : Bool)
  | nan
deriving DecidableEq, Repr

inductive Value where
  | nil
  | boolean (value : Bool)
  | integer (value : ℤ)
  | float (value : FloatValue)
  | string (value : Text)
  /-- Any other type, by its name. -/
  | other (kind : String)
deriving DecidableEq, Repr

/-- `type(value)`. -/
def Value.kind : Value → String
  | .nil => "nil"
  | .boolean _ => "boolean"
  | .integer _ | .float _ => "number"
  | .string _ => "string"
  | .other kind => kind

structure Connection where
  /-- `type(conn)`. -/
  kind : String
  escape : Text → Except String Text

/-! ## Numbers -/

def decimal (n : ℕ) : Text := Nat.toDigits 10 n

/-- `tostring` of an integer. -/
def integerText (n : ℤ) : Text := if n < 0 then '-' :: decimal n.natAbs else decimal n.natAbs

def roundHalfEven (num den : ℕ) : ℕ :=
  let quotient := num / den
  let twice := 2 * (num % den)
  if twice < den ∨ twice = den ∧ quotient % 2 = 0 then quotient else quotient + 1

/-- A positive `mantissa * 2 ^ exponent` to 17 significant digits: the digits as a number, and the
power of ten of the first one. -/
def significant (mantissa : ℕ) (exponent : ℤ) : ℕ × ℤ :=
  let num := if 0 ≤ exponent then mantissa * 2 ^ exponent.toNat else mantissa
  let den := if 0 ≤ exponent then 1 else 2 ^ (-exponent).toNat
  let power : ℤ := if den ≤ num then Nat.log 10 (num / den) else -Nat.clog 10 ((den + num - 1) / num)
  let shift := 16 - power
  let rounded := roundHalfEven (if 0 ≤ shift then num * 10 ^ shift.toNat else num)
    (if 0 ≤ shift then den else den * 10 ^ (-shift).toNat)
  if rounded = 10 ^ 17 then (10 ^ 16, power + 1) else (rounded, power)

/-- The part after the point, without trailing zeros. -/
def fraction (digits : Text) : Text :=
  match digits.reverse.dropWhile (· = '0') with
  | [] => []
  | kept => '.' :: kept.reverse

/-- With a point: the digits, and the power of ten of the first one. -/
def fixedText (digits : Text) (power : ℤ) : Text :=
  if 0 ≤ power then digits.take (power.toNat + 1) ++ fraction (digits.drop (power.toNat + 1))
  else '0' :: fraction (List.replicate (-power - 1).toNat '0' ++ digits)

/-- With an exponent of at least two digits. -/
def scientificText (digits : Text) (power : ℤ) : Text :=
  let exponent := decimal power.natAbs
  digits.take 1 ++ fraction (digits.drop 1) ++ 'e' :: (if power < 0 then '-' else '+') ::
    (if exponent.length < 2 then '0' :: exponent else exponent)

/-- `%.17g` of a number that is not negative. -/
def magnitudeText (mantissa : ℕ) (exponent : ℤ) : Text :=
  if mantissa = 0 then ['0']
  else
    let digits := decimal (significant mantissa exponent).1
    let power := (significant mantissa exponent).2
    if -4 ≤ power ∧ power < 17 then fixedText digits power else scientificText digits power

/-- `format("%.17g", value)`. -/
def floatText (negative : Bool) (mantissa : ℕ) (exponent : ℤ) : Text :=
  if negative then '-' :: magnitudeText mantissa exponent else magnitudeText mantissa exponent

/-! ## Literals -/

/-- The local function `literal`. -/
def literal (conn : Connection) (value : Value) (index : ℕ) : Except String Text :=
  match value with
  | .nil => .ok "NULL".toList
  | .boolean value => .ok (if value then "TRUE" else "FALSE").toList
  | .integer value => .ok (integerText value)
  | .float (.finite negative mantissa exponent) => .ok (floatText negative mantissa exponent)
  | .float .nan => .error s!"sql.format: value {index} is nan, which SQL cannot store"
  | .float (.infinite negative) =>
    let name := if negative then "-inf" else "inf"
    .error s!"sql.format: value {index} is {name}, which SQL cannot store"
  | .string value =>
    match conn.escape value with
    | .ok escaped => .ok ('\'' :: escaped ++ ['\''])
    | .error message => .error s!"sql.format: cannot escape value {index}: {message}"
  | .other kind => .error s!"sql.format: value {index} is a {kind}, which is not a SQL value"

/-! ## The scan -/

/-- What the output consists of. -/
inductive Piece where
  | copied (start : ℕ) (text : Text)
  | value (value : Value) (text : Text)
deriving DecidableEq, Repr

def Piece.text : Piece → Text
  | .copied _ text => text
  | .value _ text => text

/-- `concat(out)`. -/
def concat (out : List Piece) : Text := out.flatMap Piece.text

/-- The characters the scan looks for. -/
def special (char : Char) : Bool := char ∈ ['?', '\'', '"', '`', '/', '-']

/-- `skip_quoted`, after the opening quote: the text up to the closing quote, and the rest. A doubled
quote stays inside. -/
def skipQuoted (quote : Char) : Text → Option (Text × Text)
  | [] => none
  | [char] => if char = quote then some ([char], []) else none
  | char :: after :: rest =>
    if char = quote then
      if after = quote then
        (skipQuoted quote rest).map fun (inside, rest) => (char :: after :: inside, rest)
      else some ([char], after :: rest)
    else (skipQuoted quote (after :: rest)).map fun (inside, rest) => (char :: inside, rest)

/-- Up to the end of the line, or all. -/
def takeLine : Text → Text × Text
  | [] => ([], [])
  | char :: rest =>
    if char = '\n' then ([char], rest)
    else
      let (line, rest) := takeLine rest
      (char :: line, rest)

/-- Up to the end of the comment, or all. -/
def takeBlock : Text → Text × Text
  | [] => ([], [])
  | [char] => ([char], [])
  | char :: after :: rest =>
    if char = '*' ∧ after = '/' then ([char, after], rest)
    else
      let (block, rest) := takeBlock (after :: rest)
      (char :: block, rest)

theorem skipQuoted_eq {quote : Char} {text inside rest : Text} (found : skipQuoted quote text = some (inside, rest)) :
    inside ++ rest = text := by
  fun_induction skipQuoted quote text generalizing inside rest with
  | case1 => cases found
  | case2 =>
    cases found
    rfl
  | case3 char other => cases found
  | case4 rest' ih =>
    obtain ⟨⟨inner, last⟩, step, result⟩ := Option.map_eq_some_iff.mp found
    cases result
    simp only [List.cons_append, ih step]
  | case5 after rest' single =>
    cases found
    rfl
  | case6 char after rest' other ih =>
    obtain ⟨⟨inner, last⟩, step, result⟩ := Option.map_eq_some_iff.mp found
    cases result
    simp only [List.cons_append, ih step]

theorem takeLine_eq (text : Text) : (takeLine text).1 ++ (takeLine text).2 = text := by
  induction text with
  | nil => rfl
  | cons char rest ih =>
    unfold takeLine
    split_ifs
    · rfl
    · simp only [List.cons_append, ih]

theorem takeBlock_eq (text : Text) : (takeBlock text).1 ++ (takeBlock text).2 = text := by
  fun_induction takeBlock text with
  | case1 => rfl
  | case2 => rfl
  | case3 => rfl
  | case4 char after rest other block last same ih =>
    rw [same] at ih
    simp only [List.cons_append, ih]

private theorem length_after {text before after : Text} {char : Char} (split : before ++ char :: after = text) :
    after.length < text.length := by
  rw [← split, List.length_append, List.length_cons]
  omega

/-- The loop of `sql.format` from the position `pos`, where `rest` is left of the text. -/
def scan (conn : Connection) (values : List Value) (pos used : ℕ) (rest : Text) (out : List Piece) :
    Except String (List Piece × ℕ) :=
  match found : rest.dropWhile (!special ·) with
  | [] => .ok (if rest.isEmpty then out else out ++ [.copied pos rest], used)
  | char :: tail =>
    let plain := rest.takeWhile (!special ·)
    have split : plain ++ char :: tail = rest := by rw [← found, List.takeWhile_append_dropWhile]
    have shorter : tail.length < rest.length := length_after split
    let start := pos + plain.length
    let out := out ++ [.copied pos plain]
    if char = '?' then
      if tail.head? = some '?' then
        scan conn values (start + 2) used tail.tail (out ++ [.copied start ['?']])
      else
        match values[used]? with
        | none => .error s!"sql.format: more placeholders than the {values.length} values given"
        | some value =>
          match literal conn value (used + 1) with
          | .error message => .error message
          | .ok text => scan conn values (start + 1) (used + 1) tail (out ++ [.value value text])
    else if char = '\'' ∨ char = '"' ∨ char = '`' then
      match closed : skipQuoted char tail with
      | none => .error s!"sql.format: the {char} at position {start} is never closed"
      | some (inside, after) =>
        scan conn values (start + 1 + inside.length) used after (out ++ [.copied start (char :: inside)])
    else if char = '-' ∧ tail.head? = some '-' then
      let line := takeLine tail
      scan conn values (start + 1 + line.1.length) used line.2 (out ++ [.copied start (char :: line.1)])
    else if char = '/' ∧ tail.head? = some '*' then
      let block := takeBlock tail.tail
      scan conn values (start + 2 + block.1.length) used block.2 (out ++ [.copied start (char :: '*' :: block.1)])
    else scan conn values (start + 1) used tail (out ++ [.copied start [char]])
termination_by rest.length
decreasing_by
  · simp only [List.length_tail]
    omega
  · exact shorter
  · have parts := congrArg List.length (skipQuoted_eq closed)
    simp only [List.length_append] at parts
    omega
  · have parts := congrArg List.length (takeLine_eq tail)
    simp only [List.length_append] at parts
    omega
  · have parts := congrArg List.length (takeBlock_eq tail.tail)
    simp only [List.length_append, List.length_tail] at parts
    omega
  · exact shorter

/-- `sql.format(conn, template, ...)`. -/
def format (conn : Connection) (template : Value) (values : List Value) : Except String (List Piece) :=
  match template with
  | .string template =>
    if conn.kind ≠ "userdata" ∧ conn.kind ≠ "table" then
      .error s!"sql.format: argument 1 must be a LuaSQL connection (got {conn.kind})"
    else
      match scan conn values 1 0 template [] with
      | .error message => .error message
      | .ok (out, used) =>
        if used ≠ values.length then
          .error s!"sql.format: {values.length} values for {used} placeholders"
        else .ok out
  | other => .error s!"sql.format: argument 2 must be the SQL text (got {other.kind})"

end VcmpLua.Model.Lua.Sql
