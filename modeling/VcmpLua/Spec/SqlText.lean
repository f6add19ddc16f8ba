import VcmpLua.Model.Lua.Sql

/-! # The lexical structure of a SQL text

What a database makes of a text, as far as it decides where a value can do harm: the regions of the
text are code, strings, quoted names and comments. The reader looks at one character at a time and
at the one after it; a doubled quote stays inside, and a comment that is not closed reaches the end.
Each character is labelled with the kind of its region and with whether the region begins with it.
-/

namespace VcmpLua.Spec

open VcmpLua.Model.Lua.Sql

inductive Region where
  | code | string | name | comment
deriving DecidableEq, Repr

structure Label where
  region : Region
  first : Bool := false
deriving DecidableEq, Repr

/-- What the reader is in the middle of. -/
inductive Mode where
  | code
  | quoted (quote : Char)
  /-- Before the second of two quotes. -/
  | doubled (quote : Char)
  | line
  /-- Before the star that begins a comment. -/
  | opening
  | block
  /-- Before the slash that ends a comment. -/
  | closing
deriving DecidableEq, Repr

def isQuote (char : Char) : Bool := char = '\'' || char = '"' || char = '`'

def quotedRegion (quote : Char) : Region := if quote = '\'' then .string else .name

/-- One character, with the one after it. -/
def readChar (mode : Mode) (char : Char) (after : Option Char) : Label × Mode :=
  match mode with
  | .code =>
    if isQuote char then (⟨quotedRegion char, true⟩, .quoted char)
    else if char = '-' ∧ after = some '-' then (⟨.comment, true⟩, .line)
    else if char = '/' ∧ after = some '*' then (⟨.comment, true⟩, .opening)
    else (⟨.code, false⟩, .code)
  | .quoted quote =>
    (⟨quotedRegion quote, false⟩,
      if char ≠ quote then .quoted quote else if after = some quote then .doubled quote else .code)
  | .doubled quote => (⟨quotedRegion quote, false⟩, .quoted quote)
  | .line => (⟨.comment, false⟩, if char = '\n' then .code else .line)
  | .opening => (⟨.comment, false⟩, .block)
  | .block => (⟨.comment, false⟩, if char = '*' ∧ after = some '/' then .closing else .block)
  | .closing => (⟨.comment, false⟩, .code)

/-- The labels of a text. -/
def lex (mode : Mode) : Text → List Label
  | [] => []
  | char :: rest => (readChar mode char rest.head?).1 :: lex (readChar mode char rest.head?).2 rest

/-! ## Placeholders -/

/-- The placeholders of a template, each with the characters right before and right after it. Two
question marks in code are a literal one; `second` is set at the second of them. -/
def holes (mode : Mode) (second : Bool) (before : Option Char) : Text → List (Option Char × Option Char)
  | [] => []
  | char :: rest =>
    if mode = .code ∧ char = '?' then
      if second then holes .code false (some '?') rest
      else if rest.head? = some '?' then holes .code true (some '?') rest
      else (before, rest.head?) :: holes .code false (some '?') rest
    else holes (readChar mode char rest.head?).2 false (some char) rest

/-- Values whose literal begins with a minus sign. -/
def negative : Value → Bool
  | .integer value => value < 0
  | .float (.finite negative _ _) => negative
  | _ => false

def isString : Value → Bool
  | .string _ => true
  | _ => false

/-- The value cannot run together with the characters around its placeholder. -/
def Harmless (hole : Option Char × Option Char) (value : Value) : Prop :=
  (negative value = true → hole.1 ≠ some '-') ∧
    (isString value = true → hole.1 ≠ some '\'' ∧ hole.2 ≠ some '\'')

def Separated (template : Text) (values : List Value) : Prop :=
  ∀ pair ∈ (holes .code false none template).zip values, Harmless pair.1 pair.2

/-! ## Keeping the structure -/

/-- The labels `own` are one string region of their own, `rest` being the labels after it. -/
def OwnRegion (own rest : List Label) : Prop :=
  own = ⟨.string, true⟩ :: List.replicate (own.length - 1) ⟨.string, false⟩ ∧
    rest.head? ≠ some ⟨.string, false⟩

/-- What is copied from the template lies in the same kind of region in the result as in the template,
every string value is one string region of its own, and every other value lies in code. `result` are
the labels of the result from the first piece on. -/
def Faithful (template : List Label) : List Label → List Piece → Prop
  | _, [] => True
  | result, .copied start text :: rest =>
    (result.take text.length).map (·.region) =
        ((template.drop (start - 1)).take text.length).map (·.region) ∧
      Faithful template (result.drop text.length) rest
  | result, .value value text :: rest =>
    (if isString value then OwnRegion (result.take text.length) (result.drop text.length)
      else (result.take text.length).map (·.region) = List.replicate text.length .code) ∧
      Faithful template (result.drop text.length) rest

/-- The quotes in a text come in pairs. -/
inductive Paired (quote : Char) : Text → Prop
  | nil : Paired quote []
  | char {char : Char} {text : Text} : char ≠ quote → Paired quote text → Paired quote (char :: text)
  | pair {text : Text} : Paired quote text → Paired quote (quote :: quote :: text)

/-- `conn:escape` doubles every single quote and adds no other quote. -/
def DoublesQuotes (conn : Connection) : Prop :=
  ∀ text escaped, conn.escape text = .ok escaped →
    Paired '\'' escaped ∧ escaped.count '\'' = 2 * text.count '\''

end VcmpLua.Spec
