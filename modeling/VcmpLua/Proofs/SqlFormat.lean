import Mathlib
import VcmpLua.Spec.SqlText

/-! # `sql.format` keeps the structure of its template

A template that `sql.format` accepts is a sequence of tokens, and the reader of a SQL text is in code
between any two of them. The result is the same sequence with literals for the placeholders. Reading
it stays in step with the template as long as no token runs together with the next one, and there
are three ways in which that can happen: a minus before a negative number, and a string literal
right after or right before a string of the template. In each of them the structure is lost.
-/

namespace VcmpLua.Spec

open VcmpLua.Model.Lua.Sql

/-! ## Reading a text up to what follows it -/

/-- The labels of a text that is followed by `next`, and where the reader is after it. -/
def readText (mode : Mode) : Text → Option Char → List Label × Mode
  | [], _ => ([], mode)
  | char :: rest, next =>
    let head := readChar mode char (rest.head?.or next)
    let tail := readText head.2 rest next
    (head.1 :: tail.1, tail.2)

theorem readText_append (mode : Mode) (first second : Text) (next : Option Char) :
    readText mode (first ++ second) next =
      let head := readText mode first (second.head?.or next)
      let tail := readText head.2 second next
      (head.1 ++ tail.1, tail.2) := by
  induction first generalizing mode with
  | nil => rfl
  | cons char rest ih =>
    have after : (rest ++ second).head?.or next = rest.head?.or (second.head?.or next) := by
      cases rest <;> rfl
    simp only [List.cons_append, readText, after, ih]

/-- Reading a text is reading its first part and going on from there. -/
theorem lex_append (mode : Mode) (text rest : Text) :
    lex mode (text ++ rest) = (readText mode text rest.head?).1 ++ lex (readText mode text rest.head?).2 rest := by
  induction text generalizing mode with
  | nil => rfl
  | cons char text ih =>
    have after : (text ++ rest).head? = text.head?.or rest.head? := by
      cases text <;> cases rest <;> rfl
    simp only [List.cons_append, lex, readText, after, ih]

theorem length_readText (mode : Mode) (text : Text) (next : Option Char) :
    (readText mode text next).1.length = text.length := by
  induction text generalizing mode with
  | nil => rfl
  | cons char rest ih => simp only [readText, List.length_cons, ih]

/-- Characters that never leave code, whatever follows. -/
def plainChar (char : Char) : Bool := !isQuote char && char ≠ '-' && char ≠ '/'

theorem readText_plain {text : Text} (plain : ∀ char ∈ text, plainChar char = true) (next : Option Char) :
    readText .code text next = (List.replicate text.length ⟨.code, false⟩, .code) := by
  induction text with
  | nil => rfl
  | cons char rest ih =>
    have own := plain char (List.mem_cons_self ..)
    simp only [plainChar, Bool.and_eq_true, Bool.not_eq_true', decide_eq_true_eq] at own
    obtain ⟨⟨quote, dash⟩, slash⟩ := own
    have step : ∀ after, readChar .code char after = (⟨.code, false⟩, .code) := by
      intro after
      simp [readChar, quote, dash, slash]
    simp only [readText, step, ih fun other member => plain other (List.mem_cons_of_mem _ member)]
    rfl

/-- The inside of a quoted part. -/
theorem readText_paired {quote : Char} {body : Text} (paired : Paired quote body) (rest : Text)
    (next : Option Char) :
    readText (.quoted quote) (body ++ rest) next =
      let tail := readText (.quoted quote) rest next
      (List.replicate body.length ⟨quotedRegion quote, false⟩ ++ tail.1, tail.2) := by
  induction paired with
  | nil => rfl
  | @char char text different _ ih =>
    simp only [List.cons_append, readText, readChar, ne_eq, different, not_false_eq_true, ↓reduceIte, ih]
    rfl
  | @pair text _ ih =>
    simp only [List.cons_append, readText, List.head?_cons, Option.some_or, readChar, ne_eq, not_true_eq_false,
      ↓reduceIte, ih]
    rfl

/-- A quoted part ends with its closing quote, unless a quote follows. -/
theorem readText_quoted {quote : Char} {body : Text} (isQuote : isQuote quote = true) (paired : Paired quote body)
    (next : Option Char) :
    readText .code (quote :: (body ++ [quote])) next =
      (⟨quotedRegion quote, true⟩ :: List.replicate (body.length + 1) ⟨quotedRegion quote, false⟩,
        if next = some quote then .doubled quote else .code) := by
  have opened : ∀ after, readChar .code quote after = (⟨quotedRegion quote, true⟩, .quoted quote) := by
    intro after
    simp [readChar, isQuote]
  rw [readText, opened, readText_paired paired]
  simp only [readText, readChar, List.head?_nil, Option.none_or, ne_eq, not_true_eq_false, ↓reduceIte]
  rw [← List.replicate_succ']
  rfl

/-! ## Comments -/

theorem readText_line (text : Text) (next : Option Char) :
    (readText .line (takeLine text).1 next).1 = List.replicate (takeLine text).1.length ⟨.comment, false⟩ ∧
      ((readText .line (takeLine text).1 next).2 = .code ∨ (takeLine text).2 = []) := by
  induction text with
  | nil => exact ⟨rfl, .inr rfl⟩
  | cons char rest ih =>
    unfold takeLine
    split_ifs with newline
    · subst newline
      exact ⟨rfl, .inl rfl⟩
    · simp only [readText, readChar, newline, ↓reduceIte, List.length_cons, List.replicate_succ]
      exact ⟨by rw [ih.1], ih.2⟩

/-- A line ends with a newline, or the text does. -/
theorem getLast_takeLine (text : Text) : (takeLine text).1.getLast? = some '\n' ∨ (takeLine text).2 = [] := by
  induction text with
  | nil => exact .inr rfl
  | cons char rest ih =>
    unfold takeLine
    split_ifs with newline
    · subst newline
      exact .inl rfl
    · refine ih.imp_left fun last => ?_
      rw [List.getLast?_cons, last]
      rfl

private theorem head_takeBlock (char : Char) (rest : Text) : (takeBlock (char :: rest)).1.head? = some char := by
  cases rest with
  | nil => rfl
  | cons after rest =>
    rw [takeBlock]
    split_ifs <;> rfl

theorem readText_block (text : Text) (next : Option Char) :
    (readText .block (takeBlock text).1 next).1 = List.replicate (takeBlock text).1.length ⟨.comment, false⟩ ∧
      ((readText .block (takeBlock text).1 next).2 = .code ∨ (takeBlock text).2 = []) := by
  fun_induction takeBlock text with
  | case1 => exact ⟨rfl, .inr rfl⟩
  | case2 char => exact ⟨rfl, .inr rfl⟩
  | case3 char after rest ends =>
    obtain ⟨rfl, rfl⟩ := ends
    exact ⟨rfl, .inl rfl⟩
  | case4 char after rest other block last same ih =>
    have head : block.head? = some after := by
      have whole := head_takeBlock after rest
      rwa [same] at whole
    have step : readChar .block char (block.head?.or next) = (⟨.comment, false⟩, .block) := by
      simp only [readChar, head, Option.some_or, Option.some.injEq, other, ↓reduceIte]
    rw [same] at ih
    simp only [readText, step, List.length_cons, List.replicate_succ]
    exact ⟨by rw [ih.1], ih.2⟩

theorem getLast_takeBlock (text : Text) : (takeBlock text).1.getLast? = some '/' ∨ (takeBlock text).2 = [] := by
  fun_induction takeBlock text with
  | case1 => exact .inr rfl
  | case2 char => exact .inr rfl
  | case3 char after rest ends =>
    obtain ⟨rfl, rfl⟩ := ends
    exact .inl rfl
  | case4 char after rest other block last same ih =>
    rw [same] at ih
    refine ih.imp_left fun ends => ?_
    rw [List.getLast?_cons, ends]
    rfl

/-! ## Literals -/

/-- A literal that stays in code whatever follows, and how it begins. -/
structure CodeLiteral (value : Value) (text : Text) : Prop where
  read : ∀ next, readText .code text next = (List.replicate text.length ⟨.code, false⟩, .code)
  head : ∃ char, text.head? = some char ∧ isQuote char = false ∧ char ≠ '*' ∧ (char = '-' ↔ negative value = true)

private theorem plainChar_of_isDigit {char : Char} (digit : char.isDigit = true) : plainChar char = true := by
  have different : ∀ other : Char, other.isDigit = false → char ≠ other := by
    rintro other none rfl
    rw [digit] at none
    cases none
  simp [plainChar, isQuote, different '\'' rfl, different '"' rfl, different '`' rfl, different '-' rfl,
    different '/' rfl]

private theorem decimal_plain (n : ℕ) : ∀ char ∈ decimal n, plainChar char = true := fun _ member =>
  plainChar_of_isDigit (Nat.isDigit_of_mem_toDigits (by decide) (by decide) member)

private theorem fraction_plain {digits : Text} (plain : ∀ char ∈ digits, plainChar char = true) :
    ∀ char ∈ fraction digits, plainChar char = true := by
  unfold fraction
  cases kept : digits.reverse.dropWhile (· = '0') with
  | nil => nofun
  | cons last rest =>
    intro char member
    rcases List.mem_cons.mp member with rfl | inside
    · rfl
    · refine plain char ?_
      have suffix := List.dropWhile_suffix (fun char => decide (char = '0')) (l := digits.reverse)
      rw [kept] at suffix
      exact List.mem_reverse.mp (suffix.subset (List.mem_reverse.mp inside))

/-- How the literal of a number that is not negative is read. -/
private structure Magnitude (text : Text) : Prop where
  read : ∀ next, readText .code text next = (List.replicate text.length ⟨.code, false⟩, .code)
  head : ∃ char, text.head? = some char ∧ char.isDigit = true

private theorem magnitude_of_plain {text : Text} (plain : ∀ char ∈ text, plainChar char = true)
    (head : ∃ char, text.head? = some char ∧ char.isDigit = true) : Magnitude text :=
  ⟨readText_plain plain, head⟩

private theorem Magnitude.head_ne {text : Text} (magnitude : Magnitude text) {other : Char}
    (none : other.isDigit = false) : text.head? ≠ some other := by
  obtain ⟨char, same, digit⟩ := magnitude.head
  rw [same]
  rintro ⟨⟩
  rw [digit] at none
  cases none

/-- A minus sign before it changes nothing. -/
private theorem Magnitude.readText_minus {text : Text} (magnitude : Magnitude text) (next : Option Char) :
    readText .code ('-' :: text) next = (List.replicate (text.length + 1) ⟨.code, false⟩, .code) := by
  have different : text.head?.or next ≠ some '-' := by
    obtain ⟨char, same, -⟩ := magnitude.head
    have other := magnitude.head_ne (show '-'.isDigit = false from rfl)
    rw [same] at other ⊢
    exact other
  have step : readChar .code '-' (text.head?.or next) = (⟨.code, false⟩, .code) := by
    simp [readChar, isQuote, different]
  simp only [readText, step, magnitude.read]
  rfl

private theorem head_decimal (n : ℕ) : ∃ char, (decimal n).head? = some char ∧ char.isDigit = true := by
  obtain ⟨char, rest, digits⟩ := List.exists_cons_of_ne_nil (Nat.toDigits_ne_nil (n := n) (b := 10))
  refine ⟨char, by rw [decimal, digits]; rfl, ?_⟩
  refine Nat.isDigit_of_mem_toDigits (b := 10) (n := n) (by decide) (by decide) ?_
  rw [digits]
  exact List.mem_cons_self ..

private theorem magnitude_decimal (n : ℕ) : Magnitude (decimal n) :=
  magnitude_of_plain (decimal_plain n) (head_decimal n)

private theorem head_take_append {digits : Text} (head : ∃ char, digits.head? = some char ∧ char.isDigit = true)
    (count : ℕ) (rest : Text) :
    ∃ char, (digits.take (count + 1) ++ rest).head? = some char ∧ char.isDigit = true := by
  obtain ⟨char, same, digit⟩ := head
  refine ⟨char, ?_, digit⟩
  cases digits with
  | nil => cases same
  | cons first others => exact same

private theorem magnitude_fixed (n : ℕ) (power : ℤ) : Magnitude (fixedText (decimal n) power) := by
  have plain := decimal_plain n
  unfold fixedText
  split_ifs
  · refine magnitude_of_plain (fun char member => ?_) (head_take_append (head_decimal n) _ _)
    rcases List.mem_append.mp member with front | back
    · exact plain char (List.mem_of_mem_take front)
    · exact fraction_plain (fun other inside => plain other (List.mem_of_mem_drop inside)) char back
  · refine magnitude_of_plain (fun char member => ?_) ⟨'0', rfl, rfl⟩
    rcases List.mem_cons.mp member with rfl | back
    · rfl
    · refine fraction_plain (fun other inside => ?_) char back
      rcases List.mem_append.mp inside with zero | digit
      · rw [List.eq_of_mem_replicate zero]
        rfl
      · exact plain other digit

private theorem magnitude_scientific (n : ℕ) (power : ℤ) : Magnitude (scientificText (decimal n) power) := by
  have plain := decimal_plain n
  let front : Text := (decimal n).take 1 ++ fraction ((decimal n).drop 1) ++ ['e']
  let back : Text :=
    if (decimal power.natAbs).length < 2 then '0' :: decimal power.natAbs else decimal power.natAbs
  have frontPlain : ∀ char ∈ front, plainChar char = true := by
    intro char member
    rcases List.mem_append.mp member with digits | isE
    · rcases List.mem_append.mp digits with first | rest
      · exact plain char (List.mem_of_mem_take first)
      · exact fraction_plain (fun other inside => plain other (List.mem_of_mem_drop inside)) char rest
    · rw [List.mem_singleton.mp isE]
      rfl
  have backPlain : ∀ char ∈ back, plainChar char = true := by
    intro char member
    simp only [back] at member
    split_ifs at member
    · rcases List.mem_cons.mp member with rfl | digit
      · rfl
      · exact decimal_plain _ char digit
    · exact decimal_plain _ char member
  have backHead : ∃ char, back.head? = some char ∧ char.isDigit = true := by
    simp only [back]
    split_ifs
    · exact ⟨'0', rfl, rfl⟩
    · exact head_decimal _
  have plusPlain : ∀ char ∈ '+' :: back, plainChar char = true := by
    intro char member
    rcases List.mem_cons.mp member with rfl | inside
    · rfl
    · exact backPlain char inside
  have whole : scientificText (decimal n) power = front ++ (if power < 0 then '-' else '+') :: back := by
    simp only [scientificText, front, List.append_assoc, List.cons_append, List.nil_append, back]
  rw [whole]
  refine ⟨fun next => ?_, ?_⟩
  · rw [readText_append, readText_plain frontPlain]
    simp only
    split_ifs
    · rw [(magnitude_of_plain backPlain backHead).readText_minus]
      simp [List.replicate_append_replicate]
    · rw [readText_plain plusPlain]
      simp [List.replicate_append_replicate]
  · simp only [front, List.append_assoc]
    exact head_take_append (head_decimal n) 0 _

private theorem magnitude_text (mantissa : ℕ) (exponent : ℤ) : Magnitude (magnitudeText mantissa exponent) := by
  unfold magnitudeText
  simp only
  split_ifs
  · exact magnitude_of_plain (by simp [plainChar, isQuote]) ⟨'0', rfl, rfl⟩
  · exact magnitude_fixed _ _
  · exact magnitude_scientific _ _

private theorem codeLiteral_of_magnitude {value : Value} {text : Text} (magnitude : Magnitude text)
    (positive : negative value = false) : CodeLiteral value text := by
  obtain ⟨char, same, digit⟩ := magnitude.head
  refine ⟨magnitude.read, char, same, ?_, ?_, ?_⟩
  · have plain := plainChar_of_isDigit digit
    simp only [plainChar, Bool.and_eq_true, Bool.not_eq_true'] at plain
    exact plain.1.1
  · rintro rfl
    cases digit
  · rw [positive]
    refine ⟨?_, nofun⟩
    rintro rfl
    cases digit

private theorem codeLiteral_of_minus {value : Value} {text : Text} (magnitude : Magnitude text)
    (isNegative : negative value = true) : CodeLiteral value ('-' :: text) :=
  ⟨magnitude.readText_minus, '-', rfl, rfl, by decide, by simp [isNegative]⟩

/-- The literal of a value that is not a string stays in code. -/
theorem codeLiteral_of_literal {conn : Connection} {value : Value} {index : ℕ} {text : Text}
    (rendered : literal conn value index = .ok text) (other : isString value = false) : CodeLiteral value text := by
  cases value with
  | nil =>
    cases rendered
    exact ⟨readText_plain (List.all_eq_true.mp (by decide)), 'N', rfl, rfl, by decide, by decide⟩
  | boolean value =>
    cases rendered
    cases value
    · exact ⟨readText_plain (List.all_eq_true.mp (by decide)), 'F', rfl, rfl, by decide, by decide⟩
    · exact ⟨readText_plain (List.all_eq_true.mp (by decide)), 'T', rfl, rfl, by decide, by decide⟩
  | integer value =>
    cases rendered
    unfold integerText
    split_ifs with below
    · exact codeLiteral_of_minus (magnitude_decimal _) (by simpa [negative] using below)
    · exact codeLiteral_of_magnitude (magnitude_decimal _) (by simpa [negative] using below)
  | float value =>
    cases value with
    | finite isNegative mantissa exponent =>
      cases rendered
      unfold floatText
      cases isNegative
      · exact codeLiteral_of_magnitude (magnitude_text _ _) rfl
      · exact codeLiteral_of_minus (magnitude_text _ _) rfl
    | infinite isNegative => cases rendered
    | nan => cases rendered
  | string value => cases other
  | other kind => cases rendered

theorem stringLiteral_of_literal {conn : Connection} (doubles : DoublesQuotes conn) {value : Value} {index : ℕ}
    {text : Text} (rendered : literal conn value index = .ok text) (string : isString value = true) :
    ∃ body, text = '\'' :: (body ++ ['\'']) ∧ Paired '\'' body := by
  cases value with
  | string value =>
    simp only [literal] at rendered
    cases escaped : conn.escape value with
    | ok body =>
      rw [escaped] at rendered
      cases rendered
      exact ⟨body, rfl, (doubles value body escaped).1⟩
    | error message =>
      rw [escaped] at rendered
      cases rendered
  | nil | boolean | integer | float | other => cases string

/-! ## Tokens -/

/-- What the scan takes a template apart into. -/
inductive Token where
  | plain (char : Char)
  | mark
  | hole (value : Value) (text : Text)
  | quoted (quote : Char) (body : Text)
  | comment (text : Text)

/-- The token in the template. -/
def Token.source : Token → Text
  | .plain char => [char]
  | .mark => ['?', '?']
  | .hole _ _ => ['?']
  | .quoted quote body => quote :: (body ++ [quote])
  | .comment text => text

/-- The token in the result. -/
def Token.output : Token → Text
  | .mark => ['?']
  | .hole _ text => text
  | token => token.source

def sourceText (tokens : List Token) : Text := tokens.flatMap Token.source

def outputText (tokens : List Token) : Text := tokens.flatMap Token.output

def LiteralOf (value : Value) (text : Text) : Prop :=
  if isString value then ∃ body, text = '\'' :: (body ++ ['\'']) ∧ Paired '\'' body else CodeLiteral value text

/-- The labels of a comment. -/
def commentLabels (length : ℕ) : List Label :=
  ⟨.comment, true⟩ :: List.replicate (length - 1) ⟨.comment, false⟩

/-- The token is read as a whole when `rest` follows it in the template. -/
def Token.Good (rest : Text) : Token → Prop
  | .plain char => isQuote char = false ∧ char ≠ '?' ∧ (char = '-' → rest.head? ≠ some '-') ∧
      (char = '/' → rest.head? ≠ some '*')
  | .mark => True
  | .hole value text => rest.head? ≠ some '?' ∧ LiteralOf value text
  | .quoted quote body => isQuote quote = true ∧ Paired quote body ∧ rest.head? ≠ some quote
  | .comment text => text ≠ [] ∧ text.head? ≠ some '?' ∧
      (∀ next, (readText .code text next).1 = commentLabels text.length) ∧
      ((∀ next, (readText .code text next).2 = .code) ∧ (text.getLast? = some '\n' ∨ text.getLast? = some '/') ∨
        rest = [])

def Chain : List Token → Prop
  | [] => True
  | token :: rest => token.Good (sourceText rest) ∧ Chain rest

/-- The token lies in the result as it should; `template` and `result` are the labels from it on. -/
def Token.Ok (template result : List Label) : Token → Prop
  | .hole value text =>
    if isString value then OwnRegion (result.take text.length) (result.drop text.length)
    else (result.take text.length).map (·.region) = List.replicate text.length .code
  | token => (result.take token.output.length).map (·.region) = (template.take token.output.length).map (·.region)

def FaithfulTokens : List Label → List Label → List Token → Prop
  | _, _, [] => True
  | template, result, token :: rest =>
    token.Ok template result ∧
      FaithfulTokens (template.drop token.source.length) (result.drop token.output.length) rest

/-- The pieces that the scan puts out for a part of the template are its tokens. -/
structure Rendered (pos : ℕ) (text : Text) (pieces : List Piece) (tokens : List Token) : Prop where
  source : sourceText tokens = text
  chain : Chain tokens
  output : concat pieces = outputText tokens
  faithful : ∀ template result,
    Faithful template result pieces ↔ FaithfulTokens (template.drop (pos - 1)) result tokens

private theorem sourceText_plain (plain : Text) (tokens : List Token) :
    sourceText (plain.map Token.plain ++ tokens) = plain ++ sourceText tokens := by
  induction plain with
  | nil => rfl
  | cons char rest ih =>
    change char :: sourceText (rest.map Token.plain ++ tokens) = _
    rw [ih, List.cons_append]

private theorem outputText_plain (plain : Text) (tokens : List Token) :
    outputText (plain.map Token.plain ++ tokens) = plain ++ outputText tokens := by
  induction plain with
  | nil => rfl
  | cons char rest ih =>
    change char :: outputText (rest.map Token.plain ++ tokens) = _
    rw [ih, List.cons_append]

private theorem chain_plain {plain : Text} (ordinary : ∀ char ∈ plain, special char = false) {tokens : List Token}
    (chain : Chain tokens) : Chain (plain.map Token.plain ++ tokens) := by
  induction plain with
  | nil => exact chain
  | cons char rest ih =>
    have own := ordinary char (List.mem_cons_self ..)
    simp only [special, List.mem_cons, List.not_mem_nil, or_false, decide_eq_false_iff_not, not_or] at own
    obtain ⟨mark, single, double, back, slash, dash⟩ := own
    refine ⟨⟨?_, mark, fun eq => absurd eq dash, fun eq => absurd eq slash⟩,
      ih fun other member => ordinary other (List.mem_cons_of_mem _ member)⟩
    simp [isQuote, single, double, back]

private theorem faithful_plain (plain : Text) (tokens : List Token) (template result : List Label) :
    FaithfulTokens template result (plain.map Token.plain ++ tokens) ↔
      (result.take plain.length).map (·.region) = (template.take plain.length).map (·.region) ∧
        FaithfulTokens (template.drop plain.length) (result.drop plain.length) tokens := by
  induction plain generalizing template result with
  | nil => simp
  | cons char rest ih =>
    change (_ ∧ FaithfulTokens (template.drop 1) (result.drop 1) (rest.map Token.plain ++ tokens)) ↔ _
    rw [ih, List.drop_drop, List.drop_drop, List.length_cons, Nat.add_comm 1, ← and_assoc]
    refine and_congr_left fun _ => ?_
    change (result.take 1).map _ = (template.take 1).map _ ∧ _ ↔ _
    cases result with
    | nil => cases template <;> simp
    | cons first others =>
      cases template with
      | nil => simp
      | cons one two => simp

/-- The piece of a token, at its position. -/
private structure PieceOf (start : ℕ) (token : Token) (piece : Piece) : Prop where
  text : piece.text = token.output
  faithful : ∀ template result rest, Faithful template result (piece :: rest) ↔
    token.Ok (template.drop (start - 1)) result ∧ Faithful template (result.drop token.output.length) rest

private theorem pieceOf_copied (start : ℕ) {token : Token} (copied : ∀ value text, token ≠ .hole value text) :
    PieceOf start token (.copied start token.output) := by
  refine ⟨rfl, fun template result rest => ?_⟩
  cases token with
  | hole value text => exact absurd rfl (copied value text)
  | plain | mark | quoted | comment => exact Iff.rfl

private theorem pieceOf_value (start : ℕ) (value : Value) (text : Text) :
    PieceOf start (.hole value text) (.value value text) :=
  ⟨rfl, fun _ _ _ => Iff.rfl⟩

/-- One round of the scan: ordinary characters, and one token. -/
private theorem Rendered.cons {pos : ℕ} (positive : 0 < pos) {plain : Text}
    (ordinary : ∀ char ∈ plain, special char = false) {token : Token} {piece : Piece}
    (isPiece : PieceOf (pos + plain.length) token piece) {rest : Text} (good : token.Good rest)
    {pieces : List Piece} {tokens : List Token}
    (tail : Rendered (pos + plain.length + token.source.length) rest pieces tokens) :
    Rendered pos (plain ++ (token.source ++ rest)) (.copied pos plain :: piece :: pieces)
      (plain.map Token.plain ++ token :: tokens) := by
  obtain ⟨source, chain, output, faithful⟩ := tail
  subst source
  refine ⟨?_, chain_plain ordinary ⟨good, chain⟩, ?_, fun template result => ?_⟩
  · rw [sourceText_plain]
    rfl
  · rw [outputText_plain]
    change plain ++ (piece.text ++ concat pieces) = plain ++ (token.output ++ outputText tokens)
    rw [isPiece.text, output]
  · rw [faithful_plain, Faithful, isPiece.faithful, faithful, FaithfulTokens]
    simp only [List.drop_drop]
    rw [show pos + plain.length - 1 = pos - 1 + plain.length by omega,
      show pos + plain.length + token.source.length - 1 = pos - 1 + plain.length + token.source.length by omega]

/-- The values that a sequence of tokens takes. -/
def holeValues (tokens : List Token) : List Value :=
  tokens.filterMap fun
    | .hole value _ => some value
    | _ => none

private theorem literalOf_literal {conn : Connection} (doubles : DoublesQuotes conn) {value : Value} {index : ℕ}
    {text : Text} (rendered : literal conn value index = .ok text) : LiteralOf value text := by
  unfold LiteralOf
  split_ifs with string
  · exact stringLiteral_of_literal doubles rendered string
  · exact codeLiteral_of_literal rendered (by simpa using string)

private theorem skipQuoted_paired {quote : Char} {text inside rest : Text}
    (found : skipQuoted quote text = some (inside, rest)) :
    ∃ body, inside = body ++ [quote] ∧ Paired quote body ∧ rest.head? ≠ some quote := by
  fun_induction skipQuoted quote text generalizing inside rest with
  | case1 => cases found
  | case2 =>
    cases found
    exact ⟨[], rfl, .nil, fun opens => by cases opens⟩
  | case3 char other => cases found
  | case4 rest' ih =>
    obtain ⟨⟨inner, last⟩, step, result⟩ := Option.map_eq_some_iff.mp found
    cases result
    obtain ⟨body, rfl, paired, ends⟩ := ih step
    exact ⟨_, rfl, .pair paired, ends⟩
  | case5 after rest' single =>
    cases found
    exact ⟨[], rfl, .nil, by simpa using single⟩
  | case6 char after rest' other ih =>
    obtain ⟨⟨inner, last⟩, step, result⟩ := Option.map_eq_some_iff.mp found
    cases result
    obtain ⟨body, rfl, paired, ends⟩ := ih step
    exact ⟨_, rfl, .char other paired, ends⟩

private theorem good_line {tail : Text} (dash : tail.head? = some '-') :
    (Token.comment ('-' :: (takeLine tail).1)).Good (takeLine tail).2 := by
  have head : (takeLine tail).1.head? = some '-' := by
    cases tail with
    | nil => cases dash
    | cons char rest =>
      cases dash
      rfl
  have opened : ∀ next, readChar .code '-' ((takeLine tail).1.head?.or next) = (⟨.comment, true⟩, .line) := by
    intro next
    rw [head]
    rfl
  refine ⟨nofun, by simp, fun next => ?_, ?_⟩
  · simp only [readText, opened, (readText_line tail next).1]
    rfl
  · by_cases last : (takeLine tail).2 = []
    · exact .inr last
    · refine .inl ⟨fun next => ?_, .inl ?_⟩
      · simp only [readText, opened]
        exact (readText_line tail next).2.resolve_right last
      · rw [List.getLast?_cons, (getLast_takeLine tail).resolve_right last]
        rfl

private theorem good_block (tail : Text) :
    (Token.comment ('/' :: '*' :: (takeBlock tail).1)).Good (takeBlock tail).2 := by
  refine ⟨nofun, by simp, fun next => ?_, ?_⟩
  · have inside := (readText_block tail next).1
    simp only [readText, List.head?_cons, Option.some_or]
    change _ :: _ :: (readText .block (takeBlock tail).1 next).1 = _
    rw [inside]
    rfl
  · by_cases last : (takeBlock tail).2 = []
    · exact .inr last
    · refine .inl ⟨fun next => ?_, .inr ?_⟩
      · change (readText .block (takeBlock tail).1 next).2 = .code
        exact (readText_block tail next).2.resolve_right last
      · rw [List.getLast?_cons, List.getLast?_cons, (getLast_takeBlock tail).resolve_right last]
        rfl

/-- What the scan adds to the output are the tokens of the text; they take the values in order. -/
private def Scanned (values : List Value) (pos used : ℕ) (text : Text) (out out' : List Piece) (used' : ℕ) : Prop :=
  ∃ pieces tokens, out' = out ++ pieces ∧ Rendered pos text pieces tokens ∧
    values.drop used = holeValues tokens ++ values.drop used'

private theorem holeValues_plain (plain : Text) (tokens : List Token) :
    holeValues (plain.map Token.plain ++ tokens) = holeValues tokens := by
  induction plain with
  | nil => rfl
  | cons char rest ih => exact ih

private theorem ordinary_takeWhile (text : Text) :
    ∀ char ∈ text.takeWhile (!special ·), special char = false := by
  intro char member
  have ordinary := List.mem_takeWhile_imp member
  simpa using ordinary

private theorem scanned_plain (values : List Value) (pos used : ℕ) (text : Text) (out : List Piece)
    (ordinary : ∀ char ∈ text, special char = false) :
    Scanned values pos used text out (if text.isEmpty then out else out ++ [.copied pos text]) used := by
  have source := sourceText_plain text []
  have output := outputText_plain text []
  have chain : Chain (text.map Token.plain ++ []) := chain_plain ordinary trivial
  have faithful := faithful_plain text []
  have taken := holeValues_plain text []
  simp only [List.append_nil] at source output chain faithful taken
  refine ⟨if text.isEmpty then [] else [.copied pos text], text.map Token.plain, ?_,
    ⟨source.trans (List.append_nil _), chain, ?_, fun template result => ?_⟩, ?_⟩
  · split_ifs
    · rw [List.append_nil]
    · rfl
  · rw [output]
    cases text with
    | nil => rfl
    | cons char rest => simp [concat, Piece.text, outputText]
  · rw [faithful]
    cases text with
    | nil => simp [Faithful, FaithfulTokens]
    | cons char rest => simp [Faithful, FaithfulTokens]
  · rw [taken]
    rfl

/-- One round of the scan, from the token it finds. -/
private theorem Scanned.cons (token : Token) {values : List Value} {pos used next used' : ℕ} (positive : 0 < pos)
    {text found rest : Text} {piece : Piece} {out out' : List Piece}
    (split : text.takeWhile (!special ·) ++ found = text) (begins : token.source ++ rest = found)
    (isPiece : PieceOf (pos + (text.takeWhile (!special ·)).length) token piece) (good : token.Good rest)
    (taken : values.drop used = holeValues [token] ++ values.drop next)
    (tail : Scanned values (pos + (text.takeWhile (!special ·)).length + token.source.length) next rest
      (out ++ [.copied pos (text.takeWhile (!special ·))] ++ [piece]) out' used') :
    Scanned values pos used text out out' used' := by
  obtain ⟨pieces, tokens, result, rendered, later⟩ := tail
  have whole := rendered.cons positive (ordinary_takeWhile text) isPiece good
  rw [begins, split] at whole
  refine ⟨_, _, ?_, whole, ?_⟩
  · rw [result]
    simp only [List.append_assoc, List.cons_append, List.nil_append]
  · rw [holeValues_plain, taken, later, ← List.append_assoc]
    cases token <;> rfl

private theorem scan_scanned {conn : Connection} (doubles : DoublesQuotes conn) {values : List Value} {pos used : ℕ}
    {rest : Text} {out out' : List Piece} {used' : ℕ} (positive : 0 < pos)
    (scanned : scan conn values pos used rest out = .ok (out', used')) :
    Scanned values pos used rest out out' used' := by
  fun_induction scan conn values pos used rest out generalizing out' used' with
  | case1 pos used rest out found =>
    cases scanned
    refine scanned_plain values pos used rest out ?_
    simpa [List.dropWhile_eq_nil_iff] using found
  | case2 pos used rest out tail plain start out₁ second found split =>
    rename_i shorter ih
    refine Scanned.cons .mark positive split ?_ (pieceOf_copied _ nofun) trivial rfl (ih (by omega) scanned)
    exact congrArg (List.cons '?') (List.cons_head?_tail second)
  | case3 => cases scanned
  | case4 => cases scanned
  | case5 pos used rest out tail plain start out₁ single value given text rendered found split =>
    rename_i shorter ih
    refine Scanned.cons (.hole value text) positive split rfl (pieceOf_value _ value text)
      ⟨single, literalOf_literal doubles rendered⟩ ?_ (ih (by omega) scanned)
    obtain ⟨below, same⟩ := List.getElem?_eq_some_iff.mp given
    rw [List.drop_eq_getElem_cons below, same]
    rfl
  | case6 => cases scanned
  | case7 pos used rest out char tail found plain split shorter start out₁ noMark quotes inside after =>
    rename_i closed ih
    obtain ⟨body, rfl, paired, ends⟩ := skipQuoted_paired closed
    have quote : isQuote char = true := by
      rcases quotes with rfl | rfl | rfl <;> rfl
    refine Scanned.cons (.quoted char body) positive split ?_ (pieceOf_copied _ nofun) ⟨quote, paired, ends⟩
      rfl ?_
    · rw [← skipQuoted_eq closed]
      rfl
    · have later := ih (by omega) scanned
      rwa [Nat.add_assoc, Nat.add_comm 1] at later
  | case8 pos used rest out char tail found plain split shorter start out₁ noMark noQuote dashes =>
    rename_i line ih
    obtain ⟨rfl, second⟩ := dashes
    refine Scanned.cons (.comment ('-' :: line.1)) positive split ?_ (pieceOf_copied _ nofun)
      (good_line second) rfl ?_
    · exact congrArg (List.cons '-') (takeLine_eq tail)
    · have later := ih (by omega) scanned
      rwa [Nat.add_assoc, Nat.add_comm 1] at later
  | case9 pos used rest out char tail found plain split shorter start out₁ noMark noQuote noDash opens =>
    rename_i block ih
    obtain ⟨rfl, second⟩ := opens
    refine Scanned.cons (.comment ('/' :: '*' :: block.1)) positive split ?_ (pieceOf_copied _ nofun)
      (good_block tail.tail) rfl ?_
    · rw [← List.cons_head?_tail second]
      exact congrArg (fun text => '/' :: '*' :: text) (takeBlock_eq tail.tail)
    · have later := ih (by omega) scanned
      rwa [Nat.add_assoc, Nat.add_comm 2] at later
  | case10 pos used rest out char tail found plain split shorter start out₁ noMark noQuote noDash =>
    rename_i noSlash ih
    refine Scanned.cons (.plain char) positive split rfl (pieceOf_copied _ nofun) ?_ rfl
      (ih (by omega) scanned)
    refine ⟨?_, noMark, fun dash => not_and.mp noDash dash, fun slash => not_and.mp noSlash slash⟩
    simpa [isQuote, and_assoc] using noQuote

/-! ## Reading the result -/

def Token.sourceLabels : Token → List Label
  | .plain _ => [⟨.code, false⟩]
  | .mark => [⟨.code, false⟩, ⟨.code, false⟩]
  | .hole _ _ => [⟨.code, false⟩]
  | .quoted quote body =>
    ⟨quotedRegion quote, true⟩ :: List.replicate (body.length + 1) ⟨quotedRegion quote, false⟩
  | .comment text => commentLabels text.length

def Token.outputLabels : Token → List Label
  | .mark => [⟨.code, false⟩]
  | .hole value text =>
    if isString value then ⟨.string, true⟩ :: List.replicate (text.length - 1) ⟨.string, false⟩
    else List.replicate text.length ⟨.code, false⟩
  | token => token.sourceLabels

/-- The token does not run together with `next`, which follows it. -/
def Token.Stops (next : Option Char) : Token → Prop
  | .plain char => (char = '-' → next ≠ some '-') ∧ (char = '/' → next ≠ some '*')
  | .hole value _ => isString value = true → next ≠ some '\''
  | .quoted quote _ => next ≠ some quote
  | .mark | .comment _ => True

/-- A token that does not run together with what follows leaves the reader in code. -/
private theorem readText_output {token : Token} {rest : Text} (good : token.Good rest) {next : Option Char}
    (stops : token.Stops next) :
    (readText .code token.output next).1 = token.outputLabels ∧
      ((readText .code token.output next).2 = .code ∨ rest = []) := by
  cases token with
  | plain char =>
    obtain ⟨noQuote, -, -, -⟩ := good
    have step : readChar .code char next = (⟨.code, false⟩, .code) := by
      simp only [readChar, noQuote, Bool.false_eq_true, ↓reduceIte]
      rw [if_neg (not_and.mpr stops.1), if_neg (not_and.mpr stops.2)]
    simp only [Token.output, Token.source, readText, List.head?_nil, Option.none_or, step]
    exact ⟨rfl, .inl trivial⟩
  | mark => exact ⟨rfl, .inl rfl⟩
  | hole value text =>
    have isLiteral := good.2
    simp only [LiteralOf] at isLiteral
    simp only [Token.output, Token.outputLabels]
    split_ifs at isLiteral ⊢ with string
    · obtain ⟨body, rfl, paired⟩ := isLiteral
      rw [readText_quoted rfl paired, if_neg (stops string)]
      refine ⟨?_, .inl rfl⟩
      simp only [quotedRegion, ↓reduceIte, List.length_cons, List.length_append, List.length_nil]
      rfl
    · rw [isLiteral.read]
      exact ⟨rfl, .inl rfl⟩
  | quoted quote body =>
    obtain ⟨isQuote, paired, -⟩ := good
    simp only [Token.output, Token.source]
    rw [readText_quoted isQuote paired, if_neg stops]
    exact ⟨rfl, .inl rfl⟩
  | comment text =>
    obtain ⟨-, -, labels, closed⟩ := good
    exact ⟨labels next, closed.imp_left fun ends => ends.1 next⟩

/-- So is each token of the template. -/
private theorem readText_source {token : Token} {rest : Text} (good : token.Good rest) :
    (readText .code token.source rest.head?).1 = token.sourceLabels ∧
      ((readText .code token.source rest.head?).2 = .code ∨ rest = []) := by
  cases token with
  | plain char => exact readText_output good good.2.2
  | mark => exact ⟨rfl, .inl rfl⟩
  | hole value text => exact ⟨rfl, .inl rfl⟩
  | quoted quote body => exact readText_output good good.2.2
  | comment text => exact readText_output good trivial

private theorem lex_source {token : Token} {rest : Text} (good : token.Good rest) :
    lex .code (token.source ++ rest) = token.sourceLabels ++ lex .code rest := by
  obtain ⟨labels, mode⟩ := readText_source good
  rw [lex_append, labels]
  rcases mode with inCode | rfl
  · rw [inCode]
  · rfl

private theorem length_sourceLabels {token : Token} {rest : Text} (good : token.Good rest) :
    token.sourceLabels.length = token.source.length := by
  rw [← (readText_source good).1, length_readText]

private theorem lex_output {token : Token} {rest : Text} (good : token.Good rest) {after : Text}
    (stops : token.Stops after.head?) (last : rest = [] → after = []) :
    lex .code (token.output ++ after) = token.outputLabels ++ lex .code after ∧
      token.outputLabels.length = token.output.length := by
  obtain ⟨labels, mode⟩ := readText_output good stops
  refine ⟨?_, by rw [← labels, length_readText]⟩
  rw [lex_append, labels]
  rcases mode with inCode | ends
  · rw [inCode]
  · rw [last ends]
    rfl

/-- The first label of a text that is read from code on. -/
private theorem head_lex_code (text : Text) : (lex .code text).head? ≠ some ⟨.string, false⟩ := by
  cases text with
  | nil => nofun
  | cons char rest =>
    simp only [lex, readChar, List.head?_cons, ne_eq, Option.some.injEq]
    split_ifs <;> simp

private theorem source_ne_nil {token : Token} {rest : Text} (good : token.Good rest) : token.source ≠ [] := by
  cases token with
  | comment text => exact good.1
  | plain | mark | hole | quoted => exact nofun

private theorem output_ne_nil {token : Token} {rest : Text} (good : token.Good rest) : token.output ≠ [] := by
  cases token with
  | comment text => exact good.1
  | hole value text =>
    have isLiteral := good.2
    simp only [LiteralOf] at isLiteral
    split_ifs at isLiteral
    · obtain ⟨body, rfl, -⟩ := isLiteral
      exact nofun
    · obtain ⟨char, head, -⟩ := isLiteral.head
      rintro rfl
      cases head
  | plain | mark | quoted => exact nofun

private theorem eq_nil_of_source {tokens : List Token} (chain : Chain tokens) (empty : sourceText tokens = []) :
    tokens = [] := by
  cases tokens with
  | nil => rfl
  | cons token rest => exact absurd (List.append_eq_nil_iff.mp empty).1 (source_ne_nil chain.1)

private theorem last_output {token : Token} {rest : List Token} (chain : Chain (token :: rest))
    (empty : sourceText rest = []) : outputText rest = [] := by
  rw [eq_nil_of_source chain.2 empty]
  rfl

/-! ## Tokens that run together -/

/-- A placeholder comes first and its literal runs together with `before`, or not. -/
def HeadApart (before : Option Char) : List Token → Prop
  | .hole value _ :: _ =>
    (negative value = true → before ≠ some '-') ∧ (isString value = true → before ≠ some '\'')
  | _ => True

/-- A string literal does not run together with a string of the template after it. -/
def Token.Clear (rest : Text) : Token → Prop
  | .hole value _ => isString value = true → rest.head? ≠ some '\''
  | _ => True

def Apart : List Token → Prop
  | [] => True
  | token :: rest => (HeadApart token.source.getLast? rest ∧ token.Clear (sourceText rest)) ∧ Apart rest

/-- How a literal begins. -/
private theorem head_literal {value : Value} {text : Text} (isLiteral : LiteralOf value text) :
    ∃ char, text.head? = some char ∧ char ≠ '*' ∧ (char = '-' ↔ negative value = true) ∧
      (isString value = true → char = '\'') ∧ (isString value = false → isQuote char = false) := by
  unfold LiteralOf at isLiteral
  split_ifs at isLiteral with string
  · obtain ⟨body, rfl, -⟩ := isLiteral
    refine ⟨'\'', rfl, by decide, ?_, fun _ => rfl, fun other => ?_⟩
    · cases value with
      | string value => simp [negative]
      | nil | boolean | integer | float | other => cases string
    · rw [string] at other
      cases other
  · obtain ⟨char, head, noQuote, noStar, minus⟩ := isLiteral.head
    exact ⟨char, head, noStar, minus, fun isTrue => absurd isTrue string, fun _ => noQuote⟩

private theorem head_sourceText {token : Token} {rest : Text} (good : token.Good rest) (more : List Token) :
    (sourceText (token :: more)).head? = token.source.head? := by
  change (token.source ++ sourceText more).head? = _
  obtain ⟨char, tail, same⟩ := List.exists_cons_of_ne_nil (source_ne_nil good)
  rw [same]
  rfl

private theorem head_outputText {token : Token} {rest : Text} (good : token.Good rest) (more : List Token) :
    (outputText (token :: more)).head? = token.output.head? := by
  change (token.output ++ outputText more).head? = _
  obtain ⟨char, tail, same⟩ := List.exists_cons_of_ne_nil (output_ne_nil good)
  rw [same]
  rfl

private theorem head_output_eq {token : Token} (copied : ∀ value text, token ≠ .hole value text) :
    token.output.head? = token.source.head? := by
  cases token with
  | hole value text => exact absurd rfl (copied value text)
  | plain | mark | quoted | comment => rfl

private theorem getLast_quoted (quote : Char) (body : Text) :
    (Token.quoted quote body).source.getLast? = some quote := by
  change ((quote :: body) ++ [quote]).getLast? = _
  exact List.getLast?_concat ..

/-- The last character of a token after which a placeholder can come. -/
private theorem stops_hole {token : Token} {value : Value} {text : Text} {more : List Token}
    (good : token.Good (sourceText (.hole value text :: more))) (isLiteral : LiteralOf value text) :
    token.Stops text.head? ↔
      (negative value = true → token.source.getLast? ≠ some '-') ∧
        (isString value = true → token.source.getLast? ≠ some '\'') := by
  obtain ⟨first, head, noStar, minus, string, noQuote⟩ := head_literal isLiteral
  rw [head]
  cases token with
  | plain char =>
    have different : char ≠ '\'' := by
      rintro rfl
      cases good.1
    simp only [Token.Stops, Token.source, List.getLast?_singleton, ne_eq, Option.some.injEq, noStar,
      not_false_eq_true, implies_true, and_true, minus, different]
    exact ⟨fun apart isNegative dash => apart dash isNegative, fun apart dash isNegative => apart isNegative dash⟩
  | mark => simp [Token.Stops, Token.source]
  | hole other literal => exact absurd rfl good.1
  | quoted quote body =>
    obtain ⟨isQuote, -, -⟩ := good
    have noMinus : quote ≠ '-' := by
      rintro rfl
      cases isQuote
    simp only [Token.Stops, getLast_quoted, ne_eq, Option.some.injEq, noMinus, not_false_eq_true, implies_true,
      true_and]
    cases kind : isString value with
    | true =>
      rw [string kind]
      exact ⟨fun different _ same => different same.symm, fun different same => different rfl same.symm⟩
    | false =>
      simp only [Bool.false_eq_true, false_implies, iff_true]
      rintro rfl
      rw [noQuote kind] at isQuote
      cases isQuote
  | comment comment =>
    obtain ⟨-, -, -, ⟨-, newline | slash⟩ | empty⟩ := good
    · simp [Token.Stops, Token.source, newline]
    · simp [Token.Stops, Token.source, slash]
    · cases empty

/-- A token of the result runs together with the next one in three ways only. -/
private theorem stops_iff {token : Token} {rest : List Token} (chain : Chain (token :: rest)) :
    token.Stops (outputText rest).head? ↔
      HeadApart token.source.getLast? rest ∧ token.Clear (sourceText rest) := by
  obtain ⟨good, later⟩ := chain
  have copied : (outputText rest).head? = (sourceText rest).head? → HeadApart token.source.getLast? rest →
      (token.Stops (outputText rest).head? ↔
        HeadApart token.source.getLast? rest ∧ token.Clear (sourceText rest)) := by
    intro same apart
    rw [same, and_iff_right apart]
    cases token with
    | plain char => exact iff_of_true good.2.2 trivial
    | mark => exact Iff.rfl
    | hole value text => exact Iff.rfl
    | quoted quote body => exact iff_of_true good.2.2 trivial
    | comment text => exact Iff.rfl
  cases rest with
  | nil => exact copied rfl trivial
  | cons next more =>
    cases next with
    | hole value text =>
      rw [head_outputText later.1]
      have clear : token.Clear (sourceText (.hole value text :: more)) := by
        cases token with
        | hole other literal => exact fun _ => nofun
        | plain | mark | quoted | comment => trivial
      rw [and_iff_left clear]
      exact stops_hole good later.1.2
    | plain | mark | quoted | comment =>
      refine copied ?_ trivial
      rw [head_outputText later.1, head_sourceText later.1]
      exact head_output_eq nofun

/-- Where nothing runs together, a token lies in the result as it should. -/
private theorem ok_of_stops {token : Token} {rest after : Text} (good : token.Good rest)
    (stops : token.Stops after.head?) (labels : List Label) :
    token.Ok (token.sourceLabels ++ labels) (token.outputLabels ++ lex .code after) := by
  have sourceLength := length_sourceLabels good
  have outputLength : token.outputLabels.length = token.output.length := by
    rw [← (readText_output good stops).1, length_readText]
  have copied : token.outputLabels = token.sourceLabels → token.output = token.source →
      ((token.outputLabels ++ lex .code after).take token.output.length).map (·.region) =
        ((token.sourceLabels ++ labels).take token.output.length).map (·.region) := by
    intro sameLabels sameText
    rw [List.take_left' outputLength, sameText, List.take_left' sourceLength, sameLabels]
  cases token with
  | plain char => exact copied rfl rfl
  | mark => rfl
  | quoted quote body => exact copied rfl rfl
  | comment text => exact copied rfl rfl
  | hole value text =>
    change if isString value = true then OwnRegion _ _ else _
    change _ = text.length at outputLength
    rw [List.take_left' outputLength, List.drop_left' outputLength]
    simp only [Token.outputLabels] at outputLength ⊢
    split_ifs at outputLength ⊢
    · refine ⟨?_, head_lex_code after⟩
      rw [outputLength]
    · rw [List.map_replicate]

/-- A character that a comment begins with does not lie in code. -/
private theorem not_ok_plain {char : Char} {rest after : Text} (good : (Token.plain char).Good rest)
    (joined : ¬(Token.plain char).Stops after.head?) (labels : List Label) :
    ¬(Token.plain char).Ok ((Token.plain char).sourceLabels ++ labels) (lex .code (char :: after)) := by
  have label : (readChar .code char after.head?).1 = ⟨.comment, true⟩ := by
    have noQuote := good.1
    simp only [Token.Stops, not_and_or, Classical.not_imp, not_not] at joined
    rcases joined with ⟨rfl, dash⟩ | ⟨rfl, star⟩
    · simp [readChar, isQuote, dash]
    · simp [readChar, isQuote, star]
  change ¬(List.take 1 (_ :: _)).map _ = (List.take 1 (_ :: _)).map _
  rw [label]
  simp

/-- A string that a quote follows goes on. -/
private theorem lex_joined {body after : Text} (paired : Paired '\'' body) (joined : after.head? = some '\'') :
    ∃ labels, lex .code ('\'' :: (body ++ ['\'']) ++ after) =
      ⟨.string, true⟩ :: List.replicate (body.length + 1) ⟨.string, false⟩ ++ ⟨.string, false⟩ :: labels := by
  cases after with
  | nil => cases joined
  | cons char rest =>
    refine ⟨lex (.quoted '\'') rest, ?_⟩
    rw [lex_append, readText_quoted rfl paired, if_pos joined]
    rfl

private theorem not_ownRegion_of_head {own rest : List Label} (head : own.head? = some ⟨.string, false⟩) :
    ¬OwnRegion own rest := by
  rintro ⟨shape, -⟩
  rw [shape] at head
  cases head

/-- Where something runs together, the structure is lost. -/
private theorem not_faithful {token : Token} {rest : List Token} (chain : Chain (token :: rest))
    (joined : ¬token.Stops (outputText rest).head?) :
    ¬FaithfulTokens (lex .code (sourceText (token :: rest))) (lex .code (outputText (token :: rest)))
      (token :: rest) := by
  rintro ⟨ok, later⟩
  obtain ⟨good, chain'⟩ := chain
  change token.Ok (lex .code (token.source ++ sourceText rest)) (lex .code (token.output ++ outputText rest)) at ok
  change FaithfulTokens _ (List.drop _ (lex .code (token.output ++ outputText rest))) rest at later
  cases token with
  | plain char =>
    rw [lex_source good] at ok
    exact not_ok_plain good joined _ ok
  | mark => exact joined trivial
  | comment text => exact joined trivial
  | hole value text =>
    simp only [Token.Stops, Classical.not_imp, not_not] at joined
    obtain ⟨string, next⟩ := joined
    have isLiteral := good.2
    simp only [LiteralOf, string, ↓reduceIte] at isLiteral
    obtain ⟨body, rfl, paired⟩ := isLiteral
    obtain ⟨labels, joinedLabels⟩ := lex_joined paired next
    simp only [Token.Ok, string, ↓reduceIte, Token.output, joinedLabels] at ok
    refine ok.2 ?_
    rw [List.drop_left' (by simp)]
    rfl
  | quoted quote body =>
    -- only a string literal begins with a quote that the template does not have there
    have bad := fun apart => joined ((stops_iff ⟨good, chain'⟩).mpr ⟨apart, trivial⟩)
    rw [getLast_quoted] at bad
    cases rest with
    | nil => exact bad trivial
    | cons next more =>
      cases next with
      | plain | mark | quoted | comment => exact bad trivial
      | hole value text =>
        simp only [HeadApart, ne_eq, Option.some.injEq, imp_false, not_and, Classical.not_imp, not_not] at bad
        obtain ⟨string, rfl⟩ := bad fun _ dash => by
          subst dash
          cases good.1
        simp only [Token.Stops, ne_eq, not_not] at joined
        obtain ⟨labels, joinedLabels⟩ := lex_joined good.2.1 joined
        have own := later.1
        simp only [Token.Ok, string, ↓reduceIte, Token.output, Token.source, joinedLabels] at own
        refine not_ownRegion_of_head ?_ own
        rw [List.drop_left' (by simp)]
        obtain ⟨first, others, rfl⟩ := List.exists_cons_of_ne_nil (output_ne_nil chain'.1)
        rfl

/-- The result keeps the structure of the template exactly when no tokens run together. -/
theorem faithfulTokens_iff_apart {tokens : List Token} (chain : Chain tokens) :
    FaithfulTokens (lex .code (sourceText tokens)) (lex .code (outputText tokens)) tokens ↔ Apart tokens := by
  induction tokens with
  | nil => exact Iff.rfl
  | cons token rest ih =>
    by_cases stops : token.Stops (outputText rest).head?
    · obtain ⟨result, length⟩ := lex_output chain.1 stops (last_output chain)
      have template := lex_source chain.1
      change token.Ok (lex .code (token.source ++ sourceText rest)) (lex .code (token.output ++ outputText rest)) ∧
        FaithfulTokens (List.drop _ (lex .code (token.source ++ sourceText rest)))
          (List.drop _ (lex .code (token.output ++ outputText rest))) rest ↔ _ ∧ _
      rw [template, result, List.drop_left' (length_sourceLabels chain.1), List.drop_left' length, ih chain.2]
      exact and_congr (iff_of_true (ok_of_stops chain.1 stops _) ((stops_iff chain).mp stops)) Iff.rfl
    · refine iff_of_false (not_faithful chain stops) fun apart => ?_
      exact stops ((stops_iff chain).mpr apart.1)

/-! ## The placeholders of the template -/

/-- A text without code has no placeholders. -/
private theorem holes_skip {mode : Mode} {text rest : Text} (before : Option Char)
    (noCode : ∀ label ∈ (readText mode text rest.head?).1, label.region ≠ .code) :
    holes mode false before (text ++ rest) =
      holes (readText mode text rest.head?).2 false (text.getLast?.or before) rest := by
  induction text generalizing mode before with
  | nil => rfl
  | cons char text ih =>
    have after : (text ++ rest).head? = text.head?.or rest.head? := by
      cases text <;> cases rest <;> rfl
    have outside : ¬(mode = .code ∧ char = '?') := by
      rintro ⟨rfl, rfl⟩
      exact noCode _ (List.mem_cons_self ..) rfl
    rw [List.cons_append, holes, if_neg outside, after,
      ih _ fun label member => noCode label (List.mem_cons_of_mem _ member)]
    rw [List.getLast?_cons]
    cases text.getLast? <;> rfl

/-- The placeholders of a sequence of tokens. -/
def holesOf (before : Option Char) : List Token → List (Option Char × Option Char)
  | [] => []
  | .hole _ _ :: rest => (before, (sourceText rest).head?) :: holesOf (some '?') rest
  | token :: rest => holesOf token.source.getLast? rest

theorem holes_sourceText (before : Option Char) {tokens : List Token} (chain : Chain tokens) :
    holes .code false before (sourceText tokens) = holesOf before tokens := by
  induction tokens generalizing before with
  | nil => rfl
  | cons token rest ih =>
    obtain ⟨good, chain'⟩ := chain
    have later := fun before => ih before chain'
    change holes .code false before (token.source ++ sourceText rest) = _
    have read := readText_source good
    have inside : (∀ label ∈ token.sourceLabels, label.region ≠ .code) →
        holes .code false before (token.source ++ sourceText rest) = holesOf token.source.getLast? rest := by
      intro noCode
      rw [← read.1] at noCode
      rw [holes_skip before noCode]
      obtain ⟨last, isLast⟩ : ∃ last, token.source.getLast? = some last :=
        ⟨_, List.getLast?_eq_some_getLast (source_ne_nil good)⟩
      rw [isLast, Option.some_or, ← later]
      rcases read.2 with inCode | empty
      · rw [inCode]
      · rw [empty]
        rfl
    cases token with
    | plain char =>
      obtain ⟨-, noMark, -, -⟩ := good
      simp only [Token.source, List.cons_append, List.nil_append, holes, noMark, and_false, ↓reduceIte]
      change holes (readText .code [char] _).2 false (some char) _ = holesOf (some char) rest
      rw [← later]
      rcases read.2 with inCode | empty
      · exact congrArg (holes · false (some char) (sourceText rest)) inCode
      · rw [empty]
        rfl
    | mark => exact later _
    | hole value text =>
      simp only [Token.source, List.cons_append, List.nil_append, holes, and_self, ↓reduceIte, Bool.false_eq_true,
        good.1, holesOf, later]
    | quoted quote body =>
      refine inside fun label member => ?_
      have region : label.region = quotedRegion quote := by
        rcases List.mem_cons.mp member with rfl | others
        · rfl
        · rw [List.eq_of_mem_replicate others]
      rw [region, quotedRegion]
      split_ifs <;> decide
    | comment text =>
      refine inside fun label member => ?_
      rcases List.mem_cons.mp member with rfl | others
      · decide
      · rw [List.eq_of_mem_replicate others]
        decide

private theorem forall_harmless_iff {before : Option Char} {tokens : List Token} :
    (∀ pair ∈ (holesOf before tokens).zip (holeValues tokens), Harmless pair.1 pair.2) ↔
      HeadApart before tokens ∧ Apart tokens := by
  induction tokens generalizing before with
  | nil => simp [holesOf, HeadApart, Apart]
  | cons token rest ih =>
    cases token with
    | hole value text =>
      change (∀ pair ∈ ((before, (sourceText rest).head?) :: holesOf (some '?') rest).zip
        (value :: holeValues rest), _) ↔ _
      rw [List.zip_cons_cons, List.forall_mem_cons, ih]
      simp only [Harmless, HeadApart, Apart, Token.source, List.getLast?_singleton, Token.Clear, imp_and]
      constructor
      · rintro ⟨⟨minus, quote, clear⟩, apart, others⟩
        exact ⟨⟨minus, quote⟩, ⟨apart, clear⟩, others⟩
      · rintro ⟨⟨minus, quote⟩, ⟨apart, clear⟩, others⟩
        exact ⟨⟨minus, quote, clear⟩, apart, others⟩
    | plain | mark | quoted | comment =>
      change (∀ pair ∈ (holesOf _ rest).zip (holeValues rest), _) ↔ True ∧ (_ ∧ True) ∧ Apart rest
      rw [ih, true_and, and_true]

/-- No tokens of the template run together exactly when every value is apart from what is around it. -/
theorem separated_iff_apart {tokens : List Token} (chain : Chain tokens) :
    Separated (sourceText tokens) (holeValues tokens) ↔ Apart tokens := by
  unfold Separated
  rw [holes_sourceText none chain, forall_harmless_iff, and_iff_right]
  cases tokens with
  | nil => trivial
  | cons token rest => cases token <;> simp [HeadApart]

/-! ## The result of `sql.format` -/

/-- A connection whose `escape` doubles the single quotes and changes nothing else. -/
def doubling : Connection where
  kind := "userdata"
  escape text := .ok (text.flatMap fun char => if char = '\'' then ['\'', '\''] else [char])

theorem doublesQuotes_doubling : DoublesQuotes doubling := by
  rintro text escaped ⟨⟩
  induction text with
  | nil => exact ⟨.nil, rfl⟩
  | cons char rest ih =>
    obtain ⟨paired, count⟩ := ih
    rw [List.flatMap_cons]
    split_ifs with quote
    · subst quote
      refine ⟨.pair paired, ?_⟩
      simp only [List.cons_append, List.nil_append, List.count_cons_self, count]
      omega
    · refine ⟨.char quote paired, ?_⟩
      simp [List.count_cons_of_ne quote, count]

private theorem scan_of_format {conn : Connection} {template : Text} {values : List Value} {pieces : List Piece}
    (formatted : format conn (.string template) values = .ok pieces) :
    scan conn values 1 0 template [] = .ok (pieces, values.length) := by
  simp only [format] at formatted
  split_ifs at formatted
  split at formatted
  · cases formatted
  · rename_i out used scanned
    split_ifs at formatted with count
    cases formatted
    rw [scanned, not_not.mp count]

/-- Whatever `sql.format` puts out has the structure of its template exactly when no value runs together
with the characters around its placeholder: every part of the template is in the result what it is in
the template, every string value is one string literal, and every other value is code. -/
theorem format_faithful_iff {conn : Connection} (doubles : DoublesQuotes conn) {template : Text} {values : List Value}
    {pieces : List Piece} (formatted : format conn (.string template) values = .ok pieces) :
    Faithful (lex .code template) (lex .code (concat pieces)) pieces ↔ Separated template values := by
  obtain ⟨pieces', tokens, same, rendered, taken⟩ := scan_scanned doubles Nat.one_pos (scan_of_format formatted)
  rw [List.nil_append] at same
  subst same
  rw [List.drop_length, List.append_nil, List.drop_zero] at taken
  rw [rendered.faithful, Nat.sub_self, List.drop_zero, rendered.output, ← rendered.source,
    faithfulTokens_iff_apart rendered.chain, taken, separated_iff_apart rendered.chain]

private theorem format_quote :
    format doubling (.string "n=?".toList) [.string "it's".toList] =
      .ok [.copied 1 "n=".toList, .value (.string "it's".toList) "'it''s'".toList] := by
  decide +kernel

theorem format_faithful_iff_quote :
    ∃ pieces, format doubling (.string "n=?".toList) [.string "it's".toList] = .ok pieces ∧
      concat pieces = "n='it''s'".toList ∧
      Faithful (lex .code "n=?".toList) (lex .code (concat pieces)) pieces := by
  refine ⟨_, format_quote, by decide, (format_faithful_iff doublesQuotes_doubling format_quote).mpr ?_⟩
  intro pair member
  simp [holes, readChar, isQuote] at member
  subst member
  exact ⟨nofun, fun _ => ⟨by decide, nofun⟩⟩

private theorem format_minus :
    format doubling (.string "SELECT 5-?".toList) [.integer (-2)] =
      .ok [.copied 1 "SELECT 5".toList, .copied 9 "-".toList, .copied 10 [], .value (.integer (-2)) "-2".toList] := by
  decide +kernel

/-- A minus before the placeholder of a negative number opens a comment. -/
theorem format_minus_comment :
    DoublesQuotes doubling ∧ ∃ pieces, format doubling (.string "SELECT 5-?".toList) [.integer (-2)] = .ok pieces ∧
      concat pieces = "SELECT 5--2".toList ∧
      ¬Faithful (lex .code "SELECT 5-?".toList) (lex .code (concat pieces)) pieces := by
  refine ⟨doublesQuotes_doubling, _, format_minus, by decide, ?_⟩
  rintro ⟨-, minus, -⟩
  revert minus
  decide

end VcmpLua.Spec
