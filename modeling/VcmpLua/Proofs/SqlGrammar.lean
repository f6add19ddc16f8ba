import Mathlib
import VcmpLua.Proofs.SqlFormat

/-! # What `sql.format` accepts and renders

A template has a meaning of its own: its quotes close or not, it has so many placeholders, and with
a literal for each of them it becomes a text. All of this is read off the characters and the modes
of the reader, with a run of question marks taken as a whole. The scan, which jumps from region to
region and takes question marks in pairs, succeeds exactly on the templates that close and whose
placeholders match the values, and renders them so.
-/

namespace VcmpLua.Spec

open VcmpLua.Model.Lua.Sql

/-- The reader is inside quotes. -/
def Mode.inQuotes : Mode → Bool
  | .quoted _ => true
  | _ => false

/-- Every quote opened in code is closed. -/
def closes (mode : Mode) (text : Text) : Bool := !(readText mode text none).2.inQuotes

/-- The runs of an odd number of question marks in code. -/
def placeholders (mode : Mode) (text : Text) : ℕ :=
  match text with
  | [] => 0
  | char :: rest =>
    if mode = .code ∧ char = '?' then
      ((rest.takeWhile (· = '?')).length + 1) % 2 + placeholders .code (rest.dropWhile (· = '?'))
    else placeholders (readChar mode char rest.head?).2 rest
termination_by text.length
decreasing_by
  · have shorter := List.length_dropWhile_le (· = '?') rest
    simp only [List.length_cons]
    omega
  · exact Nat.lt_succ_self _

/-- Half of each run stays, and an odd one is followed by the next literal; all else is copied. -/
def fill (mode : Mode) (text : Text) (literals : List Text) : Text :=
  match text with
  | [] => []
  | char :: rest =>
    if mode = .code ∧ char = '?' then
      let run := (rest.takeWhile (· = '?')).length + 1
      let after := rest.dropWhile (· = '?')
      List.replicate (run / 2) '?' ++
        if run % 2 = 1 then literals.headD [] ++ fill .code after literals.tail else fill .code after literals
    else char :: fill (readChar mode char rest.head?).2 rest literals
termination_by text.length
decreasing_by
  · have shorter := List.length_dropWhile_le (· = '?') rest
    simp only [List.length_cons]
    omega
  · have shorter := List.length_dropWhile_le (· = '?') rest
    simp only [List.length_cons]
    omega
  · exact Nat.lt_succ_self _

/-- The literal of a value that SQL can store. -/
def storable (conn : Connection) : Value → Option Text
  | .nil => some "NULL".toList
  | .boolean value => some (if value then "TRUE" else "FALSE").toList
  | .integer value => some (integerText value)
  | .float (.finite negative mantissa exponent) => some (floatText negative mantissa exponent)
  | .string value => (conn.escape value).toOption.map fun escaped => '\'' :: escaped ++ ['\'']
  | _ => none

/-- What a text becomes with values for its placeholders, and how many of them it takes. -/
def rendered (conn : Connection) (mode : Mode) (text : Text) (values : List Value) : Option (Text × ℕ) :=
  let count := placeholders mode text
  if closes mode text ∧ count ≤ values.length then
    ((values.take count).mapM (storable conn)).map fun literals => (fill mode text literals, count)
  else none

/-! ## Characters that are copied -/

section Copied

variable {conn : Connection} {mode : Mode} {char : Char} {rest : Text} {values : List Value}

theorem closes_cons : closes mode (char :: rest) = closes (readChar mode char rest.head?).2 rest := by
  simp only [closes, readText, Option.or_none]

/-- A character that is not a question mark in code. -/
theorem rendered_copy (copied : ¬(mode = .code ∧ char = '?')) :
    rendered conn mode (char :: rest) values =
      (rendered conn (readChar mode char rest.head?).2 rest values).map fun result => (char :: result.1, result.2) := by
  have count : placeholders mode (char :: rest) = placeholders (readChar mode char rest.head?).2 rest := by
    rw [placeholders, if_neg copied]
  unfold rendered
  simp only
  rw [closes_cons, count]
  split_ifs
  · rw [Option.map_map]
    congr 1
    funext literals
    rw [fill, if_neg copied]
    rfl
  · rfl

/-- A part without code. -/
theorem rendered_skip {text : Text} (noCode : ∀ label ∈ (readText mode text rest.head?).1, label.region ≠ .code) :
    rendered conn mode (text ++ rest) values =
      (rendered conn (readText mode text rest.head?).2 rest values).map fun result => (text ++ result.1, result.2) := by
  induction text generalizing mode with
  | nil => exact Option.map_id'.symm
  | cons char text ih =>
    have after : (text ++ rest).head? = text.head?.or rest.head? := by
      cases text <;> cases rest <;> rfl
    have outside : ¬(mode = .code ∧ char = '?') := by
      rintro ⟨rfl, rfl⟩
      exact noCode _ (List.mem_cons_self ..) rfl
    rw [List.cons_append, rendered_copy outside, after,
      ih fun label member => noCode label (List.mem_cons_of_mem _ member), Option.map_map]
    rfl

/-- A part of code that the scan passes over. -/
theorem rendered_plain {text : Text} (ordinary : ∀ char ∈ text, special char = false) :
    rendered conn .code (text ++ rest) values =
      (rendered conn .code rest values).map fun result => (text ++ result.1, result.2) := by
  induction text with
  | nil => exact Option.map_id'.symm
  | cons char text ih =>
    have own := ordinary char (List.mem_cons_self ..)
    simp only [special, List.mem_cons, List.not_mem_nil, or_false, decide_eq_false_iff_not, not_or] at own
    have stays : ∀ after, (readChar .code char after).2 = .code := by
      intro after
      simp [readChar, isQuote, own]
    rw [List.cons_append, rendered_copy fun mark => own.1 mark.2, stays,
      ih fun other member => ordinary other (List.mem_cons_of_mem _ member), Option.map_map]
    rfl

end Copied

/-! ## Runs of question marks -/

section Marks

variable {conn : Connection} {text : Text} {values : List Value}

theorem placeholders_run (text : Text) :
    placeholders .code text = (text.takeWhile (· = '?')).length % 2 + placeholders .code (text.dropWhile (· = '?')) := by
  cases text with
  | nil => simp [placeholders]
  | cons char rest =>
    by_cases mark : char = '?'
    · subst mark
      rw [placeholders, if_pos ⟨rfl, rfl⟩, List.takeWhile_cons_of_pos (by simp), List.dropWhile_cons_of_pos (by simp),
        List.length_cons]
    · rw [List.takeWhile_cons_of_neg (by simpa using mark), List.dropWhile_cons_of_neg (by simpa using mark)]
      exact (Nat.zero_add _).symm

theorem fill_run (text : Text) (literals : List Text) :
    fill .code text literals = List.replicate ((text.takeWhile (· = '?')).length / 2) '?' ++
      if (text.takeWhile (· = '?')).length % 2 = 1 then
        literals.headD [] ++ fill .code (text.dropWhile (· = '?')) literals.tail
      else fill .code (text.dropWhile (· = '?')) literals := by
  cases text with
  | nil => rfl
  | cons char rest =>
    by_cases mark : char = '?'
    · subst mark
      rw [fill, if_pos ⟨rfl, rfl⟩, List.takeWhile_cons_of_pos (by simp), List.dropWhile_cons_of_pos (by simp),
        List.length_cons]
    · rw [List.takeWhile_cons_of_neg (by simpa using mark), List.dropWhile_cons_of_neg (by simpa using mark)]
      rfl

theorem closes_mark : closes .code ('?' :: text) = closes .code text := closes_cons

/-- Two question marks are a literal one. -/
theorem rendered_pair : rendered conn .code ('?' :: '?' :: text) values =
    (rendered conn .code text values).map fun result => ('?' :: result.1, result.2) := by
  have run : ('?' :: '?' :: text).takeWhile (· = '?') = '?' :: '?' :: text.takeWhile (· = '?') := by simp
  have after : ('?' :: '?' :: text).dropWhile (· = '?') = text.dropWhile (· = '?') := by simp
  have parity : ((text.takeWhile (· = '?')).length + 1 + 1) % 2 = (text.takeWhile (· = '?')).length % 2 := by omega
  have half : ((text.takeWhile (· = '?')).length + 1 + 1) / 2 = (text.takeWhile (· = '?')).length / 2 + 1 := by omega
  have count : placeholders .code ('?' :: '?' :: text) = placeholders .code text := by
    rw [placeholders_run, run, after, List.length_cons, List.length_cons, parity, ← placeholders_run]
  have filled : ∀ literals, fill .code ('?' :: '?' :: text) literals = '?' :: fill .code text literals := by
    intro literals
    rw [fill_run, run, after, List.length_cons, List.length_cons, parity, half, List.replicate_succ, List.cons_append,
      ← fill_run]
  unfold rendered
  simp only [closes_mark, count, filled]
  split_ifs
  · rw [Option.map_map]
    rfl
  · rfl

/-- A question mark before something else takes a value. -/
theorem rendered_hole (single : text.head? ≠ some '?') : rendered conn .code ('?' :: text) values =
    values.head?.bind fun value => (storable conn value).bind fun literal =>
      (rendered conn .code text values.tail).map fun result => (literal ++ result.1, result.2 + 1) := by
  have none : text.takeWhile (· = '?') = [] := by
    cases text with
    | nil => rfl
    | cons char rest => exact List.takeWhile_cons_of_neg (by simpa using single)
  have run : ('?' :: text).takeWhile (· = '?') = ['?'] := by
    rw [List.takeWhile_cons_of_pos (by simp), none]
  have after : ('?' :: text).dropWhile (· = '?') = text := by
    rw [List.dropWhile_cons_of_pos (by simp)]
    conv_rhs => rw [← List.takeWhile_append_dropWhile (p := (· = '?')) (l := text), none]
    rfl
  have count : placeholders .code ('?' :: text) = placeholders .code text + 1 := by
    rw [placeholders_run, run, after, Nat.add_comm]
    rfl
  have filled : ∀ literals, fill .code ('?' :: text) literals = literals.headD [] ++ fill .code text literals.tail := by
    intro literals
    rw [fill_run, run, after]
    rfl
  cases values with
  | nil =>
    rw [List.head?_nil, Option.bind_none, rendered, if_neg]
    rw [count]
    exact fun both => absurd both.2 (Nat.not_succ_le_zero _)
  | cons value values =>
    rw [List.head?_cons, Option.bind_some, List.tail_cons]
    unfold rendered
    simp only [closes_mark, count, filled, List.length_cons, Nat.add_le_add_iff_right, List.take_succ_cons,
      List.mapM_cons]
    cases storable conn value with
    | none => simp
    | some literal =>
      rw [Option.bind_some]
      by_cases fits : closes .code text = true ∧ placeholders .code text ≤ values.length
      · rw [if_pos fits, if_pos fits]
        cases (values.take (placeholders .code text)).mapM (storable conn) <;> rfl
      · rw [if_neg fits, if_neg fits]
        rfl

end Marks

/-! ## The scan -/

section Scan

variable {conn : Connection} {values : List Value}

theorem literal_eq (conn : Connection) (value : Value) (index : ℕ) : (literal conn value index).toOption = storable conn value := by
  cases value with
  | float value => cases value <;> rfl
  | string value =>
    rw [literal, storable]
    cases conn.escape value <;> rfl
  | _ => rfl

/-- A quote that is never closed. -/
theorem closes_of_skipQuoted {quote : Char} {text : Text} (never : skipQuoted quote text = none) :
    closes (.quoted quote) text = false := by
  fun_induction skipQuoted quote text with
  | case1 => rfl
  | case2 => cases never
  | case3 char other =>
    rw [closes_cons]
    simp [readChar, other, closes, readText, Mode.inQuotes]
  | case4 rest ih =>
    rw [closes_cons, closes_cons]
    simpa [readChar] using ih (Option.map_eq_none_iff.mp never)
  | case5 => cases never
  | case6 char after rest other ih =>
    rw [closes_cons]
    simpa [readChar, other] using ih (Option.map_eq_none_iff.mp never)

theorem rendered_of_not_closes {mode : Mode} {text : Text} (never : closes mode text = false) :
    rendered conn mode text values = none := by
  rw [rendered, if_neg]
  rw [never]
  exact fun both => Bool.false_ne_true both.1

/-! ### Comments -/

theorem inQuotes_line (text : Text) (next : Option Char) :
    (readText .line (takeLine text).1 next).2.inQuotes = false := by
  induction text with
  | nil => rfl
  | cons char rest ih =>
    unfold takeLine
    split_ifs with newline
    · subst newline
      rfl
    · simpa only [readText, readChar, newline, ↓reduceIte] using ih

theorem takeBlock_head (char : Char) (rest : Text) : (takeBlock (char :: rest)).1.head? = some char := by
  cases rest with
  | nil => rfl
  | cons after rest =>
    rw [takeBlock]
    split_ifs <;> rfl

theorem inQuotes_block (text : Text) (next : Option Char) :
    (readText .block (takeBlock text).1 next).2.inQuotes = false := by
  fun_induction takeBlock text with
  | case1 => rfl
  | case2 char =>
    simp only [readText, readChar]
    split_ifs <;> rfl
  | case3 char after rest ends =>
    obtain ⟨rfl, rfl⟩ := ends
    rfl
  | case4 char after rest other block last same ih =>
    have head : block.head? = some after := by
      have whole := takeBlock_head after rest
      rwa [same] at whole
    have step : readChar .block char (block.head?.or next) = (⟨.comment, false⟩, .block) := by
      simp only [readChar, head, Option.some_or, Option.some.injEq, other, ↓reduceIte]
    rw [same] at ih
    simpa only [readText, step] using ih

/-- The end of the text outside quotes is the end in code. -/
theorem rendered_end {mode : Mode} (outside : mode.inQuotes = false) :
    rendered conn mode [] values = rendered conn .code [] values := by
  have closed : closes mode [] = closes .code [] := by
    rw [closes, readText, outside]
    rfl
  rw [rendered, rendered, closed]
  simp only [placeholders, fill]

/-- A comment, which the end of the text may end. -/
theorem rendered_comment {text rest : Text} (noCode : ∀ label ∈ (readText .code text rest.head?).1, label.region ≠ .code)
    (ends : (readText .code text rest.head?).2 = .code ∨ rest = [])
    (outside : (readText .code text rest.head?).2.inQuotes = false) :
    rendered conn .code (text ++ rest) values =
      (rendered conn .code rest values).map fun result => (text ++ result.1, result.2) := by
  rw [rendered_skip noCode]
  rcases ends with code | empty
  · rw [code]
  · subst empty
    rw [rendered_end outside]

theorem rendered_line {tail : Text} (dash : tail.head? = some '-') :
    rendered conn .code ('-' :: tail) values =
      (rendered conn .code (takeLine tail).2 values).map fun result => ('-' :: (takeLine tail).1 ++ result.1, result.2) := by
  have first : (takeLine tail).1.head? = some '-' := by
    cases tail with
    | nil => cases dash
    | cons char rest =>
      obtain rfl : char = '-' := Option.some_inj.mp dash
      rfl
  have step : readText .code ('-' :: (takeLine tail).1) (takeLine tail).2.head? =
      (⟨.comment, true⟩ :: (readText .line (takeLine tail).1 (takeLine tail).2.head?).1,
        (readText .line (takeLine tail).1 (takeLine tail).2.head?).2) := by
    rw [readText, first]
    rfl
  have line := readText_line tail (takeLine tail).2.head?
  have text : '-' :: tail = '-' :: (takeLine tail).1 ++ (takeLine tail).2 := by
    rw [List.cons_append, takeLine_eq]
  rw [text]
  apply rendered_comment
  · intro label member
    rw [step] at member
    rcases List.mem_cons.mp member with rfl | inside
    · decide
    · rw [line.1] at inside
      rw [List.eq_of_mem_replicate inside]
      decide
  · rw [step]
    exact line.2
  · rw [step]
    exact inQuotes_line tail _

theorem rendered_block {tail : Text} (star : tail.head? = some '*') :
    rendered conn .code ('/' :: tail) values =
      (rendered conn .code (takeBlock tail.tail).2 values).map fun result =>
        ('/' :: '*' :: (takeBlock tail.tail).1 ++ result.1, result.2) := by
  have step : readText .code ('/' :: '*' :: (takeBlock tail.tail).1) (takeBlock tail.tail).2.head? =
      (⟨.comment, true⟩ :: ⟨.comment, false⟩ :: (readText .block (takeBlock tail.tail).1 (takeBlock tail.tail).2.head?).1,
        (readText .block (takeBlock tail.tail).1 (takeBlock tail.tail).2.head?).2) := rfl
  have block := readText_block tail.tail (takeBlock tail.tail).2.head?
  have text : '/' :: tail = '/' :: '*' :: (takeBlock tail.tail).1 ++ (takeBlock tail.tail).2 := by
    rw [List.cons_append, List.cons_append, takeBlock_eq, List.cons_head?_tail star]
  rw [text]
  apply rendered_comment
  · intro label member
    rw [step] at member
    rcases List.mem_cons.mp member with rfl | later
    · decide
    · rcases List.mem_cons.mp later with rfl | inside
      · decide
      · rw [block.1] at inside
        rw [List.eq_of_mem_replicate inside]
        decide
  · rw [step]
    exact block.2
  · rw [step]
    exact inQuotes_block tail.tail _

/-! ### Quoted parts -/

/-- What is between two quotes has its quotes in pairs. -/
theorem paired_of_skipQuoted {quote : Char} {text inside after : Text}
    (closed : skipQuoted quote text = some (inside, after)) :
    ∃ body, inside = body ++ [quote] ∧ Paired quote body ∧ after.head? ≠ some quote := by
  fun_induction skipQuoted quote text generalizing inside after with
  | case1 => cases closed
  | case2 =>
    cases closed
    refine ⟨[], rfl, .nil, ?_⟩
    rintro ⟨⟩
  | case3 => cases closed
  | case4 rest ih =>
    obtain ⟨⟨inner, last⟩, step, result⟩ := Option.map_eq_some_iff.mp closed
    cases result
    obtain ⟨body, rfl, paired, ends⟩ := ih step
    exact ⟨quote :: quote :: body, rfl, .pair paired, ends⟩
  | case5 after rest single =>
    cases closed
    refine ⟨[], rfl, .nil, ?_⟩
    simpa using single
  | case6 char after rest other ih =>
    obtain ⟨⟨inner, last⟩, step, result⟩ := Option.map_eq_some_iff.mp closed
    cases result
    obtain ⟨body, rfl, paired, ends⟩ := ih step
    exact ⟨char :: body, rfl, .char other paired, ends⟩

theorem rendered_quoted {quote : Char} {tail inside after : Text} (isQuote : isQuote quote = true)
    (closed : skipQuoted quote tail = some (inside, after)) :
    rendered conn .code (quote :: tail) values =
      (rendered conn .code after values).map fun result => (quote :: inside ++ result.1, result.2) := by
  have text := skipQuoted_eq closed
  obtain ⟨body, rfl, paired, ends⟩ := paired_of_skipQuoted closed
  have read := readText_quoted isQuote paired after.head?
  have region : quotedRegion quote ≠ .code := by
    unfold quotedRegion
    split_ifs <;> decide
  rw [← text, ← List.cons_append, rendered_skip, read, if_neg ends]
  intro label member
  rw [read] at member
  rcases List.mem_cons.mp member with rfl | inside
  · exact region
  · rw [List.eq_of_mem_replicate inside]
    exact region

/-! ### Rounds -/

/-- The characters that a round passes over. -/
theorem rendered_passed (rest : Text) :
    rendered conn .code rest values =
      (rendered conn .code (rest.dropWhile (!special ·)) values).map fun result =>
        (rest.takeWhile (!special ·) ++ result.1, result.2) := by
  have ordinary : ∀ char ∈ rest.takeWhile (!special ·), special char = false := by
    intro char member
    simpa using List.mem_takeWhile_imp member
  rw [← rendered_plain ordinary, List.takeWhile_append_dropWhile]

/-- One round: what is passed over, and the piece that is read. -/
theorem scan_round {rest tail after : Text} {char : Char} {pos used : ℕ} (extra : ℕ) {piece : Piece}
    {out : List Piece} {result : Option (Text × ℕ)} (found : rest.dropWhile (!special ·) = char :: tail)
    (read : rendered conn .code (char :: tail) (values.drop used) =
      (rendered conn .code after (values.drop (used + extra))).map fun result => (piece.text ++ result.1, result.2 + extra))
    (next : result = (rendered conn .code after (values.drop (used + extra))).map fun result =>
      (concat (out ++ [.copied pos (rest.takeWhile (!special ·))] ++ [piece]) ++ result.1, used + extra + result.2)) :
    result = (rendered conn .code rest (values.drop used)).map fun result => (concat out ++ result.1, used + result.2) := by
  rw [rendered_passed, found, read, next, Option.map_map, Option.map_map]
  congr 1
  funext result
  simp only [Function.comp_apply, concat, List.flatMap_append, List.flatMap_singleton, List.append_assoc, Prod.mk.injEq]
  refine ⟨rfl, ?_⟩
  omega

/-- A round that takes no value. -/
theorem scan_copied {rest tail after : Text} {char : Char} {pos used : ℕ} {piece : Piece} {out : List Piece}
    {result : Option (Text × ℕ)} (found : rest.dropWhile (!special ·) = char :: tail)
    (read : rendered conn .code (char :: tail) (values.drop used) =
      (rendered conn .code after (values.drop used)).map fun result => (piece.text ++ result.1, result.2))
    (next : result = (rendered conn .code after (values.drop used)).map fun result =>
      (concat (out ++ [.copied pos (rest.takeWhile (!special ·))] ++ [piece]) ++ result.1, used + result.2)) :
    result = (rendered conn .code rest (values.drop used)).map fun result => (concat out ++ result.1, used + result.2) :=
  scan_round 0 found read next

/-- A round that fails. -/
theorem scan_failed {rest tail : Text} {char : Char} {used : ℕ} {out : List Piece}
    (found : rest.dropWhile (!special ·) = char :: tail)
    (read : rendered conn .code (char :: tail) (values.drop used) = none) :
    none = (rendered conn .code rest (values.drop used)).map fun result => (concat out ++ result.1, used + result.2) := by
  rw [rendered_passed, found, read]
  rfl

/-- The scan renders what is left of the text. -/
theorem scan_eq (pos used : ℕ) (rest : Text) (out : List Piece) :
    (scan conn values pos used rest out).toOption.map (fun result => (concat result.1, result.2)) =
      (rendered conn .code rest (values.drop used)).map fun result => (concat out ++ result.1, used + result.2) := by
  fun_induction scan conn values pos used rest out with
  | case1 pos used rest out found =>
    have ordinary : ∀ char ∈ rest, special char = false := by
      simpa [List.dropWhile_eq_nil_iff] using found
    have ended : rendered conn .code [] (values.drop used) = some ([], 0) := by
      simp [rendered, closes, readText, Mode.inQuotes, placeholders, fill]
    have whole : rendered conn .code (rest ++ []) (values.drop used) = some (rest ++ [], 0) := by
      rw [rendered_plain ordinary, ended]
      rfl
    rw [List.append_nil] at whole
    rw [whole]
    cases rest with
    | nil => simp [Except.toOption]
    | cons char rest => simp [Except.toOption, concat, Piece.text]
  | case2 pos used rest out tail plain start out₁ second found split =>
    rename_i shorter ih
    refine scan_copied found ?_ ih
    rw [← List.cons_head?_tail second]
    exact rendered_pair
  | case3 pos used rest out tail plain single missing found split shorter =>
    refine scan_failed found ?_
    rw [rendered_hole single, List.head?_drop, missing]
    rfl
  | case4 pos used rest out tail plain single value given message failed found split shorter =>
    refine scan_failed found ?_
    have literal := literal_eq conn value (used + 1)
    rw [failed] at literal
    rw [rendered_hole single, List.head?_drop, given, Option.bind_some, ← literal]
    rfl
  | case5 pos used rest out tail plain start out₁ single value given text rendered found split =>
    rename_i shorter ih
    refine scan_round 1 found ?_ ih
    have literal := literal_eq conn value (used + 1)
    rw [rendered] at literal
    rw [rendered_hole single, List.head?_drop, given, Option.bind_some, ← literal, List.tail_drop]
    rfl
  | case6 pos used rest out char tail found plain split shorter start noMark quotes unclosed =>
    refine scan_failed found (rendered_of_not_closes ?_)
    have opened : ∀ after, (readChar .code char after).2 = .quoted char := by
      intro after
      rcases quotes with rfl | rfl | rfl <;> rfl
    rw [closes_cons, opened]
    exact closes_of_skipQuoted unclosed
  | case7 pos used rest out char tail found plain split shorter start out₁ noMark quotes inside after =>
    rename_i closed ih
    have quote : isQuote char = true := by
      rcases quotes with rfl | rfl | rfl <;> rfl
    exact scan_copied found (rendered_quoted quote closed) ih
  | case8 pos used rest out char tail found plain split shorter start out₁ noMark noQuote dashes =>
    rename_i line ih
    obtain ⟨rfl, second⟩ := dashes
    exact scan_copied found (rendered_line second) ih
  | case9 pos used rest out char tail found plain split shorter start out₁ noMark noQuote noDash opens =>
    rename_i block ih
    obtain ⟨rfl, second⟩ := opens
    exact scan_copied found (rendered_block second) ih
  | case10 pos used rest out char tail found plain split shorter start out₁ noMark noQuote noDash =>
    rename_i noSlash ih
    refine scan_copied found ?_ ih
    have stays : (readChar .code char tail.head?).2 = .code := by
      have plain : isQuote char = false := by simpa [isQuote, and_assoc] using noQuote
      simp only [readChar, plain, Bool.false_eq_true, ↓reduceIte, noDash, noSlash]
    rw [rendered_copy fun mark => noMark mark.2, stays]
    rfl

end Scan

/-! ## The result of `sql.format` -/

/-- The scan of a whole template. -/
theorem scan_template (conn : Connection) (template : Text) (values : List Value) :
    (scan conn values 1 0 template []).toOption.map (fun result => (concat result.1, result.2)) =
      rendered conn .code template values := by
  rw [scan_eq, List.drop_zero]
  simp only [concat, List.flatMap_nil, List.nil_append, Nat.zero_add]
  exact Option.map_id'

/-- With a literal for every value, a template that closes and has a placeholder for each. -/
theorem rendered_all {conn : Connection} {template result : Text} {values : List Value} :
    rendered conn .code template values = some (result, values.length) ↔
      closes .code template = true ∧ placeholders .code template = values.length ∧
        ∃ literals, values.mapM (storable conn) = some literals ∧ result = fill .code template literals := by
  simp only [rendered]
  constructor
  · intro same
    split_ifs at same with fits
    obtain ⟨literals, stored, both⟩ := Option.map_eq_some_iff.mp same
    obtain ⟨filled, count⟩ := Prod.mk.inj both
    rw [count, List.take_length] at stored
    exact ⟨fits.1, count, literals, stored, filled.symm⟩
  · rintro ⟨closed, count, literals, stored, rfl⟩
    rw [if_pos ⟨closed, count.le⟩, count, List.take_length, stored]
    rfl

theorem format_eq_ok_iff {conn : Connection} {template : Text} {values : List Value} {pieces : List Piece} :
    format conn (.string template) values = .ok pieces ↔
      (conn.kind = "userdata" ∨ conn.kind = "table") ∧
        scan conn values 1 0 template [] = .ok (pieces, values.length) := by
  simp only [format]
  by_cases kind : conn.kind ≠ "userdata" ∧ conn.kind ≠ "table"
  · rw [if_pos kind]
    apply iff_of_false
    · intro failed
      cases failed
    · rintro ⟨known, -⟩
      exact known.elim kind.1 kind.2
  · have known : conn.kind = "userdata" ∨ conn.kind = "table" := by
      simpa only [ne_eq, not_and_or, not_not] using kind
    rw [if_neg kind, and_iff_right known]
    cases scan conn values 1 0 template [] with
    | error message => simp
    | ok taken =>
      obtain ⟨out, used⟩ := taken
      simp only [Except.ok.injEq, Prod.mk.injEq]
      by_cases count : used = values.length
      · simp [count]
      · simp [count]

/-- `sql.format` puts out a text exactly when the quotes of the template close, each placeholder has its
value and the other way round, and SQL can store every value. The text is then the template with half
of each run of question marks, and the literals of the values in order after the odd ones. -/
theorem format_accepts_iff (conn : Connection) (template : Text) (values : List Value) (result : Text) :
    (∃ pieces, format conn (.string template) values = .ok pieces ∧ concat pieces = result) ↔
      (conn.kind = "userdata" ∨ conn.kind = "table") ∧ closes .code template = true ∧
        placeholders .code template = values.length ∧
        ∃ literals, values.mapM (storable conn) = some literals ∧ result = fill .code template literals := by
  rw [← rendered_all, ← scan_template, Option.map_eq_some_iff]
  constructor
  · rintro ⟨pieces, formatted, rfl⟩
    obtain ⟨known, scanned⟩ := format_eq_ok_iff.mp formatted
    refine ⟨known, (pieces, values.length), ?_, rfl⟩
    rw [scanned]
    rfl
  · rintro ⟨known, taken, scanned, same⟩
    cases found : scan conn values 1 0 template [] with
    | error message =>
      rw [found] at scanned
      cases scanned
    | ok out =>
      rw [found] at scanned
      cases scanned
      obtain ⟨text, used⟩ := Prod.mk.inj same
      refine ⟨taken.1, format_eq_ok_iff.mpr ⟨known, ?_⟩, text⟩
      rw [found, ← used]

end VcmpLua.Spec
