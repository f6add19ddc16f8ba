import Mathlib
import VcmpLua.Model.Modules.HttpRequest

/-! # The headers that libcurl sends

libcurl reads a custom header line back: a line with a colon sends a header, unless only white space
comes after the colon, which removes the header instead; a name with a semicolon sends an empty one.
Every table that `ReadHeaders` accepts becomes one line per entry without a line break or NUL, and
libcurl sends its headers exactly when no value is a non-empty string of white space only.
-/

namespace VcmpLua.Spec

open VcmpLua.Model.Core VcmpLua.Model.Lua VcmpLua.Model.Modules

/-- White space, for libcurl. -/
def isSpace (char : Char) : Bool := char ∈ [' ', '\t', '\n', '\x0b', '\x0c', '\r']

/-- What a custom header line makes libcurl do. -/
inductive CustomHeader where
  | sent (name value : Text)
  | suppressed (name : Text)
  | ignored
deriving DecidableEq, Repr

def customHeader (line : Text) : CustomHeader :=
  if ':' ∈ line then
    let name := line.takeWhile (· ≠ ':')
    let value := line.drop (name.length + 1)
    if value.all isSpace then .suppressed name else .sent name value
  else if ';' ∈ line then
    let name := line.takeWhile (· ≠ ';')
    if (line.drop (name.length + 1)).all isSpace then .sent name [] else .ignored
  else .ignored

def CustomHeader.sent? : CustomHeader → Option (Text × Text)
  | .sent name value => some (name, value)
  | _ => none

def sentHeaders (lines : List Text) : List (Text × Text) := lines.filterMap fun line => (customHeader line).sent?

def trimSpace (text : Text) : Text := (text.dropWhile isSpace).rdropWhile isSpace

/-- One clean line for each entry, and each entry sent as exactly one header. -/
structure Delivered (entries : List Entry) (lines : List Text) : Prop where
  one_each : lines.length = entries.length
  clean : ∀ line ∈ lines, '\r' ∉ line ∧ '\n' ∉ line ∧ '\x00' ∉ line
  sent : ∀ entry ∈ entries, ∃ name value, entry.1 = .string name ∧ view entry.2 = some value ∧
    ∃ received, (sentHeaders lines).filter (·.1 = name) = [(name, received)] ∧ trimSpace received = trimSpace value
  none_suppressed : ∀ line ∈ lines, ∀ name, customHeader line ≠ .suppressed name

end VcmpLua.Spec

namespace VcmpLua.Model.Modules

open VcmpLua.Model.Core VcmpLua.Model.Lua VcmpLua.Model.Bindings VcmpLua.Spec

/-! ## Numbers as header values -/

/-- The characters that numbers are written with. -/
def numberChar (char : Char) : Bool := char.isDigit || char ∈ ['+', '-', '.', 'e', 'i', 'n', 'f', 'a']

theorem numberChar_decimal (n : ℕ) : ∀ char ∈ Sql.decimal n, numberChar char = true := by
  intro char member
  rw [numberChar, Nat.isDigit_of_mem_toDigits (by decide) (by decide) member]
  rfl

theorem numberChar_fraction {digits : Text} (all : ∀ char ∈ digits, numberChar char = true) :
    ∀ char ∈ Sql.fraction digits, numberChar char = true := by
  unfold Sql.fraction
  have kept : ∀ char ∈ digits.reverse.dropWhile (· = '0'), numberChar char = true := fun char member =>
    all char (List.mem_reverse.mp ((List.dropWhile_suffix _).subset member))
  cases split : digits.reverse.dropWhile (· = '0') with
  | nil => simp
  | cons last rest =>
    rw [split] at kept
    intro char member
    rcases List.mem_cons.mp member with rfl | inside
    · rfl
    · exact kept char (List.mem_reverse.mp inside)

theorem numberChar_fixedText (n : ℕ) (power : ℤ) : ∀ char ∈ Sql.fixedText (Sql.decimal n) power, numberChar char = true := by
  have all := numberChar_decimal n
  unfold Sql.fixedText
  intro char member
  split_ifs at member
  · rcases List.mem_append.mp member with front | back
    · exact all char (List.mem_of_mem_take front)
    · exact numberChar_fraction (fun other inside => all other (List.mem_of_mem_drop inside)) char back
  · rcases List.mem_cons.mp member with rfl | back
    · rfl
    · refine numberChar_fraction (fun other inside => ?_) char back
      rcases List.mem_append.mp inside with padding | digit
      · rw [List.eq_of_mem_replicate padding]
        rfl
      · exact all other digit

theorem numberChar_scientificText (n : ℕ) (power : ℤ) :
    ∀ char ∈ Sql.scientificText (Sql.decimal n) power, numberChar char = true := by
  have all := numberChar_decimal n
  unfold Sql.scientificText
  intro char member
  rcases List.mem_append.mp member with front | back
  · rcases List.mem_append.mp front with first | rest
    · exact all char (List.mem_of_mem_take first)
    · exact numberChar_fraction (fun other inside => all other (List.mem_of_mem_drop inside)) char rest
  · rcases List.mem_cons.mp back with rfl | back
    · rfl
    · rcases List.mem_cons.mp back with rfl | exponent
      · split_ifs <;> rfl
      · split_ifs at exponent
        · rcases List.mem_cons.mp exponent with rfl | digit
          · rfl
          · exact numberChar_decimal _ char digit
        · exact numberChar_decimal _ char exponent

theorem decimal_ne_nil (n : ℕ) : Sql.decimal n ≠ [] := Nat.toDigits_ne_nil

theorem magnitudeText_spec (mantissa : ℕ) (exponent : ℤ) :
    magnitudeText mantissa exponent ≠ [] ∧ ∀ char ∈ magnitudeText mantissa exponent, numberChar char = true := by
  unfold magnitudeText
  simp only
  split_ifs
  · exact ⟨List.cons_ne_nil _ _, List.all_eq_true.mp rfl⟩
  · refine ⟨?_, numberChar_fixedText _ _⟩
    unfold Sql.fixedText
    split_ifs
    · simp [decimal_ne_nil]
    · exact List.cons_ne_nil _ _
  · refine ⟨?_, numberChar_scientificText _ _⟩
    simp [Sql.scientificText]

theorem signed_spec {text : Text} (negative : Bool) (spec : text ≠ [] ∧ ∀ char ∈ text, numberChar char = true) :
    signed negative text ≠ [] ∧ ∀ char ∈ signed negative text, numberChar char = true := by
  cases negative with
  | false => exact spec
  | true => exact ⟨List.cons_ne_nil _ _, List.forall_mem_cons.mpr ⟨rfl, spec.2⟩⟩

theorem markFloat_spec {text : Text} (spec : text ≠ [] ∧ ∀ char ∈ text, numberChar char = true) :
    markFloat text ≠ [] ∧ ∀ char ∈ markFloat text, numberChar char = true := by
  unfold markFloat
  split_ifs
  · exact ⟨List.append_ne_nil_of_left_ne_nil spec.1 _, List.forall_mem_append.mpr ⟨spec.2, List.all_eq_true.mp rfl⟩⟩
  · exact spec

/-- A number is never empty as text, and never has white space. -/
theorem numberText_spec (number : Number) : number.text ≠ [] ∧ ∀ char ∈ number.text, numberChar char = true := by
  cases number with
  | integer value =>
    rw [Number.text, Sql.integerText]
    split_ifs
    · exact signed_spec true ⟨decimal_ne_nil _, numberChar_decimal _⟩
    · exact ⟨decimal_ne_nil _, numberChar_decimal _⟩
  | finite negative mantissa exponent => exact markFloat_spec (signed_spec negative (magnitudeText_spec mantissa exponent))
  | infinite negative => exact signed_spec negative ⟨by decide, List.all_eq_true.mp rfl⟩
  | nan negative => exact signed_spec negative ⟨by decide, List.all_eq_true.mp rfl⟩

theorem isSpace_of_numberChar {char : Char} (number : numberChar char = true) : isSpace char = false := by
  rw [← Bool.not_eq_true, isSpace, decide_eq_true_eq]
  intro blank
  have none : ∀ other ∈ [' ', '\t', '\n', '\x0b', '\x0c', '\r'], (!numberChar other) = true :=
    List.all_eq_true.mp rfl
  have outside := none char blank
  rw [number] at outside
  cases outside

theorem exists_not_isSpace (number : Number) : ∃ char ∈ number.text, isSpace char = false := by
  obtain ⟨nonempty, all⟩ := numberText_spec number
  obtain ⟨char, member⟩ := List.exists_mem_of_ne_nil _ nonempty
  exact ⟨char, member, isSpace_of_numberChar (all char member)⟩

/-! ## One line -/

/-- What an accepted entry is. -/
structure Accepted (entry : Entry) (name value : Text) : Prop where
  key : entry.1 = .string name
  view : view entry.2 = some value
  token : ∀ char ∈ name, tokenChar char = true
  clean : ∀ char ∈ value, char ∉ ['\r', '\n', '\x00']

theorem readHeader_ok {entry : Entry} {line : Text} (accepted : readHeader entry = .ok line) :
    ∃ name value, Accepted entry name value ∧ line = headerLine name value := by
  obtain ⟨key, held⟩ := entry
  cases key with
  | string name =>
    simp only [readHeader] at accepted
    split_ifs at accepted with invalid
    cases shown : view held with
    | none =>
      rw [shown] at accepted
      cases accepted
    | some value =>
      rw [shown] at accepted
      simp only at accepted
      split_ifs at accepted with breaks
      cases accepted
      simp only [List.any_eq_true, not_exists, not_and, decide_eq_true_eq] at breaks
      refine ⟨name, value, ⟨rfl, shown, ?_, breaks⟩, rfl⟩
      rw [not_or, Bool.not_eq_true', Bool.not_eq_false, List.all_eq_true] at invalid
      exact invalid.2
  | _ => cases accepted

theorem ne_of_tokenChar {char other : Char} (token : tokenChar char = true) (outside : tokenChar other = false) :
    char ≠ other := by
  rintro rfl
  rw [token] at outside
  cases outside

section Line

variable {entry : Entry} {name value : Text}

theorem headerLine_clean (accepted : Accepted entry name value) :
    ∀ char ∈ headerLine name value, char ∉ ['\r', '\n', '\x00'] := by
  have names : ∀ char ∈ name, char ∉ ['\r', '\n', '\x00'] := by
    intro char member breaks
    have outside : ∀ other ∈ ['\r', '\n', '\x00'], (!tokenChar other) = true := List.all_eq_true.mp rfl
    have absent := outside char breaks
    rw [accepted.token char member] at absent
    cases absent
  unfold headerLine
  split_ifs
  · exact List.forall_mem_append.mpr ⟨names, by simp⟩
  · refine List.forall_mem_append.mpr ⟨names, List.forall_mem_cons.mpr ⟨by simp, ?_⟩⟩
    exact List.forall_mem_cons.mpr ⟨by simp, accepted.clean⟩

theorem cString_headerLine (accepted : Accepted entry name value) :
    (headerLine name value).cString = headerLine name value := by
  rw [Text.cString, List.takeWhile_eq_self_iff]
  intro char member
  have clean := headerLine_clean accepted char member
  rw [decide_eq_true_eq]
  rintro rfl
  exact clean (by decide)

theorem takeWhile_name (token : ∀ char ∈ name, tokenChar char = true) {stop : Char} (outside : tokenChar stop = false)
    (rest : Text) : (name ++ stop :: rest).takeWhile (· ≠ stop) = name := by
  have all : ∀ char ∈ name, decide (char ≠ stop) = true := by
    intro char member
    rw [decide_eq_true_eq]
    exact ne_of_tokenChar (token char member) outside
  rw [List.takeWhile_append_of_pos all, List.takeWhile_cons_of_neg (by simp), List.append_nil]

/-- How libcurl reads the line of an entry. -/
theorem customHeader_headerLine (accepted : Accepted entry name value) :
    customHeader (headerLine name value) =
      if value = [] then .sent name [] else if value.all isSpace then .suppressed name else .sent name (' ' :: value) := by
  have absent : ':' ∉ name := by
    intro member
    exact ne_of_tokenChar (accepted.token ':' member) rfl rfl
  by_cases empty : value = []
  · subst empty
    have noColon : ':' ∉ headerLine name [] := by
      simp [headerLine, absent]
    rw [customHeader, if_neg noColon, if_pos (by simp [headerLine])]
    simp only [headerLine, List.isEmpty_nil, if_true]
    rw [takeWhile_name accepted.token rfl, List.drop_length_add_append]
    rfl
  · have line : headerLine name value = name ++ ':' :: ' ' :: value := by
      rw [headerLine, if_neg (by simpa using empty)]
    rw [customHeader, line, if_pos (by simp), if_neg empty]
    simp only
    rw [takeWhile_name accepted.token rfl, List.drop_length_add_append]
    rfl

end Line

theorem trimSpace_cons (text : Text) : trimSpace (' ' :: text) = trimSpace text := by
  rw [trimSpace, List.dropWhile_cons_of_pos (by decide), trimSpace]

/-! ## All lines -/

/-- The entries as names with values, and the lines that libcurl gets for them. -/
theorem readHeaders_ok {entries : List Entry} {lines : List Text} (accepted : readHeaders entries = .ok lines) :
    ∃ items : List (Text × Text), List.Forall₂ (fun entry item => Accepted entry item.1 item.2) entries items ∧
      headerList lines = items.map fun item => headerLine item.1 item.2 := by
  induction entries generalizing lines with
  | nil =>
    cases accepted
    exact ⟨[], List.Forall₂.nil, rfl⟩
  | cons entry rest ih =>
    rw [readHeaders] at accepted
    cases one : readHeader entry with
    | error e =>
      rw [one] at accepted
      cases accepted
    | ok line =>
      cases others : readHeaders rest with
      | error e =>
        rw [one, others] at accepted
        cases accepted
      | ok more =>
        rw [one, others] at accepted
        cases accepted
        obtain ⟨name, value, first, rfl⟩ := readHeader_ok one
        obtain ⟨items, later, same⟩ := ih others
        refine ⟨(name, value) :: items, List.Forall₂.cons first later, ?_⟩
        rw [headerList, List.map_cons, cString_headerLine first, List.map_cons, ← same]
        rfl

theorem exists_item {entries : List Entry} {items : List (Text × Text)}
    (all : List.Forall₂ (fun entry item => Accepted entry item.1 item.2) entries items) :
    (∀ entry ∈ entries, ∃ item ∈ items, Accepted entry item.1 item.2) ∧
      ∀ item ∈ items, ∃ entry ∈ entries, Accepted entry item.1 item.2 := by
  induction all with
  | nil => exact ⟨by simp, by simp⟩
  | cons first _ ih =>
    constructor
    · refine List.forall_mem_cons.mpr ⟨⟨_, List.mem_cons_self .., first⟩, fun entry member => ?_⟩
      obtain ⟨item, inside, accepted⟩ := ih.1 entry member
      exact ⟨item, List.mem_cons_of_mem _ inside, accepted⟩
    · refine List.forall_mem_cons.mpr ⟨⟨_, List.mem_cons_self .., first⟩, fun item member => ?_⟩
      obtain ⟨entry, inside, accepted⟩ := ih.2 item member
      exact ⟨entry, List.mem_cons_of_mem _ inside, accepted⟩

theorem keys_of_accepted {entries : List Entry} {items : List (Text × Text)}
    (all : List.Forall₂ (fun entry item => Accepted entry item.1 item.2) entries items) :
    entries.map Prod.fst = items.map fun item => .string item.1 := by
  induction all with
  | nil => rfl
  | cons first _ ih => rw [List.map_cons, List.map_cons, first.key, ih]

/-- No value is a non-empty string of white space only. -/
def NoBlankValue (entries : List Entry) : Prop :=
  ∀ entry ∈ entries, ∀ value, entry.2 = .string value → value = [] ∨ ∃ char ∈ value, isSpace char = false

/-- The value of a header, as libcurl sends it. -/
def receivedValue (value : Text) : Text := if value = [] then [] else ' ' :: value

theorem trimSpace_receivedValue (value : Text) : trimSpace (receivedValue value) = trimSpace value := by
  unfold receivedValue
  split_ifs with empty
  · rw [empty]
  · rw [trimSpace, List.dropWhile_cons_of_pos (by decide), trimSpace]

theorem customHeader_of_visible {entry : Entry} {name value : Text} (accepted : Accepted entry name value)
    (visible : ∀ text, entry.2 = .string text → text = [] ∨ ∃ char ∈ text, isSpace char = false) :
    customHeader (headerLine name value) = .sent name (receivedValue value) := by
  have shown : value = [] ∨ ∃ char ∈ value, isSpace char = false := by
    have view := accepted.view
    cases held : entry.2 with
    | string text =>
      rw [held] at view
      cases view
      exact visible _ held
    | number number =>
      rw [held] at view
      cases view
      exact Or.inr (exists_not_isSpace number)
    | _ =>
      rw [held] at view
      cases view
  rw [customHeader_headerLine accepted, receivedValue]
  rcases shown with empty | ⟨char, member, ink⟩
  · rw [if_pos empty, if_pos empty]
  · have nonempty : value ≠ [] := List.ne_nil_of_mem member
    have mixed : ¬ value.all isSpace = true := by
      rw [List.all_eq_true]
      intro all
      rw [all char member] at ink
      cases ink
    rw [if_neg nonempty, if_neg nonempty, if_neg mixed]

/-- Which tables of headers libcurl sends as they are. -/
theorem headers_delivered_iff (table : Table) {lines : List Text} (accepted : readHeaders table.entries = .ok lines) :
    Delivered table.entries (headerList lines) ↔ NoBlankValue table.entries := by
  obtain ⟨items, all, same⟩ := readHeaders_ok accepted
  obtain ⟨ofEntry, ofItem⟩ := exists_item all
  rw [same]
  constructor
  · intro delivered entry member value string
    obtain ⟨⟨name, value'⟩, inside, one⟩ := ofEntry entry member
    have same : value' = value := by
      have view := one.view
      rw [string] at view
      cases view
      rfl
    subst same
    by_contra blank
    rw [not_or, not_exists] at blank
    have spaces : value'.all isSpace = true := by
      rw [List.all_eq_true]
      intro char among
      by_contra ink
      exact blank.2 char ⟨among, Bool.not_eq_true _ ▸ ink⟩
    apply delivered.none_suppressed _ (List.mem_map_of_mem inside) name
    rw [customHeader_headerLine one, if_neg blank.1, if_pos spaces]
  · intro visible
    have sends : ∀ item ∈ items, customHeader (headerLine item.1 item.2) = .sent item.1 (receivedValue item.2) := by
      intro item inside
      obtain ⟨entry, member, one⟩ := ofItem item inside
      exact customHeader_of_visible one (visible entry member)
    have sent : sentHeaders (items.map fun item => headerLine item.1 item.2) =
        items.map fun item => (item.1, receivedValue item.2) := by
      rw [sentHeaders, List.filterMap_map, ← List.filterMap_eq_map]
      apply List.filterMap_congr
      intro item inside
      rw [Function.comp_apply, sends item inside]
      rfl
    have distinct : ((items.map fun item => (item.1, receivedValue item.2)).map Prod.fst).Nodup := by
      have keys := table.distinct
      rw [keys_of_accepted all] at keys
      rw [List.map_map]
      exact List.Nodup.of_map Value.string (by rwa [List.map_map])
    refine ⟨by rw [List.length_map, all.length_eq], fun line member => ?_, fun entry member => ?_, fun line member name => ?_⟩
    · obtain ⟨item, inside, rfl⟩ := List.mem_map.mp member
      obtain ⟨entry, -, one⟩ := ofItem item inside
      have clean := headerLine_clean one
      exact ⟨fun held => clean _ held (by simp), fun held => clean _ held (by simp), fun held => clean _ held (by simp)⟩
    · obtain ⟨item, inside, one⟩ := ofEntry entry member
      refine ⟨item.1, item.2, one.key, one.view, receivedValue item.2, ?_, trimSpace_receivedValue _⟩
      rw [sent]
      exact Assoc.filter_key distinct (List.mem_map_of_mem inside)
    · obtain ⟨item, inside, rfl⟩ := List.mem_map.mp member
      rw [sends item inside]
      exact CustomHeader.noConfusion

/-- `{["X-Note"] = "", ["X-Count"] = 3}`. -/
def plainHeaders : Table where
  entries := [(.string "X-Note".toList, .string []), (.string "X-Count".toList, .number (.integer 3))]
  distinct := by decide
  present := by decide
  border := by decide

theorem headers_delivered_iff_plain :
    readHeaders plainHeaders.entries = .ok ["X-Note;".toList, "X-Count: 3".toList] ∧
      Delivered plainHeaders.entries (headerList ["X-Note;".toList, "X-Count: 3".toList]) := by
  have accepted : readHeaders plainHeaders.entries = .ok ["X-Note;".toList, "X-Count: 3".toList] := by rfl
  refine ⟨accepted, (headers_delivered_iff plainHeaders accepted).mpr ?_⟩
  intro entry member value string
  rcases List.mem_cons.mp member with rfl | member
  · cases string
    exact Or.inl rfl
  · cases List.mem_singleton.mp member
    cases string

/-- `{["X-Note"] = " "}`. -/
def blankHeader : Table where
  entries := [(.string "X-Note".toList, .string [' '])]
  distinct := by decide
  present := by decide
  border := by decide

/-- A value that is one space is written as the line that removes the header. -/
theorem blank_header_removed :
    ¬ ∀ (table : Table) (lines : List Text), readHeaders table.entries = .ok lines →
      Delivered table.entries (headerList lines) := by
  intro always
  have delivered := always blankHeader ["X-Note:  ".toList] rfl
  exact delivered.none_suppressed _ (List.mem_cons_self ..) "X-Note".toList rfl

end VcmpLua.Model.Modules
