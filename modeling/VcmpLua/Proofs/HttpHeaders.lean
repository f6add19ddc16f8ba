import Mathlib
import VcmpLua.Lib.Assoc
import VcmpLua.Model.Modules.HttpHeaders

/-! # The headers table of a response

What a response says in its header lines, read off the lines themselves: the lines after the last
status line, the ones with a name before a colon, and the values that each name has. The callback
and the table that `Complete` builds later give exactly this, for any lines in any order.
-/

namespace VcmpLua.Spec

open VcmpLua.Model.Core

/-- A line without its line break. -/
def lineText (line : Text) : Text := line.rdropWhile fun char => char ∈ ['\r', '\n']

def isStatusLine (line : Text) : Bool := "HTTP/".toList <+: line

/-- The lines after the last status line. -/
def lastResponse (lines : List Text) : List Text := lines.rtakeWhile fun line => !isStatusLine line

def isBlank (char : Char) : Bool := char ∈ [' ', '\t']

def strip (text : Text) : Text := (text.dropWhile isBlank).rdropWhile isBlank

/-- Name and value of a line with a colon at a position above 0. -/
def headerField (line : Text) : Option (String × String) :=
  let text := lineText line
  let name := text.takeWhile (· ≠ ':')
  if ':' ∈ text ∧ name ≠ [] then
    some (String.ofList (name.map Char.toLower), String.ofList (strip (text.drop (name.length + 1))))
  else none

/-- The well-formed header lines of the last response, in order of arrival. -/
def headerFields (lines : List Text) : List (String × String) := (lastResponse lines).filterMap headerField

/-- The values of a header, none when no line has its name. -/
def headerValue (lines : List Text) (name : String) : Option String :=
  let values := Assoc.valuesOf name (headerFields lines)
  if values = [] then none else some (", ".intercalate values)

theorem lastResponse_concat (lines : List Text) (line : Text) :
    lastResponse (lines ++ [line]) = if isStatusLine line then [] else lastResponse lines ++ [line] := by
  rw [lastResponse, List.rtakeWhile_concat]
  cases isStatusLine line <;> rfl

end VcmpLua.Spec

namespace VcmpLua.Model.Modules

open VcmpLua.Model.Core VcmpLua.Spec

section Lines

variable (line : Text)

theorem lineText_eq : (line.rdropWhile fun char => char = '\r' ∨ char = '\n') = lineText line := by
  rw [lineText]
  congr 1
  funext char
  simp

theorem strip_eq (text : Text) :
    ((text.dropWhile fun char => char = ' ' ∨ char = '\t').rdropWhile fun char => char = ' ' ∨ char = '\t') =
      strip text := by
  rw [strip, show (fun char => decide (char = ' ' ∨ char = '\t')) = isBlank by funext char; simp [isBlank]]

/-- A line break at the end says nothing about the beginning of a line. -/
theorem isStatusLine_lineText : isStatusLine (lineText line) = isStatusLine line := by
  rw [isStatusLine, isStatusLine, decide_eq_decide]
  constructor
  · intro status
    exact status.trans (List.rdropWhile_prefix _ _)
  · rintro ⟨rest, rfl⟩
    rw [lineText, List.rdropWhile, List.reverse_append, List.dropWhile_append]
    split_ifs with empty
    · exact List.prefix_rfl
    · rw [List.reverse_append, List.reverse_reverse]
      exact List.prefix_append _ _

/-- The position of the first colon is the length of the name. -/
theorem find_colon (text : Text) :
    Text.find text ':' 0 = if ':' ∈ text then some (text.takeWhile (· ≠ ':')).length else none := by
  rw [Text.find, Text.findFrom, List.drop_zero]
  split_ifs with colon
  · have found : text.findIdx? (· = ':') = some (text.findIdx (· = ':')) :=
      List.findIdx?_eq_some_of_exists ⟨':', colon, rfl⟩
    rw [found, Option.map_some, Nat.zero_add, List.takeWhile_eq_take_findIdx_not, List.length_take]
    simp only [ne_eq, decide_not, Bool.not_not]
    rw [min_eq_left List.findIdx_le_length]
  · have missing : text.findIdx? (· = ':') = none := by
      rw [List.findIdx?_eq_none_iff]
      intro char member
      rw [decide_eq_false_iff_not]
      rintro rfl
      exact colon member
    rw [missing]
    rfl

theorem header_eq (headers : List (String × String)) :
    Transfer.header headers line = if isStatusLine line then [] else headers ++ (headerField line).toList := by
  rw [← isStatusLine_lineText]
  simp only [Transfer.header, lineText_eq, strip_eq, find_colon, isStatusLine, decide_eq_true_eq, headerField]
  split_ifs with status colon named named
  · rfl
  · obtain ⟨length, positive⟩ := Nat.exists_eq_succ_of_ne_zero (List.length_pos_iff.mpr named.2).ne'
    have name : Text.substr (lineText line) 0 (length + 1) = (lineText line).takeWhile (· ≠ ':') := by
      rw [Text.substr, List.drop_zero, ← Nat.succ_eq_add_one, ← positive]
      exact (List.prefix_iff_eq_take.mp (List.takeWhile_prefix _)).symm
    simp only [positive, name, Option.toList_some]
  · have empty : (lineText line).takeWhile (· ≠ ':') = [] := by
      by_contra nonempty
      exact named ⟨colon, nonempty⟩
    rw [empty]
    exact (List.append_nil _).symm
  · exact absurd named.1 colon
  · exact (List.append_nil _).symm

end Lines

/-- What the callback has collected after any lines. -/
theorem foldl_header (lines : List Text) : lines.foldl Transfer.header [] = headerFields lines := by
  induction lines using List.reverseRecOn with
  | nil => rfl
  | append_singleton lines line ih =>
    rw [List.foldl_concat, ih, header_eq, headerFields, headerFields, lastResponse_concat]
    cases isStatusLine line with
    | true => rfl
    | false =>
      rw [if_neg Bool.false_ne_true, if_neg Bool.false_ne_true, List.filterMap_append]
      cases field : headerField line with
      | none => rw [List.filterMap_cons_none field, List.filterMap_nil, Option.toList_none]
      | some _ => rw [List.filterMap_cons_some field, List.filterMap_nil, Option.toList_some]

theorem setHeader_eq : setHeader = Assoc.insertWith (fun old new => old ++ ", " ++ new) := by
  rfl

theorem combined_eq_intercalate (values : List String) :
    Assoc.combined (fun old new => old ++ ", " ++ new) values =
      if values = [] then none else some (", ".intercalate values) := by
  cases values with
  | nil => rfl
  | cons first rest =>
    rw [Assoc.combined, if_neg (List.cons_ne_nil _ _)]
    congr 1
    induction rest generalizing first with
    | nil => rfl
    | cons next rest ih => exact ih (first ++ ", " ++ next)

/-- The headers table has the names of the last response as its keys, each once and with the values
of all its lines. -/
theorem headers_folded (outcome : Outcome) (lines : List Text) :
    ∃ table, Http.answer { outcome with failure := none, headers := lines.foldl Transfer.header [] } =
        .response outcome.status (outcome.url.getD "") outcome.body table ∧
      (table.map Prod.fst).Nodup ∧
      (∀ name, name ∈ table.map Prod.fst ↔ ∃ line ∈ lastResponse lines, ∃ value, headerField line = some (name, value)) ∧
      ∀ name, table.lookup name = headerValue lines name := by
  refine ⟨(headerFields lines).foldl setHeader [], ?_, ?_, fun name => ?_, fun name => ?_⟩
  · rw [foldl_header]
    rfl
  · rw [setHeader_eq]
    exact Assoc.nodup_fold _
  · rw [setHeader_eq, Assoc.mem_keys_fold]
    simp only [headerFields, List.mem_map, List.mem_filterMap, Prod.exists, exists_and_right, exists_eq_right]
    constructor
    · rintro ⟨value, line, member, field⟩
      exact ⟨line, member, value, field⟩
    · rintro ⟨line, member, value, field⟩
      exact ⟨value, line, member, field⟩
  · rw [setHeader_eq, Assoc.lookup_fold, combined_eq_intercalate]
    rfl

end VcmpLua.Model.Modules
