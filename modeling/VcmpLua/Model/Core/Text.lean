import Mathlib

/-! # Strings of bytes

A `std::string` or a Lua string is its list of bytes, each written as the character with that code.
Positions are those of `std::string_view`; `none` is `npos`.
-/

namespace VcmpLua.Model.Core

abbrev Text := List Char

namespace Text

/-- The position of the first character with `p` at `pos` or after it. -/
def findFrom (p : Char → Bool) (text : Text) (pos : ℕ) : Option ℕ := ((text.drop pos).findIdx? p).map (pos + ·)

def find (text : Text) (char : Char) (pos : ℕ) : Option ℕ := findFrom (· = char) text pos

def findFirstNotOf (text : Text) (char : Char) (pos : ℕ) : Option ℕ := findFrom (· ≠ char) text pos

def substr (text : Text) (pos count : ℕ) : Text := (text.drop pos).take count

/-- What a reader of a `const char*` sees: the bytes before the first NUL. -/
def cString (text : Text) : Text := text.takeWhile (· ≠ '\x00')

variable {p : Char → Bool} {text : Text} {pos : ℕ}

theorem findFrom_eq_none (missing : findFrom p text pos = none) : (text.drop pos).dropWhile (!p ·) = [] := by
  have none : (text.drop pos).findIdx? p = none := Option.map_eq_none_iff.mp missing
  rw [List.findIdx?_eq_none_iff] at none
  rw [List.dropWhile_eq_nil_iff]
  intro char member
  rw [none char member]
  rfl

theorem findFrom_hit {found : ℕ} (hit : findFrom p text pos = some found) :
    ∃ char, text[found]? = some char ∧ p char = true := by
  obtain ⟨index, first, rfl⟩ := Option.map_eq_some_iff.mp hit
  obtain ⟨bound, holds, -⟩ := List.findIdx?_eq_some_iff_getElem.mp first
  refine ⟨(text.drop pos)[index], ?_, holds⟩
  rw [← List.getElem?_drop, List.getElem?_eq_getElem bound]

/-- Where a search ends: it has passed what comes before the first match. -/
theorem findFrom_eq_some {found : ℕ} (hit : findFrom p text pos = some found) :
    pos ≤ found ∧ found < text.length ∧ text.substr pos (found - pos) = (text.drop pos).takeWhile (!p ·) ∧
      text.drop found = (text.drop pos).dropWhile (!p ·) := by
  obtain ⟨index, first, rfl⟩ := Option.map_eq_some_iff.mp hit
  rw [List.findIdx?_eq_some_iff_findIdx_eq] at first
  obtain ⟨bound, rfl⟩ := first
  rw [List.length_drop] at bound
  have same : (text.drop pos).findIdx (fun char => !!p char) = (text.drop pos).findIdx p := by
    simp only [Bool.not_not]
  refine ⟨Nat.le_add_right _ _, by omega, ?_, ?_⟩
  · rw [List.takeWhile_eq_take_findIdx_not, same, substr, Nat.add_sub_cancel_left]
  · rw [List.dropWhile_eq_drop_findIdx_not, same, List.drop_drop]

end Text

end VcmpLua.Model.Core
