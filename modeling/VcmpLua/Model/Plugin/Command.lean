import VcmpLua.Model.Core.Text

/-! # Splitting a command

`OnPlayerCommand` of `plugin/callbacks.cpp`: the message of the player is split on spaces, and the
handlers get the first word, the others, and the text from the first argument on. A null pointer is
`none`.
-/

namespace VcmpLua.Model.Plugin

open VcmpLua.Model.Core

/-- What the handlers get after the player; `none` is nil. -/
structure CommandArguments where
  command : Option Text
  args : Option (List Text)
  text : Text
deriving DecidableEq, Repr

/-- The end of the word at `start`: `std::min(text.find(' ', start), text.size())`. -/
def wordEnd (text : Text) (start : ℕ) : ℕ := min ((text.find ' ' start).getD text.length) text.length

/-- A word ends after its first character. -/
theorem lt_wordEnd {text : Text} {pos start : ℕ} (found : text.findFirstNotOf ' ' pos = some start) :
    start < wordEnd text start := by
  have inside := (Text.findFrom_eq_some found).2.1
  obtain ⟨first, here, word⟩ := Text.findFrom_hit found
  cases space : text.find ' ' start with
  | none => simpa [wordEnd, space] using inside
  | some stop =>
    obtain ⟨below, inside', -⟩ := Text.findFrom_eq_some space
    obtain ⟨last, there, gap⟩ := Text.findFrom_hit space
    have different : start ≠ stop := by
      rintro rfl
      rw [here, Option.some_inj] at there
      subst there
      rw [decide_eq_true_eq] at word gap
      exact word gap
    simp only [wordEnd, space, Option.getD_some]
    omega

theorem advances {text : Text} {pos start : ℕ} (found : text.findFirstNotOf ' ' pos = some start) :
    text.length - wordEnd text start < text.length - pos := by
  have later := lt_wordEnd found
  obtain ⟨above, inside, -⟩ := Text.findFrom_eq_some found
  omega

/-- The loop, from the position `pos`: the words and where the second one starts. -/
def splitWords (text : Text) (pos : ℕ) (words : List Text) (rest : ℕ) : List Text × ℕ :=
  if pos < text.length then
    match _ : text.findFirstNotOf ' ' pos with
    | none => (words, rest)
    | some start =>
      splitWords text (wordEnd text start) (words ++ [text.substr start (wordEnd text start - start)])
        (if words.length = 1 then start else rest)
  else (words, rest)
termination_by text.length - pos
decreasing_by exact advances ‹_›

/-- `OnPlayerCommand`, up to `Emit`. -/
def onPlayerCommand (message : Option Text) : CommandArguments :=
  let text := message.getD []
  let (words, rest) := splitWords text 0 [] text.length
  match words with
  | [] => ⟨none, none, []⟩
  | [command] => ⟨some command, none, text.drop (min rest text.length)⟩
  | command :: args => ⟨some command, some args, text.drop (min rest text.length)⟩

end VcmpLua.Model.Plugin
