import VcmpLua.Lib.Runs
import VcmpLua.Model.Plugin.Command

/-! # Commands are split into their words

The loop of `OnPlayerCommand` takes one word a round. From a position on it adds the words of what is
left, and it remembers where the second word starts, so the text it passes is the rest of the message
from there.
-/

namespace VcmpLua.Model.Plugin

open Runs VcmpLua.Model.Core

/-- The words of a message. -/
def spaced (text : Text) : List Text := words (· = ' ') text

/-! ## One round of the loop -/

theorem splitWords_end {text : Text} {pos : ℕ} (none : (text.drop pos).dropWhile (· = ' ') = []) (words : List Text)
    (rest : ℕ) : splitWords text pos words rest = (words, rest) := by
  rw [splitWords]
  by_cases more : pos < text.length
  · rw [if_pos more]
    split
    · rfl
    · rename_i start found
      obtain ⟨-, inside, -, left⟩ := Text.findFrom_eq_some found
      have empty : text.drop start = [] := by simpa [left] using none
      rw [List.drop_eq_nil_iff] at empty
      omega
  · rw [if_neg more]

/-- The word that starts at `start`, and what is left after it. -/
structure WordAt (text : Text) (pos start : ℕ) : Prop where
  shorter : text.length - wordEnd text start < text.length - pos
  begins : text.drop start = (text.drop pos).dropWhile (· = ' ')
  inside : start < text.length
  word : text.substr start (wordEnd text start - start) = (text.drop start).takeWhile (· ≠ ' ')
  after : text.drop (wordEnd text start) = (text.drop start).dropWhile (· ≠ ' ')

theorem wordAt_of_found {text : Text} {pos start : ℕ} (found : text.findFirstNotOf ' ' pos = some start) :
    WordAt text pos start := by
  obtain ⟨-, inside, -, begins⟩ := Text.findFrom_eq_some found
  refine ⟨advances found, by simpa using begins, inside, ?_, ?_⟩
  · cases space : text.find ' ' start with
    | none =>
      have whole := Text.findFrom_eq_none space
      have all := List.takeWhile_append_dropWhile (p := fun char => !decide (char = ' ')) (l := text.drop start)
      rw [whole, List.append_nil] at all
      simp only [wordEnd, space, Option.getD_none, Nat.min_self, Text.substr, ne_eq, decide_not]
      rw [all, List.take_of_length_le (by simp)]
    | some stop =>
      obtain ⟨-, inside', taken, -⟩ := Text.findFrom_eq_some space
      simp only [wordEnd, space, Option.getD_some, ne_eq, decide_not]
      rw [Nat.min_eq_left (Nat.le_of_lt inside'), taken]
  · cases space : text.find ' ' start with
    | none =>
      have whole := Text.findFrom_eq_none space
      simp only [wordEnd, space, Option.getD_none, Nat.min_self, ne_eq, decide_not]
      rw [whole, List.drop_length]
    | some stop =>
      obtain ⟨-, inside', -, left⟩ := Text.findFrom_eq_some space
      simp only [wordEnd, space, Option.getD_some, ne_eq, decide_not]
      rw [Nat.min_eq_left (Nat.le_of_lt inside'), left]

theorem splitWords_word {text : Text} {pos : ℕ} (more : (text.drop pos).dropWhile (· = ' ') ≠ []) (words : List Text)
    (rest : ℕ) : ∃ start, WordAt text pos start ∧ splitWords text pos words rest =
      splitWords text (wordEnd text start) (words ++ [(text.drop start).takeWhile (· ≠ ' ')])
        (if words.length = 1 then start else rest) := by
  have inside : pos < text.length := by
    by_contra beyond
    rw [List.drop_eq_nil_of_le (Nat.le_of_not_lt beyond)] at more
    exact more rfl
  cases found : text.findFirstNotOf ' ' pos with
  | none =>
    have nothing := Text.findFrom_eq_none found
    refine absurd ?_ more
    simpa using nothing
  | some start =>
    have word := wordAt_of_found found
    refine ⟨start, word, ?_⟩
    conv_lhs => unfold splitWords
    rw [if_pos inside, ← word.word]
    split
    · rename_i missing
      rw [found] at missing
      cases missing
    · rename_i other found'
      rw [found, Option.some_inj] at found'
      rw [found']

/-- The words of a text are its first word and those after it. -/
theorem WordAt.spaced_eq {text : Text} {pos start : ℕ} (word : WordAt text pos start) :
    spaced (text.drop pos) = (text.drop start).takeWhile (· ≠ ' ') :: spaced (text.drop (wordEnd text start)) := by
  have more : (text.drop pos).dropWhile (· = ' ') ≠ [] := by
    rw [← word.begins, ne_eq, List.drop_eq_nil_iff, not_le]
    exact word.inside
  rw [spaced, words_eq more, ← word.begins, word.after]
  simp only [spaced, ne_eq, decide_not]

/-! ## The whole loop -/

/-- From a position on, the loop adds the words of what is left. -/
theorem splitWords_words (text : Text) (pos : ℕ) (words : List Text) (rest : ℕ) :
    (splitWords text pos words rest).1 = words ++ spaced (text.drop pos) := by
  induction length : text.length - pos using Nat.strong_induction_on generalizing pos words rest with
  | _ length' ih =>
    by_cases none : (text.drop pos).dropWhile (· = ' ') = []
    · rw [splitWords_end none, spaced, words_eq_nil none, List.append_nil]
    · obtain ⟨start, word, step⟩ := splitWords_word none words rest
      rw [step, ih _ (length ▸ word.shorter) _ _ _ rfl, word.spaced_eq, List.append_assoc]
      rfl

/-- After the second word the loop does not move the start of the rest. -/
theorem splitWords_rest (text : Text) (pos : ℕ) (words : List Text) (rest : ℕ) (two : 2 ≤ words.length) :
    (splitWords text pos words rest).2 = rest := by
  induction length : text.length - pos using Nat.strong_induction_on generalizing pos words with
  | _ length' ih =>
    by_cases none : (text.drop pos).dropWhile (· = ' ') = []
    · rw [splitWords_end none]
    · obtain ⟨start, word, step⟩ := splitWords_word none words rest
      have more : 2 ≤ (words ++ [(text.drop start).takeWhile (· ≠ ' ')]).length := by
        rw [List.length_append]
        omega
      rw [step, if_neg (by omega), ih _ (length ▸ word.shorter) _ _ more rfl]

/-! ## What the handlers get -/

/-- What is left after the leading spaces, the first word and the spaces after it. -/
def argumentText (text : Text) : Text :=
  ((text.dropWhile (· = ' ')).dropWhile (· ≠ ' ')).dropWhile (· = ' ')

/-- The loop ends with the start of the second word, if there is one. -/
theorem splitWords_text (text : Text) :
    text.drop (min (splitWords text 0 [] text.length).2 text.length) = argumentText text := by
  by_cases none : text.dropWhile (· = ' ') = []
  · rw [splitWords_end (show (text.drop 0).dropWhile (· = ' ') = [] from none), Nat.min_self, List.drop_length, argumentText, none]
    rfl
  · obtain ⟨start, word, step⟩ := splitWords_word (show (text.drop 0).dropWhile (· = ' ') ≠ [] from none) [] text.length
    rw [step, List.nil_append, if_neg (by decide)]
    have after : text.drop (wordEnd text start) = (text.dropWhile (· = ' ')).dropWhile (· ≠ ' ') := by
      rw [word.after, word.begins, List.drop_zero]
    by_cases last : (text.drop (wordEnd text start)).dropWhile (· = ' ') = []
    · rw [splitWords_end last, Nat.min_self, List.drop_length, argumentText, ← after, last]
    · obtain ⟨second, word', step'⟩ := splitWords_word last [(text.drop start).takeWhile (· ≠ ' ')] text.length
      rw [step', List.length_singleton, if_pos rfl, splitWords_rest _ _ _ _ (by simp),
        Nat.min_eq_left (Nat.le_of_lt word'.inside), word'.begins, after, argumentText]

theorem onPlayerCommand_eq (message : Option Text) :
    onPlayerCommand message =
      { command := (spaced (message.getD [])).head?
        args := if (spaced (message.getD [])).tail = [] then none else some (spaced (message.getD [])).tail
        text := argumentText (message.getD []) } := by
  have words := splitWords_words (message.getD []) 0 [] (message.getD []).length
  have text := splitWords_text (message.getD [])
  rw [List.nil_append, List.drop_zero] at words
  cases ran : splitWords (message.getD []) 0 [] (message.getD []).length with
  | mk found rest =>
    rw [ran] at words text
    simp only at words text
    simp only [onPlayerCommand, ran, ← words, text]
    rcases found with _ | ⟨command, _ | ⟨first, args⟩⟩
    · have empty : argumentText (message.getD []) = [] := by
        by_cases none : (message.getD []).dropWhile (· = ' ') = []
        · rw [argumentText, none]
          rfl
        · rw [spaced, words_eq none] at words
          cases words
      rw [empty]
      rfl
    · rfl
    · rfl

/-- The text is split into the arguments again. -/
theorem spaced_argumentText (text : Text) : spaced (argumentText text) = (spaced text).tail := by
  rw [argumentText, spaced, words_dropWhile, spaced]
  by_cases none : text.dropWhile (· = ' ') = []
  · rw [words_eq_nil none, none]
    rfl
  · rw [words_eq none, List.tail_cons]
    simp only [ne_eq, decide_not]

/-- The text begins with the first argument, if there is one. -/
theorem argumentText_eq_nil {text : Text} (single : (spaced text).tail = []) : argumentText text = [] := by
  have again := spaced_argumentText text
  rw [single] at again
  by_contra more
  have start : (argumentText text).dropWhile (· = ' ') = argumentText text := List.dropWhile_idempotent _ _
  rw [spaced, words_eq (by rwa [start])] at again
  cases again

theorem head_argumentText {text first : Text} (second : (spaced text).tail.head? = some first) :
    first <+: argumentText text := by
  have start : (argumentText text).dropWhile (· = ' ') = argumentText text := List.dropWhile_idempotent _ _
  have more : (argumentText text).dropWhile (· = ' ') ≠ [] := by
    rw [start]
    intro empty
    rw [← spaced_argumentText, empty] at second
    cases second
  rw [← spaced_argumentText, spaced, words_eq more, List.head?_cons, Option.some_inj, start] at second
  rw [← second]
  exact List.takeWhile_prefix _

/-- A message with arguments is its leading spaces, the command, spaces and the text. -/
theorem message_parts {text : Text} (several : (spaced text).tail ≠ []) :
    ∃ command gap : Text, (spaced text).head? = some command ∧ gap ≠ [] ∧ (∀ char ∈ gap, char = ' ') ∧
      text = text.takeWhile (· = ' ') ++ command ++ gap ++ argumentText text := by
  have more : text.dropWhile (· = ' ') ≠ [] := by
    intro none
    rw [spaced, words_eq_nil none] at several
    exact several rfl
  let after := (text.dropWhile (· = ' ')).dropWhile (· ≠ ' ')
  refine ⟨(text.dropWhile (· = ' ')).takeWhile (· ≠ ' '), after.takeWhile (· = ' '), ?_, ?_, fun char member => ?_, ?_⟩
  · rw [spaced, words_eq more, List.head?_cons]
    simp only [ne_eq, decide_not]
  · cases left : after with
    | nil =>
      have empty : argumentText text = [] := by
        change after.dropWhile (· = ' ') = []
        rw [left]
        rfl
      rw [← spaced_argumentText, empty] at several
      exact absurd rfl several
    | cons char rest =>
      have space := head_dropWhile (p := fun char => decide (char ≠ ' ')) (congrArg List.head? left)
      rw [List.takeWhile_cons_of_pos (by simpa using space)]
      exact List.cons_ne_nil _ _
  · simpa using List.mem_takeWhile_imp member
  · have command := List.takeWhile_append_dropWhile (p := fun char => decide (char ≠ ' ')) (l := text.dropWhile (· = ' '))
    have spaces := List.takeWhile_append_dropWhile (p := fun char => decide (char = ' ')) (l := after)
    calc text = text.takeWhile (· = ' ') ++ text.dropWhile (· = ' ') := List.takeWhile_append_dropWhile.symm
      _ = text.takeWhile (· = ' ') ++ ((text.dropWhile (· = ' ')).takeWhile (· ≠ ' ') ++ after) := congrArg _ command.symm
      _ = text.takeWhile (· = ' ') ++ ((text.dropWhile (· = ' ')).takeWhile (· ≠ ' ') ++
          (after.takeWhile (· = ' ') ++ argumentText text)) := congrArg _ (congrArg _ spaces.symm)
      _ = _ := by simp only [List.append_assoc]

/-- The handlers get the words of the message in order, and the message from its second word on. -/
theorem command_split_into_words (message : Option Text) :
    let text := message.getD []
    let passed := onPlayerCommand message
    passed.command = (spaced text).head? ∧
      passed.args = (if (spaced text).tail = [] then none else some (spaced text).tail) ∧
      passed.text <:+ text ∧ (passed.args = none → passed.text = []) ∧
      ∀ args, passed.args = some args →
        spaced passed.text = args ∧ (∀ first, args.head? = some first → first <+: passed.text) ∧
        ∃ command gap, passed.command = some command ∧ gap ≠ [] ∧ (∀ char ∈ gap, char = ' ') ∧
          text = text.takeWhile (· = ' ') ++ command ++ gap ++ passed.text := by
  intro text passed
  have same : passed = _ := onPlayerCommand_eq message
  rw [same]
  refine ⟨rfl, rfl, ?_, fun none => ?_, fun args present => ?_⟩
  · exact (List.dropWhile_suffix _).trans ((List.dropWhile_suffix _).trans (List.dropWhile_suffix _))
  · exact argumentText_eq_nil (by simpa using none)
  · by_cases several : (spaced text).tail = []
    · simp only [text, several, if_true] at present
      cases present
    · simp only [text, several, if_false, Option.some_inj] at present
      subst present
      exact ⟨spaced_argumentText text, fun first second => head_argumentText second, message_parts several⟩

end VcmpLua.Model.Plugin
