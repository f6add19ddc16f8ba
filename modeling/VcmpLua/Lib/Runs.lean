import Mathlib

/-! # Words of a list

The words of a list are its maximal runs of elements that are not separators. They are read from the
left: skip separators, take a run, go on after it.
-/

namespace Runs

variable {α : Type} {sep : α → Bool}

/-- The maximal runs of elements that are not separators. -/
def words (sep : α → Bool) (list : List α) : List (List α) := (list.splitOnP sep).filter (!·.isEmpty)

@[simp] theorem words_nil : words sep [] = [] := by
  simp [words]

theorem words_cons_of_sep {a : α} (isSep : sep a = true) (rest : List α) : words sep (a :: rest) = words sep rest := by
  simp [words, List.splitOnP_cons_eq_if_modifyHead, isSep]

/-- A run that a separator ends is the first word. -/
theorem words_append {run : List α} (nonempty : run ≠ []) (inside : ∀ a ∈ run, sep a = false) {rest : List α}
    (ends : ∀ a, rest.head? = some a → sep a = true) : words sep (run ++ rest) = run :: words sep rest := by
  have kept : (!run.isEmpty) = true := by simpa using nonempty
  cases rest with
  | nil =>
    rw [List.append_nil, words_nil, words, List.splitOnP_eq_singleton inside, List.filter_singleton, kept]
    rfl
  | cons a rest =>
    have isSep : sep a = true := ends a rfl
    rw [words_cons_of_sep isSep, words, List.splitOnP_append_cons_of_forall_mem inside a isSep]
    exact List.filter_cons_of_pos kept

theorem words_dropWhile (list : List α) : words sep (list.dropWhile sep) = words sep list := by
  induction list with
  | nil => rfl
  | cons a rest ih =>
    cases isSep : sep a with
    | true => rw [List.dropWhile_cons_of_pos isSep, ih, words_cons_of_sep isSep]
    | false => rw [List.dropWhile_cons_of_neg (by simp [isSep])]

/-- The first element that stops a `dropWhile`. -/
theorem head_dropWhile {p : α → Bool} {list : List α} {a : α} (head : (list.dropWhile p).head? = some a) : p a = false := by
  have nonempty : list.dropWhile p ≠ [] := by
    intro empty
    rw [empty] at head
    cases head
  have stops := List.head_dropWhile_not p nonempty
  rw [List.head?_eq_some_head nonempty, Option.some_inj] at head
  rwa [head] at stops

/-- One step: what is left after the separators begins with the first word, and the rest comes after it. -/
theorem words_eq {list : List α} (more : list.dropWhile sep ≠ []) :
    words sep list = (list.dropWhile sep).takeWhile (!sep ·) :: words sep ((list.dropWhile sep).dropWhile (!sep ·)) := by
  obtain ⟨a, rest, split⟩ := List.exists_cons_of_ne_nil more
  have starts : sep a = false := head_dropWhile (show (list.dropWhile sep).head? = some a by rw [split]; rfl)
  rw [← words_dropWhile list]
  conv_lhs => rw [← List.takeWhile_append_dropWhile (p := (!sep ·)) (l := list.dropWhile sep)]
  refine words_append ?_ (fun b member => ?_) fun b head => ?_
  · rw [split, List.takeWhile_cons_of_pos (by simp [starts])]
    exact List.cons_ne_nil _ _
  · simpa using List.mem_takeWhile_imp member
  · simpa using head_dropWhile head

theorem words_eq_nil {list : List α} (none : list.dropWhile sep = []) : words sep list = [] := by
  rw [← words_dropWhile, none, words_nil]

end Runs
