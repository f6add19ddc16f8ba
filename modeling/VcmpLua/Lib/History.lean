import Mathlib

/-! # Histories that obey a law

A history is the list of the events so far. A law says which event may come next after a history; a
history obeys the law if each of its events does. What holds of a history is then shown from one
event to the next.
-/

/-- Every event is one that the law allows after the events before it. -/
inductive Obeys {ε : Type} (law : List ε → ε → Prop) : List ε → Prop
  | nil : Obeys law []
  | snoc {log : List ε} {event : ε} : Obeys law log → law log event → Obeys law (log ++ [event])

namespace Obeys

variable {ε : Type} {law : List ε → ε → Prop} {log : List ε}

/-- Each event obeys the law where it stands, and so does the history before it. -/
theorem event (obeys : Obeys law log) : ∀ {before after : List ε} {event : ε},
    log = before ++ event :: after → Obeys law before ∧ law before event := by
  induction obeys with
  | nil => simp
  | @snoc log last obeys holds ih =>
    intro before after event split
    rcases List.eq_nil_or_concat after with rfl | ⟨rest, final, rfl⟩
    · obtain ⟨rfl, same⟩ := List.append_inj' split rfl
      cases same
      exact ⟨obeys, holds⟩
    · rw [List.concat_eq_append, ← List.cons_append, ← List.append_assoc] at split
      exact ih (List.append_inj' split rfl).1

theorem last {event : ε} (obeys : Obeys law (log ++ [event])) : Obeys law log ∧ law log event :=
  obeys.event (show log ++ [event] = log ++ event :: [] from rfl)

/-- What holds of a history and is kept by every lawful event holds of every lawful continuation. -/
theorem holds_append {P : List ε → Prop} (start : P log)
    (step : ∀ log event, Obeys law log → P log → law log event → P (log ++ [event])) (later : List ε)
    (obeys : Obeys law (log ++ later)) : P (log ++ later) := by
  induction later using List.reverseRecOn with
  | nil => simpa using start
  | append_singleton later event ih =>
    rw [← List.append_assoc] at obeys ⊢
    obtain ⟨earlier, allowed⟩ := obeys.last
    exact step _ _ earlier (ih earlier) allowed

end Obeys
