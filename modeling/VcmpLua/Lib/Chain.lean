import Mathlib

/-! # Following a link

Each point has at most one next one. A chain that ends has a length and a last point, and both are
determined by where it begins; one that does not end goes on after each of its points.
-/

namespace Chain

variable {α : Type*} {next : α → Option α}

/-- The chain from a point has this many points and ends with `last`. -/
inductive Ends (next : α → Option α) : α → ℕ → α → Prop
  | last {a : α} (stop : next a = none) : Ends next a 1 a
  | link {a b last : α} {length : ℕ} (step : next a = some b) (rest : Ends next b length last) :
      Ends next a (length + 1) last

def Endless (next : α → Option α) (a : α) : Prop := ∀ length last, ¬ Ends next a length last

theorem Ends.pos {a last : α} {length : ℕ} (ends : Ends next a length last) : 0 < length := by
  cases ends with
  | last => exact Nat.one_pos
  | link => exact Nat.succ_pos _

theorem Ends.unique {a last last' : α} {length length' : ℕ} (ends : Ends next a length last)
    (ends' : Ends next a length' last') : length = length' ∧ last = last' := by
  induction ends generalizing length' with
  | last stop =>
    cases ends' with
    | last => exact ⟨rfl, rfl⟩
    | link step =>
      rw [stop] at step
      cases step
  | link step rest ih =>
    cases ends' with
    | last stop =>
      rw [stop] at step
      cases step
    | link step' rest' =>
      rw [step] at step'
      cases step'
      obtain ⟨same, lasts⟩ := ih rest'
      exact ⟨congrArg (· + 1) same, lasts⟩

theorem Endless.link {a : α} (endless : Endless next a) : ∃ b, next a = some b ∧ Endless next b := by
  cases step : next a with
  | none => exact absurd (Ends.last step) (endless 1 a)
  | some b => exact ⟨b, rfl, fun length last rest => endless (length + 1) last (Ends.link step rest)⟩

/-- A point that leads back to itself does not end. -/
theorem endless_of_self {a : α} (self : next a = some a) : Endless next a := by
  intro length
  induction length with
  | zero => exact fun last ends => absurd ends.pos (Nat.lt_irrefl 0)
  | succ length ih =>
    intro last ends
    cases ends with
    | last stop =>
      rw [stop] at self
      cases self
    | link step rest =>
      rw [self] at step
      cases step
      exact ih last rest

end Chain
