import Mathlib
import VcmpLua.Model.Runtime.Config

/-! # The instruction budget of a config file

With the hook and without it a program runs alike until the hook is due for the first time. What
happens then decides whether the budget holds: outside every protected call the error ends the
program; inside one it is caught, and the program goes on.
-/

namespace VcmpLua.Model.Runtime

variable {S V Config : Type}

/-- No more than the budget is executed, and a program that would execute more is refused. -/
structure WithinBudget (program : Program S V) (budget : ℕ) (load : Run S V → Option (Except String Config)) : Prop where
  executed : ∀ steps, (program.run (some budget) steps).executed ≤ budget
  refused : (∃ steps, budget < (program.run none steps).executed) →
    ∃ steps error, load (program.run (some budget) steps) = some (.error error)

/-- The program ends within the budget, finalizers included; or when it has executed that many
instructions, it is in no protected call and no finalizer, and no finalizer is pending. -/
def Stoppable (program : Program S V) (budget : ℕ) : Prop :=
  match program.run none budget with
  | .main vm => vm.frames = [] ∧ program.pending vm.state = []
  | .closing .. => False
  | .closed .. => True

/-! ## One step -/

def Executed.vm : Executed S V → Vm S
  | .goes vm => vm
  | .ends _ vm => vm

/-- The machine of a run that goes on. -/
def Run.vm? : Run S V → Option (Vm S)
  | .main vm => some vm
  | .closing _ vm _ => some vm
  | .closed .. => none

namespace Program

variable (program : Program S V)

@[simp] theorem unwind_executed (error : String) (vm : Vm S) :
    (unwind error vm : Executed S V).vm.executed = vm.executed := by
  unfold unwind
  cases vm.frames <;> rfl

@[simp] theorem unwind_since (error : String) (vm : Vm S) :
    (unwind error vm : Executed S V).vm.since = vm.since := by
  unfold unwind
  cases vm.frames <;> rfl

/-- An instruction counts once. -/
theorem execute_counts (vm : Vm S) :
    (program.execute vm).vm.executed = vm.executed + 1 ∧ (program.execute vm).vm.since = vm.since + 1 := by
  simp only [execute]
  cases program.step vm.state with
  | protect function body caught =>
    dsimp only
    split_ifs
    · exact ⟨rfl, rfl⟩
    · exact ⟨unwind_executed .., unwind_since ..⟩
  | raise error => exact ⟨unwind_executed .., unwind_since ..⟩
  | next | finalize | leave | finish => exact ⟨rfl, rfl⟩

theorem close_executed (ending : Except String V) (vm : Vm S) (pending : List S) :
    (close ending vm pending).executed = vm.executed := by
  cases pending <;> rfl

theorem close_vm? {ending : Except String V} {vm next : Vm S} {pending : List S}
    (goes : (close ending vm pending).vm? = some next) : next.executed = vm.executed ∧ next.since = vm.since := by
  cases pending with
  | nil => cases goes
  | cons body rest =>
    cases goes
    exact ⟨rfl, rfl⟩

theorem advance_main_counts (budget : Option ℕ) (vm : Vm S) :
    (program.advance budget (.main vm)).executed = (program.instruction budget vm).vm.executed ∧
      ∀ next, (program.advance budget (.main vm)).vm? = some next →
        next.executed = (program.instruction budget vm).vm.executed ∧
          next.since = (program.instruction budget vm).vm.since := by
  simp only [advance]
  cases program.instruction budget vm with
  | goes vm' => exact ⟨rfl, fun next same => by cases same; exact ⟨rfl, rfl⟩⟩
  | ends ending vm' => exact ⟨close_executed .., fun next => close_vm?⟩

theorem advance_closing_counts (budget : Option ℕ) (ending : Except String V) (vm : Vm S) (rest : List S) :
    (program.advance budget (.closing ending vm rest)).executed = (program.execute vm).vm.executed ∧
      ∀ next, (program.advance budget (.closing ending vm rest)).vm? = some next →
        next.executed = (program.execute vm).vm.executed ∧ next.since = (program.execute vm).vm.since := by
  simp only [advance]
  cases program.execute vm with
  | goes vm' =>
    dsimp only
    split_ifs
    · exact ⟨close_executed .., fun next => close_vm?⟩
    · exact ⟨rfl, fun next same => by cases same; exact ⟨rfl, rfl⟩⟩
  | ends _ vm' => exact ⟨close_executed .., fun next => close_vm?⟩

theorem advance_closed (budget : Option ℕ) {run : Run S V} (ended : run.vm? = none) : program.advance budget run = run := by
  cases run with
  | closed => rfl
  | main | closing => cases ended

/-! ## The run until the hook is due -/

theorem instruction_none (vm : Vm S) : program.instruction none vm = program.execute vm := rfl

theorem instruction_of_ne {budget : ℕ} {vm : Vm S} (early : vm.since ≠ budget) :
    program.instruction (some budget) vm = program.execute vm := by
  rw [instruction, if_neg fun due => early (Option.some.inj due).symm]

/-- Without a hook, every step executes one instruction. -/
theorem advance_none_counts {run : Run S V} {vm : Vm S} (goes : run.vm? = some vm) :
    (program.advance none run).executed = vm.executed + 1 ∧
      ∀ next, (program.advance none run).vm? = some next → next.executed = vm.executed + 1 ∧ next.since = vm.since + 1 := by
  obtain ⟨executed, since⟩ := program.execute_counts vm
  rw [← executed, ← since]
  cases run with
  | main =>
    cases goes
    exact program.advance_main_counts none vm
  | closing ending _ rest =>
    cases goes
    exact program.advance_closing_counts none ending vm rest
  | closed => cases goes

theorem run_none_counts (steps : ℕ) : (program.run none steps).executed ≤ steps ∧
    ∀ vm, (program.run none steps).vm? = some vm → vm.executed = steps ∧ vm.since = steps := by
  induction steps with
  | zero => exact ⟨Nat.le_refl _, fun vm same => by cases same; exact ⟨rfl, rfl⟩⟩
  | succ steps ih =>
    obtain ⟨bounded, counts⟩ := ih
    rw [run]
    cases goes : (program.run none steps).vm? with
    | none =>
      rw [program.advance_closed none goes, goes]
      exact ⟨Nat.le_succ_of_le bounded, nofun⟩
    | some vm =>
      obtain ⟨executed, since⟩ := counts vm goes
      obtain ⟨total, next⟩ := program.advance_none_counts goes
      rw [executed] at total next
      rw [since] at next
      exact ⟨Nat.le_of_eq total, next⟩

/-- Until the hook is due, it makes no difference. -/
theorem run_eq_run_none (budget : ℕ) {steps : ℕ} (early : steps ≤ budget) :
    program.run (some budget) steps = program.run none steps := by
  induction steps with
  | zero => rfl
  | succ steps ih =>
    have same := ih (Nat.le_of_succ_le early)
    rw [run, run, same]
    obtain ⟨-, counts⟩ := program.run_none_counts steps
    cases reached : program.run none steps with
    | main vm =>
      obtain ⟨-, since⟩ := counts vm (by rw [reached]; rfl)
      have due : vm.since ≠ budget := by omega
      simp only [advance, program.instruction_of_ne due, instruction_none]
    | closing | closed => rfl

/-- A run that is over stays so. -/
theorem run_of_closed {budget : Option ℕ} {steps : ℕ} (ended : (program.run budget steps).vm? = none) (more : ℕ) :
    program.run budget (steps + more) = program.run budget steps := by
  induction more with
  | zero => rfl
  | succ more ih => rw [Nat.add_succ, run, ih, program.advance_closed budget ended]

/-! ## When the hook is due -/

/-- A run that is over once the hook was due keeps within the budget. -/
theorem executed_le_of_closed {budget : ℕ} (ended : (program.run (some budget) (budget + 1)).vm? = none)
    (bounded : (program.run (some budget) (budget + 1)).executed ≤ budget) (steps : ℕ) :
    (program.run (some budget) steps).executed ≤ budget := by
  by_cases early : steps ≤ budget
  · rw [program.run_eq_run_none budget early]
    exact Nat.le_trans (program.run_none_counts steps).1 early
  · obtain ⟨more, rfl⟩ := Nat.exists_eq_add_of_le (show budget + 1 ≤ steps by omega)
    rw [program.run_of_closed ended]
    exact bounded

theorem within_of_stoppable {budget : ℕ} {load : Run S V → Option (Except String Config)}
    (refuses : ∀ error executed, load (.closed (.error error) executed) = some (.error error))
    (stoppable : Stoppable program budget) : WithinBudget program budget load := by
  unfold Stoppable at stoppable
  have same := program.run_eq_run_none budget (Nat.le_refl _)
  obtain ⟨bounded, counts⟩ := program.run_none_counts budget
  cases reached : program.run none budget with
  | closed ending executed =>
    rw [reached] at same bounded
    have ended : (program.run none budget).vm? = none := by rw [reached]; rfl
    have next : program.run (some budget) (budget + 1) = .closed ending executed := by
      rw [run, same]
      rfl
    refine ⟨program.executed_le_of_closed (by rw [next]; rfl) (by rw [next]; exact bounded), ?_⟩
    rintro ⟨steps, exceeds⟩
    by_cases early : steps ≤ budget
    · have few := (program.run_none_counts steps).1
      omega
    · obtain ⟨more, rfl⟩ := Nat.exists_eq_add_of_le (show budget ≤ steps by omega)
      rw [program.run_of_closed ended, reached] at exceeds
      exact absurd bounded (Nat.not_le_of_lt exceeds)
  | closing ending vm rest =>
    rw [reached] at stoppable
    exact stoppable.elim
  | main vm =>
    rw [reached] at stoppable same
    obtain ⟨unprotected, none⟩ := stoppable
    obtain ⟨executed, since⟩ := counts vm (by rw [reached]; rfl)
    have next : program.run (some budget) (budget + 1) = .closed (.error budgetHook) budget := by
      rw [run, same]
      simp only [advance, instruction, since, ↓reduceIte, unprotected, List.any_nil, Bool.false_eq_true, unwind, none,
        close, executed]
    refine ⟨program.executed_le_of_closed (by rw [next]; rfl) (by rw [next]; exact Nat.le_refl _), fun _ => ?_⟩
    exact ⟨budget + 1, budgetHook, by rw [next]; exact refuses ..⟩

/-- A machine that goes on with the count at zero executes one more instruction. -/
theorem exceeds_of_goes {budget steps : ℕ} (positive : 0 < budget) {vm : Vm S}
    (goes : (program.run (some budget) steps).vm? = some vm) (executed : vm.executed = budget) (since : vm.since = 0) :
    budget < (program.run (some budget) (steps + 1)).executed := by
  obtain ⟨counted, -⟩ := program.execute_counts vm
  rw [run]
  cases reached : program.run (some budget) steps with
  | main vm' =>
    rw [reached] at goes
    cases goes
    have early : vm.since ≠ budget := by omega
    rw [(program.advance_main_counts _ vm).1, program.instruction_of_ne early, counted]
    omega
  | closing ending vm' rest =>
    rw [reached] at goes
    cases goes
    rw [(program.advance_closing_counts _ ending vm rest).1, counted]
    omega
  | closed =>
    rw [reached] at goes
    cases goes

theorem exceeds_of_not_stoppable {budget : ℕ} (positive : 0 < budget) (unstoppable : ¬ Stoppable program budget) :
    ∃ steps, budget < (program.run (some budget) steps).executed := by
  unfold Stoppable at unstoppable
  have same := program.run_eq_run_none budget (Nat.le_refl _)
  obtain ⟨-, counts⟩ := program.run_none_counts budget
  cases reached : program.run none budget with
  | closed =>
    rw [reached] at unstoppable
    exact (unstoppable trivial).elim
  | closing ending vm rest =>
    rw [reached] at same
    obtain ⟨executed, -⟩ := counts vm (by rw [reached]; rfl)
    refine ⟨budget + 1, ?_⟩
    rw [run, same, (program.advance_closing_counts _ ending vm rest).1, (program.execute_counts vm).1]
    omega
  | main vm =>
    rw [reached] at unstoppable same
    obtain ⟨executed, since⟩ := counts vm (by rw [reached]; rfl)
    have due : program.instruction (some budget) vm = if vm.frames.any (·.finalizer)
        then program.execute { vm with since := 0 } else unwind budgetHook { vm with since := 0 } := by
      rw [instruction, if_pos (congrArg some since.symm)]
    have next : program.run (some budget) (budget + 1) = program.advance (some budget) (.main vm) := by rw [run, same]
    by_cases finalizer : vm.frames.any (·.finalizer)
    · refine ⟨budget + 1, ?_⟩
      rw [next, (program.advance_main_counts _ vm).1, due, if_pos finalizer, (program.execute_counts _).1]
      change budget < vm.executed + 1
      omega
    · rw [if_neg finalizer] at due
      cases frames : vm.frames with
      | cons frame rest =>
        have caught : program.run (some budget) (budget + 1) =
            .main { vm with state := frame.caught budgetHook, frames := rest, since := 0 } := by
          rw [next, advance, due, unwind, frames]
        have goes := congrArg Run.vm? caught
        exact ⟨budget + 1 + 1, program.exceeds_of_goes positive goes executed rfl⟩
      | nil =>
        cases pending : program.pending vm.state with
        | nil => exact absurd ⟨frames, pending⟩ unstoppable
        | cons body rest =>
          have closes : program.run (some budget) (budget + 1) = close (.error budgetHook) { vm with since := 0 } (body :: rest) := by
            rw [next, advance, due, unwind, frames]
            simp only [pending]
          have goes := congrArg Run.vm? closes
          exact ⟨budget + 1 + 1, program.exceeds_of_goes positive goes executed rfl⟩

end Program

/-- `while true do pcall(function() while true do end end) end`. -/
def endlessLoop : Program Bool Unit where
  start := false
  step
    | false => .protect "pcall" true fun _ => false
    | true => .next true
  pending _ := []

/-- The loop catches the error of the hook and goes on. -/
theorem endlessLoop_run {budget : Option ℕ} (positive : budget ≠ some 0) (steps : ℕ) :
    ∃ vm, endlessLoop.run budget steps = .main vm ∧
      (vm.state = false ∧ vm.frames = [] ∧ vm.since = 0 ∨ vm.state = true ∧ vm.frames = [{ caught := fun _ => false }]) := by
  induction steps with
  | zero => exact ⟨_, rfl, .inl ⟨rfl, rfl, rfl⟩⟩
  | succ steps ih =>
    obtain ⟨vm, reached, ⟨outside, unprotected, since⟩ | ⟨inside, guarded⟩⟩ := ih
    · have early : budget ≠ some vm.since := by rwa [since]
      have goes : endlessLoop.execute vm = .goes { vm with
          state := true, frames := [{ caught := fun _ => false }], executed := vm.executed + 1, since := vm.since + 1 } := by
        simp [Program.execute, endlessLoop, outside, unprotected, openSandbox, baseFunctions, kRemoved, protectors]
      rw [Program.run, reached]
      simp only [Program.advance, Program.instruction, if_neg early, goes]
      exact ⟨_, rfl, .inr ⟨rfl, rfl⟩⟩
    · have goes : endlessLoop.execute vm = .goes { vm with executed := vm.executed + 1, since := vm.since + 1 } := by
        simp [Program.execute, endlessLoop, inside]
      rw [Program.run, reached]
      by_cases due : budget = some vm.since
      · simp only [Program.advance, Program.instruction, if_pos due, guarded, List.any_cons, List.any_nil, Bool.or_false,
          Bool.false_eq_true, ↓reduceIte, Program.unwind]
        exact ⟨_, rfl, .inl ⟨rfl, rfl, rfl⟩⟩
      · simp only [Program.advance, Program.instruction, if_neg due, goes]
        exact ⟨_, rfl, .inr ⟨inside, guarded⟩⟩

end VcmpLua.Model.Runtime
