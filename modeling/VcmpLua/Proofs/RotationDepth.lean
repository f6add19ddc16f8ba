import Mathlib
import VcmpLua.Lib.Chain
import VcmpLua.Model.Bindings.Rotation

/-! # How deep a rotation table is read

`SetRotationFromTable` follows the `quaternion` field, or else the `euler` field, as long as it is a
table, and keeps one Lua stack slot for each table on the way. When this chain ends, the numbers of
its last table decide the one call to the server, and the code has held one slot more than there are
tables. When it does not end, neither does the code, and no number of slots is enough.
-/

namespace VcmpLua.Model.Bindings.Rotation

open Effect VcmpLua.Model.Lua

/-- The table that is read in place of this one. -/
def inner (heap : Heap) (id : ℕ) : Option ℕ :=
  (rawField (heap id) "quaternion").table?.or (rawField (heap id) "euler").table?

section

variable {S : Type} (single : Number → S) (server : Server S) (function : String) {heap : Heap} (spawn : Bool)

/-! ## Slots -/

/-- The state at `tables` tables below the first one, where one more slot has been in use. -/
def Running.below (tables : ℕ) (s : Running S) : Running S :=
  { s with top := s.top + tables, peak := max s.peak (s.top + tables + 1) }

theorem Running.pop_push (s : Running S) : s.push.pop = s.below 0 := rfl

theorem Running.push_below (s : Running S) : (s.below 0).push = s.push := by
  simp only [Running.below, Running.push, Nat.add_zero, max_assoc, max_self]

theorem Running.below_below (s : Running S) : (s.below 0).below 0 = s.below 0 := by
  simp only [Running.below, Nat.add_zero, max_assoc, max_self]

theorem Running.below_push (tables : ℕ) (s : Running S) : s.push.below tables = s.below (tables + 1) := by
  have deeper : s.top + 1 + tables = s.top + (tables + 1) := by omega
  have highest : max (max s.peak (s.top + 1)) (s.top + (tables + 1) + 1) = max s.peak (s.top + (tables + 1) + 1) := by
    omega
  simp only [Running.below, Running.push, deeper, highest]

/-! ## The last table -/

/-- The call that the numbers of a table make, or what is wrong with them. -/
def lastCall (single : Number → S) (heap : Heap) (spawn : Bool) (index id : ℕ) : Except ArgError (ServerCall S) := do
  let x ← tableNumber (heap id) index 1
  let y ← tableNumber (heap id) index 2
  let z ← tableNumber (heap id) index 3
  if tableLength (heap id) ≥ 4 then
    let w ← tableNumber (heap id) index 4
    return if spawn then .spawnRotation (single x) (single y) (single z) (single w)
      else .rotation (single x) (single y) (single z) (single w)
  else
    return if spawn then .spawnRotationEuler (single x) (single y) (single z)
      else .rotationEuler (single x) (single y) (single z)

/-- Code that raises an argument error, or returns. -/
def checked {α : Type} : Except ArgError α → Binding S α
  | .ok value => pure value
  | .error e => throw (.argument e)

theorem number_of_ok {table : Table} {index i : ℕ} {value : Number} (ok : tableNumber table index i = .ok value)
    (s : Running S) : number single table index i s = .ok (single value) (s.below 0) := by
  unfold number
  rw [modify_bind, modify_bind, Running.pop_push, ok]
  rfl

theorem number_of_error {table : Table} {index i : ℕ} {e : ArgError} (error : tableNumber table index i = .error e)
    (s : Running S) : number single table index i s = .error (.argument e) (s.below 0) := by
  unfold number
  rw [modify_bind, modify_bind, Running.pop_push, error]
  rfl

/-- The numbers are read with one slot each, one after the other, and then the server is called. -/
theorem setFromElements_eq (index id : ℕ) (s : Running S) :
    setFromElements single server function heap spawn index id s =
      (checked (lastCall single heap spawn index id) >>= callServer server function) (s.below 0) := by
  unfold setFromElements lastCall
  cases first : tableNumber (heap id) index 1 with
  | error e => exact bind_of_error (number_of_error single first s)
  | ok x =>
    rw [bind_of_ok (number_of_ok single first s)]
    cases second : tableNumber (heap id) index 2 with
    | error e =>
      rw [bind_of_error (number_of_error single second _), Running.below_below]
      rfl
    | ok y =>
      rw [bind_of_ok (number_of_ok single second _), Running.below_below]
      cases third : tableNumber (heap id) index 3 with
      | error e =>
        rw [bind_of_error (number_of_error single third _), Running.below_below]
        rfl
      | ok z =>
        rw [bind_of_ok (number_of_ok single third _), Running.below_below]
        have step : ∀ {α β : Type} (a : α) (f : α → Except ArgError β), (Except.ok a >>= f) = f a := fun _ _ => rfl
        by_cases quaternion : tableLength (heap id) ≥ 4
        · rw [if_pos quaternion, step, step, step, if_pos quaternion]
          cases fourth : tableNumber (heap id) index 4 with
          | error e =>
            rw [bind_of_error (number_of_error single fourth _), Running.below_below]
            rfl
          | ok w =>
            rw [bind_of_ok (number_of_ok single fourth _), Running.below_below]
            rfl
        · rw [if_neg quaternion, step, step, step, if_neg quaternion]
          rfl

/-! ## One table -/

theorem setRotationFromTable_last {fuel index id : ℕ} (stop : inner heap id = none) (s : Running S) :
    setRotationFromTable single server function heap spawn (fuel + 1) index id s =
      setFromElements single server function heap spawn index id (s.below 0) := by
  obtain ⟨noQuaternion, noEuler⟩ := Option.or_eq_none_iff.mp stop
  rw [setRotationFromTable]
  simp only [pushField, bind_assoc, modify_bind, pure_bind, noQuaternion, noEuler, Running.pop_push, Running.below_below]

/-- An inner table is read with its slot kept, which is given back afterwards. -/
theorem setRotationFromTable_inner {fuel index id next : ℕ} (step : inner heap id = some next) (s : Running S) :
    setRotationFromTable single server function heap spawn (fuel + 1) index id s =
      (setRotationFromTable single server function heap spawn fuel (s.top + 1) next >>= fun _ => modify Running.pop)
        s.push := by
  rw [setRotationFromTable]
  rcases Option.or_eq_some_iff.mp step with quaternion | ⟨noQuaternion, euler⟩
  · simp only [pushField, bind_assoc, modify_bind, pure_bind, quaternion]
    rfl
  · simp only [pushField, bind_assoc, modify_bind, pure_bind, noQuaternion, euler, Running.pop_push, Running.push_below]
    rfl

/-! ## The chain -/

/-- The server is called at most once, and the slots stay as they are. -/
theorem callServer_spec (call : ServerCall S) (s : Running S) :
    (∀ s', callServer server function call s ≠ .error .unfinished s') ∧
      (after (callServer server function call) s).top = s.top ∧
      (after (callServer server function call) s).peak = s.peak ∧
      ((after (callServer server function call) s).calls = s.calls ∨
        (after (callServer server function call) s).calls = s.calls ++ [call]) ∧
      ∀ s', callServer server function call s = .ok () s' → s'.calls = s.calls ++ [call] := by
  cases provided : server.provides call.name with
  | false =>
    have ran : ∃ e, callServer server function call s = .error (.server e) s := by
      unfold callServer
      rw [provided]
      exact ⟨_, rfl⟩
    obtain ⟨e, ran⟩ := ran
    rw [after_of_error ran, ran]
    exact ⟨fun s' same => (by cases same), rfl, rfl, Or.inl rfl, fun s' same => (by cases same)⟩
  | true =>
    let asked : Running S := { s with calls := s.calls ++ [call] }
    have ran : callServer server function call s = .ok () asked ∨
        ∃ e, callServer server function call s = .error (.server e) asked := by
      unfold callServer
      rw [provided]
      cases answered : server.answer call with
      | none => exact Or.inl rfl
      | requestDenied => exact Or.inl rfl
      | noSuchEntity => exact Or.inr ⟨_, rfl⟩
      | other name => exact Or.inr ⟨_, rfl⟩
    rcases ran with ran | ⟨e, ran⟩
    · rw [after_of_ok ran, ran]
      refine ⟨fun s' same => (by cases same), rfl, rfl, Or.inr rfl, fun s' same => ?_⟩
      cases same
      rfl
    · rw [after_of_error ran, ran]
      exact ⟨fun s' same => (by cases same), rfl, rfl, Or.inr rfl, fun s' same => (by cases same)⟩

/-- How the code ends: what it held, and what it asked of the server. -/
structure Settled (single : Number → S) (heap : Heap) (spawn : Bool) (slots last : ℕ) (m : Binding S Unit)
    (s : Running S) : Prop where
  finished : ∀ s', m s ≠ .error .unfinished s'
  peak : (after m s).peak = max s.peak (s.top + slots)
  calls : (after m s).calls = s.calls ∨
    ∃ index call, lastCall single heap spawn index last = .ok call ∧ (after m s).calls = s.calls ++ [call]
  returned : ∀ s', m s = .ok () s' → s'.top = s.top ∧
    ∃ index call, lastCall single heap spawn index last = .ok call ∧ s'.calls = s.calls ++ [call]

/-- The same with one more slot, which is given back at the end. -/
theorem Settled.pushed {slots last : ℕ} {deeper m : Binding S Unit} {s : Running S}
    (settled : Settled single heap spawn slots last deeper s.push)
    (ran : m s = (deeper >>= fun _ => modify Running.pop) s.push) :
    Settled single heap spawn (slots + 1) last m s := by
  have highest : max s.push.peak (s.push.top + slots) = max s.peak (s.top + (slots + 1)) := by
    simp only [Running.push]
    omega
  cases result : deeper s.push with
  | ok value left =>
    have whole : m s = .ok () left.pop := by
      rw [ran, bind_of_ok result]
      rfl
    obtain ⟨top, asked⟩ := settled.returned left result
    refine ⟨fun s' same => ?_, ?_, ?_, fun s' same => ?_⟩
    · rw [whole] at same
      cases same
    · rw [after_of_ok whole, ← highest, ← settled.peak, after_of_ok result]
      rfl
    · rw [after_of_ok whole]
      exact Or.inr asked
    · rw [whole] at same
      cases same
      refine ⟨?_, asked⟩
      change left.top - 1 = s.top
      rw [top]
      rfl
  | error e left =>
    have whole : m s = .error e left := by
      rw [ran, bind_of_error result]
    refine ⟨fun s' same => ?_, ?_, ?_, fun s' same => ?_⟩
    · rw [whole] at same
      cases same
      exact settled.finished left result
    · rw [after_of_error whole, ← highest, ← settled.peak, after_of_error result]
    · have calls := settled.calls
      rw [after_of_error result] at calls
      rw [after_of_error whole]
      exact calls
    · rw [whole] at same
      cases same

theorem settled_of_ends {id tables last : ℕ} (ends : Chain.Ends (inner heap) id tables last) {fuel : ℕ}
    (enough : tables ≤ fuel) (index : ℕ) (s : Running S) :
    Settled single heap spawn tables last (setRotationFromTable single server function heap spawn fuel index id) s := by
  induction ends generalizing fuel index s with
  | @last id stop =>
    obtain ⟨fuel, rfl⟩ := Nat.exists_eq_add_of_le' enough
    have ran : setRotationFromTable single server function heap spawn (fuel + 1) index id s =
        (checked (lastCall single heap spawn index id) >>= callServer server function) (s.below 0) := by
      rw [setRotationFromTable_last single server function spawn stop, setFromElements_eq, Running.below_below]
    cases read : lastCall single heap spawn index id with
    | error e =>
      rw [read] at ran
      have raised : setRotationFromTable single server function heap spawn (fuel + 1) index id s =
          .error (.argument e) (s.below 0) := ran
      refine ⟨fun s' same => ?_, ?_, ?_, fun s' same => ?_⟩
      · rw [raised] at same
        cases same
      · rw [after_of_error raised]
        rfl
      · rw [after_of_error raised]
        exact Or.inl rfl
      · rw [raised] at same
        cases same
    | ok call =>
      rw [read] at ran
      change _ = callServer server function call (s.below 0) at ran
      obtain ⟨finished, top, peak, calls, returned⟩ :=
        callServer_spec server function call (s.below 0)
      have left : after (setRotationFromTable single server function heap spawn (fuel + 1) index id) s =
          after (callServer server function call) (s.below 0) := by
        unfold after
        rw [ran]
      refine ⟨fun s' same => finished s' (ran ▸ same), ?_, ?_, fun s' same => ?_⟩
      · rw [left, peak]
        rfl
      · rw [left]
        exact calls.imp_right fun asked => ⟨index, call, read, asked⟩
      · have asked := returned s' (ran ▸ same)
        rw [after_of_ok (ran ▸ same)] at top
        exact ⟨top, index, call, read, asked⟩
  | @link id next last tables step rest ih =>
    obtain ⟨fuel, rfl⟩ := Nat.exists_eq_add_of_le' (Nat.le_of_add_left_le enough)
    have settled := ih (Nat.le_of_succ_le_succ enough) (s.top + 1) s.push
    exact settled.pushed single spawn (setRotationFromTable_inner single server function spawn step s)

/-- As long as the chain is longer than the fuel, the code is still on its way. -/
theorem unfinished_of_longer {id fuel : ℕ} (longer : ∀ tables last, Chain.Ends (inner heap) id tables last → fuel < tables)
    (index : ℕ) {s : Running S} (high : s.top ≤ s.peak) :
    ∃ s', setRotationFromTable single server function heap spawn fuel index id s = .error .unfinished s' ∧
      s'.calls = s.calls ∧ s'.peak = max s.peak (s.top + fuel) := by
  induction fuel generalizing id index s with
  | zero => exact ⟨s, rfl, rfl, (max_eq_left high).symm⟩
  | succ fuel ih =>
    cases step : inner heap id with
    | none =>
      have short := longer 1 id (Chain.Ends.last step)
      omega
    | some next =>
      rw [setRotationFromTable_inner single server function spawn step]
      have further : ∀ tables last, Chain.Ends (inner heap) next tables last → fuel < tables := by
        intro tables last rest
        have longer' := longer (tables + 1) last (Chain.Ends.link step rest)
        omega
      obtain ⟨s', ran, calls, peak⟩ := ih further (s.top + 1) (show s.push.top ≤ s.push.peak from le_max_right _ _)
      refine ⟨s', bind_of_error ran, calls, ?_⟩
      rw [peak]
      simp only [Running.push]
      omega

/-! ## The members -/

/-- A member that sets a rotation ends exactly when the chain of its table does: then it calls the
server at most once and holds one slot more than the tables and the value. Otherwise it is still
running after any number of steps. So it stays within `k` slots exactly for a chain of fewer tables. -/
theorem setRotation_exact (id top k : ℕ) :
    (∀ tables last, Chain.Ends (inner heap) id tables last → ∀ fuel, tables ≤ fuel →
      Settled single heap spawn (tables + 1) last (setRotation single server function heap spawn fuel (.table id))
        { top, peak := top }) ∧
    (∀ fuel, (∀ tables last, Chain.Ends (inner heap) id tables last → fuel < tables) →
      ∃ s', setRotation single server function heap spawn fuel (.table id) { top, peak := top } = .error .unfinished s' ∧
        s'.calls = [] ∧ s'.peak = top + fuel + 1) ∧
    ((∀ fuel, (after (setRotation single server function heap spawn fuel (.table id)) { top, peak := top }).peak ≤ top + k) ↔
      ∃ tables last, Chain.Ends (inner heap) id tables last ∧ tables < k) := by
  have settles : ∀ tables last, Chain.Ends (inner heap) id tables last → ∀ fuel, tables ≤ fuel →
      Settled single heap spawn (tables + 1) last (setRotation single server function heap spawn fuel (.table id))
        { top, peak := top } := by
    intro tables last ends fuel enough
    exact (settled_of_ends single server function spawn ends enough (top + 1) _).pushed single spawn rfl
  have longer : ∀ fuel, (∀ tables last, Chain.Ends (inner heap) id tables last → fuel < tables) →
      ∃ s', setRotation single server function heap spawn fuel (.table id) { top, peak := top } = .error .unfinished s' ∧
        s'.calls = [] ∧ s'.peak = top + fuel + 1 := by
    intro fuel further
    let start : Running S := { top, peak := top }
    obtain ⟨s', ran, calls, peak⟩ := unfinished_of_longer single server function spawn further (top + 1)
      (show start.push.top ≤ start.push.peak from le_max_right _ _)
    have whole : setRotation single server function heap spawn fuel (.table id) start = .error .unfinished s' := by
      change (setRotationFromTable single server function heap spawn fuel (top + 1) id >>= fun _ => modify Running.pop)
        start.push = _
      exact bind_of_error ran
    refine ⟨s', whole, calls, ?_⟩
    rw [peak]
    simp only [start, Running.push]
    omega
  refine ⟨settles, longer, ?_, ?_⟩
  · intro within
    by_cases ending : ∃ tables last, Chain.Ends (inner heap) id tables last
    · obtain ⟨tables, last, ends⟩ := ending
      have low := within tables
      rw [(settles tables last ends tables (Nat.le_refl _)).peak] at low
      exact ⟨tables, last, ends, by simp only at low; omega⟩
    · exfalso
      have low := within k
      obtain ⟨s', ran, -, peak⟩ := longer k fun tables last ends => absurd ⟨tables, last, ends⟩ ending
      rw [after_of_error ran, peak] at low
      omega
  · rintro ⟨tables, last, ends, fewer⟩ fuel
    rcases Nat.lt_or_ge fuel tables with short | enough
    · obtain ⟨s', ran, -, peak⟩ := longer fuel fun tables' last' ends' => (ends.unique ends').1 ▸ short
      rw [after_of_error ran, peak]
      omega
    · rw [(settles tables last ends fuel enough).peak]
      simp only
      omega

end

end VcmpLua.Model.Bindings.Rotation
