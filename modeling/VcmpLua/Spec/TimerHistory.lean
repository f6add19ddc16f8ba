import Mathlib
import VcmpLua.Spec.TimerTicks

/-! # What the history of a scheduler says

Which timers exist is a matter of history alone: a timer that was created and since then neither
destroyed nor cleared away exists until its last call has returned. `Lawful` says of a history that
each event agrees with this at its moment; `Lifetimes` lists what that means over a whole run.
-/

namespace VcmpLua.Spec

/-- The events since the last `Clear`. -/
def sinceClear (log : List TimerEvent) : List TimerEvent :=
  log.foldl (fun events event => if event = .cleared then [] else events ++ [event]) []

/-- The timer exists, by what happened so far. -/
def Alive (log : List TimerEvent) (id : ℕ) : Prop :=
  ∃ repeats, .created id repeats ∈ sinceClear log ∧ .destroyed id true ∉ log ∧
    (repeats = -1 ∨ (log.count (.returned id) : ℤ) < repeats)

/-- The event agrees with the history before it. -/
def LawfulEvent (log : List TimerEvent) : TimerEvent → Prop
  | .created id repeats => (∀ other, .created id other ∉ log) ∧ (repeats = -1 ∨ 0 < repeats)
  | .existed id answer => answer = true ↔ Alive log id
  | .destroyed id answer => answer = true ↔ Alive log id
  | .counted count => count = {id | Alive log id}.ncard
  | .started id => Alive log id ∧ log.count (.started id) = log.count (.returned id)
  | .returned _ => True
  | .cleared => True

inductive Lawful : List TimerEvent → Prop
  | nil : Lawful []
  | snoc {log : List TimerEvent} {event : TimerEvent} :
      Lawful log → LawfulEvent log event → Lawful (log ++ [event])

/-- Timer lifetimes over a whole run. -/
structure Lifetimes (log : List TimerEvent) : Prop where
  /-- `Exists` answers what history says, at every call. -/
  existed : ∀ before id answer after, log = before ++ .existed id answer :: after →
    (answer = true ↔ Alive before id)
  /-- `Destroy` returns true exactly when `Exists` held just before. -/
  destroyed : ∀ before id answer after, log = before ++ .destroyed id answer :: after →
    (answer = true ↔ Alive before id)
  /-- `Count` is the number of ids that exist. -/
  counted : ∀ before count after, log = before ++ .counted count :: after →
    count = {id | Alive before id}.ncard
  /-- A timer with `n > 0` repeats is started at most `n` times. -/
  started_le : ∀ id repeats, .created id repeats ∈ log → 0 < repeats →
    (log.count (.started id) : ℤ) ≤ repeats
  /-- Once its `n`-th call returned, it never exists again. -/
  ended : ∀ before after id repeats, log = before ++ after → .created id repeats ∈ before →
    (before.count (.returned id) : ℤ) = repeats → ¬ Alive log id
  /-- A timer created with -1 ends only through `Destroy` or `Clear`. -/
  forever : ∀ id, .created id (-1) ∈ log → Alive log id ∨ .destroyed id true ∈ log ∨
    ∃ before after, log = before ++ after ∧ .created id (-1) ∈ before ∧ .cleared ∈ after
  /-- `Destroy` returns true at most once for each id. -/
  destroyed_once : ∀ id, log.count (.destroyed id true) ≤ 1
  /-- After it did, the timer never exists again and is never started again. -/
  gone : ∀ before id after, log = before ++ .destroyed id true :: after →
    ¬ Alive log id ∧ .existed id true ∉ after ∧ .started id ∉ after
  /-- No id is handed out twice. -/
  fresh : ∀ before id repeats after, log = before ++ .created id repeats :: after →
    ∀ other, .created id other ∉ before ∧ .created id other ∉ after

/-! ## Consequences of lawful events -/

section SinceClear

variable {log : List TimerEvent} {event : TimerEvent}

@[simp] theorem sinceClear_cleared (log : List TimerEvent) : sinceClear (log ++ [.cleared]) = [] := by
  simp [sinceClear]

theorem sinceClear_snoc (other : event ≠ .cleared) : sinceClear (log ++ [event]) = sinceClear log ++ [event] := by
  simp [sinceClear, other]

theorem mem_of_mem_sinceClear (member : event ∈ sinceClear log) : event ∈ log := by
  induction log using List.reverseRecOn with
  | nil => cases member
  | append_singleton log last ih =>
    by_cases cleared : last = .cleared
    · subst cleared
      simp at member
    · rw [sinceClear_snoc cleared, List.mem_append] at member
      exact List.mem_append.mpr (member.imp_left ih)

/-- What is not in the current epoch was cleared away. -/
theorem mem_sinceClear_or (member : event ∈ log) (other : event ≠ .cleared) : event ∈ sinceClear log ∨
    ∃ before after, log = before ++ after ∧ event ∈ before ∧ .cleared ∈ after := by
  induction log using List.reverseRecOn with
  | nil => cases member
  | append_singleton log last ih =>
    rcases List.mem_append.mp member with earlier | now
    · by_cases cleared : last = .cleared
      · exact .inr ⟨log, [last], rfl, earlier, by simp [cleared]⟩
      · rcases ih earlier with current | ⟨before, after, rfl, old, clear⟩
        · rw [sinceClear_snoc cleared]
          exact .inl (List.mem_append_left _ current)
        · exact .inr ⟨before, after ++ [last], by rw [List.append_assoc], old, List.mem_append_left _ clear⟩
    · have same := List.mem_singleton.mp now
      rw [← same, sinceClear_snoc other]
      exact .inl (List.mem_append_right _ (List.mem_singleton_self _))

end SinceClear

section Alive

variable {log : List TimerEvent} {event : TimerEvent} {id : ℕ}

theorem Alive.created (alive : Alive log id) : ∃ repeats, .created id repeats ∈ log :=
  alive.imp fun _ facts => mem_of_mem_sinceClear facts.1

theorem not_alive_of_destroyed (gone : .destroyed id true ∈ log) : ¬ Alive log id :=
  fun ⟨_, _, kept, _⟩ => kept gone

/-- A timer comes to exist only by being created. -/
theorem alive_of_alive_snoc (alive : Alive (log ++ [event]) id) (other : ∀ repeats, event ≠ .created id repeats) :
    Alive log id := by
  obtain ⟨repeats, created, kept, more⟩ := alive
  refine ⟨repeats, ?_, fun gone => kept (List.mem_append_left _ gone), more.imp_right fun fewer => ?_⟩
  · by_cases cleared : event = .cleared
    · subst cleared
      simp at created
    · rw [sinceClear_snoc cleared, List.mem_append, List.mem_singleton] at created
      exact created.resolve_right fun same => other repeats same.symm
  · rw [List.count_append] at fewer
    omega

end Alive

namespace Lawful

variable {log : List TimerEvent} {id : ℕ}

theorem event {log : List TimerEvent} (lawful : Lawful log) :
    ∀ {before after : List TimerEvent} {event : TimerEvent}, log = before ++ event :: after →
      LawfulEvent before event := by
  induction lawful with
  | nil => simp
  | @snoc log last _ holds ih =>
    intro before after event split
    rcases List.eq_nil_or_concat after with rfl | ⟨rest, final, rfl⟩
    · obtain ⟨rfl, same⟩ := List.append_inj' split rfl
      cases same
      exact holds
    · rw [List.concat_eq_append, ← List.cons_append, ← List.append_assoc] at split
      exact ih (List.append_inj' split rfl).1

theorem last {event : TimerEvent} (lawful : Lawful (log ++ [event])) : LawfulEvent log event := by
  have split : log ++ [event] = log ++ event :: [] := rfl
  exact lawful.event split

theorem of_append {later : List TimerEvent} (lawful : Lawful (log ++ later)) : Lawful log := by
  induction later using List.reverseRecOn with
  | nil => simpa using lawful
  | append_singleton later last ih =>
    refine ih ?_
    rw [← List.append_assoc] at lawful
    generalize whole : log ++ later ++ [last] = all at lawful
    cases lawful with
    | nil => simp at whole
    | snoc lawful _ =>
      obtain ⟨rfl, -⟩ := List.append_inj' whole rfl
      exact lawful

theorem created_unique (lawful : Lawful log) {first second : ℤ} (one : .created id first ∈ log)
    (two : .created id second ∈ log) : first = second := by
  induction lawful with
  | nil => cases one
  | @snoc log last _ holds ih =>
    rw [List.mem_append, List.mem_singleton] at one two
    rcases one with one | rfl <;> rcases two with two | same
    · exact ih one two
    · subst same
      exact absurd one (holds.1 first)
    · exact absurd two (holds.1 second)
    · cases same
      rfl

/-- Once a timer has ended, it stays so. -/
theorem not_alive_append (later : List TimerEvent) (lawful : Lawful (log ++ later)) {repeats : ℤ}
    (created : .created id repeats ∈ log) (ended : ¬ Alive log id) : ¬ Alive (log ++ later) id := by
  induction later using List.reverseRecOn with
  | nil => simpa using ended
  | append_singleton later last ih =>
    rw [← List.append_assoc] at lawful ⊢
    refine fun alive => ih lawful.of_append (alive_of_alive_snoc alive ?_)
    rintro other rfl
    exact lawful.last.1 repeats (List.mem_append_left _ created)

theorem created_of_started (lawful : Lawful log) (started : .started id ∈ log) :
    ∃ repeats, .created id repeats ∈ log := by
  obtain ⟨before, after, rfl⟩ := List.append_of_mem started
  obtain ⟨repeats, created⟩ := (lawful.event rfl).1.created
  exact ⟨repeats, List.mem_append_left _ created⟩

theorem count_started_le (lawful : Lawful log) {repeats : ℤ} (created : .created id repeats ∈ log)
    (positive : 0 < repeats) : (log.count (.started id) : ℤ) ≤ repeats := by
  induction lawful with
  | nil => cases created
  | @snoc log last lawful holds ih =>
    rw [List.mem_append, List.mem_singleton] at created
    rw [List.count_append, List.count_singleton]
    rcases created with created | rfl
    · have bounded := ih created
      split_ifs with same
      · have isStart : last = .started id := by simpa using same
        subst isStart
        obtain ⟨⟨other, member, -, more⟩, balanced⟩ := holds
        have unique := lawful.created_unique created (mem_of_mem_sinceClear member)
        omega
      · omega
    · have none : log.count (.started id) = 0 := by
        refine List.count_eq_zero.mpr fun started => ?_
        obtain ⟨other, created⟩ := lawful.created_of_started started
        exact holds.1 other created
      simp [none]
      omega

theorem count_destroyed_le (lawful : Lawful log) (id : ℕ) : log.count (.destroyed id true) ≤ 1 := by
  induction lawful with
  | nil => simp
  | @snoc log last lawful holds ih =>
    rw [List.count_append, List.count_singleton]
    split_ifs with same
    · have isDestroy : last = .destroyed id true := by simpa using same
      subst isDestroy
      obtain ⟨_, -, kept, -⟩ := holds.mp rfl
      rw [List.count_eq_zero.mpr kept]
    · exact ih

/-- A lawful history has lawful lifetimes. -/
theorem lifetimes (lawful : Lawful log) : Lifetimes log where
  existed _ _ _ _ split := lawful.event split
  destroyed _ _ _ _ split := lawful.event split
  counted _ _ _ split := lawful.event split
  started_le _ _ created positive := lawful.count_started_le created positive
  ended before after id repeats split created returned := by
    subst split
    refine not_alive_append after lawful created ?_
    rintro ⟨other, member, -, more⟩
    have unique := lawful.of_append.created_unique created (mem_of_mem_sinceClear member)
    omega
  forever id created := by
    rcases mem_sinceClear_or created nofun with current | cleared
    · by_cases gone : .destroyed id true ∈ log
      · exact .inr (.inl gone)
      · exact .inl ⟨-1, current, gone, .inl rfl⟩
    · exact .inr (.inr cleared)
  destroyed_once := lawful.count_destroyed_le
  gone before id after split := by
    have contradiction : ∀ {event : TimerEvent}, event ∈ after →
        ∃ prior, LawfulEvent prior event ∧ ¬ Alive prior id := by
      intro event member
      obtain ⟨middle, rest, rfl⟩ := List.append_of_mem member
      have resplit : log = (before ++ .destroyed id true :: middle) ++ event :: rest := by
        rw [split, List.append_assoc, List.cons_append]
      refine ⟨_, lawful.event resplit, not_alive_of_destroyed ?_⟩
      exact List.mem_append_right _ (List.mem_cons_self ..)
    refine ⟨not_alive_of_destroyed ?_, fun member => ?_, fun member => ?_⟩
    · rw [split]
      exact List.mem_append_right _ (List.mem_cons_self ..)
    · obtain ⟨prior, holds, ended⟩ := contradiction member
      exact ended (holds.mp rfl)
    · obtain ⟨prior, holds, ended⟩ := contradiction member
      exact ended holds.1
  fresh before id repeats after split other := by
    refine ⟨(lawful.event split).1 other, fun member => ?_⟩
    obtain ⟨middle, rest, rfl⟩ := List.append_of_mem member
    have resplit : log = (before ++ .created id repeats :: middle) ++ .created id other :: rest := by
      rw [split, List.append_assoc, List.cons_append]
    exact (lawful.event resplit).1 repeats (List.mem_append_right _ (List.mem_cons_self ..))

end Lawful

end VcmpLua.Spec
