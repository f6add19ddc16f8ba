import VcmpLua.Lib.History
import VcmpLua.Model.Modules.Http

/-! # What the history of the HTTP module says

Where a request stands is a matter of history alone: it waits from the return of its `Start` until
libcurl reports it in a `Pump`, which then calls its callback, or until a `Clear` drops it. `Lawful`
says of a history that each event agrees with this at its moment; `Delivery` lists what that means
over a whole run.
-/

namespace VcmpLua.Spec

open VcmpLua.Model.Core VcmpLua.Model.Modules

/-- The transfers in the map and the easy handles in the multi handle. -/
structure Snapshot where
  pending : List ℕ
  handles : List ℕ
deriving DecidableEq, Repr

inductive HttpEvent where
  /-- The state between two operations. -/
  | seen (snapshot : Snapshot)
  | start
  | started (id : ℕ) (callback : Fn)
  | refused
  /-- A `Pump` begins, in which libcurl reports these handles. -/
  | pump (number : ℕ) (reports : List (ℕ × Outcome))
  /-- This `Pump` calls a callback. -/
  | called (number id : ℕ) (callback : Fn) (answer : Answer)
  | pumped (number : ℕ)
  | clear
  | pending (count : ℕ)
deriving DecidableEq, Repr

/-- Where a request stands. -/
inductive Stage where
  | unknown
  | waiting (callback : Fn)
  | reported (number : ℕ) (callback : Fn) (outcome : Outcome)
  | called
  | dropped
deriving DecidableEq, Repr

/-- What libcurl reports of a handle. -/
def reportOf (id : ℕ) (reports : List (ℕ × Outcome)) : Option Outcome :=
  (reports.find? (·.1 = id)).map (·.2)

def Stage.next (id : ℕ) (stage : Stage) : HttpEvent → Stage
  | .started other callback => if other = id then .waiting callback else stage
  | .pump number reports =>
    match stage, reportOf id reports with
    | .waiting callback, some outcome => .reported number callback outcome
    | stage, _ => stage
  | .called _ other _ _ => if other = id then .called else stage
  | .clear =>
    match stage with
    | .waiting _ => .dropped
    | stage => stage
  | .seen _ | .start | .refused | .pumped _ | .pending _ => stage

def stage (log : List HttpEvent) (id : ℕ) : Stage := log.foldl (Stage.next id) .unknown

structure Snapshot.Lawful (log : List HttpEvent) (snapshot : Snapshot) : Prop where
  nodup : snapshot.pending.Nodup
  handles_nodup : snapshot.handles.Nodup
  same : ∀ id, id ∈ snapshot.pending ↔ id ∈ snapshot.handles
  waiting : ∀ id, id ∈ snapshot.pending ↔ ∃ callback, stage log id = .waiting callback
  bounded : snapshot.pending.length ≤ Http.kMaxPending

/-- The event agrees with the history before it. -/
def HttpEvent.Lawful (log : List HttpEvent) : HttpEvent → Prop
  | .seen snapshot => snapshot.Lawful log
  | .start => True
  | .started id _ => stage log id = .unknown
  | .refused => True
  | .pump number _ => ∀ other reports, .pump other reports ∈ log → other < number
  | .called number id callback answer =>
    ∃ outcome, stage log id = .reported number callback outcome ∧ answer = Http.answer outcome
  | .pumped number => ∀ id callback outcome, stage log id ≠ .reported number callback outcome
  | .clear => ∃ snapshot, log.getLast? = some (.seen snapshot)
  | .pending count => count ≤ Http.kMaxPending

/-- A call of `Start` does nothing but succeed or fail. -/
def HttpEvent.Prompt (log : List HttpEvent) (event : HttpEvent) : Prop :=
  log.getLast? = some .start ↔ (∃ id callback, event = .started id callback) ∨ event = .refused

abbrev HttpLawful : List HttpEvent → Prop := Obeys fun log event => event.Lawful log ∧ event.Prompt log

def HttpEvent.isCall (id : ℕ) : HttpEvent → Bool
  | .called _ other _ _ => other = id
  | _ => false

/-- How often the callback of a request was called. -/
def calls (log : List HttpEvent) (id : ℕ) : ℕ := log.countP (HttpEvent.isCall id)

/-- Delivery over a whole run. -/
structure Delivery (log : List HttpEvent) : Prop where
  once : ∀ id, calls log id ≤ 1
  /-- A callback is called by a `Pump` that began after its `Start`, when libcurl reported it and
  no `Clear` came in between, and before that `Pump` returns. -/
  called : ∀ before number id callback answer after, log = before ++ .called number id callback answer :: after →
    ∃ first middle last reports outcome,
      before = first ++ .started id callback :: (middle ++ .pump number reports :: last) ∧ .clear ∉ middle ∧
        reportOf id reports = some outcome ∧ answer = Http.answer outcome ∧ .pumped number ∉ last
  /-- The numbers tell the calls of `Pump` apart. -/
  numbers : ∀ before number reports after, log = before ++ .pump number reports :: after →
    ∀ other, .pump number other ∉ before
  /-- No id is handed out twice. -/
  fresh : ∀ before id callback after, log = before ++ .started id callback :: after →
    (∀ other, .started id other ∉ before ∧ .started id other ∉ after) ∧ calls before id = 0
  /-- A request that a `Clear` finds pending is never called. -/
  dropped : ∀ before snapshot after, log = before ++ .seen snapshot :: .clear :: after →
    ∀ id ∈ snapshot.pending, calls log id = 0
  /-- Nothing happens inside `Start`. -/
  start : ∀ before event after, log = before ++ .start :: event :: after →
    (∃ id callback, event = .started id callback) ∨ event = .refused
  /-- A `Start` that throws leaves the pending transfers as they were. -/
  refused : ∀ before one two after, log = before ++ .seen one :: .start :: .refused :: .seen two :: after →
    ∀ id, id ∈ two.pending ↔ id ∈ one.pending
  /-- The pending transfers are the easy handles in the multi handle, at most 1000 of them. -/
  seen : ∀ before snapshot after, log = before ++ .seen snapshot :: after →
    snapshot.pending.Nodup ∧ snapshot.handles.Nodup ∧ (∀ id, id ∈ snapshot.pending ↔ id ∈ snapshot.handles) ∧
      snapshot.pending.length ≤ 1000
  pending : ∀ count, .pending count ∈ log → count ≤ 1000

/-! ## Consequences of lawful events -/

section Stage

variable {log : List HttpEvent} {event : HttpEvent} {id : ℕ}

@[simp] theorem stage_nil (id : ℕ) : stage [] id = .unknown := rfl

@[simp] theorem stage_snoc (log : List HttpEvent) (event : HttpEvent) (id : ℕ) :
    stage (log ++ [event]) id = (stage log id).next id event := by
  rw [stage, List.foldl_append]
  rfl

@[simp] theorem calls_snoc (log : List HttpEvent) (event : HttpEvent) (id : ℕ) :
    calls (log ++ [event]) id = calls log id + if event.isCall id then 1 else 0 := by
  rw [calls, List.countP_append, List.countP_singleton]
  rfl

/-- Events that change no stage. -/
def HttpEvent.Neutral : HttpEvent → Prop
  | .seen _ | .pumped _ | .pending _ => True
  | _ => False

theorem stage_neutral (log : List HttpEvent) (neutral : event.Neutral) (id : ℕ) :
    stage (log ++ [event]) id = stage log id := by
  rw [stage_snoc]
  cases event with
  | seen | pumped | pending => rfl
  | _ => exact neutral.elim

/-- A request that was called or dropped stays so unless it is started again. -/
theorem Stage.next_final {stage : Stage} (final : stage = .called ∨ stage = .dropped)
    (other : ∀ callback, event ≠ .started id callback) (uncalled : event.isCall id = false) :
    stage.next id event = stage := by
  cases event with
  | started same callback =>
    have different : same ≠ id := by
      rintro rfl
      exact other callback rfl
    exact if_neg different
  | called number same callback answer =>
    have different : same ≠ id := by simpa [HttpEvent.isCall] using uncalled
    exact if_neg different
  | pump => rcases final with rfl | rfl <;> rfl
  | clear => rcases final with rfl | rfl <;> rfl
  | seen | start | refused | pumped | pending => rfl

theorem Stage.next_pump_waiting {stage : Stage} {number : ℕ} {reports : List (ℕ × Outcome)} {callback : Fn} :
    stage.next id (.pump number reports) = .waiting callback ↔
      stage = .waiting callback ∧ reportOf id reports = none := by
  cases stage <;> cases report : reportOf id reports <;> simp [Stage.next, report]

theorem Stage.next_pump_reported {stage : Stage} {number other : ℕ} {reports : List (ℕ × Outcome)} {callback : Fn}
    {outcome : Outcome} : stage.next id (.pump number reports) = .reported other callback outcome ↔
      number = other ∧ stage = .waiting callback ∧ reportOf id reports = some outcome ∨
        stage = .reported other callback outcome := by
  cases stage <;> cases report : reportOf id reports <;> simp [Stage.next, report]

end Stage

/-- How a request came to its stage. -/
def Story (log : List HttpEvent) (id : ℕ) : Stage → Prop
  | .unknown => ∀ callback, .started id callback ∉ log
  | .waiting callback => ∃ first rest, log = first ++ .started id callback :: rest ∧ .clear ∉ rest
  | .reported number callback outcome => ∃ first middle last reports,
      log = first ++ .started id callback :: (middle ++ .pump number reports :: last) ∧ .clear ∉ middle ∧
        reportOf id reports = some outcome ∧ .pumped number ∉ last
  | .called => True
  | .dropped => ∃ before snapshot after, log = before ++ .seen snapshot :: .clear :: after ∧ id ∈ snapshot.pending

/-- An event that leaves the stage as it is. -/
theorem Story.snoc {log : List HttpEvent} {id : ℕ} {stage : Stage} {event : HttpEvent} (story : Story log id stage)
    (unstarted : stage = .unknown → ∀ callback, event ≠ .started id callback)
    (kept : ∀ callback, stage = .waiting callback → event ≠ .clear)
    (running : ∀ number callback outcome, stage = .reported number callback outcome → event ≠ .pumped number) :
    Story (log ++ [event]) id stage := by
  cases stage with
  | unknown =>
    intro callback member
    rcases List.mem_append.mp member with earlier | now
    · exact story callback earlier
    · exact unstarted rfl callback (List.mem_singleton.mp now).symm
  | waiting callback =>
    obtain ⟨first, rest, rfl, clean⟩ := story
    refine ⟨first, rest ++ [event], by simp, fun member => ?_⟩
    rcases List.mem_append.mp member with earlier | now
    · exact clean earlier
    · exact kept callback rfl (List.mem_singleton.mp now).symm
  | reported number callback outcome =>
    obtain ⟨first, middle, last, reports, rfl, clean, report, unreturned⟩ := story
    refine ⟨first, middle, last ++ [event], reports, by simp, clean, report, fun member => ?_⟩
    rcases List.mem_append.mp member with earlier | now
    · exact unreturned earlier
    · exact running number callback outcome rfl (List.mem_singleton.mp now).symm
  | called => trivial
  | dropped =>
    obtain ⟨before, snapshot, after, rfl, member⟩ := story
    exact ⟨before, snapshot, after ++ [event], by simp, member⟩

namespace HttpLawful

variable {log : List HttpEvent} {id : ℕ}

theorem event (lawful : HttpLawful log) {before after : List HttpEvent} {event : HttpEvent}
    (split : log = before ++ event :: after) : HttpLawful before ∧ event.Lawful before ∧ event.Prompt before :=
  Obeys.event lawful split

theorem calls_eq (lawful : HttpLawful log) (id : ℕ) : calls log id = if stage log id = .called then 1 else 0 := by
  induction lawful with
  | nil => rfl
  | @snoc log event lawful law ih =>
    obtain ⟨holds, -⟩ := law
    rw [calls_snoc, stage_snoc, ih]
    cases event with
    | started other callback =>
      by_cases same : other = id
      · subst same
        have unknown : stage log other = .unknown := holds
        simp [unknown, Stage.next, HttpEvent.isCall]
      · simp [Stage.next, HttpEvent.isCall, same]
    | called number other callback answer =>
      by_cases same : other = id
      · subst same
        obtain ⟨outcome, reported, -⟩ := holds
        simp [reported, Stage.next, HttpEvent.isCall]
      · simp [Stage.next, HttpEvent.isCall, same]
    | pump number reports =>
      cases at_ : stage log id <;> cases report : reportOf id reports <;> simp [Stage.next, HttpEvent.isCall, report]
    | clear => cases at_ : stage log id <;> simp [Stage.next, HttpEvent.isCall]
    | seen | start | refused | pumped | pending => rfl

theorem story (lawful : HttpLawful log) (id : ℕ) : Story log id (stage log id) := by
  induction lawful with
  | nil => exact fun callback => List.not_mem_nil
  | @snoc log event lawful law ih =>
    obtain ⟨holds, -⟩ := law
    rw [stage_snoc]
    cases event with
    | started other callback =>
      simp only [Stage.next]
      split_ifs with same
      · subst same
        exact ⟨log, [], rfl, List.not_mem_nil⟩
      · exact ih.snoc (fun _ _ start => same (by cases start; rfl)) nofun nofun
    | pump number reports =>
      simp only [Stage.next]
      split
      · rename_i callback outcome waits report
        rw [waits] at ih
        obtain ⟨first, rest, rfl, kept⟩ := ih
        exact ⟨first, rest, [], reports, by simp, kept, report, List.not_mem_nil⟩
      · exact ih.snoc nofun nofun nofun
    | called number other callback answer =>
      simp only [Stage.next]
      split_ifs with same
      · trivial
      · exact ih.snoc nofun nofun nofun
    | clear =>
      simp only [Stage.next]
      split
      · rename_i callback waits
        obtain ⟨snapshot, last⟩ := holds
        obtain ⟨before, rfl⟩ := List.getLast?_eq_some_iff.mp last
        obtain ⟨-, seen, -⟩ := HttpLawful.event lawful rfl
        rw [stage_snoc] at waits
        exact ⟨before, snapshot, [], by simp, (seen.waiting id).mpr ⟨callback, waits⟩⟩
      · rename_i stays
        exact ih.snoc nofun (fun callback waits => absurd waits (stays callback)) nofun
    | pumped number =>
      refine ih.snoc nofun nofun fun other callback outcome reported same => ?_
      cases same
      exact holds id callback outcome reported
    | seen | start | refused | pending => exact ih.snoc nofun nofun nofun

/-- A request that was started has left the first stage for good. -/
theorem stage_ne_unknown {callback : Fn} (lawful : HttpLawful log) (started : .started id callback ∈ log) :
    stage log id ≠ .unknown := by
  intro unknown
  have story := lawful.story id
  rw [unknown] at story
  exact story callback started

/-- A request that is over is not called from then on. -/
theorem stage_append (later : List HttpEvent) (lawful : HttpLawful (log ++ later))
    (final : stage log id = .called ∨ stage log id = .dropped) : stage (log ++ later) id = stage log id := by
  refine Obeys.holds_append (P := fun log' => stage log' id = stage log id) rfl (fun log' event _ same law => ?_) later
    lawful
  obtain ⟨holds, -⟩ := law
  rw [stage_snoc, same]
  refine Stage.next_final final (fun callback start => ?_) ?_
  · subst start
    have unknown : stage log' id = .unknown := holds
    rw [same] at unknown
    rcases final with called | dropped
    · cases called.symm.trans unknown
    · cases dropped.symm.trans unknown
  · cases event with
    | called number other callback answer =>
      obtain ⟨outcome, reported, -⟩ := holds
      refine decide_eq_false fun own => ?_
      rw [own, same] at reported
      rcases final with called | dropped
      · cases called.symm.trans reported
      · cases dropped.symm.trans reported
    | _ => rfl

theorem calls_le (lawful : HttpLawful log) (id : ℕ) : calls log id ≤ 1 := by
  rw [lawful.calls_eq]
  split_ifs <;> decide

/-- A lawful history delivers. -/
theorem delivery (lawful : HttpLawful log) : Delivery log where
  once := lawful.calls_le
  called before number id callback answer after split := by
    obtain ⟨earlier, ⟨outcome, reported, answers⟩, -⟩ := lawful.event split
    have story := earlier.story id
    rw [reported] at story
    obtain ⟨first, middle, last, reports, whole, kept, report, running⟩ := story
    exact ⟨first, middle, last, reports, outcome, whole, kept, report, answers, running⟩
  numbers before number reports after split other member := by
    obtain ⟨-, above, -⟩ := lawful.event split
    exact Nat.lt_irrefl _ (above number other member)
  fresh before id callback after split := by
    obtain ⟨earlier, unknown, -⟩ := lawful.event split
    have story := earlier.story id
    change stage before id = .unknown at unknown
    rw [unknown] at story
    refine ⟨fun other => ⟨story other, fun again => ?_⟩, by simp [earlier.calls_eq, unknown]⟩
    obtain ⟨middle, rest, rfl⟩ := List.append_of_mem again
    have resplit : log = (before ++ .started id callback :: middle) ++ .started id other :: rest := by
      rw [split, List.append_assoc, List.cons_append]
    obtain ⟨later, unknown', -⟩ := lawful.event resplit
    exact later.stage_ne_unknown (List.mem_append_right _ (List.mem_cons_self ..)) unknown'
  dropped before snapshot after split id member := by
    obtain ⟨-, seen, -⟩ := lawful.event split
    obtain ⟨callback, waits⟩ := (seen.waiting id).mp member
    have resplit : log = (before ++ [.seen snapshot] ++ [.clear]) ++ after := by simp [split]
    have gone : stage (before ++ [.seen snapshot] ++ [.clear]) id = .dropped := by
      rw [stage_snoc, stage_snoc, waits]
      rfl
    subst resplit
    rw [lawful.calls_eq, stage_append after lawful (.inr gone), gone]
    rfl
  start before event after split := by
    have resplit : log = (before ++ [.start]) ++ event :: after := by simp [split]
    obtain ⟨-, -, prompt⟩ := lawful.event resplit
    exact prompt.mp (by simp)
  refused before one two after split id := by
    obtain ⟨-, first, -⟩ := lawful.event split
    have resplit : log = (before ++ [.seen one] ++ [.start] ++ [.refused]) ++ .seen two :: after := by simp [split]
    obtain ⟨-, second, -⟩ := lawful.event resplit
    rw [second.waiting id, first.waiting id, stage_snoc, stage_snoc, stage_snoc]
    rfl
  seen before snapshot after split := by
    obtain ⟨-, seen, -⟩ := lawful.event split
    exact ⟨seen.nodup, seen.handles_nodup, seen.same, seen.bounded⟩
  pending count member := by
    obtain ⟨before, after, split⟩ := List.append_of_mem member
    exact (lawful.event split).2.1

end HttpLawful

end VcmpLua.Spec
