import Mathlib
import VcmpLua.Spec.TimerTicks

/-! # The rate of a timer

What a history of ticks and calls says about one timer. `account` is the timer as its history has
it; `LawfulTime` says of an event that it is what the scheduler may do after the events before it.
From that alone follows how often a timer is called (`Rate`), also when an exception ends some of
the ticks early; only that no call is lost needs ticks that return.
-/

namespace VcmpLua.Spec

open VcmpLua.Model.Core

inductive ClockEvent where
  /-- `Create` read the clock. -/
  | read (clock : ℤ)
  | created (id : ℕ) (clock interval repeats : ℤ)
  | destroyed (id : ℕ)
  | cleared
  /-- `Tick` read the clock. -/
  | ticked (now : ℤ)
  /-- The callback was called, and the timer is due again at `due`. -/
  | called (id : ℕ) (now due : ℤ)
  /-- The tick returned. -/
  | completed
  /-- An exception ended the tick. -/
  | aborted
deriving DecidableEq, Repr

/-- A timer as its history has it. -/
structure Account where
  interval : ℤ
  repeats : ℤ
  due : ℤ
  calls : ℕ := 0
  /-- The last tick since it was created. -/
  tick : Option ℤ := none
  /-- The calls in that tick. -/
  here : ℕ := 0
  /-- That tick has returned. -/
  settled : Bool := true
  /-- An exception ended a tick. -/
  broken : Bool := false
deriving DecidableEq, Repr

namespace Account

def remaining (account : Account) : ℤ :=
  if account.repeats = -1 then -1 else account.repeats - account.calls

def next (account : Account) (now : ℤ) : ℤ :=
  if account.due + account.interval ≤ now then now + account.interval else account.due + account.interval

def update (id : ℕ) (account : Option Account) : ClockEvent → Option Account
  | .created other clock interval repeats =>
    if other = id then some { interval, repeats, due := clock + interval } else account
  | .destroyed other => if other = id then none else account
  | .cleared => none
  | .ticked now => account.map fun account => { account with tick := some now, here := 0, settled := false }
  | .called other _ due =>
    if other = id then account.map fun account =>
      { account with due, calls := account.calls + 1, here := account.here + 1 }
    else account
  | .completed => account.map fun account => { account with settled := true }
  | .aborted => account.map fun account => { account with broken := true }
  | .read _ => account

/-- A call that the timer had left is counted off. -/
theorem remaining_called (account : Account) (more : account.repeats = -1 ∨ (account.calls : ℤ) < account.repeats)
    (due : ℤ) (here : ℕ) : ({ account with due, calls := account.calls + 1, here } : Account).remaining =
      if account.remaining > 0 then account.remaining - 1 else account.remaining := by
  simp only [remaining]
  push_cast
  split_ifs <;> omega

end Account

/-- The timer with this id, by what happened so far; none before it is created and after it is
destroyed. -/
def account (id : ℕ) (log : List ClockEvent) : Option Account := log.foldl (Account.update id) none

theorem account_snoc (id : ℕ) (log : List ClockEvent) (event : ClockEvent) :
    account id (log ++ [event]) = Account.update id (account id log) event := by
  rw [account, List.foldl_append]
  rfl

/-- The event is what the scheduler may do now. -/
def LawfulTime (log : List ClockEvent) : ClockEvent → Prop
  | .created id clock interval repeats =>
    .read clock ∈ log ∧ Scheduler.ValidTimer interval repeats ∧
      ∀ clock interval repeats, .created id clock interval repeats ∉ log
  | .ticked _ => ∀ id timer, account id log = some timer → timer.broken = false → timer.settled = true
  | .called id now due => ∃ timer, account id log = some timer ∧ timer.tick = some now ∧ timer.here = 0 ∧
      timer.due ≤ now ∧ (timer.broken = false → timer.repeats = -1 ∨ (timer.calls : ℤ) < timer.repeats) ∧
      due = timer.next now
  | .completed => ∀ id timer now, account id log = some timer → timer.broken = false → 1 ≤ timer.interval →
      timer.tick = some now → now < timer.due ∨ (timer.calls : ℤ) = timer.repeats
  | _ => True

inductive LawfulTimes : List ClockEvent → Prop
  | nil : LawfulTimes []
  | snoc {log : List ClockEvent} {event : ClockEvent} :
      LawfulTimes log → LawfulTime log event → LawfulTimes (log ++ [event])

/-! ## What a history says -/

def tickTimes (log : List ClockEvent) : List ℤ :=
  log.filterMap fun
    | .ticked now => some now
    | _ => none

def callCount (id : ℕ) (log : List ClockEvent) : ℕ :=
  log.countP fun
    | .called other _ _ => other = id
    | _ => false

/-- The first tick comes at most the interval after the clock reading, and each tick at most the
interval after the one before. -/
def OnTime (clock interval : ℤ) (log : List ClockEvent) : Prop :=
  (clock :: tickTimes log).IsChain fun time now => now ≤ time + interval

/-- The history from the creation of a timer that is not destroyed. -/
structure Undisturbed (log : List ClockEvent) (id : ℕ) (clock interval repeats : ℤ) (later : List ClockEvent) :
    Prop where
  created : ∃ before, log = before ++ .created id clock interval repeats :: later
  positive : 1 ≤ interval
  destroyed : .destroyed id ∉ later
  cleared : .cleared ∉ later
  sorted : (clock :: tickTimes later).Pairwise (· ≤ ·)

/-- The rate of every timer that is not destroyed. -/
structure Rate (log : List ClockEvent) : Prop where
  /-- It is called at most once for each interval that has passed. -/
  bounded : ∀ id clock interval repeats later, Undisturbed log id clock interval repeats later →
    ∀ time, clock ≤ time → (∀ now ∈ tickTimes later, now ≤ time) →
      (callCount id later : ℤ) ≤ (time - clock) / interval
  /-- It is called at most once in each tick. -/
  once : ∀ id clock interval repeats later, Undisturbed log id clock interval repeats later →
    ∀ early now inside rest, later = early ++ .ticked now :: (inside ++ rest) → tickTimes inside = [] →
      callCount id inside ≤ 1
  /-- After each call it is due again within one interval, and not at once. -/
  next : ∀ id clock interval repeats later, Undisturbed log id clock interval repeats later →
    ∀ now due, .called id now due ∈ later → now < due ∧ due ≤ now + interval
  /-- With ticks that return and are no further apart than the interval none of its calls is lost. -/
  exact : ∀ id clock interval repeats later, Undisturbed log id clock interval repeats later →
    ∀ early time, later = early ++ [.completed] → (tickTimes later).getLast? = some time → .aborted ∉ later →
    OnTime clock interval later →
      (callCount id later : ℤ) =
        if repeats = -1 then (time - clock) / interval else min repeats ((time - clock) / interval)

/-! ## Consequences of lawful events -/

namespace LawfulTimes

theorem event {log : List ClockEvent} (lawful : LawfulTimes log) :
    ∀ {before after : List ClockEvent} {event : ClockEvent}, log = before ++ event :: after →
      LawfulTime before event := by
  induction lawful with
  | nil => simp
  | @snoc log last _ holds ih =>
    intro before after event split
    rcases List.eq_nil_or_concat after with rfl | ⟨rest, final, rfl⟩
    · obtain ⟨rfl, same⟩ := List.append_inj' split rfl
      cases same
      exact holds
    · rw [List.concat_eq_append, ← List.cons_append, ← List.append_assoc] at split
      exact ih (List.append_inj' split rfl).1

theorem of_append {log later : List ClockEvent} (lawful : LawfulTimes (log ++ later)) : LawfulTimes log := by
  induction later using List.reverseRecOn with
  | nil => simpa using lawful
  | append_singleton later last ih =>
    refine ih ?_
    rw [← List.append_assoc] at lawful
    generalize whole : log ++ later ++ [last] = all at lawful
    cases lawful with
    | nil => simp at whole
    | snoc lawful _ =>
      obtain ⟨rfl, -⟩ := List.append_inj' whole rfl
      exact lawful

end LawfulTimes

/-- What the account of an undisturbed timer is after some events. -/
structure Follows (id : ℕ) (clock interval repeats : ℤ) (later : List ClockEvent) (timer : Account) : Prop where
  sameInterval : timer.interval = interval
  sameRepeats : timer.repeats = repeats
  calls : timer.calls = callCount id later
  tick : timer.tick = (tickTimes later).getLast?
  unbroken : .aborted ∉ later → timer.broken = false ∧ (repeats = -1 ∨ (timer.calls : ℤ) ≤ repeats)
  due : clock + (timer.calls + 1) * interval ≤ timer.due
  bounded : ∀ time, clock ≤ time → (∀ now ∈ tickTimes later, now ≤ time) → timer.calls * interval ≤ time - clock

section Counts

variable {id : ℕ} {later : List ClockEvent} {event : ClockEvent}

private theorem callCount_snoc (id : ℕ) (later : List ClockEvent) (event : ClockEvent) :
    callCount id (later ++ [event]) = callCount id later + callCount id [event] := List.countP_append

private theorem tickTimes_snoc (later : List ClockEvent) (event : ClockEvent) :
    tickTimes (later ++ [event]) = tickTimes later ++ tickTimes [event] := List.filterMap_append

end Counts

namespace Follows

variable {id : ℕ} {clock interval repeats : ℤ} {later : List ClockEvent} {timer : Account}

theorem init (id : ℕ) (clock interval : ℤ) {repeats : ℤ} (valid : repeats = -1 ∨ 0 < repeats) :
    Follows id clock interval repeats [] { interval, repeats, due := clock + interval } where
  sameInterval := rfl
  sameRepeats := rfl
  calls := rfl
  tick := rfl
  unbroken _ := ⟨rfl, valid.imp_right fun positive => by simpa using positive.le⟩
  due := by simp
  bounded time later _ := by simpa using later

/-- An event that leaves the account as it is, as far as it matters here. -/
theorem other (follows : Follows id clock interval repeats later timer) {event : ClockEvent}
    (noTick : ∀ now, event ≠ .ticked now) (noCall : callCount id [event] = 0) (settled broken : Bool)
    (breaks : broken = timer.broken ∨ event = .aborted) :
    Follows id clock interval repeats (later ++ [event]) { timer with settled, broken } := by
  have ticks : tickTimes (later ++ [event]) = tickTimes later := by
    rw [tickTimes_snoc]
    cases event <;> first | exact absurd rfl (noTick _) | exact List.append_nil _
  refine { follows with calls := ?_, tick := ?_, unbroken := fun returned => ?_, bounded := ?_ }
  · rw [callCount_snoc, noCall, follows.calls, Nat.add_zero]
  · rw [ticks]
    exact follows.tick
  · simp only [List.mem_append, List.mem_singleton, not_or] at returned
    obtain ⟨whole, left⟩ := follows.unbroken returned.1
    exact ⟨(breaks.resolve_right (Ne.symm returned.2)).trans whole, left⟩
  · rw [ticks]
    exact follows.bounded

theorem ticked (follows : Follows id clock interval repeats later timer) (now : ℤ) :
    Follows id clock interval repeats (later ++ [.ticked now])
      { timer with tick := some now, here := 0, settled := false } := by
  have ticks : tickTimes (later ++ [.ticked now]) = tickTimes later ++ [now] := tickTimes_snoc _ _
  refine { follows with calls := ?_, tick := ?_, unbroken := fun returned => ?_, bounded := fun time after below => ?_ }
  · rw [callCount_snoc]
    exact follows.calls
  · rw [ticks, List.getLast?_concat]
  · exact follows.unbroken fun member => returned (List.mem_append_left _ member)
  · rw [ticks] at below
    exact follows.bounded time after fun other member => below other (List.mem_append_left _ member)

/-- A call: the timer was due, so one more interval has passed. -/
theorem called (follows : Follows id clock interval repeats later timer) {now due : ℤ}
    (tick : timer.tick = some now) (isDue : timer.due ≤ now)
    (more : timer.broken = false → timer.repeats = -1 ∨ (timer.calls : ℤ) < timer.repeats)
    (next : due = timer.next now) :
    Follows id clock interval repeats (later ++ [.called id now due])
      { timer with due, calls := timer.calls + 1, here := timer.here + 1 } := by
  have ticks : tickTimes (later ++ [.called id now due]) = tickTimes later :=
    (tickTimes_snoc _ _).trans (List.append_nil _)
  have passed : clock + (timer.calls + 1) * interval ≤ now := follows.due.trans isDue
  have step : ((timer.calls : ℤ) + 1 + 1) * interval = (timer.calls + 1) * interval + interval := by
    rw [Int.add_mul (timer.calls + 1) 1, Int.one_mul]
  refine { follows with calls := ?_, tick := ?_, unbroken := fun returned => ?_, due := ?_, bounded := fun time after below => ?_ }
  · simp [follows.calls, callCount]
  · rw [ticks]
    exact follows.tick
  · obtain ⟨whole, -⟩ := follows.unbroken fun member => returned (List.mem_append_left _ member)
    have fewer := more whole
    rw [follows.sameRepeats] at fewer
    push_cast
    exact ⟨whole, fewer.imp_right fun fewer => by omega⟩
  · have known := follows.due
    rw [next, Account.next, follows.sameInterval]
    push_cast
    rw [step]
    split_ifs <;> omega
  · rw [ticks] at below
    have before := below now (List.mem_of_getLast? (follows.tick.symm.trans tick))
    push_cast
    omega

end Follows

/-- The account of an undisturbed timer exists and follows its history. -/
theorem exists_follows {before later : List ClockEvent} {id : ℕ} {clock interval repeats : ℤ}
    (lawful : LawfulTimes (before ++ .created id clock interval repeats :: later))
    (undestroyed : .destroyed id ∉ later) (uncleared : .cleared ∉ later) :
    ∃ timer, account id (before ++ .created id clock interval repeats :: later) = some timer ∧
      Follows id clock interval repeats later timer := by
  induction later using List.reverseRecOn with
  | nil =>
    have valid := (lawful.event rfl).2.1.2
    refine ⟨_, ?_, .init id clock interval valid⟩
    rw [account_snoc]
    exact if_pos rfl
  | append_singleton later event ih =>
    have split : before ++ .created id clock interval repeats :: (later ++ [event]) =
        (before ++ .created id clock interval repeats :: later) ++ [event] := by simp
    rw [split] at lawful ⊢
    have holds : LawfulTime (before ++ .created id clock interval repeats :: later) event := lawful.event rfl
    obtain ⟨timer, known, follows⟩ := ih lawful.of_append (fun member => undestroyed (List.mem_append_left _ member))
      fun member => uncleared (List.mem_append_left _ member)
    rw [account_snoc, known]
    cases event with
    | read time => exact ⟨timer, rfl, follows.other (by exact nofun) rfl _ _ (.inl rfl)⟩
    | created other clock' interval' repeats' =>
      have different : other ≠ id := by
        rintro rfl
        exact holds.2.2 clock interval repeats (by simp)
      exact ⟨timer, if_neg different, follows.other (by exact nofun) rfl _ _ (.inl rfl)⟩
    | destroyed other =>
      have different : other ≠ id := by
        rintro rfl
        exact undestroyed (by simp)
      exact ⟨timer, if_neg different, follows.other (by exact nofun) rfl _ _ (.inl rfl)⟩
    | cleared => exact absurd (List.mem_append_right _ (List.mem_singleton_self _)) uncleared
    | ticked now => exact ⟨_, rfl, follows.ticked now⟩
    | completed => exact ⟨_, rfl, follows.other (by exact nofun) rfl _ _ (.inl rfl)⟩
    | aborted => exact ⟨_, rfl, follows.other (by exact nofun) rfl _ _ (.inr rfl)⟩
    | called other now due =>
      by_cases same : other = id
      · subst same
        obtain ⟨_, stored, tick, -, isDue, more, next⟩ := holds
        rw [known] at stored
        cases stored
        exact ⟨_, if_pos rfl, follows.called tick isDue more next⟩
      · refine ⟨timer, if_neg same, follows.other (by exact nofun) ?_ _ _ (.inl rfl)⟩
        simp [callCount, same]

/-- With ticks on time, the account of an undisturbed timer has not fallen behind. -/
structure Prompt (clock interval : ℤ) (timer : Account) : Prop where
  due : timer.due = clock + (timer.calls + 1) * interval
  settled : timer.settled = true ∨ timer.tick = none →
    timer.tick.getD clock < timer.due ∨ (timer.calls : ℤ) = timer.repeats
  near : ∀ now ∈ timer.tick, now < timer.due + interval ∨ (timer.calls : ℤ) = timer.repeats

theorem prompt_of_onTime {before later : List ClockEvent} {id : ℕ} {clock interval repeats : ℤ}
    (lawful : LawfulTimes (before ++ .created id clock interval repeats :: later)) (positive : 1 ≤ interval)
    (undestroyed : .destroyed id ∉ later) (uncleared : .cleared ∉ later) (returned : .aborted ∉ later)
    (onTime : OnTime clock interval later) {timer : Account}
    (known : account id (before ++ .created id clock interval repeats :: later) = some timer) :
    Prompt clock interval timer := by
  induction later using List.reverseRecOn generalizing timer with
  | nil =>
    rw [account_snoc, Account.update, if_pos rfl] at known
    cases known
    exact ⟨by simp, fun _ => .inl (by simp; omega), nofun⟩
  | append_singleton later event ih =>
    have split : before ++ .created id clock interval repeats :: (later ++ [event]) =
        (before ++ .created id clock interval repeats :: later) ++ [event] := by simp
    rw [split] at lawful known
    have holds : LawfulTime (before ++ .created id clock interval repeats :: later) event := lawful.event rfl
    have undestroyed' : .destroyed id ∉ later := fun member => undestroyed (List.mem_append_left _ member)
    have uncleared' : .cleared ∉ later := fun member => uncleared (List.mem_append_left _ member)
    have returned' : .aborted ∉ later := fun member => returned (List.mem_append_left _ member)
    obtain ⟨onTime', gap⟩ : OnTime clock interval later ∧
        ∀ now, event = .ticked now → now ≤ (tickTimes later).getLast?.getD clock + interval := by
      rw [OnTime, tickTimes_snoc, ← List.cons_append, List.isChain_append] at onTime
      refine ⟨onTime.1, fun now same => onTime.2.2 _ ?_ now ?_⟩
      · simp [List.getLast?_cons]
      · simp [same, tickTimes]
    obtain ⟨timer', known', follows⟩ := exists_follows lawful.of_append undestroyed' uncleared'
    obtain ⟨whole, -⟩ := follows.unbroken returned'
    have prompt := ih lawful.of_append undestroyed' uncleared' returned' onTime' known'
    rw [account_snoc, known'] at known
    cases event with
    | read time =>
      cases known
      exact prompt
    | created other clock' interval' repeats' =>
      have different : other ≠ id := by
        rintro rfl
        exact holds.2.2 clock interval repeats (by simp)
      rw [Account.update, if_neg different] at known
      cases known
      exact prompt
    | destroyed other =>
      have different : other ≠ id := by
        rintro rfl
        exact undestroyed (by simp)
      rw [Account.update, if_neg different] at known
      cases known
      exact prompt
    | cleared => exact absurd (List.mem_append_right _ (List.mem_singleton_self _)) uncleared
    | aborted => exact absurd (List.mem_append_right _ (List.mem_singleton_self _)) returned
    | ticked now =>
      cases known
      refine ⟨prompt.due, fun settled => by simp at settled, ?_⟩
      rintro _ ⟨⟩
      have near := gap now rfl
      rw [← follows.tick] at near
      exact (prompt.settled (.inl (holds id timer' known' whole))).imp_left fun late => by
        simp only
        omega
    | completed =>
      cases known
      refine ⟨prompt.due, fun _ => ?_, prompt.near⟩
      cases tick : timer'.tick with
      | none => simpa [tick] using prompt.settled (.inr tick)
      | some now => simpa [tick] using holds id timer' now known' whole (by rw [follows.sameInterval]; exact positive) tick
    | called other now due =>
      by_cases same : other = id
      · subst same
        obtain ⟨_, stored, tick, -, isDue, more, next⟩ := holds
        rw [known'] at stored
        cases stored
        rw [Account.update, if_pos rfl] at known
        cases known
        have unended : (timer'.calls : ℤ) ≠ timer'.repeats := by
          have := more whole
          omega
        have near := (prompt.near now tick).resolve_right unended
        have kept : due = timer'.due + interval := by
          rw [next, Account.next, follows.sameInterval, if_neg (by omega)]
        refine ⟨?_, fun _ => .inl ?_, ?_⟩
        · rw [kept, prompt.due]
          push_cast
          rw [Int.add_mul (timer'.calls + 1) 1, Int.one_mul, Int.add_assoc]
        · simp only [tick, Option.getD_some, kept]
          exact near
        · simp only [tick, Option.mem_def, Option.some.injEq]
          rintro _ rfl
          exact .inl (by omega)
      · rw [Account.update, if_neg same] at known
        cases known
        exact prompt

/-- The calls since the last tick began. -/
theorem here_eq {log inside : List ClockEvent} {id : ℕ} {now : ℤ} (lawful : LawfulTimes (log ++ .ticked now :: inside))
    (noTick : tickTimes inside = []) {timer : Account} (known : account id (log ++ .ticked now :: inside) = some timer)
    (present : ∃ timer, account id log = some timer) (undestroyed : .destroyed id ∉ inside)
    (uncleared : .cleared ∉ inside) (uncreated : ∀ clock interval repeats, .created id clock interval repeats ∉ inside) :
    timer.here = callCount id inside ∧ callCount id inside ≤ 1 := by
  induction inside using List.reverseRecOn generalizing timer with
  | nil =>
    obtain ⟨timer', known'⟩ := present
    rw [account_snoc, known'] at known
    cases known
    exact ⟨rfl, Nat.zero_le 1⟩
  | append_singleton inside event ih =>
    have split : log ++ .ticked now :: (inside ++ [event]) = (log ++ .ticked now :: inside) ++ [event] := by simp
    rw [split] at lawful known
    have holds : LawfulTime (log ++ .ticked now :: inside) event := lawful.event rfl
    rw [tickTimes_snoc, List.append_eq_nil_iff] at noTick
    rw [account_snoc] at known
    have ih' := fun {timer : Account} (known : account id (log ++ .ticked now :: inside) = some timer) =>
      ih lawful.of_append noTick.1 known (fun member => undestroyed (List.mem_append_left _ member))
        (fun member => uncleared (List.mem_append_left _ member))
        fun clock interval repeats member => uncreated clock interval repeats (List.mem_append_left _ member)
    rw [callCount_snoc]
    cases event with
    | read time => exact ih' known
    | created other clock interval repeats =>
      have different : other ≠ id := by
        rintro rfl
        exact uncreated clock interval repeats (by simp)
      rw [Account.update, if_neg different] at known
      exact ih' known
    | destroyed other =>
      have different : other ≠ id := by
        rintro rfl
        exact undestroyed (by simp)
      rw [Account.update, if_neg different] at known
      exact ih' known
    | cleared => exact absurd (List.mem_append_right _ (List.mem_singleton_self _)) uncleared
    | ticked other => simp [tickTimes] at noTick
    | completed | aborted =>
      obtain ⟨timer', known', rfl⟩ := Option.map_eq_some_iff.mp known
      exact (ih' known' : timer'.here = callCount id inside ∧ _)
    | called other time due =>
      by_cases same : other = id
      · subst same
        obtain ⟨timer', known', -, first, -⟩ := holds
        rw [known', Account.update, if_pos rfl] at known
        cases known
        obtain ⟨counted, -⟩ := ih' known'
        simp only [callCount, List.countP_singleton, decide_true, ↓reduceIte] at counted ⊢
        omega
      · rw [Account.update, if_neg same] at known
        have none : callCount id [.called other time due] = 0 := by simp [callCount, same]
        rw [none]
        exact ih' known

/-- No timer is created twice. -/
theorem not_created_again {before later : List ClockEvent} {id : ℕ} {clock interval repeats : ℤ}
    (lawful : LawfulTimes (before ++ .created id clock interval repeats :: later)) (clock' interval' repeats' : ℤ) :
    .created id clock' interval' repeats' ∉ later := by
  intro member
  obtain ⟨early, rest, rfl⟩ := List.append_of_mem member
  have split : before ++ .created id clock interval repeats :: (early ++ .created id clock' interval' repeats' :: rest) =
      (before ++ .created id clock interval repeats :: early) ++ .created id clock' interval' repeats' :: rest := by simp
  exact (lawful.event split).2.2 clock interval repeats (by simp)

/-- A lawful history has the right rate. -/
theorem LawfulTimes.rate {log : List ClockEvent} (lawful : LawfulTimes log) : Rate log where
  bounded id clock interval repeats later timer time after below := by
    obtain ⟨⟨before, rfl⟩, positive, undestroyed, uncleared, -⟩ := timer
    obtain ⟨timer, -, follows⟩ := exists_follows lawful undestroyed uncleared
    rw [← follows.calls]
    exact (Int.le_ediv_iff_mul_le (by omega)).mpr (follows.bounded time after below)
  once id clock interval repeats later timer early now inside rest whole noTick := by
    obtain ⟨⟨before, rfl⟩, positive, undestroyed, uncleared, -⟩ := timer
    subst whole
    have split : before ++ .created id clock interval repeats :: (early ++ .ticked now :: (inside ++ rest)) =
        (before ++ .created id clock interval repeats :: early) ++ .ticked now :: inside ++ rest := by simp
    have unrepeated := not_created_again lawful
    rw [split] at lawful
    have prior := lawful.of_append
    simp only [List.mem_append, List.mem_cons, not_or] at undestroyed uncleared unrepeated
    obtain ⟨timer, known, -⟩ := exists_follows prior.of_append undestroyed.1 uncleared.1
    have joined : (before ++ .created id clock interval repeats :: early) ++ .ticked now :: inside =
        before ++ .created id clock interval repeats :: (early ++ .ticked now :: inside) := by simp
    obtain ⟨timer', known', -⟩ := exists_follows (joined ▸ prior) (by simp [undestroyed]) (by simp [uncleared])
    rw [← joined] at known'
    exact (here_eq prior noTick known' ⟨timer, known⟩ undestroyed.2.2.1 uncleared.2.2.1
      fun clock interval repeats => (unrepeated clock interval repeats).2.2.1).2
  next id clock interval repeats later timer now due member := by
    obtain ⟨⟨before, rfl⟩, positive, undestroyed, uncleared, -⟩ := timer
    obtain ⟨early, rest, rfl⟩ := List.append_of_mem member
    have split : before ++ .created id clock interval repeats :: (early ++ .called id now due :: rest) =
        (before ++ .created id clock interval repeats :: early) ++ .called id now due :: rest := by simp
    rw [split] at lawful
    simp only [List.mem_append, not_or] at undestroyed uncleared
    obtain ⟨timer, known, follows⟩ := exists_follows lawful.of_append undestroyed.1 uncleared.1
    obtain ⟨_, stored, -, -, isDue, -, rfl⟩ := lawful.event rfl
    rw [known] at stored
    cases stored
    rw [Account.next, follows.sameInterval]
    split_ifs <;> omega
  exact id clock interval repeats later timer early time whole last returned onTime := by
    obtain ⟨⟨before, rfl⟩, positive, undestroyed, uncleared, sorted⟩ := timer
    obtain ⟨timer, known, follows⟩ := exists_follows lawful undestroyed uncleared
    have prompt := prompt_of_onTime lawful positive undestroyed uncleared returned onTime known
    have settled : timer.settled = true := by
      rw [whole, ← List.cons_append, ← List.append_assoc, account_snoc] at known
      obtain ⟨_, -, rfl⟩ := Option.map_eq_some_iff.mp known
      rfl
    obtain ⟨ticks, all⟩ := List.getLast?_eq_some_iff.mp last
    rw [all, List.pairwise_cons, List.pairwise_append] at sorted
    have bounded := follows.bounded time (sorted.1 time (by simp)) fun now member => by
      rw [all, List.mem_append, List.mem_singleton] at member
      exact member.elim (fun early => sorted.2.2.2 now early time (by simp)) fun same => same.le
    have floor : timer.calls ≤ (time - clock) / interval := (Int.le_ediv_iff_mul_le (by omega)).mpr bounded
    have ended : (time - clock) / interval < timer.calls + 1 ∨ (timer.calls : ℤ) = repeats := by
      refine (prompt.settled (.inl settled)).imp (fun late => ?_) fun ended => ended.trans follows.sameRepeats
      rw [follows.tick, last, Option.getD_some, prompt.due] at late
      rw [Int.ediv_lt_iff_lt_mul (by omega)]
      omega
    obtain ⟨-, left⟩ := follows.unbroken returned
    rw [← follows.calls]
    split_ifs with forever
    · omega
    · omega

/-! ## Clock readings -/

/-- Every clock reading is far enough from the end of the range. -/
structure InRange (log : List ClockEvent) : Prop where
  read : ∀ clock, .read clock ∈ log → 0 ≤ clock ∧ clock < 2 ^ 63 - 2 ^ 40
  ticked : ∀ now, .ticked now ∈ log → 0 ≤ now ∧ now < 2 ^ 63 - 2 ^ 40

theorem InRange.of_append {log later : List ClockEvent} (range : InRange (log ++ later)) : InRange log :=
  ⟨fun clock member => range.read clock (List.mem_append_left _ member),
    fun now member => range.ticked now (List.mem_append_left _ member)⟩

/-- What every account has from the events it was made by. -/
structure Sound (log : List ClockEvent) (id : ℕ) (timer : Account) : Prop where
  created : ∃ clock interval repeats, .created id clock interval repeats ∈ log
  valid : Scheduler.ValidTimer timer.interval timer.repeats
  tick : ∀ now ∈ timer.tick, .ticked now ∈ log
  due : InRange log → 0 ≤ timer.due

theorem Sound.mono {log : List ClockEvent} {id : ℕ} {timer timer' : Account} (sound : Sound log id timer)
    (event : ClockEvent) (interval : timer'.interval = timer.interval) (repeats : timer'.repeats = timer.repeats)
    (tick : ∀ now ∈ timer'.tick, now ∈ timer.tick ∨ event = .ticked now)
    (due : InRange (log ++ [event]) → 0 ≤ timer.due → 0 ≤ timer'.due) : Sound (log ++ [event]) id timer' where
  created := by
    obtain ⟨clock, interval, repeats, member⟩ := sound.created
    exact ⟨clock, interval, repeats, List.mem_append_left _ member⟩
  valid := by
    rw [interval, repeats]
    exact sound.valid
  tick now member := by
    rcases tick now member with old | same
    · exact List.mem_append_left _ (sound.tick now old)
    · rw [same]
      exact List.mem_append_right _ (List.mem_singleton_self _)
  due range := due range (sound.due range.of_append)

theorem LawfulTimes.sound {log : List ClockEvent} (lawful : LawfulTimes log) {id : ℕ} {timer : Account}
    (known : account id log = some timer) : Sound log id timer := by
  induction lawful generalizing timer with
  | nil => cases known
  | @snoc log event lawful holds ih =>
    rw [account_snoc] at known
    have unchanged : account id log = some timer → Sound (log ++ [event]) id timer := fun known =>
      (ih known).mono event rfl rfl (fun _ member => .inl member) fun _ due => due
    cases event with
    | read clock => exact unchanged known
    | created other clock interval repeats =>
      rw [Account.update] at known
      split_ifs at known with same
      · cases known
        obtain ⟨read, valid, -⟩ := holds
        refine ⟨⟨clock, interval, repeats, by simp [same]⟩, valid, nofun, fun range => ?_⟩
        have least := (range.of_append.read clock read).1
        have positive := valid.1.1
        simp only
        omega
      · exact unchanged known
    | destroyed other =>
      rw [Account.update] at known
      split_ifs at known
      exact unchanged known
    | cleared => cases known
    | ticked now =>
      obtain ⟨timer', known', rfl⟩ := Option.map_eq_some_iff.mp known
      refine (ih known').mono _ rfl rfl ?_ fun _ due => due
      rintro _ ⟨⟩
      exact .inr rfl
    | completed | aborted =>
      obtain ⟨timer', known', rfl⟩ := Option.map_eq_some_iff.mp known
      exact (ih known').mono _ rfl rfl (fun _ member => .inl member) fun _ due => due
    | called other now due =>
      rw [Account.update] at known
      split_ifs at known with same
      · subst same
        obtain ⟨timer', known', rfl⟩ := Option.map_eq_some_iff.mp known
        obtain ⟨_, stored, tick, -, isDue, -, rfl⟩ := holds
        rw [known'] at stored
        cases stored
        have sound := ih known'
        refine sound.mono _ rfl rfl (fun _ member => .inl member) fun range positive => ?_
        have least := (range.of_append.ticked now (sound.tick now tick)).1
        have grows := sound.valid.1.1
        simp only [Account.next]
        split_ifs <;> omega
      · exact unchanged known

end VcmpLua.Spec
