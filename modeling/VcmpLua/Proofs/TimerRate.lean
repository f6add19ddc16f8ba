import VcmpLua.Model.Core.Clock
import VcmpLua.Spec.TimerRate

/-! # The scheduler keeps the rate of its timers

The scheduler on a 64-bit clock, with a record of its clock readings, ticks and calls. The invariant
ties every timer to its account in that record (`RateInv`); while a tick runs, `TickInv` says what
is left to call. What callbacks do in between can only create timers, and end them (`Quiet`). An
addition that does not fit is undefined behaviour, which no run reaches as long as the clock readings
are in range.
-/

namespace VcmpLua.Model.Core

open Effect VcmpLua.Spec

/-- The scheduler with the invoker it calls through and the record of what happened. -/
structure ClockCore where
  invoker : Invoker := {}
  timers : Scheduler := {}
  thisTimer : LuaValue := 0
  log : List ClockEvent := []

instance : HasTimers ClockCore where
  invoker := ClockCore.invoker
  setInvoker invoker core := { core with invoker }
  markDead core := { core with invoker := { core.invoker with dead := true } }
  scheduler := ClockCore.timers
  setScheduler timers core := { core with timers }
  thisTimer := ClockCore.thisTimer
  setThisTimer thisTimer core := { core with thisTimer }

namespace ClockCore

def record (event : ClockEvent) (core : ClockCore) : ClockCore := { core with log := core.log ++ [event] }

/-- The scheduler's answer to each request; an exception is a Lua error. The arguments of `Create`
are checked before the clock is read. -/
def serve (op : TimerOp) (_ : Empty → EStateM Exn ClockCore HandlerEnd) : EStateM Exn ClockCore TimerAnswer :=
  match op with
  | .create callback interval repeats args clock => fun core =>
    match core.timers.create64 callback interval repeats args clock with
    | .error (.thrown _) => .ok .failed core
    | .error .undefined => .error .undefined (core.record (.read clock))
    | .ok (id, timers) =>
      .ok (.timer id) (record (.created id clock interval repeats) { core.record (.read clock) with timers })
  | .setHandle id handle => fun core => .ok .done { core with timers := core.timers.setHandle id handle }
  | .destroy id => fun core =>
    let (answer, timers) := core.timers.destroy id
    .ok (.flag answer) (if answer then record (.destroyed id) { core with timers } else { core with timers })
  | .exists id => fun core => .ok (.flag (core.timers.exists id)) core
  | .count => fun core => .ok (.number core.timers.count) core

/-- One call of a callback, recorded. -/
def callback (now : ℤ) (callbacks : ℕ → EStateM Exn ClockCore HandlerEnd) (id : ℕ) : EStateM Exn ClockCore Ending := do
  modify fun core => core.record (.called id now ((core.timers.timers id).getD {}).due)
  let ended ← callbacks id
  return ended.toEnding

/-- A tick, recorded; one that finds no timers does not read the clock. -/
def tick (now : ℤ) (callbacks : ℕ → EStateM Exn ClockCore HandlerEnd) : EStateM Exn ClockCore Unit := do
  if (← get).timers.ids.isEmpty then
    return
  modify (record (.ticked now))
  onError (Scheduler.tick64 now fun id _ _ => callback now callbacks id) (record .aborted)
  modify (record .completed)

def clear (core : ClockCore) : ClockCore := record .cleared { core with timers := core.timers.clear }

/-- One step of a run. -/
def step : TimerStep → EStateM Exn ClockCore Unit
  | .request op => discard (serve op nofun)
  | .tick now callbacks => tick now fun id => (callbacks id).run serve
  | .clear => modify clear

/-- A run: exceptions end at the server's callbacks. -/
def run (steps : List TimerStep) : EStateM Exn ClockCore Unit := forEach (fun next => discard (asBinding (step next))) steps

end ClockCore

/-! ## The invariant -/

/-- The timer of an account is in the map, or it has ended. -/
def Stored (core : ClockCore) (running : Option ℕ) (id : ℕ) (timer : Account) : Prop :=
  (∃ node, core.timers.timers id = some node ∧ node.destroyed = false ∧ node.interval = timer.interval ∧
    node.due = timer.due ∧ (timer.broken = false → node.remaining = timer.remaining ∧
      (timer.repeats = -1 ∨ (timer.calls : ℤ) < timer.repeats ∨
        running = some id ∧ (timer.calls : ℤ) = timer.repeats))) ∨
  (core.timers.timers id = none ∧ running ≠ some id ∧ (timer.broken = false → (timer.calls : ℤ) = timer.repeats))

/-- The timers are what the record says; `running` is the timer whose callback runs. -/
structure RateInv (running : Option ℕ) (core : ClockCore) : Prop where
  usable : core.invoker.dead = false
  lawful : LawfulTimes core.log
  bounded : ∀ id, core.timers.nextId ≤ id → core.timers.timers id = none
  created : ∀ id clock interval repeats, .created id clock interval repeats ∈ core.log → id < core.timers.nextId
  busy : ∀ id ∈ running, ∃ node, core.timers.timers id = some node ∧ node.running = true
  gone : ∀ id node, account id core.log = none → core.timers.timers id = some node → node.destroyed = true
  kept : ∀ id timer, account id core.log = some timer → Stored core running id timer

/-- What the invariant depends on in a node. -/
def Timer.facts (node : Timer) : ℤ × ℤ × ℤ × Bool × Bool :=
  (node.interval, node.due, node.remaining, node.running, node.destroyed)

section Invariant

variable {running : Option ℕ} {core core' : ClockCore}

theorem find_of_facts {nodes nodes' : Option Timer} (same : nodes'.map Timer.facts = nodes.map Timer.facts) {node : Timer}
    (found : nodes' = some node) : ∃ old, nodes = some old ∧ old.facts = node.facts := by
  rw [found, Option.map_some, eq_comm, Option.map_eq_some_iff] at same
  exact same

theorem RateInv.congr (inv : RateInv running core) (usable : core'.invoker.dead = false) (log : core'.log = core.log)
    (nextId : core'.timers.nextId = core.timers.nextId)
    (nodes : ∀ id, (core'.timers.timers id).map Timer.facts = (core.timers.timers id).map Timer.facts) :
    RateInv running core' := by
  have nodes' := fun id => (nodes id).symm
  refine ⟨usable, log ▸ inv.lawful, fun id beyond => ?_, log ▸ nextId ▸ inv.created, fun id member => ?_,
    fun id node none found => ?_, fun id timer known => ?_⟩
  · have missing := nodes id
    rw [inv.bounded id (nextId ▸ beyond)] at missing
    simpa using missing
  · obtain ⟨node, found, runs⟩ := inv.busy id member
    obtain ⟨node', found', facts⟩ := find_of_facts (nodes' id) found
    simp only [Timer.facts, Prod.mk.injEq] at facts
    exact ⟨node', found', facts.2.2.2.1.trans runs⟩
  · obtain ⟨node', found', facts⟩ := find_of_facts (nodes id) found
    simp only [Timer.facts, Prod.mk.injEq] at facts
    rw [← facts.2.2.2.2]
    exact inv.gone id node' (log ▸ none) found'
  · rcases inv.kept id timer (log ▸ known) with ⟨node, found, alive, interval, due, rest⟩ | ⟨missing, rest⟩
    · obtain ⟨node', found', facts⟩ := find_of_facts (nodes' id) found
      simp only [Timer.facts, Prod.mk.injEq] at facts
      obtain ⟨sameInterval, sameDue, sameRemaining, -, sameDestroyed⟩ := facts
      refine .inl ⟨node', found', sameDestroyed.trans alive, sameInterval.trans interval, sameDue.trans due, ?_⟩
      rw [sameRemaining]
      exact rest
    · have missing' := nodes id
      rw [missing] at missing'
      exact .inr ⟨by simpa using missing', rest⟩

/-- An event that changes no account. -/
theorem RateInv.record (inv : RateInv running core) {event : ClockEvent}
    (neutral : ∀ id, account id (core.log ++ [event]) = account id core.log)
    (other : ∀ id clock interval repeats, event ≠ .created id clock interval repeats)
    (holds : LawfulTime core.log event) : RateInv running (core.record event) := by
  refine ⟨inv.usable, inv.lawful.snoc holds, inv.bounded, fun id clock interval repeats member => ?_, inv.busy,
    fun id node none found => ?_, fun id timer known => ?_⟩
  · refine inv.created id clock interval repeats ((List.mem_append.mp member).resolve_right fun last => ?_)
    exact other _ _ _ _ (List.mem_singleton.mp last).symm
  · exact inv.gone id node ((neutral id).symm.trans none) found
  · exact inv.kept id timer ((neutral id).symm.trans known)

theorem RateInv.lt_nextId (inv : RateInv running core) {id : ℕ} {node : Timer}
    (found : core.timers.timers id = some node) : id < core.timers.nextId := by
  by_contra beyond
  rw [inv.bounded id (Nat.le_of_not_lt beyond)] at found
  cases found

/-- Nothing is known yet of the id that the next timer gets. -/
theorem RateInv.unused (inv : RateInv running core) : account core.timers.nextId core.log = none := by
  cases known : account core.timers.nextId core.log with
  | none => rfl
  | some timer =>
    obtain ⟨clock, interval, repeats, member⟩ := (inv.lawful.sound known).created
    exact absurd (inv.created _ _ _ _ member) (Nat.lt_irrefl _)

end Invariant

/-! ## Requests -/

/-- Callbacks only create timers, which no tick has seen yet, and end them. -/
structure Quiet (core core' : ClockCore) : Prop where
  nextId : core.timers.nextId ≤ core'.timers.nextId
  accounts : ∀ id, account id core'.log = account id core.log ∨ account id core'.log = none ∨
    (core.timers.nextId ≤ id ∧ ∃ timer, account id core'.log = some timer ∧ timer.tick = none ∧ timer.settled = true)

instance : IsPreorder ClockCore Quiet where
  refl core := ⟨Nat.le_refl _, fun _ => .inl rfl⟩
  trans first second third one two := by
    refine ⟨one.nextId.trans two.nextId, fun id => ?_⟩
    rcases two.accounts id with same | gone | ⟨beyond, isNew⟩
    · rw [same]
      exact one.accounts id
    · exact .inr (.inl gone)
    · exact .inr (.inr ⟨one.nextId.trans beyond, isNew⟩)

/-- What an invariant promises for later. -/
def Preserves (I : ClockCore → Prop) (core core' : ClockCore) : Prop := I core → I core'

instance (I : ClockCore → Prop) : IsPreorder ClockCore (Preserves I) where
  refl _ := id
  trans _ _ _ one two := two ∘ one

/-- Only clock readings out of range lead to an overflow. -/
def Defined {α : Type} (m : EStateM Exn ClockCore α) : Prop :=
  ∀ core core', m core = .error .undefined core' → ¬ InRange core'.log

/-- `Create` refuses its arguments, overflows, or stores the timer in the next slot. -/
theorem Scheduler.create64_cases {scheduler : Scheduler} (callback : Fn) (interval repeats : ℤ) (args : List LuaValue)
    (clock : ℤ) :
    (∃ what, scheduler.create64 callback interval repeats args clock = .error (.thrown what)) ∨
      Scheduler.ValidTimer interval repeats ∧
        (scheduler.create64 callback interval repeats args clock = .error .undefined ∧
          ¬ (-2 ^ 63 ≤ clock + interval ∧ clock + interval < 2 ^ 63) ∨
        scheduler.create64 callback interval repeats args clock =
          scheduler.create callback interval repeats args clock) := by
  by_cases good : Scheduler.ValidTimer interval repeats
  · right
    refine ⟨good, ?_⟩
    by_cases fits : -2 ^ 63 ≤ clock + interval ∧ clock + interval < 2 ^ 63
    · exact .inr (Scheduler.create64_of_fits (addInt64_of_bounds fits.1 fits.2))
    · refine .inl ⟨?_, fits⟩
      obtain ⟨goodInterval, goodRepeats⟩ := good
      rw [Scheduler.create64, if_neg (by omega), if_neg (by omega), addInt64, if_neg fits]
      rfl
  · left
    unfold Scheduler.create64
    split_ifs with badInterval badRepeats
    · exact ⟨_, rfl⟩
    · exact ⟨_, rfl⟩
    · exact absurd ⟨by omega, by omega⟩ good

/-- `Destroy` refuses, or it marks the timer that runs and removes any other. -/
theorem Scheduler.destroy_cases (scheduler : Scheduler) (id : ℕ) :
    scheduler.destroy id = (false, scheduler) ∨
      ∃ node, scheduler.timers id = some node ∧ node.destroyed = false ∧ scheduler.destroy id =
        (true, scheduler.setTimer id (if node.running then some { node with destroyed := true } else none)) := by
  unfold Scheduler.destroy
  cases found : scheduler.timers id with
  | none => exact .inl rfl
  | some node =>
    cases destroyed : node.destroyed with
    | true => exact .inl (by simp only [destroyed, ↓reduceIte])
    | false =>
      refine .inr ⟨node, rfl, destroyed, ?_⟩
      cases runs : node.running <;> simp only [destroyed, runs, Bool.false_eq_true, ↓reduceIte]

section Serve

variable {running : Option ℕ} {core : ClockCore}

theorem RateInv.read (inv : RateInv running core) (clock : ℤ) : RateInv running (core.record (.read clock)) :=
  inv.record (fun id => account_snoc id _ _) nofun trivial

theorem RateInv.create (inv : RateInv running core) {interval repeats : ℤ}
    (good : Scheduler.ValidTimer interval repeats) {clock : ℤ} (read : .read clock ∈ core.log) {node : Timer}
    (fresh : node.destroyed = false ∧ node.interval = interval ∧ node.due = clock + interval ∧ node.remaining = repeats) :
    RateInv running (ClockCore.record (.created core.timers.nextId clock interval repeats) { core with timers :=
      { core.timers.setTimer core.timers.nextId (some node) with nextId := core.timers.nextId + 1 } }) := by
  have unused := inv.unused
  have missing := inv.bounded core.timers.nextId (Nat.le_refl _)
  have accounts : ∀ id, account id (core.log ++ [.created core.timers.nextId clock interval repeats]) =
      if core.timers.nextId = id then some { interval, repeats, due := clock + interval } else account id core.log :=
    fun id => account_snoc id _ _
  have others : ∀ id, core.timers.nextId ≠ id →
      Function.update core.timers.timers core.timers.nextId (some node) id = core.timers.timers id :=
    fun id different => Function.update_of_ne different.symm _ _
  have idle : running ≠ some core.timers.nextId := by
    rintro rfl
    obtain ⟨node, found, -⟩ := inv.busy _ rfl
    rw [missing] at found
    cases found
  refine ⟨inv.usable, inv.lawful.snoc ⟨read, good, fun clock interval repeats member => ?_⟩, fun id beyond => ?_,
    fun id clock' interval' repeats' member => ?_, fun id member => ?_, fun id node' closed found => ?_,
    fun id timer known => ?_⟩
  · exact absurd (inv.created _ _ _ _ member) (Nat.lt_irrefl _)
  · change core.timers.nextId + 1 ≤ id at beyond
    exact (others id (by omega)).trans (inv.bounded id (by omega))
  · change id < core.timers.nextId + 1
    rcases List.mem_append.mp member with old | isNew
    · exact Nat.lt_succ_of_lt (inv.created _ _ _ _ old)
    · cases List.mem_singleton.mp isNew
      exact Nat.lt_succ_self _
  · have different : core.timers.nextId ≠ id := fun same => idle (same ▸ member)
    obtain ⟨node', found, runs⟩ := inv.busy id member
    exact ⟨node', (others id different).trans found, runs⟩
  · change account id (core.log ++ _) = none at closed
    rw [accounts] at closed
    split_ifs at closed with different
    exact inv.gone id node' closed ((others id different).symm.trans found)
  · change account id (core.log ++ _) = some timer at known
    rw [accounts] at known
    split_ifs at known with same
    · cases known
      subst same
      obtain ⟨alive, sameInterval, due, remaining⟩ := fresh
      refine .inl ⟨node, Function.update_self .., alive, sameInterval, due, fun _ => ?_⟩
      obtain ⟨-, forever | positive⟩ := good
      · rw [remaining, Account.remaining, forever]
        exact ⟨rfl, .inl rfl⟩
      · have whole : ({ interval, repeats, due := clock + interval } : Account).remaining = repeats := by
          rw [Account.remaining, if_neg (by simp only; omega)]
          simp
        rw [remaining, whole]
        exact ⟨rfl, .inr (.inl (by simpa using positive))⟩
    · rcases inv.kept id timer known with ⟨node', found, rest⟩ | ⟨none, rest⟩
      · exact .inl ⟨node', (others id same).trans found, rest⟩
      · exact .inr ⟨(others id same).trans none, rest⟩

/-- A timer is destroyed: its account is closed, and its node marked or gone. -/
theorem RateInv.destroy (inv : RateInv running core) {id : ℕ} {node : Option Timer} (inside : id < core.timers.nextId)
    (marked : ∀ left, node = some left → left.destroyed = true)
    (busy : running = some id → ∃ left, node = some left ∧ left.running = true) :
    RateInv running (ClockCore.record (.destroyed id) { core with timers := core.timers.setTimer id node }) := by
  have accounts : ∀ other, account other (core.log ++ [.destroyed id]) =
      if id = other then none else account other core.log := fun other => account_snoc other _ _
  have others : ∀ other, id ≠ other → Function.update core.timers.timers id node other = core.timers.timers other :=
    fun other different => Function.update_of_ne different.symm _ _
  refine ⟨inv.usable, inv.lawful.snoc trivial, fun other beyond => ?_, fun other clock interval repeats member => ?_,
    fun other member => ?_, fun other left closed found => ?_, fun other timer known => ?_⟩
  · change core.timers.nextId ≤ other at beyond
    exact (others other (by omega)).trans (inv.bounded other beyond)
  · exact inv.created _ _ _ _ ((List.mem_append.mp member).resolve_right (by simp))
  · by_cases same : id = other
    · subst same
      obtain ⟨left, rfl, runs⟩ := busy member
      exact ⟨left, Function.update_self .., runs⟩
    · obtain ⟨left, found, runs⟩ := inv.busy other member
      exact ⟨left, (others other same).trans found, runs⟩
  · by_cases same : id = other
    · subst same
      change Function.update core.timers.timers id node id = some left at found
      rw [Function.update_self] at found
      exact marked left found
    · change account other (core.log ++ _) = none at closed
      rw [accounts, if_neg same] at closed
      exact inv.gone other left closed ((others other same).symm.trans found)
  · change account other (core.log ++ _) = some timer at known
    rw [accounts] at known
    split_ifs at known with different
    rcases inv.kept other timer known with ⟨left, found, rest⟩ | ⟨none, rest⟩
    · exact .inl ⟨left, (others other different).trans found, rest⟩
    · exact .inr ⟨(others other different).trans none, rest⟩

theorem preserves_serve (op : TimerOp) (inner : Empty → EStateM Exn ClockCore HandlerEnd) :
    Keeps (Preserves (RateInv running)) (ClockCore.serve op inner) := by
  intro core inv
  cases op with
  | create callback interval repeats args clock =>
    simp only [ClockCore.serve, after]
    rcases core.timers.create64_cases callback interval repeats args clock with
      ⟨what, refused⟩ | ⟨good, ⟨overflows, -⟩ | stored⟩
    · simp only [refused]
      exact inv
    · simp only [overflows]
      exact inv.read clock
    · rw [Scheduler.create_of_valid good (inv.bounded _ (Nat.le_refl _))] at stored
      simp only [stored]
      exact (inv.read clock).create good (by simp [ClockCore.record]) ⟨rfl, rfl, rfl, rfl⟩
  | setHandle id handle =>
    refine inv.congr inv.usable rfl ?_ fun other => ?_
    · simp only [ClockCore.serve, after, Scheduler.setHandle]
      split <;> rfl
    · simp only [ClockCore.serve, after, Scheduler.setHandle]
      cases found : core.timers.timers id with
      | none => rfl
      | some node =>
        by_cases same : other = id
        · subst same
          simp [found, Timer.facts]
        · simp [same]
  | destroy id =>
    simp only [ClockCore.serve, after]
    rcases core.timers.destroy_cases id with refused | ⟨node, found, alive, result⟩
    · simp only [refused]
      exact inv
    · simp only [result, ↓reduceIte]
      refine inv.destroy (inv.lt_nextId found) (fun left same => ?_) fun same => ?_
      · split_ifs at same
        cases same
        rfl
      · obtain ⟨other, found', runs⟩ := inv.busy id same
        rw [found] at found'
        cases found'
        exact ⟨_, if_pos runs, runs⟩
  | «exists» id => exact inv
  | count => exact inv

theorem quiet_serve (op : TimerOp) (inner : Empty → EStateM Exn ClockCore HandlerEnd) :
    Keeps Quiet (ClockCore.serve op inner) := by
  intro core
  cases op with
  | create callback interval repeats args clock =>
    simp only [ClockCore.serve, after]
    rcases core.timers.create64_cases callback interval repeats args clock with
      ⟨what, refused⟩ | ⟨good, ⟨overflows, -⟩ | stored⟩
    · simp only [refused]
      exact refl_of Quiet core
    · simp only [overflows]
      exact ⟨Nat.le_refl _, fun id => .inl (account_snoc id _ _)⟩
    · have result : ∃ timers, core.timers.create64 callback interval repeats args clock =
          .ok (core.timers.nextId, timers) ∧ timers.nextId = core.timers.nextId + 1 := by
        obtain ⟨goodInterval, goodRepeats⟩ := good
        rw [stored, Scheduler.create, if_neg (by omega), if_neg (by omega)]
        exact ⟨_, rfl, rfl⟩
      obtain ⟨timers, ran, next⟩ := result
      simp only [ran]
      refine ⟨?_, fun id => ?_⟩
      · simp only [ClockCore.record, next]
        omega
      · have known : account id (core.log ++ [.read clock] ++ [.created core.timers.nextId clock interval repeats]) =
            if core.timers.nextId = id then some { interval, repeats, due := clock + interval }
            else account id core.log := by
          rw [account_snoc, account_snoc]
          rfl
        simp only [ClockCore.record, known]
        split_ifs with same
        · exact .inr (.inr ⟨same.le, _, rfl, rfl, rfl⟩)
        · exact .inl rfl
  | setHandle id handle =>
    refine ⟨?_, fun _ => .inl rfl⟩
    simp only [ClockCore.serve, after, Scheduler.setHandle]
    split <;> exact Nat.le_refl _
  | destroy id =>
    simp only [ClockCore.serve, after]
    rcases core.timers.destroy_cases id with refused | ⟨node, -, -, result⟩
    · simp only [refused]
      exact refl_of Quiet core
    · have closes : ∀ other, account other (core.log ++ [.destroyed id]) =
          if id = other then none else account other core.log := fun other => account_snoc other _ _
      simp only [result, ↓reduceIte]
      refine ⟨Nat.le_refl _, fun other => ?_⟩
      simp only [ClockCore.record, closes]
      split_ifs
      · exact .inr (.inl rfl)
      · exact .inl rfl
  | «exists» id => exact refl_of Quiet core
  | count => exact refl_of Quiet core

theorem defined_serve (op : TimerOp) (inner : Empty → EStateM Exn ClockCore HandlerEnd) :
    Defined (ClockCore.serve op inner) := by
  intro core core' failed range
  cases op with
  | create callback interval repeats args clock =>
    simp only [ClockCore.serve] at failed
    rcases core.timers.create64_cases callback interval repeats args clock with
      ⟨what, refused⟩ | ⟨good, ⟨overflows, misfit⟩ | stored⟩
    · simp only [refused, reduceCtorEq] at failed
    · simp only [overflows] at failed
      cases failed
      have bounds := range.read clock (by simp [ClockCore.record])
      have whole : Scheduler.kMaxInterval = 2 ^ 40 := rfl
      obtain ⟨goodInterval, -⟩ := good
      exact misfit ⟨by omega, by omega⟩
    · obtain ⟨goodInterval, goodRepeats⟩ := good
      rw [stored, Scheduler.create, if_neg (by omega), if_neg (by omega)] at failed
      cases failed
  | setHandle | destroy | «exists» | count => cases failed

end Serve

/-! ## Scripts -/

section Scripts

variable (script : TimerScript)

theorem preserves_script (running : Option ℕ) : Keeps (Preserves (RateInv running)) (script.run ClockCore.serve) :=
  Script.keeps_run (fun op inner _ => preserves_serve op inner) script

theorem quiet_script : Keeps Quiet (script.run ClockCore.serve) :=
  Script.keeps_run (fun op inner _ => quiet_serve op inner) script

theorem defined_script : Defined (script.run ClockCore.serve) := by
  induction script with
  | ret value => nofun
  | act op inner next _ ih =>
    intro core core' failed
    cases ran : ClockCore.serve op (fun site => Script.run ClockCore.serve (inner site)) core with
    | error e middle =>
      rw [Script.run, bind_of_error ran] at failed
      cases failed
      exact defined_serve op _ core core' ran
    | ok answer middle =>
      rw [Script.run, bind_of_ok ran] at failed
      exact ih answer middle core' failed

end Scripts

/-! ## One call -/

/-- What is left to do in a tick: the timers still to be called, and those that are not due. -/
structure TickInv (now : ℤ) (pending : List ℕ) (core : ClockCore) : Prop where
  current : ∀ id timer time, account id core.log = some timer → timer.tick = some time → time = now
  unseen : ∀ id ∈ pending, id < core.timers.nextId ∧
    ∀ timer, account id core.log = some timer → timer.tick = some now ∧ timer.here = 0 ∧ timer.due ≤ now
  rest : ∀ id timer, account id core.log = some timer → timer.broken = false → 1 ≤ timer.interval →
    timer.tick = some now → id ∉ pending → now < timer.due ∨ (timer.calls : ℤ) = timer.repeats

section Call

variable {now : ℤ} {pending : List ℕ} {core core' : ClockCore} {id : ℕ} {node : Timer}

theorem TickInv.quiet (tick : TickInv now pending core) (quiet : Quiet core core') : TickInv now pending core' := by
  refine ⟨fun id timer time known seen => ?_, fun id member => ?_, fun id timer known whole positive seen other => ?_⟩
  · rcases quiet.accounts id with same | gone | ⟨-, isNew, known', unseen, -⟩
    · exact tick.current id timer time (same ▸ known) seen
    · rw [gone] at known
      cases known
    · rw [known'] at known
      cases known
      rw [unseen] at seen
      cases seen
  · obtain ⟨inside, facts⟩ := tick.unseen id member
    refine ⟨inside.trans_le quiet.nextId, fun timer known => ?_⟩
    rcases quiet.accounts id with same | gone | ⟨beyond, -⟩
    · exact facts timer (same ▸ known)
    · rw [gone] at known
      cases known
    · omega
  · rcases quiet.accounts id with same | gone | ⟨-, isNew, known', unseen, -⟩
    · exact tick.rest id timer (same ▸ known) whole positive seen other
    · rw [gone] at known
      cases known
    · rw [known'] at known
      cases known
      rw [unseen] at seen
      cases seen

/-- The state in which a callback starts. -/
def ClockCore.start (core : ClockCore) (id : ℕ) (now : ℤ) (node : Timer) : ClockCore :=
  ClockCore.record (.called id now node.due) (Invoker.enter { core with
    timers := core.timers.setTimer id (some { node with running := true })
    thisTimer := node.handle })

/-- The state after `RunningScope`. -/
def ClockCore.leave (core : ClockCore) (id : ℕ) (previous : LuaValue) (node : Timer) : ClockCore :=
  { Invoker.leave core with
    timers := core.timers.setTimer id (some { node with running := false })
    thisTimer := previous }

private theorem clock_enterRunning (found : core.timers.timers id = some node) :
    Scheduler.enterRunning id core = .ok core.thisTimer { core with
      timers := core.timers.setTimer id (some { node with running := true })
      thisTimer := node.handle } := by
  have wrote : Scheduler.writeTimer id (fun node => { node with running := true })
      ({ core with thisTimer := node.handle } : ClockCore) = .ok () { core with
        timers := core.timers.setTimer id (some { node with running := true })
        thisTimer := node.handle } :=
    Scheduler.writeTimer_of_some _ found
  rw [Scheduler.enterRunning, get_bind, bind_of_ok (Scheduler.readTimer_of_some found), modify_bind]
  exact bind_of_ok wrote

private theorem clock_leaveRunning (found : core.timers.timers id = some node) (usable : core.invoker.dead = false)
    (previous : LuaValue) : Scheduler.leaveRunning id previous (Invoker.leave core) = .ok () (core.leave id previous node) := by
  have wrote : Scheduler.writeTimer id (fun node => { node with running := false }) (Invoker.leave core) =
      .ok () { Invoker.leave core with timers := core.timers.setTimer id (some { node with running := false }) } :=
    Scheduler.writeTimer_of_some _ found
  rw [Scheduler.leaveRunning, bind_of_ok wrote]
  change EStateM.Result.ok () (if core.invoker.dead = true then _ else _) = _
  rw [if_neg (by simp [usable])]
  rfl

private theorem clock_callback (now : ℤ) (callbacks : ℕ → EStateM Exn ClockCore HandlerEnd)
    (found : core.timers.timers id = some node) :
    ClockCore.callback now callbacks id core =
      match callbacks id (core.record (.called id now node.due)) with
      | .ok ended core' => .ok ended.toEnding core'
      | .error e core' => .error e core' := by
  have due : ((core.timers.timers id).getD {}).due = node.due := by rw [found, Option.getD_some]
  rw [ClockCore.callback, modify_bind, due]
  cases ran : callbacks id (core.record (.called id now node.due)) with
  | error e core' => rw [bind_of_error ran]
  | ok ended core' =>
    rw [bind_of_ok ran]
    rfl

/-- The rest of `Run`, around the callback. -/
private theorem clock_callTimer (found : core.timers.timers id = some node) (usable : core.invoker.dead = false)
    (callbacks : ℕ → EStateM Exn ClockCore HandlerEnd) :
    Scheduler.callTimer id (fun id _ _ => ClockCore.callback now callbacks id) core =
      match callbacks id (core.start id now node) with
      | .ok .threw core' => (do
          Scheduler.leaveRunning id core.thisTimer
          throw (Exn.thrown "exception in a call into Lua")) (Invoker.leave core')
      | .ok _ core' => (do
          Scheduler.leaveRunning id core.thisTimer
          Scheduler.eraseEnded id) (Invoker.leave core')
      | .error e core' => (do
          Scheduler.leaveRunning id core.thisTimer
          throw e) (Invoker.leave core') := by
  let entered : ClockCore := { core with
    timers := core.timers.setTimer id (some { node with running := true })
    thisTimer := node.handle }
  have there : (Invoker.enter entered).timers.timers id = some { node with running := true } := Function.update_self ..
  have called := Invoker.call_eq (fun _ => ClockCore.callback now callbacks id)
    (show (HasInvoker.invoker entered).dead = false from usable)
    (map_of_ok (f := Timer.args) (Scheduler.readTimer_of_some there))
  rw [clock_callback now callbacks there] at called
  have started : ClockCore.record (.called id now ({ node with running := true } : Timer).due) (Invoker.enter entered) =
      core.start id now node := rfl
  rw [started] at called
  rw [Scheduler.callTimer, bind_of_ok (clock_enterRunning found),
    bind_of_ok (Scheduler.readTimer_of_some (show entered.timers.timers id = _ from there))]
  change (attempt (Invoker.call _ _) >>= _) entered = _
  cases ran : callbacks id (core.start id now node) with
  | error e core' =>
    rw [ran] at called
    exact bind_of_ok (attempt_of_error called)
  | ok ended core' =>
    rw [ran] at called
    cases ended with
    | threw => exact bind_of_ok (attempt_of_error called)
    | returned | raised => exact bind_of_ok (attempt_of_ok called)

/-- The callback starts: it is one of the calls that the timer has left. -/
theorem RateInv.start (inv : RateInv none core) (found : core.timers.timers id = some node)
    (alive : node.destroyed = false) {timer : Account} (known : account id core.log = some timer)
    (tick : timer.tick = some now) (first : timer.here = 0) (due : timer.due ≤ now) :
    RateInv (some id) (ClockCore.start { core with timers := core.timers.setTimer id (some (node.advance now)) }
      id now (node.advance now)) := by
  obtain ⟨_, stored, -, sameInterval, sameDue, left⟩ := (inv.kept id timer known).resolve_right fun missing => by
    rw [found] at missing
    cases missing.1
  rw [found] at stored
  cases stored
  have inside := inv.lt_nextId found
  have next : (node.advance now).due = timer.next now := by
    rw [Timer.advance_eq, Account.next, ← sameInterval, ← sameDue]
  let node' : Timer := { node.advance now with running := true }
  have nodes : ∀ other, (ClockCore.start { core with timers := core.timers.setTimer id (some (node.advance now)) }
      id now (node.advance now)).timers.timers other = Function.update core.timers.timers id (some node') other := by
    intro other
    simp only [ClockCore.start, ClockCore.record, Invoker.enter, HasInvoker.setInvoker, Scheduler.setTimer,
      Function.update_idem]
    rfl
  have accounts : ∀ other, account other (core.log ++ [.called id now (node.advance now).due]) =
      if id = other then (account other core.log).map fun timer =>
        { timer with due := (node.advance now).due, calls := timer.calls + 1, here := timer.here + 1 }
      else account other core.log := fun other => account_snoc other _ _
  have others : ∀ other, id ≠ other → Function.update core.timers.timers id (some node') other =
      core.timers.timers other := fun other different => Function.update_of_ne different.symm _ _
  have more : timer.broken = false → timer.repeats = -1 ∨ (timer.calls : ℤ) < timer.repeats := by
    intro whole
    have facts := (left whole).2
    simpa using facts
  refine ⟨inv.usable, inv.lawful.snoc ⟨timer, known, tick, first, due, more, next⟩, fun other beyond => ?_,
    fun other clock interval repeats member => ?_, ?_, fun other left' closed found' => ?_, fun other timer' known' => ?_⟩
  · change core.timers.nextId ≤ other at beyond
    rw [nodes, others other (by omega)]
    exact inv.bounded other beyond
  · exact inv.created _ _ _ _ ((List.mem_append.mp member).resolve_right (by simp))
  · rintro _ ⟨⟩
    exact ⟨node', (nodes id).trans (Function.update_self ..), rfl⟩
  · change account other (core.log ++ _) = none at closed
    rw [nodes] at found'
    rw [accounts] at closed
    split_ifs at closed with same
    · subst same
      rw [known] at closed
      cases closed
    · rw [others other same] at found'
      exact inv.gone other left' closed found'
  · change account other (core.log ++ _) = some timer' at known'
    rw [accounts] at known'
    split_ifs at known' with same
    · subst same
      rw [known] at known'
      cases known'
      refine .inl ⟨node', (nodes id).trans (Function.update_self ..), ?_, ?_, rfl, fun whole => ?_⟩
      · simp only [node', Timer.advance_eq, alive]
      · simp only [node', Timer.advance_eq, sameInterval]
      · obtain ⟨remaining, -⟩ := left whole
        have advanced : node'.remaining = if node.remaining > 0 then node.remaining - 1 else node.remaining := by
          simp only [node', Timer.advance_eq]
        rw [advanced, remaining]
        refine ⟨(timer.remaining_called (more whole) _ _).symm, ?_⟩
        refine (more whole).imp_right fun fewer => ?_
        push_cast
        exact (Int.lt_or_eq_of_le fewer).imp_right fun last => ⟨rfl, last⟩
    · rcases inv.kept other timer' known' with ⟨left', found', alive', interval', due', rest⟩ | ⟨missing, -, rest⟩
      · refine .inl ⟨left', (nodes other).trans ((others other same).trans found'), alive', interval', due', fun whole => ?_⟩
        obtain ⟨remaining, facts⟩ := rest whole
        exact ⟨remaining, facts.imp_right fun facts => .inl (facts.resolve_right fun ended => by cases ended.1)⟩
      · refine .inr ⟨(nodes other).trans ((others other same).trans missing), ?_, rest⟩
        rintro ⟨⟩
        exact same rfl

theorem TickInv.start (tick : TickInv now (id :: pending) core) (valid : (id :: pending).Nodup) {timer : Account}
    (known : account id core.log = some timer)
    (next : (node.advance now).due = timer.next now) :
    TickInv now pending (ClockCore.start { core with timers := core.timers.setTimer id (some (node.advance now)) }
      id now (node.advance now)) := by
  obtain ⟨unlisted, -⟩ := List.nodup_cons.mp valid
  have accounts : ∀ other, account other (core.log ++ [.called id now (node.advance now).due]) =
      if id = other then (account other core.log).map fun timer =>
        { timer with due := (node.advance now).due, calls := timer.calls + 1, here := timer.here + 1 }
      else account other core.log := fun other => account_snoc other _ _
  refine ⟨fun other timer' time known' seen => ?_, fun other member => ?_,
    fun other timer' known' whole positive seen unlisted' => ?_⟩
  · change account other (core.log ++ _) = some timer' at known'
    rw [accounts] at known'
    split_ifs at known' with same
    · obtain ⟨old, known'', rfl⟩ := Option.map_eq_some_iff.mp known'
      exact tick.current other old time known'' seen
    · exact tick.current other timer' time known' seen
  · obtain ⟨inside, facts⟩ := tick.unseen other (List.mem_cons_of_mem _ member)
    refine ⟨inside, fun timer' known' => ?_⟩
    change account other (core.log ++ _) = some timer' at known'
    rw [accounts, if_neg fun same : id = other => unlisted (same ▸ member)] at known'
    exact facts timer' known'
  · change account other (core.log ++ _) = some timer' at known'
    rw [accounts] at known'
    split_ifs at known' with same
    · subst same
      rw [known] at known'
      cases known'
      refine .inl ?_
      obtain ⟨-, facts⟩ := tick.unseen id (List.mem_cons_self ..)
      obtain ⟨-, -, due⟩ := facts timer known
      simp only [next, Account.next] at positive ⊢
      split_ifs <;> omega
    · refine tick.rest other timer' known' whole positive seen ?_
      simp only [List.mem_cons, not_or]
      exact ⟨fun eq => same eq.symm, unlisted'⟩

/-- `RunningScope` has put everything back, and the timer is removed if it has ended. -/
theorem RateInv.erased (inv : RateInv (some id) core) (found : core.timers.timers id = some node) (previous : LuaValue) :
    ∃ core', Scheduler.eraseEnded id (core.leave id previous node) = .ok () core' ∧ RateInv none core' ∧
      core'.log = core.log ∧ core'.timers.nextId = core.timers.nextId := by
  have inside := inv.lt_nextId found
  have there : (core.leave id previous node).timers.timers id = some { node with running := false } :=
    Function.update_self ..
  have reads : Scheduler.readTimer id (core.leave id previous node) =
      .ok { node with running := false } (core.leave id previous node) := Scheduler.readTimer_of_some there
  -- what is left of the node after the check
  have settle : ∀ (nodes : ℕ → Option Timer) (core' : ClockCore), core'.invoker.dead = false → core'.log = core.log →
      core'.timers = { timers := nodes, nextId := core.timers.nextId } → (∀ other, other ≠ id → nodes other = core.timers.timers other) →
      (nodes id = none ∧ (∀ timer, account id core.log = some timer → timer.broken = false → (timer.calls : ℤ) = timer.repeats) ∨
        nodes id = some { node with running := false } ∧ node.destroyed = false ∧ node.remaining ≠ 0) →
      RateInv none core' := by
    intro nodes core' usable log timers others own
    have nodes' : core'.timers.timers = nodes := by rw [timers]
    have nextId : core'.timers.nextId = core.timers.nextId := by rw [timers]
    refine ⟨usable, log ▸ inv.lawful, fun other beyond => ?_, log ▸ nextId ▸ inv.created, nofun,
      fun other left closed found' => ?_, fun other timer known => ?_⟩
    · rw [nextId] at beyond
      rw [nodes', others other (by omega)]
      exact inv.bounded other beyond
    · rw [nodes'] at found'
      rw [log] at closed
      by_cases same : other = id
      · subst same
        rcases own with ⟨missing, -⟩ | ⟨stays, alive, -⟩
        · rw [missing] at found'
          cases found'
        · rw [stays] at found'
          cases found'
          exact inv.gone other node closed found
      · rw [others other same] at found'
        exact inv.gone other left closed found'
    · rw [log] at known
      by_cases same : other = id
      · subst same
        rcases own with ⟨missing, ended⟩ | ⟨stays, alive, more⟩
        · exact .inr ⟨by rw [nodes', missing], nofun, ended timer known⟩
        · obtain ⟨_, found', -, interval, due, rest⟩ := (inv.kept other timer known).resolve_right fun missing =>
            missing.2.1 rfl
          rw [found] at found'
          cases found'
          refine .inl ⟨{ node with running := false }, by rw [nodes', stays], alive, interval, due, fun whole => ?_⟩
          obtain ⟨remaining, facts⟩ := rest whole
          refine ⟨remaining, facts.imp_right fun facts => .inl (facts.resolve_right fun ended => ?_)⟩
          rw [remaining, Account.remaining] at more
          split_ifs at more with forever
          · omega
          · omega
      · rcases inv.kept other timer known with ⟨left, found', alive, interval, due, rest⟩ | ⟨missing, -, rest⟩
        · refine .inl ⟨left, by rw [nodes', others other same, found'], alive, interval, due, fun whole => ?_⟩
          obtain ⟨remaining, facts⟩ := rest whole
          refine ⟨remaining, facts.imp_right fun facts => .inl (facts.resolve_right ?_)⟩
          rintro ⟨⟨⟩, -⟩
          exact same rfl
        · exact .inr ⟨by rw [nodes', others other same, missing], nofun, rest⟩
  rw [Scheduler.eraseEnded, bind_of_ok reads]
  by_cases finished : (node.destroyed || node.remaining == 0) = true
  · refine ⟨{ core.leave id previous node with timers := (core.leave id previous node).timers.setTimer id none }, ?_,
      settle (Function.update core.timers.timers id none) _ inv.usable rfl ?_ (fun other different =>
        Function.update_of_ne different _ _) (.inl ⟨Function.update_self .., fun timer known whole => ?_⟩), rfl, rfl⟩
    · simp only [finished, ↓reduceIte]
      rfl
    · simp only [ClockCore.leave, Scheduler.setTimer, Function.update_idem]
    · obtain ⟨_, found', alive, -, -, rest⟩ := (inv.kept id timer known).resolve_right fun missing => missing.2.1 rfl
      rw [found] at found'
      cases found'
      obtain ⟨remaining, -⟩ := rest whole
      simp only [alive, Bool.false_or, beq_iff_eq] at finished
      rw [remaining, Account.remaining] at finished
      split_ifs at finished
      omega
  · refine ⟨core.leave id previous node, ?_, settle (Function.update core.timers.timers id (some { node with running := false }))
      _ inv.usable rfl rfl (fun other different => Function.update_of_ne different _ _)
      (.inr ⟨Function.update_self .., ?_, ?_⟩), rfl, rfl⟩
    · simp only [finished, Bool.false_eq_true, ↓reduceIte]
      rfl
    · simp only [Bool.or_eq_true, not_or, Bool.not_eq_true] at finished
      exact finished.1
    · simp only [Bool.or_eq_true, not_or, beq_iff_eq] at finished
      exact finished.2

/-- After an exception nothing is said about the calls that are left. -/
theorem RateInv.abort {running : Option ℕ} (inv : RateInv running core) : RateInv running (core.record .aborted) := by
  have accounts : ∀ other, account other (core.log ++ [.aborted]) =
      (account other core.log).map fun timer => { timer with broken := true } := fun other => account_snoc other _ _
  refine ⟨inv.usable, inv.lawful.snoc trivial, inv.bounded, fun other clock interval repeats member => ?_, inv.busy,
    fun other left closed found => ?_, fun other timer known => ?_⟩
  · exact inv.created _ _ _ _ ((List.mem_append.mp member).resolve_right (by simp))
  · change account other (core.log ++ _) = none at closed
    rw [accounts, Option.map_eq_none_iff] at closed
    exact inv.gone other left closed found
  · change account other (core.log ++ _) = some timer at known
    rw [accounts] at known
    obtain ⟨old, known', rfl⟩ := Option.map_eq_some_iff.mp known
    rcases inv.kept other old known' with ⟨left, found, alive, interval, due, -⟩ | ⟨missing, different, -⟩
    · exact .inl ⟨left, found, alive, interval, due, nofun⟩
    · exact .inr ⟨missing, different, nofun⟩

/-- The timer stays after an exception, whatever calls it has left. -/
theorem RateInv.aborted (inv : RateInv (some id) core) (found : core.timers.timers id = some node) (previous : LuaValue) :
    RateInv none ((core.leave id previous node).record .aborted) := by
  have broken := inv.abort
  have inside := inv.lt_nextId found
  have others : ∀ other, other ≠ id → Function.update core.timers.timers id (some { node with running := false }) other =
      core.timers.timers other := fun other different => Function.update_of_ne different _ _
  refine ⟨inv.usable, broken.lawful, fun other beyond => ?_, broken.created, nofun, fun other left closed found' => ?_,
    fun other timer known => ?_⟩
  · change core.timers.nextId ≤ other at beyond
    exact (others other (by omega)).trans (inv.bounded other beyond)
  · change Function.update core.timers.timers id (some { node with running := false }) other = some left at found'
    by_cases same : other = id
    · subst same
      rw [Function.update_self] at found'
      cases found'
      exact broken.gone other node closed found
    · exact broken.gone other left closed ((others other same).symm.trans found')
  · have whole : timer.broken = true := by
      change account other (core.log ++ [.aborted]) = some timer at known
      rw [account_snoc] at known
      obtain ⟨_, -, rfl⟩ := Option.map_eq_some_iff.mp known
      rfl
    rcases broken.kept other timer known with ⟨left, found', alive, interval, due, -⟩ | ⟨missing, different, -⟩
    · by_cases same : other = id
      · subst same
        cases found.symm.trans found'
        exact .inl ⟨{ node with running := false }, Function.update_self .., alive, interval, due, by simp [whole]⟩
      · exact .inl ⟨left, (others other same).trans found', alive, interval, due, by simp [whole]⟩
    · exact .inr ⟨(others other fun same => different (by rw [same])).trans missing, nofun, by simp [whole]⟩

/-- The end of a tick by an exception. -/
def Failed (e : Exn) (core : ClockCore) : Prop := RateInv none (core.record .aborted) ∧ (e = .undefined → ¬ InRange core.log)

theorem clock_run64 (script : ℕ → TimerScript) (inv : RateInv none core) (tick : TickInv now (id :: pending) core)
    (valid : (id :: pending).Nodup) (found : core.timers.timers id = some node) (alive : node.destroyed = false) :
    Ends (fun _ core' => RateInv none core' ∧ TickInv now pending core') Failed
      (Scheduler.run64 id now (fun id _ _ => ClockCore.callback now (fun id => (script id).run ClockCore.serve) id) core) := by
  obtain ⟨timer, known⟩ : ∃ timer, account id core.log = some timer := by
    cases known : account id core.log with
    | some timer => exact ⟨timer, rfl⟩
    | none =>
      rw [inv.gone id node known found] at alive
      cases alive
  obtain ⟨-, facts⟩ := tick.unseen id (List.mem_cons_self ..)
  obtain ⟨seen, first, isDue⟩ := facts timer known
  obtain ⟨_, found', -, sameInterval, sameDue, -⟩ := (inv.kept id timer known).resolve_right fun missing => by
    rw [found] at missing
    cases missing.1
  rw [found] at found'
  cases found'
  have sound := inv.lawful.sound known
  cases advanced : node.advance64 now with
  | error e =>
    have ran : Scheduler.advanceTimer id now core = .error e core := by
      rw [Scheduler.advanceTimer, bind_of_ok (Scheduler.readTimer_of_some found)]
      simp only [advanced]
      rfl
    rw [Scheduler.run64, bind_of_error ran]
    refine ⟨inv.abort, fun _ range => ?_⟩
    · have fits : node.advance64 now = .ok (node.advance now) := Timer.advance64_of_due
        (by rw [sameDue]; exact sound.due range) (by rw [sameDue]; exact isDue)
        (by rw [sameInterval]; exact sound.valid.1.1) (by rw [sameInterval]; exact sound.valid.1.2)
        (range.ticked now (sound.tick now seen)).2
      rw [fits] at advanced
      cases advanced
  | ok advanced' =>
    obtain rfl := Timer.advance64_eq_ok advanced
    let core₁ : ClockCore := { core with timers := core.timers.setTimer id (some (node.advance now)) }
    have ran : Scheduler.advanceTimer id now core = .ok () core₁ := by
      rw [Scheduler.advanceTimer, bind_of_ok (Scheduler.readTimer_of_some found)]
      simp only [advanced]
      exact Scheduler.writeTimer_of_some _ found
    have next : (node.advance now).due = timer.next now := by
      rw [Timer.advance_eq, Account.next, ← sameInterval, ← sameDue]
    have there : core₁.timers.timers id = some (node.advance now) := Function.update_self ..
    have started := inv.start found alive known seen first isDue
    have called := tick.start valid known next
    rw [Scheduler.run64, bind_of_ok ran, clock_callTimer there inv.usable]
    have kept := preserves_script (script id) (some id) _ started
    have quiet := quiet_script (script id) (core₁.start id now (node.advance now))
    cases ended : (script id).run ClockCore.serve (core₁.start id now (node.advance now)) with
    | error e core' =>
      rw [after_of_error ended] at kept quiet
      obtain ⟨node', found', -⟩ := kept.busy id rfl
      simp only
      rw [bind_of_ok (clock_leaveRunning found' kept.usable _)]
      refine ⟨kept.aborted found' _, fun undefined => ?_⟩
      rw [undefined] at ended
      exact (defined_script (script id) _ core' ended : ¬ InRange core'.log)
    | ok value core' =>
      rw [after_of_ok ended] at kept quiet
      obtain ⟨node', found', -⟩ := kept.busy id rfl
      cases value with
      | threw =>
        simp only
        rw [bind_of_ok (clock_leaveRunning found' kept.usable _)]
        exact ⟨kept.aborted found' _, fun undefined => by cases undefined⟩
      | returned | raised =>
        simp only
        rw [bind_of_ok (clock_leaveRunning found' kept.usable _)]
        obtain ⟨core'', erased, inv', log, nextId⟩ := kept.erased found' core₁.thisTimer
        rw [erased]
        refine ⟨inv', ?_⟩
        have later := called.quiet quiet
        exact later.quiet ⟨nextId.ge, fun other => .inl (by rw [log])⟩

end Call

/-! ## One tick -/

section Tick

variable {now : ℤ} {core : ClockCore} (script : ℕ → TimerScript)

/-- A timer that a tick skips has ended or was destroyed. -/
theorem TickInv.skip {id : ℕ} {pending : List ℕ} (tick : TickInv now (id :: pending) core) (inv : RateInv none core)
    (missing : core.timers.exists id = false) : TickInv now pending core := by
  refine ⟨tick.current, fun other member => tick.unseen other (List.mem_cons_of_mem _ member),
    fun other timer known whole positive seen unlisted => ?_⟩
  by_cases same : other = id
  · subst same
    rcases inv.kept other timer known with ⟨node, found, alive, -⟩ | ⟨-, -, ended⟩
    · simp [Scheduler.exists, found, alive] at missing
    · exact .inr (ended whole)
  · refine tick.rest other timer known whole positive seen ?_
    simp only [List.mem_cons, not_or]
    exact ⟨same, unlisted⟩

theorem clock_tickLoop (pending : List ℕ) (valid : pending.Nodup) (inv : RateInv none core)
    (tick : TickInv now pending core) :
    Ends (fun _ core' => RateInv none core' ∧ TickInv now [] core') Failed (Scheduler.tickLoop64 now
      (fun id _ _ => ClockCore.callback now (fun id => (script id).run ClockCore.serve) id) pending core) := by
  have body : ∀ id rest core', (id :: rest).Nodup ∧ RateInv none core' ∧ TickInv now (id :: rest) core' →
      Ends (fun _ core' => rest.Nodup ∧ RateInv none core' ∧ TickInv now rest core') Failed
        ((do
          if (HasTimers.scheduler (← get)).exists id then
            Scheduler.run64 id now fun id _ _ => ClockCore.callback now (fun id => (script id).run ClockCore.serve) id
          : EStateM Exn ClockCore Unit) core') := by
    rintro id rest core' ⟨valid, inv, tick⟩
    rw [get_bind, show HasTimers.scheduler core' = core'.timers from rfl]
    cases present : core'.timers.exists id with
    | false => exact ⟨(List.nodup_cons.mp valid).2, inv, tick.skip inv present⟩
    | true =>
      obtain ⟨node, found, alive⟩ : ∃ node, core'.timers.timers id = some node ∧ node.destroyed = false := by
        cases found : core'.timers.timers id with
        | none => simp [Scheduler.exists, found] at present
        | some node => exact ⟨node, rfl, by simpa [Scheduler.exists, found] using present⟩
      refine (clock_run64 script inv tick valid found alive).imp (fun _ _ holds => ?_) fun _ _ failed => failed
      exact ⟨(List.nodup_cons.mp valid).2, holds⟩
  have looped := ends_forEach (I := fun pending core => pending.Nodup ∧ RateInv none core ∧ TickInv now pending core)
    body pending core ⟨valid, inv, tick⟩
  exact looped.imp (fun _ _ holds => holds.2) fun _ _ failed => failed

theorem Scheduler.sortDue_dueIds (scheduler : Scheduler) (now : ℤ) :
    ∃ due, scheduler.sortDue (scheduler.dueIds now) = .ok due ∧ due.Nodup ∧
      ∀ id, id ∈ due ↔ id < scheduler.nextId ∧ ∃ node, scheduler.timers id = some node ∧ node.destroyed = false ∧ node.due ≤ now := by
  have mem : ∀ id, id ∈ scheduler.dueIds now ↔
      id < scheduler.nextId ∧ ∃ node, scheduler.timers id = some node ∧ node.destroyed = false ∧ node.due ≤ now := by
    intro id
    rw [Scheduler.dueIds, List.mem_filter, Scheduler.ids, List.mem_filter, List.mem_range, and_assoc]
    cases scheduler.timers id <;> simp
  have all : (scheduler.dueIds now).all (fun id => (scheduler.timers id).isSome) = true := by
    rw [List.all_eq_true]
    intro id member
    obtain ⟨-, node, found, -⟩ := (mem id).mp member
    rw [found]
    rfl
  refine ⟨_, if_pos all, ?_, fun id => ?_⟩
  · exact (List.perm_insertionSort _ _).nodup_iff.mpr ((List.nodup_range.filter _).filter _)
  · rw [List.mem_insertionSort]
    exact mem id

/-- Between two steps every tick has been completed, or an exception ended one. -/
structure Between (core : ClockCore) : Prop where
  inv : RateInv none core
  settled : ∀ id timer, account id core.log = some timer → timer.broken = false → timer.settled = true

/-- What a tick has to do when it starts. -/
theorem TickInv.init (rest : Between core) {due : List ℕ} (mem : ∀ id, id ∈ due ↔ id < core.timers.nextId ∧
    ∃ node, core.timers.timers id = some node ∧ node.destroyed = false ∧ node.due ≤ now) :
    RateInv none (core.record (.ticked now)) ∧ TickInv now due (core.record (.ticked now)) := by
  have inv := rest.inv
  have accounts : ∀ id, account id (core.log ++ [.ticked now]) =
      (account id core.log).map fun timer => { timer with tick := some now, here := 0, settled := false } :=
    fun id => account_snoc id _ _
  refine ⟨⟨inv.usable, inv.lawful.snoc rest.settled, inv.bounded, fun id clock interval repeats member => ?_, nofun,
    fun id node closed found => ?_, fun id timer known => ?_⟩, ⟨fun id timer time known seen => ?_, fun id member => ?_,
    fun id timer known whole positive seen unlisted => ?_⟩⟩
  · exact inv.created _ _ _ _ ((List.mem_append.mp member).resolve_right (by simp))
  · change account id (core.log ++ _) = none at closed
    rw [accounts, Option.map_eq_none_iff] at closed
    exact inv.gone id node closed found
  · change account id (core.log ++ _) = some timer at known
    rw [accounts] at known
    obtain ⟨old, known', rfl⟩ := Option.map_eq_some_iff.mp known
    exact inv.kept id old known'
  · change account id (core.log ++ _) = some timer at known
    rw [accounts] at known
    obtain ⟨old, -, rfl⟩ := Option.map_eq_some_iff.mp known
    cases seen
    rfl
  · obtain ⟨inside, node, found, alive, isDue⟩ := (mem id).mp member
    refine ⟨inside, fun timer known => ?_⟩
    change account id (core.log ++ _) = some timer at known
    rw [accounts] at known
    obtain ⟨old, known', rfl⟩ := Option.map_eq_some_iff.mp known
    rcases inv.kept id old known' with ⟨node', found', -, -, sameDue, -⟩ | ⟨missing, -⟩
    · cases found.symm.trans found'
      exact ⟨rfl, rfl, sameDue ▸ isDue⟩
    · cases found.symm.trans missing
  · change account id (core.log ++ _) = some timer at known
    rw [accounts] at known
    obtain ⟨old, known', rfl⟩ := Option.map_eq_some_iff.mp known
    rcases inv.kept id old known' with ⟨node, found, alive, -, sameDue, -⟩ | ⟨-, -, ended⟩
    · refine .inl (not_le.mp fun isDue => unlisted ((mem id).mpr ⟨inv.lt_nextId found, node, found, alive, ?_⟩))
      rw [sameDue]
      exact isDue
    · exact .inr (ended whole)

/-- The tick has called everything it had to call. -/
theorem Between.completed (inv : RateInv none core) (tick : TickInv now [] core) : Between (core.record .completed) := by
  have accounts : ∀ id, account id (core.log ++ [.completed]) =
      (account id core.log).map fun timer => { timer with settled := true } := fun id => account_snoc id _ _
  have holds : LawfulTime core.log .completed := by
    intro id timer time known whole positive seen
    obtain rfl := tick.current id timer time known seen
    exact tick.rest id timer known whole positive seen List.not_mem_nil
  refine ⟨⟨inv.usable, inv.lawful.snoc holds, inv.bounded, fun id clock interval repeats member => ?_, nofun,
    fun id node closed found => ?_, fun id timer known => ?_⟩, fun id timer known _ => ?_⟩
  · exact inv.created _ _ _ _ ((List.mem_append.mp member).resolve_right (by simp))
  · change account id (core.log ++ _) = none at closed
    rw [accounts, Option.map_eq_none_iff] at closed
    exact inv.gone id node closed found
  · change account id (core.log ++ _) = some timer at known
    rw [accounts] at known
    obtain ⟨old, known', rfl⟩ := Option.map_eq_some_iff.mp known
    exact inv.kept id old known'
  · change account id (core.log ++ _) = some timer at known
    rw [accounts] at known
    obtain ⟨old, -, rfl⟩ := Option.map_eq_some_iff.mp known
    rfl

theorem clock_tick (rest : Between core) :
    Ends (fun _ core' => Between core') (fun e core' => Between core' ∧ (e = .undefined → ¬ InRange core'.log))
      (ClockCore.tick now (fun id => (script id).run ClockCore.serve) core) := by
  rw [ClockCore.tick, get_bind]
  cases empty : core.timers.ids.isEmpty with
  | true => exact rest
  | false =>
    obtain ⟨due, sorted, valid, mem⟩ := core.timers.sortDue_dueIds now
    obtain ⟨inv, tick⟩ := TickInv.init rest mem
    rw [if_neg (by simp), modify_bind]
    let entered : ClockCore := Invoker.enter (core.record (.ticked now))
    have looped : Ends _ Failed (Scheduler.tickLoop64 now _ due entered) := clock_tickLoop script due valid
      (inv.congr inv.usable rfl rfl fun _ => rfl) ⟨tick.current, tick.unseen, tick.rest⟩
    have unfolded : Scheduler.tick64 now
        (fun id _ _ => ClockCore.callback now (fun id => (script id).run ClockCore.serve) id) (core.record (.ticked now)) =
        withCleanup (Scheduler.tickLoop64 now
          (fun id _ _ => ClockCore.callback now (fun id => (script id).run ClockCore.serve) id) due) Invoker.leave entered := by
      rw [Scheduler.tick64, get_bind, show (HasTimers.scheduler (core.record (.ticked now))).ids.isEmpty = false from empty,
        if_neg (by simp), Invoker.scope, modify_bind]
      simp only [withCleanup, get_bind]
      rw [show HasTimers.scheduler (Invoker.enter (core.record (.ticked now))) = core.timers from rfl, sorted]
    cases ran : Scheduler.tickLoop64 now
        (fun id _ _ => ClockCore.callback now (fun id => (script id).run ClockCore.serve) id) due entered with
    | error e core' =>
      rw [ran] at looped
      obtain ⟨aborted, range⟩ := looped
      rw [bind_of_error (onError_of_error (unfolded.trans (withCleanup_of_error ran)))]
      refine ⟨⟨aborted.congr aborted.usable rfl rfl fun _ => rfl, fun id timer known whole => ?_⟩, fun undefined range' => ?_⟩
      · change account id (core'.log ++ [.aborted]) = some timer at known
        rw [account_snoc] at known
        obtain ⟨_, -, rfl⟩ := Option.map_eq_some_iff.mp known
        cases whole
      · exact range undefined range'.of_append
    | ok _ core' =>
      rw [ran] at looped
      obtain ⟨inv', tick'⟩ := looped
      rw [bind_of_ok (onError_of_ok (unfolded.trans (withCleanup_of_ok ran)))]
      have left : RateInv none (Invoker.leave core') := inv'.congr inv'.usable rfl rfl fun _ => rfl
      exact Between.completed left ⟨tick'.current, tick'.unseen, tick'.rest⟩

end Tick

/-! ## Every run -/

section Run

variable {core : ClockCore}

/-- A request outside of a tick changes nothing about the ticks. -/
theorem Between.quiet {core' : ClockCore} (rest : Between core) (inv : RateInv none core') (quiet : Quiet core core') :
    Between core' := by
  refine ⟨inv, fun id timer known whole => ?_⟩
  rcases quiet.accounts id with same | gone | ⟨-, isNew, known', -, settled⟩
  · exact rest.settled id timer (same ▸ known) whole
  · rw [gone] at known
    cases known
  · cases known'.symm.trans known
    exact settled

theorem Between.clear (rest : Between core) : Between core.clear := by
  have inv := rest.inv
  have accounts : ∀ id, account id (core.log ++ [.cleared]) = none := fun id => account_snoc id _ _
  refine ⟨⟨inv.usable, inv.lawful.snoc trivial, fun _ _ => rfl, fun id clock interval repeats member => ?_, nofun, nofun,
    fun id timer known => ?_⟩, fun id timer known => ?_⟩
  · exact inv.created _ _ _ _ ((List.mem_append.mp member).resolve_right (by simp))
  all_goals
    cases (accounts id).symm.trans known

/-- What a step comes to. -/
def Stepped (result : EStateM.Result Exn ClockCore Unit) : Prop :=
  Ends (fun _ core => Between core) (fun e core => Between core ∧ (e = .undefined → ¬ InRange core.log)) result

theorem clock_step (step : TimerStep) (rest : Between core) : Stepped (ClockCore.step step core) := by
  cases step with
  | request op =>
    have inv := preserves_serve op nofun core rest.inv
    have quiet := quiet_serve op nofun core
    have served : Ends (fun _ core' => Between core')
        (fun e core' => Between core' ∧ (e = .undefined → ¬ InRange core'.log)) (ClockCore.serve op nofun core) := by
      cases ran : ClockCore.serve op nofun core with
      | ok answer core' =>
        rw [after_of_ok ran] at inv quiet
        exact rest.quiet inv quiet
      | error e core' =>
        rw [after_of_error ran] at inv quiet
        refine ⟨rest.quiet inv quiet, ?_⟩
        rintro rfl
        exact defined_serve op nofun core core' ran
    exact served.bind fun _ _ between => between
  | tick now callbacks => exact clock_tick callbacks rest
  | clear => exact rest.clear

theorem clock_run (steps : List TimerStep) (rest : Between core) :
    Between (after (ClockCore.run steps) core) ∧
      (InRange (after (ClockCore.run steps) core).log → ∃ core', ClockCore.run steps core = .ok () core') := by
  have body : ∀ (step : TimerStep) (rest : List TimerStep) (core : ClockCore), Between core →
      Ends (fun _ core' => Between core') (fun _ core' => Between core' ∧ ¬ InRange core'.log)
        ((discard (asBinding (ClockCore.step step)) : EStateM Exn ClockCore Unit) core) := by
    intro step _ core between
    have stepped := clock_step step between
    have guarded : Ends (fun _ core' => Between core') (fun _ core' => Between core' ∧ ¬ InRange core'.log)
        (asBinding (ClockCore.step step) core) := by
      rcases ran : ClockCore.step step core with ⟨_, core'⟩ | ⟨_ | _, core'⟩ <;> rw [ran] at stepped <;>
        simp only [asBinding, ran]
      · exact stepped
      · exact stepped.1
      · exact ⟨stepped.1, stepped.2 rfl⟩
    exact guarded.bind fun _ _ between => between
  have looped := ends_forEach (I := fun _ core => Between core) body steps core rest
  rw [ClockCore.run]
  cases ran : forEach (fun next => (discard (asBinding (ClockCore.step next)) : EStateM Exn ClockCore Unit)) steps core with
  | ok _ core' =>
    rw [ran] at looped
    rw [after_of_ok ran]
    exact ⟨looped, fun _ => ⟨core', rfl⟩⟩
  | error e core' =>
    rw [ran] at looped
    rw [after_of_error ran]
    exact ⟨looped.1, fun range => absurd range looped.2⟩

theorem between_init : Between {} where
  inv := ⟨rfl, .nil, fun _ _ => rfl, nofun, nofun, nofun, nofun⟩
  settled := nofun

/-- A timer that fell behind is called once and keeps its rate from then on. -/
example : (after (ClockCore.run [.request (.create 7 10 (-1) [] 0), .tick 10 fun _ => .ret .returned,
    .tick 45 fun _ => .ret .returned, .tick 54 fun _ => .ret .returned]) {}).log =
      [.read 0, .created 1 0 10 (-1), .ticked 10, .called 1 10 20, .completed, .ticked 45, .called 1 45 55, .completed,
        .ticked 54, .completed] := by decide +kernel

end Run

end VcmpLua.Model.Core
