import VcmpLua.Proofs.TimerTicks
import VcmpLua.Spec.TimerHistory

/-! # Timer lifetimes over whole runs

The history decides which timers exist. The invariant ties the specification's timers to the record
of a run: a timer is there exactly when it is alive by history, and the calls it has left are its
repeats less the calls started. A callback that runs has one call started and not yet returned. The
refinement carries the result to the scheduler.
-/

namespace VcmpLua.Spec

open Effect VcmpLua.Model.Core

section AliveSnoc

variable {log : List TimerEvent} {id : ℕ}

/-- Events that neither begin nor end a lifetime. -/
def TimerEvent.Neutral : TimerEvent → Prop
  | .existed _ _ | .counted _ | .started _ | .destroyed _ false => True
  | _ => False

theorem alive_neutral {event : TimerEvent} (neutral : event.Neutral) :
    Alive (log ++ [event]) id ↔ Alive log id := by
  have notCleared : event ≠ .cleared := by
    rintro rfl
    exact neutral
  unfold Alive
  rw [sinceClear_snoc notCleared]
  cases event with
  | existed | counted | started => simp
  | destroyed other answer =>
    cases answer with
    | true => exact neutral.elim
    | false => simp
  | created | returned | cleared => exact neutral.elim

theorem alive_created_other {other : ℕ} {repeats : ℤ} (different : id ≠ other) :
    Alive (log ++ [.created other repeats]) id ↔ Alive log id := by
  unfold Alive
  rw [sinceClear_snoc (show TimerEvent.created other repeats ≠ .cleared from nofun)]
  simp [different]

theorem alive_destroyed {other : ℕ} :
    Alive (log ++ [.destroyed other true]) id ↔ Alive log id ∧ id ≠ other := by
  unfold Alive
  rw [sinceClear_snoc (show TimerEvent.destroyed other true ≠ .cleared from nofun)]
  by_cases same : id = other
  · simp [same]
  · simp [same]

theorem alive_returned_other {other : ℕ} (different : id ≠ other) :
    Alive (log ++ [.returned other]) id ↔ Alive log id := by
  unfold Alive
  rw [sinceClear_snoc (show TimerEvent.returned other ≠ .cleared from nofun)]
  have zero : List.count (TimerEvent.returned id) [.returned other] = 0 := by
    simp [different.symm]
  simp [zero]

theorem not_alive_cleared : ¬ Alive (log ++ [.cleared]) id := by
  rintro ⟨repeats, created, -⟩
  simp at created

end AliveSnoc

/-- The timers are what the history says they are; `running` is the timer whose callback runs. -/
structure TimerInv (running : Option ℕ) (s : Timers) : Prop where
  lawful : Lawful s.log
  created_lt : ∀ id repeats, .created id repeats ∈ s.log → id < s.nextId
  alive : ∀ id, (s.timers id).isSome = true ↔ Alive s.log id
  remaining : ∀ id timer repeats, s.timers id = some timer → .created id repeats ∈ s.log →
    repeats = -1 ∧ timer.remaining = -1 ∨
      0 < repeats ∧ timer.remaining = repeats - (s.log.count (.started id) : ℤ)
  balanced : ∀ id, s.log.count (.started id) =
    s.log.count (.returned id) + if running = some id then 1 else 0

namespace TimerInv

variable {running : Option ℕ} {s : Timers}

theorem lt_nextId (inv : TimerInv running s) {id : ℕ} (alive : Alive s.log id) : id < s.nextId := by
  obtain ⟨repeats, created⟩ := alive.created
  exact inv.created_lt id repeats created

/-- `Count` is the number of timers alive by history. -/
theorem ids_length (inv : TimerInv running s) : s.ids.length = {id | Alive s.log id}.ncard := by
  have same : {id | Alive s.log id} = (s.ids.toFinset : Set ℕ) := by
    ext id
    simp only [Set.mem_ofPred_eq, List.coe_toFinset, Timers.mem_ids, inv.alive]
    exact ⟨fun alive => ⟨inv.lt_nextId alive, alive⟩, fun facts => facts.2⟩
  rw [same, Set.ncard_coe_finset, List.toFinset_card_of_nodup]
  exact List.nodup_range.filter _

/-- An event that no lifetime depends on. -/
theorem record_neutral (inv : TimerInv running s) {event : TimerEvent} (neutral : event.Neutral)
    (other : ∀ id, event ≠ .started id) (holds : LawfulEvent s.log event) :
    TimerInv running (s.record event) := by
  have noCreate : ∀ id repeats, event ≠ .created id repeats := by
    rintro id repeats rfl
    exact neutral
  have noReturn : ∀ id, event ≠ .returned id := by
    rintro id rfl
    exact neutral
  refine ⟨inv.lawful.snoc holds, fun id repeats created => ?_, fun id => ?_, fun id timer repeats found created => ?_,
    fun id => ?_⟩
  · simp only [Timers.record, List.mem_append, List.mem_singleton, (noCreate id repeats).symm, or_false] at created
    exact inv.created_lt id repeats created
  · exact (inv.alive id).trans (alive_neutral neutral).symm
  · simp only [Timers.record, List.mem_append, List.mem_singleton, (noCreate id repeats).symm, or_false] at created
    have facts := inv.remaining id timer repeats found created
    simpa [Timers.record, List.count_append, List.count_singleton, other id] using facts
  · simpa [Timers.record, List.count_append, List.count_singleton, other id, noReturn id] using inv.balanced id

/-- Only the calls a timer has left matter. -/
theorem congr_timers (inv : TimerInv running s) {s' : Timers} (log : s'.log = s.log) (nextId : s'.nextId = s.nextId)
    (same : ∀ id, (s'.timers id).map (·.remaining) = (s.timers id).map (·.remaining)) : TimerInv running s' := by
  refine ⟨log ▸ inv.lawful, log ▸ nextId ▸ inv.created_lt, fun id => ?_, fun id timer repeats found created => ?_,
    log ▸ inv.balanced⟩
  · have isSome := congrArg Option.isSome (same id)
    rw [Option.isSome_map, Option.isSome_map] at isSome
    rw [isSome, log]
    exact inv.alive id
  · have kept := same id
    rw [found, Option.map_some, eq_comm, Option.map_eq_some_iff] at kept
    obtain ⟨old, stored, remaining⟩ := kept
    rw [log] at created ⊢
    rw [← remaining]
    exact inv.remaining id old repeats stored created

/-- Nothing happened yet at the id that the next timer gets. -/
theorem unused (inv : TimerInv running s) :
    (∀ repeats, .created s.nextId repeats ∉ s.log) ∧ .destroyed s.nextId true ∉ s.log ∧
      s.log.count (.started s.nextId) = 0 ∧ s.log.count (.returned s.nextId) = 0 := by
  have uncreated : ∀ repeats, .created s.nextId repeats ∉ s.log := fun repeats created =>
    absurd (inv.created_lt _ _ created) (Nat.lt_irrefl _)
  have unstarted : s.log.count (.started s.nextId) = 0 := by
    refine List.count_eq_zero.mpr fun started => ?_
    obtain ⟨repeats, created⟩ := inv.lawful.created_of_started started
    exact uncreated repeats created
  refine ⟨uncreated, fun destroyed => ?_, unstarted, ?_⟩
  · obtain ⟨before, after, split⟩ := List.append_of_mem destroyed
    have alive := (inv.lawful.event split).mp rfl
    obtain ⟨repeats, created⟩ := alive.created
    rw [split] at uncreated
    exact uncreated repeats (List.mem_append_left _ created)
  · have balanced := inv.balanced s.nextId
    omega

theorem create (inv : TimerInv running s) {interval repeats : ℤ} (good : Scheduler.ValidTimer interval repeats)
    {timer : LiveTimer} (whole : timer.remaining = repeats) :
    TimerInv running (Timers.record (.created s.nextId repeats)
      { s.setTimer s.nextId (some timer) with nextId := s.nextId + 1 }) := by
  obtain ⟨uncreated, undestroyed, unstarted, unreturned⟩ := inv.unused
  have valid : repeats = -1 ∨ 0 < repeats := good.2
  refine ⟨inv.lawful.snoc ⟨uncreated, valid⟩, fun id other created => ?_, fun id => ?_,
    fun id stored other found created => ?_, fun id => ?_⟩
  · simp only [Timers.record, Timers.setTimer, List.mem_append, List.mem_singleton, TimerEvent.created.injEq]
      at created
    rcases created with created | ⟨rfl, -⟩
    · exact Nat.lt_succ_of_lt (inv.created_lt id other created)
    · exact Nat.lt_succ_self _
  · simp only [Timers.record, Timers.setTimer]
    by_cases same : id = s.nextId
    · subst same
      simp only [Function.update_self, Option.isSome_some, true_iff]
      refine ⟨repeats, ?_, ?_, valid.imp_right fun positive => ?_⟩
      · rw [sinceClear_snoc (show TimerEvent.created s.nextId repeats ≠ .cleared from nofun)]
        exact List.mem_append_right _ (List.mem_singleton_self _)
      · simpa using undestroyed
      · simpa [List.count_append, unreturned] using positive
    · rw [Function.update_of_ne same, alive_created_other same]
      exact inv.alive id
  · simp only [Timers.record, Timers.setTimer, List.mem_append, List.mem_singleton, TimerEvent.created.injEq]
      at created found
    by_cases same : id = s.nextId
    · subst same
      rw [Function.update_self, Option.some.injEq] at found
      subst found
      have isNew : other = repeats := by
        rcases created with created | ⟨-, isNew⟩
        · exact absurd created (uncreated other)
        · exact isNew
      have count : (s.log ++ [TimerEvent.created s.nextId repeats]).count (.started s.nextId) = 0 := by
        simp [unstarted]
      simp only [Timers.record, Timers.setTimer, count, isNew, whole]
      omega
    · rw [Function.update_of_ne same] at found
      have old := created.resolve_right fun isNew => same isNew.1
      have count : (s.log ++ [TimerEvent.created s.nextId repeats]).count (.started id) =
          s.log.count (.started id) := by simp
      simp only [Timers.record, Timers.setTimer, count]
      exact inv.remaining id stored other found old
  · simpa [Timers.record, Timers.setTimer, List.count_append] using inv.balanced id

theorem destroy (inv : TimerInv running s) {id : ℕ} (isAlive : Alive s.log id) :
    TimerInv running (Timers.record (.destroyed id true) (s.setTimer id none)) := by
  refine ⟨inv.lawful.snoc (by simpa [LawfulEvent] using isAlive), fun other repeats created => ?_, fun other => ?_,
    fun other timer repeats found created => ?_, fun other => ?_⟩
  · simp only [Timers.record, Timers.setTimer, List.mem_append, List.mem_singleton, reduceCtorEq, or_false] at created
    exact inv.created_lt other repeats created
  · simp only [Timers.record, Timers.setTimer]
    rw [alive_destroyed, ← inv.alive]
    by_cases same : other = id
    · simp [same]
    · simp [same]
  · simp only [Timers.record, Timers.setTimer, List.mem_append, List.mem_singleton, reduceCtorEq, or_false]
      at created found
    by_cases same : other = id
    · rw [same, Function.update_self] at found
      cases found
    · rw [Function.update_of_ne same] at found
      simpa [Timers.record, Timers.setTimer, List.count_append] using inv.remaining other timer repeats found created
  · simpa [Timers.record, Timers.setTimer, List.count_append] using inv.balanced other

theorem serve (op : TimerOp) (inner : Empty → EStateM Exn Timers HandlerEnd) :
    Triple (TimerInv running) (Timers.serve op inner) (TimerInv running) := by
  intro s answer s' inv ran
  cases op with
  | create callback interval repeats args clock =>
    simp only [Timers.serve, Timers.create] at ran
    split_ifs at ran with good
    · cases ran
      exact inv.create good rfl
    · cases ran
      exact inv
  | setHandle id handle =>
    cases ran
    unfold Timers.setHandle
    cases found : s.timers id with
    | none => exact inv
    | some timer =>
      refine inv.congr_timers rfl rfl fun other => ?_
      by_cases same : other = id
      · simp [Timers.setTimer, same, found]
      · simp [Timers.setTimer, same]
  | destroy id =>
    cases ran
    have exist := inv.alive id
    cases found : s.timers id with
    | none =>
      have missing : ¬ Alive s.log id := by simpa [found] using exist
      have same : s.setTimer id none = s := by rw [Timers.setTimer, ← found, Function.update_eq_self]
      rw [same]
      exact inv.record_neutral trivial (fun _ same => by cases same) (by simpa [LawfulEvent] using missing)
    | some timer => exact inv.destroy (by simpa [found] using exist)
  | «exists» id =>
    cases ran
    exact inv.record_neutral trivial (fun _ same => by cases same) (inv.alive id)
  | count =>
    cases ran
    exact inv.record_neutral trivial (fun _ same => by cases same) inv.ids_length

/-- A call starts: it is one of those the timer has left. -/
theorem start (inv : TimerInv none s) {id : ℕ} {timer : LiveTimer} (found : s.timers id = some timer) (now : ℤ) :
    TimerInv (some id) (Timers.record (.started id)
      { s.setTimer id (some (Timers.advance now timer)) with thisTimer := timer.handle }) := by
  have alive : Alive s.log id := (inv.alive id).mp (by rw [found]; rfl)
  have balanced : s.log.count (.started id) = s.log.count (.returned id) := by simpa using inv.balanced id
  refine ⟨inv.lawful.snoc ⟨alive, balanced⟩, fun other repeats created => ?_, fun other => ?_,
    fun other stored repeats stores created => ?_, fun other => ?_⟩
  · simp only [Timers.record, Timers.setTimer, List.mem_append, List.mem_singleton, reduceCtorEq, or_false] at created
    exact inv.created_lt other repeats created
  · simp only [Timers.record, Timers.setTimer]
    rw [alive_neutral (show (TimerEvent.started id).Neutral from trivial), ← inv.alive]
    by_cases same : other = id
    · simp [same, found]
    · simp [same]
  · simp only [Timers.record, Timers.setTimer, List.mem_append, List.mem_singleton, reduceCtorEq, or_false]
      at created stores
    by_cases same : other = id
    · subst same
      rw [Function.update_self, Option.some.injEq] at stores
      subst stores
      obtain ⟨current, member, -, more⟩ := alive
      have unique := inv.lawful.created_unique created (mem_of_mem_sinceClear member)
      have left := inv.remaining other timer repeats found created
      simp only [Timers.record, Timers.setTimer, Timers.advance, List.count_append, List.count_singleton_self]
      split_ifs <;> omega
    · rw [Function.update_of_ne same] at stores
      have none : List.count (TimerEvent.started other) [.started id] = 0 := by
        simp [Ne.symm same]
      simpa [Timers.record, Timers.setTimer, List.count_append, none] using
        inv.remaining other stored repeats stores created
  · have count := inv.balanced other
    by_cases same : other = id
    · subst same
      simpa [Timers.record, Timers.setTimer, List.count_append] using count
    · have different : id ≠ other := fun eq => same eq.symm
      simpa [Timers.record, Timers.setTimer, List.count_append, different] using count

/-- A call returns; `timers` are the timers after it. -/
private theorem returned {id : ℕ} (inv : TimerInv (some id) s) {timers : ℕ → Option LiveTimer}
    (others : ∀ other, other ≠ id → timers other = s.timers other)
    (own : ∀ timer, timers id = some timer → s.timers id = some timer)
    (alive : (timers id).isSome = true ↔ Alive (s.log ++ [.returned id]) id) :
    TimerInv none { s.record (.returned id) with timers } := by
  have counts : ∀ other, (s.log ++ [TimerEvent.returned id]).count (.started other) =
      s.log.count (.started other) := fun other => by simp
  refine ⟨inv.lawful.snoc trivial, fun other repeats created => ?_, fun other => ?_,
    fun other timer repeats found created => ?_, fun other => ?_⟩
  · simp only [Timers.record, List.mem_append, List.mem_singleton, reduceCtorEq, or_false] at created
    exact inv.created_lt other repeats created
  · by_cases same : other = id
    · subst same
      exact alive
    · have unchanged := (inv.alive other).trans (alive_returned_other same).symm
      rw [← others other same] at unchanged
      exact unchanged
  · simp only [Timers.record, List.mem_append, List.mem_singleton, reduceCtorEq, or_false] at created
    have stored : s.timers other = some timer := by
      by_cases same : other = id
      · subst same
        exact own timer found
      · rw [← others other same]
        exact found
    simp only [Timers.record, counts]
    exact inv.remaining other timer repeats stored created
  · have balanced := inv.balanced other
    simp only [Timers.record, counts, balanced]
    by_cases same : other = id
    · subst same
      simp
    · simp [Ne.symm same]

/-- A call returns: the timer ends if it was the last one. -/
theorem finish {id : ℕ} (inv : TimerInv (some id) s) : TimerInv none (Timers.finish id (s.record (.returned id))) := by
  have balanced : s.log.count (.started id) = s.log.count (.returned id) + 1 := by simpa using inv.balanced id
  have count : (s.log ++ [TimerEvent.returned id]).count (.returned id) = s.log.count (.returned id) + 1 := by
    simp
  have exist := inv.alive id
  unfold Timers.finish
  rw [show (s.record (.returned id)).timers id = s.timers id from rfl]
  cases found : s.timers id with
  | none =>
    rw [found] at exist
    have ended : ¬ Alive (s.log ++ [.returned id]) id := fun alive =>
      absurd (exist.mpr (alive_of_alive_snoc alive nofun)) (by decide)
    exact inv.returned (fun _ _ => rfl) (fun _ same => same) (by simpa [found] using ended)
  | some timer =>
    rw [found] at exist
    obtain ⟨repeats, member, kept, more⟩ := exist.mp rfl
    have created := mem_of_mem_sinceClear member
    have left := inv.remaining id timer repeats found created
    simp only
    split_ifs with finished
    · refine inv.returned (fun other different => Function.update_of_ne different _ _) (fun _ same => ?_) ?_
      · rw [Function.update_self] at same
        cases same
      · simp only [Function.update_self, Option.isSome_none, Bool.false_eq_true, false_iff]
        rintro ⟨other, later, -, more⟩
        have old : .created id other ∈ s.log := by simpa using mem_of_mem_sinceClear later
        have unique := inv.lawful.created_unique created old
        omega
    · refine inv.returned (fun _ _ => rfl) (fun _ same => same) ?_
      simp only [found, Option.isSome_some, true_iff]
      refine ⟨repeats, ?_, by simpa using kept, ?_⟩
      · rw [sinceClear_snoc (show TimerEvent.returned id ≠ .cleared from nofun)]
        exact List.mem_append_left _ member
      · rcases left with ⟨isForever, -⟩ | ⟨positive, left⟩
        · exact .inl isForever
        · have bounded := inv.lawful.count_started_le created positive
          omega

theorem clear (inv : TimerInv none s) : TimerInv none s.clear := by
  refine ⟨inv.lawful.snoc trivial, fun id repeats created => ?_, fun id => ?_, nofun, fun id => ?_⟩
  · simp only [Timers.clear, Timers.record, List.mem_append, List.mem_singleton, reduceCtorEq, or_false] at created
    exact inv.created_lt id repeats created
  · simpa [Timers.clear, Timers.record] using not_alive_cleared
  · simpa [Timers.clear, Timers.record, List.count_append] using inv.balanced id

theorem call {id : ℕ} {now : ℤ} {timer : LiveTimer} {callback : EStateM Exn Timers HandlerEnd}
    (inside : Triple (TimerInv (some id)) callback (TimerInv (some id))) (inv : TimerInv none s)
    (found : s.timers id = some timer) {s' : Timers} (ran : Timers.call id now timer callback s = .ok () s') :
    TimerInv none s' := by
  rw [Timers.call, get_bind, modify_bind] at ran
  cases called : callback (Timers.record (.started id)
      { s.setTimer id (some (Timers.advance now timer)) with thisTimer := timer.handle }) with
  | error e last =>
    rw [bind_of_ok (attempt_of_error called), modify_bind] at ran
    cases ran
  | ok ended last =>
    have ends := inside _ _ _ (inv.start found now) called
    have restored : TimerInv (some id) { last with thisTimer := s.thisTimer } :=
      ends.congr_timers rfl rfl fun _ => rfl
    rw [bind_of_ok (attempt_of_ok called), modify_bind] at ran
    cases ended with
    | threw => cases ran
    | returned | raised =>
      cases ran
      exact restored.finish

theorem visit {now : ℤ} {callbacks : ℕ → EStateM Exn Timers HandlerEnd}
    (inside : ∀ id, Triple (TimerInv (some id)) (callbacks id) (TimerInv (some id))) (ids : List ℕ) :
    Triple (TimerInv none) (Timers.visit now callbacks ids) (TimerInv none) := by
  induction ids with
  | nil => exact triple_pure []
  | cons id rest ih =>
    intro s called s' inv ran
    rw [Timers.visit, get_bind] at ran
    cases found : s.timers id with
    | none =>
      rw [found] at ran
      exact ih s called s' inv ran
    | some timer =>
      rw [found] at ran
      obtain ⟨_, middle, first, ran⟩ := bind_eq_ok.mp ran
      obtain ⟨later, last, ran, result⟩ := bind_eq_ok.mp ran
      cases result
      exact ih middle later s' (inv.call (inside id) found first) ran

/-- Every step of a run keeps the invariant. -/
theorem step (step : TimerStep) : Triple (TimerInv none) (Timers.step step) (TimerInv none) := by
  cases step with
  | request op => exact (serve op _).map _
  | tick now callbacks =>
    refine Triple.map (fun s called s' inv ran => ?_) _
    exact visit (fun id => Script.triple_run (fun op inner _ => serve op inner) (callbacks id)) _ s called s' inv ran
  | clear =>
    rintro s _ _ inv ⟨⟩
    exact inv.clear

theorem init : TimerInv none ({} : TimerCore).view := by
  refine ⟨.nil, nofun, fun id => ?_, nofun, fun id => rfl⟩
  simp [TimerCore.view, Alive, sinceClear]

end TimerInv

end VcmpLua.Spec

namespace VcmpLua.Model.Core

open Effect VcmpLua.Spec

/-- In every run that no exception ends, the timers that exist are those alive by history, and the
history obeys the laws of timer lifetimes. -/
theorem timer_lifetimes (steps : List TimerStep) {core : TimerCore}
    (ran : forEach TimerCore.step steps {} = .ok () core) :
    Lifetimes core.log ∧ (∀ id, core.timers.exists id = true ↔ Alive core.log id) ∧
      core.timers.count = {id | Alive core.log id}.ncard := by
  have agree := sim_forEach sim_timer_step steps _ _ TimerReachable.init.related
  rw [ran] at agree
  obtain ⟨s, ran, related⟩ := agree.of_ok
  have inv := triple_forEach (fun step _ => TimerInv.step step) _ _ _ TimerInv.init ran
  obtain rfl := related.view
  refine ⟨inv.lawful.lifetimes, fun id => ?_, ?_⟩
  · rw [exists_eq]
    exact inv.alive id
  · rw [count_eq]
    exact inv.ids_length

/-- A timer with two calls that destroys itself in the last one. -/
theorem timer_lifetimes_sample :
    Lifetimes [.created 1 2, .started 1, .returned 1, .started 1, .destroyed 1 true, .returned 1,
      .existed 1 false] :=
  (timer_lifetimes [.request (.create 7 10 2 [] 0), .tick 10 fun _ => .ret .returned,
    .tick 20 fun _ => .act (.destroy 1) nofun fun _ => .ret .raised, .request (.exists 1)]
    (show forEach TimerCore.step _ {} = .ok () _ from rfl)).1

end VcmpLua.Model.Core
