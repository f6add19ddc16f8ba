import Mathlib
import VcmpLua.Lib.Script
import VcmpLua.Spec.HttpHistory

/-! # Delivery of HTTP callbacks

Every interleaving of `Start`, `Pump`, `Clear` and `Pending`, called from anywhere and also from
inside the callbacks of a `Pump`. The invariant ties the map, the multi handle and the lists of
finished transfers of the calls of `Pump` that are under way to the record of the run: a request
waits exactly when it is in the map and its handle in the multi handle, and is reported exactly when
one of these lists still has it.
-/

namespace VcmpLua.Model.Modules

open Effect VcmpLua.Model.Core VcmpLua.Spec

/-- How a callback ends: it returns, or a Lua error ends it. -/
inductive CallbackEnd where
  | returned | raised
deriving DecidableEq, Repr

def CallbackEnd.toEnding : CallbackEnd → Ending
  | .returned => .returned
  | .raised => .raised

/-- What C++ or a script can ask of the module, with what libcurl does. -/
inductive HttpOp where
  | start (callback : Fn) (fault : Option Fault)
  | pump (reports : List (ℕ × Outcome))
  | clear
  | pending

inductive HttpReply where
  | done | failed
  | count (pending : ℕ)

/-- The module with the record of a run; `pumps` numbers the calls of `Pump`. -/
structure HttpCore where
  invoker : Invoker := {}
  http : Http := {}
  pumps : ℕ := 0
  log : List HttpEvent := []

instance : HasHttp HttpCore where
  invoker := HttpCore.invoker
  setInvoker invoker core := { core with invoker }
  markDead core := { core with invoker := { core.invoker with dead := true } }
  http := HttpCore.http
  setHttp http core := { core with http }

namespace HttpCore

def record (event : HttpEvent) (core : HttpCore) : HttpCore := { core with log := core.log ++ [event] }

def snapshot (core : HttpCore) : Snapshot := { pending := core.http.ids, handles := core.http.multi }

def look (core : HttpCore) : HttpCore := core.record (.seen core.snapshot)

/-- The callback of a transfer; `inner` is what it does. -/
def callback (number : ℕ) (inner : ℕ → EStateM Exn HttpCore CallbackEnd) (transfer : Transfer) (answer : Answer) :
    EStateM Exn HttpCore Ending := do
  modify (record (.called number transfer.id transfer.callback answer))
  let ending ← inner transfer.id
  return ending.toEnding

/-- One operation; `inner id` is what the callback of this request does, when it is called. -/
def perform (inner : ℕ → EStateM Exn HttpCore CallbackEnd) : HttpOp → EStateM Exn HttpCore HttpReply
  | .start callback fault => do
      modify (record .start)
      match ← asBinding (Http.start callback fault) with
      | some id =>
        modify (record (.started id callback))
        return .done
      | none =>
        modify (record .refused)
        return .failed
  | .pump reports => do
      let number := (← get).pumps
      modify fun core => { core with pumps := number + 1 }
      modify (record (.pump number reports))
      Http.pump reports (callback number inner)
      modify (record (.pumped number))
      return .done
  | .clear => do
      modify (record .clear)
      modify (Http.update Http.clear)
      return .done
  | .pending => do
      let count := (← get).http.pending
      modify (record (.pending count))
      return .count count

/-- One operation, with the state before and after it on record. -/
def serve (op : HttpOp) (inner : ℕ → EStateM Exn HttpCore CallbackEnd) : EStateM Exn HttpCore HttpReply := do
  modify look
  let reply ← perform inner op
  modify look
  return reply

end HttpCore

/-! ## The map and the multi handle -/

theorem Http.removeHandle_addHandle (id : ℕ) (http : Http) : (http.addHandle id).removeHandle id = http := by
  rw [addHandle, removeHandle, List.erase_cons_head]

structure Http.Sound (http : Http) : Prop where
  nodup : http.ids.Nodup
  handles_nodup : http.multi.Nodup
  same : ∀ id, id ∈ http.multi ↔ id ∈ http.ids
  added : ∀ transfer ∈ http.transfers, transfer.multi = true
  bounded : http.transfers.length ≤ Http.kMaxPending
  fresh : ∀ id ∈ http.ids, id < http.nextId

namespace Http.Sound

variable {http : Http}

theorem mem_ids {id : ℕ} : id ∈ http.ids ↔ ∃ transfer ∈ http.transfers, transfer.id = id := by
  simp [Http.ids]

/-- A transfer is the one at its id. -/
theorem find_eq (sound : http.Sound) {transfer : Transfer} (member : transfer ∈ http.transfers) :
    http.find? transfer.id = some transfer := by
  cases found : http.find? transfer.id with
  | none =>
    rw [Http.find?, List.find?_eq_none] at found
    exact absurd (decide_eq_true rfl) (found transfer member)
  | some other =>
    have same : other.id = transfer.id := by simpa using List.find?_some found
    have inside := List.mem_of_find?_eq_some found
    exact congrArg some (List.inj_on_of_nodup_map sound.nodup inside member same)

/-- A finished transfer leaves both. -/
theorem finish (sound : http.Sound) (id : ℕ) : ((http.removeHandle id).erase id).Sound where
  nodup := by
    rw [Http.ids, Http.erase, Http.removeHandle]
    exact sound.nodup.sublist (List.filter_sublist.map _)
  handles_nodup := sound.handles_nodup.erase id
  same other := by
    rw [Http.erase, Http.removeHandle, sound.handles_nodup.mem_erase_iff, sound.same, mem_ids, mem_ids]
    constructor
    · rintro ⟨different, transfer, member, rfl⟩
      exact ⟨transfer, by simpa using ⟨member, different⟩, rfl⟩
    · rintro ⟨transfer, member, rfl⟩
      simp only [List.mem_filter, decide_eq_true_eq] at member
      exact ⟨member.2, transfer, member.1, rfl⟩
  added transfer member := sound.added transfer (List.mem_of_mem_filter member)
  bounded := Nat.le_trans (List.length_filter_le ..) sound.bounded
  fresh other member := by
    obtain ⟨transfer, inside, rfl⟩ := mem_ids.mp member
    exact sound.fresh _ (mem_ids.mpr ⟨transfer, List.mem_of_mem_filter inside, rfl⟩)

theorem clear (sound : http.Sound) : http.clear.Sound where
  nodup := List.nodup_nil
  handles_nodup := sound.handles_nodup.filter _
  same id := by
    refine iff_of_false (fun member => ?_) (by simp [Http.clear, Http.ids])
    simp only [Http.clear, List.mem_filter, decide_eq_true_eq] at member
    obtain ⟨transfer, inside, rfl⟩ := mem_ids.mp ((sound.same id).mp member.1)
    exact member.2 (List.mem_map_of_mem (List.mem_filter.mpr ⟨inside, sound.added transfer inside⟩))
  added := nofun
  bounded := Nat.zero_le _
  fresh := nofun

theorem start (sound : http.Sound) (room : http.pending < Http.kMaxPending) (callback : Fn) :
    Http.Sound
      { transfers := http.transfers ++ [{ id := http.nextId, callback, multi := true }]
        nextId := http.nextId + 1
        multi := http.nextId :: http.multi } := by
  have unused : http.nextId ∉ http.ids := fun member => absurd (sound.fresh _ member) (Nat.lt_irrefl _)
  refine ⟨?_, ?_, fun id => ?_, fun transfer member => ?_, ?_, fun id member => ?_⟩
  · have apart : ∀ id ∈ http.ids, id ≠ http.nextId := by
      rintro id member rfl
      exact unused member
    rw [Http.ids, List.map_append]
    refine List.nodup_append.mpr ⟨sound.nodup, List.nodup_singleton _, fun id member other isNew => ?_⟩
    rw [List.map_singleton, List.mem_singleton] at isNew
    exact isNew ▸ apart id member
  · exact List.nodup_cons.mpr ⟨fun member => unused ((sound.same _).mp member), sound.handles_nodup⟩
  · simp [Http.ids, sound.same, or_comm]
  · rcases List.mem_append.mp member with old | isNew
    · exact sound.added transfer old
    · rw [List.mem_singleton.mp isNew]
  · rw [List.length_append]
    exact room
  · obtain ⟨transfer, inside, rfl⟩ := mem_ids.mp member
    rcases List.mem_append.mp inside with old | isNew
    · exact Nat.lt_succ_of_lt (sound.fresh _ (mem_ids.mpr ⟨transfer, old, rfl⟩))
    · rw [List.mem_singleton.mp isNew]
      exact Nat.lt_succ_self _

end Http.Sound

/-- What a loop over the reports of libcurl takes out of the map. -/
structure Collected (reports : List (ℕ × Outcome)) (http : Http) (done : List Transfer) (http' : Http) : Prop where
  sound : http'.Sound
  nextId : http'.nextId = http.nextId
  left : ∀ transfer, transfer ∈ http'.transfers ↔ transfer ∈ http.transfers ∧ reportOf transfer.id reports = none
  nodup : (done.map (·.id)).Nodup
  taken : ∀ transfer, transfer ∈ done ↔ ∃ old ∈ http.transfers, ∃ outcome,
    reportOf old.id reports = some outcome ∧ transfer = { old with multi := false, outcome }

theorem reportOf_cons_self (id : ℕ) (outcome : Outcome) (rest : List (ℕ × Outcome)) :
    reportOf id ((id, outcome) :: rest) = some outcome := by
  simp [reportOf]

theorem reportOf_cons_of_ne {id handle : ℕ} (different : id ≠ handle) (outcome : Outcome) (rest : List (ℕ × Outcome)) :
    reportOf id ((handle, outcome) :: rest) = reportOf id rest := by
  simp [reportOf, Ne.symm different]

theorem Collected.skip {reports : List (ℕ × Outcome)} {http http' : Http} {done : List Transfer} {handle : ℕ}
    (collected : Collected reports http done http') (absent : handle ∉ http.ids) (outcome : Outcome) :
    Collected ((handle, outcome) :: reports) http done http' := by
  have other : ∀ transfer ∈ http.transfers,
      reportOf transfer.id ((handle, outcome) :: reports) = reportOf transfer.id reports := by
    intro transfer member
    refine reportOf_cons_of_ne (fun same => absent ?_) outcome reports
    exact Http.Sound.mem_ids.mpr ⟨transfer, member, same⟩
  refine ⟨collected.sound, collected.nextId, fun transfer => ?_, collected.nodup, fun transfer => ?_⟩
  · rw [collected.left]
    exact and_congr_right fun member => by rw [other transfer member]
  · rw [collected.taken]
    exact exists_congr fun old => and_congr_right fun member => by rw [other old member]

theorem Collected.take {reports : List (ℕ × Outcome)} {http http' : Http} {done : List Transfer} {found : Transfer}
    (sound : http.Sound) (member : found ∈ http.transfers) (outcome : Outcome)
    (collected : Collected reports ((http.removeHandle found.id).erase found.id) done http') :
    Collected ((found.id, outcome) :: reports) http ({ found with multi := false, outcome } :: done) http' := by
  have others : ∀ transfer, transfer ∈ ((http.removeHandle found.id).erase found.id).transfers ↔
      transfer ∈ http.transfers ∧ transfer.id ≠ found.id := by
    intro transfer
    simp [Http.erase, Http.removeHandle]
  refine ⟨collected.sound, collected.nextId, fun transfer => ?_, ?_, fun transfer => ?_⟩
  · rw [collected.left, others]
    by_cases same : transfer.id = found.id
    · simp [same, reportOf_cons_self]
    · simp [same, reportOf_cons_of_ne same]
  · refine List.nodup_cons.mpr ⟨fun again => ?_, collected.nodup⟩
    obtain ⟨taken, inside, same⟩ := List.mem_map.mp again
    obtain ⟨old, kept, _, -, rfl⟩ := (collected.taken taken).mp inside
    exact ((others old).mp kept).2 same
  · rw [List.mem_cons, collected.taken]
    constructor
    · rintro (rfl | ⟨old, inside, report, reported, rfl⟩)
      · exact ⟨found, member, outcome, reportOf_cons_self .., rfl⟩
      · obtain ⟨inside, different⟩ := (others old).mp inside
        exact ⟨old, inside, report, by rw [reportOf_cons_of_ne different, reported], rfl⟩
    · rintro ⟨old, inside, report, reported, rfl⟩
      by_cases same : old.id = found.id
      · obtain rfl := List.inj_on_of_nodup_map sound.nodup inside member same
        rw [reportOf_cons_self, Option.some.injEq] at reported
        subst reported
        exact .inl rfl
      · rw [reportOf_cons_of_ne same] at reported
        exact .inr ⟨old, (others old).mpr ⟨inside, same⟩, report, reported, rfl⟩

/-- The loop over `curl_multi_info_read` finds every reported transfer in the map. -/
theorem collect_spec (reports : List (ℕ × Outcome)) (core : HttpCore) (sound : core.http.Sound) :
    ∃ done http, Http.collect reports core = .ok done { core with http } ∧ Collected reports core.http done http := by
  induction reports generalizing core with
  | nil =>
    refine ⟨[], core.http, rfl, sound, rfl, fun transfer => ?_, List.nodup_nil, fun transfer => ?_⟩
    · simp [reportOf]
    · simp [reportOf]
  | cons report rest ih =>
    obtain ⟨handle, outcome⟩ := report
    rw [Http.collect, get_bind]
    by_cases listed : handle ∈ core.http.multi
    · obtain ⟨found, member, rfl⟩ := Http.Sound.mem_ids.mp ((sound.same handle).mp listed)
      obtain ⟨done, http, ran, collected⟩ :=
        ih { core with http := (core.http.removeHandle found.id).erase found.id } (sound.finish found.id)
      refine ⟨_, http, ?_, collected.take sound member outcome⟩
      rw [if_pos (show found.id ∈ (HasHttp.http core).multi from listed), get_bind]
      simp only [show (HasHttp.http core).find? found.id = some found from sound.find_eq member]
      rw [modify_bind, modify_bind]
      exact bind_of_ok ran
    · obtain ⟨done, http, ran, collected⟩ := ih core sound
      refine ⟨done, http, ?_, collected.skip (fun member => listed ((sound.same handle).mpr member)) outcome⟩
      rw [if_neg (show handle ∉ (HasHttp.http core).multi from listed)]
      exact ran

/-! ## The invariant -/

/-- The module is what the history says it is; `outstanding` are the finished transfers that are
still to be called back, each with the number of its `Pump`. -/
structure HttpInv (outstanding : List (ℕ × Transfer)) (core : HttpCore) : Prop where
  usable : core.invoker.dead = false
  sound : core.http.Sound
  lawful : HttpLawful core.log
  idle : core.log.getLast? ≠ some .start
  waiting : ∀ id callback, stage core.log id = .waiting callback ↔
    ∃ transfer ∈ core.http.transfers, transfer.id = id ∧ transfer.callback = callback
  reported : ∀ number id callback outcome, stage core.log id = .reported number callback outcome ↔
    ∃ transfer, (number, transfer) ∈ outstanding ∧ transfer.id = id ∧ transfer.callback = callback ∧
      transfer.outcome = outcome
  unknown : ∀ id, core.http.nextId ≤ id → stage core.log id = .unknown
  numbers : ∀ number reports, .pump number reports ∈ core.log → number < core.pumps
  nodup : (outstanding.map (·.2.id)).Nodup

namespace HttpInv

variable {outstanding : List (ℕ × Transfer)} {core : HttpCore}

theorem prompt (inv : HttpInv outstanding core) {event : HttpEvent} (unstarted : ∀ id callback, event ≠ .started id callback)
    (accepted : event ≠ .refused) : event.Prompt core.log := by
  refine iff_of_false inv.idle ?_
  rintro (⟨id, callback, start⟩ | refused)
  · exact unstarted id callback start
  · exact accepted refused

theorem record_neutral (inv : HttpInv outstanding core) {event : HttpEvent} (neutral : event.Neutral)
    (holds : event.Lawful core.log) : HttpInv outstanding (core.record event) := by
  have same := stage_neutral core.log neutral
  have unstarted : event ≠ .start := by
    rintro rfl
    exact neutral
  refine ⟨inv.usable, inv.sound, inv.lawful.snoc ⟨holds, inv.prompt ?_ ?_⟩, ?_, fun id callback => ?_,
    fun number id callback outcome => ?_, fun id beyond => ?_, fun number reports member => ?_, inv.nodup⟩
  · rintro id callback rfl
    exact neutral
  · rintro rfl
    exact neutral
  · simpa [HttpCore.record] using unstarted
  · exact (iff_of_eq (congrArg (· = _) (same id))).trans (inv.waiting id callback)
  · exact (iff_of_eq (congrArg (· = _) (same id))).trans (inv.reported number id callback outcome)
  · exact (same id).trans (inv.unknown id beyond)
  · rcases List.mem_append.mp member with old | isNew
    · exact inv.numbers number reports old
    · rw [← List.mem_singleton.mp isNew] at neutral
      exact neutral.elim

theorem look (inv : HttpInv outstanding core) : HttpInv outstanding core.look := by
  refine inv.record_neutral (by trivial) ⟨inv.sound.nodup, inv.sound.handles_nodup, fun id => ?_, fun id => ?_, ?_⟩
  · exact (inv.sound.same id).symm
  · simp only [inv.waiting]
    constructor
    · intro member
      obtain ⟨transfer, inside, same⟩ := Http.Sound.mem_ids.mp member
      exact ⟨transfer.callback, transfer, inside, same, rfl⟩
    · rintro ⟨callback, transfer, inside, same, -⟩
      exact Http.Sound.mem_ids.mpr ⟨transfer, inside, same⟩
  · rw [HttpCore.snapshot, Http.ids, List.length_map]
    exact inv.sound.bounded

theorem lawful_start (inv : HttpInv outstanding core) : HttpLawful (core.log ++ [.start]) :=
  inv.lawful.snoc ⟨by trivial, inv.prompt nofun nofun⟩

/-- A `Start` that throws uses up an id at most. -/
theorem refuse (inv : HttpInv outstanding core) {nextId : ℕ} (beyond : core.http.nextId ≤ nextId) :
    HttpInv outstanding
      { core with http := { core.http with nextId }, log := core.log ++ [.start] ++ [.refused] } := by
  have same : ∀ id, stage (core.log ++ [.start] ++ [.refused]) id = stage core.log id := by
    intro id
    rw [stage_snoc, stage_snoc]
    rfl
  refine ⟨inv.usable, ⟨inv.sound.nodup, inv.sound.handles_nodup, inv.sound.same, inv.sound.added, inv.sound.bounded,
    fun id member => Nat.lt_of_lt_of_le (inv.sound.fresh id member) beyond⟩,
    inv.lawful_start.snoc ⟨by trivial, ?_⟩, by simp, fun id callback => ?_, fun number id callback outcome => ?_, fun id above => ?_, fun number reports member => ?_, inv.nodup⟩
  · exact iff_of_true (by simp) (.inr rfl)
  · exact (iff_of_eq (congrArg (· = _) (same id))).trans (inv.waiting id callback)
  · exact (iff_of_eq (congrArg (· = _) (same id))).trans (inv.reported number id callback outcome)
  · exact (same id).trans (inv.unknown id (Nat.le_trans beyond above))
  · exact inv.numbers number reports (by simpa using member)

theorem start (inv : HttpInv outstanding core) (room : core.http.pending < Http.kMaxPending) (callback : Fn) :
    HttpInv outstanding
      { core with
        http :=
          { transfers := core.http.transfers ++ [{ id := core.http.nextId, callback, multi := true }]
            nextId := core.http.nextId + 1
            multi := core.http.nextId :: core.http.multi }
        log := core.log ++ [.start] ++ [.started core.http.nextId callback] } := by
  have unknown := inv.unknown core.http.nextId (Nat.le_refl _)
  have own : stage (core.log ++ [.start] ++ [.started core.http.nextId callback]) core.http.nextId =
      .waiting callback := by
    rw [stage_snoc]
    exact if_pos rfl
  have others : ∀ id, id ≠ core.http.nextId →
      stage (core.log ++ [.start] ++ [.started core.http.nextId callback]) id = stage core.log id := by
    intro id different
    rw [stage_snoc, stage_snoc]
    exact if_neg (Ne.symm different)
  refine ⟨inv.usable, inv.sound.start room callback, inv.lawful_start.snoc ⟨?_, ?_⟩, by simp, fun id other => ?_, fun number id other outcome => ?_, fun id above => ?_, fun number reports member => ?_,
    inv.nodup⟩
  · exact (stage_snoc ..).trans unknown
  · exact iff_of_true (by simp) (.inl ⟨_, _, rfl⟩)
  · by_cases same : id = core.http.nextId
    · subst same
      refine (iff_of_eq (congrArg (· = _) own)).trans ⟨fun waits => ?_, ?_⟩
      · cases waits
        exact ⟨_, List.mem_append_right _ (List.mem_singleton_self _), rfl, rfl⟩
      · rintro ⟨transfer, member, same, rfl⟩
        rcases List.mem_append.mp member with old | isNew
        · have below := inv.sound.fresh _ (Http.Sound.mem_ids.mpr ⟨transfer, old, rfl⟩)
          omega
        · rw [List.mem_singleton.mp isNew]
    · rw [others id same, inv.waiting]
      refine exists_congr fun transfer => and_congr_left fun facts => ?_
      have apart : transfer ≠ { id := core.http.nextId, callback, multi := true } := by
        rintro rfl
        exact same facts.1.symm
      simp [apart]
  · by_cases same : id = core.http.nextId
    · subst same
      rw [own, ← inv.reported, unknown]
      exact iff_of_false nofun nofun
    · rw [others id same]
      exact inv.reported number id other outcome
  · have different : id ≠ core.http.nextId := Nat.ne_of_gt (Nat.lt_of_succ_le above)
    rw [others id different]
    exact inv.unknown id (Nat.le_of_succ_le above)
  · exact inv.numbers number reports (by simpa using member)

theorem clear (inv : HttpInv outstanding core) (last : ∃ snapshot, core.log.getLast? = some (.seen snapshot)) :
    HttpInv outstanding { core with http := core.http.clear, log := core.log ++ [.clear] } := by
  refine ⟨inv.usable, inv.sound.clear, inv.lawful.snoc ⟨last, inv.prompt nofun nofun⟩, by simp,
    fun id callback => ?_, fun number id callback outcome => ?_, fun id beyond => ?_, fun number reports member => ?_,
    inv.nodup⟩
  · refine iff_of_false ?_ (by simp [Http.clear])
    rw [stage_snoc]
    cases stage core.log id <;> exact nofun
  · rw [← inv.reported, stage_snoc]
    cases stage core.log id <;> simp [Stage.next]
  · rw [stage_snoc, inv.unknown id beyond]
    rfl
  · exact inv.numbers number reports (by simpa using member)

/-- A `Pump` takes the finished transfers out of the map. -/
theorem collect (inv : HttpInv outstanding core) {reports : List (ℕ × Outcome)} {done : List Transfer} {http : Http}
    (collected : Collected reports core.http done http) :
    HttpInv (done.map (core.pumps, ·) ++ outstanding)
      { core with http, pumps := core.pumps + 1, log := core.log ++ [.pump core.pumps reports] } := by
  have waits : ∀ {transfer}, transfer ∈ core.http.transfers → stage core.log transfer.id = .waiting transfer.callback :=
    fun member => (inv.waiting _ _).mpr ⟨_, member, rfl, rfl⟩
  refine ⟨inv.usable, collected.sound, inv.lawful.snoc ⟨inv.numbers, inv.prompt nofun nofun⟩, by simp,
    fun id callback => ?_, fun number id callback outcome => ?_, fun id beyond => ?_, fun number other member => ?_, ?_⟩
  · simp only [stage_snoc, Stage.next_pump_waiting, inv.waiting, collected.left]
    constructor
    · rintro ⟨⟨transfer, member, rfl, rfl⟩, unreported⟩
      exact ⟨transfer, ⟨member, unreported⟩, rfl, rfl⟩
    · rintro ⟨transfer, ⟨member, unreported⟩, rfl, rfl⟩
      exact ⟨⟨transfer, member, rfl, rfl⟩, unreported⟩
  · rw [stage_snoc, Stage.next_pump_reported, inv.waiting, inv.reported]
    constructor
    · rintro (⟨rfl, ⟨old, member, rfl, rfl⟩, report⟩ | ⟨transfer, member, facts⟩)
      · have taken := (collected.taken _).mpr ⟨old, member, outcome, report, rfl⟩
        exact ⟨_, List.mem_append_left _ (List.mem_map_of_mem taken), rfl, rfl, rfl⟩
      · exact ⟨transfer, List.mem_append_right _ member, facts⟩
    · rintro ⟨transfer, member, rfl, rfl, rfl⟩
      rcases List.mem_append.mp member with isNew | old
      · obtain ⟨taken, inside, same⟩ := List.mem_map.mp isNew
        cases same
        obtain ⟨old, stored, outcome, report, rfl⟩ := (collected.taken _).mp inside
        exact .inl ⟨rfl, ⟨old, stored, rfl, rfl⟩, report⟩
      · exact .inr ⟨transfer, old, rfl, rfl, rfl⟩
  · rw [stage_snoc, inv.unknown id (collected.nextId ▸ beyond)]
    rfl
  · rcases List.mem_append.mp member with old | isNew
    · exact Nat.lt_succ_of_lt (inv.numbers number other old)
    · cases List.mem_singleton.mp isNew
      exact Nat.lt_succ_self _
  · rw [List.map_append, List.map_map]
    refine List.nodup_append.mpr ⟨collected.nodup, inv.nodup, fun id isNew other old same => ?_⟩
    subst same
    obtain ⟨taken, inside, rfl⟩ := List.mem_map.mp isNew
    obtain ⟨kept, member, outcome, report, rfl⟩ := (collected.taken _).mp inside
    obtain ⟨⟨number, transfer⟩, member', same⟩ := List.mem_map.mp old
    have reported := (inv.reported number kept.id _ _).mpr ⟨transfer, member', same, rfl, rfl⟩
    rw [waits member] at reported
    cases reported

/-- A callback is called: one finished transfer less. -/
theorem called {number : ℕ} {transfer : Transfer} (inv : HttpInv ((number, transfer) :: outstanding) core) :
    HttpInv outstanding
      (core.record (.called number transfer.id transfer.callback (Http.answer transfer.outcome))) := by
  have reported := (inv.reported number transfer.id _ _).mpr ⟨transfer, List.mem_cons_self .., rfl, rfl, rfl⟩
  obtain ⟨unique, nodup⟩ := List.nodup_cons.mp inv.nodup
  have others : ∀ {id}, id ≠ transfer.id → ∀ callback answer,
      stage (core.log ++ [.called number transfer.id callback answer]) id = stage core.log id := by
    intro id different callback answer
    rw [stage_snoc]
    exact if_neg (Ne.symm different)
  have own : ∀ callback answer,
      stage (core.log ++ [.called number transfer.id callback answer]) transfer.id = .called := by
    intro callback answer
    rw [stage_snoc]
    exact if_pos rfl
  refine ⟨inv.usable, inv.sound, inv.lawful.snoc ⟨⟨_, reported, rfl⟩, inv.prompt nofun nofun⟩, by simp [HttpCore.record],
    fun id callback => ?_, fun other id callback outcome => ?_, fun id beyond => ?_, fun number reports member => ?_,
    nodup⟩
  · rw [HttpCore.record, ← inv.waiting]
    by_cases same : id = transfer.id
    · subst same
      rw [own, reported]
      exact iff_of_false nofun nofun
    · rw [others same]
  · rw [HttpCore.record]
    by_cases same : id = transfer.id
    · subst same
      rw [own]
      refine iff_of_false nofun ?_
      rintro ⟨again, member, same, -⟩
      exact unique (List.mem_map.mpr ⟨_, member, same⟩)
    · rw [others same, inv.reported]
      refine exists_congr fun finished => and_congr_left fun facts => ?_
      have apart : (other, finished) ≠ (number, transfer) := by
        rintro ⟨⟩
        exact same facts.1.symm
      simp [apart]
  · have different : id ≠ transfer.id := by
      rintro rfl
      rw [inv.unknown _ beyond] at reported
      cases reported
    exact (others different ..).trans (inv.unknown id beyond)
  · exact inv.numbers number reports (by simpa [HttpCore.record] using member)

/-- What calls into Lua do to the invoker. -/
theorem congr_invoker (inv : HttpInv outstanding core) {invoker : Invoker} (usable : invoker.dead = false) :
    HttpInv outstanding { core with invoker } :=
  ⟨usable, inv.sound, inv.lawful, inv.idle, inv.waiting, inv.reported, inv.unknown, inv.numbers, inv.nodup⟩

theorem enter (inv : HttpInv outstanding core) : HttpInv outstanding (Invoker.enter core) :=
  inv.congr_invoker inv.usable

theorem leave (inv : HttpInv outstanding core) : HttpInv outstanding (Invoker.leave core) :=
  inv.congr_invoker inv.usable

theorem init : HttpInv [] {} := by
  refine ⟨rfl, ⟨List.nodup_nil, List.nodup_nil, fun id => Iff.rfl, nofun, Nat.zero_le _, nofun⟩, .nil, nofun,
    fun id callback => ?_, fun number id callback outcome => ?_, fun id _ => rfl, nofun, List.nodup_nil⟩
  · simp
  · simp

end HttpInv

/-! ## Runs -/

/-- A computation that returns with the invariant. -/
abbrev Returns {α : Type} (Q : HttpCore → Prop) (result : EStateM.Result Exn HttpCore α) : Prop :=
  Ends (fun _ => Q) (fun _ _ => False) result

section Runs

variable {outstanding : List (ℕ × Transfer)} {core : HttpCore} {inner : ℕ → EStateM Exn HttpCore CallbackEnd}

theorem returns_start (inv : HttpInv outstanding core) (callback : Fn) (fault : Option Fault) :
    Returns (HttpInv outstanding) (HttpCore.perform inner (.start callback fault) core) := by
  rw [HttpCore.perform, modify_bind]
  by_cases full : core.http.pending ≥ Http.kMaxPending
  · have ran : asBinding (Http.start callback fault) (core.record .start) = .ok none (core.record .start) := by
      rw [asBinding, Http.start, get_bind, if_pos (show (HasHttp.http (core.record .start)).pending ≥ _ from full)]
      rfl
    rw [bind_of_ok ran]
    exact inv.refuse (Nat.le_refl _)
  · have room : ¬ (HasHttp.http (core.record .start)).pending ≥ Http.kMaxPending := full
    cases fault with
    | none =>
      have ran : asBinding (Http.start callback none) (core.record .start) = .ok (some core.http.nextId)
          { core.record .start with
            http :=
              { transfers := core.http.transfers ++ [{ id := core.http.nextId, callback, multi := true }]
                nextId := core.http.nextId + 1
                multi := core.http.nextId :: core.http.multi } } := by
        rw [asBinding, Http.start, get_bind, if_neg room]
        rfl
      rw [bind_of_ok ran]
      exact inv.start (Nat.lt_of_not_le full) callback
    | some fault =>
      have ran : asBinding (Http.start callback (some fault)) (core.record .start) =
          .ok none (Http.update (fun http => { http with nextId := http.nextId + 1 }) (core.record .start)) := by
        rw [asBinding, Http.start, get_bind, if_neg room]
        cases fault with
        | emplace =>
          let http : Http := { core.http with nextId := core.http.nextId + 1 }
          change EStateM.Result.ok none
            { core.record .start with http := (http.addHandle core.http.nextId).removeHandle core.http.nextId } = _
          rw [Http.removeHandle_addHandle]
          rfl
        | _ => rfl
      rw [bind_of_ok ran]
      exact inv.refuse (Nat.le_succ _)

theorem returns_complete {number : ℕ} {transfer : Transfer}
    (inside : ∀ id outstanding core, HttpInv outstanding core → Returns (HttpInv outstanding) (inner id core))
    (inv : HttpInv ((number, transfer) :: outstanding) core) :
    Returns (HttpInv outstanding) (Http.complete (HttpCore.callback number inner) transfer core) := by
  have called := inside transfer.id outstanding _ inv.enter.called
  rw [Http.complete]
  refine Ends.bind (P := fun _ => HttpInv outstanding) ?_ fun _ _ inv' => inv'
  have pushed : (pure (Http.answer transfer.outcome) : EStateM Exn HttpCore Answer) (Invoker.enter core) =
      .ok _ (Invoker.enter core) := rfl
  rw [Invoker.call_eq _ inv.usable pushed, HttpCore.callback, modify_bind]
  cases ran : inner transfer.id (HttpCore.record (.called number transfer.id transfer.callback
      (Http.answer transfer.outcome)) (Invoker.enter core)) with
  | ok ending core' =>
    rw [bind_of_ok ran]
    rw [ran] at called
    cases ending with
    | returned => exact called.leave
    | raised => exact called.leave
  | error e core' =>
    rw [ran] at called
    exact called.elim

theorem returns_pump (reports : List (ℕ × Outcome))
    (inside : ∀ id outstanding core, HttpInv outstanding core → Returns (HttpInv outstanding) (inner id core))
    (inv : HttpInv outstanding core) :
    Returns (HttpInv outstanding) (HttpCore.perform inner (.pump reports) core) := by
  have earlier : ∀ number transfer, (number, transfer) ∈ outstanding → number < core.pumps := by
    intro number transfer member
    have story := inv.lawful.story transfer.id
    rw [(inv.reported number transfer.id _ _).mpr ⟨transfer, member, rfl, rfl, rfl⟩] at story
    obtain ⟨first, middle, last, reports, whole, -⟩ := story
    exact inv.numbers number reports (by simp [whole])
  rw [HttpCore.perform, get_bind, modify_bind, modify_bind]
  refine Ends.bind (P := fun _ => HttpInv outstanding) ?_ fun _ core' inv' => ?_
  · rw [Http.pump, get_bind]
    split_ifs with none
    · have empty : core.http.transfers = [] := List.isEmpty_iff.mp none
      have nothing : Collected reports core.http [] core.http :=
        ⟨inv.sound, rfl, by simp [empty], List.nodup_nil, by simp [empty]⟩
      exact inv.collect nothing
    · obtain ⟨done, http, ran, collected⟩ :=
        collect_spec reports (HttpCore.record (.pump core.pumps reports) { core with pumps := core.pumps + 1 }) inv.sound
      have start := inv.collect collected
      rw [bind_of_ok ran]
      split_ifs with none
      · rw [List.isEmpty_iff.mp none] at start
        exact start
      · rw [Invoker.scope, modify_bind]
        refine Ends.withCleanup (P := fun _ => HttpInv outstanding) (E := fun _ _ => False) ?_ (fun _ _ inv' => inv'.leave)
          fun _ _ fails => fails.elim
        exact ends_forEach (I := fun rest => HttpInv (rest.map (core.pumps, ·) ++ outstanding))
          (fun transfer rest core' inv' => returns_complete inside inv') done _ start.enter
  · refine inv'.record_neutral (by trivial) fun id callback outcome reported => ?_
    obtain ⟨transfer, member, -⟩ := (inv'.reported _ _ _ _).mp reported
    exact Nat.lt_irrefl _ (earlier _ _ member)

theorem returns_serve (op : HttpOp)
    (inside : ∀ id outstanding core, HttpInv outstanding core → Returns (HttpInv outstanding) (inner id core))
    (inv : HttpInv outstanding core) : Returns (HttpInv outstanding) (HttpCore.serve op inner core) := by
  have performed : Returns (HttpInv outstanding) (HttpCore.perform inner op core.look) := by
    cases op with
    | start callback fault => exact returns_start inv.look callback fault
    | pump reports => exact returns_pump reports inside inv.look
    | clear => exact inv.look.clear ⟨core.snapshot, by simp [HttpCore.look, HttpCore.record]⟩
    | pending => exact inv.look.record_neutral (by trivial) inv.sound.bounded
  exact performed.bind fun reply core' inv' => inv'.look

end Runs

/-- A callback that starts the next request, which a `Clear` then drops. -/
example : (match Script.run HttpCore.serve (.act (.start 7 none) (fun _ => .ret .returned) fun _ =>
      .act (.pump [(1, {})]) (fun _ => .act (.start 8 none) (fun _ => .ret .returned) fun _ => .ret .raised) fun _ =>
      .act .clear (fun _ => .ret .returned) fun _ => .ret .returned) {} with
    | .ok _ core => (calls core.log 1, calls core.log 2, core.http.pending)
    | .error .. => (0, 0, 0)) = (1, 0, 0) := by
  rfl

end VcmpLua.Model.Modules
