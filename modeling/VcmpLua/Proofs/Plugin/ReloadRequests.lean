import VcmpLua.Lib.History
import VcmpLua.Proofs.Plugin.EntityRules

/-! # Requests for a reload

`Server.reload` sets a flag of the runtime, and the end of a frame looks at it. Read off the trace, a
request is pending from the entry that makes it to the next one that serves it, however often it is
made in between. The flag says the same (`Tidy`), so a request is served at the first end of a frame
that can serve it and at no other moment. A reload that fails takes back the flag and nothing else.
-/

namespace VcmpLua.Model.Plugin

open Effect VcmpLua.Model.Core World

/-! ## What is recorded -/

/-- `Reload` runs: it replaces the runtime, or it keeps it. -/
def Entry.serves : Entry → Bool
  | .reloading _ _ | .reloadFailed => true
  | _ => false

/-- Whether a request is pending after the entry, from whether one was before it. -/
def Entry.pending (before : Bool) : Entry → Bool
  | .reloadRequested => true
  | .reloading _ _ | .reloadFailed => false
  | _ => before

/-- Whether a request was made and not served since. -/
def pending (entries : List Entry) : Bool := entries.foldl Entry.pending false

/-- A frame has just ended with no call active, a live runtime and no deferred shutdown, and there is
a request. -/
def Due (entries : List Entry) : Prop :=
  ∃ earlier serial, entries = earlier ++ [.frameEnded serial 0 true false] ∧ pending earlier = true

/-- The runtime served a request and was replaced. -/
def Replaced (serial : ℕ) (entries : List Entry) : Prop :=
  ∃ earlier depth deletions later,
    entries = earlier ++ .frameEnded (some serial) 0 true false :: .reloading depth deletions :: later

/-- Requests are served exactly where they are due, and a runtime that was replaced ends no frame. -/
def Served (before : List Entry) (entry : Entry) : Prop :=
  (entry.serves = true ↔ Due before) ∧
    ∀ serial depth live deferred, entry = .frameEnded (some serial) depth live deferred → ¬Replaced serial before

/-- The entries that neither make a request nor serve one, and do not end a frame. -/
def Entry.Neutral : Entry → Prop
  | .reloadRequested | .frameEnded .. | .reloading .. | .reloadFailed => False
  | _ => True

theorem Entry.Plain.neutral {entry : Entry} (plain : entry.Plain) : entry.Neutral := by
  cases entry <;> trivial

theorem Entry.Neutral.serves {entry : Entry} (neutral : entry.Neutral) : entry.serves = false := by
  cases entry <;> first | rfl | exact neutral.elim

theorem pending_snoc (entries : List Entry) (entry : Entry) :
    pending (entries ++ [entry]) = entry.pending (pending entries) := by
  simp [pending]

theorem Entry.Neutral.pending {entry : Entry} (neutral : entry.Neutral) (before : Bool) : entry.pending before = before := by
  cases entry <;> first | rfl | exact neutral.elim

theorem due_snoc {entries : List Entry} {entry : Entry} : Due (entries ++ [entry]) ↔
    (∃ serial, entry = .frameEnded serial 0 true false) ∧ pending entries = true := by
  constructor
  · rintro ⟨earlier, serial, same, waits⟩
    obtain ⟨rfl, last⟩ := List.append_inj' same rfl
    exact ⟨⟨serial, by simpa using last⟩, waits⟩
  · rintro ⟨⟨serial, rfl⟩, waits⟩
    exact ⟨entries, serial, rfl, waits⟩

theorem replaced_snoc {serial : ℕ} {entries : List Entry} {entry : Entry} (replaced : Replaced serial (entries ++ [entry])) :
    Replaced serial entries ∨ ((∃ depth deletions, entry = .reloading depth deletions) ∧
      ∃ earlier, entries = earlier ++ [.frameEnded (some serial) 0 true false]) := by
  obtain ⟨earlier, depth, deletions, later, same⟩ := replaced
  rcases List.eq_nil_or_concat later with rfl | ⟨rest, last, rfl⟩
  · have split : entries ++ [entry] = (earlier ++ [.frameEnded (some serial) 0 true false]) ++ [.reloading depth deletions] := by
      rw [same, List.append_assoc]
      rfl
    obtain ⟨front, back⟩ := List.append_inj' split rfl
    exact .inr ⟨⟨depth, deletions, List.singleton_inj.mp back⟩, earlier, front⟩
  · refine .inl ⟨earlier, depth, deletions, rest, ?_⟩
    rw [List.concat_eq_append, ← List.cons_append, ← List.cons_append, ← List.append_assoc] at same
    exact (List.append_inj' same rfl).1

/-! ## The flag -/

/-- The serial and the flag of the runtime. -/
def World.request (world : World) : Option (ℕ × Bool) :=
  world.runtime.map fun runtime => (runtime.serial, runtime.reloadRequested)

/-- The flag says whether a request is pending, and the trace obeys the law so far. -/
structure Tidy (world : World) : Prop where
  flag : ∀ serial requested, world.request = some (serial, requested) → requested = pending world.trace
  obeys : Obeys Served world.trace
  settled : ¬Due world.trace
  current : ∀ serial requested, world.request = some (serial, requested) → serial < world.nextSerial
  replaced : ∀ serial, Replaced serial world.trace →
    serial < world.nextSerial ∧ ∀ requested, world.request ≠ some (serial, requested)

theorem tidy_of_eq {world world' : World} (trace : world'.trace = world.trace) (request : world'.request = world.request)
    (next : world'.nextSerial = world.nextSerial) (tidy : Tidy world) : Tidy world' := by
  obtain ⟨flag, obeys, settled, current, replaced⟩ := tidy
  refine ⟨?_, ?_, ?_, ?_, ?_⟩
  · rwa [request, trace]
  · rwa [trace]
  · rwa [trace]
  · rwa [request, next]
  · rwa [request, next, trace]

/-- One more entry that neither ends a frame nor replaces the runtime. -/
theorem tidy_of_snoc {world world' : World} {entry : Entry} (trace : world'.trace = world.trace ++ [entry])
    (obeys : Obeys Served world'.trace) (goesOn : ∀ serial, entry ≠ .frameEnded serial 0 true false)
    (keeps : ∀ depth deletions, entry ≠ .reloading depth deletions) (next : world'.nextSerial = world.nextSerial)
    (request : ∀ serial requested, world'.request = some (serial, requested) →
      requested = pending world'.trace ∧ ∃ before, world.request = some (serial, before))
    (current : ∀ serial requested, world.request = some (serial, requested) → serial < world.nextSerial)
    (replaced : ∀ serial, Replaced serial world.trace →
      serial < world.nextSerial ∧ ∀ requested, world.request ≠ some (serial, requested)) : Tidy world' := by
  refine ⟨fun serial requested here => (request serial requested here).1, obeys, fun due => ?_,
    fun serial requested here => ?_, fun serial before => ?_⟩
  · rw [trace] at due
    obtain ⟨⟨serial, ended⟩, -⟩ := due_snoc.mp due
    exact goesOn serial ended
  · obtain ⟨-, flag, here⟩ := request serial requested here
    exact next ▸ current serial flag here
  · rw [trace] at before
    rcases replaced_snoc before with before | ⟨⟨depth, deletions, same⟩, -⟩
    · obtain ⟨earlier, other⟩ := replaced serial before
      refine ⟨next ▸ earlier, fun requested here => ?_⟩
      obtain ⟨-, flag, here⟩ := request serial requested here
      exact other flag here
    · exact absurd same (keeps depth deletions)

theorem Tidy.log {world : World} {entry : Entry} (neutral : entry.Neutral) (tidy : Tidy world) : Tidy (world.log entry) := by
  have goesOn : ∀ serial depth live deferred, entry ≠ .frameEnded serial depth live deferred := by
    rintro serial depth live deferred rfl
    exact neutral.elim
  have trace : (world.log entry).trace = world.trace ++ [entry] := rfl
  refine tidy_of_snoc trace (tidy.obeys.snoc ⟨?_, fun serial depth live deferred same => absurd same (goesOn _ _ _ _)⟩)
    (fun serial => goesOn _ _ _ _) ?_ (by rfl) (fun serial requested here => ⟨?_, requested, here⟩) tidy.current tidy.replaced
  · rw [neutral.serves]
    exact ⟨nofun, fun due => absurd due tidy.settled⟩
  · rintro depth deletions rfl
    exact neutral.elim
  · rw [trace, pending_snoc, neutral.pending]
    exact tidy.flag serial requested here

/-- The end of a frame obeys the law, and a reload is due after it if and only if the code starts one. -/
theorem Tidy.endFrame {world : World} (tidy : Tidy world) :
    Obeys Served world.endFrame.trace ∧ (Due world.endFrame.trace ↔ world.reloads = true) := by
  refine ⟨tidy.obeys.snoc ⟨⟨nofun, fun due => absurd due tidy.settled⟩, ?_⟩, ?_⟩
  · intro serial depth live deferred same before
    simp only [Entry.frameEnded.injEq, Option.map_eq_some_iff] at same
    obtain ⟨⟨runtime, installed, rfl⟩, -⟩ := same
    exact (tidy.replaced _ before).2 runtime.reloadRequested (by rw [World.request, installed]; rfl)
  · rw [World.endFrame, World.log, due_snoc]
    cases installed : world.runtime with
    | none => simp [World.reloads, World.live, installed]
    | some runtime =>
      have flag := tidy.flag runtime.serial runtime.reloadRequested (by rw [World.request, installed]; rfl)
      cases lives : runtime.dead <;>
        simp [World.reloads, World.live, World.depth, Runtime.inLuaCall, installed, Option.filter_some, lives, ← flag]
      tauto

/-! ## What every step keeps -/

/-- The trace grows and stays tidy; without a runtime nothing requests or serves a reload. -/
structure Reloaded (world world' : World) : Prop where
  depth : world'.depth = world.depth
  trace : world.trace <+: world'.trace
  gone : world.runtime = none → world'.runtime = none ∧ pending world'.trace = pending world.trace
  tidy : Tidy world → Tidy world'

instance : IsPreorder World Reloaded where
  refl world := ⟨rfl, List.prefix_refl _, fun gone => ⟨gone, rfl⟩, fun tidy => tidy⟩
  trans first second third one two := by
    refine ⟨two.depth.trans one.depth, one.trace.trans two.trace, fun gone => ?_, fun tidy => two.tidy (one.tidy tidy)⟩
    obtain ⟨gone', same⟩ := one.gone gone
    obtain ⟨gone'', same'⟩ := two.gone gone'
    exact ⟨gone'', same'.trans same⟩

theorem reloaded_log (world : World) {entry : Entry} (neutral : entry.Neutral) : Reloaded world (world.log entry) := by
  refine ⟨rfl, ⟨[entry], rfl⟩, fun gone => ⟨gone, ?_⟩, Tidy.log neutral⟩
  rw [World.log, pending_snoc, neutral.pending]

theorem reloaded_of_eq {world world' : World} (runtime : world'.runtime = world.runtime) (trace : world'.trace = world.trace)
    (next : world'.nextSerial = world.nextSerial) : Reloaded world world' := by
  refine ⟨?_, ?_, fun gone => ⟨runtime.trans gone, by rw [trace]⟩, tidy_of_eq trace ?_ next⟩
  · rw [World.depth, runtime, World.depth]
  · rw [trace]
  · rw [World.request, runtime, World.request]

theorem request_updateRuntime {f : Runtime → Runtime} (serial : ∀ runtime, (f runtime).serial = runtime.serial)
    (flag : ∀ runtime, (f runtime).reloadRequested = runtime.reloadRequested) (world : World) :
    (world.updateRuntime f).request = world.request := by
  cases installed : world.runtime <;> simp [World.request, updateRuntime, installed, serial, flag]

theorem reloaded_updateRuntime {f : Runtime → Runtime} (serial : ∀ runtime, (f runtime).serial = runtime.serial)
    (flag : ∀ runtime, (f runtime).reloadRequested = runtime.reloadRequested)
    (depth : ∀ runtime, (f runtime).invoker.depth = runtime.invoker.depth) (world : World) :
    Reloaded world (world.updateRuntime f) := by
  refine ⟨depth_updateRuntime depth world, List.prefix_refl _, fun gone => ⟨?_, rfl⟩, ?_⟩
  · simp [updateRuntime, gone]
  · exact tidy_of_eq rfl (request_updateRuntime serial flag world) rfl

theorem reloaded_scope {world world' : World} (inside : Reloaded (Invoker.enter world) world') :
    Reloaded world (Invoker.leave world') := by
  have request : ∀ (world : World) (invoker : Invoker), (HasInvoker.setInvoker invoker world : World).request = world.request :=
    fun world invoker => request_updateRuntime (by exact fun _ => rfl) (by exact fun _ => rfl) world
  refine ⟨?_, inside.trace, fun gone => ?_, fun tidy => ?_⟩
  · rw [depth_leave, inside.depth, depth_enter_sub_one]
  · obtain ⟨gone', same⟩ := inside.gone (by simp [Invoker.enter, HasInvoker.setInvoker, updateRuntime, gone])
    exact ⟨by simp [Invoker.leave, HasInvoker.setInvoker, updateRuntime, gone'], same⟩
  · have entered : Tidy (Invoker.enter world) := tidy_of_eq (by rfl) (request world _) (by rfl) tidy
    exact tidy_of_eq (by rfl) (request world' _) (by rfl) (inside.tidy entered)

theorem reloaded_updatePool (kind : EntityKind) (f : EntityPool → EntityPool)
    (sameKind : ∀ pool, (f pool).kind = pool.kind) (world : World) :
    Reloaded world (world.updateRuntime fun runtime => runtime.updatePool kind f sameKind) :=
  reloaded_updateRuntime (by exact fun _ => rfl) (by exact fun _ => rfl) (by exact fun _ => rfl) world

theorem reloaded_adopt (world : World) (kind : EntityKind) (id : Int) : Reloaded world (world.adopt kind id) :=
  trans_of Reloaded (reloaded_log world (by trivial)) (reloaded_updatePool kind _ _ _)

theorem reloaded_release (world : World) (kind : EntityKind) (id : Int) : Reloaded world (world.release kind id) :=
  trans_of Reloaded (reloaded_log world (by trivial)) (reloaded_updatePool kind _ _ _)

theorem reloaded_entityRules : EntityRules Reloaded where
  bus world bus := reloaded_updateRuntime (by exact fun _ => rfl) (by exact fun _ => rfl) (by exact fun _ => rfl) world
  dead world := reloaded_updateRuntime (by exact fun _ => rfl) (by exact fun _ => rfl) (by exact fun _ => rfl) world
  scope _ _ := reloaded_scope
  handle world kind id generation := reloaded_updatePool kind _ _ world
  called world event refs fn args := reloaded_log world (by trivial)
  inCall world world' related inCall := related.depth.symm ▸ inCall
  plain world entry plain := reloaded_log world plain.neutral
  adopt := reloaded_adopt
  enumerate := enumerate_of_rules reloaded_adopt fun world =>
    reloaded_updateRuntime (by exact fun _ => rfl) (by exact fun _ => rfl) (by exact fun _ => rfl) world
  reporting world players := reloaded_of_eq (by rfl) (by rfl) (by rfl)
  deferred world deferred := reloaded_of_eq (by rfl) (by rfl) (by rfl)
  player world id owner := reloaded_of_eq (by rfl) (by rfl) (by rfl)
  entity world kind id owner _ := reloaded_of_eq (by rfl) (by rfl) (by rfl)
  deletions world deletions := reloaded_of_eq (by rfl) (by rfl) (by rfl)
  release world kind id _ := reloaded_release world kind id
  mark world serial kind id _ :=
    trans_of Reloaded (reloaded_log world (by trivial)) (reloaded_updatePool kind _ _ _)
  passed world serial kind id owner := reloaded_log world (by trivial)
  swept world serial left := reloaded_log world (by trivial)
  sweeping world sweeping := reloaded_of_eq (by rfl) (by rfl) (by rfl)

/-! ## Requests and frames -/

theorem reloaded_remove (world : World) (idle : world.depth = 0) : Reloaded world { world with runtime := none } := by
  refine ⟨idle.symm, List.prefix_refl _, fun _ => ⟨rfl, rfl⟩, fun tidy => ?_⟩
  exact ⟨nofun, tidy.obeys, tidy.settled, nofun, fun serial before => ⟨(tidy.replaced serial before).1, nofun⟩⟩

theorem request_of_flag {value : Bool} {world : World} {serial : ℕ} {requested : Bool}
    (here : (world.updateRuntime fun runtime => { runtime with reloadRequested := value }).request = some (serial, requested)) :
    requested = value ∧ ∃ before, world.request = some (serial, before) := by
  cases installed : world.runtime with
  | none => simp [World.request, updateRuntime, installed] at here
  | some runtime =>
    simp only [World.request, updateRuntime, installed, Option.map_some, Option.some.injEq, Prod.mk.injEq] at here ⊢
    exact ⟨here.2.symm, runtime.reloadRequested, here.1, rfl⟩

theorem reloaded_requestReload (world : World) (inCall : 0 < world.depth) : Reloaded world world.requestReload := by
  refine ⟨depth_updateRuntime (by exact fun _ => rfl) _, ⟨[_], rfl⟩, fun gone => ?_, fun tidy => ?_⟩
  · simp [World.depth, gone] at inCall
  · have trace : world.requestReload.trace = world.trace ++ [.reloadRequested] := rfl
    refine tidy_of_snoc trace (tidy.obeys.snoc ⟨⟨fun serves => absurd serves Bool.false_ne_true, fun due => absurd due tidy.settled⟩,
      fun _ _ _ _ same => by cases same⟩) (fun _ same => by cases same) (fun _ _ same => by cases same) rfl
      (fun serial requested here => ?_) tidy.current tidy.replaced
    obtain ⟨value, before⟩ := request_of_flag here
    rw [trace, pending_snoc]
    exact ⟨value, before⟩

theorem Tidy.endFrame_replaced {world : World} (tidy : Tidy world) {serial : ℕ} (before : Replaced serial world.endFrame.trace) :
    serial < world.nextSerial ∧ ∀ requested, world.request ≠ some (serial, requested) := by
  rcases replaced_snoc before with before | ⟨⟨depth, deletions, same⟩, -⟩
  · exact tidy.replaced serial before
  · cases same

theorem trace_endFrame (world : World) : world.trace <+: world.endFrame.trace := ⟨[_], rfl⟩

theorem reloaded_endFrame (world : World) (reloads : world.reloads = false) : Reloaded world world.endFrame := by
  have waits : pending world.endFrame.trace = pending world.trace := by
    rw [World.endFrame, World.log, pending_snoc]
    rfl
  refine ⟨rfl, ⟨[_], rfl⟩, fun gone => ⟨gone, waits⟩, fun tidy => ?_⟩
  obtain ⟨obeys, due⟩ := tidy.endFrame
  refine ⟨fun serial requested here => ?_, obeys, fun isDue => ?_, tidy.current, fun serial => tidy.endFrame_replaced⟩
  · rw [waits]
    exact tidy.flag serial requested here
  · rw [due, reloads] at isDue
    cases isDue

theorem reloaded_cancelReload (world : World) (reloads : world.reloads = true) :
    Reloaded world world.endFrame.cancelReload := by
  refine ⟨depth_updateRuntime (by exact fun _ => rfl) _, (trace_endFrame world).trans ⟨[_], rfl⟩, fun gone => ?_,
    fun tidy => ?_⟩
  · obtain ⟨runtime, installed, -⟩ := reloads_spec reloads
    rw [gone] at installed
    cases installed
  · obtain ⟨obeys, due⟩ := tidy.endFrame
    have trace : world.endFrame.cancelReload.trace = world.endFrame.trace ++ [.reloadFailed] := rfl
    refine tidy_of_snoc trace (obeys.snoc ⟨⟨fun _ => due.mpr reloads, fun _ => rfl⟩, nofun⟩) nofun nofun rfl
      (fun serial requested here => ?_) tidy.current fun serial => tidy.endFrame_replaced
    obtain ⟨value, before⟩ := request_of_flag here
    rw [trace, pending_snoc]
    exact ⟨value, before⟩

/-- The trace with which the runtime is taken away. -/
theorem trace_taken (config : Config) (world : World) :
    (world.taken config).trace = world.endFrame.trace ++ [.reloading 0 world.server.deletions] := rfl

theorem Tidy.taken {world : World} (tidy : Tidy world) (reloads : world.reloads = true) (config : Config) :
    Tidy (world.taken config) := by
  obtain ⟨obeys, due⟩ := tidy.endFrame
  refine ⟨nofun, obeys.snoc ⟨⟨fun _ => due.mpr reloads, fun _ => rfl⟩, nofun⟩, fun isDue => ?_, nofun,
    fun serial before => ⟨?_, nofun⟩⟩
  · rw [trace_taken] at isDue
    obtain ⟨⟨serial, ended⟩, -⟩ := due_snoc.mp isDue
    cases ended
  · rw [trace_taken] at before
    rcases replaced_snoc before with before | ⟨-, earlier, ended⟩
    · exact (tidy.endFrame_replaced before).1
    · have last := (List.append_inj' (show world.trace ++ [_] = _ from ended) rfl).2
      simp only [List.cons.injEq, Entry.frameEnded.injEq, Option.map_eq_some_iff] at last
      obtain ⟨⟨⟨runtime, installed, rfl⟩, -⟩, -⟩ := last
      exact tidy.current _ runtime.reloadRequested (by rw [World.request, installed]; rfl)

theorem Tidy.install {world : World} (tidy : Tidy world) (served : pending world.trace = false) (scripts : ℕ) :
    Tidy (world.install scripts) := by
  have trace : (world.install scripts).trace = world.trace ++ [.installed world.nextSerial] := rfl
  have neutral : (Entry.installed world.nextSerial).Neutral := by trivial
  have logged := tidy.log neutral
  refine ⟨?_, logged.obeys, logged.settled, ?_, fun serial before => ?_⟩
  · rintro serial requested ⟨⟩
    rw [trace, pending_snoc, neutral.pending, served]
  · rintro serial requested ⟨⟩
    exact Nat.lt_succ_self _
  · have earlier := (logged.replaced serial before).1
    refine ⟨Nat.lt_succ_of_lt earlier, ?_⟩
    rintro requested ⟨⟩
    exact Nat.lt_irrefl _ earlier

section Requests

variable {inner : Inner} (innerKeeps : ∀ site, Keeps Reloaded (inner site))

include innerKeeps

theorem reloaded_finishShutdown (world : World) (idle : world.depth = 0) :
    Reloaded world (after (finishShutdown inner) world) :=
  finishShutdown_of_remove reloaded_entityRules.toRequestRules innerKeeps (fun _ _ related => related.depth)
    (fun world id => reloaded_release world .player id) reloaded_remove world idle

theorem reloaded_replace (config : Config) (world : World) (old : Runtime) (reloads : world.reloads = true) :
    Reloaded world (((after (old.shutdown (deleteCreated inner)) (world.taken config)).log (.deleted 0)).install
      config.scripts) := by
  have deleted := deleted_of_rules reloaded_entityRules innerKeeps (keeps_afterCallback (reloaded_finishShutdown innerKeeps))
    old (world.taken config)
  obtain ⟨runtime, installed, -, idle⟩ := reloads_spec reloads
  refine ⟨idle.symm, ?_, fun gone => ?_, fun tidy => ?_⟩
  · have taken : world.trace <+: (world.taken config).trace := (trace_endFrame world).trans ⟨[_], rfl⟩
    exact taken.trans (deleted.trace.trans ⟨[_], rfl⟩)
  · rw [gone] at installed
    cases installed
  · refine (deleted.tidy (tidy.taken reloads config)).install ?_ config.scripts
    rw [(deleted.gone rfl).2, trace_taken, pending_snoc]
    rfl

theorem reloaded_serveRules : ServeRules Reloaded inner := by
  have finish := reloaded_finishShutdown innerKeeps
  refine reloaded_entityRules.serveRules innerKeeps finish (fun id => ?_) reloaded_requestReload reloaded_endFrame
    reloaded_cancelReload (fun config world old reloads _ => reloaded_replace innerKeeps config world old reloads) ?_
  · exact keeps_onPlayerDisconnect reloaded_entityRules.toRequestRules innerKeeps (keeps_afterCallback finish)
      (fun world id => reloaded_release world .player id) id
  · exact fun world timers transfers =>
      reloaded_updateRuntime (by exact fun _ => rfl) (by exact fun _ => rfl) (by exact fun _ => rfl) world

end Requests

theorem reloaded_perform (behaviour : Behaviour) : Keeps Reloaded (perform behaviour) :=
  Script.keeps_run (fun op _ innerKeeps => keeps_serve (reloaded_serveRules innerKeeps) innerKeeps op) behaviour

theorem tidy_start (existing : EntityKind → Int → Bool) (scripts : ℕ) : Tidy (World.start existing scripts) := by
  refine ⟨?_, .nil, ?_, ?_, ?_⟩
  · rintro serial requested ⟨⟩
    rfl
  · rintro ⟨earlier, serial, same, -⟩
    simp [World.start] at same
  · rintro serial requested ⟨⟩
    exact Nat.one_pos
  · rintro serial ⟨earlier, depth, deletions, later, same⟩
    simp [World.start] at same

/-! ## Runs -/

/-- `OnServerFrame`, up to where it looks for a request. -/
def frameBody (timers transfers : ℕ) (inner : Inner) : EStateM Empty World Unit := do
  guarded .onServerFrame do
    if (← get).live.isSome then
      frame timers transfers inner
  afterCallback inner

theorem onServerFrame_eq (timers transfers : ℕ) (restart : Restart) (inner : Inner) (world : World) :
    after (onServerFrame timers transfers restart inner) world = after (afterCallback inner)
      (after (guarded .reload (do modify World.endFrame; if (← get).reloads then reload restart inner))
        (after (frameBody timers transfers inner) world)) := by
  rw [← after_seq, ← after_seq, frameBody, bind_assoc]
  rfl

/-- A reload that fails takes back the request. -/
theorem onServerFrame_of_failure {timers transfers : ℕ} {restart : Restart} {inner : Inner} {world : World}
    (reloads : (after (frameBody timers transfers inner) world).reloads = true) (fails : ∀ config, restart ≠ .starts config) :
    after (onServerFrame timers transfers restart inner) world =
      (after (frameBody timers transfers inner) world).endFrame.cancelReload := by
  let ended := after (frameBody timers transfers inner) world
  obtain ⟨e, failed⟩ := (startRuntime_cases restart).resolve_left fun ⟨config, same⟩ => fails config same
  have kept : after (guarded .reload (do modify World.endFrame; if (← get).reloads then reload restart inner)) ended =
      ended.endFrame.cancelReload := by
    refine guarded_of_ok _ ?_
    have same : ended.endFrame.reloads = true := reloads
    rw [modify_bind, get_bind, if_pos same]
    exact reload_of_error (failed _)
  have undeferred : ended.shutdownDeferred = false := by
    have parts := reloads
    simp only [World.reloads, Bool.and_eq_true, Bool.not_eq_true'] at parts
    exact parts.2
  rw [onServerFrame_eq, kept]
  exact afterCallback_of_not_due (by rw [World.due, show ended.endFrame.cancelReload.shutdownDeferred = false from undeferred]; rfl)

/-- Otherwise the runtime is replaced. -/
theorem onServerFrame_of_start {timers transfers : ℕ} {config : Config} {inner : Inner} {world : World}
    (innerKeeps : ∀ site, Keeps Reloaded (inner site))
    (reloads : (after (frameBody timers transfers inner) world).reloads = true) :
    ((after (frameBody timers transfers inner) world).taken config).trace <+:
      (after (onServerFrame timers transfers (.starts config) inner) world).trace := by
  let ended := after (frameBody timers transfers inner) world
  have rules := reloaded_serveRules innerKeeps
  obtain ⟨old, present, -, idle⟩ := reloads_spec reloads
  have deleted := deleted_of_rules reloaded_entityRules innerKeeps (keeps_afterCallback rules.finishShutdown)
    old (ended.taken config)
  let installed := ((after (old.shutdown (deleteCreated inner)) (ended.taken config)).log (.deleted 0)).install config.scripts
  have installs : (ended.taken config).trace <+: installed.trace := deleted.trace.trans ⟨[_], rfl⟩
  have loads : Reloaded installed (after (loadScripts inner) installed) :=
    keeps_loadScripts_of_rules rules.toRequestRules innerKeeps installed
  have body := @after_endFrame_of_reloads inner (.starts config) ended reloads
  rw [reload_eq config present idle] at body
  rw [onServerFrame_eq]
  refine List.IsPrefix.trans ?_ (keeps_afterCallback rules.finishShutdown _).trace
  rcases after_guarded .reload (do modify World.endFrame; if (← get).reloads then reload (.starts config) inner) ended with
    returned | threw
  · rw [returned, body]
    exact installs.trans loads.trace
  · rw [threw, body]
    exact installs.trans (loads.trace.trans ⟨[_], rfl⟩)

/-- A request is served at the first end of a frame that can serve it, once, and at no other moment. The
runtime that served it is replaced, or no new one could be started and only the request is gone. -/
theorem reload_requests_served (existing : EntityKind → Int → Bool) (scripts : ℕ) (behaviour : Behaviour) :
    let final := after (perform behaviour) (World.start existing scripts)
    (∀ before entry later, final.trace = before ++ entry :: later → (entry.serves = true ↔ Due before)) ∧
      ¬Due final.trace ∧
      (∀ runtime, final.runtime = some runtime →
        runtime.reloadRequested = pending final.trace ∧ ¬Replaced runtime.serial final.trace) ∧
      (∀ before serial depth live deferred later,
        final.trace = before ++ .frameEnded (some serial) depth live deferred :: later → ¬Replaced serial before) ∧
      ∀ (world : World) (timers transfers : ℕ) (restart : Restart) (code : Site → Behaviour),
        let inner := fun site => perform (code site)
        let ended := after (frameBody timers transfers inner) world
        ended.reloads = true →
          (∀ config, restart = .starts config → ∃ later, (after (onServerFrame timers transfers restart inner) world).trace =
            ended.endFrame.trace ++ .reloading 0 ended.server.deletions :: later) ∧
          ((∀ config, restart ≠ .starts config) → after (onServerFrame timers transfers restart inner) world =
            { ended with
              runtime := ended.runtime.map fun runtime => { runtime with reloadRequested := false }
              trace := ended.endFrame.trace ++ [.reloadFailed] }) := by
  intro final
  have tidy : Tidy final := (reloaded_perform behaviour _).tidy (tidy_start existing scripts)
  refine ⟨fun before entry later split => (tidy.obeys.event split).2.1, tidy.settled, fun runtime installed => ?_,
    fun before serial depth live deferred later split => (tidy.obeys.event split).2.2 _ _ _ _ rfl, ?_⟩
  · have request : final.request = some (runtime.serial, runtime.reloadRequested) := by rw [World.request, installed]; rfl
    exact ⟨tidy.flag _ _ request, fun replaced => (tidy.replaced _ replaced).2 _ request⟩
  · intro world timers transfers restart code inner ended reloads
    refine ⟨?_, fun fails => onServerFrame_of_failure reloads fails⟩
    rintro config rfl
    obtain ⟨later, trace⟩ := @onServerFrame_of_start timers transfers config inner world
      (fun site => reloaded_perform (code site)) reloads
    refine ⟨later, trace.symm.trans ?_⟩
    rw [trace_taken, List.append_assoc]
    rfl

end VcmpLua.Model.Plugin
