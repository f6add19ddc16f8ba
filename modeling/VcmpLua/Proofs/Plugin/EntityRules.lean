import VcmpLua.Proofs.Plugin.RequestRules

/-! # Relations that do not look at entities

Creations, deletions and key binds matter to many relations only through the callbacks and the Lua
code that run inside of them. A relation that ignores what the server and the pools have of every
kind but players gets the rules of all these requests from `EntityRules`.
-/

namespace VcmpLua.Model.Plugin

open Effect VcmpLua.Model.Core World

structure EntityRules (R : World → World → Prop) : Prop extends RequestRules R where
  entity : ∀ world kind id owner, kind ≠ .player → R world (world.setEntity kind id owner)
  deletions : ∀ (world : World) deletions, R world { world with server := { world.server with deletions } }
  release : ∀ world kind id, kind ≠ .player → R world (world.release kind id)
  mark : ∀ world serial kind id, kind ≠ .player → R world (world.markCreatedByUs serial kind id)
  passed : ∀ world serial kind id owner, R world (world.log (.passed serial kind id owner))
  swept : ∀ world serial left, R world (world.log (.swept serial left))
  sweeping : ∀ (world : World) sweeping, R world { world with sweeping }

theorem player_of_serverPools {kind : EntityKind} (known : kind ∈ serverPools) : kind ≠ .player := by
  rintro rfl
  revert known
  decide

variable {R : World → World → Prop} [IsPreorder World R] {inner : Inner}

section Parts

variable (rules : EntityRules R)

include rules

theorem beginDeletion_of_rules {kind : EntityKind} (notPlayer : kind ≠ .player) (id : Int) (world : World) :
    R world (beginDeletion kind id world) := by
  have begins : R world { world with server := { world.server with deletions := (kind, id) :: world.server.deletions } } :=
    rules.deletions world _
  unfold beginDeletion
  split_ifs
  · exact trans_of R begins (rules.entity _ kind id none notPlayer)
  · exact begins

theorem endDeletion_of_rules {kind : EntityKind} (notPlayer : kind ≠ .player) (id : Int) (world : World) :
    R world (endDeletion kind id world) := by
  have returns : R world { world with server := { world.server with deletions := world.server.deletions.erase (kind, id) } } :=
    rules.deletions world _
  unfold endDeletion
  split_ifs
  · exact returns
  · exact trans_of R returns (rules.entity _ kind id none notPlayer)

theorem keeps_created (runtime : Runtime) {kind : EntityKind} (notPlayer : kind ≠ .player) (result : Option Int) :
    Keeps R (created runtime kind result) := by
  cases result with
  | none => exact keeps_throw _
  | some id =>
    refine (keeps_modify fun world => rules.adopt world kind id).bind fun _ => ?_
    exact (keeps_modify fun world => rules.mark world _ kind id notPlayer).bind fun _ => keeps_pure _

theorem keeps_removeBind (id : Int) : Keeps R (removeBind id) := by
  refine (keeps_modify fun world => rules.entity world .bind id none nofun).bind fun _ => ?_
  exact (keeps_modify fun world => rules.release world .bind id nofun).bind fun _ => keeps_pure _

theorem keeps_checkLive (kind : EntityKind) (id : Int) (generation : Generation) :
    Keeps R (checkLive kind id generation) := by
  refine (keeps_requireEntity kind id generation).bind fun _ => ?_
  split_ifs
  · refine keeps_get.bind fun world => ?_
    split_ifs
    · exact (keeps_modify fun world => rules.release world .bind id nofun).bind fun _ => keeps_throw _
    · exact keeps_pure _
  · exact keeps_pure _

theorem keeps_createBind (slot : Int) (keys : Int × Int × Int) : Keeps R (createBind slot keys) := by
  refine keeps_requireRuntime.bind fun runtime => keeps_get.bind fun world => ?_
  split_ifs
  · exact keeps_throw _
  · refine (keeps_modify fun world => rules.entity world .bind slot _ nofun).bind fun _ => ?_
    exact keeps_created rules runtime (by exact nofun) _

theorem keeps_clearAllBinds : Keeps R clearAllBinds := by
  refine keeps_requireRuntime.bind fun runtime => (keeps_forEach fun id _ => ?_).bind fun _ => keeps_pure _
  refine (keeps_modify fun world => rules.passed world _ _ _ _).bind fun _ => ?_
  exact (keeps_removeBind rules id).bind fun _ => keeps_pure _

end Parts

section Requests

variable (rules : EntityRules R) (innerKeeps : ∀ site, Keeps R (inner site)) (ends : Keeps R (afterCallback inner))

include rules innerKeeps ends

theorem keeps_createEntity {kind : EntityKind} (notPlayer : kind ≠ .player) (id : Int) (owner : Owner) :
    Keeps R (createEntity kind id owner inner) := by
  intro world
  rcases createEntity_path rules.toRequestRules innerKeeps ends kind id owner world with
    refused | ⟨ready, final, -, -, result, started, told⟩
  · rw [after_of_ok refused]
    exact refl_of R world
  · rw [after_of_ok result]
    have begun := trans_of R (rules.entity world kind id (some owner) notPlayer) started
    rcases told with ⟨-, told⟩ | told
    · exact trans_of R begun told
    · exact trans_of R begun (trans_of R (rules.adopt ready kind id) told)

theorem keeps_deleteEntity {kind : EntityKind} (notPlayer : kind ≠ .player) (id : Int)
    {before after' : EStateM Empty World Ending} (beforeKeeps : Keeps R before) (afterKeeps : Keeps R after') :
    Keeps R (deleteEntity kind id before after' inner) := by
  intro world
  rcases deleteEntity_path rules.toRequestRules innerKeeps ends kind id beforeKeeps afterKeeps world with
    refused | ⟨told, last, -, -, result, started, ending⟩
  · rw [after_of_ok refused]
    exact refl_of R world
  · rw [after_of_ok result]
    have begun := trans_of R (beginDeletion_of_rules rules notPlayer id world) started
    refine trans_of R (trans_of R begun ?_) (endDeletion_of_rules rules notPlayer id last)
    rcases ending with ⟨-, heard⟩ | heard | heard
    · exact heard
    · exact trans_of R (rules.release told kind id notPlayer) heard
    · exact trans_of R (rules.plain told _ (by trivial)) heard

theorem keeps_create {kind : EntityKind} (known : kind ∈ serverPools) (id : Int) : Keeps R (create kind id inner) := by
  refine keeps_requireRuntime.bind fun runtime => ?_
  refine (keeps_createEntity rules innerKeeps ends (player_of_serverPools known) id _).safely.bind fun result => ?_
  exact keeps_created rules runtime (player_of_serverPools known) result

theorem keeps_destroy {kind : EntityKind} (notPlayer : kind ≠ .player) (id : Int) (generation : Generation) :
    Keeps R (destroy kind id generation inner) := by
  refine (keeps_checkLive rules kind id generation).bind fun _ => ?_
  refine (keeps_deleteEntity rules innerKeeps ends notPlayer id (innerKeeps _) (innerKeeps _)).safely.bind fun deleted => ?_
  split_ifs
  · exact keeps_throw _
  · exact (keeps_modify fun world => rules.release world kind id notPlayer).bind fun _ => keeps_pure _

theorem keeps_destroyBlip (id : Int) : Keeps R (destroyBlip id inner) := by
  refine keeps_requireRuntime.bind fun _ => ?_
  refine (keeps_deleteEntity rules innerKeeps ends (by exact nofun) id (innerKeeps _) (innerKeeps _)).safely.bind fun deleted => ?_
  exact (keeps_modify fun world => rules.release world .blip id nofun).bind fun _ => keeps_pure _

theorem keeps_deleteCreated (runtime : Runtime) : Keeps R (deleteCreated inner runtime) := by
  refine (keeps_modify fun world => rules.sweeping world _).bind fun _ => ?_
  refine (keeps_forEach fun entity listed => ?_).bind fun _ => (keeps_forEach fun id _ => ?_).bind fun _ => ?_
  · obtain ⟨kind, known, member⟩ := List.mem_flatMap.mp listed
    obtain ⟨id, -, rfl⟩ := List.mem_map.mp member
    refine (keeps_modify fun world => rules.passed world _ _ _ _).bind fun _ => ?_
    exact (keeps_deleteEntity rules innerKeeps ends (player_of_serverPools known) id (innerKeeps _) (innerKeeps _)).bind
      fun _ => keeps_pure _
  · exact keeps_modify fun world => trans_of R (rules.passed world _ _ _ _) (rules.entity _ .bind id none nofun)
  · exact keeps_modify fun world => trans_of R (rules.swept world _ _) (rules.sweeping _ none)

/-- The old runtime's last steps, and its deletion. -/
theorem deleted_of_rules (old : Runtime) (world : World) :
    R world ((after (old.shutdown (deleteCreated inner)) world).log (.deleted 0)) :=
  trans_of R (keeps_shutdown rules.plain (keeps_deleteCreated rules innerKeeps ends) old world) (rules.plain _ _ (by trivial))

omit ends in
/-- What is left to show about the requests: how a runtime ends and is replaced. -/
theorem EntityRules.serveRules (finishShutdown : ∀ world, world.depth = 0 → R world (after (finishShutdown inner) world))
    (disconnect : ∀ id, Keeps R (onPlayerDisconnect id inner))
    (requestReload : ∀ world : World, 0 < world.depth → R world world.requestReload)
    (endFrame : ∀ world : World, world.reloads = false → R world world.endFrame)
    (cancelReload : ∀ world : World, world.reloads = true → R world world.endFrame.cancelReload)
    (replace : ∀ config world old, world.reloads = true → world.runtime = some old → R world
      (((after (old.shutdown (deleteCreated inner)) (world.taken config)).log (.deleted 0)).install config.scripts))
    (modules : ∀ (world : World) timers transfers,
      R world (world.updateRuntime fun runtime => { runtime with timers, transfers })) : ServeRules R inner := by
  have ends := keeps_afterCallback finishShutdown
  refine ⟨rules.toRequestRules, finishShutdown, disconnect, endFrame, cancelReload, replace, modules, ?_, ?_, ?_, ?_, ?_⟩
  · exact fun kind known id => keeps_createEntity rules innerKeeps ends (player_of_serverPools known) id _
  · intro kind known id
    refine (keeps_modify fun world => rules.plain world _ (by trivial)).bind fun _ => ?_
    exact keeps_deleteEntity rules innerKeeps ends (player_of_serverPools known) id (innerKeeps _) (innerKeeps _)
  · exact fun slot keys world => trans_of R (rules.plain world _ (by trivial)) (rules.entity _ .bind slot _ nofun)
  · exact fun slot world => trans_of R (rules.plain world _ (by trivial)) (rules.entity _ .bind slot _ nofun)
  · have inCall : ∀ {ε α : Type} {m : EStateM ε World α}, Keeps R m → Keeps (InCall R) m :=
      fun keeps => keeps.mono fun _ _ related _ => related
    refine ⟨rules.toEmitRules.inCall, ?_, ?_, ?_, ?_, ?_, ?_, ?_, ?_, requestReload⟩
    · exact fun kind known id => inCall (keeps_create rules innerKeeps ends known id)
    · intro kind known id generation
      refine inCall (keeps_destroy rules innerKeeps ends ?_ id generation)
      rintro rfl
      revert known
      decide
    · exact fun id => inCall (keeps_destroyBlip rules innerKeeps ends id)
    · exact fun slot keys => inCall (keeps_createBind rules slot keys)
    · exact fun id => inCall (keeps_removeBind rules id)
    · exact inCall (keeps_clearAllBinds rules)
    · exact fun kind id generation => inCall (keeps_checkLive rules kind id generation)
    · exact fun id => inCall (keeps_kickPlayer rules.toRequestRules innerKeeps disconnect id)

end Requests

end VcmpLua.Model.Plugin
