import VcmpLua.Proofs.Plugin.Shutdown

/-! # Shutdowns during a reload

While a reload deletes what the old runtime created, no runtime is installed, and a shutdown that
arrives then does nothing: the new runtime is installed all the same and nobody stops it. This is
the only way in which a shutdown gets lost.
-/

namespace VcmpLua.Model.Plugin

open Effect VcmpLua.Model.Core World

/-- `OnServerShutdown` arrived. -/
def Entry.stops : Entry → Bool
  | .shutdownArrived _ | .shutdownMissed => true
  | _ => false

theorem Entry.stops_of_arrives {entry : Entry} (arrives : entry.arrives = true) : entry.stops = true := by
  cases entry <;> first | rfl | cases arrives

theorem Entry.arrives_of_stops {entry : Entry} (stops : entry.stops = true) (found : entry ≠ .shutdownMissed) :
    entry.arrives = true := by
  cases entry <;> first | rfl | exact absurd rfl found | cases stops

/-- Of two entries that stop the server only one can be there. -/
theorem not_missed_of_arrives {entries : List Entry} (once : entries.countP Entry.stops = 1)
    (arrived : ∃ entry ∈ entries, entry.arrives = true) : Entry.shutdownMissed ∉ entries := by
  intro missed
  obtain ⟨entry, member, arrives⟩ := arrived
  have stopsOnce : ∃ only, entries.filter Entry.stops = [only] := by
    rw [← List.length_eq_one_iff, ← List.countP_eq_length_filter]
    exact once
  obtain ⟨only, filtered⟩ := stopsOnce
  have first : entry = only := by
    rw [← List.mem_singleton, ← filtered]
    exact List.mem_filter.mpr ⟨member, Entry.stops_of_arrives arrives⟩
  have second : Entry.shutdownMissed = only := by
    rw [← List.mem_singleton, ← filtered]
    exact List.mem_filter.mpr ⟨missed, rfl⟩
  rw [first, ← second] at arrives
  cases arrives

/-- A shutdown that arrives once ends the last runtime if and only if it found one. -/
theorem shutdown_completes_iff_found (existing : EntityKind → Int → Bool) (scripts : ℕ) (behaviour : Behaviour) :
    let final := after (perform behaviour) (World.start existing scripts)
    final.trace.countP Entry.stops = 1 →
      (final.runtime = none ∧ final.shutdownDeferred = false ∧ Ended final.trace ↔
        Entry.shutdownMissed ∉ final.trace) := by
  intro final once
  obtain ⟨rest, new, trace, course⟩ := (kept_perform behaviour _).settled (atRest_start existing scripts)
  have all : final.trace = new := trace
  rw [all] at once ⊢
  constructor
  · rintro ⟨gone, -, -⟩
    exact not_missed_of_arrives once ((course.lost gone).resolve_left nofun)
  · intro found
    obtain ⟨entry, member, stops⟩ := List.countP_pos_iff.mp (by rw [once]; exact Nat.one_pos)
    have arrives := Entry.arrives_of_stops stops fun same => found (same ▸ member)
    obtain ⟨gone, ended⟩ := course.arrived ⟨entry, member, arrives⟩
    exact ⟨gone, rest.deferred, ended⟩

theorem shutdown_completes_in_timer :
    let final := after (perform shutdownInTimer) (World.start (fun _ _ => false) 0)
    final.trace.countP Entry.stops = 1 ∧
      (final.runtime = none ∧ final.shutdownDeferred = false ∧ Ended final.trace ↔
        Entry.shutdownMissed ∉ final.trace) := by
  have once : (after (perform shutdownInTimer) (World.start (fun _ _ => false) 0)).trace.countP Entry.stops = 1 := by
    decide +kernel
  exact ⟨once, shutdown_completes_iff_found (fun _ _ => false) 0 shutdownInTimer once⟩

/-- A script creates a vehicle and asks for a reload; another plugin stops the server when it hears
that the vehicle is deleted. -/
def shutdownInSweep : Behaviour :=
  .request (.frame 1 0 (.starts {}))
    (fun site =>
      if site = .timer 0 then
        .request (.lua (.create .vehicle 1)) (fun _ => .ret .returned) (.single (.lua .reload))
      else if site = .sweep .vehicle 1 false then .single .shutdown
      else .ret .returned)
    (.ret .returned)

theorem shutdown_in_sweep_lost :
    let final := after (perform shutdownInSweep) (World.start (fun _ _ => false) 0)
    final.trace.countP Entry.stops = 1 ∧ final.runtime.isSome = true ∧ shutdownDispatches final.trace = 0 := by
  decide +kernel

end VcmpLua.Model.Plugin
