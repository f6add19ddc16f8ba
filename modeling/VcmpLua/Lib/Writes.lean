import Mathlib

/-! # Writes to independent fields

A write sets one field of a store. Two writes to one field leave the later one, and writes to
different fields commute. So a list of writes that a store already agrees with leaves it as it is,
and a write that a later one replaces might as well not have happened.
-/

namespace Writes

variable {S W F : Type*}

structure Independent (apply : S → W → S) (field : W → F) : Prop where
  overwrite : ∀ s w w', field w = field w' → apply (apply s w) w' = apply s w'
  commute : ∀ s w w', field w ≠ field w' → apply (apply s w) w' = apply (apply s w') w

variable {apply : S → W → S} {field : W → F}

/-- A write before another one to the same field has no effect. -/
theorem Independent.absorb (laws : Independent apply field) {w : W} {list : List W}
    (later : ∃ w' ∈ list, field w' = field w) (s : S) : list.foldl apply (apply s w) = list.foldl apply s := by
  induction list generalizing s with
  | nil =>
    obtain ⟨w', member, -⟩ := later
    cases member
  | cons first rest ih =>
    rw [List.foldl_cons, List.foldl_cons]
    by_cases same : field w = field first
    · rw [laws.overwrite s w first same]
    · obtain ⟨w', member, equal⟩ := later
      rcases List.mem_cons.mp member with rfl | inside
      · exact absurd equal.symm same
      · rw [laws.commute s w first same]
        exact ih ⟨w', inside, equal⟩ (apply s first)

theorem Independent.absorb_list (laws : Independent apply field) {early list : List W}
    (later : ∀ w ∈ early, ∃ w' ∈ list, field w' = field w) (s : S) :
    list.foldl apply (early.foldl apply s) = list.foldl apply s := by
  induction early generalizing s with
  | nil => rfl
  | cons first rest ih =>
    obtain ⟨now, others⟩ := List.forall_mem_cons.mp later
    rw [List.foldl_cons, ih others, laws.absorb now]

theorem foldl_fixed {list : List W} {s : S} (fixed : ∀ w ∈ list, apply s w = s) : list.foldl apply s = s := by
  induction list with
  | nil => rfl
  | cons first rest ih =>
    obtain ⟨now, others⟩ := List.forall_mem_cons.mp fixed
    rw [List.foldl_cons, now, ih others]

/-- A list of writes leads to the same store as some of them do, if that store agrees with all. -/
theorem Independent.foldl_eq (laws : Independent apply field) {early list : List W} (among : ∀ w ∈ early, w ∈ list) {s : S}
    (fixed : ∀ w ∈ list, apply (early.foldl apply s) w = early.foldl apply s) :
    list.foldl apply s = early.foldl apply s := by
  rw [← laws.absorb_list (fun w member => ⟨w, among w member, rfl⟩), foldl_fixed fixed]

/-- The last write is in the store. -/
theorem Independent.last (laws : Independent apply field) {list front : List W} {w : W} (split : list = front ++ [w]) (s : S) :
    apply (list.foldl apply s) w = list.foldl apply s := by
  rw [split, List.foldl_concat, laws.overwrite _ w w rfl]

/-- Writes to different fields are all in the store. -/
theorem Independent.fixed_of_mem (laws : Independent apply field) {list : List W} (distinct : (list.map field).Nodup)
    {w : W} (member : w ∈ list) (s : S) : apply (list.foldl apply s) w = list.foldl apply s := by
  obtain ⟨front, back, rfl⟩ := List.append_of_mem member
  rw [List.map_append, List.map_cons] at distinct
  have apart := (List.nodup_cons.mp (List.nodup_append.mp distinct).2.1).1
  have past : ∀ s, apply (back.foldl apply s) w = back.foldl apply (apply s w) := by
    clear distinct member
    induction back with
    | nil => exact fun s => rfl
    | cons first rest ih =>
      rw [List.map_cons, List.mem_cons, not_or] at apart
      intro s
      rw [List.foldl_cons, List.foldl_cons, ih apart.2, laws.commute s first w (Ne.symm apart.1)]
  rw [List.foldl_append, List.foldl_cons, past, laws.overwrite _ w w rfl]

/-! ## Reading writes from entries -/

section Entries

variable {E ε σ : Type*} (writes : E → Option (List W))

/-- The writes of all entries, none when one of them is refused. -/
def allWrites (entries : List E) : Option (List W) :=
  if ∀ entry ∈ entries, (writes entry).isSome then some (entries.flatMap fun entry => (writes entry).getD []) else none

variable {writes}

theorem allWrites_cons (entry : E) (rest : List E) :
    allWrites writes (entry :: rest) = (writes entry).bind fun first => (allWrites writes rest).map (first ++ ·) := by
  unfold allWrites
  cases one : writes entry with
  | none => simp [one]
  | some first =>
    by_cases all : ∀ other ∈ rest, (writes other).isSome
    · simp [one]
    · simp [one, all]

theorem allWrites_append (front back : List E) :
    allWrites writes (front ++ back) =
      (allWrites writes front).bind fun first => (allWrites writes back).map (first ++ ·) := by
  induction front with
  | nil => simp [allWrites]
  | cons entry rest ih =>
    rw [List.cons_append, allWrites_cons, ih, allWrites_cons]
    cases writes entry with
    | none => rfl
    | some first =>
      cases allWrites writes rest with
      | none => rfl
      | some more =>
        cases allWrites writes back with
        | none => rfl
        | some last => simp

theorem of_allWrites {entries : List E} {list : List W} (all : allWrites writes entries = some list) {entry : E}
    (member : entry ∈ entries) : ∃ own, writes entry = some own ∧ ∀ w ∈ own, w ∈ list := by
  obtain ⟨front, back, rfl⟩ := List.append_of_mem member
  rw [allWrites_append, allWrites_cons] at all
  obtain ⟨first, -, rest⟩ := Option.bind_eq_some_iff.mp all
  obtain ⟨tail, later, rfl⟩ := Option.map_eq_some_iff.mp rest
  obtain ⟨own, written, more⟩ := Option.bind_eq_some_iff.mp later
  obtain ⟨last, -, rfl⟩ := Option.map_eq_some_iff.mp more
  exact ⟨own, written, fun w inside => List.mem_append_right _ (List.mem_append_left _ inside)⟩

theorem allWrites_nothing {entries : List E} (nothing : ∀ entry ∈ entries, writes entry = some []) :
    allWrites writes entries = some [] := by
  induction entries with
  | nil => rfl
  | cons entry rest ih =>
    obtain ⟨now, later⟩ := List.forall_mem_cons.mp nothing
    rw [allWrites_cons, now, ih later]
    rfl

/-- An entry after which nothing is written writes last. -/
theorem allWrites_last {front back : List E} {entry : E} {list : List W}
    (all : allWrites writes (front ++ entry :: back) = some list) (nothing : ∀ other ∈ back, writes other = some []) :
    ∃ early own, writes entry = some own ∧ list = early ++ own := by
  rw [allWrites_append, allWrites_cons, allWrites_nothing nothing] at all
  obtain ⟨early, -, more⟩ := Option.bind_eq_some_iff.mp all
  obtain ⟨last, one, rfl⟩ := Option.map_eq_some_iff.mp more
  obtain ⟨own, written, rest⟩ := Option.bind_eq_some_iff.mp one
  cases rest
  exact ⟨early, own, written, congrArg (early ++ ·) (List.append_nil own)⟩

theorem source_of_allWrites {entries : List E} {list : List W} (all : allWrites writes entries = some list) {w : W}
    (member : w ∈ list) : ∃ entry ∈ entries, ∃ own, writes entry = some own ∧ w ∈ own := by
  unfold allWrites at all
  split_ifs at all with accepted
  cases all
  obtain ⟨entry, inside, found⟩ := List.mem_flatMap.mp member
  obtain ⟨own, written⟩ := Option.isSome_iff_exists.mp (accepted entry inside)
  rw [written] at found
  exact ⟨entry, inside, own, written, found⟩

/-- Where each entry writes at most its own field, the fields of all writes are some of the entries. -/
theorem fields_of_allWrites {writes : E → Option (List W)} {field : W → E}
    (own : ∀ entry list, writes entry = some list → (list.map field).Sublist [entry]) {entries : List E} {list : List W}
    (all : allWrites writes entries = some list) : (list.map field).Sublist entries := by
  induction entries generalizing list with
  | nil =>
    cases all
    exact List.Sublist.refl _
  | cons entry rest ih =>
    rw [allWrites_cons] at all
    obtain ⟨first, one, more⟩ := Option.bind_eq_some_iff.mp all
    obtain ⟨last, others, rfl⟩ := Option.map_eq_some_iff.mp more
    rw [List.map_append]
    exact (own entry first one).append (ih others)

/-- The store agrees with all of the writes, and none is refused. -/
def Harmless (apply : S → W → S) (s : S) (written : Option (List W)) : Prop :=
  ∃ list, written = some list ∧ ∀ w ∈ list, apply s w = s

theorem harmless_nil (s : S) : Harmless apply s (some []) := ⟨[], rfl, by simp⟩

/-- Entries are harmless together when each of them is, in any order. -/
theorem harmless_allWrites (s : S) (entries : List E) :
    Harmless apply s (allWrites writes entries) ↔ ∀ entry ∈ entries, Harmless apply s (writes entry) := by
  induction entries with
  | nil => simp [Harmless, allWrites]
  | cons entry rest ih =>
    rw [allWrites_cons, List.forall_mem_cons, ← ih]
    constructor
    · rintro ⟨list, both, fixed⟩
      obtain ⟨first, one, more⟩ := Option.bind_eq_some_iff.mp both
      obtain ⟨last, others, rfl⟩ := Option.map_eq_some_iff.mp more
      rw [List.forall_mem_append] at fixed
      exact ⟨⟨first, one, fixed.1⟩, last, others, fixed.2⟩
    · rintro ⟨⟨first, one, now⟩, last, others, later⟩
      refine ⟨first ++ last, ?_, List.forall_mem_append.mpr ⟨now, later⟩⟩
      rw [one, others]
      rfl

/-- A reader that goes through the entries and stops at the first one it refuses. -/
theorem foldlM_eq {step : σ → E → Except ε σ} {store : σ → S}
    (one : ∀ s entry, (step s entry).toOption.map store = (writes entry).map fun list => list.foldl apply (store s))
    (entries : List E) (s : σ) :
    (entries.foldlM step s).toOption.map store = (allWrites writes entries).map fun list => list.foldl apply (store s) := by
  induction entries generalizing s with
  | nil => rfl
  | cons entry rest ih =>
    have now := one s entry
    rw [List.foldlM_cons, allWrites_cons]
    cases stepped : step s entry with
    | error e =>
      rw [stepped] at now
      rw [Option.map_eq_none_iff.mp now.symm]
      rfl
    | ok next =>
      rw [stepped] at now
      obtain ⟨first, written, same⟩ := Option.map_eq_some_iff.mp now.symm
      have later := ih next
      rw [← same] at later
      rw [written, Option.bind_some, Option.map_map]
      refine later.trans ?_
      congr 1
      funext list
      rw [Function.comp_apply, List.foldl_append]

end Entries

end Writes
