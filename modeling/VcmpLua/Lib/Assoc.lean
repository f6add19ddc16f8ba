import Mathlib

/-! # Association lists

A table is a list of keys with values. Where no key comes twice, what a key has does not depend on
the order. A table can also be built entry by entry: an entry whose key is new goes to the end, and
the value of an entry whose key is there is combined with the value that the key has. After any
sequence of entries a key has the combination of exactly its own values, in the order in which they
came.
-/

namespace Assoc

variable {κ ν : Type*} [DecidableEq κ]

section Lookup

variable {table other : List (κ × ν)}

theorem lookup_cons_ite (old : κ × ν) (rest : List (κ × ν)) (key : κ) :
    (old :: rest).lookup key = if key = old.1 then some old.2 else rest.lookup key := by
  rw [List.lookup_cons]
  by_cases same : key = old.1
  · rw [if_pos same, beq_iff_eq.mpr same]
  · rw [if_neg same, beq_eq_false_iff_ne.mpr same]

theorem mem_of_lookup {key : κ} {value : ν} (found : table.lookup key = some value) : (key, value) ∈ table := by
  obtain ⟨front, back, split, -⟩ := List.lookup_eq_some_iff.mp found
  rw [split]
  exact List.mem_append_right _ (List.mem_cons_self ..)

theorem lookup_eq_some_iff_mem (distinct : (table.map Prod.fst).Nodup) {key : κ} {value : ν} :
    table.lookup key = some value ↔ (key, value) ∈ table := by
  refine ⟨mem_of_lookup, fun member => ?_⟩
  obtain ⟨front, back, rfl⟩ := List.append_of_mem member
  rw [List.lookup_eq_some_iff]
  refine ⟨front, back, rfl, fun old before => ?_⟩
  rw [List.map_append, List.map_cons] at distinct
  have apart := (List.nodup_append.mp distinct).2.2
  rw [bne_iff_ne]
  exact (apart old.1 (List.mem_map_of_mem before) key (List.mem_cons_self ..)).symm

/-- A key is found once. -/
theorem filter_key (distinct : (table.map Prod.fst).Nodup) {key : κ} {value : ν} (member : (key, value) ∈ table) :
    table.filter (·.1 = key) = [(key, value)] := by
  obtain ⟨front, back, rfl⟩ := List.append_of_mem member
  rw [List.map_append, List.map_cons, List.nodup_append, List.nodup_cons] at distinct
  obtain ⟨-, ⟨later, -⟩, apart⟩ := distinct
  have before : front.filter (·.1 = key) = [] := by
    rw [List.filter_eq_nil_iff]
    intro old inside same
    exact apart old.1 (List.mem_map_of_mem inside) key (List.mem_cons_self ..) (of_decide_eq_true same)
  have after : back.filter (·.1 = key) = [] := by
    rw [List.filter_eq_nil_iff]
    intro old inside same
    exact later (List.mem_map.mpr ⟨old, inside, of_decide_eq_true same⟩)
  rw [List.filter_append, before, List.nil_append, List.filter_cons_of_pos (by simp), after]

/-- What a key has does not depend on the order. -/
theorem lookup_perm (perm : table.Perm other) (distinct : (table.map Prod.fst).Nodup) (key : κ) :
    table.lookup key = other.lookup key := by
  have distinct' : (other.map Prod.fst).Nodup := (perm.map Prod.fst).nodup_iff.mp distinct
  apply Option.ext
  intro value
  rw [lookup_eq_some_iff_mem distinct, lookup_eq_some_iff_mem distinct', perm.mem_iff]

end Lookup

variable (combine : ν → ν → ν)

def insertWith (table : List (κ × ν)) (entry : κ × ν) : List (κ × ν) :=
  if table.any (·.1 = entry.1) then
    table.map fun old => if old.1 = entry.1 then (old.1, combine old.2 entry.2) else old
  else table ++ [entry]

/-- The values that entries have under a key, in order. -/
def valuesOf (key : κ) (entries : List (κ × ν)) : List ν :=
  entries.filterMap fun entry => if entry.1 = key then some entry.2 else none

/-- The values of one key, combined from the left. -/
def combined : List ν → Option ν
  | [] => none
  | value :: rest => some (rest.foldl combine value)

variable {combine} {table : List (κ × ν)} {entry : κ × ν}

theorem any_key_iff : table.any (·.1 = entry.1) = true ↔ entry.1 ∈ table.map Prod.fst := by
  simp

theorem map_keys_insertWith (present : entry.1 ∈ table.map Prod.fst) :
    (insertWith combine table entry).map Prod.fst = table.map Prod.fst := by
  rw [insertWith, if_pos (any_key_iff.mpr present), List.map_map]
  apply List.map_congr_left
  intro old _
  rw [Function.comp_apply]
  split_ifs <;> rfl

theorem map_keys_insertWith_new (absent : entry.1 ∉ table.map Prod.fst) :
    (insertWith combine table entry).map Prod.fst = table.map Prod.fst ++ [entry.1] := by
  rw [insertWith, if_neg (any_key_iff.not.mpr absent), List.map_append]
  rfl

/-- No key comes twice. -/
theorem nodup_insertWith (distinct : (table.map Prod.fst).Nodup) (entry : κ × ν) :
    ((insertWith combine table entry).map Prod.fst).Nodup := by
  by_cases present : entry.1 ∈ table.map Prod.fst
  · rw [map_keys_insertWith present]
    exact distinct
  · rw [map_keys_insertWith_new present]
    rw [← List.concat_eq_append]
    exact distinct.concat present

theorem lookup_map_combine (table : List (κ × ν)) (key other : κ) (value : ν) :
    (table.map fun old => if old.1 = key then (old.1, combine old.2 value) else old).lookup other =
      if other = key then (table.lookup key).map (combine · value) else table.lookup other := by
  induction table with
  | nil => simp
  | cons old rest ih =>
    simp only [List.map_cons, lookup_cons_ite]
    rw [ih]
    by_cases wanted : other = key
    · subst wanted
      by_cases same : old.1 = other
      · simp [same]
      · simp [same, Ne.symm same]
    · by_cases same : old.1 = key
      · simp [same, wanted]
      · simp [same, wanted]

/-- What a key has after one entry. -/
theorem lookup_insertWith (table : List (κ × ν)) (entry : κ × ν) (key : κ) :
    (insertWith combine table entry).lookup key =
      if key = entry.1 then some ((table.lookup key).elim entry.2 (combine · entry.2)) else table.lookup key := by
  by_cases present : entry.1 ∈ table.map Prod.fst
  · rw [insertWith, if_pos (any_key_iff.mpr present), lookup_map_combine]
    split_ifs with same
    · subst same
      have found : (table.lookup entry.1).isSome = true := by
        simpa [List.lookup_isSome_iff] using present
      obtain ⟨old, held⟩ := Option.isSome_iff_exists.mp found
      rw [held]
      rfl
    · rfl
  · have missing : table.lookup entry.1 = none := by
      rw [List.lookup_eq_none_iff]
      intro old member
      rw [bne_iff_ne]
      intro same
      apply present
      rw [same]
      exact List.mem_map_of_mem member
    rw [insertWith, if_neg (any_key_iff.not.mpr present), List.lookup_append, lookup_cons_ite]
    split_ifs with same
    · subst same
      rw [missing]
      rfl
    · rw [List.lookup_nil, Option.or_none]

theorem combined_concat (values : List ν) (value : ν) :
    combined combine (values ++ [value]) = some ((combined combine values).elim value (combine · value)) := by
  cases values with
  | nil => rfl
  | cons first rest =>
    rw [List.cons_append, combined, List.foldl_concat]
    rfl

theorem valuesOf_concat (key : κ) (entries : List (κ × ν)) (entry : κ × ν) :
    valuesOf key (entries ++ [entry]) = valuesOf key entries ++ if key = entry.1 then [entry.2] else [] := by
  rw [valuesOf, List.filterMap_append, valuesOf]
  congr 1
  by_cases same : key = entry.1
  · simp [same]
  · simp [same, Ne.symm same]

theorem nodup_fold (entries : List (κ × ν)) : ((entries.foldl (insertWith combine) []).map Prod.fst).Nodup := by
  induction entries using List.reverseRecOn with
  | nil => exact List.nodup_nil
  | append_singleton entries entry ih =>
    rw [List.foldl_concat]
    exact nodup_insertWith ih entry

/-- A key has its own values combined, and nothing when no entry has it. -/
theorem lookup_fold (entries : List (κ × ν)) (key : κ) :
    (entries.foldl (insertWith combine) []).lookup key = combined combine (valuesOf key entries) := by
  induction entries using List.reverseRecOn with
  | nil => rfl
  | append_singleton entries entry ih =>
    rw [List.foldl_concat, lookup_insertWith, valuesOf_concat]
    split_ifs with same
    · rw [combined_concat, ih]
    · rw [List.append_nil, ih]

theorem mem_keys_fold (entries : List (κ × ν)) (key : κ) :
    key ∈ (entries.foldl (insertWith combine) []).map Prod.fst ↔ key ∈ entries.map Prod.fst := by
  induction entries using List.reverseRecOn with
  | nil => rfl
  | append_singleton entries entry ih =>
    rw [List.foldl_concat, List.map_append, List.mem_append, List.map_singleton, List.mem_singleton, ← ih]
    by_cases present : entry.1 ∈ (entries.foldl (insertWith combine) []).map Prod.fst
    · rw [map_keys_insertWith present, or_iff_left_of_imp]
      rintro rfl
      exact present
    · rw [map_keys_insertWith_new present, List.mem_append, List.mem_singleton]

end Assoc
