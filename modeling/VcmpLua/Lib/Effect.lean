import Mathlib

/-! # Relational rules for computations that throw and keep their state

`EStateM ε σ` without backtracking is the semantics of code with exceptions and destructors: an
exception leaves the state as it was at the throw. `Keeps R` says that a computation relates its
initial state to its final one by the preorder `R`, however it ends. `Sim S` says that two
computations with related initial states end in the same way in related states. Both are closed
under sequencing, handlers and cleanup, so an invariant of a large program is checked once for each
of its primitive updates.
-/

namespace Effect

variable {ε σ τ α β : Type}

/-- The state a computation leaves behind, whether it returns or throws. -/
def after (m : EStateM ε σ α) (s : σ) : σ :=
  match m s with
  | .ok _ s' => s'
  | .error _ s' => s'

/-- Run `cleanup` on the way out of `m`, also when `m` throws. -/
def withCleanup (m : EStateM ε σ α) (cleanup : σ → σ) : EStateM ε σ α := fun s =>
  match m s with
  | .ok a s' => .ok a (cleanup s')
  | .error e s' => .error e (cleanup s')

/-- Run `cleanup` on the way out of `m` only when `m` throws. -/
def onError (m : EStateM ε σ α) (cleanup : σ → σ) : EStateM ε σ α := fun s =>
  match m s with
  | .ok a s' => .ok a s'
  | .error e s' => .error e (cleanup s')

/-- Run `m` and report how it ended; nothing is thrown. -/
def attempt (m : EStateM ε σ α) : EStateM ε σ (Except ε α) := fun s =>
  match m s with
  | .ok a s' => .ok (.ok a) s'
  | .error e s' => .ok (.error e) s'

/-- Run `m` and report how it ended, in code that cannot throw. -/
def caught (m : EStateM ε σ α) : EStateM Empty σ (Except ε α) := fun s =>
  match m s with
  | .ok a s' => .ok (.ok a) s'
  | .error e s' => .ok (.error e) s'

/-- Code that cannot throw, in code that can. -/
def safely (m : EStateM Empty σ α) : EStateM ε σ α := fun s =>
  match m s with
  | .ok a s' => .ok a s'
  | .error e _ => e.elim

/-- A loop over a fixed list of elements. -/
def forEach (body : β → EStateM ε σ Unit) : List β → EStateM ε σ Unit
  | [] => pure ()
  | b :: rest => do
      body b
      forEach body rest

theorem forEach_map {γ : Type} (f : γ → β) (body : β → EStateM ε σ Unit) (list : List γ) :
    forEach body (list.map f) = forEach (fun c => body (f c)) list := by
  induction list with
  | nil => rfl
  | cons c rest ih => rw [List.map_cons, forEach, forEach, ih]

@[simp] theorem after_pure (a : α) (s : σ) : after (pure a : EStateM ε σ α) s = s := rfl

@[simp] theorem after_get (s : σ) : after (get : EStateM ε σ σ) s = s := rfl

@[simp] theorem after_modify (f : σ → σ) (s : σ) :
    after (modify f : EStateM ε σ PUnit) s = f s := rfl

@[simp] theorem after_throw (e : ε) (s : σ) : after (throw e : EStateM ε σ α) s = s := rfl

theorem after_of_ok {m : EStateM ε σ α} {s s' : σ} {a : α} (ran : m s = .ok a s') :
    after m s = s' := by
  simp only [after, ran]

theorem after_of_error {m : EStateM ε σ α} {s s' : σ} {e : ε} (ran : m s = .error e s') :
    after m s = s' := by
  simp only [after, ran]

@[simp] theorem after_withCleanup (m : EStateM ε σ α) (cleanup : σ → σ) (s : σ) :
    after (withCleanup m cleanup) s = cleanup (after m s) := by
  cases ran : m s <;> simp only [after, withCleanup, ran]

@[simp] theorem after_attempt (m : EStateM ε σ α) (s : σ) : after (attempt m) s = after m s := by
  cases ran : m s <;> simp only [after, attempt, ran]

@[simp] theorem after_caught (m : EStateM ε σ α) (s : σ) : after (caught m) s = after m s := by
  cases ran : m s <;> simp only [after, caught, ran]

@[simp] theorem after_safely (m : EStateM Empty σ α) (s : σ) :
    after (safely m : EStateM ε σ α) s = after m s := by
  cases ran : m s with
  | ok a s' => simp only [after, safely, ran]
  | error e s' => exact e.elim

theorem safely_of_ok {m : EStateM Empty σ α} {s s' : σ} {a : α} (ran : m s = .ok a s') :
    (safely m : EStateM ε σ α) s = .ok a s' := by
  simp only [safely, ran]

theorem exists_ok_of_run' {m : EStateM ε σ α} {s : σ} {a : α} (returns : m.run' s = some a) : ∃ s', m s = .ok a s' := by
  cases ran : m s with
  | ok b s' =>
    rw [EStateM.run', EStateM.run, ran] at returns
    cases returns
    exact ⟨s', rfl⟩
  | error e s' =>
    rw [EStateM.run', EStateM.run, ran] at returns
    cases returns

/-- A successful sequence is a successful first part followed by a successful rest. -/
theorem bind_eq_ok {m : EStateM ε σ α} {f : α → EStateM ε σ β} {s s' : σ} {b : β} :
    (m >>= f) s = .ok b s' ↔ ∃ a middle, m s = .ok a middle ∧ f a middle = .ok b s' := by
  change EStateM.bind m f s = _ ↔ _
  cases ran : m s <;> simp [EStateM.bind, ran, and_assoc]

theorem bind_of_ok {m : EStateM ε σ α} {f : α → EStateM ε σ β} {s middle : σ} {a : α}
    (ran : m s = .ok a middle) : (m >>= f) s = f a middle := by
  change EStateM.bind m f s = _
  simp only [EStateM.bind, ran]

theorem bind_of_error {m : EStateM ε σ α} {f : α → EStateM ε σ β} {s middle : σ} {e : ε}
    (ran : m s = .error e middle) : (m >>= f) s = .error e middle := by
  change EStateM.bind m f s = _
  simp only [EStateM.bind, ran]

/-- A sequence stops after its first part, or goes on from there. -/
theorem after_bind (m : EStateM ε σ α) (f : α → EStateM ε σ β) (s : σ) :
    after (m >>= f) s = after m s ∨ ∃ a, after (m >>= f) s = after (f a) (after m s) := by
  cases ran : m s with
  | ok a middle =>
    refine .inr ⟨a, ?_⟩
    rw [after_of_ok ran]
    simp only [after, bind_of_ok ran]
  | error e middle =>
    exact .inl ((after_of_error (bind_of_error ran)).trans (after_of_error ran).symm)

/-- Code that cannot throw returns. -/
theorem eq_ok (m : EStateM Empty σ α) (s : σ) : ∃ a, m s = .ok a (after m s) := by
  cases ran : m s with
  | ok a s' => exact ⟨a, by rw [after_of_ok ran]⟩
  | error e s' => exact e.elim

/-- Code that cannot throw goes on from where its first part ended. -/
theorem after_seq (m : EStateM Empty σ α) (n : EStateM Empty σ β) (s : σ) :
    after (m >>= fun _ => n) s = after n (after m s) := by
  obtain ⟨a, ran⟩ := eq_ok m s
  simp only [after, bind_of_ok ran]

theorem get_bind (f : σ → EStateM ε σ β) (s : σ) : (get >>= f) s = f s s := rfl

theorem modify_bind (update : σ → σ) (f : PUnit → EStateM ε σ β) (s : σ) :
    (modify update >>= f) s = f ⟨⟩ (update s) := rfl

theorem map_of_ok {m : EStateM ε σ α} {f : α → β} {s s' : σ} {a : α} (ran : m s = .ok a s') :
    (f <$> m) s = .ok (f a) s' := by
  change EStateM.map f m s = _
  simp only [EStateM.map, ran]

theorem map_of_error {m : EStateM ε σ α} {f : α → β} {s s' : σ} {e : ε} (ran : m s = .error e s') :
    (f <$> m) s = .error e s' := by
  change EStateM.map f m s = _
  simp only [EStateM.map, ran]

theorem map_eq_ok {m : EStateM ε σ α} {f : α → β} {s s' : σ} {b : β} :
    (f <$> m) s = .ok b s' ↔ ∃ a, m s = .ok a s' ∧ f a = b := by
  cases ran : m s with
  | ok a middle => simp [map_of_ok ran, and_assoc, and_comm]
  | error e middle => simp [map_of_error ran]

@[simp] theorem after_map (f : α → β) (m : EStateM ε σ α) (s : σ) : after (f <$> m) s = after m s := by
  cases ran : m s with
  | ok a middle => rw [after_of_ok ran, after_of_ok (map_of_ok ran)]
  | error e middle => rw [after_of_error ran, after_of_error (map_of_error ran)]

theorem withCleanup_of_ok {m : EStateM ε σ α} {cleanup : σ → σ} {s s' : σ} {a : α}
    (ran : m s = .ok a s') : withCleanup m cleanup s = .ok a (cleanup s') := by
  simp only [withCleanup, ran]

theorem withCleanup_of_error {m : EStateM ε σ α} {cleanup : σ → σ} {s s' : σ} {e : ε}
    (ran : m s = .error e s') : withCleanup m cleanup s = .error e (cleanup s') := by
  simp only [withCleanup, ran]

theorem onError_of_ok {m : EStateM ε σ α} {cleanup : σ → σ} {s s' : σ} {a : α}
    (ran : m s = .ok a s') : onError m cleanup s = .ok a s' := by
  simp only [onError, ran]

theorem onError_of_error {m : EStateM ε σ α} {cleanup : σ → σ} {s s' : σ} {e : ε}
    (ran : m s = .error e s') : onError m cleanup s = .error e (cleanup s') := by
  simp only [onError, ran]

theorem attempt_of_ok {m : EStateM ε σ α} {s s' : σ} {a : α} (ran : m s = .ok a s') :
    attempt m s = .ok (.ok a) s' := by
  simp only [attempt, ran]

theorem attempt_of_error {m : EStateM ε σ α} {s s' : σ} {e : ε} (ran : m s = .error e s') :
    attempt m s = .ok (.error e) s' := by
  simp only [attempt, ran]

/-! ## One computation -/

/-- The computation relates its initial to its final state by `R`, however it ends. -/
def Keeps (R : σ → σ → Prop) (m : EStateM ε σ α) : Prop := ∀ s, R s (after m s)

section Keeps

variable {R : σ → σ → Prop}

theorem keeps_modify {f : σ → σ} (step : ∀ s, R s (f s)) :
    Keeps R (modify f : EStateM ε σ PUnit) := step

theorem Keeps.attempt {m : EStateM ε σ α} (keeps : Keeps R m) : Keeps R (attempt m) := by
  intro s
  rw [after_attempt]
  exact keeps s

theorem Keeps.caught {m : EStateM ε σ α} (keeps : Keeps R m) : Keeps R (caught m) := by
  intro s
  rw [after_caught]
  exact keeps s

theorem Keeps.safely {m : EStateM Empty σ α} (keeps : Keeps R m) : Keeps R (safely m : EStateM ε σ α) := by
  intro s
  rw [after_safely]
  exact keeps s

theorem Keeps.map {m : EStateM ε σ α} (keeps : Keeps R m) (f : α → β) : Keeps R (f <$> m) := by
  intro s
  rw [after_map]
  exact keeps s

theorem Keeps.mono {Q : σ → σ → Prop} {m : EStateM ε σ α} (keeps : Keeps R m) (weaken : ∀ s s', R s s' → Q s s') :
    Keeps Q m := fun s => weaken _ _ (keeps s)

variable [IsPreorder σ R]

theorem keeps_pure (a : α) : Keeps R (pure a : EStateM ε σ α) := fun s => refl_of R s

theorem keeps_get : Keeps R (get : EStateM ε σ σ) := fun s => refl_of R s

theorem keeps_throw (e : ε) : Keeps R (throw e : EStateM ε σ α) := fun s => refl_of R s

theorem Keeps.bind {m : EStateM ε σ α} {f : α → EStateM ε σ β} (first : Keeps R m)
    (rest : ∀ a, Keeps R (f a)) : Keeps R (m >>= f) := by
  intro s
  have start := first s
  cases ran : m s with
  | ok a middle =>
    rw [after_of_ok ran] at start
    have last := rest a middle
    simp only [after, bind_of_ok ran]
    exact trans_of R start last
  | error e middle =>
    rw [after_of_error ran] at start
    simpa only [after, bind_of_error ran] using start

theorem Keeps.withCleanup {m : EStateM ε σ α} {cleanup : σ → σ} (keeps : Keeps R m)
    (step : ∀ s, R s (cleanup s)) : Keeps R (withCleanup m cleanup) := by
  intro s
  rw [after_withCleanup]
  exact trans_of R (keeps s) (step _)

theorem Keeps.onError {m : EStateM ε σ α} {cleanup : σ → σ} (keeps : Keeps R m)
    (step : ∀ s, R s (cleanup s)) : Keeps R (onError m cleanup) := by
  intro s
  have start := keeps s
  cases ran : m s with
  | ok a middle =>
    rw [after_of_ok ran] at start
    rw [after_of_ok (onError_of_ok ran)]
    exact start
  | error e middle =>
    rw [after_of_error ran] at start
    rw [after_of_error (onError_of_error ran)]
    exact trans_of R start (step middle)

theorem keeps_forEach {body : β → EStateM ε σ Unit} {list : List β}
    (keeps : ∀ b ∈ list, Keeps R (body b)) : Keeps R (forEach body list) := by
  induction list with
  | nil => exact keeps_pure ()
  | cons b rest ih =>
    exact (keeps b (List.mem_cons_self ..)).bind fun _ =>
      ih fun other member => keeps other (List.mem_cons_of_mem _ member)

end Keeps

/-- Started where `P` holds, a computation that returns does so where `Q` holds. -/
def Triple (P : σ → Prop) (m : EStateM ε σ α) (Q : σ → Prop) : Prop :=
  ∀ s a s', P s → m s = .ok a s' → Q s'

section Triple

variable {P Q I : σ → Prop}

theorem triple_pure (a : α) : Triple I (pure a : EStateM ε σ α) I := by
  rintro s _ _ holds ⟨⟩
  exact holds

theorem Triple.bind {m : EStateM ε σ α} {f : α → EStateM ε σ β} (first : Triple P m I)
    (rest : ∀ a, Triple I (f a) Q) : Triple P (m >>= f) Q := by
  intro s b s' holds ran
  obtain ⟨a, middle, ran, ran'⟩ := bind_eq_ok.mp ran
  exact rest a middle b s' (first s a middle holds ran) ran'

theorem Triple.map {m : EStateM ε σ α} (triple : Triple P m Q) (f : α → β) : Triple P (f <$> m) Q := by
  intro s b s' holds ran
  obtain ⟨a, ran, -⟩ := map_eq_ok.mp ran
  exact triple s a s' holds ran

theorem triple_forEach {body : β → EStateM ε σ Unit} {list : List β}
    (step : ∀ b ∈ list, Triple I (body b) I) : Triple I (forEach body list) I := by
  induction list with
  | nil => exact triple_pure ()
  | cons b rest ih =>
    exact (step b (List.mem_cons_self ..)).bind fun _ =>
      ih fun other member => step other (List.mem_cons_of_mem _ member)

end Triple

/-- A result with `Q` if it is a value, with `E` if it is an exception. -/
def Ends (Q : α → σ → Prop) (E : ε → σ → Prop) : EStateM.Result ε σ α → Prop
  | .ok a s => Q a s
  | .error e s => E e s

section Ends

variable {P : α → σ → Prop} {Q : β → σ → Prop} {E : ε → σ → Prop}

theorem Ends.bind {m : EStateM ε σ α} {f : α → EStateM ε σ β} {s : σ} (first : Ends P E (m s))
    (rest : ∀ a s', P a s' → Ends Q E (f a s')) : Ends Q E ((m >>= f) s) := by
  cases ran : m s with
  | ok a s' =>
    rw [bind_of_ok ran]
    rw [ran] at first
    exact rest a s' first
  | error e s' =>
    rw [bind_of_error ran]
    rw [ran] at first
    exact first

theorem Ends.imp {P' : α → σ → Prop} {E' : ε → σ → Prop} {result : EStateM.Result ε σ α} (ends : Ends P E result)
    (value : ∀ a s, P a s → P' a s) (exception : ∀ e s, E e s → E' e s) : Ends P' E' result := by
  cases result with
  | ok a s => exact value a s ends
  | error e s => exact exception e s ends

theorem Ends.withCleanup {P' : α → σ → Prop} {E' : ε → σ → Prop} {m : EStateM ε σ α} {cleanup : σ → σ} {s : σ}
    (ends : Ends P E (m s)) (value : ∀ a s, P a s → P' a (cleanup s)) (exception : ∀ e s, E e s → E' e (cleanup s)) :
    Ends P' E' (withCleanup m cleanup s) := by
  cases ran : m s with
  | ok a s' =>
    rw [withCleanup_of_ok ran]
    rw [ran] at ends
    exact value a s' ends
  | error e s' =>
    rw [withCleanup_of_error ran]
    rw [ran] at ends
    exact exception e s' ends

theorem Ends.onError {E' : ε → σ → Prop} {m : EStateM ε σ α} {cleanup : σ → σ} {s : σ} (ends : Ends P E (m s))
    (exception : ∀ e s, E e s → E' e (cleanup s)) : Ends P E' (onError m cleanup s) := by
  cases ran : m s with
  | ok a s' =>
    rw [onError_of_ok ran]
    rw [ran] at ends
    exact ends
  | error e s' =>
    rw [onError_of_error ran]
    rw [ran] at ends
    exact exception e s' ends

/-- The loop from one element of the list on. -/
theorem ends_forEach {body : β → EStateM ε σ Unit} {I : List β → σ → Prop}
    (step : ∀ b rest s, I (b :: rest) s → Ends (fun _ => I rest) E (body b s)) (list : List β) (s : σ) (holds : I list s) :
    Ends (fun _ => I []) E (forEach body list s) := by
  induction list generalizing s with
  | nil => exact holds
  | cons b rest ih => exact (step b rest s holds).bind fun _ s' holds' => ih s' holds'

end Ends

/-- Every exception of the computation satisfies `P`. -/
def Raises (P : ε → Prop) (m : EStateM ε σ α) : Prop := ∀ s e s', m s = .error e s' → P e

section Raises

variable {P : ε → Prop}

theorem raises_pure (a : α) : Raises P (pure a : EStateM ε σ α) := nofun

theorem raises_get : Raises P (get : EStateM ε σ σ) := nofun

theorem raises_modify (f : σ → σ) : Raises P (modify f : EStateM ε σ PUnit) := nofun

theorem raises_throw {e : ε} (holds : P e) : Raises P (throw e : EStateM ε σ α) := by
  rintro s e s' ⟨⟩
  exact holds

theorem Raises.bind {m : EStateM ε σ α} {f : α → EStateM ε σ β} (first : Raises P m)
    (rest : ∀ a, Raises P (f a)) : Raises P (m >>= f) := by
  intro s e s' failed
  cases ran : m s with
  | ok a middle =>
    rw [bind_of_ok ran] at failed
    exact rest a middle e s' failed
  | error e middle =>
    rw [bind_of_error ran] at failed
    cases failed
    exact first s e s' ran

theorem Raises.map {m : EStateM ε σ α} (raises : Raises P m) (f : α → β) : Raises P (f <$> m) := by
  intro s e s' failed
  cases ran : m s with
  | ok a middle =>
    rw [map_of_ok ran] at failed
    cases failed
  | error e middle =>
    rw [map_of_error ran] at failed
    cases failed
    exact raises s e s' ran

theorem Raises.attempt {m : EStateM ε σ α} : Raises P (attempt m) := by
  intro s e s' failed
  cases ran : m s with
  | ok a middle =>
    rw [attempt_of_ok ran] at failed
    cases failed
  | error e middle =>
    rw [attempt_of_error ran] at failed
    cases failed

theorem Raises.onError {m : EStateM ε σ α} (raises : Raises P m) (cleanup : σ → σ) :
    Raises P (onError m cleanup) := by
  intro s e s' failed
  cases ran : m s with
  | ok a middle =>
    rw [onError_of_ok ran] at failed
    cases failed
  | error e middle =>
    rw [onError_of_error ran] at failed
    cases failed
    exact raises s e middle ran

end Raises

/-! ## Two computations -/

/-- Two results agree: the same value or the same exception, in related states. -/
def Agree (S : σ → τ → Prop) : EStateM.Result ε σ α → EStateM.Result ε τ α → Prop
  | .ok a s, .ok b t => a = b ∧ S s t
  | .error e s, .error f t => e = f ∧ S s t
  | _, _ => False

theorem Agree.of_ok {S : σ → τ → Prop} {a : α} {s : σ} {result : EStateM.Result ε τ α}
    (agree : Agree S (.ok a s) result) : ∃ t, result = .ok a t ∧ S s t := by
  cases result with
  | ok b t =>
    obtain ⟨rfl, related⟩ := agree
    exact ⟨t, rfl, related⟩
  | error e t => exact agree.elim

theorem Agree.of_error {S : σ → τ → Prop} {e : ε} {s : σ} {result : EStateM.Result ε τ α}
    (agree : Agree S (.error e s) result) : ∃ t, result = .error e t ∧ S s t := by
  cases result with
  | ok b t => exact agree.elim
  | error f t =>
    obtain ⟨rfl, related⟩ := agree
    exact ⟨t, rfl, related⟩

theorem Agree.imp {S S' : σ → τ → Prop} {first : EStateM.Result ε σ α} {second : EStateM.Result ε τ α}
    (agree : Agree S first second) (weaken : ∀ s t, S s t → S' s t) : Agree S' first second := by
  cases first <;> cases second
  case ok.ok => exact ⟨agree.1, weaken _ _ agree.2⟩
  case error.error => exact ⟨agree.1, weaken _ _ agree.2⟩
  all_goals exact agree.elim

theorem Agree.after {S : σ → τ → Prop} {m : EStateM ε σ α} {n : EStateM ε τ α} {s : σ} {t : τ}
    (agree : Agree S (m s) (n t)) : S (after m s) (after n t) := by
  unfold Effect.after
  cases left : m s <;> cases right : n t <;> rw [left, right] at agree
  case ok.ok => exact agree.2
  case error.error => exact agree.2
  all_goals exact agree.elim

/-- Related initial states lead to the same ending in related states. -/
def Sim (S : σ → τ → Prop) (m : EStateM ε σ α) (n : EStateM ε τ α) : Prop :=
  ∀ s t, S s t → Agree S (m s) (n t)

variable {S : σ → τ → Prop}

theorem sim_pure (a : α) : Sim S (pure a : EStateM ε σ α) (pure a) := fun _ _ related => ⟨rfl, related⟩

theorem Agree.map {m : EStateM ε σ α} {n : EStateM ε τ α} {s : σ} {t : τ} (f : α → β)
    (agree : Agree S (m s) (n t)) : Agree S ((f <$> m) s) ((f <$> n) t) := by
  cases left : m s <;> cases right : n t <;> rw [left, right] at agree
  case ok.ok =>
    rw [map_of_ok left, map_of_ok right]
    exact ⟨congrArg f agree.1, agree.2⟩
  case error.error =>
    rw [map_of_error left, map_of_error right]
    exact agree
  all_goals exact agree.elim

/-- Cleanup that the related side does not see. -/
theorem Agree.withCleanup {m : EStateM ε σ α} {n : EStateM ε τ α} {s : σ} {t : τ} {cleanup : σ → σ}
    (agree : Agree S (m s) (n t)) (step : ∀ s t, S s t → S (cleanup s) t) :
    Agree S (withCleanup m cleanup s) (n t) := by
  cases left : m s <;> cases right : n t <;> rw [left, right] at agree
  case ok.ok =>
    rw [withCleanup_of_ok left]
    exact ⟨agree.1, step _ _ agree.2⟩
  case error.error =>
    rw [withCleanup_of_error left]
    exact ⟨agree.1, step _ _ agree.2⟩
  all_goals exact agree.elim

theorem Agree.bind {m : EStateM ε σ α} {n : EStateM ε τ α} {f : α → EStateM ε σ β} {g : α → EStateM ε τ β}
    {s : σ} {t : τ} (first : Agree S (m s) (n t)) (rest : ∀ a, Sim S (f a) (g a)) :
    Agree S ((m >>= f) s) ((n >>= g) t) := by
  cases left : m s <;> cases right : n t <;> rw [left, right] at first
  case ok.ok a s' b t' =>
    obtain ⟨rfl, related⟩ := first
    rw [bind_of_ok left, bind_of_ok right]
    exact rest a s' t' related
  case error.error e s' f t' =>
    rw [bind_of_error left, bind_of_error right]
    exact first
  all_goals exact first.elim

theorem Sim.bind {m : EStateM ε σ α} {n : EStateM ε τ α} {f : α → EStateM ε σ β}
    {g : α → EStateM ε τ β} (first : Sim S m n) (rest : ∀ a, Sim S (f a) (g a)) :
    Sim S (m >>= f) (n >>= g) := fun s t related => (first s t related).bind rest

theorem Sim.map {m : EStateM ε σ α} {n : EStateM ε τ α} (sim : Sim S m n) (f : α → β) :
    Sim S (f <$> m) (f <$> n) := fun s t related => (sim s t related).map f

theorem sim_forEach {body : β → EStateM ε σ Unit} {body' : β → EStateM ε τ Unit} (step : ∀ b, Sim S (body b) (body' b))
    (list : List β) : Sim S (forEach body list) (forEach body' list) := by
  induction list with
  | nil => exact sim_pure ()
  | cons b rest ih => exact (step b).bind fun _ => ih

/-! ## Computations without a state -/

theorem except_bind_eq_ok {first : Except ε α} {rest : α → Except ε β} {b : β} :
    first >>= rest = .ok b ↔ ∃ a, first = .ok a ∧ rest a = .ok b := by
  cases first with
  | error e => simp [bind, Except.bind]
  | ok a => simp [bind, Except.bind]

end Effect
