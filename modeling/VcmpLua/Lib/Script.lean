import VcmpLua.Lib.Effect

/-! # Re-entrant scripts

A component that calls back into foreign code is verified against every behaviour that code can
have. `Script` is the type of these behaviours: a finite tree of requests, each with the code the
component may run while it serves the request (`inner`, one subtree for each call site) and with a
continuation for every reply. `run` interprets a tree over a component given by its request handler;
nesting is bounded by the tree, so every terminating run of the foreign code is a tree.
-/

open Effect

/-- What foreign code does from here to its end: `inner site` is what runs at `site` while the
request is served, `next` what follows its reply. -/
inductive Script (Op Site Reply ρ : Type) where
  | ret (value : ρ)
  | act (op : Op) (inner : Site → Script Op Site Reply ρ) (next : Reply → Script Op Site Reply ρ)

namespace Script

variable {Op Site Reply ρ ε σ τ : Type}

/-- Serve the requests of a script in order. -/
def run (serve : Op → (Site → EStateM ε σ ρ) → EStateM ε σ Reply) :
    Script Op Site Reply ρ → EStateM ε σ ρ
  | .ret value => pure value
  | .act op inner next => do
      let reply ← serve op (fun site => run serve (inner site))
      run serve (next reply)

/-- A relation that every request keeps, given that the code inside it does, is kept by scripts. -/
theorem keeps_run {R : σ → σ → Prop} [IsPreorder σ R]
    {serve : Op → (Site → EStateM ε σ ρ) → EStateM ε σ Reply}
    (step : ∀ op inner, (∀ site, Keeps R (inner site)) → Keeps R (serve op inner))
    (script : Script Op Site Reply ρ) : Keeps R (run serve script) := by
  induction script with
  | ret value => exact keeps_pure value
  | act op inner next innerKeeps nextKeeps => exact (step op _ innerKeeps).bind nextKeeps

/-- So is an invariant of the requests that are answered. -/
theorem triple_run {I : σ → Prop} {serve : Op → (Site → EStateM ε σ ρ) → EStateM ε σ Reply}
    (step : ∀ op inner, (∀ site, Triple I (inner site) I) → Triple I (serve op inner) I)
    (script : Script Op Site Reply ρ) : Triple I (run serve script) I := by
  induction script with
  | ret value => exact triple_pure value
  | act op inner next innerTriple nextTriple => exact (step op _ innerTriple).bind nextTriple

/-- So is a family of invariants that the code inside a request may need at another index. -/
theorem ends_run {κ : Type} {I : κ → σ → Prop} {E : ε → σ → Prop}
    {serve : Op → (Site → EStateM ε σ ρ) → EStateM ε σ Reply}
    (step : ∀ op inner, (∀ site k s, I k s → Ends (fun _ => I k) E (inner site s)) →
      ∀ k s, I k s → Ends (fun _ => I k) E (serve op inner s))
    (script : Script Op Site Reply ρ) (k : κ) (s : σ) (holds : I k s) :
    Ends (fun _ => I k) E (run serve script s) := by
  induction script generalizing k s with
  | ret value => exact holds
  | act op inner next innerEnds nextEnds =>
    exact (step op _ innerEnds k s holds).bind fun reply s' holds' => nextEnds reply k s' holds'

/-- So are the exceptions that every request can raise. -/
theorem raises_run {P : ε → Prop} {serve : Op → (Site → EStateM ε σ ρ) → EStateM ε σ Reply}
    (step : ∀ op inner, (∀ site, Raises P (inner site)) → Raises P (serve op inner))
    (script : Script Op Site Reply ρ) : Raises P (run serve script) := by
  induction script with
  | ret value => exact raises_pure value
  | act op inner next innerRaises nextRaises => exact (step op _ innerRaises).bind nextRaises

/-- Two request handlers that agree on every request, at every index of a family of relations,
agree on scripts. The index is what the enclosing calls contribute to the relation. -/
theorem sim_run {κ : Type} {S : κ → σ → τ → Prop}
    {serve : Op → (Site → EStateM ε σ ρ) → EStateM ε σ Reply}
    {serve' : Op → (Site → EStateM ε τ ρ) → EStateM ε τ Reply}
    (step : ∀ op inner inner', (∀ k site, Sim (S k) (inner site) (inner' site)) →
      ∀ k, Sim (S k) (serve op inner) (serve' op inner'))
    (script : Script Op Site Reply ρ) (k : κ) : Sim (S k) (run serve script) (run serve' script) := by
  induction script generalizing k with
  | ret value => exact sim_pure value
  | act op inner next innerSim nextSim =>
    exact (step op _ _ (fun k site => innerSim site k) k).bind fun reply => nextSim reply k

end Script
