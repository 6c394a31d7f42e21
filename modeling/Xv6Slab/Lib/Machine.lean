/-
**Runs of a state machine given by a partial step function.**

`run step s events` takes one step for each event, and fails when an event is not possible. A run is
`Along` a guard when every event meets the guard in the state before it.

* `inv_of_run` — what every guarded step keeps holds after every guarded run; `inv_of_steps` without
  a guard.
* `decidableAlong` — whether a given run meets a decidable guard can be computed.
* `loop_of_steps` — a counting loop that may fail: the invariant is indexed by the number of rounds.
-/

import Mathlib.Data.Option.Basic
import Mathlib.Tactic
import Mathlib.Order.CompletePartialOrder

namespace Machine

variable {σ ε : Type} {step : σ → ε → Option σ} {guard : σ → ε → Prop} {s s' : σ} {e : ε}
  {events : List ε}

/-- One step for each event. -/
def run (step : σ → ε → Option σ) (s : σ) (events : List ε) : Option σ := events.foldlM step s

@[simp] theorem run_nil : run step s [] = some s := rfl

@[simp] theorem run_cons : run step s (e :: events) = (step s e).bind fun t => run step t events :=
  rfl

/-- Every event of a run meets a guard in the state before it. -/
def Along (step : σ → ε → Option σ) (guard : σ → ε → Prop) : σ → List ε → Prop
  | _, [] => True
  | s, e :: events => guard s e ∧ ∀ t, step s e = some t → Along step guard t events

/-- A run that meets two guards meets both at once. -/
theorem Along.and {guard' : σ → ε → Prop} : ∀ {events : List ε} {s : σ}, Along step guard s events →
    Along step guard' s events → Along step (fun s e => guard s e ∧ guard' s e) s events
  | [], _, _, _ => trivial
  | _ :: _, _, ⟨here, rest⟩, ⟨here', rest'⟩ =>
    ⟨⟨here, here'⟩, fun t taken => Along.and (rest t taken) (rest' t taken)⟩

/-- A run that meets a guard meets a weaker one. -/
theorem Along.mono {guard' : σ → ε → Prop} (weaker : ∀ s e, guard s e → guard' s e) :
    ∀ {events : List ε} {s : σ}, Along step guard s events → Along step guard' s events
  | [], _, _ => trivial
  | _ :: _, _, ⟨here, rest⟩ => ⟨weaker _ _ here, fun t taken => Along.mono weaker (rest t taken)⟩

/-- A guard that the events meet in every state. -/
theorem Along.of_forall : ∀ {events : List ε}, (∀ e ∈ events, ∀ s, guard s e) →
    ∀ {s : σ}, Along step guard s events
  | [], _, _ => trivial
  | _ :: _, each,
    s => ⟨each _ List.mem_cons_self s, fun _ _ => Along.of_forall fun e member =>
      each e (List.mem_cons_of_mem _ member)⟩

/-- What every guarded step keeps holds after every guarded run. -/
theorem inv_of_run {inv : σ → Prop}
    (keeps : ∀ s e s', inv s → guard s e → step s e = some s' → inv s') :
    ∀ (events : List ε) {s s' : σ}, inv s → Along step guard s events →
      run step s events = some s' → inv s'
  | [], _, _, holds, _, reached => Option.some.inj reached ▸ holds
  | e :: events, s, s', holds, ⟨allowed, rest⟩, reached => by
    obtain ⟨t, first, later⟩ := Option.bind_eq_some_iff.mp reached
    exact inv_of_run keeps events (keeps s e t holds allowed first) (rest t first) later

/-- What every step keeps holds after every run. -/
theorem inv_of_steps {inv : σ → Prop} (keeps : ∀ s e s', inv s → step s e = some s' → inv s')
    (holds : inv s) (reached : run step s events = some s') : inv s' := by
  have free : Along step (fun _ _ => True) s events := .of_forall fun _ _ _ => trivial
  exact inv_of_run (fun s e t holds _ => keeps s e t holds) events holds free reached

/-- A run along a guard can be checked step by step. -/
instance decidableAlong [∀ s e, Decidable (guard s e)] :
    ∀ (s : σ) (events : List ε), Decidable (Along step guard s events)
  | _, [] => isTrue trivial
  | s, e :: events =>
    match taken : step s e with
    | none => decidable_of_iff (guard s e) (by simp [Along, taken])
    | some t =>
      have := decidableAlong t events
      decidable_of_iff (guard s e ∧ Along step guard t events) (by simp [Along, taken])

/-- A loop over the numbers below a bound returns when every round does. -/
theorem loop_of_steps {φ : Type} {body : σ → Nat → Except φ σ} (inv : Nat → σ → Prop)
    (start : inv 0 s) :
    ∀ {n : Nat}, (∀ i < n, ∀ s, inv i s → ∃ s', body s i = .ok s' ∧ inv (i + 1) s') →
      ∃ s', (List.range n).foldlM body s = .ok s' ∧ inv n s'
  | 0, _ => ⟨s, rfl, start⟩
  | n + 1, round => by
    obtain ⟨t, run, holds⟩ := loop_of_steps inv start fun i lt => round i (Nat.lt_succ_of_lt lt)
    obtain ⟨s', last, holds'⟩ := round n (Nat.lt_succ_self n) t holds
    refine ⟨s', ?_, holds'⟩
    rw [List.range_succ, List.foldlM_append, run]
    show ([n].foldlM body t) = _
    rw [List.foldlM_cons, last]
    rfl

end Machine
