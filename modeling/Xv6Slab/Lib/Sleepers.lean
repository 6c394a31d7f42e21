/-
**Threads that sleep on wait channels.**

A thread sleeps on a channel until another one wakes the channel. Every channel stands for a
condition that its sleepers wait out; a wakeup is lost when the condition has ended and a thread
still sleeps.

* `wakeup`, `sleep`, `rouse` — the moves on a map from threads to channels.
* `NoneLost` — whoever sleeps still has to wait; `NoneLost.wakeup`, `NoneLost.sleep`,
  `NoneLost.rouse` keep it.
-/

import Mathlib.Logic.Function.Basic

set_option linter.unusedSectionVars false

namespace Sleepers

variable {ι χ : Type} [DecidableEq ι] [DecidableEq χ] {asleep : ι → Option χ}
  {waits waits' : χ → Prop} {t u : ι} {c d : χ}

/-- Everyone who sleeps on a channel wakes up. -/
def wakeup (asleep : ι → Option χ) (c : χ) : ι → Option χ :=
  fun t => if asleep t = some c then none else asleep t

/-- A thread goes to sleep. -/
def sleep (asleep : ι → Option χ) (t : ι) (c : χ) : ι → Option χ :=
  Function.update asleep t (some c)

/-- A thread is woken whatever it waits for. -/
def rouse (asleep : ι → Option χ) (t : ι) : ι → Option χ := Function.update asleep t none

theorem wakeup_eq_some : wakeup asleep c t = some d ↔ asleep t = some d ∧ d ≠ c := by
  unfold wakeup
  by_cases here : asleep t = some c
  · rw [if_pos here, here]
    exact iff_of_false nofun fun other => other.2 (Option.some.inj other.1).symm
  · rw [if_neg here]
    refine ⟨fun asleepOn => ⟨asleepOn, ?_⟩, And.left⟩
    rintro rfl
    exact here asleepOn

/-- **No wakeup is lost**: whoever sleeps still has to wait. -/
def NoneLost (waits : χ → Prop) (asleep : ι → Option χ) : Prop := ∀ t c, asleep t = some c → waits c

namespace NoneLost

theorem mono (noneLost : NoneLost waits asleep) (still : ∀ c, waits c → waits' c) :
    NoneLost waits' asleep :=
  fun t c asleepOn => still c (noneLost t c asleepOn)

/-- A wakeup is needed for the channels whose condition has ended. -/
theorem wakeup (noneLost : NoneLost waits asleep) (still : ∀ d ≠ c, waits d → waits' d) :
    NoneLost waits' (wakeup asleep c) := by
  intro t d asleepOn
  obtain ⟨before, other⟩ := wakeup_eq_some.mp asleepOn
  exact still d other (noneLost t d before)

/-- A thread may sleep as long as it has to wait. -/
theorem sleep (noneLost : NoneLost waits asleep) (must : waits c) :
    NoneLost waits (sleep asleep t c) := by
  intro u d asleepOn
  by_cases same : u = t
  · rw [same, Sleepers.sleep, Function.update_self] at asleepOn
    exact Option.some.inj asleepOn ▸ must
  · rw [Sleepers.sleep, Function.update_of_ne same] at asleepOn
    exact noneLost u d asleepOn

theorem rouse (noneLost : NoneLost waits asleep) : NoneLost waits (rouse asleep t) := by
  intro u d asleepOn
  by_cases same : u = t
  · rw [same, Sleepers.rouse, Function.update_self] at asleepOn
    cases asleepOn
  · rw [Sleepers.rouse, Function.update_of_ne same] at asleepOn
    exact noneLost u d asleepOn

end NoneLost

end Sleepers
