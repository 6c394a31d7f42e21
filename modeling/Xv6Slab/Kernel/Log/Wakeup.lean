/-
**Lost wakeups in the log.**

`begin_op` sleeps on `&log` while a commit is under way, and on `log` while there is no space. Both
`wakeup` calls are on `&log`.

* `WaitsForCommit` — the sleepers of `begin_op` lose no wakeup, in the terms of `Sleepers`.
* `noLostWakeup_of_noSpaceWait` — **as long as nobody has to wait for space, no wakeup is lost.**
* `asleep_forever` — **whoever waits for space is never woken**, unless it is killed.
* `spaceWait_lost` — a run of four processes in which this happens.
-/

import Xv6Slab.Kernel.Log.Model
import Xv6Slab.Lib.Sleepers

set_option linter.unusedSectionVars false

namespace Xv6Slab

namespace Log

open Machine

variable {Proc : Type} [DecidableEq Proc]

/-! ### Waiting -/

/-- No process sleeps in `begin_op` although it would be admitted. -/
structure NoLostWakeup (s : State Proc) : Prop where
  admitted : s.committing = false → s.Admits → ∀ p chan, s.phase p ≠ .sleeping chan
  idle : s.outstanding = 0 → s.committing = false → ∀ p chan, s.phase p ≠ .sleeping chan

/-- No `begin_op` takes the branch that waits for space. -/
def NoSpaceWait (s : State Proc) : Event Proc → Prop
  | .beginOp _ => s.committing = true ∨ s.Admits
  | .logWrite .. | .endOp _ | .commit _ | .finish _ | .kill _ => True

/-- The channel that a process sleeps on. -/
def Phase.chan : Phase → Option Channel
  | sleeping chan => some chan
  | outside | retry | inOp _ | committing | committed => none

/-- Who sleeps, and where. -/
def State.asleep (s : State Proc) : Proc → Option Channel := Phase.chan ∘ s.phase

/-- Whoever sleeps waits for the commit under way, on the channel that its end wakes. -/
def WaitsForCommit (s : State Proc) : Prop :=
  Sleepers.NoneLost (fun chan => chan = .addrOfLog ∧ s.committing = true) s.asleep

section Waiting

variable {s s' : State Proc} {p q : Proc} {chan : Channel} {phase : Phase}
  {waiting waiting' : Channel → Prop}

theorem asleep_eq_some : s.asleep p = some chan ↔ s.phase p = .sleeping chan := by
  unfold State.asleep Function.comp
  cases s.phase p <;> simp [Phase.chan]

theorem asleep_setPhase : (s.setPhase p phase).asleep = Function.update s.asleep p phase.chan :=
  Function.comp_update ..

theorem asleep_wakeup : (s.wakeup chan).asleep = Sleepers.wakeup s.asleep chan := by
  funext q
  by_cases woken : s.phase q = .sleeping chan
  · simp [State.asleep, State.wakeup, Sleepers.wakeup, woken, Phase.chan]
  · rw [Sleepers.wakeup, if_neg fun asleep => woken (asleep_eq_some.mp asleep)]
    simp only [State.asleep, State.wakeup, Function.comp, if_neg woken]

/-- A process moves to a place where it does not sleep. -/
theorem noneLost_setPhase (noneLost : Sleepers.NoneLost waiting s.asleep)
    (awake : phase.chan = none) : Sleepers.NoneLost waiting (s.setPhase p phase).asleep := by
  rw [asleep_setPhase, awake]
  exact noneLost.rouse

/-- After a `wakeup` on `&log` nobody sleeps: nobody slept elsewhere. -/
theorem WaitsForCommit.wakeup (waits : WaitsForCommit s) :
    Sleepers.NoneLost waiting (s.wakeup .addrOfLog).asleep := by
  rw [asleep_wakeup]
  exact Sleepers.NoneLost.wakeup waits fun d ne was => absurd was.1 ne

theorem WaitsForCommit.beginOp (waits : WaitsForCommit s) (space : s.committing = true ∨ s.Admits) :
    WaitsForCommit (Log.beginOp s p) := by
  unfold Log.beginOp
  by_cases committing : s.committing = true
  · rw [if_pos committing]
    unfold WaitsForCommit
    rw [asleep_setPhase]
    exact Sleepers.NoneLost.sleep waits ⟨rfl, committing⟩
  · rw [if_neg committing, if_pos (space.resolve_left committing)]
    exact noneLost_setPhase waits rfl

theorem WaitsForCommit.logWrite (waits : WaitsForCommit s) (written : List Nat) (blockno : Nat) :
    WaitsForCommit (Log.logWrite s p written blockno) := by
  unfold Log.logWrite
  split_ifs
  · exact waits
  · exact waits
  · exact noneLost_setPhase waits rfl
  · exact noneLost_setPhase (s := { s with block := s.block ++ [blockno] }) waits rfl

theorem WaitsForCommit.endOp (waits : WaitsForCommit s) : WaitsForCommit (Log.endOp s p) := by
  have counted : WaitsForCommit { s with outstanding := s.outstanding - 1 } := waits
  unfold Log.endOp
  simp only
  split_ifs
  · exact waits
  · exact noneLost_setPhase (s := { s with outstanding := s.outstanding - 1, committing := true })
      (Sleepers.NoneLost.mono waits fun _ was => ⟨was.1, rfl⟩) rfl
  · exact noneLost_setPhase counted.wakeup rfl

/-- Every step without a wait for space keeps it. -/
theorem WaitsForCommit.step (waits : WaitsForCommit s) {e : Event Proc} (space : NoSpaceWait s e)
    (taken : Log.step s e = some s') : WaitsForCommit s' := by
  cases e with
  | beginOp p =>
    obtain ⟨_, _, rfl⟩ := beginOp_cases taken
    exact waits.beginOp space
  | logWrite p blockno =>
    obtain ⟨_, written, _, rfl⟩ := logWrite_cases taken
    exact waits.logWrite written blockno
  | endOp p =>
    obtain ⟨_, _, _, rfl⟩ := endOp_cases taken
    exact waits.endOp
  | commit p =>
    obtain ⟨_, _, rfl⟩ := commit_cases taken
    exact noneLost_setPhase (s := { s with block := [] }) waits rfl
  | finish p =>
    obtain ⟨_, _, rfl⟩ := finish_cases taken
    refine noneLost_setPhase ?_ rfl
    exact waits.wakeup
  | kill p =>
    obtain ⟨_, rfl | ⟨_, rfl⟩⟩ := kill_cases taken
    · exact waits
    · exact noneLost_setPhase waits rfl

theorem WaitsForCommit.noLostWakeup (waits : WaitsForCommit s) : NoLostWakeup s := by
  have awake : s.committing = false → ∀ p chan, s.phase p ≠ .sleeping chan := by
    intro notCommitting p chan asleep
    rw [(waits p chan (asleep_eq_some.mpr asleep)).2] at notCommitting
    cases notCommitting
  exact ⟨fun notCommitting _ => awake notCommitting, fun _ notCommitting => awake notCommitting⟩

end Waiting

instance (s : State Proc) : ∀ e, Decidable (NoSpaceWait s e)
  | .beginOp _ => inferInstanceAs (Decidable (s.committing = true ∨ s.Admits))
  | .logWrite .. | .endOp _ | .commit _ | .finish _ | .kill _ => inferInstanceAs (Decidable True)

/-- **In every run in which no `begin_op` has to wait for space, no wakeup is lost.** -/
theorem noLostWakeup_of_noSpaceWait (events : List (Event Proc)) {s : State Proc}
    (reached : run step State.boot events = some s)
    (space : Along step NoSpaceWait State.boot events) :
    NoLostWakeup s := by
  have initial : WaitsForCommit (State.boot : State Proc) := fun _ _ asleep => by cases asleep
  exact (inv_of_run (fun _ _ _ waits allowed taken => waits.step allowed taken) events initial space
    reached).noLostWakeup

/-- One process commits while another one waits for the end of the commit. -/
theorem noLostWakeup_of_noSpaceWait_twoProcs : ∃ s : State (Fin 2),
    run step State.boot [.beginOp 0, .logWrite 0 7, .endOp 0, .beginOp 1, .commit 0, .finish 0,
      .beginOp 1] = some s ∧ NoLostWakeup s :=
  ⟨_, rfl, noLostWakeup_of_noSpaceWait [.beginOp 0, .logWrite 0 7, .endOp 0, .beginOp 1, .commit 0,
    .finish 0, .beginOp 1] rfl (by decide)⟩

/-- **A process that waits for space is never woken.** Three operations fill the log; the fourth
process sleeps on `log`. When all three have ended and committed, it still sleeps, although the log
is empty. -/
theorem spaceWait_lost : ∃ s : State (Fin 4),
    run step State.boot [.beginOp 0, .beginOp 1, .beginOp 2, .beginOp 3, .endOp 0,
      .endOp 1, .endOp 2, .commit 2, .finish 2] = some s ∧
    s.committing = false ∧ s.outstanding = 0 ∧ s.Admits ∧ s.phase 3 = .sleeping .log ∧
    ¬ NoLostWakeup s :=
  ⟨_, rfl, rfl, rfl, by decide, rfl, fun holds => holds.idle rfl rfl 3 .log rfl⟩

/-- Whether an event may wake a process that waits for space: only `kkill` does. -/
def NotKilled (p : Proc) (_ : State Proc) : Event Proc → Prop
  | .kill q => q ≠ p
  | .beginOp _ | .logWrite .. | .endOp _ | .commit _ | .finish _ => True

theorem asleep_step {s s' : State Proc} {p : Proc} {e : Event Proc}
    (asleep : s.phase p = .sleeping .log) (alive : NotKilled p s e) (taken : step s e = some s') :
    s'.phase p = .sleeping .log := by
  have woken : ∀ t : State Proc, t.phase p = .sleeping .log →
      (t.wakeup .addrOfLog).phase p = .sleeping .log := by
    intro t asleep
    simp only [State.wakeup, asleep, reduceCtorEq, Phase.sleeping.injEq, if_false]
  have other : ∀ {q : Proc} {t : State Proc} {phase : Phase}, s.phase q ≠ .sleeping .log →
      t.phase p = .sleeping .log → (t.setPhase q phase).phase p = .sleeping .log := by
    intro q t phase awake asleep'
    rw [phase_setPhase_of_ne]
    · exact asleep'
    · rintro rfl
      exact awake asleep
  cases e with
  | beginOp q =>
    obtain ⟨_, ready, rfl⟩ := beginOp_cases taken
    have awake : s.phase q ≠ .sleeping .log := by
      rcases ready with eq | eq <;> rw [eq] <;> exact fun same => by cases same
    unfold beginOp
    split
    · exact other awake asleep
    · split <;> exact other awake asleep
  | logWrite q blockno =>
    obtain ⟨_, written, inOp, rfl⟩ := logWrite_cases taken
    have awake : s.phase q ≠ .sleeping .log := by
      rw [inOp]
      exact fun same => by cases same
    unfold logWrite
    split
    · exact asleep
    · split
      · exact asleep
      · simp only
        split <;> exact other awake asleep
  | endOp q =>
    obtain ⟨_, written, inOp, rfl⟩ := endOp_cases taken
    have awake : s.phase q ≠ .sleeping .log := by
      rw [inOp]
      exact fun same => by cases same
    unfold endOp
    simp only
    split
    · exact asleep
    · split
      · exact other awake asleep
      · exact other awake (woken _ asleep)
  | commit q =>
    obtain ⟨_, atCommit, rfl⟩ := commit_cases taken
    refine other ?_ asleep
    rw [atCommit]
    exact fun same => by cases same
  | finish q =>
    obtain ⟨_, done, rfl⟩ := finish_cases taken
    refine other ?_ (woken _ asleep)
    rw [done]
    exact fun same => by cases same
  | kill q =>
    obtain ⟨_, rfl | ⟨_, rfl⟩⟩ := kill_cases taken
    · exact asleep
    · rw [phase_setPhase_of_ne (Ne.symm alive)]
      exact asleep

/-- **Whoever waits for space sleeps forever**, whatever the others do, unless it is killed. -/
theorem asleep_forever (p : Proc) (events : List (Event Proc)) {s s' : State Proc}
    (asleep : s.phase p = .sleeping .log) (alive : Along step (NotKilled p) s events)
    (reached : run step s events = some s') : s'.phase p = .sleeping .log := by
  have keeps : ∀ (s : State Proc) e t, s.phase p = .sleeping .log → NotKilled p s e →
      step s e = some t →
      t.phase p = .sleeping .log := fun _ _ _ asleep alive taken => asleep_step asleep alive taken
  exact inv_of_run keeps events asleep alive reached

end Log

end Xv6Slab
