/-
**The log: processes that run `begin_op`, `log_write` and `end_op`.**

Any number of processes take part. Every critical section under `log->lock`, every `commit` and
every `sleep` and `wakeup` is one atomic event. `begin_op` has two wait channels: `&log`, the
address of the global pointer, and `log`, the address it holds.

* `step` — one event.
* `beginOp_cases`, …, `kill_cases` — what an event can do.
-/

import Mathlib.Logic.Function.Basic
import Xv6Slab.Lib.Machine

set_option linter.unusedSectionVars false

namespace Xv6Slab

namespace Log

open Machine

/-- `MAXOPBLOCKS`. -/
abbrev maxopblocks : Nat := 10

/-- `LOGBLOCKS`. -/
abbrev logblocks : Nat := maxopblocks * 3

/-- The wait channels of `begin_op`: the address of the global variable `log`, and the address of
the `struct log` that it points to. -/
inductive Channel
  | addrOfLog
  | log
  deriving DecidableEq

/-- Where a process is. The blocks that an operation has logged, each once, are kept as history. -/
inductive Phase
  | outside
  | retry
  | sleeping (chan : Channel)
  | inOp (written : List Nat)
  | committing
  | committed
  deriving DecidableEq

/-- `struct log` with `lh.block[0..lh.n)` as a list, the processes, and the message of a `panic`. -/
structure State (Proc : Type) where
  outstanding : Int
  committing : Bool
  block : List Nat
  phase : Proc → Phase
  panic : Option String

/-- The atomic actions. `beginOp` is one round of the loop, `endOp` its first critical section,
`finish` its second one, and `kill` wakes a sleeping process whatever it waits for. -/
inductive Event (Proc : Type)
  | beginOp (p : Proc)
  | logWrite (p : Proc) (blockno : Nat)
  | endOp (p : Proc)
  | commit (p : Proc)
  | finish (p : Proc)
  | kill (p : Proc)

variable {Proc : Type} [DecidableEq Proc]

namespace State

variable (s : State Proc)

/-- `log->lh.n`. -/
def n : Nat := s.block.length

/-- A process moves to another point of its program. -/
def setPhase (p : Proc) (phase : Phase) : State Proc :=
  { s with phase := Function.update s.phase p phase }

/-- `wakeup`. -/
def wakeup (chan : Channel) : State Proc :=
  { s with phase := fun p => if s.phase p = .sleeping chan then .retry else s.phase p }

/-- The kernel stops. -/
def stop (message : String) : State Proc := { s with panic := some message }

/-- No operation in progress, an empty log. -/
def boot : State Proc where
  outstanding := 0
  committing := false
  block := []
  phase := fun _ => .outside
  panic := none

/-- One more operation fits: the condition under which `begin_op` does not wait for space. -/
def Admits : Prop := (s.n : Int) + (s.outstanding + 1) * maxopblocks ≤ logblocks

instance : Decidable s.Admits := inferInstanceAs (Decidable ((s.n : Int) + _ ≤ _))

end State

/-- One round of the loop in `begin_op`. -/
def beginOp (s : State Proc) (p : Proc) : State Proc :=
  if s.committing then s.setPhase p (.sleeping .addrOfLog)
  else if s.Admits then { s with outstanding := s.outstanding + 1 }.setPhase p (.inOp [])
  else s.setPhase p (.sleeping .log)

/-- `log_write` by an operation that has logged `written`. -/
def logWrite (s : State Proc) (p : Proc) (written : List Nat) (blockno : Nat) : State Proc :=
  if logblocks ≤ s.n then s.stop "too big a transaction"
  else if s.outstanding < 1 then s.stop "log_write outside of trans"
  else
    let s := if blockno ∈ s.block then s else { s with block := s.block ++ [blockno] }
    s.setPhase p (.inOp (written.insert blockno))

/-- The first critical section of `end_op`. -/
def endOp (s : State Proc) (p : Proc) : State Proc :=
  let s := { s with outstanding := s.outstanding - 1 }
  if s.committing then s.stop "log.committing"
  else if s.outstanding = 0 then { s with committing := true }.setPhase p .committing
  else (s.wakeup .addrOfLog).setPhase p .outside

/-- One atomic action. Nothing happens after a `panic`. -/
def step (s : State Proc) (e : Event Proc) : Option (State Proc) :=
  if s.panic ≠ none then none
  else
    match e with
    | .beginOp p =>
      match s.phase p with
      | .outside | .retry => some (beginOp s p)
      | .sleeping _ | .inOp _ | .committing | .committed => none
    | .logWrite p blockno =>
      match s.phase p with
      | .inOp written => some (logWrite s p written blockno)
      | .outside | .retry | .sleeping _ | .committing | .committed => none
    | .endOp p =>
      match s.phase p with
      | .inOp _ => some (endOp s p)
      | .outside | .retry | .sleeping _ | .committing | .committed => none
    | .commit p =>
      match s.phase p with
      | .committing => some ({ s with block := [] }.setPhase p .committed)
      | .outside | .retry | .sleeping _ | .inOp _ | .committed => none
    | .finish p =>
      match s.phase p with
      | .committed => some (({ s with committing := false }.wakeup .addrOfLog).setPhase p .outside)
      | .outside | .retry | .sleeping _ | .inOp _ | .committing => none
    | .kill p =>
      match s.phase p with
      | .sleeping _ => some (s.setPhase p .retry)
      | .outside | .retry | .inOp _ | .committing | .committed => some s

/-! ### Phases -/

section Phases

variable {s : State Proc} {p q : Proc} {phase : Phase}

theorem phase_setPhase_of_ne (ne : q ≠ p) : (s.setPhase p phase).phase q = s.phase q :=
  Function.update_of_ne ne ..

@[simp] theorem phase_setPhase_self : (s.setPhase p phase).phase p = phase :=
  Function.update_self ..

/-- A process that does not sleep moves independently of a `wakeup`. -/
theorem wakeup_setPhase {chan : Channel} (awake : phase ≠ .sleeping chan) :
    (s.wakeup chan).setPhase p phase = (s.setPhase p phase).wakeup chan := by
  have phases :
      ((s.wakeup chan).setPhase p phase).phase = ((s.setPhase p phase).wakeup chan).phase := by
    funext q
    simp only [State.wakeup]
    by_cases same : q = p
    · subst same
      simp only [phase_setPhase_self, if_neg awake]
    · simp only [phase_setPhase_of_ne same]
  exact congrArg (fun phases => { s with phase := phases }) phases

end Phases

/-! ### What an event can do -/

section Cases

variable {s s' : State Proc} {p : Proc}

theorem beginOp_cases (taken : step s (.beginOp p) = some s') : s.panic = none ∧
    (s.phase p = .outside ∨ s.phase p = .retry) ∧ s' = beginOp s p := by
  simp only [step, Option.ite_none_left_eq_some, ne_eq, not_not] at taken
  obtain ⟨running, taken⟩ := taken
  split at taken
  · exact ⟨running, Or.inl ‹_›, (Option.some.inj taken).symm⟩
  · exact ⟨running, Or.inr ‹_›, (Option.some.inj taken).symm⟩
  all_goals cases taken

theorem logWrite_cases {blockno : Nat} (taken : step s (.logWrite p blockno) = some s') :
    s.panic = none ∧ ∃ written, s.phase p = .inOp written ∧ s' = logWrite s p written blockno := by
  simp only [step, Option.ite_none_left_eq_some, ne_eq, not_not] at taken
  obtain ⟨running, taken⟩ := taken
  split at taken
  · exact ⟨running, _, ‹_›, (Option.some.inj taken).symm⟩
  all_goals cases taken

theorem endOp_cases (taken : step s (.endOp p) = some s') :
    s.panic = none ∧ ∃ written, s.phase p = .inOp written ∧ s' = endOp s p := by
  simp only [step, Option.ite_none_left_eq_some, ne_eq, not_not] at taken
  obtain ⟨running, taken⟩ := taken
  split at taken
  · exact ⟨running, _, ‹_›, (Option.some.inj taken).symm⟩
  all_goals cases taken

theorem commit_cases (taken : step s (.commit p) = some s') : s.panic = none ∧
    s.phase p = .committing ∧ s' = { s with block := [] }.setPhase p .committed := by
  simp only [step, Option.ite_none_left_eq_some, ne_eq, not_not] at taken
  obtain ⟨running, taken⟩ := taken
  split at taken
  · exact ⟨running, ‹_›, (Option.some.inj taken).symm⟩
  all_goals cases taken

theorem finish_cases (taken : step s (.finish p) = some s') : s.panic = none ∧
    s.phase p = .committed ∧
    s' = ({ s with committing := false }.wakeup .addrOfLog).setPhase p .outside := by
  simp only [step, Option.ite_none_left_eq_some, ne_eq, not_not] at taken
  obtain ⟨running, taken⟩ := taken
  split at taken
  · exact ⟨running, ‹_›, (Option.some.inj taken).symm⟩
  all_goals cases taken

theorem kill_cases (taken : step s (.kill p) = some s') : s.panic = none ∧
    (s' = s ∨ (∃ chan, s.phase p = .sleeping chan) ∧ s' = s.setPhase p .retry) := by
  simp only [step, Option.ite_none_left_eq_some, ne_eq, not_not] at taken
  obtain ⟨running, taken⟩ := taken
  split at taken
  · exact ⟨running, Or.inr ⟨⟨_, ‹_›⟩, (Option.some.inj taken).symm⟩⟩
  all_goals exact ⟨running, Or.inl (Option.some.inj taken).symm⟩

end Cases

end Log

end Xv6Slab
