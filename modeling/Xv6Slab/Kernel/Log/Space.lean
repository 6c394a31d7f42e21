/-
**Space in the log.**

Every operation reserves `MAXOPBLOCKS` blocks when it begins. The blocks in the log and what the
operations in progress may still log never exceed `LOGBLOCKS`.

* `Inv` — the invariant, with the reservations summed over the operations in progress.
* `Inv.full_repeats` — on a full log, an operation that keeps its reservation can only log a block
  again.
* `reserved_of_noRepeat` — **the bounds hold and nothing panics as long as nobody does that.**
* `fullLog_panics` — then `log_write` panics, because it checks for a full log before it looks for
  the block.
-/

import Mathlib.Algebra.BigOperators.Group.Finset.Basic
import Mathlib.Algebra.Order.BigOperators.Group.Finset
import Mathlib.Data.Set.Card
import Xv6Slab.Kernel.Log.Model

set_option linter.unusedSectionVars false

namespace Xv6Slab

namespace Log

open Machine

variable {Proc : Type} [DecidableEq Proc]

/-! ### Reserving space -/

namespace Phase

/-- The blocks logged by an operation in progress. -/
def written : Phase → Option (List Nat)
  | inOp written => some written
  | outside | retry | sleeping _ | committing | committed => none

/-- Whether the process is between the two critical sections of `end_op`. -/
def commits : Phase → Bool
  | committing | committed => true
  | outside | retry | sleeping _ | inOp _ => false

/-- What an operation in progress may still log. -/
def room : Phase → Nat
  | inOp written => maxopblocks - written.length
  | outside | retry | sleeping _ | committing | committed => 0

theorem room_eq (phase : Phase) :
    phase.room = phase.written.elim 0 fun written => maxopblocks - written.length := by
  cases phase <;> rfl

theorem room_le (phase : Phase) : phase.room ≤ maxopblocks := by
  cases phase <;> simp [room]

theorem written_eq_some {phase : Phase} {written : List Nat} :
    phase.written = some written ↔ phase = .inOp written := by
  cases phase <;> simp [Phase.written]

end Phase

/-- The log is within its bounds, and `outstanding` counts the operations in progress. -/
structure Reserved (s : State Proc) : Prop where
  bounded : s.n ≤ logblocks
  nodup : s.block.Nodup
  finite : {p | ∃ written, s.phase p = .inOp written}.Finite
  outstanding : s.outstanding = {p | ∃ written, s.phase p = .inOp written}.ncard
  running : s.panic = none

/-- An operation logs at most `MAXOPBLOCKS` distinct blocks. -/
def Disciplined (s : State Proc) : Event Proc → Prop
  | .logWrite p blockno => (((s.phase p).written.getD []).insert blockno).length ≤ maxopblocks
  | .beginOp _ | .endOp _ | .commit _ | .finish _ | .kill _ => True

/-- On a full log no operation logs one of its own blocks again. -/
def NoRepeat (s : State Proc) : Event Proc → Prop
  | .logWrite p blockno => s.n = logblocks → blockno ∉ (s.phase p).written.getD []
  | .beginOp _ | .endOp _ | .commit _ | .finish _ | .kill _ => True

instance (s : State Proc) : ∀ e, Decidable (Disciplined s e)
  | .logWrite p blockno =>
    inferInstanceAs
      (Decidable ((((s.phase p).written.getD []).insert blockno).length ≤ maxopblocks))
  | .beginOp _ | .endOp _ | .commit _ | .finish _ | .kill _ => inferInstanceAs (Decidable True)

instance (s : State Proc) : ∀ e, Decidable (NoRepeat s e)
  | .logWrite p blockno =>
    inferInstanceAs (Decidable (s.n = logblocks → blockno ∉ (s.phase p).written.getD []))
  | .beginOp _ | .endOp _ | .commit _ | .finish _ | .kill _ => inferInstanceAs (Decidable True)

/-- What is logged and what the operations in progress may still log fits, and a commit runs
alone. -/
structure Inv (s : State Proc) : Prop where
  running : s.panic = none
  nodup : s.block.Nodup
  logged : ∀ p written, (s.phase p).written = some written →
    written.Nodup ∧ written.length ≤ maxopblocks ∧ ∀ b ∈ written, b ∈ s.block
  space : ∃ active : Finset Proc, (∀ p, p ∈ active ↔ (s.phase p).written ≠ none) ∧
    s.outstanding = active.card ∧ s.n + ∑ p ∈ active, (s.phase p).room ≤ logblocks
  alone : s.committing = true → ∀ p, (s.phase p).written = none
  committer : ∀ p, (s.phase p).commits = true → s.committing = true
  single : ∀ p q, (s.phase p).commits = true → (s.phase q).commits = true → p = q

theorem inv_boot : Inv (State.boot : State Proc) where
  running := rfl
  nodup := List.nodup_nil
  logged := fun _ _ absurd => by cases absurd
  space := ⟨∅, fun _ => ⟨fun absurd => by simp at absurd, fun absurd => (absurd rfl).elim⟩, rfl, by
    simp [State.n, State.boot]⟩
  alone := fun absurd => by cases absurd
  committer := fun _ absurd => by cases absurd
  single := fun _ _ absurd => by cases absurd

section Reserving

variable {s s' : State Proc} {p q : Proc}

/-- The invariant does not tell apart processes that are outside, asleep or about to try again. -/
theorem Inv.congr (inv : Inv s) (panic : s'.panic = s.panic) (block : s'.block = s.block)
    (outstanding : s'.outstanding = s.outstanding) (committing : s'.committing = s.committing)
    (written : ∀ q, (s'.phase q).written = (s.phase q).written)
    (commits : ∀ q, (s'.phase q).commits = (s.phase q).commits) : Inv s' := by
  refine ⟨panic.trans inv.running, ?_, ?_, ?_, ?_, ?_, ?_⟩
  · rw [block]
    exact inv.nodup
  · intro q w isWritten
    rw [written] at isWritten
    rw [block]
    exact inv.logged q w isWritten
  · obtain ⟨active, mem, card, fits⟩ := inv.space
    refine ⟨active, ?_, outstanding.trans card, ?_⟩
    · intro q
      rw [written]
      exact mem q
    · have rooms : ∀ q ∈ active, (s'.phase q).room = (s.phase q).room := by
        intro q _
        rw [Phase.room_eq, Phase.room_eq, written]
      rw [Finset.sum_congr rfl rooms, State.n, block]
      exact fits
  · intro isCommitting q
    rw [written]
    exact inv.alone (committing ▸ isCommitting) q
  · intro q isCommitter
    rw [commits] at isCommitter
    rw [committing]
    exact inv.committer q isCommitter
  · intro q r first second
    rw [commits] at first second
    exact inv.single q r first second

/-- A process that is in no operation and does not commit moves without entering one. -/
theorem Inv.idle (inv : Inv s) {phase : Phase} (before : (s.phase p).written = none)
    (quiet : (s.phase p).commits = false) (after : phase.written = none)
    (after' : phase.commits = false) : Inv (s.setPhase p phase) := by
  refine inv.congr rfl rfl rfl rfl ?_ ?_
  · intro q
    by_cases same : q = p
    · rw [same, phase_setPhase_self, after, before]
    · rw [phase_setPhase_of_ne same]
  · intro q
    by_cases same : q = p
    · rw [same, phase_setPhase_self, after', quiet]
    · rw [phase_setPhase_of_ne same]

theorem Inv.wakeup (inv : Inv s) (chan : Channel) : Inv (s.wakeup chan) := by
  refine inv.congr rfl rfl rfl rfl ?_ ?_
  all_goals
    intro q
    simp only [State.wakeup]
    by_cases woken : s.phase q = .sleeping chan
    · rw [if_pos woken, woken]
      rfl
    · rw [if_neg woken]

/-- The processes in an operation, after one of them changed phase. -/
theorem sum_room_setPhase {active : Finset Proc} (t : State Proc)
    (same : ∀ q, t.phase q = s.phase q) (member : p ∈ active) (phase : Phase) :
    ∑ q ∈ active, ((t.setPhase p phase).phase q).room + (s.phase p).room =
      ∑ q ∈ active, (s.phase q).room + phase.room := by
  rw [← Finset.add_sum_erase _ _ member,
    ← Finset.add_sum_erase active (fun q => (s.phase q).room) member]
  have others : ∑ q ∈ active.erase p, ((t.setPhase p phase).phase q).room =
      ∑ q ∈ active.erase p, (s.phase q).room := by
    refine Finset.sum_congr rfl ?_
    intro q other
    rw [phase_setPhase_of_ne (Finset.ne_of_mem_erase other), same]
  rw [others, phase_setPhase_self]
  omega

/-- An operation is admitted. -/
theorem Inv.admit (inv : Inv s) (before : (s.phase p).written = none)
    (quiet : (s.phase p).commits = false) (idle : s.committing = false) (admits : s.Admits) :
    Inv ({ s with outstanding := s.outstanding + 1 }.setPhase p (.inOp [])) := by
  obtain ⟨active, mem, card, fits⟩ := inv.space
  have fresh : p ∉ active := by
    rw [mem]
    exact not_not.mpr before
  refine ⟨inv.running, inv.nodup, ?_, ⟨insert p active, ?_, ?_, ?_⟩, ?_, ?_, ?_⟩
  · intro q w isWritten
    by_cases same : q = p
    · rw [same, phase_setPhase_self] at isWritten
      obtain rfl : [] = w := Option.some.inj isWritten
      exact ⟨List.nodup_nil, Nat.zero_le _, fun _ absurd => by cases absurd⟩
    · rw [phase_setPhase_of_ne same] at isWritten
      exact inv.logged q w isWritten
  · intro q
    by_cases same : q = p
    · subst same
      rw [phase_setPhase_self]
      simp [Phase.written]
    · rw [phase_setPhase_of_ne same, Finset.mem_insert, mem]
      simp [same]
  · rw [Finset.card_insert_of_notMem fresh]
    show s.outstanding + 1 = _
    rw [card]
    push_cast
    rfl
  · -- everybody in progress may log as many blocks as the check in `begin_op` has counted
    have rooms : ∑ q ∈ active, (s.phase q).room ≤ active.card * maxopblocks :=
      Finset.sum_le_card_nsmul _ _ _ fun q _ => Phase.room_le _
    rw [Finset.sum_insert fresh, phase_setPhase_self]
    have others : ∑ q ∈ active, (({ s with outstanding := s.outstanding + 1 }.setPhase p
        (.inOp [])).phase q).room = ∑ q ∈ active, (s.phase q).room := by
      refine Finset.sum_congr rfl ?_
      intro q member
      rw [phase_setPhase_of_ne]
      rintro rfl
      exact fresh member
    rw [others]
    unfold State.Admits at admits
    rw [card] at admits
    simp only [State.n, State.setPhase, Phase.room, List.length_nil, maxopblocks, logblocks]
      at admits rooms ⊢
    omega
  · intro absurd
    rw [show _ = s.committing from rfl, idle] at absurd
    cases absurd
  · intro q isCommitter
    by_cases same : q = p
    · rw [same, phase_setPhase_self] at isCommitter
      cases isCommitter
    · rw [phase_setPhase_of_ne same] at isCommitter
      exact inv.committer q isCommitter
  · intro q r first second
    have notSelf :
        ∀ q, (({ s with outstanding := s.outstanding + 1 }.setPhase p (.inOp [])).phase q).commits
        = true → (s.phase q).commits = true := by
      intro q isCommitter
      by_cases same : q = p
      · rw [same, phase_setPhase_self] at isCommitter
        cases isCommitter
      · rwa [phase_setPhase_of_ne same] at isCommitter
    exact inv.single q r (notSelf q first) (notSelf r second)

/-- An operation logs a block: what the log grows by, the operation may log less. -/
theorem Inv.relog (inv : Inv s) {written written' block : List Nat}
    (inOp : s.phase p = .inOp written) (nodup : block.Nodup) (grows : ∀ b ∈ s.block, b ∈ block)
    (logged : written'.Nodup ∧ written'.length ≤ maxopblocks ∧ ∀ b ∈ written', b ∈ block)
    (fits : block.length + written.length ≤ s.block.length + written'.length) :
    Inv ({ s with block := block }.setPhase p (.inOp written')) := by
  have isWritten : (s.phase p).written = some written := by rw [inOp]; rfl
  have notCommits :
      ∀ q, (({ s with block := block }.setPhase p (.inOp written')).phase q).commits = true →
      (s.phase q).commits = true := by
    intro q isCommitter
    by_cases same : q = p
    · rw [same, phase_setPhase_self] at isCommitter
      cases isCommitter
    · rwa [phase_setPhase_of_ne same] at isCommitter
  obtain ⟨active, mem, card, space⟩ := inv.space
  have member : p ∈ active := by
    rw [mem, isWritten]
    exact Option.some_ne_none _
  refine ⟨inv.running, nodup, ?_, ⟨active, ?_, card, ?_⟩, ?_, ?_, ?_⟩
  · intro q w isLogged
    by_cases same : q = p
    · rw [same, phase_setPhase_self] at isLogged
      obtain rfl : written' = w := Option.some.inj isLogged
      exact logged
    · rw [phase_setPhase_of_ne same] at isLogged
      obtain ⟨distinct, few, inLog⟩ := inv.logged q w isLogged
      exact ⟨distinct, few, fun b inW => grows b (inLog b inW)⟩
  · intro q
    by_cases same : q = p
    · subst same
      rw [phase_setPhase_self]
      simp [Phase.written, member]
    · rw [phase_setPhase_of_ne same]
      exact mem q
  · have sums :=
      sum_room_setPhase (s := s) { s with block := block } (fun _ => rfl) member (.inOp written')
    have few := (inv.logged p written isWritten).2.1
    rw [inOp] at sums
    simp only [Phase.room, State.n, State.setPhase] at sums space ⊢
    have few' := logged.2.1
    omega
  · intro isCommitting q
    have none := inv.alone isCommitting p
    rw [isWritten] at none
    cases none
  · exact fun q isCommitter => inv.committer q (notCommits q isCommitter)
  · exact fun q r first second => inv.single q r (notCommits q first) (notCommits r second)

theorem Inv.outstanding_pos (inv : Inv s) {written : List Nat} (inOp : s.phase p = .inOp written) :
    1 ≤ s.outstanding := by
  obtain ⟨active, mem, card, _⟩ := inv.space
  have member : p ∈ active := by
    rw [mem, inOp]
    exact Option.some_ne_none _
  have positive := Finset.card_pos.mpr ⟨p, member⟩
  rw [card]
  exact_mod_cast positive

theorem Inv.notCommitting (inv : Inv s) {written : List Nat} (inOp : s.phase p = .inOp written) :
    s.committing = false := by
  by_contra isCommitting
  have none := inv.alone (by simpa using isCommitting) p
  rw [inOp] at none
  cases none

/-- On a full log, a disciplined operation can only log a block again that it has logged before. -/
theorem Inv.full_repeats (inv : Inv s) {written : List Nat} {blockno : Nat} (full : s.n = logblocks)
    (inOp : s.phase p = .inOp written) (few : (written.insert blockno).length ≤ maxopblocks) :
    blockno ∈ written := by
  obtain ⟨active, mem, _, space⟩ := inv.space
  have member : p ∈ active := by
    rw [mem, inOp]
    exact Option.some_ne_none _
  have noRoom : (s.phase p).room = 0 := by
    have part :=
      Finset.single_le_sum (f := fun q => (s.phase q).room) (fun _ _ => Nat.zero_le _) member
    omega
  rw [inOp] at noRoom
  simp only [Phase.room] at noRoom
  by_contra new
  rw [List.length_insert_of_not_mem new] at few
  omega

theorem Inv.logWrite (inv : Inv s) {written : List Nat} {blockno : Nat}
    (inOp : s.phase p = .inOp written) (few : (written.insert blockno).length ≤ maxopblocks)
    (noRepeat : s.n = logblocks → blockno ∉ written) : Inv (Log.logWrite s p written blockno) := by
  have isWritten : (s.phase p).written = some written := by rw [inOp]; rfl
  have room : s.n < logblocks := by
    obtain ⟨active, _, _, space⟩ := inv.space
    refine lt_of_le_of_ne (le_trans (Nat.le_add_right _ _) space) fun full => ?_
    exact noRepeat full (inv.full_repeats full inOp few)
  obtain ⟨distinct, _, inLog⟩ := inv.logged p written isWritten
  have positive := inv.outstanding_pos inOp
  unfold Log.logWrite
  rw [if_neg (by omega), if_neg (by omega)]
  by_cases absorbed : blockno ∈ s.block
  · simp only [if_pos absorbed]
    refine inv.relog inOp inv.nodup (fun _ => id) ⟨distinct.insert, few, ?_⟩ ?_
    · intro b inWritten
      rcases List.mem_insert_iff.mp inWritten with rfl | earlier
      · exact absorbed
      · exact inLog b earlier
    · exact Nat.add_le_add_left (List.length_le_length_insert) _
  · simp only [if_neg absorbed]
    have new : blockno ∉ written := fun inWritten => absorbed (inLog _ inWritten)
    refine inv.relog inOp ?_ (fun b inBlock => List.mem_append_left _ inBlock) ⟨distinct.insert,
      few, ?_⟩ ?_
    · exact List.nodup_append.mpr ⟨inv.nodup, List.nodup_singleton _, fun b inBlock c isNew => by
        rw [List.mem_singleton] at isNew
        rintro rfl
        exact absorbed (isNew ▸ inBlock)⟩
    · intro b inWritten
      rcases List.mem_insert_iff.mp inWritten with rfl | earlier
      · exact List.mem_append_right _ List.mem_cons_self
      · exact List.mem_append_left _ (inLog b earlier)
    · rw [List.length_append, List.length_insert_of_not_mem new, List.length_singleton]
      omega

/-- An operation ends. -/
theorem Inv.leave (inv : Inv s) {written : List Nat} (inOp : s.phase p = .inOp written)
    {phase : Phase} {committing : Bool} (after : phase.written = none)
    (commits : phase.commits = committing) (last : committing = true → s.outstanding = 1) :
    Inv ({ s with
      outstanding := s.outstanding - 1, committing := committing }.setPhase p phase) := by
  have isWritten : (s.phase p).written = some written := by rw [inOp]; rfl
  have idle := inv.notCommitting inOp
  have noCommitter : ∀ q, (s.phase q).commits = false := by
    intro q
    by_contra isCommitter
    rw [inv.committer q (by simpa using isCommitter)] at idle
    cases idle
  obtain ⟨active, mem, card, space⟩ := inv.space
  have member : p ∈ active := by
    rw [mem, isWritten]
    exact Option.some_ne_none _
  have newPhase : ∀ q, q ≠ p → (({ s with
      outstanding := s.outstanding - 1, committing := committing }.setPhase p phase).phase q) =
        s.phase q :=
    fun q ne => phase_setPhase_of_ne ne
  refine ⟨inv.running, inv.nodup, ?_, ⟨active.erase p, ?_, ?_, ?_⟩, ?_, ?_, ?_⟩
  · intro q w isLogged
    by_cases same : q = p
    · rw [same, phase_setPhase_self, after] at isLogged
      cases isLogged
    · rw [newPhase q same] at isLogged
      exact inv.logged q w isLogged
  · intro q
    by_cases same : q = p
    · subst same
      rw [phase_setPhase_self, after]
      simp
    · rw [newPhase q same, Finset.mem_erase, mem]
      simp [same]
  · show s.outstanding - 1 = _
    rw [Finset.card_erase_of_mem member, card]
    have positive := Finset.card_pos.mpr ⟨p, member⟩
    omega
  · have fewer : ∑ q ∈ active.erase p, (({ s with
        outstanding := s.outstanding - 1,
          committing := committing }.setPhase p phase).phase q).room ≤
        ∑ q ∈ active, (s.phase q).room := by
      refine le_trans (le_of_eq (Finset.sum_congr rfl ?_))
        (Finset.sum_le_sum_of_subset (Finset.erase_subset p _))
      intro q other
      rw [newPhase q (Finset.ne_of_mem_erase other)]
    exact le_trans (Nat.add_le_add_left fewer _) space
  · intro isCommitting q
    by_cases same : q = p
    · rw [same, phase_setPhase_self, after]
    · rw [newPhase q same]
      by_contra busy
      -- the only operation in progress is the one that ends
      have inActive := (mem q).mpr busy
      have one : active.card = 1 := by
        have := last isCommitting
        omega
      exact same (Finset.card_le_one.mp one.le q inActive p member)
  · intro q isCommitter
    by_cases same : q = p
    · rw [same, phase_setPhase_self, commits] at isCommitter
      exact isCommitter
    · rw [newPhase q same, noCommitter] at isCommitter
      cases isCommitter
  · have onlySelf :
        ∀ q, ((({ s with outstanding := s.outstanding - 1, committing := committing }.setPhase
        p phase).phase q)).commits = true → q = p := by
      intro q isCommitter
      by_contra ne
      rw [newPhase q ne, noCommitter] at isCommitter
      cases isCommitter
    exact fun q r first second => (onlySelf q first).trans (onlySelf r second).symm

theorem Inv.endOp (inv : Inv s) {written : List Nat} (inOp : s.phase p = .inOp written) :
    Inv (Log.endOp s p) := by
  have idle := inv.notCommitting inOp
  unfold Log.endOp
  simp only [idle, Bool.false_eq_true, if_false]
  by_cases last : s.outstanding - 1 = 0
  · rw [if_pos last]
    exact inv.leave inOp rfl rfl fun _ => by omega
  · rw [if_neg last]
    have left :
        Inv ({ s with outstanding := s.outstanding - 1, committing := false }.setPhase p
          .outside) :=
      inv.leave inOp rfl rfl fun absurd => by cases absurd
    rw [wakeup_setPhase fun absurd => by cases absurd]
    exact left.wakeup .addrOfLog

theorem Inv.commit (inv : Inv s) (atCommit : s.phase p = .committing) :
    Inv ({ s with block := [] }.setPhase p .committed) := by
  have isCommitting := inv.committer p (by rw [atCommit]; rfl)
  have noOp := inv.alone isCommitting
  have written : ∀ q, (({ s with block := [] }.setPhase p .committed).phase q).written = none := by
    intro q
    by_cases same : q = p
    · rw [same, phase_setPhase_self]
      rfl
    · rw [phase_setPhase_of_ne same]
      exact noOp q
  have commits : ∀ q, (({ s with block := [] }.setPhase p .committed).phase q).commits = true →
      (s.phase q).commits = true := by
    intro q isCommitter
    by_cases same : q = p
    · rw [same, atCommit]
      rfl
    · rwa [phase_setPhase_of_ne same] at isCommitter
  obtain ⟨active, mem, card, _⟩ := inv.space
  have empty : active = ∅ := by
    refine Finset.eq_empty_of_forall_notMem ?_
    intro q member
    exact (mem q).mp member (noOp q)
  refine ⟨inv.running, List.nodup_nil, ?_, ⟨active, ?_, card, ?_⟩, fun _ => written, ?_, ?_⟩
  · intro q w isLogged
    rw [written] at isLogged
    cases isLogged
  · intro q
    rw [empty, written]
    simp
  · rw [empty]
    simp [State.n, State.setPhase]
  · exact fun q isCommitter => inv.committer q (commits q isCommitter)
  · exact fun q r first second => inv.single q r (commits q first) (commits r second)

theorem Inv.finish (inv : Inv s) (done : s.phase p = .committed) :
    Inv (({ s with committing := false }.wakeup .addrOfLog).setPhase p .outside) := by
  have selfCommits : (s.phase p).commits = true := by rw [done]; rfl
  have freed : Inv ({ s with committing := false }.setPhase p .outside) := by
    have notCommits :
        ∀ q, (({ s with committing := false }.setPhase p .outside).phase q).commits = false := by
      intro q
      by_cases same : q = p
      · rw [same, phase_setPhase_self]
        rfl
      · rw [phase_setPhase_of_ne same]
        by_contra isCommitter
        exact same (inv.single q p (by simpa using isCommitter) selfCommits)
    have written : ∀ q, (({ s with committing := false }.setPhase p .outside).phase q).written =
        (s.phase q).written := by
      intro q
      by_cases same : q = p
      · rw [same, phase_setPhase_self, done]
        rfl
      · rw [phase_setPhase_of_ne same]
    obtain ⟨active, mem, card, space⟩ := inv.space
    refine ⟨inv.running, inv.nodup, ?_, ⟨active, ?_, card, ?_⟩, (fun absurd => by cases absurd), ?_,
      ?_⟩
    · intro q w isLogged
      rw [written] at isLogged
      exact inv.logged q w isLogged
    · intro q
      rw [written]
      exact mem q
    · have rooms :
          ∀ q ∈ active, (({ s with committing := false }.setPhase p .outside).phase q).room =
          (s.phase q).room := by
        intro q _
        rw [Phase.room_eq, Phase.room_eq, written]
      rw [Finset.sum_congr rfl rooms]
      exact space
    · intro q isCommitter
      rw [notCommits] at isCommitter
      cases isCommitter
    · intro q _ isCommitter
      rw [notCommits] at isCommitter
      cases isCommitter
  rw [wakeup_setPhase fun absurd => by cases absurd]
  exact freed.wakeup .addrOfLog

/-- **Every disciplined step keeps the invariant**, unless an operation logs one of its blocks again
on a full log. -/
theorem Inv.step (inv : Inv s) {e : Event Proc} (disciplined : Disciplined s e)
    (noRepeat : NoRepeat s e) (taken : Log.step s e = some s') : Inv s' := by
  cases e with
  | beginOp p =>
    obtain ⟨_, ready, rfl⟩ := beginOp_cases taken
    have before : (s.phase p).written = none := by rcases ready with eq | eq <;> rw [eq] <;> rfl
    have quiet : (s.phase p).commits = false := by rcases ready with eq | eq <;> rw [eq] <;> rfl
    unfold Log.beginOp
    by_cases committing : s.committing = true
    · rw [if_pos committing]
      exact inv.idle before quiet rfl rfl
    · rw [if_neg committing]
      by_cases admits : s.Admits
      · rw [if_pos admits]
        exact inv.admit before quiet (by simpa using committing) admits
      · rw [if_neg admits]
        exact inv.idle before quiet rfl rfl
  | logWrite p blockno =>
    obtain ⟨_, written, inOp, rfl⟩ := logWrite_cases taken
    simp only [Disciplined, NoRepeat, inOp] at disciplined noRepeat
    exact inv.logWrite inOp disciplined noRepeat
  | endOp p =>
    obtain ⟨_, _, inOp, rfl⟩ := endOp_cases taken
    exact inv.endOp inOp
  | commit p =>
    obtain ⟨_, atCommit, rfl⟩ := commit_cases taken
    exact inv.commit atCommit
  | finish p =>
    obtain ⟨_, done, rfl⟩ := finish_cases taken
    exact inv.finish done
  | kill p =>
    obtain ⟨_, rfl | ⟨⟨chan, asleep⟩, rfl⟩⟩ := kill_cases taken
    · exact inv
    · exact inv.idle (by rw [asleep]; rfl) (by rw [asleep]; rfl) rfl rfl

theorem Inv.reserved (inv : Inv s) : Reserved s := by
  obtain ⟨active, mem, card, space⟩ := inv.space
  have isActive : {p | ∃ written, s.phase p = .inOp written} = ↑active := by
    ext p
    rw [Finset.mem_coe, mem, Option.ne_none_iff_exists']
    simp only [Phase.written_eq_some]
    rfl
  refine ⟨le_trans (Nat.le_add_right _ _) space, inv.nodup, ?_, ?_, inv.running⟩
  · rw [isActive]
    exact active.finite_toSet
  · rw [isActive, Set.ncard_coe_finset]
    exact card

end Reserving

/-- **In every run in which operations log at most `MAXOPBLOCKS` blocks each, and none logs one of
its own again on a full log, the log stays within its bounds and nothing panics.** -/
theorem reserved_of_noRepeat (events : List (Event Proc)) {s : State Proc}
    (reached : run step State.boot events = some s)
    (allowed : Along step (fun s e => Disciplined s e ∧ NoRepeat s e) State.boot events) :
    Reserved s :=
  (inv_of_run (fun _ _ _ inv allowed taken => inv.step allowed.1 allowed.2 taken) events
    inv_boot allowed reached).reserved

/-- Three operations fill the log, one of them logs a block twice before it is full, and one of them
ends. -/
def filledLog : List (Event (Fin 3)) :=
  [.beginOp 0, .beginOp 1, .beginOp 2] ++ (List.range 10).map (fun i => .logWrite 0 (100 + i)) ++
    [.logWrite 0 100] ++ (List.range 10).map (fun i => .logWrite 1 (200 + i)) ++
    (List.range 10).map (fun i => .logWrite 2 (300 + i)) ++ [.endOp 0]

theorem reserved_of_noRepeat_filled : ∃ s : State (Fin 3),
    run step State.boot filledLog = some s ∧ s.n = logblocks ∧ Reserved s := by
  have observed : (run step State.boot filledLog).map State.n = some logblocks := by decide +kernel
  obtain ⟨s, reached, full⟩ := Option.map_eq_some_iff.mp observed
  exact ⟨s, reached, full, reserved_of_noRepeat filledLog reached (by decide +kernel)⟩

/-- Three operations log ten blocks each; then the first one logs its first block again. -/
def fullLog : List (Event (Fin 3)) :=
  [.beginOp 0, .beginOp 1, .beginOp 2] ++ (List.range 10).map (fun i => .logWrite 0 (100 + i)) ++
    (List.range 10).map (fun i => .logWrite 1 (200 + i)) ++
    (List.range 10).map (fun i => .logWrite 2 (300 + i)) ++ [.logWrite 0 100]

/-- **The reservation is kept, and yet `log_write` panics**, because it checks for a full log before
it looks for the block. -/
theorem fullLog_panics : Along step Disciplined State.boot fullLog ∧
    ∃ s, run step State.boot fullLog = some s ∧ s.panic = some "too big a transaction" ∧
    ¬ Reserved s := by
  have observed :
      (run step State.boot fullLog).map State.panic = some (some "too big a transaction") := by
    decide +kernel
  obtain ⟨s, reached, panics⟩ := Option.map_eq_some_iff.mp observed
  refine ⟨by decide +kernel, s, reached, panics, ?_⟩
  intro reserved
  rw [reserved.running] at panics
  cases panics

end Log

end Xv6Slab
