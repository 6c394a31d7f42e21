/-
**Which allocator the kernel uses, under preemption.**

`active_kmem` belongs to a CPU, while the system call that sets it with `kmem_push` and restores it
with `kmem_pop` is a kernel thread that a timer interrupt may move to another CPU. The machine has
any number of CPUs and processes; every event is one atomic action on one CPU.

* `step` — scheduling, timer interrupts, spinlocks, and the allocator system calls.
* `Selected` — every allocator operation used the right `kmem_state`, and no CPU is left with a
  selection when no system call is under way.
* `selected_of_undisturbed` — **this holds in every run in which no process is preempted between its
  push and its pop, and no call returns without its pop.**
* `exists_not_selected_of_disturbed` — after either of these, a wrong allocator can be used at once.
-/

import Mathlib.Logic.Function.Basic
import Mathlib.Tactic
import Xv6Slab.Lib.Machine

set_option linter.unusedSectionVars false

namespace Xv6Slab

namespace ActiveKmem

open Machine

/-- The system calls of `sysproc.c` that select the allocator of their process. -/
inductive AllocCall
  | kmemInit
  | cacheCreate
  | cacheAlloc
  | cacheFree
  | cacheDestroy
  | cacheInfo
  | kmalloc
  | kfree
  deriving DecidableEq, Repr

/-- The calls with a `return` between their `kmem_push` and their `kmem_pop`. -/
def AllocCall.returnsEarly : AllocCall → Bool
  | cacheCreate | cacheAlloc => true
  | kmemInit | cacheFree | cacheDestroy | cacheInfo | kmalloc | kfree => false

/-- A `kmem_state`: the kernel's own, or the one on the `ukmem` page of a process. -/
inductive KmemId (Proc : Type)
  | global
  | ukmem (p : Proc)
  deriving DecidableEq

/-- Where a process is: between `kmem_push` and `kmem_pop` of a call, with what the push returned,
or anywhere else. -/
inductive Phase (Proc : Type)
  | outside
  | inside (call : AllocCall) (old : Option Proc)
  deriving DecidableEq

/-- `enum procstate`, as far as the scheduler looks at it. -/
inductive ProcState
  | runnable
  | running
  deriving DecidableEq

/-- `struct cpu`. A null `active_kmem` is `none`; otherwise it points to the page of a process. -/
structure Cpu (Proc : Type) where
  proc : Option Proc
  noff : Nat
  activeKmem : Option Proc

/-- An allocator operation: who performed it, whether between push and pop, and on what. -/
structure Use (Proc : Type) where
  proc : Proc
  inside : Bool
  kmem : KmemId Proc
  deriving DecidableEq

/-- The machine, with the operations performed so far. -/
structure State (CpuId Proc : Type) where
  cpu : CpuId → Cpu Proc
  state : Proc → ProcState
  phase : Proc → Phase Proc
  uses : List (Use Proc)

/-- The atomic actions, each on a CPU. -/
inductive Event (CpuId Proc : Type)
  | schedule (c : CpuId) (p : Proc)
  | timer (c : CpuId)
  | acquire (c : CpuId)
  | release (c : CpuId)
  | push (c : CpuId) (call : AllocCall)
  | operate (c : CpuId)
  | pop (c : CpuId)
  | earlyReturn (c : CpuId)

variable {CpuId Proc : Type} [DecidableEq CpuId] [DecidableEq Proc]

/-- `curr_kmem`, read on a CPU. -/
def currKmem (c : Cpu Proc) : KmemId Proc :=
  match c.activeKmem with
  | none => .global
  | some p => .ukmem p

namespace State

variable (s : State CpuId Proc)

/-- A write to one `struct cpu`. -/
def setCpu (c : CpuId) (cpu : Cpu Proc) : State CpuId Proc :=
  { s with cpu := Function.update s.cpu c cpu }

/-- A write to the state of one process. -/
def setState (p : Proc) (state : ProcState) : State CpuId Proc :=
  { s with state := Function.update s.state p state }

/-- A process moves to another point of its program. -/
def setPhase (p : Proc) (phase : Phase Proc) : State CpuId Proc :=
  { s with phase := Function.update s.phase p phase }

/-- No CPU runs a process, every process is runnable. -/
def boot : State CpuId Proc where
  cpu := fun _ => ⟨none, 0, none⟩
  state := fun _ => .runnable
  phase := fun _ => .outside
  uses := []

end State

/-- One atomic action. -/
def step (s : State CpuId Proc) : Event CpuId Proc → Option (State CpuId Proc)
  | .schedule c p =>
    if (s.cpu c).proc = none ∧ s.state p = .runnable then
      some ((s.setState p .running).setCpu c { s.cpu c with proc := some p })
    else none
  -- interrupts are off while a spinlock is held; an idle CPU does not yield
  | .timer c =>
    if (s.cpu c).noff ≠ 0 then none
    else
      match (s.cpu c).proc with
      | none => some s
      | some p => some ((s.setState p .runnable).setCpu c { s.cpu c with proc := none })
  | .acquire c =>
    match (s.cpu c).proc with
    | none => none
    | some _ => some (s.setCpu c { s.cpu c with noff := (s.cpu c).noff + 1 })
  | .release c =>
    match (s.cpu c).proc, (s.cpu c).noff with
    | some _, n + 1 => some (s.setCpu c { s.cpu c with noff := n })
    | _, _ => none
  | .push c call =>
    match (s.cpu c).proc with
    | none => none
    | some p =>
      match s.phase p with
      | .outside => some ((s.setPhase p (.inside call (s.cpu c).activeKmem)).setCpu c
          { s.cpu c with activeKmem := some p })
      | .inside _ _ => none
  | .operate c =>
    match (s.cpu c).proc with
    | none => none
    | some p => some { s with uses := ⟨p, s.phase p ≠ .outside, currKmem (s.cpu c)⟩ :: s.uses }
  | .pop c =>
    match (s.cpu c).proc with
    | none => none
    | some p =>
      match s.phase p with
      | .inside _ old => some ((s.setPhase p .outside).setCpu c { s.cpu c with activeKmem := old })
      | .outside => none
  | .earlyReturn c =>
    match (s.cpu c).proc with
    | none => none
    | some p =>
      match s.phase p with
      | .inside call _ => if call.returnsEarly then some (s.setPhase p .outside) else none
      | .outside => none

/-! ### What should hold -/

/-- Between push and pop an operation uses the process's own allocator, elsewhere the kernel's. -/
def Use.Right (u : Use Proc) : Prop := u.kmem = if u.inside then .ukmem u.proc else .global

/-- Every operation used the right allocator, and when no call is under way, no allocator is
selected. -/
structure Selected (s : State CpuId Proc) : Prop where
  uses : ∀ u ∈ s.uses, u.Right
  finished : (∀ p, s.phase p = .outside) → ∀ c, (s.cpu c).activeKmem = none

/-- No preemption between push and pop, and no return without a pop. -/
def Undisturbed (s : State CpuId Proc) : Event CpuId Proc → Prop
  | .timer c => ∀ p, (s.cpu c).proc = some p → s.phase p = .outside
  | .earlyReturn _ => False
  | .schedule .. | .acquire _ | .release _ | .push .. | .operate _ | .pop _ => True

instance [Fintype Proc] (s : State CpuId Proc) : ∀ e, Decidable (Undisturbed s e)
  | .timer c => inferInstanceAs (Decidable (∀ p, (s.cpu c).proc = some p → s.phase p = .outside))
  | .earlyReturn _ => inferInstanceAs (Decidable False)
  | .schedule .. | .acquire _ | .release _ | .push .. | .operate _ | .pop _ =>
    inferInstanceAs (Decidable True)

/-! ### The invariant of undisturbed runs -/

/-- What `active_kmem` of a CPU should be. -/
def selection (s : State CpuId Proc) (c : CpuId) : Option Proc :=
  (s.cpu c).proc.filter fun p => s.phase p ≠ .outside

/-- A process runs on one CPU, a process inside a call is running, and its CPU has it selected. -/
structure Inv (s : State CpuId Proc) : Prop where
  running : ∀ c p, (s.cpu c).proc = some p → s.state p = .running
  once : ∀ c c' p, (s.cpu c).proc = some p → (s.cpu c').proc = some p → c = c'
  inside : ∀ p, s.phase p ≠ .outside → ∃ c, (s.cpu c).proc = some p
  old : ∀ p call old, s.phase p = .inside call old → old = none
  active : ∀ c, (s.cpu c).activeKmem = selection s c
  uses : ∀ u ∈ s.uses, u.Right

theorem inv_boot : Inv (State.boot : State CpuId Proc) where
  running := fun _ _ absurd => by cases absurd
  once := fun _ _ _ absurd => by cases absurd
  inside := fun _ absurd => (absurd rfl).elim
  old := fun _ _ _ absurd => by cases absurd
  active := fun _ => rfl
  uses := fun _ absurd => by cases absurd

section Steps

variable {s s' : State CpuId Proc} {c c' : CpuId} {p : Proc}

theorem selection_of_outside (runs : (s.cpu c).proc = some p) (outside : s.phase p = .outside) :
    selection s c = none := by
  simp [selection, runs, outside]

theorem selection_of_inside (runs : (s.cpu c).proc = some p) (inside : s.phase p ≠ .outside) :
    selection s c = some p := by
  simp [selection, runs, inside]

theorem selection_of_idle (idle : (s.cpu c).proc = none) : selection s c = none := by
  simp [selection, idle]

/-- A selection depends on the process of the CPU and its phase. -/
theorem selection_congr (sameProc : (s'.cpu c).proc = (s.cpu c).proc)
    (samePhase : ∀ q, (s.cpu c).proc = some q → s'.phase q = s.phase q) :
    selection s' c = selection s c := by
  cases runs : (s.cpu c).proc with
  | none => rw [selection_of_idle runs, selection_of_idle (sameProc.trans runs)]
  | some q =>
    by_cases outside : s.phase q = .outside
    · rw [selection_of_outside runs outside,
        selection_of_outside (sameProc.trans runs) ((samePhase q runs).trans outside)]
    · rw [selection_of_inside runs outside,
        selection_of_inside (sameProc.trans runs) (by rw [samePhase q runs]; exact outside)]

theorem Inv.not_running (inv : Inv s) (waits : s.state p = .runnable) (c : CpuId) :
    (s.cpu c).proc ≠ some p := by
  intro runs
  rw [inv.running c p runs] at waits
  cases waits

/-- A process that waits for a CPU is inside no call. -/
theorem Inv.outside_of_runnable (inv : Inv s) (waits : s.state p = .runnable) :
    s.phase p = .outside := by
  by_contra inside
  obtain ⟨c, runs⟩ := inv.inside p inside
  exact inv.not_running waits c runs

theorem Inv.schedule (inv : Inv s) (idle : (s.cpu c).proc = none) (waits : s.state p = .runnable) :
    Inv ((s.setState p .running).setCpu c { s.cpu c with proc := some p }) where
  running := by
    intro c' q runs
    simp only [State.setCpu, State.setState] at runs ⊢
    by_cases same : q = p
    · rw [same, Function.update_self]
    · rw [Function.update_of_ne same]
      by_cases here : c' = c
      · subst here
        rw [Function.update_self, Option.some.injEq] at runs
        exact absurd runs.symm same
      · rw [Function.update_of_ne here] at runs
        exact inv.running c' q runs
  once := by
    intro c₁ c₂ q runs₁ runs₂
    simp only [State.setCpu, State.setState] at runs₁ runs₂
    by_cases here₁ : c₁ = c <;> by_cases here₂ : c₂ = c
    · rw [here₁, here₂]
    · rw [here₁, Function.update_self, Option.some.injEq] at runs₁
      rw [Function.update_of_ne here₂, ← runs₁] at runs₂
      exact absurd runs₂ (inv.not_running waits c₂)
    · rw [here₂, Function.update_self, Option.some.injEq] at runs₂
      rw [Function.update_of_ne here₁, ← runs₂] at runs₁
      exact absurd runs₁ (inv.not_running waits c₁)
    · rw [Function.update_of_ne here₁] at runs₁
      rw [Function.update_of_ne here₂] at runs₂
      exact inv.once c₁ c₂ q runs₁ runs₂
  inside := by
    intro q inside
    obtain ⟨c', runs⟩ := inv.inside q inside
    have ne : c' ≠ c := by
      rintro rfl
      rw [idle] at runs
      cases runs
    exact ⟨c', by simp only [State.setCpu, State.setState, Function.update_of_ne ne, runs]⟩
  old := inv.old
  active := by
    intro c'
    by_cases here : c' = c
    · subst here
      rw [selection_of_outside (p := p)]
      · simp only [State.setCpu, Function.update_self]
        rw [inv.active, selection_of_idle idle]
      · simp only [State.setCpu, Function.update_self]
      · exact inv.outside_of_runnable waits
    · refine Eq.trans ?_ ((inv.active c').trans (Eq.symm (selection_congr ?_ ?_)))
      · simp only [State.setCpu, State.setState, Function.update_of_ne here]
      · simp only [State.setCpu, State.setState, Function.update_of_ne here]
      · exact fun _ _ => rfl
  uses := inv.uses

theorem Inv.preempt (inv : Inv s) (runs : (s.cpu c).proc = some p)
    (outside : s.phase p = .outside) :
    Inv ((s.setState p .runnable).setCpu c { s.cpu c with proc := none }) where
  running := by
    intro c' q runs'
    simp only [State.setCpu, State.setState] at runs' ⊢
    by_cases here : c' = c
    · rw [here, Function.update_self] at runs'
      cases runs'
    · rw [Function.update_of_ne here] at runs'
      have other : q ≠ p := by
        rintro rfl
        exact here (inv.once c' c q runs' runs)
      rw [Function.update_of_ne other]
      exact inv.running c' q runs'
  once := by
    intro c₁ c₂ q runs₁ runs₂
    simp only [State.setCpu, State.setState] at runs₁ runs₂
    have ne₁ : c₁ ≠ c := by
      rintro rfl
      rw [Function.update_self] at runs₁
      cases runs₁
    have ne₂ : c₂ ≠ c := by
      rintro rfl
      rw [Function.update_self] at runs₂
      cases runs₂
    rw [Function.update_of_ne ne₁] at runs₁
    rw [Function.update_of_ne ne₂] at runs₂
    exact inv.once c₁ c₂ q runs₁ runs₂
  inside := by
    intro q inside
    obtain ⟨c', runs'⟩ := inv.inside q inside
    have ne : c' ≠ c := by
      rintro rfl
      rw [runs, Option.some.injEq] at runs'
      exact inside (runs' ▸ outside)
    exact ⟨c', by simp only [State.setCpu, State.setState, Function.update_of_ne ne, runs']⟩
  old := inv.old
  active := by
    intro c'
    by_cases here : c' = c
    · subst here
      rw [selection_of_idle (by simp only [State.setCpu, Function.update_self])]
      simp only [State.setCpu, Function.update_self]
      rw [inv.active, selection_of_outside runs outside]
    · refine Eq.trans ?_ ((inv.active c').trans (Eq.symm (selection_congr ?_ ?_)))
      · simp only [State.setCpu, State.setState, Function.update_of_ne here]
      · simp only [State.setCpu, State.setState, Function.update_of_ne here]
      · exact fun _ _ => rfl
  uses := inv.uses

/-- A change to the CPU of a running process and to its phase, with the selection that this phase
asks for. -/
theorem Inv.local (inv : Inv s) (runs : (s.cpu c).proc = some p) {cpu : Cpu Proc}
    {phase : Phase Proc} (sameProc : cpu.proc = some p)
    (old : ∀ call old, phase = .inside call old → old = none)
    (active : cpu.activeKmem = if phase = .outside then none else some p) :
    Inv ((s.setPhase p phase).setCpu c cpu) := by
  have proc : ∀ c', (((s.setPhase p phase).setCpu c cpu).cpu c').proc = (s.cpu c').proc := by
    intro c'
    simp only [State.setCpu, State.setPhase]
    by_cases here : c' = c
    · rw [here, Function.update_self, sameProc, runs]
    · rw [Function.update_of_ne here]
  refine ⟨?_, ?_, ?_, ?_, ?_, inv.uses⟩
  · intro c' q runs'
    rw [proc] at runs'
    exact inv.running c' q runs'
  · intro c₁ c₂ q runs₁ runs₂
    rw [proc] at runs₁ runs₂
    exact inv.once c₁ c₂ q runs₁ runs₂
  · intro q inside
    by_cases same : q = p
    · exact ⟨c, by rw [proc, runs, same]⟩
    · simp only [State.setCpu, State.setPhase, Function.update_of_ne same] at inside
      obtain ⟨c', runs'⟩ := inv.inside q inside
      exact ⟨c', by rw [proc, runs']⟩
  · intro q call old' atPhase
    by_cases same : q = p
    · simp only [State.setCpu, State.setPhase, same, Function.update_self] at atPhase
      exact old call old' atPhase
    · simp only [State.setCpu, State.setPhase, Function.update_of_ne same] at atPhase
      exact inv.old q call old' atPhase
  · intro c'
    by_cases here : c' = c
    · subst here
      have newPhase : ((s.setPhase p phase).setCpu c' cpu).phase p = phase :=
        Function.update_self ..
      have newCpu : ((s.setPhase p phase).setCpu c' cpu).cpu c' = cpu := Function.update_self ..
      have runs' := (proc c').trans runs
      rw [newCpu, active]
      by_cases outside : phase = .outside
      · rw [if_pos outside, selection_of_outside runs' (newPhase.trans outside)]
      · rw [if_neg outside, selection_of_inside runs' (by rw [newPhase]; exact outside)]
    · -- the process of another CPU is another process
      rw [selection_congr (s := s) (proc c')]
      · simp only [State.setCpu, State.setPhase, Function.update_of_ne here]
        exact inv.active c'
      · intro q runs'
        have other : q ≠ p := by
          rintro rfl
          exact here (inv.once c' c q runs' runs)
        simp only [State.setCpu, State.setPhase, Function.update_of_ne other]

/-- The allocator that a running process uses. -/
theorem Inv.currKmem_eq (inv : Inv s) (runs : (s.cpu c).proc = some p) :
    currKmem (s.cpu c) = if s.phase p = .outside then .global else .ukmem p := by
  unfold currKmem
  by_cases outside : s.phase p = .outside
  · rw [inv.active, selection_of_outside runs outside, if_pos outside]
  · rw [inv.active, selection_of_inside runs outside, if_neg outside]

theorem Inv.setNoff (inv : Inv s) (c : CpuId) (n : Nat) :
    Inv (s.setCpu c { s.cpu c with noff := n }) := by
  have proc : ∀ c', ((s.setCpu c { s.cpu c with noff := n }).cpu c').proc = (s.cpu c').proc := by
    intro c'
    simp only [State.setCpu]
    by_cases here : c' = c
    · rw [here, Function.update_self]
    · rw [Function.update_of_ne here]
  have active : ∀ c', ((s.setCpu c { s.cpu c with noff := n }).cpu c').activeKmem =
      (s.cpu c').activeKmem := by
    intro c'
    simp only [State.setCpu]
    by_cases here : c' = c
    · rw [here, Function.update_self]
    · rw [Function.update_of_ne here]
  refine ⟨?_, ?_, ?_, inv.old, ?_, inv.uses⟩
  · intro c' q runs
    exact inv.running c' q ((proc c').symm.trans runs)
  · intro c₁ c₂ q runs₁ runs₂
    exact inv.once c₁ c₂ q ((proc c₁).symm.trans runs₁) ((proc c₂).symm.trans runs₂)
  · intro q inside
    obtain ⟨c', runs⟩ := inv.inside q inside
    exact ⟨c', (proc c').trans runs⟩
  · intro c'
    rw [active, inv.active, selection_congr (s := s) (proc c') fun _ _ => rfl]

/-! ### What an event can do -/

theorem acquire_cases (taken : step s (.acquire c) = some s') : ∃ p, (s.cpu c).proc = some p ∧
    s' = s.setCpu c { s.cpu c with noff := (s.cpu c).noff + 1 } := by
  simp only [step] at taken
  split at taken
  · cases taken
  · rename_i p runs
    exact ⟨p, runs, (Option.some.inj taken).symm⟩

theorem release_cases (taken : step s (.release c) = some s') : ∃ p n, (s.cpu c).proc = some p ∧
    s' = s.setCpu c { s.cpu c with noff := n } := by
  simp only [step] at taken
  split at taken
  · rename_i p n runs _
    exact ⟨p, n, runs, (Option.some.inj taken).symm⟩
  · cases taken

theorem push_cases {call : AllocCall} (taken : step s (.push c call) = some s') :
    ∃ p, (s.cpu c).proc = some p ∧ s.phase p = .outside ∧
      s' = (s.setPhase p (.inside call (s.cpu c).activeKmem)).setCpu c
        { s.cpu c with activeKmem := some p } := by
  simp only [step] at taken
  split at taken
  · cases taken
  · rename_i p runs
    split at taken
    · rename_i outside
      exact ⟨p, runs, outside, (Option.some.inj taken).symm⟩
    · cases taken

theorem operate_cases (taken : step s (.operate c) = some s') : ∃ p, (s.cpu c).proc = some p ∧
    s' = { s with uses := ⟨p, s.phase p ≠ .outside, currKmem (s.cpu c)⟩ :: s.uses } := by
  simp only [step] at taken
  split at taken
  · cases taken
  · rename_i p runs
    exact ⟨p, runs, (Option.some.inj taken).symm⟩

theorem pop_cases (taken : step s (.pop c) = some s') : ∃ p call old, (s.cpu c).proc = some p ∧
    s.phase p = .inside call old ∧
    s' = (s.setPhase p .outside).setCpu c { s.cpu c with activeKmem := old } := by
  simp only [step] at taken
  split at taken
  · cases taken
  · rename_i p runs
    split at taken
    · rename_i call old inside
      exact ⟨p, call, old, runs, inside, (Option.some.inj taken).symm⟩
    · cases taken

theorem earlyReturn_cases (taken : step s (.earlyReturn c) = some s') : ∃ p call old,
    (s.cpu c).proc = some p ∧ s.phase p = .inside call old ∧ s' = s.setPhase p .outside := by
  simp only [step] at taken
  split at taken
  · cases taken
  · rename_i p runs
    split at taken
    · rename_i call old inside
      simp only [Option.ite_none_right_eq_some, Option.some.injEq] at taken
      exact ⟨p, call, old, runs, inside, taken.2.symm⟩
    · cases taken

theorem timer_cases (taken : step s (.timer c) = some s') :
    ((s.cpu c).proc = none ∧ s' = s) ∨ ∃ p, (s.cpu c).proc = some p ∧ (s.cpu c).noff = 0 ∧
      s' = (s.setState p .runnable).setCpu c { s.cpu c with proc := none } := by
  simp only [step, Option.ite_none_left_eq_some, ne_eq, not_not] at taken
  obtain ⟨unlocked, taken⟩ := taken
  split at taken
  · rename_i idle
    exact Or.inl ⟨idle, (Option.some.inj taken).symm⟩
  · rename_i p runs
    exact Or.inr ⟨p, runs, unlocked, (Option.some.inj taken).symm⟩

/-- **Every undisturbed step keeps the invariant.** -/
theorem Inv.step (inv : Inv s) {e : Event CpuId Proc} (quiet : Undisturbed s e)
    (taken : ActiveKmem.step s e = some s') : Inv s' := by
  cases e with
  | schedule c p =>
    simp only [ActiveKmem.step, Option.ite_none_right_eq_some, Option.some.injEq] at taken
    obtain ⟨⟨idle, waits⟩, rfl⟩ := taken
    exact inv.schedule idle waits
  | timer c =>
    rcases timer_cases taken with ⟨_, rfl⟩ | ⟨p, runs, _, rfl⟩
    · exact inv
    · exact inv.preempt runs (quiet p runs)
  | acquire c =>
    obtain ⟨p, runs, rfl⟩ := acquire_cases taken
    exact inv.setNoff c _
  | release c =>
    obtain ⟨p, n, runs, rfl⟩ := release_cases taken
    exact inv.setNoff c n
  | push c call =>
    obtain ⟨p, runs, outside, rfl⟩ := push_cases taken
    refine inv.local runs runs ?_ rfl
    intro call' old same
    rw [Phase.inside.injEq] at same
    rw [← same.2, inv.active, selection_of_outside runs outside]
  | operate c =>
    obtain ⟨p, runs, rfl⟩ := operate_cases taken
    refine ⟨inv.running, inv.once, inv.inside, inv.old, inv.active, ?_⟩
    intro u member
    rcases List.mem_cons.mp member with rfl | earlier
    · show currKmem (s.cpu c) = _
      rw [inv.currKmem_eq runs]
      by_cases outside : s.phase p = .outside <;> simp [outside]
    · exact inv.uses u earlier
  | pop c =>
    obtain ⟨p, call, old, runs, inside, rfl⟩ := pop_cases taken
    refine inv.local runs runs (fun _ _ absurd => by cases absurd) ?_
    rw [if_pos rfl]
    exact inv.old p call old inside
  | earlyReturn c => exact quiet.elim

theorem Inv.selected (inv : Inv s) : Selected s := by
  refine ⟨inv.uses, ?_⟩
  intro outside c
  rw [inv.active]
  cases runs : (s.cpu c).proc with
  | none => exact selection_of_idle runs
  | some p => exact selection_of_outside runs (outside p)

end Steps

/-- **In every run without a preemption between push and pop and without a return that skips the
pop, every operation uses the right allocator, and no CPU keeps a selection once all calls have
finished.** -/
theorem selected_of_undisturbed (events : List (Event CpuId Proc)) {s : State CpuId Proc}
    (reached : run step State.boot events = some s)
    (quiet : Along step Undisturbed State.boot events) : Selected s :=
  (inv_of_run (fun _ _ _ inv allowed taken => inv.step allowed taken) events inv_boot quiet
    reached).selected

/-- A system call runs through on one CPU, and the process then operates on another one. -/
theorem selected_of_undisturbed_twoCpus : ∃ s : State (Fin 2) (Fin 2),
    run step State.boot [.schedule 0 0, .push 0 .kmalloc, .operate 0, .pop 0, .timer 0,
      .schedule 1 0, .operate 1] = some s ∧ Selected s := by
  exact ⟨_, rfl, selected_of_undisturbed [.schedule 0 0, .push 0 .kmalloc, .operate 0,
    .pop 0, .timer 0, .schedule 1 0, .operate 1] rfl (by decide)⟩

/-- **A process preempted between push and pop.** Process 0 pushes on CPU 0 and is preempted there.
Process 1 then operates on CPU 0 outside any call and uses the allocator of process 0; process 0
resumes on CPU 1, operates inside its call on the kernel's allocator, and pops there, so that CPU 0
keeps the selection. -/
theorem preempted_not_selected : ∃ s : State (Fin 2) (Fin 2),
    run step State.boot [.schedule 0 0, .push 0 .kmalloc, .timer 0, .schedule 0 1, .operate 0,
      .schedule 1 0, .operate 1, .pop 1] = some s ∧
    (∃ u ∈ s.uses, u.inside = false ∧ ¬ u.Right) ∧ (∃ u ∈ s.uses, u.inside = true ∧ ¬ u.Right) ∧
    (∀ p, s.phase p = .outside) ∧ (s.cpu 0).activeKmem ≠ none := by
  refine ⟨_, rfl, ⟨⟨1, false, .ukmem 0⟩, ?_, rfl, ?_⟩, ⟨⟨0, true, .global⟩, ?_, rfl, ?_⟩, ?_, ?_⟩
  · exact List.mem_cons_of_mem _ List.mem_cons_self
  · exact fun right => by cases right
  · exact List.mem_cons_self
  · exact fun right => by cases right
  · decide
  · decide

/-! ### The condition is needed -/

section Needed

variable {s s' : State CpuId Proc} {c : CpuId} {p q : Proc}

/-- An operation outside a call on a CPU with a selection uses a wrong allocator. -/
theorem not_selected_of_operate (runs : (s.cpu c).proc = some p) (outside : s.phase p = .outside)
    (active : (s.cpu c).activeKmem ≠ none) :
    ∃ t, step s (.operate c) = some t ∧ ¬ Selected t := by
  have code : step s (.operate c) =
      some { s with uses := ⟨p, s.phase p ≠ .outside, currKmem (s.cpu c)⟩ :: s.uses } := by
    simp only [step, runs]
  refine ⟨_, code, ?_⟩
  intro selected
  have right := selected.uses _ List.mem_cons_self
  obtain ⟨r, isActive⟩ := Option.ne_none_iff_exists'.mp active
  unfold Use.Right currKmem at right
  simp [outside, isActive] at right

/-- **After any other step of an undisturbed run, while another process waits for a CPU, at most two
more steps make some operation use a wrong allocator.** -/
theorem exists_not_selected_of_disturbed (inv : Inv s) {e : Event CpuId Proc}
    (disturbed : ¬ Undisturbed s e) (taken : step s e = some s') (waits : s.state q = .runnable) :
    ∃ events t, run step s' events = some t ∧ ¬ Selected t := by
  cases e with
  | schedule c p => exact absurd trivial disturbed
  | acquire c => exact absurd trivial disturbed
  | release c => exact absurd trivial disturbed
  | push c call => exact absurd trivial disturbed
  | operate c => exact absurd trivial disturbed
  | pop c => exact absurd trivial disturbed
  | timer c =>
    simp only [Undisturbed, not_forall] at disturbed
    obtain ⟨p, runs, inside⟩ := disturbed
    rcases timer_cases taken with ⟨idle, _⟩ | ⟨p', runs', _, rfl⟩
    · rw [idle] at runs
      cases runs
    · -- the waiting process is scheduled on this CPU, which still has the selection
      obtain rfl := Option.some.inj (runs'.symm.trans runs)
      have other : q ≠ p' := by
        rintro rfl
        exact inv.not_running waits c runs
      have scheduled : step ((s.setState p' .runnable).setCpu c { s.cpu c with proc := none })
          (.schedule c q) =
            some ((((s.setState p' .runnable).setCpu c { s.cpu c with proc := none }).setState
            q .running).setCpu c ⟨some q, (s.cpu c).noff, (s.cpu c).activeKmem⟩) := by
        simp [step, State.setCpu, State.setState, Function.update_of_ne other, waits]
      obtain ⟨t, operated, wrong⟩ := not_selected_of_operate (p := q) (c := c)
        (s := (((s.setState p' .runnable).setCpu c { s.cpu c with proc := none }).setState
            q .running).setCpu c ⟨some q, (s.cpu c).noff, (s.cpu c).activeKmem⟩)
        (by simp [State.setCpu]) (inv.outside_of_runnable waits) (by
          simp only [State.setCpu, Function.update_self]
          rw [inv.active, selection_of_inside runs inside]
          exact Option.some_ne_none p')
      refine ⟨[.schedule c q, .operate c], t, ?_, wrong⟩
      rw [run_cons, scheduled, Option.bind_some, run_cons, operated]
      rfl
  | earlyReturn c =>
    obtain ⟨p, call, old, runs, inside, rfl⟩ := earlyReturn_cases taken
    obtain ⟨t, operated, wrong⟩ :=
      not_selected_of_operate (s := s.setPhase p .outside) (p := p) runs
      (Function.update_self ..) (by
        show (s.cpu c).activeKmem ≠ none
        rw [inv.active, selection_of_inside runs (by rw [inside]; exact fun same => by cases same)]
        exact Option.some_ne_none p)
    refine ⟨[.operate c], t, ?_, wrong⟩
    rw [run_cons, operated]
    rfl

end Needed

end ActiveKmem

end Xv6Slab
