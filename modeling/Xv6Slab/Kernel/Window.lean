/-
**The window of a process slot, over the lives of the processes that use it.**

A slot of the process table goes through `allocproc`, system calls, `kexec` and `freeproc`, again
and again, while the rest of the kernel runs. `State` keeps as history the successful
`sys_kmem_init` of the current process and the addresses its allocation calls returned.

* `step` — the operations on one slot; between them the rest of the kernel does anything.
* `Translates` — an initialised window is that of the one successful `sys_kmem_init`, and every
  address returned stands for the object it was returned for.
* `Refused` — the calls that report failure in a process without an arena, and `reportsFailure_iff`:
  **only these do.**
* `translates_of_guarded` — **the window is right in every run in which no `kexec` moves an
  initialised window.**
-/

import Xv6Slab.Kernel.Syscalls
import Xv6Slab.Lib.Machine
import Xv6Slab.Slab.Invariant

namespace Xv6Slab

namespace Window

open Machine

/-! ### The operations on a slot -/

/-- The kernel, whether the slot is in use, and the history of its process: space, page count and
arena of each successful `sys_kmem_init`, and the addresses returned with the objects behind
them. -/
structure State where
  kernel : Kernel
  running : Bool
  inits : List (UInt64 × Int × UInt64)
  given : List (UInt64 × UInt64)

/-- What happens to a slot. A failed `allocproc` has run `freeproc`; `others` is everything the
kernel does apart from the slot. -/
inductive Event
  | allocproc (ok : Bool)
  | call (c : Call)
  | kexec (sz : UInt64)
  | freeproc
  | others (k : Kernel)

variable (p : Nat)

/-- The window fields that `freeproc` resets. -/
def freeproc (k : Kernel) : Kernel := k.modifyProc p fun q => { q with ukmemInited := false }

/-- The rest of the kernel writes no window field of the slot. -/
def others (k k' : Kernel) : Kernel := k'.modifyProc p fun q => { k.proc p with ukmem := q.ukmem }

/-- The history of inits after a call. -/
def noteInit (c : Call) (value : UInt64) (object : Nat) (inits : List (UInt64 × Int × UInt64)) :
    List (UInt64 × Int × UInt64) :=
  match c with
  | .kmemInit space pages => if value = 0 then (space, pages.toInt, UInt64.ofNat object) ::
    inits else inits
  | _ => inits

/-- The history of returned addresses after a call: those of the calls whose failure is a null
pointer. -/
def noteGiven (c : Call) (value : UInt64) (object : Nat) (given : List (UInt64 × UInt64)) :
    List (UInt64 × UInt64) :=
  if c.failure = 0 ∧ object ≠ 0 then (value, UInt64.ofNat object) :: given else given

/-- One operation. -/
def step (s : State) : Event → Option State
  | .allocproc ok =>
    if s.running then none
    else if ok then
      some ⟨s.kernel.modifyProc p fun q => { q with ukmem := Kmem.zeroed }, true, [], []⟩
    else some { s with kernel := freeproc p s.kernel }
  | .call c =>
    if s.running then
      match c.exec s.kernel p, c.object s.kernel p with
      | .ok (k, value), .ok object => some ⟨k, true, noteInit c value object s.inits,
        noteGiven c value object s.given⟩
      | _, _ => none
    else none
  | .kexec sz =>
    if s.running then some
      { s with kernel := s.kernel.modifyProc p fun q => { q with uheapwinBase := sz } }
    else none
  | .freeproc => if s.running then some ⟨freeproc p s.kernel, false, [], []⟩ else none
  | .others k => some { s with kernel := others p s.kernel k }

/-! ### What should hold -/

/-- The fields are those of the one successful `sys_kmem_init`, and addresses translate back. -/
structure Translates (s : State) : Prop where
  window : (s.kernel.proc p).ukmemInited = true → s.inits =
    [((s.kernel.proc p).uheapwinBase, (s.kernel.proc p).kheapwinPages,
      (s.kernel.proc p).kheapwinBase)]
  given : ∀ g ∈ s.given, (s.kernel.proc p).toKernel g.1 = g.2

/-- A call returns, and with the value that means failure. -/
def ReportsFailure (k : Kernel) (c : Call) : Prop := ∃ k', c.exec k p = .ok (k', c.failure)

/-- The calls that are refused in a process without an arena. -/
def Refused (q : Proc) : Call → Prop
  | .cacheCreate .. | .cacheAlloc _ | .kmalloc _ => True
  | .kmemInit .. | .cacheFree .. | .cacheDestroy _ | .cacheInfo _ => False
  | .kfree u => u = 0 ∨ u < q.uheapwinBase ∨ q.uheapwinBase + q.windowBytes ≤ u

instance (q : Proc) : ∀ c, Decidable (Refused q c)
  | .cacheCreate .. | .cacheAlloc _ | .kmalloc _ => inferInstanceAs (Decidable True)
  | .kmemInit .. | .cacheFree .. | .cacheDestroy _
  | .cacheInfo _ => inferInstanceAs (Decidable False)
  | .kfree u =>
    inferInstanceAs (Decidable (u = 0 ∨ u < q.uheapwinBase ∨ q.uheapwinBase + q.windowBytes ≤ u))

/-- No `kexec` moves an initialised window. A call may have any handle; a handle that is no
descriptor is a record of its own here, so writes through it that would reach `struct proc` or
`block_meta` are not represented. -/
def Guard (s : State) : Event → Prop
  | .kexec sz => (s.kernel.proc p).ukmemInited = false ∨ sz = (s.kernel.proc p).uheapwinBase
  | .allocproc _ | .call _ | .freeproc | .others _ => True

instance (s : State) : ∀ e, Decidable (Guard p s e)
  | .kexec sz => inferInstanceAs (Decidable ((s.kernel.proc p).ukmemInited = false ∨
    sz = (s.kernel.proc p).uheapwinBase))
  | .allocproc _ | .call _ | .freeproc | .others _ => inferInstanceAs (Decidable True)

/-- An unused slot, with anything in its other fields. -/
structure Fresh (s : State) : Prop where
  unused : s.running = false
  inited : (s.kernel.proc p).ukmemInited = false
  inits : s.inits = []
  given : s.given = []

/-! ### Calls without an arena -/

section Refusals

variable {p} {k : Kernel} {c : Call}

/-- A call that returns `0`, if it returns, reports no failure when `-1` means failure. -/
theorem not_reportsFailure (minus : c.failure = minusOne)
    (returns : ∀ k' result, c.exec k p = .ok (k', result) → result = 0) :
    ¬ ReportsFailure p k c := by
  rintro ⟨k', done⟩
  have zero := returns k' _ done
  rw [minus] at zero
  exact absurd zero (by decide)

/-- **Without an arena exactly the refused calls report failure.** -/
theorem reportsFailure_iff (none : (k.proc p).ukmemInited = false)
    (notInit : ∀ space pages, c ≠ .kmemInit space pages) :
    ReportsFailure p k c ↔ Refused (k.proc p) c := by
  cases c with
  | kmemInit space pages => exact absurd rfl (notInit space pages)
  | cacheCreate uname size =>
    refine ⟨fun _ => trivial, fun _ => ⟨k, ?_⟩⟩
    rw [Call.exec, Kernel.sysKmemCacheCreate, Kernel.createCache_uninited none]
    rfl
  | cacheAlloc hc =>
    refine ⟨fun _ => trivial, fun _ => ⟨k, ?_⟩⟩
    rw [Call.exec, Kernel.sysKmemCacheAlloc, Kernel.allocObject_uninited none]
    rfl
  | cacheFree hc uobj =>
    refine iff_of_false (not_reportsFailure rfl fun k' result done => ?_) id
    simp only [Call.exec, Kernel.sysKmemCacheFree, none] at done
    cases done
    rfl
  | cacheDestroy hc =>
    refine iff_of_false (not_reportsFailure rfl fun k' result done => ?_) id
    simp only [Call.exec, Kernel.sysKmemCacheDestroy, none] at done
    cases done
    rfl
  | cacheInfo hc =>
    refine iff_of_false (not_reportsFailure rfl fun k' result done => ?_) id
    simp only [Call.exec, Kernel.sysKmemCacheInfo, none] at done
    cases done
    rfl
  | kmalloc n =>
    refine ⟨fun _ => trivial, fun _ => ⟨k, ?_⟩⟩
    rw [Call.exec, Kernel.sysKmalloc, Kernel.kmallocObject_uninited none]
    rfl
  | kfree u =>
    by_cases refused : Refused (k.proc p) (.kfree u)
    · refine iff_of_true ?_ refused
      by_cases null : u = 0
      · exact ⟨k, by simp [Call.exec, Kernel.sysKfree, null, Call.failure]⟩
      · have outside := refused.resolve_left null
        exact ⟨_, by
          simp [Call.exec, Kernel.sysKfree, null, Call.failure, Kernel.kmemPush, outside]
          rfl⟩
    · refine iff_of_false (not_reportsFailure rfl fun k' result done => ?_) refused
      have nonnull : u ≠ 0 := fun null => refused (.inl null)
      have inside :
          ¬ (u < (k.proc p).uheapwinBase ∨ (k.proc p).uheapwinBase + (k.proc p).windowBytes ≤ u) :=
        fun outside => refused (.inr outside)
      simp only [Call.exec, Kernel.sysKfree, nonnull, if_false, Kernel.kmemPush, inside] at done
      obtain ⟨k₁, _, done⟩ := bind_eq_ok done
      cases done
      rfl

end Refusals

/-! ### The invariant -/

section Steps

variable {p} {s s' : State}

/-- The history matches the fields, and an unused slot has no arena. -/
structure Inv (p : Nat) (s : State) : Prop where
  unused : s.running = false → (s.kernel.proc p).ukmemInited = false
  inits : s.inits = if (s.kernel.proc p).ukmemInited then
    [((s.kernel.proc p).uheapwinBase, (s.kernel.proc p).kheapwinPages,
      (s.kernel.proc p).kheapwinBase)] else []
  given : ∀ g ∈ s.given, (s.kernel.proc p).toKernel g.1 = g.2
  none : (s.kernel.proc p).ukmemInited = false → s.given = []

theorem Fresh.inv (fresh : Fresh p s) : Inv p s where
  unused := fun _ => fresh.inited
  inits := by rw [fresh.inits, fresh.inited]; rfl
  given := by rw [fresh.given]; exact fun g isGiven => absurd isGiven List.not_mem_nil
  none := fun _ => fresh.given

theorem Inv.translates (inv : Inv p s) : Translates p s where
  window := fun inited => by rw [inv.inits, inited]; rfl
  given := inv.given

/-- An operation that keeps the window keeps the invariant. -/
theorem Inv.sameWindow (inv : Inv p s) (running : s'.running = s.running)
    (same : (s'.kernel.proc p).window = (s.kernel.proc p).window) (inits : s'.inits = s.inits)
    (given : ∀ g ∈ s'.given, g ∈ s.given ∨ (s.kernel.proc p).ukmemInited = true ∧
      (s.kernel.proc p).toKernel g.1 = g.2) :
    Inv p s' := by
  simp only [Proc.window, Prod.mk.injEq] at same
  obtain ⟨base, pages, user, inited⟩ := same
  have translate : (s'.kernel.proc p).toKernel = (s.kernel.proc p).toKernel := by
    funext u
    simp only [Proc.toKernel, base, user]
  refine ⟨?_, ?_, ?_, ?_⟩
  · rw [running, inited]
    exact inv.unused
  · rw [inits, inited, user, pages, base]
    exact inv.inits
  · intro g isGiven
    rw [translate]
    rcases given g isGiven with old | ⟨_, new⟩
    · exact inv.given g old
    · exact new
  · intro without
    rw [inited] at without
    refine List.eq_nil_iff_forall_not_mem.mpr fun g isGiven => ?_
    rcases given g isGiven with old | ⟨contra, _⟩
    · rw [inv.none without] at old
      exact List.not_mem_nil old
    · rw [without] at contra
      cases contra

/-- A process without an arena, just started or gone. -/
theorem inv_of_none (without : (s.kernel.proc p).ukmemInited = false) (inits : s.inits = [])
    (given : s.given = []) : Inv p s where
  unused := fun _ => without
  inits := by rw [inits, without]; rfl
  given := by rw [given]; exact fun g isGiven => absurd isGiven List.not_mem_nil
  none := fun _ => given

/-- A call that changes no window keeps the invariant. -/
theorem Inv.call (inv : Inv p s) {c : Call} {k : Kernel} {value : UInt64} {object : Nat}
    (done : c.exec s.kernel p = .ok (k, value)) (obtained : c.object s.kernel p = .ok object)
    (same : (k.proc p).window = (s.kernel.proc p).window)
    (inits : noteInit c value object s.inits = s.inits) :
    Inv p ⟨k, s.running, noteInit c value object s.inits, noteGiven c value object s.given⟩ := by
  refine inv.sameWindow rfl same inits fun g isGiven => ?_
  unfold noteGiven at isGiven
  split at isGiven
  next new =>
    rcases List.mem_cons.mp isGiven with rfl | old
    · refine .inr ⟨Kernel.inited_of_object new.1 obtained new.2, ?_⟩
      have back := Kernel.exec_object done obtained new.2 new.1
      simp only [Proc.window, Prod.mk.injEq] at same
      simpa only [Proc.toKernel, same.1, same.2.2.1] using back
    · exact .inl old
  next => exact .inl isGiven

/-- `sys_kmem_init` keeps the invariant: it succeeds only in a process without an arena. -/
theorem Inv.kmemInit (inv : Inv p s) {space value : UInt64} {pages : Int32} {k : Kernel}
    {object : Nat} (done : s.kernel.sysKmemInit p space pages = .ok (k, value))
    (obtained : (Call.kmemInit space pages).object s.kernel p = .ok object)
    (running : s.running = true) :
    Inv p ⟨k, true, noteInit (.kmemInit space pages) value object s.inits, s.given⟩ := by
  rcases Kernel.sysKmemInit_window done with ⟨same, failed⟩ |
    ⟨without, ⟨written, failed⟩ | ⟨arena, isArena, written, zero⟩⟩
  · refine inv.sameWindow running.symm same ?_ fun g isGiven => .inl isGiven
    rw [failed]
    rfl
  · simp only [Proc.window, Prod.mk.injEq] at written
    refine inv_of_none written.2.2.2 ?_ (inv.none without)
    rw [failed]
    have none := inv.inits
    rw [without] at none
    exact none
  · simp only [Call.object] at obtained
    rw [isArena] at obtained
    cases obtained
    simp only [Proc.window, Prod.mk.injEq] at written
    obtain ⟨base, count, user, inited⟩ := written
    refine ⟨fun contra => absurd contra (by simp), ?_, ?_, fun contra => ?_⟩
    · have none := inv.inits
      rw [without] at none
      simp only [noteInit, zero, if_true, none, inited, base, count, user]
      rfl
    · rw [inv.none without]
      exact fun g isGiven => absurd isGiven List.not_mem_nil
    · rw [inited] at contra
      cases contra

/-- **Every guarded operation keeps the invariant.** -/
theorem Inv.step {e : Event} (inv : Inv p s) (allowed : Guard p s e)
    (taken : step p s e = some s') : Inv p s' := by
  cases e with
  | allocproc ok =>
    simp only [Window.step] at taken
    split at taken
    · cases taken
    next unused =>
    have without := inv.unused (by simpa using unused)
    split at taken
    · cases taken
      exact inv_of_none (by rw [Kernel.modifyProc_self]; exact without) rfl rfl
    · cases taken
      have inits := inv.inits
      rw [without] at inits
      exact inv_of_none (by rw [freeproc, Kernel.modifyProc_self]) inits (inv.none without)
  | call c =>
    simp only [Window.step] at taken
    split at taken
    next running =>
      split at taken
      next k value object done obtained =>
        cases taken
        by_cases isInit : ∃ space pages, c = .kmemInit space pages
        · obtain ⟨space, pages, rfl⟩ := isInit
          exact inv.kmemInit done obtained running
        · have notInit : ∀ space pages, c ≠ .kmemInit space pages :=
            fun space pages eq => isInit ⟨space, pages, eq⟩
          have inits : noteInit c value object s.inits = s.inits := by
            cases c with
            | kmemInit space pages => exact absurd rfl (notInit space pages)
            | _ => rfl
          have kept := inv.call done obtained (Kernel.exec_window notInit done) inits
          rwa [running] at kept
      next => cases taken
    next => cases taken
  | kexec sz =>
    simp only [Window.step] at taken
    split at taken
    · cases taken
      rcases allowed with without | same
      · have inits := inv.inits
        rw [without] at inits
        exact inv_of_none (by rw [Kernel.modifyProc_self]; exact without) inits (inv.none without)
      · refine inv.sameWindow rfl ?_ rfl fun g isGiven => .inl isGiven
        rw [Kernel.modifyProc_self, same]
    · cases taken
  | freeproc =>
    simp only [Window.step] at taken
    split at taken
    · cases taken
      exact inv_of_none (by rw [freeproc, Kernel.modifyProc_self]) rfl rfl
    · cases taken
  | others k =>
    cases taken
    refine inv.sameWindow rfl ?_ rfl fun g isGiven => .inl isGiven
    rw [others, Kernel.modifyProc_self]
    rfl

/-- A `kexec` that moves an initialised window leaves it wrong. -/
theorem Inv.kexec_moves (inv : Inv p s) {sz : UInt64}
    (inited : (s.kernel.proc p).ukmemInited = true) (moves : sz ≠ (s.kernel.proc p).uheapwinBase)
    (taken : Window.step p s (.kexec sz) = some s') : ¬ Translates p s' := by
  intro translates
  simp only [Window.step] at taken
  split at taken
  · cases taken
    have window := translates.window (by rw [Kernel.modifyProc_self]; exact inited)
    have old := inv.translates.window inited
    rw [Kernel.modifyProc_self] at window
    simp only [old, List.cons.injEq, Prod.mk.injEq] at window
    exact moves window.1.1.symm
  · cases taken

end Steps

/-! ### Every run -/

section Runs

variable {p} {s s' : State}

/-- **In every run in which no `kexec` moves an initialised window, the window is that of the one
successful `sys_kmem_init`, and every address returned stands for its object; without an arena
exactly the refused calls report failure.** -/
theorem translates_of_guarded (events : List Event) (fresh : Fresh p s)
    (guarded : Along (step p) (Guard p) s events) (reached : run (step p) s events = some s') :
    Translates p s' ∧ ((s'.kernel.proc p).ukmemInited = false →
      ∀ c, (∀ space pages, c ≠ .kmemInit space pages) →
      (ReportsFailure p s'.kernel c ↔ Refused (s'.kernel.proc p) c)) := by
  have inv : Inv p s' :=
    inv_of_run (fun _ _ _ inv allowed taken => inv.step allowed taken) events fresh.inv
      guarded reached
  exact ⟨inv.translates, fun without c notInit => reportsFailure_iff without notInit⟩

/-- A process table of zero bytes over an allocator. -/
def unusedSlot (k : Kmem) : State :=
  ⟨⟨k, fun _ => ⟨0, 0, 0, false, Kmem.zeroed⟩, none⟩, false, [], []⟩

theorem fresh_unusedSlot (p : Nat) (k : Kmem) : Fresh p (unusedSlot k) := ⟨rfl, rfl, rfl, rfl⟩

/-- The program of a process with an arena of sixteen pages. -/
def useArena : List Event := [.allocproc true, .call (.kmemInit 0x4000 16), .call (.kmalloc 100)]

theorem translates_of_guarded_useArena : ∃ k s, Kmem.Run Kmem.zeroed 0x80030000 32720 true k [] ∧
    Along (step 3) (Guard 3) (unusedSlot k) useArena ∧
    run (step 3) (unusedSlot k) useArena = some s ∧
    Translates 3 s ∧ ((s.kernel.proc 3).ukmemInited = false →
      ∀ c, (∀ space pages, c ≠ .kmemInit space pages) →
      (ReportsFailure 3 s.kernel c ↔ Refused (s.kernel.proc 3) c)) := by
  obtain ⟨k, init, observed⟩ := exists_ok (Kmem.zeroed.kmemInit 0x80030000 32720 true)
    (fun k => (decide (Along (step 3) (Guard 3) (unusedSlot k) useArena),
      (run (step 3) (unusedSlot k) useArena).map fun _ => ())) (true, some ()) (by decide +kernel)
  rw [Prod.mk.injEq, decide_eq_true_eq, Option.map_eq_some_iff] at observed
  obtain ⟨guarded, s, reached, _⟩ := observed
  exact ⟨k, s, .init init, guarded, reached,
    translates_of_guarded useArena (fresh_unusedSlot 3 k) guarded reached⟩

/-- The largest arenas for `n` other processes. -/
def takeArenas : Nat → Kmem → Except Fault Kmem
  | 0, k => .ok k
  | n + 1, k => do
    let (k, _) ← k.buddyAlloc 1024
    takeArenas n k

theorem takeArenas_run {k₀ : Kmem} {space : Nat} {blockNum : Int} {isKernel : Bool} :
    ∀ (n : Nat) {k k' : Kmem} {held : List Allocation}, Kmem.Run k₀ space blockNum isKernel k held →
      takeArenas n k = .ok k' → ∃ held', Kmem.Run k₀ space blockNum isKernel k' held'
  | 0, _, _, held, reached, taken => by
    cases taken
    exact ⟨held, reached⟩
  | n + 1, k, _, held, reached, taken => by
    obtain ⟨⟨k₁, base⟩, call, rest⟩ := bind_eq_ok taken
    have order : Buddy.orderForPages 1024 = .ok 10 := by decide
    exact takeArenas_run n (reached.call (.allocator (.buddyAlloc order call))) rest

/-- A `kexec` after `sys_kmem_init` moves the window away from the objects; a process without an
arena is told that `k_kmem_cache_free` succeeded, and after a failed `sys_kmem_init` also that
`kfree` did. -/
theorem window_wrong : ∃ k k' held, Kmem.Run Kmem.zeroed 0x80030000 32720 true k [] ∧
    Kmem.Run Kmem.zeroed 0x80030000 32720 true k' held ∧
    (∃ s, run (step 3) (unusedSlot k) (useArena ++ [.kexec 0x9000]) = some s ∧
      (s.kernel.proc 3).ukmemInited = true ∧
      s.given = [(77920, 2184982624)] ∧ (s.kernel.proc 3).toKernel 77920 = 2184962144 ∧
      ¬ Translates 3 s) ∧
    (∃ s, run (step 3) (unusedSlot k) [.allocproc true] = some s ∧
      (s.kernel.proc 3).ukmemInited = false ∧
      ¬ ReportsFailure 3 s.kernel (.cacheFree 0x5000 0x5000)) ∧
    ∃ s, run (step 3) (unusedSlot k') [.allocproc true, .call (.kmemInit 0x4000 1024)] = some s ∧
      (s.kernel.proc 3).ukmemInited = false ∧ ¬ ReportsFailure 3 s.kernel (.kfree 0x4008) := by
  obtain ⟨k, init, observed⟩ := exists_ok (Kmem.zeroed.kmemInit 0x80030000 32720 true)
    (fun k => (run (step 3) (unusedSlot k) (useArena ++ [.kexec 0x9000])).map fun s =>
      ((s.kernel.proc 3).ukmemInited, s.given, (s.kernel.proc 3).toKernel 77920))
    (some (true, [(77920, 2184982624)], 2184962144)) (by decide +kernel)
  obtain ⟨k', taken, observed'⟩ :=
    exists_ok (Kmem.zeroed.kmemInit 0x80030000 32720 true >>= takeArenas 8)
    (fun k => (run (step 3) (unusedSlot k) [.allocproc true, .call (.kmemInit 0x4000 1024)]).map
      fun s =>
      ((s.kernel.proc 3).ukmemInited, decide (Refused (s.kernel.proc 3) (.kfree 0x4008))))
        (some (false, false))
    (by decide +kernel)
  obtain ⟨k₁, init₁, taken⟩ := bind_eq_ok taken
  obtain ⟨held, reached'⟩ := takeArenas_run 8 (.init init₁) taken
  refine ⟨k, k', held, .init init, reached', ?_, ?_, ?_⟩
  · obtain ⟨s, reached, values⟩ := Option.map_eq_some_iff.mp observed
    simp only [Prod.mk.injEq] at values
    obtain ⟨inited, given, moved⟩ := values
    refine ⟨s, reached, inited, given, moved, fun translates => ?_⟩
    have back :=
      translates.given (77920, 2184982624) (by rw [given]; exact List.mem_singleton_self _)
    rw [moved] at back
    exact absurd back (by decide)
  · refine ⟨_, rfl, rfl, fun reports => ?_⟩
    exact (reportsFailure_iff (c := .cacheFree 0x5000 0x5000) rfl fun _ _ => by simp).mp reports
  · obtain ⟨s, reached, values⟩ := Option.map_eq_some_iff.mp observed'
    simp only [Prod.mk.injEq, decide_eq_false_iff_not] at values
    exact ⟨s, reached, values.1, fun reports =>
      values.2 ((reportsFailure_iff values.1 fun _ _ => by simp).mp reports)⟩

end Runs

end Window

end Xv6Slab
