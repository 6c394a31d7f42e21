/-
**`allocproc` and `kfork` when memory is short.**

`allocproc` takes a trapframe, three tables and a `ukmem` page, and `kfork` then copies the memory
of the parent. Every failure of these allocations is detected and rolled back, except one:
`allocproc` clears the `ukmem` page without looking at the result of `kalloc`.

* `Atomic` — a call succeeds, or leaves the allocated pages and the number of unused slots as they
  were.
* `makes_allocproc`, `makes_kfork` — what the two calls do.
* `fork_atomic_iff` — **they are atomic unless there is an unused slot and exactly four pages are
  free.**
-/

import Xv6Slab.Kernel.Vm.Image

namespace Xv6Slab

open Bytes

namespace Vm

open Kmem Radix

namespace Procs

/-- The unused slots of the process table. -/
def unused (s : Procs) : Set Nat := {i | i < nproc ∧ (s.slot i).state = .unused}

/-- **A call that makes a process is atomic**: it returns a process with its three pages, or
nothing, and then the allocated pages and the number of unused slots are as before. A write to the
null page is a fault, and then it does not return. -/
def Atomic (s : Procs) (call : Except Fault (Procs × Option Nat)) : Prop :=
  (∃ s' i, call = .ok (s', some i) ∧ i ∈ s.unused ∧ (s'.slot i).trapframe ≠ 0 ∧
    (s'.slot i).pagetable ≠ 0 ∧ (s'.slot i).ukmem ≠ 0) ∨
  ∃ s', call = .ok (s', none) ∧ s'.kmem.allocatedPages = s.kmem.allocatedPages ∧
  s'.unused.ncard = s.unused.ncard

/-- **A state of the kernel in which a process calls `fork`.** -/
structure WellFormed (s : Procs) (parent : Nat) (held : List Allocation) {space : Nat}
    {blockNum : Int} (given : Space space blockNum) : Prop where
  sound : Sound s.kmem held space blockNum
  /-- The page table of the parent is in memory that the kernel has handed out. -/
  readable : Readable (.of s.kmem held given) (s.slot parent).pagetable
  size : (s.slot parent).sz ≤ trapframeVa
  running : (s.slot parent).state ≠ .unused
  /-- Unused slots are as `freeproc` leaves them. -/
  cleared : ∀ i ∈ s.unused, s.slot i = .cleared

variable {text : TextPage} {s s' : Procs} {parent i : Nat} {w : Backdrop} {held : List Allocation}
  {space : Nat} {blockNum : Int} {given : Space space blockNum}

theorem findUnused_none : s.findUnused = none ↔ s.unused = ∅ := by
  unfold findUnused unused
  rw [List.find?_eq_none, Set.eq_empty_iff_forall_notMem]
  simp

theorem mem_unused_of_findUnused (found : s.findUnused = some i) : i ∈ s.unused := by
  have isUnused := List.find?_some found
  have member := List.mem_of_find?_eq_some found
  exact ⟨List.mem_range.mp member, of_decide_eq_true isUnused⟩

/-- What a call that makes a process does, with a condition on the new slot. -/
inductive Makes (text : TextPage) (w : Backdrop) (s : Procs) (new : Slot → Prop) :
    Except Fault (Procs × Option Nat) → Prop
  | fails {k : Kmem} : Owns w k ∅ → (s.unused ≠ ∅ → s.kmem.freePages.ncard ≠ 4) →
    Makes text w s new (.ok (⟨k, s.slot⟩, none))
  | faults : s.unused ≠ ∅ → s.kmem.freePages.ncard = 4 →
    Makes text w s new (.error (.panic "kerneltrap"))
  | makes {k : Kmem} {i : Nat} {p : Slot} : i ∈ s.unused → Image text w k p → new p →
      s.kmem.freePages.ncard ≠ 4 → Makes text w s new (.ok (s.setSlot k i p, some i))

/-- A slot that is cleared again is as before. -/
theorem setSlot_cleared {k : Kmem} (isCleared : s.slot i = .cleared) :
    s.setSlot k i .cleared = ⟨k, s.slot⟩ := by
  unfold setSlot
  rw [← isCleared, Function.update_eq_self]

/-- **`allocproc`.** -/
theorem makes_allocproc (text : TextPage) (owns : Owns w s.kmem ∅)
    (cleared : ∀ i ∈ s.unused, s.slot i = .cleared) :
    Makes text w s (fun p => p.state = .used ∧ p.sz = 0) (s.allocproc text) := by
  unfold allocproc
  cases found : s.findUnused with
  | none =>
    have none := findUnused_none.mp found
    exact .fails owns fun some => absurd none some
  | some i =>
    have isUnused := mem_unused_of_findUnused found
    have some : s.unused ≠ ∅ := Set.nonempty_iff_ne_empty.mp ⟨i, isUnused⟩
    have isCleared := cleared i isUnused
    dsimp only
    rw [isCleared]
    rcases owns.setupproc text with ⟨few, k, call, owns'⟩ | ⟨four, call⟩ |
      ⟨enough, k, p, call, image, isUsed, empty⟩
    · rw [call]
      show Makes text w s _ (.ok (s.setSlot k i .cleared, none))
      rw [setSlot_cleared isCleared]
      exact .fails owns' fun _ => by omega
    · rw [call]
      exact .faults some four
    · rw [call]
      exact .makes isUnused image ⟨isUsed, empty⟩ (by omega)

/-- **`kfork`.** -/
theorem makes_kfork (text : TextPage) (owns : Owns w s.kmem ∅)
    (readable : Readable w (s.slot parent).pagetable) (size : (s.slot parent).sz ≤ trapframeVa)
    (running : (s.slot parent).state ≠ .unused) (cleared : ∀ i ∈ s.unused, s.slot i = .cleared) :
    Makes text w s (fun p => p.state = .runnable ∧ p.sz = (s.slot parent).sz)
    (s.kfork text parent) := by
  unfold kfork
  have alloc := makes_allocproc text owns cleared
  generalize s.allocproc text = call at alloc
  cases alloc with
  | fails owns' when => exact .fails owns' when
  | faults some four => exact .faults some four
  | @makes k i p isUnused image new enough =>
    obtain ⟨isUsed, empty⟩ := new
    have ne : parent ≠ i := by
      rintro rfl
      exact running isUnused.2
    have isParent : (s.setSlot k i p).slot parent = s.slot parent := Function.update_of_ne ne ..
    have isChild : (s.setSlot k i p).slot i = p := Function.update_self ..
    have again : ∀ k' q, (s.setSlot k i p).setSlot k' i q = s.setSlot k' i q := fun k' q => by
      unfold setSlot
      rw [Function.update_idem]
    have maps := image.maps
    rw [empty] at maps
    obtain ⟨k₁, done, copy, result⟩ := maps.uvmcopy readable size
    simp only [bind, Except.bind, isParent, isChild]
    rw [show (s.setSlot k i p).kmem = k from rfl, copy]
    rcases result with ⟨rfl, maps₁⟩ | ⟨rfl, maps₁⟩
    · have outside :
          SameOutside (pageBytes p.trapframe) k₁.mem
          (copied k₁.mem p.trapframe (s.slot parent).trapframe 288) :=
        fun x outside => if_neg fun inside => outside ⟨inside.1, by omega⟩
      have move : memmove k₁ p.trapframe (s.slot parent).trapframe 288 = .ok (k₁.setMem _) :=
        if_neg image.nonnull.1
      have register :
          ∀ mem, SameOutside (pageBytes p.trapframe) mem (store mem (p.trapframe + 8 * 14) 8 0) :=
        fun _ =>
        store_entry_outside (by decide)
      have maps₂ := (maps₁.write (.inl rfl) outside).write (.inl rfl) (register _)
      simp only [Bool.not_true, Bool.false_eq_true, if_false, move, pure, Except.pure, again]
      exact .makes isUnused ⟨maps₂, image.nonnull, image.ne, size⟩ ⟨rfl, rfl⟩ enough
    · have image₁ : Image text w k₁ p :=
        ⟨maps₁.mono (Nat.zero_le _), image.nonnull, image.ne, image.size⟩
      obtain ⟨k', freed, owns'⟩ := image₁.freeproc
      simp only [Bool.not_false, if_true, freed, pure, Except.pure, again]
      rw [setSlot_cleared (cleared i isUnused)]
      exact .fails owns' fun _ => enough

/-- **When such a call is atomic.** -/
theorem Makes.atomic_iff {new : Slot → Prop} {call : Except Fault (Procs × Option Nat)}
    (makes : Makes text (.of s.kmem held given) s new call) :
    Atomic s call ↔ s.unused = ∅ ∨ s.kmem.freePages.ncard ≠ 4 := by
  cases makes with
  | @fails k owns when =>
    have same : Owns (Backdrop.withMem (.of s.kmem held given) s.kmem.mem) k ∅ := owns
    refine iff_of_true (.inr ⟨_, rfl, same.allocatedPages_eq, rfl⟩) ?_
    by_cases none : s.unused = ∅
    · exact .inl none
    · exact .inr (when none)
  | faults some four =>
    refine iff_of_false ?_ (not_or.mpr ⟨some, not_not.mpr four⟩)
    rintro (⟨_, _, isOk, _⟩ | ⟨_, isOk, _⟩) <;> cases isOk
  | @makes k i p isUnused image _ enough =>
    have isSlot : (s.setSlot k i p).slot i = p := Function.update_self ..
    refine iff_of_true (.inl ⟨_, i, rfl, isUnused, ?_⟩) (.inr enough)
    rw [isSlot]
    exact ⟨image.nonnull.1, image.nonnull.2, image.ukmem_ne⟩

/-- **`allocproc` and `kfork` are atomic unless there is an unused slot and exactly four pages are
free.** -/
theorem fork_atomic_iff (wellFormed : s.WellFormed parent held given) :
    Atomic s (s.allocproc text) ∧ Atomic s (s.kfork text parent) ↔ s.unused = ∅ ∨
    s.kmem.freePages.ncard ≠ 4 := by
  have owns : Owns (.of s.kmem held given) s.kmem ∅ := .of_sound wellFormed.sound
  have alloc := (makes_allocproc text owns wellFormed.cleared).atomic_iff
  have fork :=
    (makes_kfork text owns wellFormed.readable wellFormed.size wellFormed.running
      wellFormed.cleared).atomic_iff
  rw [alloc, fork, and_self_iff]

/-- A page of the kernel's text. -/
def kernelText : TextPage := ⟨0x80007000, by decide⟩

/-- The process table after `procinit`. -/
def fresh (k : Kmem) : Procs := ⟨k, fun _ => .cleared⟩

/-- **A process can be forked right after it was made.** -/
theorem wellFormed_setSlot {k : Kmem} {p : Slot} (cleared : ∀ i ∈ s.unused, s.slot i = .cleared)
    (image : Image text w k p) (running : p.state ≠ .unused) :
    ∃ held, (s.setSlot k i p).WellFormed i held w.given := by
  obtain ⟨held, sound, readable⟩ := image.readable
  have isSlot : (s.setSlot k i p).slot i = p := Function.update_self ..
  refine ⟨held,
    sound, by
    rw [isSlot]; exact readable, by
    rw [isSlot]; exact image.size, by rw [isSlot]; exact running, ?_⟩
  rintro j ⟨lt, isUnused⟩
  by_cases eq : j = i
  · rw [eq, isSlot] at isUnused
    exact absurd isUnused running
  · have other : (s.setSlot k i p).slot j = s.slot j := Function.update_of_ne eq ..
    rw [other] at isUnused ⊢
    exact cleared j ⟨lt, isUnused⟩

/-- Free blocks are free pages. -/
theorem ncard_freePages_ge {k : Kmem} (finite : k.freePages.Finite) {heads : List Nat}
    (nodup : heads.Nodup)
    (isHead : ∀ i ∈ heads, i < k.num ∧ (k.blockMeta i).isHeadOfFreeBlock = true) :
    heads.length ≤ k.freePages.ncard := by
  have sub : (heads.toFinset : Set Nat) ⊆ k.freePages := fun i member => by
    rw [Finset.mem_coe, List.mem_toFinset] at member
    exact Buddy.mem_freePages_of_head (isHead i member).1 (isHead i member).2
  have card := Set.ncard_le_ncard sub finite
  rwa [Set.ncard_coe_finset, List.toFinset_card_of_nodup nodup] at card

theorem fork_atomic_firstProcess : ∃ k s, Kmem.Run zeroed 0x80030000 32720 true k [] ∧
    (fresh k).allocproc kernelText = .ok (s, some 0) ∧ Atomic s (s.allocproc kernelText) ∧
    Atomic s (s.kfork kernelText 0) := by
  obtain ⟨⟨s, i⟩, call, observed⟩ := exists_ok
    (zeroed.kmemInit 0x80030000 32720 true >>= fun k => (fresh k).allocproc kernelText)
    (fun (r : Procs × Option Nat) => (r.2, decide (∀ i ∈ ([0, 8192, 8704, 8960, 9025] : List Nat),
      i < r.1.kmem.num ∧ (r.1.kmem.blockMeta i).isHeadOfFreeBlock = true)))
    (some 0, true) (by decide +kernel)
  obtain ⟨rfl, free⟩ := Prod.mk.inj observed
  obtain ⟨k, init, alloc⟩ := bind_eq_ok call
  have booted : Kmem.Run zeroed 0x80030000 32720 true k [] := .init init
  have owns : Owns (.of k [] space_kernelHeap) (fresh k).kmem ∅ :=
    .of_sound (booted.sound space_kernelHeap rfl rfl)
  have makes := makes_allocproc kernelText owns fun _ _ => rfl
  rw [alloc] at makes
  generalize result : (Except.ok (s, some 0) : Except Fault (Procs × Option Nat)) = call' at makes
  cases makes with
  | fails => cases result
  | faults => cases result
  | @makes k' i p isUnused image new enough =>
    cases result
    obtain ⟨held, wellFormed⟩ :=
      wellFormed_setSlot (s := fresh k) (i := 0) (fun _ _ => rfl) image (by rw [new.1]; nofun)
    obtain ⟨sh, table, _⟩ := image.maps
    have many : 5 ≤ ((fresh k).setSlot k' 0 p).kmem.freePages.ncard :=
      ncard_freePages_ge table.owns.finite_free (by decide) (of_decide_eq_true free)
    exact ⟨k, _, booted, alloc, (fork_atomic_iff wellFormed).mpr (.inr (by omega))⟩

/-- The rest of the kernel takes blocks of some sizes. -/
def take (s : Procs) (sizes : List Nat) : Except Fault Procs := do
  return { s with kmem := ← sizes.foldlM (fun k n => return (← k.buddyAlloc n).1) s.kmem }

theorem not_atomic_of_isNone {call : Except Fault (Procs × Option Nat)}
    (faults : call.toOption.isNone = true) : ¬ Atomic s call := by
  rintro (⟨s', i, rfl, _⟩ | ⟨s', rfl, _⟩) <;> cases faults

/-- **With four free pages left, the first process cannot fork**: `allocproc` clears a null page. -/
theorem fork_fourPages : ∃ k s₀ s, Kmem.Run zeroed 0x80030000 32720 true k [] ∧
    (fresh k).allocproc kernelText = .ok (s₀, some 0) ∧
    s₀.take [8192, 512, 256, 64, 2, 1] = .ok s ∧ ¬ Atomic s (s.allocproc kernelText) ∧
    ¬ Atomic s (s.kfork kernelText 0) := by
  obtain ⟨⟨i, s⟩, call, observed⟩ := exists_ok
    (zeroed.kmemInit 0x80030000 32720 true >>= fun k => (fresh k).allocproc kernelText >>= fun r =>
      r.1.take [8192, 512, 256, 64, 2, 1] >>= fun s => .ok (r.2, s))
    (fun (r : Option Nat × Procs) => (r.1, (r.2.allocproc kernelText).toOption.isNone,
      (r.2.kfork kernelText 0).toOption.isNone))
    (some 0, true, true) (by decide +kernel)
  simp only [Prod.mk.injEq] at observed
  obtain ⟨rfl, first, second⟩ := observed
  obtain ⟨k, init, call⟩ := bind_eq_ok call
  obtain ⟨⟨s₀, i⟩, alloc, call⟩ := bind_eq_ok call
  obtain ⟨s', taken, done⟩ := bind_eq_ok call
  cases done
  exact ⟨k, s₀, s, .init init, alloc, taken, not_atomic_of_isNone first,
    not_atomic_of_isNone second⟩

end Procs

end Vm

end Xv6Slab
