/-
**The pages of a process in the kernel's allocator.**

`kalloc` and `kfree` for one owner of pages. What everybody else holds is a `Backdrop`, which does
not change while the owner takes pages from a pool, writes to them and gives them back.

* `Owns` — the owner holds a set of pages; together with the free pages they are the pool.
* `Owns.kalloc`, `Owns.kfree`, `Owns.write` — the three things an owner does.
-/

import Xv6Slab.Kernel.Vm.Model
import Xv6Slab.Kernel.Results
import Xv6Slab.Spec.BuddyFrees

namespace Xv6Slab

open Bytes Tilings

namespace Kmem

variable {k k' : Kmem} {held : List Allocation} {space : Nat} {blockNum : Int} {p : Nat}

/-- The addresses of the free pages. -/
def freeAddrs (k : Kmem) : Set Nat := k.page '' k.freePages

/-- The pages that are allocated. -/
def allocatedPages (k : Kmem) : Set Nat := {i | i < k.num ∧ i ∉ k.freePages}

/-- The bytes of a page. -/
def pageBytes (p : Nat) : Set Nat := Set.Ico p (p + 4096)

theorem page_injective (k : Kmem) : Function.Injective k.page := by
  intro i j same
  simp only [Buddy.page] at same
  omega

theorem page_congr (start : k'.managedStart = k.managedStart) : k'.page = k.page := by
  funext i
  rw [Buddy.page, Buddy.page, start]

/-- Two states with the same region have the same free pages when they have the same addresses of
free pages. -/
theorem freePages_eq_of_freeAddrs (start : k'.managedStart = k.managedStart)
    (same : k'.freeAddrs = k.freeAddrs) : k'.freePages = k.freePages := by
  unfold freeAddrs at same
  rw [page_congr start] at same
  exact (Set.image_injective.mpr (page_injective k)) same

/-- A held block does not start at a free page. -/
theorem Sound.notMem_freeAddrs (sound : Sound k held space blockNum) {order : Nat}
    (isHeld : .block p order ∈ held) : p ∉ k.freeAddrs := by
  obtain ⟨v, core, same⟩ := sound.view
  obtain ⟨i, member, _, rfl⟩ := (same _).mp isHeld
  rintro ⟨j, isFree, eq⟩
  obtain rfl := page_injective k eq
  exact ((Buddy.mem_freePages core.slabs.pool).mp isFree).2 _ member (⟨j, order⟩ :
    Block).covers_index

/-- Where a held page lies. -/
theorem Sound.page_held (sound : Sound k held space blockNum) (given : Space space blockNum)
    (isHeld : .block p 0 ∈ held) : p ≠ 0 ∧ p % 4096 = 0 ∧ p + 4096 ≤ maxva ∧ p ∉ k.freeAddrs := by
  have notFree := sound.notMem_freeAddrs isHeld
  obtain ⟨v, core, same⟩ := sound.view
  obtain ⟨i, member, _, rfl⟩ := (same _).mp isHeld
  have placement := sound.placement
  have aligned := placement.aligned
  have before := placement.before
  have lt : i < k.num :=
    core.slabs.pool.tiling.lt_of_covers (Or.inr member) (⟨i, 0⟩ : Block).covers_index
  have fits := given.fits
  have inside := placement.inside.resolve_left (by omega)
  have pool : 0 < maxNumCaches * descSize := by decide
  refine ⟨?_, ?_, ?_, notFree⟩
  · rw [Buddy.page]
    omega
  · rw [Buddy.page]
    omega
  · rw [Buddy.page]
    omega

end Kmem

namespace Vm

open Kmem

/-- What an owner of pages does not change: what others hold, with its contents, and the pages there
are. -/
structure Backdrop where
  space : Nat
  blockNum : Int
  given : Space space blockNum
  start : Nat
  blocks : Int
  others : Set Allocation
  pool : Set Nat
  mem : Mem

/-- The bytes that others hold. -/
def Backdrop.bytes (w : Backdrop) : Set Nat := {x | ∃ a ∈ w.others, x ∈ a.bytes}

/-- **The owner holds a set of pages.** -/
structure Owns (w : Backdrop) (k : Kmem) (owned : Set Nat) : Prop where
  held : ∃ held, Sound k held w.space w.blockNum ∧ ∀ a, a ∈ held ↔ a ∈ w.others ∨
      ∃ p ∈ owned, a = .block p 0
  apart : ∀ p ∈ owned, .block p 0 ∉ w.others
  pool : k.freeAddrs ∪ owned = w.pool
  start : k.managedStart = w.start
  blocks : k.managedNumBlocks = w.blocks
  frozen : ∀ x ∈ w.bytes, k.mem x = w.mem x

namespace Owns

variable {w : Backdrop} {k k' : Kmem} {owned : Set Nat} {p q : Nat}

/-- Where an owned page lies. -/
theorem page (owns : Owns w k owned) (isOwned : p ∈ owned) :
    p ≠ 0 ∧ p % 4096 = 0 ∧ p + 4096 ≤ maxva ∧ p ∉ k.freeAddrs := by
  obtain ⟨held, sound, same⟩ := owns.held
  exact sound.page_held w.given ((same _).mpr (.inr ⟨p, isOwned, rfl⟩))

theorem nonnull (owns : Owns w k owned) (isOwned : p ∈ owned) : p ≠ 0 := (owns.page isOwned).1

/-- Owned pages do not overlap. -/
theorem disjoint (owns : Owns w k owned) (isOwned : p ∈ owned) (isOwned' : q ∈ owned) (ne : p ≠ q) :
    Disjoint (pageBytes p) (pageBytes q) := by
  obtain ⟨held, sound, same⟩ := owns.held
  refine sound.held_disjoint ((same _).mpr (.inr ⟨p, isOwned, rfl⟩))
    ((same _).mpr (.inr ⟨q, isOwned', rfl⟩)) fun eq => ne ?_
  injection eq

/-- They lie apart from what others hold. -/
theorem disjoint_others (owns : Owns w k owned) (isOwned : p ∈ owned) :
    Disjoint (pageBytes p) w.bytes := by
  obtain ⟨held, sound, same⟩ := owns.held
  rw [Set.disjoint_left]
  rintro x inside ⟨a, isOther, inside'⟩
  refine Set.disjoint_left.mp (sound.held_disjoint ((same _).mpr (.inr ⟨p, isOwned, rfl⟩))
    ((same a).mpr (.inl isOther)) ?_) inside inside'
  rintro rfl
  exact owns.apart p isOwned isOther

/-- The number of free pages. -/
theorem finite_free (owns : Owns w k owned) : k.freePages.Finite := by
  obtain ⟨held, sound, _⟩ := owns.held
  obtain ⟨v, core, _⟩ := sound.view
  exact (Set.finite_Iio k.num).subset fun i isFree =>
    ((Buddy.mem_freePages core.slabs.pool).mp isFree).1

/-- A write inside an owned page. -/
theorem write (owns : Owns w k owned) (isOwned : p ∈ owned) {mem : Mem}
    (outside : SameOutside (pageBytes p) k.mem mem) : Owns w (k.setMem mem) owned := by
  obtain ⟨held, sound, same⟩ := owns.held
  refine ⟨⟨held, sound.writeObject ((same _).mpr (.inr ⟨p, isOwned, rfl⟩)) outside, same⟩,
    owns.apart, owns.pool, owns.start, owns.blocks, fun x isOther => ?_⟩
  have notIn := Set.disjoint_right.mp (owns.disjoint_others isOwned) isOther
  exact (outside x notIn).trans (owns.frozen x isOther)

/-- **`kalloc`**: no page is free, or the owner gets one more. -/
theorem kalloc (owns : Owns w k owned) :
    k.kalloc = .ok (k, 0) ∧ k.freePages = ∅ ∨
      ∃ k' p, k.kalloc = .ok (k', p) ∧ p ≠ 0 ∧ p ∉ owned ∧ Owns w k' (insert p owned) ∧
        k'.freePages.ncard + 1 = k.freePages.ncard ∧ ∀ q ∈ owned, ∀ x ∈ pageBytes q,
        k'.mem x = k.mem x := by
  obtain ⟨held, sound, same⟩ := owns.held
  obtain ⟨v, core, view⟩ := sound.view
  rcases core.buddyAlloc_spec (by decide) orderForPages_one with failed |
    ⟨k', p, call, nonnull, gains⟩
  · rcases sound.kalloc_cases failed with ⟨_, _, none⟩ | ⟨nonnull, _⟩
    · exact .inl ⟨failed, none⟩
    · exact absurd rfl nonnull
  · obtain ⟨_, i, isFree, rfl, freed⟩ :=
      (sound.kalloc_cases call).resolve_left fun failed => nonnull failed.1
    have leaves := gains.leaves core view
    have start : k'.managedStart = k.managedStart := gains.calm.start
    have notHeld : .block (k.page i) 0 ∉ held := fun isHeld => gains.fresh ((view _).mp isHeld)
    have notOwned : k.page i ∉ owned :=
      fun isOwned => notHeld ((same _).mpr (.inr ⟨_, isOwned, rfl⟩))
    have page : k'.page = k.page := page_congr start
    refine .inr ⟨k', k.page i, call, nonnull, notOwned,
      ⟨⟨_, sound.gains view gains, fun a => ?_⟩, ?_, ?_, ?_, ?_, ?_⟩, ?_, ?_⟩
    · rw [List.mem_cons, same]
      constructor
      · rintro (rfl | isOther | ⟨q, isOwned, rfl⟩)
        · exact .inr ⟨_, .inl rfl, rfl⟩
        · exact .inl isOther
        · exact .inr ⟨q, .inr isOwned, rfl⟩
      · rintro (isOther | ⟨q, rfl | isOwned, rfl⟩)
        · exact .inr (.inl isOther)
        · exact .inl rfl
        · exact .inr (.inr ⟨q, isOwned, rfl⟩)
    · rintro q (rfl | isOwned)
      · exact fun isOther => notHeld ((same _).mpr (.inl isOther))
      · exact owns.apart q isOwned
    · rw [← owns.pool]
      unfold freeAddrs
      rw [page, freed]
      ext q
      constructor
      · rintro (⟨j, ⟨isFree', _⟩, rfl⟩ | rfl | isOwned)
        · exact .inl ⟨j, isFree', rfl⟩
        · exact .inl ⟨i, isFree, rfl⟩
        · exact .inr isOwned
      · rintro (⟨j, isFree', rfl⟩ | isOwned)
        · by_cases eq : j = i
          · exact .inr (.inl (congrArg k.page eq))
          · exact .inl ⟨j, ⟨isFree', eq⟩, rfl⟩
        · exact .inr (.inr isOwned)
    · exact start.trans owns.start
    · exact gains.calm.blocks.trans owns.blocks
    · rintro x ⟨a, isOther, inside⟩
      exact (leaves.contents x ⟨a, (same a).mpr (.inl isOther), inside⟩).trans
        (owns.frozen x ⟨a, isOther, inside⟩)
    · rw [freed]
      exact Set.ncard_sdiff_singleton_add_one isFree owns.finite_free
    · exact fun q isOwned x inside => leaves.contents x ⟨_, (same _).mpr (.inr ⟨q, isOwned, rfl⟩),
        inside⟩

/-- **`kfree`** of an owned page. -/
theorem kfree (owns : Owns w k owned) (isOwned : p ∈ owned) :
    ∃ k', k.kfree p = .ok k' ∧ Owns w k' (owned \ {p}) ∧ ∀ q ∈ owned, q ≠ p →
    ∀ x ∈ pageBytes q, k'.mem x = k.mem x := by
  obtain ⟨held, sound, same⟩ := owns.held
  obtain ⟨v, core, view⟩ := sound.view
  have isHeld : .block p 0 ∈ held := (same _).mpr (.inr ⟨p, isOwned, rfl⟩)
  have isLive := (view _).mp isHeld
  obtain ⟨k', call, loses⟩ := core.buddyFree_spec isLive
  have contents : ∀ a ∈ held, a ≠ .block p 0 → ∀ x ∈ a.bytes, k'.mem x = k.mem x :=
    fun a aHeld ne => loses.contents core isLive ((view a).mp aHeld) ne
  have freed : k'.freeAddrs = insert p k.freeAddrs := by
    obtain ⟨i, member, unowned, rfl⟩ := isLive
    obtain ⟨b, run, frees, _⟩ := core.ready.accept member unowned
    have sameCall : k.buddyFree (k.page i) = .ok (k.setBuddy b) := by
      unfold buddyFree
      rw [run]
      rfl
    obtain rfl := Except.ok.inj (sameCall.symm.trans call)
    have page : (k.setBuddy b).page = k.page := page_congr frees.region.1
    have pages : (k.setBuddy b).freePages = insert i k.freePages := by
      rw [show (k.setBuddy b).freePages = k.freePages ∪ Buddy.pagesOf ⟨i, 0⟩ from frees.freed,
        pagesOf_zero, Set.union_comm]
      rfl
    unfold freeAddrs
    rw [page, pages, Set.image_insert_eq]
  refine ⟨k', call,
    ⟨⟨_, sound.loses view loses, fun a => ?_⟩, fun q isOwned' => owns.apart q isOwned'.1, ?_, ?_,
      ?_, ?_⟩, ?_⟩
  · rw [sound.nodup.mem_erase_iff, same]
    constructor
    · rintro ⟨ne, isOther | ⟨q, isOwned', rfl⟩⟩
      · exact .inl isOther
      · exact .inr ⟨q, ⟨isOwned', fun eq => ne (congrArg (Allocation.block · 0) eq)⟩, rfl⟩
    · rintro (isOther | ⟨q, ⟨isOwned', ne⟩, rfl⟩)
      · refine ⟨?_, .inl isOther⟩
        rintro rfl
        exact owns.apart p isOwned isOther
      · exact ⟨fun eq => ne (by injection eq), .inr ⟨q, isOwned', rfl⟩⟩
  · rw [freed, ← owns.pool]
    ext q
    by_cases eq : q = p
    · exact iff_of_true (.inl (.inl eq)) (.inr (eq ▸ isOwned))
    · constructor
      · rintro ((isP | isFree) | isOwned')
        · exact absurd isP eq
        · exact .inl isFree
        · exact .inr isOwned'.1
      · rintro (isFree | isOwned')
        · exact .inl (.inr isFree)
        · exact .inr ⟨isOwned', eq⟩
  · exact loses.calm.start.trans owns.start
  · exact loses.calm.blocks.trans owns.blocks
  · rintro x ⟨a, isOther, inside⟩
    refine (contents a ((same a).mpr (.inl isOther)) ?_ x inside).trans
      (owns.frozen x ⟨a, isOther, inside⟩)
    rintro rfl
    exact owns.apart p isOwned isOther
  · exact fun q isOwned' ne => contents _ ((same _).mpr (.inr ⟨q, isOwned', rfl⟩)) fun eq =>
      ne (by injection eq)

end Owns

/-- What there is besides an owner that comes into being now. -/
def Backdrop.of (k : Kmem) (held : List Allocation) {space : Nat} {blockNum : Int}
    (given : Space space blockNum) : Backdrop :=
  ⟨space, blockNum, given, k.managedStart, k.managedNumBlocks, {a | a ∈ held}, k.freeAddrs, k.mem⟩

variable {k k' : Kmem} {held : List Allocation} {space : Nat} {blockNum : Int}
  {given : Space space blockNum}

/-- A new owner has no pages. -/
theorem Owns.of_sound (sound : Sound k held space blockNum) : Owns (.of k held given) k ∅ where
  held :=
    ⟨held, sound, fun _ => ⟨.inl, fun either => either.elim id fun ⟨_, isOwned, _⟩ => isOwned.elim⟩⟩
  apart := fun _ isOwned => isOwned.elim
  pool := Set.union_empty _
  start := rfl
  blocks := rfl
  frozen := fun _ _ => rfl

/-- The same backdrop, with other contents. -/
def Backdrop.withMem (w : Backdrop) (mem : Mem) : Backdrop := { w with mem := mem }

/-- **An owner that has given back its pages has left the allocated pages as they were.** -/
theorem Owns.allocatedPages_eq {mem : Mem}
    (owns : Owns (Backdrop.withMem (.of k held given) mem) k' ∅) :
    k'.allocatedPages = k.allocatedPages := by
  have pool := owns.pool
  rw [Set.union_empty] at pool
  have num : k'.num = k.num := congrArg Int.toNat owns.blocks
  unfold allocatedPages
  rw [num, freePages_eq_of_freeAddrs owns.start pool]

end Vm

end Xv6Slab
