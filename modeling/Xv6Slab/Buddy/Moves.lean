/-
**The moves of the buddy allocator on a represented pool.**

`Rep b free alloc` ties a state to the sets of blocks it represents: the flags say which blocks are
free and which are allocated, and the free lists agree with the flags. Each theorem here says that
one primitive succeeds on such a state and how the two sets change; `Effect` collects what callers
need to know about the new state.
-/

import Xv6Slab.Buddy.Lists

namespace Xv6Slab

open Bytes Chains Tilings

namespace Buddy

/-- The state represents these free and allocated blocks. -/
structure Rep (b : Buddy) (free alloc : Set Block) : Prop where
  region : b.Region
  freeEq : b.freeBlocks = free
  allocEq : b.allocBlocks = alloc
  lists : b.ListsRep free

/-- A new state represents `free` and `alloc`, manages the same region for the same owners, and
differs from the old one in memory at most in `touched`. -/
structure Effect (b b' : Buddy) (free alloc : Set Block) (touched : Set Nat) : Prop where
  rep : b'.Rep free alloc
  same : SameRegion b b'
  mem : SameOutside touched b.mem b'.mem

namespace Effect

variable {b b' b'' : Buddy} {free alloc free' alloc' : Set Block} {touched touched' : Set Nat}

theorem trans (first : Effect b b' free alloc touched)
    (second : Effect b' b'' free' alloc' touched) : Effect b b'' free' alloc' touched :=
  ⟨second.rep, first.same.trans second.same, first.mem.trans second.mem⟩

theorem mono (effect : Effect b b' free alloc touched) (sub : touched ⊆ touched') :
    Effect b b' free alloc touched' :=
  ⟨effect.rep, effect.same, effect.mem.mono sub⟩

end Effect

namespace Rep

variable {b : Buddy} {free alloc : Set Block} {i k : Nat}

theorem refl (rep : b.Rep free alloc) (touched : Set Nat) : Effect b b free alloc touched :=
  ⟨rep, SameRegion.refl b, SameOutside.refl _ _⟩

theorem inside (rep : b.Rep free alloc) : ∀ c ∈ free, c.index < b.num := by
  intro c member
  rw [← rep.freeEq] at member
  exact member.1

theorem functional (rep : b.Rep free alloc) :
    ∀ i k l, ⟨i, k⟩ ∈ free → ⟨i, l⟩ ∈ free → k = l := by
  intro i k l first second
  rw [← rep.freeEq] at first second
  exact first.2.2.symm.trans second.2.2

theorem functionalAlloc (rep : b.Rep free alloc) :
    ∀ i k l, ⟨i, k⟩ ∈ alloc → ⟨i, l⟩ ∈ alloc → k = l := by
  intro i k l first second
  rw [← rep.allocEq] at first second
  exact first.2.2.symm.trans second.2.2

/-- A metadata change of one page, described by what it does to the two sets. -/
theorem setMeta (rep : b.Rep free alloc) {m : BlockMeta} {free' alloc' : Set Block}
    (owner : m.ownerSlab = (b.blockMeta i).ownerSlab)
    (freeEq : (b.setMeta i m).freeBlocks = free') (allocEq : (b.setMeta i m).allocBlocks = alloc')
    (lists : b.ListsRep free') : Effect b (b.setMeta i m) free' alloc' ∅ where
  rep :=
    { region := (b.setMeta_sameRegion i m owner).region rep.region
      freeEq := freeEq
      allocEq := allocEq
      lists := lists.frame (fun _ => rfl) (fun _ _ => rfl) fun _ _ => rfl }
  same := b.setMeta_sameRegion i m owner
  mem := SameOutside.refl _ _

/-- Memory may change anywhere but in free blocks. -/
theorem withMem (rep : b.Rep free alloc) {mem : Mem} {touched : Set Nat}
    (same : SameOutside touched b.mem mem) (apart : ∀ a ∈ touched, a ∉ b.span free) :
    ({ b with mem := mem } : Buddy).Rep free alloc where
  region :=
    (show SameRegion b { b with mem := mem } from ⟨rfl, rfl, fun _ => rfl⟩).region rep.region
  freeEq := rep.freeEq
  allocEq := rep.allocEq
  lists := by
    refine rep.lists.frame (fun _ => rfl) (fun _ _ => rfl) fun c member => ?_
    refine same.load fun a low high inTouched => ?_
    exact apart a inTouched (link_mem_span member ⟨low, high⟩)

/-- **A page becomes the head of a free block**: `mark_free_head`, then `push_free`. -/
theorem insertFree (rep : b.Rep free alloc) (lt : i < b.num) (le : k ≤ maxOrder)
    (fresh : ∀ l, ⟨i, l⟩ ∉ free) :
    ∃ b₁, b.markFreeHead (b.page i) k = .ok b₁ ∧
      Effect b (b₁.pushFree k (b.page i)) (insert ⟨i, k⟩ free) alloc
        (Set.Ico (b.page i) (b.page i + 8)) := by
  have marked : b.markFreeHead (b.page i) k = .ok (b.setMeta i
      { b.blockMeta i with isHeadOfFreeBlock := true, freeOrder := k }) := by
    rw [markFreeHead, addrToIndex_page rep.region lt, modifyMeta_ok _ lt]
  refine ⟨_, marked, ?_⟩
  generalize metaEq : ({ b.blockMeta i with isHeadOfFreeBlock := true, freeOrder := k } : BlockMeta)
      = m
  have owner : m.ownerSlab = (b.blockMeta i).ownerSlab := by rw [← metaEq]
  have same := b.setMeta_sameRegion i m owner
  have freeEq : (b.setMeta i m).freeBlocks = insert ⟨i, k⟩ free := by
    rw [← rep.freeEq]
    exact setMeta_freeBlocks_insert lt (by rw [← metaEq]) (by rw [← metaEq])
      (by rw [rep.freeEq]; exact fresh)
  have allocEq : (b.setMeta i m).allocBlocks = alloc := by
    rw [← rep.allocEq]
    exact setMeta_allocBlocks_same (by rw [← metaEq]) (by rw [← metaEq])
  have lists : (b.setMeta i m).ListsRep free :=
    rep.lists.frame (fun _ => rfl) (fun _ _ => rfl) fun _ _ => rfl
  have pushed : SameRegion b ((b.setMeta i m).pushFree k (b.page i)) := ⟨rfl, rfl, same.owner⟩
  exact
    { rep :=
        { region := pushed.region rep.region
          freeEq := freeEq
          allocEq := allocEq
          lists := lists.push (same.region rep.region) rep.inside le fresh }
      same := pushed
      mem := store_sameOutside _ _ _ _ }

/-- **`pop_free` of a non-empty list** takes one free block of that order. -/
theorem pop (rep : b.Rep free alloc) (le : k ≤ maxOrder) (nonempty : b.freeArea k ≠ 0) :
    ∃ i b₁, ⟨i, k⟩ ∈ free ∧ b.popFree k = .ok (b₁, b.page i) ∧
      Effect b b₁ (free \ {⟨i, k⟩}) alloc ∅ := by
  obtain ⟨i, member, head⟩ : ∃ i, ⟨i, k⟩ ∈ free ∧ b.freeArea k = b.page i := by
    rcases rep.lists.head_cases le with ⟨empty, _⟩ | found
    · exact absurd empty nonempty
    · exact found
  have lt : i < b.num := rep.inside _ member
  let shorter : Buddy := { b with freeArea := Function.update b.freeArea k (b.link (b.page i)) }
  let m : BlockMeta := { b.blockMeta i with isHeadOfFreeBlock := false }
  have found : shorter.addrToIndex (b.page i) = i := addrToIndex_page rep.region lt
  have popped : b.popFree k = .ok (shorter.setMeta i m, b.page i) := by
    rw [popFree]
    simp only [head]
    rw [if_neg rep.region.page_pos.ne']
    show (if 0 ≤ shorter.addrToIndex (b.page i) then
      (shorter.modifyMeta (shorter.addrToIndex (b.page i)) fun m =>
        { m with isHeadOfFreeBlock := false }) >>= fun b₁ => pure (b₁, b.page i)
      else pure (shorter, b.page i)) = _
    rw [found, if_pos (Int.natCast_nonneg i), modifyMeta_ok (b := shorter) _ lt]
    rfl
  have same : SameRegion b (shorter.setMeta i m) := ⟨rfl, rfl, (b.setMeta_sameRegion i m rfl).owner⟩
  refine ⟨i, _, member, popped, ?_⟩
  exact
    { rep :=
        { region := same.region rep.region
          freeEq := by
            show (b.setMeta i m).freeBlocks = _
            rw [← rep.freeEq]
            refine setMeta_freeBlocks_erase rfl fun l inFree => ?_
            rw [rep.freeEq] at inFree
            exact rep.functional i l k inFree member
          allocEq := by
            show (b.setMeta i m).allocBlocks = _
            rw [← rep.allocEq]
            exact setMeta_allocBlocks_same rfl rfl
          lists := (rep.lists.pop member head).frame (fun _ => rfl) (fun _ _ => rfl)
            fun _ _ => rfl }
      same := same
      mem := SameOutside.refl _ _ }

/-- `mark_not_free_head` of a page that heads no free block changes neither set. -/
theorem markNotFreeHead (rep : b.Rep free alloc) (lt : i < b.num) (fresh : ∀ l, ⟨i, l⟩ ∉ free) :
    ∃ b₁, b.markNotFreeHead (b.page i) = .ok b₁ ∧ Effect b b₁ free alloc ∅ := by
  refine ⟨b.setMeta i { b.blockMeta i with isHeadOfFreeBlock := false }, ?_, ?_⟩
  · rw [Buddy.markNotFreeHead, addrToIndex_page rep.region lt, modifyMeta_ok _ lt]
  · refine rep.setMeta rfl ?_ ?_ rep.lists
    · rw [setMeta_freeBlocks_erase (k := 0) rfl, rep.freeEq]
      · exact Set.sdiff_singleton_eq_self (fresh 0)
      · intro l inFree
        rw [rep.freeEq] at inFree
        exact absurd inFree (fresh l)
    · rw [← rep.allocEq]
      exact setMeta_allocBlocks_same rfl rfl

/-- **A page becomes the head of an allocated block.** -/
theorem insertAlloc (rep : b.Rep free alloc) (lt : i < b.num) (freshFree : ∀ l, ⟨i, l⟩ ∉ free)
    (freshAlloc : ∀ l, ⟨i, l⟩ ∉ alloc) :
    ∃ b₁, (b.modifyMeta (b.addrToIndex (b.page i)) fun m =>
        { m with isHeadOfAllocBlock := true, allocOrder := k, isHeadOfFreeBlock := false }) =
          .ok b₁ ∧
      Effect b b₁ free (insert ⟨i, k⟩ alloc) ∅ := by
  refine ⟨b.setMeta i { b.blockMeta i with
    isHeadOfAllocBlock := true, allocOrder := k, isHeadOfFreeBlock := false }, ?_, ?_⟩
  · rw [addrToIndex_page rep.region lt, modifyMeta_ok _ lt]
  · refine rep.setMeta rfl ?_ ?_ rep.lists
    · rw [setMeta_freeBlocks_erase (k := 0) rfl, rep.freeEq]
      · exact Set.sdiff_singleton_eq_self (freshFree 0)
      · intro l inFree
        rw [rep.freeEq] at inFree
        exact absurd inFree (freshFree l)
    · rw [← rep.allocEq]
      exact setMeta_allocBlocks_insert lt rfl rfl (by rw [rep.allocEq]; exact freshAlloc)

/-- **An allocated head is cleared.** -/
theorem eraseAlloc (rep : b.Rep free alloc) (member : ⟨i, k⟩ ∈ alloc) :
    ∃ b₁, (b.modifyMeta i fun m => { m with isHeadOfAllocBlock := false }) = .ok b₁ ∧
      Effect b b₁ free (alloc \ {⟨i, k⟩}) ∅ := by
  have lt : i < b.num := by
    rw [← rep.allocEq] at member
    exact member.1
  refine ⟨_, modifyMeta_ok _ lt, rep.setMeta rfl ?_ ?_ rep.lists⟩
  · rw [← rep.freeEq]
    exact setMeta_freeBlocks_same rfl rfl
  · rw [← rep.allocEq]
    refine setMeta_allocBlocks_erase rfl fun l inAlloc => ?_
    rw [rep.allocEq] at inAlloc
    exact rep.functionalAlloc i l k inAlloc member

/-- **A free block is unlinked**: `remove_from_freelist` finds it, then its flag is cleared. -/
theorem unlink (rep : b.Rep free alloc) (le : k ≤ maxOrder) (member : ⟨i, k⟩ ∈ free) :
    ∃ b₁ b₂, b.removeFromFreelist k (b.page i) = .ok (b₁, true) ∧
      (b₁.modifyMeta i fun m => { m with isHeadOfFreeBlock := false }) = .ok b₂ ∧
      Effect b b₂ (free \ {⟨i, k⟩}) alloc (b.span free) := by
  have lt : i < b.num := rep.inside _ member
  obtain ⟨mem, freeArea, run, lists, frame⟩ :=
    rep.lists.remove rep.inside rep.functional le member
  let b₁ : Buddy := { b with mem := mem, freeArea := freeArea }
  let m : BlockMeta := { b.blockMeta i with isHeadOfFreeBlock := false }
  have same : SameRegion b (b₁.setMeta i m) := ⟨rfl, rfl, (b.setMeta_sameRegion i m rfl).owner⟩
  refine ⟨b₁, b₁.setMeta i m, run, modifyMeta_ok (b := b₁) _ lt, ?_⟩
  exact
    { rep :=
        { region := same.region rep.region
          freeEq := by
            show (b.setMeta i m).freeBlocks = _
            rw [← rep.freeEq]
            refine setMeta_freeBlocks_erase rfl fun l inFree => ?_
            rw [rep.freeEq] at inFree
            exact rep.functional i l k inFree member
          allocEq := by
            show (b.setMeta i m).allocBlocks = _
            rw [← rep.allocEq]
            exact setMeta_allocBlocks_same rfl rfl
          lists := lists.frame (fun _ => rfl) (fun _ _ => rfl) fun _ _ => rfl }
      same := same
      mem := frame }

end Rep

end Buddy

end Xv6Slab
