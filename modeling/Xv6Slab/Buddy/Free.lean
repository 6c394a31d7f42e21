/-
**`buddy_free` on a represented pool.**

* `partner` — the block that the merge loop of `buddy_free_order` looks at: the page whose address
  differs in one bit, if `addr_to_index` accepts it. Partners are neighbours (`partner_neighbours`),
  whatever the alignment of the region is.
* `mergeLoop_spec` — the merge loop is a `Cascade` along partners, and **never leaves through the
  exit for a buddy that is missing from its free list**.
* `buddyFree_accepts`, `buddyFree_rejects` — a pointer is either the base of an allocated block
  without an owner, and then exactly this block is released, or nothing changes.
-/

import Xv6Slab.Buddy.Moves

namespace Xv6Slab

open Bytes Chains Tilings

namespace Buddy

/-! ### Partners -/

/-- The block the merge loop would merge with. -/
def partner (b : Buddy) (c : Block) : Option Block :=
  let idx := b.addrToIndex (b.page c.index ^^^ (blockSize * 2 ^ c.order))
  if idx < 0 then none else some ⟨idx.toNat, c.order⟩

theorem SameRegion.addrToIndex {b b' : Buddy} (same : SameRegion b b') (ptr : Nat) :
    b'.addrToIndex ptr = b.addrToIndex ptr := by
  simp only [Buddy.addrToIndex, same.start, same.blocks]

theorem SameRegion.partner {b b' : Buddy} (same : SameRegion b b') : b'.partner = b.partner := by
  funext c
  simp only [Buddy.partner, same.page, same.addrToIndex]

/-- The address of the other half of a block of the next order. -/
theorem xor_page (b : Buddy) (i k : Nat) :
    b.page i ^^^ (blockSize * 2 ^ k) =
      if b.page i / 2 ^ (12 + k) % 2 = 0 then b.page i + 4096 * 2 ^ k
      else b.page i - 4096 * 2 ^ k := by
  have size : blockSize * 2 ^ k = 2 ^ (12 + k) := by
    rw [pow_add]
    rfl
  rw [size, xor_two_pow, ← size]

theorem partner_eq_some {b : Buddy} (region : b.Region) {i k j l : Nat} (lt : i < b.num)
    (below : k < maxOrder) (found : b.partner ⟨i, k⟩ = some ⟨j, l⟩) :
    l = k ∧ j < b.num ∧ b.page i ^^^ (blockSize * 2 ^ k) = b.page j ∧
      b.addrToIndex (b.page j) = j := by
  have small := region.num_lt
  simp only [partner] at found
  split_ifs at found with missing
  rw [Option.some.injEq, Block.mk.injEq] at found
  obtain ⟨index, order⟩ := found
  have power : 2 ^ k ≤ 2 ^ 14 := Nat.pow_le_pow_right (by decide) (Nat.le_of_lt_succ below)
  have near : b.page i ^^^ (blockSize * 2 ^ k) < b.managedStart + 2 ^ 44 := by
    rw [xor_page, page]
    split_ifs <;> omega
  obtain ⟨m, mLt, address, value⟩ := addrToIndex_near near (by omega)
  have same : m = j := by
    rw [value] at index
    simpa using index
  subst same
  exact ⟨order.symm, mLt, address, by rw [← address]; exact value⟩

theorem partner_of_xor {b : Buddy} (region : b.Region) {i k j : Nat} (lt : j < b.num)
    (address : b.page i ^^^ (blockSize * 2 ^ k) = b.page j) : b.partner ⟨i, k⟩ = some ⟨j, k⟩ := by
  have notNeg : ¬ (j : Int) < 0 := by omega
  simp only [partner, address, addrToIndex_page region lt, if_neg notNeg, Int.toNat_natCast]

/-- **Partners are neighbours**, for a region of any alignment. -/
theorem partner_neighbours {b : Buddy} (region : b.Region) :
    Neighbours b.partner maxOrder b.num := by
  rintro ⟨i, k⟩ ⟨j, l⟩ lt below found
  obtain ⟨rfl, _, address, _⟩ := partner_eq_some region lt below found
  refine ⟨rfl, ?_⟩
  have size : 4096 * 2 ^ l = 2 ^ (12 + l) := by
    rw [pow_add]
    rfl
  rw [xor_page] at address
  by_cases bit : b.page i / 2 ^ (12 + l) % 2 = 0
  · left
    rw [if_pos bit] at address
    simp only [page] at address ⊢
    omega
  · right
    rw [if_neg bit] at address
    have large : 4096 * 2 ^ l ≤ b.page i := by
      by_contra short
      rw [Nat.div_eq_of_lt (by omega)] at bit
      exact bit rfl
    simp only [page] at address large ⊢
    omega

/-! ### Merging -/

/-- The base of a merged block. -/
theorem page_min (b : Buddy) (i j : Nat) :
    (if b.page j < b.page i then b.page j else b.page i) = b.page (min i j) := by
  rcases lt_or_ge j i with before | after
  · rw [if_pos (by simp only [page]; omega), min_eq_right before.le]
  · rw [if_neg (by simp only [page]; omega), min_eq_left after]

/-- **The merge loop** is the cascade along partners, and finds every buddy it removes. -/
theorem mergeLoop_spec :
    ∀ (fuel : Nat) {b : Buddy} {free alloc : Set Block} {i k : Nat}, b.Rep free alloc →
      InHand maxOrder b.num free alloc ⟨i, k⟩ →
      (∀ c ∈ free, (b.blockMeta c.index).ownerSlab = 0) → maxOrder + 1 ≤ fuel + k →
      ∃ b' free' i' k' exit, mergeLoop fuel b (b.page i) k = .ok (b', b.page i', k', exit) ∧
        exit ≠ .notFound ∧ Cascade b.partner maxOrder free ⟨i, k⟩ free' ⟨i', k'⟩ ∧
        Effect b b' free' alloc (b.span (insert ⟨i, k⟩ free)) := by
  intro fuel
  induction fuel with
  | zero =>
    intro b free alloc i k _ held _ enough
    have := held.order_le _ (Set.mem_insert _ _)
    simp only at this
    omega
  | succ fuel ih =>
    intro b free alloc i k rep held unowned enough
    rw [mergeLoop]
    by_cases below : k < maxOrder
    · rw [if_pos below]
      simp only
      by_cases missing : b.addrToIndex (b.page i ^^^ (blockSize * 2 ^ k)) < 0
      · rw [if_pos missing]
        refine ⟨b, free, i, k, .outside, rfl, by simp, .stop fun _ c found => ?_, rep.refl _⟩
        simp [partner, missing] at found
      · rw [if_neg missing]
        have isPartner : b.partner ⟨i, k⟩ =
            some ⟨(b.addrToIndex (b.page i ^^^ (blockSize * 2 ^ k))).toNat, k⟩ := by
          simp [partner, missing]
        obtain ⟨_, jLt, address, index⟩ :=
          partner_eq_some rep.region held.index_lt below isPartner
        generalize (b.addrToIndex (b.page i ^^^ (blockSize * 2 ^ k))).toNat = j at *
        rw [address, index]
        by_cases member : ⟨j, k⟩ ∈ free
        · -- the buddy is free: all four tests succeed, and the list holds it
          have flags := member
          rw [← rep.freeEq] at flags
          have notAlloc : (b.blockMeta j).isHeadOfAllocBlock = false := by
            by_contra flagged
            have inAlloc : ⟨j, (b.blockMeta j).allocOrder⟩ ∈ alloc := by
              rw [← rep.allocEq]
              exact ⟨jLt, by simpa using flagged, rfl⟩
            have same := held.tiling.eq_of_index (b := ⟨j, k⟩) (by simp [member])
              (Set.mem_insert_of_mem _ (Or.inr inAlloc)) rfl
            exact held.disjoint _ member (same ▸ inAlloc)
          have owner : (b.blockMeta j).ownerSlab = 0 := unowned ⟨j, k⟩ member
          rw [if_pos (by simp [flags.2.1, flags.2.2, owner, notAlloc])]
          obtain ⟨b₁, b₂, removed, cleared, effect⟩ := rep.unlink (by omega) member
          rw [removed]
          show ∃ _ _ _ _ _, ((b₁.modifyMeta j _) >>= _) = _ ∧ _
          rw [cleared]
          have side := (partner_neighbours rep.region _ _ held.index_lt below isPartner).2
          have held' := held.merge below member side
          obtain ⟨b', free', i', k', exit, run, notLost, cascade, rest⟩ :=
            ih effect.rep (by rw [effect.same.num]; exact held')
              (fun c inFree => by rw [effect.same.owner]; exact unowned c inFree.1) (by omega)
          rw [effect.same.page, effect.same.page] at run
          rw [effect.same.partner] at cascade
          rw [effect.same.span] at rest
          refine ⟨b', free', i', k', exit, ?_, notLost, .merge below isPartner member cascade, ?_⟩
          · show mergeLoop fuel b₂ (if b.page j < b.page i then b.page j else b.page i) (k + 1) = _
            rw [page_min]
            exact run
          · refine (effect.mono (span_mono ?_)).trans (rest.mono (span_mono ?_))
            · exact fun c inFree p covers => ⟨c, Set.mem_insert_of_mem _ inFree, covers⟩
            · rintro c (rfl | inFree) p covers
              · have split : ∀ {x y : Nat}, y = x + 2 ^ k → (⟨x, k + 1⟩ : Block).Covers p →
                    (⟨x, k⟩ : Block).Covers p ∨ (⟨y, k⟩ : Block).Covers p := by
                  rintro x y rfl whole
                  exact (Block.covers_halves x k p).mp whole
                have parts : (⟨i, k⟩ : Block).Covers p ∨ (⟨j, k⟩ : Block).Covers p := by
                  have pos := Nat.two_pow_pos k
                  simp only at side
                  rcases side with right | left
                  · rw [min_eq_left (by omega)] at covers
                    exact split right covers
                  · rw [min_eq_right (by omega)] at covers
                    exact (split left covers).symm
                rcases parts with here | there
                · exact ⟨_, Set.mem_insert _ _, here⟩
                · exact ⟨_, Set.mem_insert_of_mem _ member, there⟩
              · exact ⟨c, Set.mem_insert_of_mem _ inFree.1, covers⟩
        · have failed : ¬ ((b.blockMeta j).isHeadOfFreeBlock && (b.blockMeta j).freeOrder == k &&
              (b.blockMeta j).ownerSlab == 0 && !(b.blockMeta j).isHeadOfAllocBlock) = true := by
            intro passed
            simp only [Bool.and_eq_true, beq_iff_eq] at passed
            refine member ?_
            rw [← rep.freeEq]
            exact ⟨jLt, passed.1.1.1, passed.1.1.2⟩
          rw [if_neg failed]
          refine ⟨b, free, i, k, .notFree, rfl, by simp, .stop fun _ c found => ?_, rep.refl _⟩
          rw [isPartner, Option.some.injEq] at found
          exact found ▸ member
    · rw [if_neg below]
      exact ⟨b, free, i, k, .atMaxOrder, rfl, by simp, .stop fun contra => absurd contra below,
        rep.refl _⟩

/-! ### The whole call -/

/-- **`buddy_free` of an allocated block without an owner** releases exactly this block. -/
theorem buddyFree_accepts {b : Buddy} {free alloc : Set Block} (rep : b.Rep free alloc)
    (pool : Pool maxOrder b.num free alloc) {i k : Nat} (member : ⟨i, k⟩ ∈ alloc)
    (owner : (b.blockMeta i).ownerSlab = 0)
    (unowned : ∀ c ∈ free, (b.blockMeta c.index).ownerSlab = 0) :
    ∃ b' free' hand exit, b.buddyFreeExit (b.page i) = .ok (b', exit) ∧ exit ≠ .notFound ∧
      Cascade b.partner maxOrder free ⟨i, k⟩ free' hand ∧
      Effect b b' (insert hand free') (alloc \ {⟨i, k⟩}) (b.span (insert ⟨i, k⟩ free)) ∧
      Pool maxOrder b.num (insert hand free') (alloc \ {⟨i, k⟩}) := by
  have lt : i < b.num := pool.index_lt_of_taken member
  have flags := member
  rw [← rep.allocEq] at flags
  obtain ⟨b₁, cleared, released⟩ := rep.eraseAlloc member
  have held := pool.release member
  obtain ⟨b₂, free', i', k', exit, run, notLost, cascade, merged⟩ :=
    mergeLoop_spec (maxOrder + 1) (i := i) (k := k) released.rep
      (by rw [released.same.num]; exact held)
      (fun c inFree => by rw [released.same.owner]; exact unowned c inFree) (by omega)
  rw [released.same.page, released.same.page] at run
  rw [released.same.partner] at cascade
  rw [released.same.span] at merged
  have same₂ := released.same.trans merged.same
  have held' := held.cascade (partner_neighbours rep.region) cascade
  obtain ⟨b₃, marked, pushed⟩ := merged.rep.insertFree (i := i') (k := k')
    (by rw [same₂.num]; exact held'.index_lt) (held'.order_le _ (Set.mem_insert _ _))
    (fun l inFree => held'.not_free_inside inFree (Block.covers_index _))
  rw [same₂.page] at marked pushed
  refine ⟨b₃.pushFree k' (b.page i'), free', ⟨i', k'⟩, exit, ?_, notLost, cascade, ?_,
    held'.putFree⟩
  · have aligned : (b.page i + 2 ^ 64 - b₁.managedStart) % 2 ^ 64 % blockSize = 0 := by
      have := rep.region.page_lt lt
      rw [released.same.start, page, blockSize] at *
      omega
    rw [buddyFreeExit, if_neg rep.region.page_pos.ne']
    simp only [addrToIndex_page rep.region lt, Int.toNat_natCast]
    rw [if_neg (by omega), if_neg (by simp [flags.2.1, owner]), cleared]
    show b₁.buddyFreeOrder (b.page i) (b.blockMeta i).allocOrder = _
    rw [flags.2.2, buddyFreeOrder, if_neg rep.region.page_pos.ne', if_neg (not_not.mpr aligned),
      run]
    show (b₂.markFreeHead (b.page i') k' >>= _) = _
    rw [marked]
    rfl
  · refine (((released.mono (Set.empty_subset _)).trans merged)).trans (pushed.mono ?_)
    -- the block finally pushed lies in what was released or free before
    refine (link_mem_span (c := ⟨i', k'⟩) (Set.mem_singleton _)).trans ?_
    rintro a ⟨p, ⟨c, rfl, covers⟩, range⟩
    have pLt := held'.tiling.lt_of_covers (Set.mem_insert _ _) covers
    obtain ⟨d, dMember, dCovers⟩ := held.tiling.cover p pLt
    refine ⟨p, ⟨d, ?_, dCovers⟩, range⟩
    rcases dMember with rfl | inFree | inAlloc
    · exact Set.mem_insert _ _
    · exact Set.mem_insert_of_mem _ inFree
    · exact absurd
        (held'.tiling.once d (by simp [inAlloc]) _ (Set.mem_insert _ _) p dCovers covers ▸ inAlloc)
        held'.notTaken

/-- **`buddy_free` of anything else** changes nothing. -/
theorem buddyFree_rejects {b : Buddy} {ptr : Nat}
    (other : ∀ i k, ⟨i, k⟩ ∈ b.allocBlocks → (b.blockMeta i).ownerSlab = 0 → ptr ≠ b.page i)
    (near : ptr < b.managedStart + 2 ^ 44) : b.buddyFreeExit ptr = .ok (b, .rejected) := by
  rw [buddyFreeExit]
  by_cases null : ptr = 0
  · rw [if_pos null]
  · rw [if_neg null]
    by_cases missing : b.addrToIndex ptr < 0
    · simp only [if_pos missing]
    · obtain ⟨i, lt, address, index⟩ := addrToIndex_near near (by omega)
      have notNeg : ¬ (i : Int) < 0 := by omega
      simp only [index, if_neg notNeg, Int.toNat_natCast]
      refine if_pos ?_
      by_contra passed
      have accepted : (b.blockMeta i).isHeadOfAllocBlock = true ∧
          (b.blockMeta i).ownerSlab = 0 := by
        simpa using passed
      exact other i (b.blockMeta i).allocOrder ⟨lt, accepted.1, rfl⟩ accepted.2 address

theorem buddyFree_eq {b b' : Buddy} {ptr : Nat} {exit : MergeExit}
    (run : b.buddyFreeExit ptr = .ok (b', exit)) : b.buddyFree ptr = .ok b' := by
  rw [buddyFree, run]
  rfl

end Buddy

end Xv6Slab
