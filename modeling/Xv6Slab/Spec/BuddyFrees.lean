/-
**What `buddy_free` does in every reachable state.**

* `Frees` — exactly the pages of one block move from allocated to free.
* `Ready.accept`, `Ready.reject` — a pointer is the base of an allocated block without an owner, and
  this block is freed, or nothing changes.
* `buddyFree_reachable` — **this holds in every reachable state; and after a block was freed,
  freeing its base again does nothing for as long as no block was handed out at that address**,
  whatever was merged, split and handed out elsewhere in between.
* `frees_commute` — **freeing a set of blocks in any two orders leaves the same free blocks.**
-/

import Xv6Slab.Spec.BuddyCalls
import Xv6Slab.Lib.Confluence
import Xv6Slab.Slab.Run

namespace Xv6Slab

open Bytes Chains Tilings

namespace Buddy

variable {b b' b₀ : Buddy} {ptr : Nat} {c : Block}

/-! ### States in which blocks can be freed -/

/-- The flags and lists represent a pool, and slabs own whole blocks. -/
structure Ready (b : Buddy) : Prop where
  rep : b.Rep b.freeBlocks b.allocBlocks
  pool : Pool maxOrder b.num b.freeBlocks b.allocBlocks
  free : ∀ c ∈ b.freeBlocks, ∀ p, c.Covers p → (b.blockMeta p).ownerSlab = 0
  whole : ∀ c ∈ b.allocBlocks, (b.blockMeta c.index).ownerSlab = 0 →
    ∀ p, c.Covers p → (b.blockMeta p).ownerSlab = 0

theorem Sound.ready {held : Set (Nat × Nat)} (sound : b.Sound held) : b.Ready where
  rep := sound.rep
  pool := sound.pool
  free := fun _ member p covers =>
    sound.unowned p (sound.pool.tiling.lt_of_covers (Or.inl member) covers)
  whole := fun _ member _ p covers =>
    sound.unowned p (sound.pool.tiling.lt_of_covers (Or.inr member) covers)

end Buddy

theorem Kmem.Core.ready {k : Kmem} {v : View} (core : Kmem.Core k v) : k.toBuddy.Ready where
  rep := core.slabs.rep
  pool := core.slabs.pool
  free := fun _ member _ covers => core.slabs.owner_of_free member covers
  whole := fun _ member unowned _ covers => core.slabs.owner_of_notSlab member unowned covers

namespace Buddy

variable {b b' b₀ : Buddy} {ptr : Nat} {c : Block}

theorem Reachable.ready (reachable : Reachable b) : b.Ready := by
  cases reachable with
  | alone region run => exact (run.sound region).1.ready
  | withSlabs given head tail run =>
    obtain ⟨v, core, _⟩ := (run.sound given head tail).view
    exact core.ready

/-- Freeing the allocated block `c`. -/
structure Frees (b b' : Buddy) (c : Block) : Prop where
  /-- Its pages were not free, and exactly they become free. -/
  wasAllocated : c ∈ b.allocBlocks ∧ Disjoint (pagesOf c) b.freePages
  freed : b'.freePages = b.freePages ∪ pagesOf c
  /-- Every other allocated block stays, with its owner. -/
  alloc : b'.allocBlocks = b.allocBlocks \ {c}
  owners : ∀ p, (b'.blockMeta p).ownerSlab = (b.blockMeta p).ownerSlab
  region : b'.managedStart = b.managedStart ∧ b'.managedNumBlocks = b.managedNumBlocks
  /-- Nothing outside this block and the free blocks is written. -/
  mem : SameOutside (b.span (insert c b.freeBlocks)) b.mem b'.mem

/-- **`buddy_free` of the base of an allocated block without an owner.** -/
theorem Ready.accept (ready : b.Ready) (member : c ∈ b.allocBlocks)
    (unowned : (b.blockMeta c.index).ownerSlab = 0) :
    ∃ b', b.buddyFree (b.page c.index) = .ok b' ∧ Frees b b' c ∧ b'.Ready ∧ SameRegion b b' ∧
      Release b.partner maxOrder b.freeBlocks c b'.freeBlocks := by
  obtain ⟨i, k⟩ := c
  obtain ⟨b', free', hand, exit, run, _, cascade, effect, pool⟩ :=
    buddyFree_accepts ready.rep ready.pool
    member unowned fun d inFree => ready.free d inFree _ d.covers_index
  have freeEq := effect.rep.freeEq
  have allocEq := effect.rep.allocEq
  have numEq := effect.same.num
  have pool' : Pool maxOrder b'.num b'.freeBlocks b'.allocBlocks := by
    rw [freeEq, allocEq, numEq]
    exact pool
  have pages : b'.freePages = b.freePages ∪ pagesOf ⟨i, k⟩ := by
    ext p
    rw [Set.mem_union, mem_freePages pool', mem_freePages ready.pool, numEq, allocEq]
    constructor
    · rintro ⟨lt, notAlloc⟩
      by_cases covers : (⟨i, k⟩ : Block).Covers p
      · exact Or.inr covers
      · refine Or.inl ⟨lt, ?_⟩
        intro d inAlloc covers'
        have same : d ≠ ⟨i, k⟩ := fun eq => covers (eq ▸ covers')
        exact notAlloc d ⟨inAlloc, same⟩ covers'
    · rintro (⟨lt, notAlloc⟩ | covers)
      · exact ⟨lt, fun d inAlloc => notAlloc d inAlloc.1⟩
      · refine ⟨ready.pool.tiling.lt_of_covers (Or.inr member) covers, ?_⟩
        rintro d ⟨inAlloc, ne⟩ covers'
        exact ne (ready.pool.tiling.once d (Or.inr inAlloc) _ (Or.inr member) p covers' covers)
  have apart : Disjoint (pagesOf ⟨i, k⟩) b.freePages := by
    rw [Set.disjoint_left]
    intro p covers isFree
    exact ((mem_freePages ready.pool).mp isFree).2 _ member covers
  refine ⟨b', buddyFree_eq run, ⟨⟨member, apart⟩, pages, allocEq, effect.same.owner,
    ⟨effect.same.start, effect.same.blocks⟩, effect.mem⟩, ⟨?_, pool', ?_, ?_⟩, effect.same,
    free', hand, cascade, freeEq⟩
  · rw [freeEq, allocEq]
    exact effect.rep
  · intro d inFree p covers
    rw [effect.same.owner]
    have isFree : p ∈ b'.freePages := ⟨d, inFree, covers⟩
    rw [pages] at isFree
    rcases isFree with ⟨e, inFree', covers'⟩ | covers'
    · exact ready.free e inFree' p covers'
    · exact ready.whole _ member unowned p covers'
  · intro d inAlloc unowned' p covers
    rw [effect.same.owner] at unowned' ⊢
    rw [allocEq] at inAlloc
    exact ready.whole d inAlloc.1 unowned' p covers

/-- `buddy_free` of any other pointer. -/
theorem Ready.reject (ready : b.Ready) (low : ptr < maxva)
    (other : ∀ c ∈ b.allocBlocks, (b.blockMeta c.index).ownerSlab = 0 → ptr ≠ b.page c.index) :
    b.buddyFree ptr = .ok b := by
  refine buddyFree_eq (buddyFree_rejects (fun i k member unowned => other ⟨i, k⟩ member unowned) ?_)
  exact InReach.near ready.rep.region (Or.inl low)

/-! ### Freeing twice -/

/-- Later states of the buddy allocator alone, with no block handed out at an address on the way. -/
def Spares (ptr : Nat) : Buddy × Set (Nat × Nat) → Buddy × Set (Nat × Nat) → Prop :=
  Relation.ReflTransGen fun s s' =>
    Call s.1 s.2 s'.1 s'.2 ∧ ∀ order, (ptr, order) ∈ s'.2 → (ptr, order) ∈ s.2

theorem Spares.run {s s' : Buddy × Set (Nat × Nat)} (later : Spares ptr s s') (run : Run b₀ s.1 s.2)
    (notHeld : ∀ order, (ptr, order) ∉ s.2) : Run b₀ s'.1 s'.2 ∧ ∀ order, (ptr, order) ∉ s'.2 := by
  induction later with
  | refl => exact ⟨run, notHeld⟩
  | tail _ step ih =>
    obtain ⟨run', notHeld'⟩ := ih
    exact ⟨run'.call step.1, fun order isHeld => notHeld' order (step.2 order isHeld)⟩

/-- Nothing is held at the pointer: `buddy_free` does nothing. -/
theorem Sound.reject {held : Set (Nat × Nat)} (sound : b.Sound held) (low : ptr < maxva)
    (notHeld : ∀ order, (ptr, order) ∉ held) : b.buddyFree ptr = .ok b := by
  refine sound.ready.reject low ?_
  rintro ⟨i, k⟩ member _ rfl
  exact notHeld k ((sound.held_iff _ k).mpr ⟨i, member, rfl⟩)

end Buddy

namespace Kmem

/-- Later states of the whole allocator, with no block handed out to a client at an address on the
way. -/
def Spares (ptr : Nat) : Kmem × List Allocation → Kmem × List Allocation → Prop :=
  Relation.ReflTransGen fun s s' =>
    Call s.1 s.2 s'.1 s'.2 ∧ ∀ order, .block ptr order ∈ s'.2 → .block ptr order ∈ s.2

variable {k : Kmem} {held : List Allocation} {space ptr : Nat} {blockNum : Int}

theorem Spares.sound {s s' : Kmem × List Allocation} (later : Spares ptr s s')
    (sound : Sound s.1 s.2 space blockNum) (notHeld : ∀ order, .block ptr order ∉ s.2) :
    Sound s'.1 s'.2 space blockNum ∧ ∀ order, .block ptr order ∉ s'.2 := by
  induction later with
  | refl => exact ⟨sound, notHeld⟩
  | tail _ step ih =>
    obtain ⟨sound', notHeld'⟩ := ih
    exact ⟨sound'.call step.1, fun order isHeld => notHeld' order (step.2 order isHeld)⟩

/-- No client holds a block at the pointer: `buddy_free` does nothing. -/
theorem Sound.reject (sound : Sound k held space blockNum) (low : ptr < maxva)
    (notHeld : ∀ order, .block ptr order ∉ held) : k.buddyFree ptr = .ok k := by
  obtain ⟨v, core, same⟩ := sound.view
  have region := core.slabs.rep.region
  have rejected : k.toBuddy.buddyFree ptr = .ok k.toBuddy := by
    refine Buddy.buddyFree_eq (Buddy.buddyFree_rejects ?_ (Buddy.InReach.near region (Or.inl low)))
    rintro i order member unowned rfl
    exact notHeld order ((same _).mpr ⟨i, member, unowned, rfl⟩)
  unfold Kmem.buddyFree
  rw [rejected]
  rfl

/-- After a client gave a block back, it holds no block at that address. -/
theorem Sound.not_held_again (sound : Sound k held space blockNum) {order : Nat}
    (isHeld : .block ptr order ∈ held) (order' : Nat) :
    .block ptr order' ∉ held.erase (.block ptr order) := by
  intro again
  obtain ⟨v, core, same⟩ := sound.view
  rw [sound.nodup.mem_erase_iff] at again
  have sameOrder := core.slabs.live_block_order ((same _).mp again.2) ((same _).mp isHeld)
  exact again.1 (by rw [sameOrder])

end Kmem

namespace Buddy

variable {b : Buddy}

/-- **`buddy_free` in every reachable state**, of any pointer below `MAXVA`: it frees exactly the
allocated block without an owner that starts there, or changes nothing. A second call does nothing
until a block is handed out at that address again. -/
theorem buddyFree_reachable {ptr : Nat} (low : ptr < maxva) :
    (∀ b, Reachable b →
      (∀ c ∈ b.allocBlocks, (b.blockMeta c.index).ownerSlab = 0 → ptr = b.page c.index →
        ∃ b', b.buddyFree ptr = .ok b' ∧ Frees b b' c) ∧
      ((∀ c ∈ b.allocBlocks, (b.blockMeta c.index).ownerSlab = 0 → ptr ≠ b.page c.index) →
        b.buddyFree ptr = .ok b)) ∧
    (∀ b₀ b b' b'' held held'', b₀.Region → Run b₀ b held → b.buddyFree ptr = .ok b' →
      Spares ptr (b', {h ∈ held | h.1 ≠ ptr}) (b'', held'') → b''.buddyFree ptr = .ok b'') ∧
    (∀ k₀ k k' k'' held held'' space blockNum isKernel order, Space space blockNum →
      k₀.headOfCacheList = 0 → k₀.tailOfCacheList = 0 → Kmem.Run k₀ space blockNum isKernel k held →
      .block ptr order ∈ held → k.buddyFree ptr = .ok k' →
      Kmem.Spares ptr (k', held.erase (.block ptr order)) (k'', held'') →
      k''.buddyFree ptr = .ok k'') := by
  refine ⟨?_, ?_, ?_⟩
  · intro b reachable
    have ready := reachable.ready
    refine ⟨?_, ready.reject low⟩
    rintro c member unowned rfl
    obtain ⟨b', call, frees, _⟩ := ready.accept member unowned
    exact ⟨b', call, frees⟩
  · intro b₀ b b' b'' held held'' region run call later
    have gone : ∀ order, (ptr, order) ∉ {h ∈ held | h.1 ≠ ptr} := fun order isHeld => isHeld.2 rfl
    obtain ⟨run', notHeld⟩ := later.run (run.call (.free (Or.inl low) call)) gone
    exact (run'.sound region).1.reject low notHeld
  · intro k₀ k k' k'' held held'' space blockNum isKernel order given head tail run
      isHeld call later
    have sound := run.sound given head tail
    obtain ⟨sound', notHeld⟩ :=
      later.sound (sound.buddyFree isHeld call) (sound.not_held_again isHeld)
    exact sound'.reject low notHeld

/-- One of three pages is taken and given back, and giving it back once more does nothing. -/
theorem buddyFree_reachable_threePages : ∃ b b' c, Reachable b ∧ b.buddyFree 12288 = .ok b' ∧
    Frees b b' c ∧ b'.buddyFree 12288 = .ok b' := by
  obtain ⟨⟨b, blk⟩, call, observed⟩ := exists_ok (threePages.buddyInit.buddyAlloc 1)
    (fun r => (r.2, r.1.blockMeta 2, r.1.managedStart, r.1.managedNumBlocks))
    (12288, ⟨0, false, 0, true, 0⟩, 4096, 3) (by decide +kernel)
  simp only [Prod.mk.injEq] at observed
  obtain ⟨rfl, meta₂, start, blocks⟩ := observed
  have run : Run threePages b (insert (12288, 0) ∅) :=
    Run.init.call (.alloc (by decide) (orderForPages_two_pow (Nat.zero_le _)) call (by decide))
  have member : (⟨2, 0⟩ : Block) ∈ b.allocBlocks :=
    ⟨by rw [num, blocks]; decide, by rw [meta₂], by rw [meta₂]⟩
  have address : 12288 = b.page 2 := by rw [page, start]
  have low : 12288 < maxva := by decide
  obtain ⟨accepts, again, _⟩ := buddyFree_reachable low
  obtain ⟨b', freed, frees⟩ :=
    (accepts b (.alone threePages_region run)).1 _ member (by rw [meta₂]) address
  exact ⟨b, b', _, .alone threePages_region run, freed, frees,
    again _ _ _ _ _ _ threePages_region run freed .refl⟩

/-! ### Frees in any order -/

/-- Partners are mutual. -/
theorem partner_mutual (region : b.Region) : Mutual b.partner maxOrder b.num := by
  rintro ⟨i, k⟩ ⟨j, l⟩ lt below found
  obtain ⟨rfl, jLt, address, _⟩ := partner_eq_some region lt below found
  refine ⟨jLt, partner_of_xor region lt ?_⟩
  rw [← address, Nat.xor_assoc, Nat.xor_self, Nat.xor_zero]

/-- `buddy_free` of several pointers, one after the other. -/
def buddyFreeAll (b : Buddy) (ptrs : List Nat) : Except Fault Buddy := ptrs.foldlM buddyFree b

/-- The free blocks as pairs of head address and order. -/
def freeHeads (b : Buddy) : Set (Nat × Nat) :=
  {h | ∃ c ∈ b.freeBlocks, h = (b.page c.index, c.order)}

/-- Freeing a list of blocks releases them one after the other. -/
theorem Ready.freeAll : ∀ (l : List Block) {b : Buddy}, b.Ready → l.Nodup →
    (∀ c ∈ l, c ∈ b.allocBlocks ∧ (b.blockMeta c.index).ownerSlab = 0) →
    ∃ b', b.buddyFreeAll (l.map fun c => b.page c.index) = .ok b' ∧ SameRegion b b' ∧
      Releases b.partner maxOrder b.freeBlocks l b'.freeBlocks := by
  intro l
  induction l with
  | nil =>
    intro b _ _ _
    exact ⟨b, rfl, SameRegion.refl b, .nil⟩
  | cons x l ih =>
    intro b ready nodup blocks
    obtain ⟨fresh, nodup⟩ := List.nodup_cons.mp nodup
    obtain ⟨member, unowned⟩ := blocks x List.mem_cons_self
    obtain ⟨b₁, call, frees, ready₁, same, release⟩ := ready.accept member unowned
    have left : ∀ c ∈ l, c ∈ b₁.allocBlocks ∧ (b₁.blockMeta c.index).ownerSlab = 0 := by
      intro c inList
      obtain ⟨inAlloc, unowned'⟩ := blocks c (List.mem_cons_of_mem _ inList)
      rw [frees.alloc, frees.owners]
      exact ⟨⟨inAlloc, fun eq => fresh (eq ▸ inList)⟩, unowned'⟩
    obtain ⟨b', rest, same', releases⟩ := ih ready₁ nodup left
    simp only [same.page] at rest
    rw [same.partner] at releases
    refine ⟨b', ?_, same.trans same', .cons release releases⟩
    unfold buddyFreeAll at rest ⊢
    rw [List.map_cons, List.foldlM_cons, call]
    exact rest

/-- **Freeing a set of blocks in any two orders leaves the same free blocks**, for a region of any
alignment. -/
theorem frees_commute {l l' : List Block} (reachable : Reachable b) (nodup : l.Nodup)
    (blocks : ∀ c ∈ l, c ∈ b.allocBlocks ∧ (b.blockMeta c.index).ownerSlab = 0) (perm : l.Perm l') :
    ∃ b₁ b₂, b.buddyFreeAll (l.map fun c => b.page c.index) = .ok b₁ ∧
      b.buddyFreeAll (l'.map fun c => b.page c.index) = .ok b₂ ∧ b₁.freeHeads = b₂.freeHeads := by
  have ready := reachable.ready
  have blocks' : ∀ c ∈ l', c ∈ b.allocBlocks ∧ (b.blockMeta c.index).ownerSlab = 0 :=
    fun c member => blocks c (perm.mem_iff.mpr member)
  obtain ⟨b₁, call₁, same₁, run₁⟩ := ready.freeAll l nodup blocks
  obtain ⟨b₂, call₂, same₂, run₂⟩ := ready.freeAll l' (perm.nodup nodup) blocks'
  have freeEq : b₁.freeBlocks = b₂.freeBlocks :=
    (run₁.perm (partner_neighbours ready.rep.region) (partner_mutual ready.rep.region) perm
      ready.pool nodup fun c member => (blocks c member).1).functional run₂
  refine ⟨b₁, b₂, call₁, call₂, ?_⟩
  unfold freeHeads
  simp only [freeEq, same₁.page, same₂.page]

/-- Two of three pages are given back in either order. -/
theorem frees_commute_threePages : ∃ b b₁ b₂, Reachable b ∧ b.buddyFreeAll [12288, 4096] = .ok b₁ ∧
    b.buddyFreeAll [4096, 12288] = .ok b₂ ∧ b₁.freeHeads = b₂.freeHeads := by
  obtain ⟨⟨b, blk⟩, call, observed⟩ := exists_ok (threePages.buddyInit.buddyAlloc 1)
    (fun (r : Buddy × Nat) =>
      (r.2, ((r.1.buddyAlloc 1).map fun (r' : Buddy × Nat) => decide (r'.2 = 4096 ∧
      r'.1.blockMeta 0 = (⟨1, false, 0, true, 0⟩ : BlockMeta) ∧
      r'.1.blockMeta 2 = (⟨0, false, 0, true, 0⟩ : BlockMeta) ∧
      r'.1.managedStart = 4096 ∧ r'.1.managedNumBlocks = 3)).toOption))
    (12288, some true) (by decide +kernel)
  rw [Prod.mk.injEq] at observed
  obtain ⟨rfl, second⟩ := observed
  obtain ⟨⟨b', blk'⟩, call', observed'⟩ := exists_ok _ _ _ second
  rw [decide_eq_true_eq] at observed'
  obtain ⟨rfl, meta₀, meta₂, start, blocks⟩ := observed'
  have run : Run threePages b' (insert (4096, 0) (insert (12288, 0) ∅)) :=
    (Run.init.call (.alloc (by decide) (orderForPages_two_pow (Nat.zero_le _)) call
      (by decide))).call (.alloc (by decide) (orderForPages_two_pow (Nat.zero_le _)) call'
      (by decide))
  have numEq : b'.num = 3 := by rw [num, blocks]; decide
  have taken : ∀ c ∈ ([⟨2, 0⟩, ⟨0, 0⟩] : List Block),
      c ∈ b'.allocBlocks ∧ (b'.blockMeta c.index).ownerSlab = 0 := by
    intro c member
    rcases List.mem_pair.mp member with rfl | rfl
    · exact ⟨⟨by rw [numEq]; decide, by rw [meta₂], by rw [meta₂]⟩, by rw [meta₂]⟩
    · exact ⟨⟨by rw [numEq]; decide, by rw [meta₀], by rw [meta₀]⟩, by rw [meta₀]⟩
  have swapped : ([⟨2, 0⟩, ⟨0, 0⟩] : List Block).Perm [⟨0, 0⟩, ⟨2, 0⟩] := List.Perm.swap _ _ _
  obtain ⟨b₁, b₂, first, other, same⟩ :=
    frees_commute (.alone threePages_region run) (by decide) taken swapped
  have pages : b'.page 2 = 12288 ∧ b'.page 0 = 4096 := by
    rw [page, page, start]
    decide
  simp only [List.map_cons, List.map_nil, pages.1, pages.2] at first other
  exact ⟨b', b₁, b₂, .alone threePages_region run, first, other, same⟩

end Buddy

end Xv6Slab
