/-
**What `buddy_alloc` does in every reachable state.**

* `Reachable` — the states of the buddy allocator on its own, and those under the slab allocator.
* `Allocates` — a block of the least sufficient order is taken, its first pages are handed out, and
  the rest of it becomes free.
* `buddyAlloc_reachable` — **`buddy_alloc` returns null exactly when no free block is large enough,
  and otherwise allocates; `kalloc` only fails when no page is free.**
-/

import Xv6Slab.Buddy.Invariant
import Xv6Slab.Slab.Invariant

namespace Xv6Slab

open Bytes Chains Tilings

namespace Buddy

variable {b b' : Buddy}

/-- The states of the buddy allocator that runs reach. -/
inductive Reachable : Buddy → Prop
  | alone {b₀ b : Buddy} {held : Set (Nat × Nat)} : b₀.Region → Run b₀ b held → Reachable b
  | withSlabs {k₀ k : Kmem} {space : Nat} {blockNum : Int} {isKernel : Bool}
      {held : List Allocation} :
      Space space blockNum → k₀.headOfCacheList = 0 → k₀.tailOfCacheList = 0 →
      Kmem.Run k₀ space blockNum isKernel k held → Reachable k.toBuddy

theorem Reachable.rep (reachable : Reachable b) : b.Rep b.freeBlocks b.allocBlocks ∧
    Pool maxOrder b.num b.freeBlocks b.allocBlocks := by
  cases reachable with
  | alone region run =>
    obtain ⟨sound, _⟩ := run.sound region
    exact ⟨sound.rep, sound.pool⟩
  | withSlabs given head tail run =>
    obtain ⟨v, core, _⟩ := (run.sound given head tail).view
    exact ⟨core.slabs.rep, core.slabs.pool⟩

/-- The free pages. -/
def freePages (b : Buddy) : Set Nat := {p | ∃ c ∈ b.freeBlocks, c.Covers p}

/-- The first page of a free block is free. -/
theorem mem_freePages_of_head {p : Nat} (lt : p < b.num)
    (isHead : (b.blockMeta p).isHeadOfFreeBlock = true) : p ∈ b.freePages :=
  ⟨⟨p, (b.blockMeta p).freeOrder⟩, ⟨lt, isHead, rfl⟩, le_rfl,
    Nat.lt_add_of_pos_right (Nat.two_pow_pos _)⟩

/-- A page is not free when the free blocks before it end before it. -/
theorem notMem_freePages {p : Nat}
    (heads : ∀ i ∈ List.range (p + 1), (b.blockMeta i).isHeadOfFreeBlock = true →
    i + 2 ^ (b.blockMeta i).freeOrder ≤ p) : p ∉ b.freePages := by
  rintro ⟨c, ⟨_, isHead, isOrder⟩, low, high⟩
  have below := heads c.index (List.mem_range.mpr (Nat.lt_succ_of_le low)) isHead
  rw [isOrder] at below
  exact absurd below (Nat.not_le.mpr high)

/-- The pages of a block. -/
def pagesOf (c : Block) : Set Nat := {p | c.Covers p}

/-- A page is free when it is managed and in no allocated block. -/
theorem mem_freePages (pool : Pool maxOrder b.num b.freeBlocks b.allocBlocks) {p : Nat} :
    p ∈ b.freePages ↔ p < b.num ∧ ∀ c ∈ b.allocBlocks, ¬ c.Covers p := by
  constructor
  · rintro ⟨c, inFree, covers⟩
    refine ⟨pool.tiling.lt_of_covers (Or.inl inFree) covers, ?_⟩
    intro d inAlloc covers'
    have same := pool.tiling.once c (Or.inl inFree) d (Or.inr inAlloc) p covers covers'
    exact pool.disjoint c inFree (same ▸ inAlloc)
  · rintro ⟨lt, notAlloc⟩
    obtain ⟨c, inFree | inAlloc, covers⟩ := pool.tiling.cover p lt
    · exact ⟨c, inFree, covers⟩
    · exact absurd covers (notAlloc c inAlloc)

/-- Allocating `2 ^ t` pages from the free block `⟨i, k⟩`. -/
structure Allocates (b b' : Buddy) (t i k : Nat) : Prop where
  /-- The block was free, and no smaller one would do. -/
  chosen : ⟨i, k⟩ ∈ b.freeBlocks
  enough : t ≤ k
  least : ∀ c ∈ b.freeBlocks, t ≤ c.order → k ≤ c.order
  /-- Its first `2 ^ t` pages were free and become an allocated block. -/
  wasFree : pagesOf ⟨i, t⟩ ⊆ b.freePages
  alloc : b'.allocBlocks = insert ⟨i, t⟩ b.allocBlocks
  freed : b'.freePages = b.freePages \ pagesOf ⟨i, t⟩
  /-- The other free blocks stay, and new ones lie inside the chosen block. -/
  others : ∀ c ∈ b.freeBlocks, c ≠ ⟨i, k⟩ → c ∈ b'.freeBlocks
  new : ∀ c ∈ b'.freeBlocks, c ∈ b.freeBlocks ∨ pagesOf c ⊆ pagesOf ⟨i, k⟩
  /-- Every page keeps its owner, and the region stays. -/
  owners : ∀ p, (b'.blockMeta p).ownerSlab = (b.blockMeta p).ownerSlab
  region : b'.managedStart = b.managedStart ∧ b'.managedNumBlocks = b.managedNumBlocks
  /-- Nothing outside the chosen block is written. -/
  mem : SameOutside (Set.Ico (b.page i) (b.page i + 4096 * 2 ^ k)) b.mem b'.mem

theorem pagesOf_mono {i t k : Nat} (le : t ≤ k) : pagesOf ⟨i, t⟩ ⊆ pagesOf ⟨i, k⟩ := by
  intro p covers
  have grows := Nat.pow_le_pow_right (show 0 < 2 by omega) le
  exact ⟨covers.1, lt_of_lt_of_le covers.2 (Nat.add_le_add_left grows i)⟩

theorem pagesOf_halves {i t k : Nat} {c : Block} (isHalf : c ∈ halves i t k) :
    pagesOf c ⊆ pagesOf ⟨i, k⟩ := by
  obtain ⟨_, below, index⟩ := isHalf
  have double : 2 ^ c.order + 2 ^ c.order ≤ 2 ^ k := by
    have grows := Nat.pow_le_pow_right (show 0 < 2 by omega) (show c.order + 1 ≤ k from below)
    rw [pow_succ] at grows
    omega
  intro p covers
  obtain ⟨low, high⟩ := covers
  exact ⟨by simp only; omega, by simp only; omega⟩

/-- What `buddyAlloc_spec` says about pages. -/
theorem Effect.allocates {i t k : Nat} (pool : Pool maxOrder b.num b.freeBlocks b.allocBlocks)
    (chosen : ⟨i, k⟩ ∈ b.freeBlocks) (enough : t ≤ k)
    (least : ∀ c ∈ b.freeBlocks, t ≤ c.order → k ≤ c.order)
    (effect : Effect b b' (b.freeBlocks \ {⟨i, k⟩} ∪ halves i t k) (insert ⟨i, t⟩ b.allocBlocks)
      (b.span {⟨i, k⟩}))
    (pool' :
      Pool maxOrder b.num (b.freeBlocks \ {⟨i, k⟩} ∪ halves i t k) (insert ⟨i, t⟩ b.allocBlocks)) :
    Allocates b b' t i k := by
  have freeEq := effect.rep.freeEq
  have allocEq := effect.rep.allocEq
  have numEq := effect.same.num
  have pool'' : Pool maxOrder b'.num b'.freeBlocks b'.allocBlocks := by
    rw [freeEq, allocEq, numEq]
    exact pool'
  refine ⟨chosen, enough, least, ?_, allocEq, ?_, ?_, ?_, effect.same.owner,
    ⟨effect.same.start, effect.same.blocks⟩, ?_⟩
  · exact fun p covers => ⟨⟨i, k⟩, chosen, pagesOf_mono enough covers⟩
  · ext p
    rw [mem_freePages pool'', Set.mem_sdiff, mem_freePages pool, numEq, allocEq]
    constructor
    · rintro ⟨lt, notAlloc⟩
      exact ⟨⟨lt, fun c inAlloc => notAlloc c (Or.inr inAlloc)⟩, notAlloc _ (Or.inl rfl)⟩
    · rintro ⟨⟨lt, notAlloc⟩, notTaken⟩
      refine ⟨lt, ?_⟩
      rintro c (rfl | inAlloc)
      · exact notTaken
      · exact notAlloc c inAlloc
  · intro c inFree other
    rw [freeEq]
    exact Or.inl ⟨inFree, other⟩
  · intro c inFree
    rw [freeEq] at inFree
    rcases inFree with before | half
    · exact Or.inl before.1
    · exact Or.inr (pagesOf_halves half)
  · have touched := effect.mem
    rw [span_singleton] at touched
    exact touched

theorem exists_leastOrder (size : Nat) : ∃ t, IsLeast {t | size ≤ 2 ^ t} t :=
  ⟨Nat.clog 2 size, Nat.le_pow_clog (by decide) size, fun _ fits => Nat.clog_le_of_le_pow fits⟩

theorem orderForPages_of_isLeast {size t : Nat} (bound : size ≤ 2 ^ 31)
    (least : IsLeast {t | size ≤ 2 ^ t} t) : orderForPages size = .ok t := by
  obtain ⟨order, isOrder, _, enough, below⟩ := orderForPages_least bound
  have le : order ≤ t := by
    by_contra high
    exact absurd (below t (by omega)) (Nat.not_lt.mpr least.1)
  rw [isOrder, le_antisymm le (least.2 enough)]

/-- `buddy_alloc` fails and changes nothing, or allocates. -/
theorem Rep.buddyAlloc_cases (rep : b.Rep b.freeBlocks b.allocBlocks)
    (pool : Pool maxOrder b.num b.freeBlocks b.allocBlocks) {size t : Nat} (positive : 1 ≤ size)
    (small : size ≤ 2 ^ 15) (least : IsLeast {t | size ≤ 2 ^ t} t) :
    (b.buddyAlloc size = .ok (b, 0) ∧ ∀ c ∈ b.freeBlocks, c.order < t) ∨
    ∃ i k b', b.buddyAlloc size = .ok (b', b.page i) ∧ b.page i ≠ 0 ∧ Allocates b b' t i k := by
  rcases buddyAlloc_spec rep pool (by omega) (orderForPages_of_isLeast (by omega) least) with
    failed | ⟨i, k, b', chosen, enough, leastOrder, call, effect, pool'⟩
  · exact Or.inl failed
  · exact Or.inr ⟨i, k, b', call, rep.region.page_pos.ne',
      effect.allocates pool chosen enough leastOrder pool'⟩

/-- **`buddy_alloc` in every reachable state**, for `t` the least order whose blocks hold `size`
pages: null exactly when no free block has order at least `t`, with nothing changed, and otherwise a
block from a free one of the least such order. `kalloc` fails only when no page is free, and
otherwise allocates one page. -/
theorem buddyAlloc_reachable (reachable : Reachable b) :
    (∀ size t, 1 ≤ size → size ≤ 2 ^ 15 → IsLeast {t | size ≤ 2 ^ t} t →
      ((∃ b', b.buddyAlloc size = .ok (b', 0)) ↔ ∀ c ∈ b.freeBlocks, c.order < t) ∧
      ((∀ c ∈ b.freeBlocks, c.order < t) → b.buddyAlloc size = .ok (b, 0)) ∧
      ((∃ c ∈ b.freeBlocks, t ≤ c.order) → ∃ i k b', b.buddyAlloc size = .ok (b', b.page i) ∧
        b.page i ≠ 0 ∧ Allocates b b' t i k)) ∧
    ((∃ b', b.kalloc = .ok (b', 0)) → b.freePages = ∅) ∧
    (b.freePages.Nonempty → ∃ i k b', b.kalloc = .ok (b', b.page i) ∧ b.page i ≠ 0 ∧
      Allocates b b' 0 i k) := by
  obtain ⟨rep, pool⟩ := reachable.rep
  have nullIff : ∀ size t, 1 ≤ size → size ≤ 2 ^ 15 → IsLeast {t | size ≤ 2 ^ t} t →
      (∃ b', b.buddyAlloc size = .ok (b', 0)) → ∀ c ∈ b.freeBlocks, c.order < t := by
    rintro size t positive small least ⟨b', call⟩
    rcases rep.buddyAlloc_cases pool positive small least with ⟨_, none⟩ |
      ⟨i, k, b'', call', nonzero, _⟩
    · exact none
    · rw [call', Except.ok.injEq, Prod.mk.injEq] at call
      exact absurd call.2 nonzero
  have unchanged : ∀ size t, 1 ≤ size → size ≤ 2 ^ 15 → IsLeast {t | size ≤ 2 ^ t} t →
      (∀ c ∈ b.freeBlocks, c.order < t) → b.buddyAlloc size = .ok (b, 0) := by
    intro size t positive small least none
    rcases rep.buddyAlloc_cases pool positive small least with ⟨call, _⟩ |
      ⟨i, k, b', _, _, allocates⟩
    · exact call
    · exact absurd (none _ allocates.chosen) (Nat.not_lt.mpr allocates.enough)
  have zero : IsLeast {t | 1 ≤ 2 ^ t} 0 := ⟨show 1 ≤ 2 ^ 0 by decide, fun _ _ => Nat.zero_le _⟩
  refine ⟨?_, ?_, ?_⟩
  · intro size t positive small least
    refine ⟨⟨nullIff size t positive small least, fun none =>
      ⟨b, unchanged size t positive small least none⟩⟩, unchanged size t positive small least, ?_⟩
    rintro ⟨c, inFree, large⟩
    rcases rep.buddyAlloc_cases pool positive small least with ⟨_, none⟩ | allocated
    · exact absurd (none c inFree) (Nat.not_lt.mpr large)
    · exact allocated
  · intro failed
    have none := nullIff 1 0 le_rfl (by omega) zero failed
    refine Set.eq_empty_of_forall_notMem ?_
    rintro p ⟨c, inFree, _⟩
    exact absurd (none c inFree) (Nat.not_lt_zero _)
  · rintro ⟨p, c, inFree, _⟩
    rcases rep.buddyAlloc_cases pool le_rfl (by omega) zero with ⟨_, none⟩ | allocated
    · exact absurd (none c inFree) (Nat.not_lt_zero _)
    · exact allocated

theorem buddyAlloc_reachable_threePages : ∃ i k b',
    threePages.buddyInit.buddyAlloc 2 = .ok (b', threePages.buddyInit.page i) ∧
      Allocates threePages.buddyInit b' 1 i k := by
  have least : IsLeast {t | 2 ≤ 2 ^ t} 1 := by
    refine ⟨show 2 ≤ 2 ^ 1 by decide, ?_⟩
    intro t enough
    by_contra small
    obtain rfl : t = 0 := by omega
    exact absurd enough (by decide)
  obtain ⟨_, _, allocated⟩ := (buddyAlloc_reachable (.alone threePages_region .init)).1 2 1
    (by decide) (by decide) least
  have large : (⟨0, 1⟩ : Block) ∈ threePages.buddyInit.freeBlocks :=
    ⟨by decide, by decide, by decide⟩
  obtain ⟨i, k, b', call, _, allocates⟩ := allocated ⟨_, large, le_rfl⟩
  exact ⟨i, k, b', call, allocates⟩

end Buddy

end Xv6Slab
