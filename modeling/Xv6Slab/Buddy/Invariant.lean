/-
**Runs of the buddy allocator, and the invariant they keep.**

`Run b₀ b held` — `b` is reached from `buddy_init` on `b₀` by calls of `buddy_alloc` and
`buddy_free` and by clients that write into blocks they hold; `held` records the base and the order
of every block handed out and not freed since.

`Sound b held` is the invariant: the flags and the lists represent a pool, no page has an owner, and
the allocated blocks are exactly the held ones. Each kind of step keeps it (`Sound.alloc`,
`Sound.free`, `Sound.write`), so every run does (`Run.sound`). The main result spells out what this
says about the fields of the code:

* `run_wellFormed` — **the blocks tile the region, the lists hold exactly the free heads, no page
  heads two blocks, and every further call returns**, without a buddy ever missing from its list.
-/

import Xv6Slab.Buddy.Alloc
import Xv6Slab.Buddy.Free
import Xv6Slab.Buddy.Init

namespace Xv6Slab

open Bytes Chains Tilings

namespace Buddy

/-! ### Runs -/

/-- The bytes of the blocks held, each given by its base and its order. -/
def heldBytes (held : Set (Nat × Nat)) : Set Nat :=
  {a | ∃ h ∈ held, h.1 ≤ a ∧ a < h.1 + 2 ^ h.2 * blockSize}

/-- The pointers passed to `buddy_free`: everything below `MAXVA`, and everything below the end of
the region. -/
def InReach (b : Buddy) (ptr : Nat) : Prop := ptr < maxva ∨ ptr < b.page b.num

theorem InReach.near {b : Buddy} {ptr : Nat} (region : b.Region) (inReach : b.InReach ptr) :
    ptr < b.managedStart + 2 ^ 44 := by
  have small := region.num_lt
  rcases inReach with low | inside
  · exact lt_of_lt_of_le low ((show maxva ≤ 2 ^ 44 by decide).trans (Nat.le_add_left _ _))
  · rw [page] at inside
    omega

/-- A call of the buddy allocator alone, or a write inside what is held, with the blocks held before
and after it. -/
inductive Call : Buddy → Set (Nat × Nat) → Buddy → Set (Nat × Nat) → Prop
  | allocNull {b b' : Buddy} {held : Set (Nat × Nat)} {size : Nat} :
      size < 2 ^ 31 → b.buddyAlloc size = .ok (b', 0) → Call b held b' held
  | alloc {b b' : Buddy} {held : Set (Nat × Nat)} {size order blk : Nat} :
      size < 2 ^ 31 → orderForPages size = .ok order → b.buddyAlloc size = .ok (b', blk) → blk ≠ 0 →
      Call b held b' (insert (blk, order) held)
  | free {b b' : Buddy} {held : Set (Nat × Nat)} {ptr : Nat} :
      b.InReach ptr → b.buddyFree ptr = .ok b' → Call b held b' {h ∈ held | h.1 ≠ ptr}
  | write {b : Buddy} {held : Set (Nat × Nat)} {mem : Mem} :
      SameOutside (heldBytes held) b.mem mem → Call b held { b with mem := mem } held

/-- The states reached from `buddy_init`, with the blocks held by clients. -/
inductive Run (b₀ : Buddy) : Buddy → Set (Nat × Nat) → Prop
  | init : Run b₀ b₀.buddyInit ∅
  | call {b b' : Buddy} {held held' : Set (Nat × Nat)} :
      Run b₀ b held → Call b held b' held' → Run b₀ b' held'

/-- The flags and lists represent a pool whose allocated blocks are the held ones. -/
structure Sound (b : Buddy) (held : Set (Nat × Nat)) : Prop where
  rep : b.Rep b.freeBlocks b.allocBlocks
  pool : Pool maxOrder b.num b.freeBlocks b.allocBlocks
  unowned : ∀ i < b.num, (b.blockMeta i).ownerSlab = 0
  held_iff : ∀ addr k, (addr, k) ∈ held ↔ ∃ i, ⟨i, k⟩ ∈ b.allocBlocks ∧ addr = b.page i

theorem Effect.sound {b b' : Buddy} {free alloc : Set Block} {touched : Set Nat}
    {held : Set (Nat × Nat)} (effect : Effect b b' free alloc touched)
    (pool : Pool maxOrder b.num free alloc) (unowned : ∀ i < b.num, (b.blockMeta i).ownerSlab = 0)
    (heldIff : ∀ addr k, (addr, k) ∈ held ↔ ∃ i, ⟨i, k⟩ ∈ alloc ∧ addr = b.page i) :
    b'.Sound held where
  rep := by rw [effect.rep.freeEq, effect.rep.allocEq]; exact effect.rep
  pool := by rw [effect.rep.freeEq, effect.rep.allocEq, effect.same.num]; exact pool
  unowned := by
    intro i lt
    rw [effect.same.owner]
    exact unowned i (effect.same.num ▸ lt)
  held_iff := by
    intro addr k
    simp only [effect.rep.allocEq, effect.same.page]
    exact heldIff addr k

namespace Sound

variable {b b' : Buddy} {held : Set (Nat × Nat)}

/-- What a call of `buddy_alloc` can do, for sizes below `2 ^ 31`. -/
theorem alloc_cases (sound : b.Sound held) {size : Nat} (small : size < 2 ^ 31) :
    b.buddyAlloc size = .ok (b, 0) ∨
    ∃ order i k b', orderForPages size = .ok order ∧ ⟨i, k⟩ ∈ b.freeBlocks ∧ order ≤ k ∧
      b.buddyAlloc size = .ok (b', b.page i) ∧
      Effect b b' (b.freeBlocks \ {⟨i, k⟩} ∪ halves i order k) (insert ⟨i, order⟩ b.allocBlocks)
        (b.span {⟨i, k⟩}) ∧
      Pool maxOrder b.num (b.freeBlocks \ {⟨i, k⟩} ∪ halves i order k)
        (insert ⟨i, order⟩ b.allocBlocks) := by
  by_cases zero : size = 0
  · left
    rw [buddyAlloc, if_pos zero]
  · obtain ⟨order, isOrder, _⟩ := orderForPages_least small.le
    rcases buddyAlloc_spec sound.rep sound.pool zero isOrder with
      ⟨run, _⟩ | ⟨i, k, b', member, le, _, run, effect, pool⟩
    · exact Or.inl run
    · exact Or.inr ⟨order, i, k, b', isOrder, member, le, run, effect, pool⟩

theorem allocNull (sound : b.Sound held) {size : Nat} (small : size < 2 ^ 31)
    (run : b.buddyAlloc size = .ok (b', 0)) : SameRegion b b' ∧ b'.Sound held := by
  rcases sound.alloc_cases small with same | ⟨order, i, k, b'', _, _, _, other, _, _⟩
  · rw [same, Except.ok.injEq, Prod.mk.injEq] at run
    exact run.1 ▸ ⟨SameRegion.refl b, sound⟩
  · rw [other, Except.ok.injEq, Prod.mk.injEq] at run
    exact absurd run.2 sound.rep.region.page_pos.ne'

theorem alloc (sound : b.Sound held) {size order blk : Nat} (small : size < 2 ^ 31)
    (isOrder : orderForPages size = .ok order) (run : b.buddyAlloc size = .ok (b', blk))
    (found : blk ≠ 0) : SameRegion b b' ∧ b'.Sound (insert (blk, order) held) := by
  rcases sound.alloc_cases small with
    same | ⟨order', i, k, b'', isOrder', _, _, other, effect, pool⟩
  · rw [same, Except.ok.injEq, Prod.mk.injEq] at run
    exact absurd run.2.symm found
  · rw [isOrder, Except.ok.injEq] at isOrder'
    rw [other, Except.ok.injEq, Prod.mk.injEq] at run
    obtain ⟨rfl, rfl⟩ := run
    subst isOrder'
    refine ⟨effect.same, effect.sound pool sound.unowned fun addr l => ?_⟩
    simp only [Set.mem_insert_iff, Prod.mk.injEq, Block.mk.injEq, sound.held_iff]
    constructor
    · rintro (⟨rfl, rfl⟩ | ⟨j, member, rfl⟩)
      · exact ⟨i, Or.inl ⟨rfl, rfl⟩, rfl⟩
      · exact ⟨j, Or.inr member, rfl⟩
    · rintro ⟨j, ⟨rfl, rfl⟩ | member, rfl⟩
      · exact Or.inl ⟨rfl, rfl⟩
      · exact Or.inr ⟨j, member, rfl⟩

/-- What a call of `buddy_free` can do. -/
theorem free_cases (sound : b.Sound held) {ptr : Nat} (inReach : b.InReach ptr) :
    (b.buddyFreeExit ptr = .ok (b, .rejected) ∧ ∀ k, (ptr, k) ∉ held) ∨
    ∃ i k b' free' hand exit, ptr = b.page i ∧ ⟨i, k⟩ ∈ b.allocBlocks ∧
      b.buddyFreeExit ptr = .ok (b', exit) ∧ exit ≠ .notFound ∧
      Cascade b.partner maxOrder b.freeBlocks ⟨i, k⟩ free' hand ∧
      Effect b b' (insert hand free') (b.allocBlocks \ {⟨i, k⟩})
        (b.span (insert ⟨i, k⟩ b.freeBlocks)) ∧
      Pool maxOrder b.num (insert hand free') (b.allocBlocks \ {⟨i, k⟩}) := by
  by_cases allocated : ∃ i k, ⟨i, k⟩ ∈ b.allocBlocks ∧ ptr = b.page i
  · right
    obtain ⟨i, k, member, rfl⟩ := allocated
    obtain ⟨b', free', hand, exit, run, notLost, cascade, effect, pool⟩ :=
      buddyFree_accepts sound.rep sound.pool member
        (sound.unowned i (sound.pool.index_lt_of_taken member))
        fun c inFree => sound.unowned _ (sound.pool.index_lt_of_free inFree)
    exact ⟨i, k, b', free', hand, exit, rfl, member, run, notLost, cascade, effect, pool⟩
  · left
    refine ⟨buddyFree_rejects (fun i k member _ same => allocated ⟨i, k, member, same⟩)
      (inReach.near sound.rep.region), fun k isHeld => ?_⟩
    obtain ⟨i, member, same⟩ := (sound.held_iff ptr k).mp isHeld
    exact allocated ⟨i, k, member, same⟩

theorem free (sound : b.Sound held) {ptr : Nat} (inReach : b.InReach ptr)
    (run : b.buddyFree ptr = .ok b') : SameRegion b b' ∧ b'.Sound {h ∈ held | h.1 ≠ ptr} := by
  rcases sound.free_cases inReach with
    ⟨same, notHeld⟩ | ⟨i, k, b'', free', hand, exit, rfl, member, other, _, _, effect, pool⟩
  · rw [buddyFree_eq same, Except.ok.injEq] at run
    subst run
    have heldEq : {h ∈ held | h.1 ≠ ptr} = held := by
      ext ⟨addr, k⟩
      simp only [Set.mem_ofPred_eq, and_iff_left_iff_imp]
      rintro isHeld rfl
      exact notHeld k isHeld
    rw [heldEq]
    exact ⟨SameRegion.refl b, sound⟩
  · rw [buddyFree_eq other, Except.ok.injEq] at run
    subst run
    refine ⟨effect.same, effect.sound pool sound.unowned fun addr l => ?_⟩
    simp only [Set.mem_ofPred_eq, sound.held_iff, Set.mem_sdiff, Set.mem_singleton_iff,
      Block.mk.injEq]
    constructor
    · rintro ⟨⟨j, inAlloc, rfl⟩, ne⟩
      exact ⟨j, ⟨inAlloc, fun same => ne (by rw [same.1])⟩, rfl⟩
    · rintro ⟨j, ⟨inAlloc, ne⟩, rfl⟩
      refine ⟨⟨j, inAlloc, rfl⟩, fun same => ne ?_⟩
      have indexEq := b.page_injective same
      subst indexEq
      exact ⟨rfl, sound.rep.functionalAlloc _ _ _ inAlloc member⟩

/-- The bytes of held blocks are not in free blocks. -/
theorem heldBytes_apart (sound : b.Sound held) : ∀ a ∈ heldBytes held, a ∉ b.span b.freeBlocks := by
  intro a inside
  obtain ⟨⟨addr, k⟩, isHeld, low, high⟩ := inside
  obtain ⟨i, member, rfl⟩ := (sound.held_iff addr k).mp isHeld
  have inBlock : a ∈ b.span {⟨i, k⟩} := by
    rw [span_singleton]
    exact ⟨low, by rw [Nat.mul_comm]; exact high⟩
  refine span_apart sound.pool.tiling ?_ Set.subset_union_left ?_ inBlock
  · exact Set.singleton_subset_iff.mpr (Or.inr member)
  · intro c same inFree
    exact sound.pool.disjoint c inFree (same ▸ member)

theorem write (sound : b.Sound held) {mem : Mem} (same : SameOutside (heldBytes held) b.mem mem) :
    ({ b with mem := mem } : Buddy).Sound held where
  rep := sound.rep.withMem same sound.heldBytes_apart
  pool := sound.pool
  unowned := sound.unowned
  held_iff := sound.held_iff

end Sound

/-- **Every run is sound**, and manages the region it started with. -/
theorem Run.sound {b₀ b : Buddy} {held : Set (Nat × Nat)} (region : b₀.Region)
    (run : Run b₀ b held) :
    b.Sound held ∧ b.managedStart = b₀.managedStart ∧ b.managedNumBlocks = b₀.managedNumBlocks := by
  -- a step that keeps the region of its predecessor keeps the region of the run
  have step : ∀ {b b' : Buddy} {held' : Set (Nat × Nat)},
      b.managedStart = b₀.managedStart ∧ b.managedNumBlocks = b₀.managedNumBlocks →
      SameRegion b b' ∧ b'.Sound held' → b'.Sound held' ∧ b'.managedStart = b₀.managedStart ∧
        b'.managedNumBlocks = b₀.managedNumBlocks :=
    fun before after => ⟨after.2, after.1.start.trans before.1, after.1.blocks.trans before.2⟩
  induction run with
  | init =>
    obtain ⟨free, rep, pool, _, _, start, blocks, owner, _⟩ := buddyInit_spec region
    have num : b₀.buddyInit.num = b₀.num := by rw [num, blocks, Buddy.num]
    refine ⟨?_, start, blocks⟩
    exact
      { rep := by rw [rep.freeEq, rep.allocEq]; exact rep
        pool := by rw [rep.freeEq, rep.allocEq, num]; exact pool
        unowned := fun i lt => owner i (num ▸ lt)
        held_iff := by
          intro addr k
          rw [rep.allocEq]
          simp }
  | call _ call ih =>
    cases call with
    | allocNull small call => exact step ih.2 (ih.1.allocNull small call)
    | alloc small isOrder call found => exact step ih.2 (ih.1.alloc small isOrder call found)
    | free inReach call => exact step ih.2 (ih.1.free inReach call)
    | write same => exact ⟨ih.1.write same, ih.2⟩

/-! ### The invariant on the fields of the code -/

/-- The representation invariant of the buddy allocator. -/
structure WellFormed (b : Buddy) : Prop where
  /-- Free and allocated blocks are pairwise disjoint and cover exactly the managed pages. -/
  tiling : Tiling b.num (b.freeBlocks ∪ b.allocBlocks)
  /-- Every free list is finite, without repeats, and holds exactly the free heads of its order. -/
  lists : ∀ k ≤ maxOrder, ∃ l, Chain b.link 0 (b.freeArea k) l ∧ l.Nodup ∧
    ∀ a, a ∈ l ↔ ∃ i < b.num, (b.blockMeta i).isHeadOfFreeBlock = true ∧
      (b.blockMeta i).freeOrder = k ∧ a = b.page i
  /-- Only the lists of the orders up to `MAX_ORDER` are needed. -/
  orders : ∀ c ∈ b.freeBlocks ∪ b.allocBlocks, c.order ≤ maxOrder
  /-- No page heads a free and an allocated block. -/
  oneHead : ∀ i < b.num,
    ¬ ((b.blockMeta i).isHeadOfFreeBlock = true ∧ (b.blockMeta i).isHeadOfAllocBlock = true)

theorem Sound.wellFormed {b : Buddy} {held : Set (Nat × Nat)} (sound : b.Sound held) :
    b.WellFormed where
  tiling := sound.pool.tiling
  lists := by
    intro k le
    obtain ⟨l, chain, members⟩ := sound.rep.lists k le
    refine ⟨l, chain, chain.nodup, fun a => ?_⟩
    rw [members]
    constructor
    · rintro ⟨i, ⟨lt, flag, order⟩, rfl⟩
      exact ⟨i, lt, flag, order, rfl⟩
    · rintro ⟨i, lt, flag, order, rfl⟩
      exact ⟨i, ⟨lt, flag, order⟩, rfl⟩
  orders := sound.pool.order_le
  oneHead := by
    rintro i lt ⟨freeFlag, allocFlag⟩
    have inFree : (⟨i, (b.blockMeta i).freeOrder⟩ : Block) ∈ b.freeBlocks := ⟨lt, freeFlag, rfl⟩
    have inAlloc : (⟨i, (b.blockMeta i).allocOrder⟩ : Block) ∈ b.allocBlocks := ⟨lt, allocFlag, rfl⟩
    have same := sound.pool.tiling.eq_of_index (Or.inl inFree) (Or.inr inAlloc) rfl
    exact sound.pool.disjoint _ inFree (same ▸ inAlloc)

/-- **Every reachable state of the buddy allocator is well formed, every call returns, and no
release leaves its merge loop because a buddy is missing from its free list.** -/
theorem run_wellFormed {b₀ b : Buddy} {held : Set (Nat × Nat)} (region : b₀.Region)
    (run : Run b₀ b held) :
    b.managedStart = b₀.managedStart ∧ b.managedNumBlocks = b₀.managedNumBlocks ∧ b.WellFormed ∧
      (∀ size < 2 ^ 31, ∃ b' blk, b.buddyAlloc size = .ok (b', blk)) ∧
      ∀ ptr, b.InReach ptr → ∃ b' exit, b.buddyFreeExit ptr = .ok (b', exit) ∧
      exit ≠ .notFound := by
  obtain ⟨sound, start, blocks⟩ := run.sound region
  refine ⟨start, blocks, sound.wellFormed, fun size small => ?_, fun ptr inReach => ?_⟩
  · rcases sound.alloc_cases small with same | ⟨_, i, _, b', _, _, _, call, _⟩
    · exact ⟨b, 0, same⟩
    · exact ⟨b', b.page i, call⟩
  · rcases sound.free_cases inReach with ⟨same, _⟩ | ⟨_, _, b', _, _, exit, _, _, call, notLost, _⟩
    · exact ⟨b, .rejected, same, by decide⟩
    · exact ⟨b', exit, call, notLost⟩

/-- A region of three pages at `0x1000`. -/
def threePages : Buddy where
  managedStart := 4096
  managedNumBlocks := 3
  freeArea := fun _ => 0
  blockMeta := fun _ => ⟨0, false, 0, false, 0⟩
  mem := fun _ => 0

theorem threePages_region : threePages.Region :=
  ⟨by decide, by decide, by decide, by decide⟩

/-- Two pages and one page are allocated, and the two are freed. -/
theorem run_wellFormed_threePages : ∃ b₁ b₂ b₃, threePages.buddyInit.buddyAlloc 2 = .ok (b₁, 4096) ∧
    b₁.buddyAlloc 1 = .ok (b₂, 12288) ∧ b₂.buddyFree 4096 = .ok b₃ ∧ b₃.WellFormed := by
  obtain ⟨⟨b₁, first⟩, alloc₁, observed⟩ := exists_ok (threePages.buddyInit.buddyAlloc 2)
    (fun r => (r.2, ((r.1.buddyAlloc 1).map fun q =>
      (q.2, ((q.1.buddyFree 4096).map fun _ => ()).toOption)).toOption))
    (4096, some (12288, some ())) (by decide +kernel)
  obtain ⟨rfl, observed⟩ := Prod.mk.inj observed
  obtain ⟨⟨b₂, second⟩, alloc₂, observed⟩ := exists_ok _ _ _ observed
  obtain ⟨rfl, observed⟩ := Prod.mk.inj observed
  obtain ⟨b₃, free, _⟩ := exists_ok _ _ _ observed
  have order₁ : orderForPages 2 = .ok 1 := orderForPages_two_pow (j := 1) (by decide)
  have order₂ : orderForPages 1 = .ok 0 := orderForPages_two_pow (j := 0) (by decide)
  have run₁ : Run threePages b₁ (insert (4096, 1) ∅) :=
    .call .init (.alloc (by decide) order₁ alloc₁ (by decide))
  have run₂ : Run threePages b₂ (insert (12288, 0) (insert (4096, 1) ∅)) :=
    .call run₁ (.alloc (by decide) order₂ alloc₂ (by decide))
  exact ⟨b₁, b₂, b₃, alloc₁, alloc₂, free,
    (run_wellFormed threePages_region (run₂.call (.free (Or.inl (by decide)) free))).2.2.1⟩

end Buddy

end Xv6Slab
