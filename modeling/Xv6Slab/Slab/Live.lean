/-
**Live allocations.**

`live k slabs` is the set of all live allocations of an allocator: the allocated blocks of the buddy
allocator that hold no slab, and the objects of slabs whose index is not free. Each lemma says how
one elementary step changes this set:

* `live_take` — taking an index off the free list of a slab makes one object live, which was not;
* `live_addSlab`, `live_dropSlab` — a block that becomes a slab with every index free, and back;
* `live_alloc`, `live_free` — blocks allocated and freed.
-/

import Xv6Slab.Slab.Owners

namespace Xv6Slab

open Bytes Chains Tilings

/-- An allocation that a client can hold: a block given by its base and order, or an object given by
its cache, its base and its size. -/
inductive Allocation
  | block (base order : Nat)
  | object (cache base size : Nat)
  deriving DecidableEq

namespace Allocation

/-- The first byte. -/
def base : Allocation → Nat
  | block base _ => base
  | object _ base _ => base

/-- The number of bytes. -/
def size : Allocation → Nat
  | block _ order => 4096 * 2 ^ order
  | object _ _ size => size

/-- The bytes of an allocation. -/
def bytes (a : Allocation) : Set Nat := Set.Ico a.base (a.base + a.size)

end Allocation

namespace Kmem

/-- The live allocations. -/
def live (k : Kmem) (slabs : Nat → Option SlabView) : Set Allocation
  | .block base order => ∃ i, ⟨i, order⟩ ∈ k.allocBlocks ∧ (k.blockMeta i).ownerSlab = 0 ∧
      base = k.page i
  | .object c base size => size = (k.desc c).objectSize ∧ ∃ s l x, slabs s = some ⟨c, l⟩ ∧
      x < (k.desc c).objsPerSlab ∧ x ∉ l ∧ base = (k.desc c).objAt s x

variable {k k' : Kmem} {slabs slabs' : Nat → Option SlabView}

theorem mem_live_block {base order : Nat} : .block base order ∈ live k slabs ↔
    ∃ i, ⟨i, order⟩ ∈ k.allocBlocks ∧ (k.blockMeta i).ownerSlab = 0 ∧ base = k.page i := Iff.rfl

theorem mem_live_object {c base size : Nat} : .object c base size ∈ live k slabs ↔
    size = (k.desc c).objectSize ∧ ∃ s l x, slabs s = some ⟨c, l⟩ ∧
      x < (k.desc c).objsPerSlab ∧ x ∉ l ∧ base = (k.desc c).objAt s x := Iff.rfl

theorem Quiet.objAt {touched : Set Nat} (quiet : Quiet k k' touched) (c s x : Nat) :
    (k'.desc c).objAt s x = (k.desc c).objAt s x := by
  unfold KmemCache.objAt
  rw [quiet.objOffset, quiet.objectSize]

/-- A quiet step changes no live allocation. -/
theorem Quiet.live {touched : Set Nat} (quiet : Quiet k k' touched)
    (slabs : Nat → Option SlabView) : Kmem.live k' slabs = Kmem.live k slabs := by
  ext a
  cases a with
  | block base order =>
    simp only [mem_live_block, quiet.allocBlocks, quiet.blockMeta, quiet.page]
  | object c base sz =>
    simp only [mem_live_object, quiet.objectSize, quiet.objsPerSlab, quiet.objAt]

namespace SlabsInv

variable {s t c x y : Nat} {l m : List Nat}

/-- An object lies inside its slab. -/
theorem objAt_mem (inv : SlabsInv k slabs) {v : SlabView} (isSlab : slabs s = some v)
    (lt : x < (k.desc v.cache).objsPerSlab) :
    (k.desc v.cache).objAt s x ∈ Set.Ico s (s + (k.desc v.cache).slabBytes) := by
  have geometry := inv.geometry _ (inv.used s v isSlab)
  have bound := geometry.objAt_le s lt
  have size := geometry.objectSize_ge
  unfold KmemCache.objAt at *
  exact ⟨by omega, by omega⟩

/-- The address of an object determines its slab and its index. -/
theorem objAt_unique (inv : SlabsInv k slabs) (first : slabs s = some ⟨c, l⟩)
    (second : slabs t = some ⟨c, m⟩) (xLt : x < (k.desc c).objsPerSlab)
    (yLt : y < (k.desc c).objsPerSlab) (same : (k.desc c).objAt s x = (k.desc c).objAt t y) :
    s = t ∧ x = y := by
  have slabEq : s = t := by
    by_contra ne
    have inFirst := inv.objAt_mem first xLt
    have inSecond := inv.objAt_mem second yLt
    simp only at inFirst inSecond
    rw [← same] at inSecond
    exact inv.apart first second ne inFirst inSecond
  subst slabEq
  exact ⟨rfl, KmemCache.objAt_injective (inv.geometry c (inv.used s _ first)).objectSize_ge same⟩

/-- A live allocation lies in the managed region. -/
theorem bytes_sub (inv : SlabsInv k slabs) {a : Allocation} (isLive : a ∈ live k slabs) :
    a.bytes ⊆ k.regionBytes := by
  intro p inside
  have low := inside.1
  have high := inside.2
  cases a with
  | block base order =>
    obtain ⟨i, member, _, rfl⟩ := isLive
    have fits := inv.pool.tiling.inside _ (Or.inr member)
    simp only [Allocation.base, Allocation.size, Buddy.page] at low high fits
    exact ⟨by omega, by omega⟩
  | object c base size =>
    obtain ⟨rfl, s, l, x, isSlab, lt, _, rfl⟩ := isLive
    obtain ⟨i, address, _⟩ := inv.placed s _ isSlab
    have bound := (inv.geometry c (inv.used s _ isSlab)).objAt_le s lt
    have fits := inv.fits isSlab
    simp only [Allocation.base, Allocation.size, Buddy.page, KmemCache.objAt] at *
    exact ⟨by omega, by omega⟩

theorem bytes_nonempty (inv : SlabsInv k slabs) {a : Allocation} (isLive : a ∈ live k slabs) :
    a.bytes.Nonempty := by
  refine ⟨a.base, le_rfl, ?_⟩
  cases a with
  | block base order =>
    have pos := Nat.two_pow_pos order
    simp only [Allocation.base, Allocation.size]
    omega
  | object c base size =>
    obtain ⟨rfl, s, l, x, isSlab, _⟩ := isLive
    have size := (inv.geometry c (inv.used s _ isSlab)).objectSize_ge
    simp only [Allocation.base, Allocation.size]
    omega

/-- **Taking an index off the free list of a slab makes exactly its object live.** -/
theorem live_take (inv : SlabsInv k slabs) (isSlab : slabs s = some ⟨c, x :: l⟩) :
    live k (Function.update slabs s (some ⟨c, l⟩)) =
        insert (.object c ((k.desc c).objAt s x) (k.desc c).objectSize) (live k slabs) ∧
      .object c ((k.desc c).objAt s x) (k.desc c).objectSize ∉ live k slabs := by
  have header := inv.header s _ isSlab
  have xLt := header.bounded x List.mem_cons_self
  have xFresh : x ∉ l := (List.nodup_cons.mp header.nodup).1
  constructor
  · ext a
    cases a with
    | block base order => simp [mem_live_block]
    | object c' base size =>
      simp only [Set.mem_insert_iff, Allocation.object.injEq, mem_live_object]
      constructor
      · intro isLive
        obtain ⟨rfl, t, m, y, isSlab', yLt, yLive, rfl⟩ := isLive
        by_cases eq : t = s
        · subst eq
          rw [Function.update_self, Option.some.injEq, SlabView.mk.injEq] at isSlab'
          obtain ⟨rfl, rfl⟩ := isSlab'
          by_cases same : y = x
          · subst same
            exact Or.inl ⟨rfl, rfl, rfl⟩
          · refine Or.inr ⟨rfl, t, x :: l, y, isSlab, yLt, ?_, rfl⟩
            intro inFree
            rcases List.mem_cons.mp inFree with eq | later
            · exact same eq
            · exact yLive later
        · rw [Function.update_of_ne eq] at isSlab'
          exact Or.inr ⟨rfl, t, m, y, isSlab', yLt, yLive, rfl⟩
      · intro cases_
        rcases cases_ with ⟨rfl, rfl, rfl⟩ | ⟨rfl, t, m, y, isSlab', yLt, yLive, rfl⟩
        · exact ⟨rfl, s, l, x, Function.update_self .., xLt, xFresh, rfl⟩
        · by_cases eq : t = s
          · subst eq
            rw [isSlab, Option.some.injEq, SlabView.mk.injEq] at isSlab'
            obtain ⟨rfl, rfl⟩ := isSlab'
            exact ⟨rfl, t, l, y, Function.update_self .., yLt,
              fun inFree => yLive (List.mem_cons_of_mem _ inFree), rfl⟩
          · exact ⟨rfl, t, m, y, by rw [Function.update_of_ne eq]; exact isSlab', yLt, yLive, rfl⟩
  · intro isLive
    obtain ⟨_, t, m, y, isSlab', yLt, yLive, same⟩ := isLive
    obtain ⟨rfl, rfl⟩ := inv.objAt_unique isSlab isSlab' xLt yLt same
    rw [isSlab, Option.some.injEq, SlabView.mk.injEq] at isSlab'
    obtain ⟨_, rfl⟩ := isSlab'
    exact yLive List.mem_cons_self

end SlabsInv

/-- Objects of a slab in which every index is free are not live. -/
theorem live_object_update {s c : Nat} {l : List Nat} (all : ∀ x < (k.desc c).objsPerSlab, x ∈ l)
    (absent : slabs s = none) (c' base size : Nat) :
    .object c' base size ∈ live k (Function.update slabs s (some ⟨c, l⟩)) ↔
      .object c' base size ∈ live k slabs := by
  simp only [mem_live_object]
  constructor
  · intro isLive
    obtain ⟨rfl, t, m, y, isSlab, yLt, yLive, rfl⟩ := isLive
    by_cases eq : t = s
    · rw [eq, Function.update_self, Option.some.injEq, SlabView.mk.injEq] at isSlab
      obtain ⟨rfl, rfl⟩ := isSlab
      exact absurd (all y yLt) yLive
    · rw [Function.update_of_ne eq] at isSlab
      exact ⟨rfl, t, m, y, isSlab, yLt, yLive, rfl⟩
  · intro isLive
    obtain ⟨rfl, t, m, y, isSlab, yLt, yLive, rfl⟩ := isLive
    refine ⟨rfl, t, m, y, ?_, yLt, yLive, rfl⟩
    rw [Function.update_of_ne]
    · exact isSlab
    · intro eq
      rw [eq, absent] at isSlab
      cases isSlab

/-- A block that becomes a slab is no longer live; nothing else changes. -/
theorem live_addSlab {b : Buddy} {i order c : Nat} {l : List Nat} (mem : Mem)
    (pos : k.page i ≠ 0) (all : ∀ x < (k.desc c).objsPerSlab, x ∈ l)
    (absent : slabs (k.page i) = none) (owner : b = k.toBuddy.withOwner i (2 ^ order) (k.page i))
    (member : ⟨i, order⟩ ∈ k.allocBlocks) (pool : Pool maxOrder k.num k.freeBlocks k.allocBlocks) :
    live ((k.setBuddy b).setMem mem) (Function.update slabs (k.page i) (some ⟨c, l⟩)) =
      live k slabs \ {.block (k.page i) order} := by
  subst owner
  have allocEq := Buddy.withOwner_allocBlocks k.toBuddy i (2 ^ order) (k.page i)
  ext a
  cases a with
  | object c' base size =>
    have same := live_object_update (k := k) all absent c' base size
    simp only [Set.mem_sdiff, Set.mem_singleton_iff, reduceCtorEq, not_false_eq_true, and_true]
    rw [← same]
    exact Iff.rfl
  | block base o =>
    simp only [Set.mem_sdiff, Set.mem_singleton_iff, Allocation.block.injEq]
    show (∃ j, (⟨j, o⟩ : Block) ∈ (k.toBuddy.withOwner i (2 ^ order) (k.page i)).allocBlocks ∧
      ((k.toBuddy.withOwner i (2 ^ order) (k.page i)).blockMeta j).ownerSlab = 0 ∧
        base = k.page j) ↔ _
    rw [allocEq, mem_live_block]
    constructor
    · intro isLive
      obtain ⟨j, inAlloc, unowned, rfl⟩ := isLive
      have outside : ¬ (i ≤ j ∧ j < i + 2 ^ order) := by
        intro inside
        rw [Buddy.withOwner_inside inside.1 inside.2] at unowned
        exact pos unowned
      rw [Buddy.withOwner_outside outside] at unowned
      refine ⟨⟨j, inAlloc, unowned, rfl⟩, fun same => outside ?_⟩
      have index := Buddy.page_injective _ same.1
      have size := Nat.two_pow_pos order
      omega
    · intro isLive
      obtain ⟨⟨j, inAlloc, unowned, rfl⟩, ne⟩ := isLive
      refine ⟨j, inAlloc, ?_, rfl⟩
      have outside : ¬ (i ≤ j ∧ j < i + 2 ^ order) := by
        intro inside
        have same := pool.tiling.once ⟨i, order⟩ (Or.inr member) ⟨j, o⟩ (Or.inr inAlloc) j inside
          (Block.covers_index _)
        rw [Block.mk.injEq] at same
        exact ne ⟨by rw [same.1], same.2.symm⟩
      rw [Buddy.withOwner_outside outside]
      exact unowned

/-- A slab in which every index is free becomes a live block; nothing else changes. -/
theorem SlabsInv.live_dropSlab (inv : SlabsInv k slabs) {b : Buddy} {i c : Nat} {l : List Nat}
    (isSlab : slabs (k.page i) = some ⟨c, l⟩) (all : ∀ x < (k.desc c).objsPerSlab, x ∈ l)
    (owner : b = k.toBuddy.withOwner i (2 ^ (k.desc c).slabOrder) 0)
    (member : ⟨i, (k.desc c).slabOrder⟩ ∈ k.allocBlocks) :
    live (k.setBuddy b) (Function.update slabs (k.page i) none) =
      insert (.block (k.page i) (k.desc c).slabOrder) (live k slabs) := by
  subst owner
  have allocEq := Buddy.withOwner_allocBlocks k.toBuddy i (2 ^ (k.desc c).slabOrder) 0
  ext a
  cases a with
  | object c' base size =>
    have absent : Function.update slabs (k.page i) none (k.page i) = none :=
      Function.update_self ..
    have same := live_object_update (k := k) all absent c' base size
    rw [Function.update_idem, ← isSlab, Function.update_eq_self] at same
    simp only [Set.mem_insert_iff, reduceCtorEq, false_or]
    rw [same]
    exact Iff.rfl
  | block base o =>
    simp only [Set.mem_insert_iff, Allocation.block.injEq]
    show (∃ j, (⟨j, o⟩ : Block) ∈ (k.toBuddy.withOwner i (2 ^ (k.desc c).slabOrder) 0).allocBlocks ∧
      ((k.toBuddy.withOwner i (2 ^ (k.desc c).slabOrder) 0).blockMeta j).ownerSlab = 0 ∧
        base = k.page j) ↔ _
    rw [allocEq, mem_live_block]
    constructor
    · intro isLive
      obtain ⟨j, inAlloc, unowned, rfl⟩ := isLive
      by_cases inside : i ≤ j ∧ j < i + 2 ^ (k.desc c).slabOrder
      · have same := inv.pool.tiling.once ⟨i, _⟩ (Or.inr member) ⟨j, o⟩ (Or.inr inAlloc) j inside
          (Block.covers_index _)
        rw [Block.mk.injEq] at same
        exact Or.inl ⟨by rw [same.1], same.2.symm⟩
      · rw [Buddy.withOwner_outside inside] at unowned
        exact Or.inr ⟨j, inAlloc, unowned, rfl⟩
    · intro isLive
      rcases isLive with ⟨rfl, rfl⟩ | ⟨j, inAlloc, unowned, rfl⟩
      · refine ⟨i, member, Buddy.withOwner_inside le_rfl ?_, rfl⟩
        have size := Nat.two_pow_pos (k.desc c).slabOrder
        omega
      · refine ⟨j, inAlloc, ?_, rfl⟩
        by_cases inside : i ≤ j ∧ j < i + 2 ^ (k.desc c).slabOrder
        · exact Buddy.withOwner_inside inside.1 inside.2
        · rw [Buddy.withOwner_outside inside]
          exact unowned

/-- **What is free**: the bytes of the region that are in no slab and in no live block. -/
theorem SlabsInv.mem_span_free (inv : SlabsInv k slabs) {a : Nat} : a ∈ k.span k.freeBlocks ↔
    a ∈ k.regionBytes ∧ (∀ t w, slabs t = some w → a ∉ Set.Ico t (t + (k.desc w.cache).slabBytes)) ∧
      ∀ base order, .block base order ∈ live k slabs → a ∉ (Allocation.block base order).bytes := by
  have blockBytes : ∀ i order, (Allocation.block (k.page i) order).bytes = k.span {⟨i, order⟩} :=
    fun i order => (Buddy.span_singleton _ _ _).symm
  constructor
  · intro inFree
    refine ⟨?_, fun t w isSlab inSlab => inv.not_free isSlab inSlab inFree, ?_⟩
    · obtain ⟨p, ⟨d, isFree, covers⟩, low, high⟩ := inFree
      have lt := inv.pool.tiling.lt_of_covers (Or.inl isFree) covers
      simp only [Buddy.page] at low high
      exact ⟨by omega, by omega⟩
    · rintro base order ⟨i, member, _, rfl⟩ inBlock
      rw [blockBytes] at inBlock
      refine Buddy.span_apart inv.pool.tiling ?_ Set.subset_union_left ?_ inBlock inFree
      · exact Set.singleton_subset_iff.mpr (Or.inr member)
      · exact fun d same isFree => inv.pool.disjoint d isFree
          (Set.mem_singleton_iff.mp same ▸ member)
  · rintro ⟨inRegion, noSlab, noBlock⟩
    obtain ⟨p, lt, low, high⟩ : ∃ p < k.num, k.page p ≤ a ∧ a < k.page p + 4096 := by
      have low := inRegion.1
      have high := inRegion.2
      simp only [Buddy.page]
      exact ⟨(a - k.managedStart) / 4096, by omega, by omega, by omega⟩
    obtain ⟨d, isFree | isTaken, covers⟩ := inv.pool.tiling.cover p lt
    · exact ⟨p, ⟨d, isFree, covers⟩, low, high⟩
    -- a taken block is a live one, or that of a slab
    have inBlock : a ∈ k.span {d} := ⟨p, ⟨d, rfl, covers⟩, low, high⟩
    have index := inv.pool.index_lt_of_taken isTaken
    by_cases unowned : (k.blockMeta d.index).ownerSlab = 0
    · refine absurd ?_ (noBlock (k.page d.index) d.order ⟨d.index, isTaken, unowned, rfl⟩)
      rw [blockBytes]
      exact inBlock
    · obtain ⟨w, isSlab, range⟩ := (inv.owner d.index index _ unowned).mp rfl
      refine absurd ?_ (noSlab _ w isSlab)
      obtain ⟨j, _, member, bytes⟩ := inv.slabBytes_eq isSlab
      rw [bytes] at range ⊢
      have headIn : k.page d.index ∈ k.span {d} :=
        ⟨d.index, ⟨d, rfl, d.covers_index⟩, le_rfl, by omega⟩
      obtain ⟨e, isE, f, isF, q, eCovers, fCovers⟩ := Buddy.span_common headIn range
      rw [Set.mem_singleton_iff] at isE isF
      subst isE isF
      rw [← inv.pool.tiling.once _ (Or.inr isTaken) _ (Or.inr member) q eCovers fCovers]
      exact inBlock

/-- A free block is not a live one. -/
theorem SlabsInv.free_not_live (inv : SlabsInv k slabs) {i m : Nat} (free : ⟨i, m⟩ ∈ k.freeBlocks)
    (order : Nat) : .block (k.page i) order ∉ live k slabs := by
  intro isLive
  obtain ⟨j, inAlloc, _, same⟩ := isLive
  have index := Buddy.page_injective _ same
  subst index
  have blockEq := inv.pool.tiling.eq_of_index (Or.inl free) (Or.inr inAlloc) rfl
  exact inv.pool.disjoint _ free (blockEq ▸ inAlloc)

/-- A block without owner is allocated. -/
theorem live_alloc {b : Buddy} {free : Set Block} {touched : Set Nat} {i order : Nat}
    (effect : Buddy.Effect k.toBuddy b free (insert ⟨i, order⟩ k.allocBlocks) touched)
    (unowned : (k.blockMeta i).ownerSlab = 0) :
    live (k.setBuddy b) slabs = insert (.block (k.page i) order) (live k slabs) := by
  ext a
  cases a with
  | object c base size =>
    simp only [Set.mem_insert_iff, reduceCtorEq, false_or]
    exact Iff.rfl
  | block base o =>
    simp only [Set.mem_insert_iff, Allocation.block.injEq]
    show (∃ j, (⟨j, o⟩ : Block) ∈ b.allocBlocks ∧ (b.blockMeta j).ownerSlab = 0 ∧ base = b.page j) ↔
      _
    simp only [effect.rep.allocEq, effect.same.owner, effect.same.page, mem_live_block,
      Set.mem_insert_iff, Block.mk.injEq]
    constructor
    · intro isLive
      obtain ⟨j, ⟨rfl, rfl⟩ | inAlloc, free, rfl⟩ := isLive
      · exact Or.inl ⟨rfl, rfl⟩
      · exact Or.inr ⟨j, inAlloc, free, rfl⟩
    · intro isLive
      rcases isLive with ⟨rfl, rfl⟩ | ⟨j, inAlloc, free, rfl⟩
      · exact ⟨i, Or.inl ⟨rfl, rfl⟩, unowned, rfl⟩
      · exact ⟨j, Or.inr inAlloc, free, rfl⟩

/-- A block is freed. -/
theorem live_free {b : Buddy} {free : Set Block} {touched : Set Nat} {i order : Nat}
    (effect : Buddy.Effect k.toBuddy b free (k.allocBlocks \ {⟨i, order⟩}) touched) :
    live (k.setBuddy b) slabs = live k slabs \ {.block (k.page i) order} := by
  ext a
  cases a with
  | object c base size =>
    simp only [Set.mem_sdiff, Set.mem_singleton_iff, reduceCtorEq, not_false_eq_true, and_true]
    exact Iff.rfl
  | block base o =>
    simp only [Set.mem_sdiff, Set.mem_singleton_iff, Allocation.block.injEq]
    show (∃ j, (⟨j, o⟩ : Block) ∈ b.allocBlocks ∧ (b.blockMeta j).ownerSlab = 0 ∧ base = b.page j) ↔
      _
    simp only [effect.rep.allocEq, effect.same.owner, effect.same.page, mem_live_block,
      Set.mem_sdiff, Set.mem_singleton_iff, Block.mk.injEq]
    constructor
    · intro isLive
      obtain ⟨j, ⟨inAlloc, ne⟩, free, rfl⟩ := isLive
      exact ⟨⟨j, inAlloc, free, rfl⟩, fun same => ne ⟨Buddy.page_injective _ same.1, same.2⟩⟩
    · intro isLive
      obtain ⟨⟨j, inAlloc, free, rfl⟩, ne⟩ := isLive
      exact ⟨j, ⟨inAlloc, fun same => ne ⟨by rw [same.1], same.2⟩⟩, free, rfl⟩

end Kmem

end Xv6Slab
