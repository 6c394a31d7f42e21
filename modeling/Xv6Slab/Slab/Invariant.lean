/-
**The slab allocator's invariants on the fields of the code.**

* `SlabRep` — the slab representation invariant: lists, counts, index free lists and page owners.
* `Returns` — the calls that well-behaved clients may make return.
* `run_slabRep` — **both hold in every reachable state.**
* `run_disjoint` — **live allocations overlap neither each other nor anything the allocator
  stores.**
-/

import Xv6Slab.Slab.Run

namespace Xv6Slab

open Bytes Chains Tilings

namespace Kmem

/-- The representation invariant of the slab allocator, for the slabs on each list. -/
structure SlabRep (k : Kmem) (held : List Allocation) (lists : Nat → SlabList → List Nat) :
    Prop where
  /-- The three lists of a used cache are doubly linked. -/
  linked : ∀ c, k.Used c → ∀ list, Linked (slabNext k.mem) (slabPrev k.mem) 0 0
    ((k.desc c).head list) (lists c list)
  /-- No slab stands on two lists. -/
  once : ∀ c list c' list' s, s ∈ lists c list → s ∈ lists c' list' → c = c' ∧ list = list'
  /-- A slab stands on a list of the used cache that its header names. -/
  cache : ∀ c list s, s ∈ lists c list → k.Used c ∧ slabCache k.mem s = c
  /-- The list of a slab is given by its objects in use. -/
  category : ∀ c list s, s ∈ lists c list →
    (list = .full ↔ slabInuse k.mem s = (k.desc c).objsPerSlab) ∧
    (list = .partials ↔ 0 < slabInuse k.mem s ∧ slabInuse k.mem s < (k.desc c).objsPerSlab) ∧
    (list = .empty ↔ slabInuse k.mem s = 0)
  /-- Every object is free or in use. -/
  counts : ∀ c list s, s ∈ lists c list →
    slabFreeCount k.mem s + slabInuse k.mem s = (k.desc c).objsPerSlab
  /-- The index free list visits exactly the objects that are not live, each once. -/
  freeList : ∀ c list s, s ∈ lists c list →
    ∃ l, Chain (slabNextArray k.mem s) nofree (slabFirstFree k.mem s) l ∧ l.Nodup ∧
      ∀ x, x ∈ l ↔ x < (k.desc c).objsPerSlab ∧
        .object c (slabObjPtr (k.desc c) s x) (k.desc c).objectSize ∉ held
  /-- A listed slab consists of managed pages, which it owns. -/
  owns : ∀ c list s, s ∈ lists c list → ∃ j, s = k.page j ∧
    j + 2 ^ (k.desc c).slabOrder ≤ k.num ∧
    ∀ i, j ≤ i → i < j + 2 ^ (k.desc c).slabOrder → (k.blockMeta i).ownerSlab = s
  /-- Every other page has no owner. -/
  owned : ∀ i < k.num, (k.blockMeta i).ownerSlab ≠ 0 → ∃ c list j,
    (k.blockMeta i).ownerSlab ∈ lists c list ∧ (k.blockMeta i).ownerSlab = k.page j ∧ j ≤ i ∧
      i < j + 2 ^ (k.desc c).slabOrder

/-- The calls of well-behaved clients return. A size that rounds up to zero is divided by. -/
structure Returns (k : Kmem) (held : List Allocation) : Prop where
  create : ∀ size < 2 ^ 64, objectSizeFor size ≠ 0 → ∀ ctor : Option (Mem → Nat → Mem),
    (∀ f, ctor = some f → ∀ mem obj, SameOutside (Set.Ico obj (obj + size)) mem (f mem obj)) →
    ∃ result, k.kmemCacheCreate size ctor = .ok result
  alloc : ∀ c, c = 0 ∨ k.Used c → ∃ result, k.kmemCacheAlloc c = .ok result
  free : ∀ c obj size, .object c obj size ∈ held → ∃ result, k.kmemCacheFree c obj = .ok result
  kmalloc : ∀ size, ∃ result, k.kmalloc size = .ok result
  kFree : ∀ a ∈ held, ∃ result, k.kFree a.base = .ok result
  buddyAlloc : ∀ pages ≤ 2 ^ 31, ∃ result, k.buddyAlloc pages = .ok result
  buddyFree : ∀ base order, .block base order ∈ held → ∃ result, k.buddyFree base = .ok result
  shrink : ∀ c, k.Used c → ∃ result, k.kmemCacheShrink c = .ok result
  destroy : ∀ c, k.Used c → ∃ result, k.kmemCacheDestroy c = .ok result

/-- An allocation lies in the managed region and overlaps nothing that the allocator stores. -/
structure Apart (k : Kmem) (blockNum : Int) (a : Allocation) : Prop where
  nonempty : a.bytes.Nonempty
  /-- It lies in the managed region. -/
  inside : a.bytes ⊆ Set.Ico k.managedStart (k.managedStart + k.managedNumBlocks.toNat * 4096)
  /-- It overlaps no slab header and no index array. -/
  headers : ∀ i < k.num, (k.blockMeta i).ownerSlab ≠ 0 → Disjoint a.bytes
    (Set.Ico (k.blockMeta i).ownerSlab ((k.blockMeta i).ownerSlab + slabHeaderSize +
      2 * (k.desc (slabCache k.mem (k.blockMeta i).ownerSlab)).objsPerSlab))
  /-- It overlaps no link word of a free list. -/
  links : ∀ order ≤ maxOrder, ∀ l, Chain k.link 0 (k.freeArea order) l → ∀ addr ∈ l,
    Disjoint a.bytes (Set.Ico addr (addr + 8))
  freeArea : Disjoint a.bytes (Set.Ico k.freeAreaAt (k.freeAreaAt + 8 * (maxOrder + 1)))
  blockMeta : Disjoint a.bytes (Set.Ico k.blockMetaAt (k.blockMetaAt + 16 * blockNum.toNat))
  cachePool : Disjoint a.bytes (Set.Ico k.cachePool (k.cachePool + maxNumCaches * descSize))

section Reached

variable {k k₀ : Kmem} {held : List Allocation} {space : Nat} {blockNum : Int} {isKernel : Bool}
  {v : View}

theorem Core.slabRep (core : Core k v) (same : ∀ a, a ∈ held ↔ a ∈ live k v.slabs) :
    SlabRep k held v.lists where
  linked := core.lists.linked
  once := core.lists.apart
  cache := by
    intro c list s member
    obtain ⟨l, isSlab⟩ := core.isSlab member
    exact ⟨core.lists.used c list s member, (core.slabs.header s _ isSlab).cache⟩
  category := by
    intro c list s member
    obtain ⟨l, isSlab⟩ := core.isSlab member
    have positive := (core.slabs.geometry c (core.slabs.used s _ isSlab)).objs_pos
    have inuse := (core.slabs.header s _ isSlab).inuse
    have category := core.category c list s l member isSlab
    simp only at inuse
    cases list <;> simp only [InCategory] at category <;>
      simp only [reduceCtorEq, true_iff, false_iff] <;> omega
  counts := by
    intro c list s member
    obtain ⟨l, isSlab⟩ := core.isSlab member
    have header := core.slabs.header s _ isSlab
    rw [header.freeCount, Nat.add_comm]
    exact header.inuse
  freeList := by
    intro c list s member
    obtain ⟨l, isSlab⟩ := core.isSlab member
    have header := core.slabs.header s _ isSlab
    refine ⟨l, header.chain, header.nodup, ?_⟩
    intro x
    constructor
    · intro isFree
      have lt := header.bounded x isFree
      refine ⟨lt, ?_⟩
      rw [same]
      intro isLive
      have address : slabObjPtr (k.desc c) s x = (k.desc c).objAt s x :=
        core.slabs.objPtr_eq isSlab lt
      obtain ⟨_, t, m, y, isSlab', lt', notFree, eq⟩ := isLive
      rw [address] at eq
      obtain ⟨rfl, rfl⟩ := core.slabs.objAt_unique isSlab isSlab' lt lt' eq
      rw [isSlab, Option.some.injEq, SlabView.mk.injEq] at isSlab'
      exact notFree (isSlab'.2 ▸ isFree)
    · intro free
      obtain ⟨lt, notHeld⟩ := free
      by_contra notFree
      have address : slabObjPtr (k.desc c) s x = (k.desc c).objAt s x :=
        core.slabs.objPtr_eq isSlab lt
      rw [same, address] at notHeld
      exact notHeld ⟨rfl, s, l, x, isSlab, lt, notFree, rfl⟩
  owns := by
    intro c list s member
    obtain ⟨l, isSlab⟩ := core.isSlab member
    obtain ⟨j, address, inAlloc⟩ := core.slabs.placed s _ isSlab
    have inside : j + 2 ^ (k.desc c).slabOrder ≤ k.num :=
      core.slabs.pool.tiling.inside _ (Or.inr inAlloc)
    refine ⟨j, address, inside, ?_⟩
    intro i low high
    refine (core.slabs.owner i (by omega) s (core.slabs.nonzero isSlab)).mpr ⟨_, isSlab, ?_⟩
    unfold KmemCache.slabBytes
    simp only [Buddy.page] at address ⊢
    exact ⟨by omega, by omega⟩
  owned := by
    intro i lt nonzero
    obtain ⟨w, isSlab, low, high⟩ := (core.slabs.owner i lt _ nonzero).mp rfl
    obtain ⟨list, member⟩ := (core.listed _ w.cache).mp ⟨w.free, isSlab⟩
    obtain ⟨j, address, _⟩ := core.slabs.placed _ w isSlab
    refine ⟨w.cache, list, j, member, address, ?_, ?_⟩ <;>
      rw [address] at low high <;> unfold KmemCache.slabBytes at high <;>
      simp only [Buddy.page] at low high <;> omega

theorem Sound.returns (sound : Sound k held space blockNum) : Returns k held := by
  obtain ⟨v, core, same⟩ := sound.view
  refine ⟨?_, ?_, ?_, ?_, ?_, ?_, ?_, ?_, ?_⟩
  · intro size small nonzero ctor ctorLocal
    rcases core.kmemCacheCreate_spec ctor small nonzero ctorLocal with ⟨_, run, _⟩ |
      ⟨_, _, run, _⟩ <;>
      exact ⟨_, run⟩
  · intro c valid
    rcases valid with rfl | used
    · exact ⟨_, rfl⟩
    · rcases core.kmemCacheAlloc_spec used (sound.idle c used) with ⟨_, run, _⟩ |
        ⟨_, _, _, run, _⟩ <;>
        exact ⟨_, run⟩
  · intro c obj size isHeld
    have isLive := (same _).mp isHeld
    obtain ⟨_, s, l, x, isSlab, _⟩ := isLive
    obtain ⟨_, _, run, _⟩ := core.kmemCacheFree_spec
      (sound.idle c (core.slabs.used s _ isSlab)) ((same _).mp isHeld)
    exact ⟨_, run⟩
  · intro size
    rcases core.kmalloc_spec sound.idle sound.kmalloc size with ⟨_, run, _⟩ | ⟨_, _, _, run, _⟩ <;>
      exact ⟨_, run⟩
  · intro a isHeld
    obtain ⟨_, _, run, _⟩ := core.kFree_spec sound.idle ((same a).mp isHeld)
    exact ⟨_, run⟩
  · intro pages le
    obtain ⟨order, isOrder, _⟩ := Buddy.orderForPages_least le
    by_cases zero : pages = 0
    · subst zero
      exact ⟨_, rfl⟩
    · rcases core.buddyAlloc_spec zero isOrder with run | ⟨_, _, run, _⟩ <;> exact ⟨_, run⟩
  · intro base order isHeld
    obtain ⟨_, run, _⟩ := core.buddyFree_spec ((same _).mp isHeld)
    exact ⟨_, run⟩
  · intro c used
    obtain ⟨_, _, run, _⟩ := core.kmemCacheShrink_spec used
    exact ⟨_, run⟩
  · intro c used
    rcases core.kmemCacheDestroy_spec used (sound.idle c used) with ⟨_, run, _⟩ | ⟨_, _, run, _⟩ <;>
      exact ⟨_, run⟩

/-- **The slab representation invariant holds in every reachable state, and every call of a
well-behaved client returns.** -/
theorem run_slabRep (given : Space space blockNum) (head : k₀.headOfCacheList = 0)
    (tail : k₀.tailOfCacheList = 0) (run : Run k₀ space blockNum isKernel k held) :
    (∃ lists, SlabRep k held lists) ∧ Returns k held := by
  have sound := run.sound given head tail
  obtain ⟨v, core, same⟩ := sound.view
  exact ⟨⟨v.lists, core.slabRep same⟩, sound.returns⟩

/-- A `kmem_state` of zero bytes over zero memory. -/
def zeroed : Kmem where
  managedStart := 0
  managedNumBlocks := 0
  freeArea := fun _ => 0
  blockMeta := fun _ => ⟨0, false, 0, false, 0⟩
  mem := fun _ => 0
  freeAreaAt := 0
  blockMetaAt := 0
  cachePool := 0
  headOfCacheList := 0
  tailOfCacheList := 0
  kmallocCaches := fun _ => 0
  desc := fun _ => KmemCache.zero

theorem space_sixteenPages : Space 4096 16 := ⟨by decide, by decide⟩

/-- Sixteen pages at `0x1000`, of which `kmalloc` hands out one object. -/
theorem exists_run_kmalloc : ∃ k a, Run zeroed 4096 16 false k [a] := by
  obtain ⟨k₁, init, observed⟩ := exists_ok (zeroed.kmemInit 4096 16 false)
    (fun k => ((k.kmalloc 100).map Prod.snd).toOption) (some 65632) (by decide +kernel)
  obtain ⟨⟨k₂, obj⟩, call, address⟩ := exists_ok (k₁.kmalloc 100) Prod.snd 65632 observed
  have nonzero : obj ≠ 0 := by
    simp only at address
    rw [address]
    decide
  have run := Run.call (.init init) (.allocator (.kmalloc call))
  rw [handOut_of_ne nonzero] at run
  exact ⟨k₂, _, run⟩

theorem run_slabRep_sixteenPages : ∃ k a, Run zeroed 4096 16 false k [a] ∧
    (∃ lists, SlabRep k [a] lists) ∧ Returns k [a] := by
  obtain ⟨k, a, run⟩ := exists_run_kmalloc
  exact ⟨k, a, run, run_slabRep space_sixteenPages rfl rfl run⟩

theorem Core.apart (core : Core k v) (placement : Placement k space blockNum) {a : Allocation}
    (isLive : a ∈ live k v.slabs) : Apart k blockNum a := by
  have inside := core.slabs.bytes_sub isLive
  have before := placement.before
  have poolAt := placement.cachePool
  have metaAt := placement.blockMetaAt
  have areaAt := placement.freeAreaAt
  have low : ∀ p ∈ a.bytes, k.cachePool + 128 * 128 ≤ p := fun p inA => before.trans (inside inA).1
  refine ⟨core.slabs.bytes_nonempty isLive, inside, ?_, ?_, ?_, ?_, ?_⟩
  · intro i lt nonzero
    obtain ⟨w, isSlab, _⟩ := (core.slabs.owner i lt _ nonzero).mp rfl
    rw [Set.disjoint_left, (core.slabs.header _ w isSlab).cache]
    exact fun p inA => core.slabs.live_not_header isLive isSlab inA
  · intro order le l chain addr member
    obtain ⟨l', chain', members⟩ := core.slabs.rep.lists order le
    rw [chain.unique chain', members] at member
    obtain ⟨i, inFree, rfl⟩ := member
    rw [Set.disjoint_left]
    exact fun p inA inLink => core.slabs.live_not_free isLive inA
      (Buddy.link_mem_span inFree inLink)
  · rw [Set.disjoint_left]
    intro p inA inArea
    have bound := low p inA
    have high := inArea.2
    simp only [maxOrder] at high
    omega
  · rw [Set.disjoint_left]
    intro p inA inArea
    have bound := low p inA
    have high := inArea.2
    omega
  · rw [Set.disjoint_left]
    intro p inA inArea
    exact absurd inArea.2 (Nat.not_lt.mpr (low p inA))

/-- **Live allocations are pairwise disjoint, lie in the managed region, and overlap no slab header,
no free-list link and none of the metadata.** Held allocations are listed once for each time they
were handed out, so none is handed out twice. -/
theorem run_disjoint (given : Space space blockNum) (head : k₀.headOfCacheList = 0)
    (tail : k₀.tailOfCacheList = 0) (run : Run k₀ space blockNum isKernel k held) :
    held.Pairwise (fun a b => Disjoint a.bytes b.bytes) ∧ ∀ a ∈ held, Apart k blockNum a := by
  have sound := run.sound given head tail
  obtain ⟨v, core, same⟩ := sound.view
  constructor
  · refine sound.nodup.pairwise_of_forall_ne ?_
    intro a aHeld b bHeld ne
    exact core.slabs.live_disjoint ((same a).mp aHeld) ((same b).mp bHeld) ne
  · exact fun a isHeld => core.apart sound.placement ((same a).mp isHeld)

/-- Two objects of one slab. -/
theorem run_disjoint_sixteenPages : ∃ k a b, Run zeroed 4096 16 false k [b, a] ∧
    [b, a].Pairwise (fun a b => Disjoint a.bytes b.bytes) ∧ ∀ a' ∈ [b, a], Apart k 16 a' := by
  obtain ⟨k₁, init, observed⟩ :=
    exists_ok (zeroed.kmemInit 4096 16 false) (fun k => ((k.kmalloc 100).map fun r =>
    (r.2, ((r.1.kmalloc 100).map Prod.snd).toOption)).toOption) (some (65632, some 65760))
      (by decide +kernel)
  obtain ⟨⟨k₂, first⟩, call₁, observed⟩ := exists_ok _ _ _ observed
  obtain ⟨rfl, observed⟩ := Prod.mk.inj observed
  obtain ⟨⟨k₃, second⟩, call₂, rfl⟩ := exists_ok _ _ _ observed
  have run :=
    ((Run.init init).call (.allocator (.kmalloc call₁))).call (.allocator (.kmalloc call₂))
  rw [handOut_of_ne (by decide), handOut_of_ne (by decide)] at run
  exact ⟨k₃, _, _, run, run_disjoint space_sixteenPages rfl rfl run⟩

end Reached

end Kmem

end Xv6Slab
