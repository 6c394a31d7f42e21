/-
**`kmem_init` establishes the invariant.**

* `Space` — what the callers promise about the memory they pass.
* `Placement` — where the metadata and the managed region end up. When the metadata does not fit,
  the subtraction of the code wraps and the number of managed pages is negative: no page is managed.
* `KmallocInv` — the thirteen caches of `kmalloc`, which always exist.
* `kmemInit_spec` — **after `kmem_init` nothing is live and the invariant holds.**
-/

import Xv6Slab.Slab.Caches
import Xv6Slab.Buddy.Init

namespace Xv6Slab

open Bytes Chains Tilings

/-- The memory given to `kmem_init` lies below `MAXVA`. -/
structure Space (space : Nat) (blockNum : Int) : Prop where
  nonneg : 0 ≤ blockNum
  fits : space + blockNum.toNat * 4096 ≤ maxva

/-- The kernel's heap: from `0x80030000` to `PHYSTOP`. -/
theorem space_kernelHeap : Space 0x80030000 32720 :=
  ⟨by decide, show 0x80030000 + 32720 * 4096 ≤ 2 ^ 38 by norm_num⟩

namespace Kmem

/-- The metadata of an allocator precedes its managed region, which ends within the given space
unless it is empty. -/
structure Placement (k : Kmem) (space : Nat) (blockNum : Int) : Prop where
  freeAreaAt : k.freeAreaAt = space
  blockMetaAt : k.blockMetaAt = space + 128
  cachePool : k.cachePool = space + 128 + blockNum.toNat * 16
  before : k.cachePool + maxNumCaches * descSize ≤ k.managedStart
  aligned : k.managedStart % 4096 = 0
  blocks : k.managedNumBlocks ≤ blockNum
  inside : k.num = 0 ∨ k.managedStart + k.num * 4096 ≤ space + blockNum.toNat * 4096
  low : k.managedStart ≤ 2 ^ 39

variable {k k' : Kmem} {v : View} {space : Nat} {blockNum : Int}

theorem Placement.region (placement : Placement k space blockNum) (given : Space space blockNum) :
    k.toBuddy.Region where
  aligned := placement.aligned
  pos := by
    have before := placement.before
    have pool := placement.cachePool
    omega
  fits := by
    have fits := given.fits
    have low := placement.low
    simp only [maxva] at fits
    rcases placement.inside with none | inside <;> omega
  small := by
    have fits := given.fits
    have blocks := placement.blocks
    simp only [maxva] at fits
    omega

theorem Placement.of_samePlace (placement : Placement k space blockNum) (same : SamePlace k k') :
    Placement k' space blockNum := by
  have num : k'.num = k.num := by
    unfold Buddy.num
    rw [same.blocks]
  refine ⟨same.freeAreaAt.trans placement.freeAreaAt, same.blockMetaAt.trans placement.blockMetaAt,
    same.cachePool.trans placement.cachePool, ?_, ?_, ?_, ?_, ?_⟩
  · rw [same.cachePool, same.start]
    exact placement.before
  · rw [same.start]
    exact placement.aligned
  · rw [same.blocks]
    exact placement.blocks
  · rw [num, same.start]
    exact placement.inside
  · rw [same.start]
    exact placement.low

/-! ### The managed region -/

theorem toUint64_of_nonneg {value : Int} (nonneg : 0 ≤ value) (small : value < 2 ^ 64) :
    toUint64 value = value.toNat := by
  unfold toUint64
  rw [Int.emod_eq_of_lt nonneg small]

/-- A number that lies little below a multiple of `2 ^ 42` is negative as an `int`. -/
theorem toInt32_wrapped {value : Nat} (high : 2 ^ 42 - 2 ^ 31 ≤ value % 2 ^ 42) :
    toInt32 value < 0 := by
  rw [← toInt32_mod]
  apply toInt32_neg
  · omega
  · omega

/-- The number of pages between two addresses, as `kmem_init` computes it. -/
theorem pages_cases {low high : Nat} (lowLe : low ≤ 2 ^ 39) (highLe : high ≤ 2 ^ 39)
    (near : low ≤ high + 2 ^ 20) :
    (low ≤ high ∧ toInt32 ((high + 2 ^ 64 - low) % 2 ^ 64 / 4096) = ((high - low) / 4096 : Nat)) ∨
      (high < low ∧ toInt32 ((high + 2 ^ 64 - low) % 2 ^ 64 / 4096) < 0) := by
  by_cases order : low ≤ high
  · left
    refine ⟨order, ?_⟩
    have wrap : (high + 2 ^ 64 - low) % 2 ^ 64 = high - low := by omega
    rw [wrap]
    exact toInt32_of_lt (by omega)
  · right
    exact ⟨by omega, toInt32_wrapped (by omega)⟩

/-- No window is carved out when the metadata does not fit. -/
theorem carveWindows_order {low high base total : Nat} (near : low ≤ high + 2 ^ 20)
    (carved : carveWindows low high = .ok (base, total)) : low ≤ high := by
  by_contra wrapped
  have wrap : (high + 2 ^ 64 - low) % 2 ^ 64 = 2 ^ 64 - (low - high) := by omega
  have negative : toInt32 ((2 ^ 64 - (low - high) - 32 * 1024 * 1024) / (1024 * 4096)) < 0 :=
    toInt32_wrapped (by omega)
  unfold carveWindows at carved
  simp only [minKernelHeapBytes, kheapwinSize, wrap] at carved
  rw [if_pos (show toInt32 _ < 1 by omega)] at carved
  split_ifs at carved

/-- What is left of the kernel's own heap ends above its start and not after the given space. -/
theorem carveWindows_spec {low high base total : Nat} (highLe : high ≤ 2 ^ 39)
    (near : low ≤ high + 2 ^ 20) (carved : carveWindows low high = .ok (base, total)) :
    low < base ∧ base ≤ high := by
  have order := carveWindows_order near carved
  have wrap : (high + 2 ^ 64 - low) % 2 ^ 64 = high - low := by omega
  have count : (high - low - 32 * 1024 * 1024) / (1024 * 4096) < 2 ^ 31 := by omega
  have windows : toUint64 ((((high - low - 32 * 1024 * 1024) / (1024 * 4096) : Nat) : Int)) =
      (high - low - 32 * 1024 * 1024) / (1024 * 4096) := by
    rw [toUint64_of_nonneg (by omega) (by omega), Int.toNat_natCast]
  unfold carveWindows at carved
  simp only [minKernelHeapBytes, kheapwinSize, wrap, toInt32_of_lt count, windows] at carved
  split_ifs at carved with little few below
  rw [Except.ok.injEq, Prod.mk.injEq] at carved
  obtain ⟨rfl, _⟩ := carved
  exact ⟨by omega, by omega⟩

/-- The managed region between two addresses, before `buddy_init`. -/
def manage (k : Kmem) (low high : Nat) : Kmem :=
  { k with
    managedStart := low
    managedNumBlocks := toInt32 ((high + 2 ^ 64 - low) % 2 ^ 64 / 4096) }

theorem manage_blocks (k : Kmem) (low high : Nat) : (k.manage low high).managedNumBlocks =
    toInt32 ((high + 2 ^ 64 - low) % 2 ^ 64 / 4096) := by
  simp only [manage]

section Place

variable (given : Space space blockNum)

include given

/-- The metadata and the first page after it. -/
theorem placeMetadata_spec (k : Kmem) :
    (k.placeMetadata space blockNum).1.freeAreaAt = space ∧
      (k.placeMetadata space blockNum).1.blockMetaAt = space + 128 ∧
      (k.placeMetadata space blockNum).1.cachePool = space + 128 + blockNum.toNat * 16 ∧
      (k.placeMetadata space blockNum).2 % 4096 = 0 ∧
      space + 128 + blockNum.toNat * 16 + 16384 ≤ (k.placeMetadata space blockNum).2 ∧
      (k.placeMetadata space blockNum).2 < space + 128 + blockNum.toNat * 16 + 16384 + 4096 := by
  have nonneg := given.nonneg
  have fits := given.fits
  simp only [maxva] at fits
  have count : toUint64 blockNum = blockNum.toNat := toUint64_of_nonneg nonneg (by omega)
  unfold placeMetadata
  simp only [count, maxNumCaches, descSize]
  refine ⟨trivial, ?_, ?_, ?_⟩
  · omega
  · omega
  · split_ifs <;> omega

theorem manage_placement (k : Kmem) {high : Nat}
    (highLe : high ≤ space + blockNum.toNat * 4096)
    (near : (k.placeMetadata space blockNum).2 ≤ high + 2 ^ 20) :
    Placement ((k.placeMetadata space blockNum).1.manage (k.placeMetadata space blockNum).2 high)
      space blockNum := by
  have spec := placeMetadata_spec given k
  generalize k.placeMetadata space blockNum = placed at *
  obtain ⟨k₁, low⟩ := placed
  obtain ⟨freeArea, blockMeta, pool, aligned, lowGe, lowLt⟩ := spec
  have nonneg := given.nonneg
  have fits := given.fits
  simp only [maxva] at fits pool aligned lowGe lowLt near
  have cases_ := pages_cases (show low ≤ 2 ^ 39 by omega) (show high ≤ 2 ^ 39 by omega) near
  refine ⟨freeArea, blockMeta, pool, ?_, aligned, ?_, ?_, ?_⟩
  · show k₁.cachePool + 128 * 128 ≤ low
    omega
  · simp only [manage_blocks]
    rcases cases_ with ⟨order, value⟩ | ⟨_, negative⟩
    · rw [value]
      omega
    · omega
  · unfold Buddy.num
    simp only [manage_blocks]
    show _ ∨ low + _ ≤ _
    rcases cases_ with ⟨order, value⟩ | ⟨_, negative⟩
    · right
      rw [value, Int.toNat_natCast]
      omega
    · left
      exact Int.toNat_of_nonpos negative.le
  · show low ≤ 2 ^ 39
    omega

end Place

/-! ### The first state -/

/-- No list, no slab and no cache. -/
def freshView : View := ⟨fun _ _ => [], fun _ => none, []⟩

/-- After `buddy_init`, with no descriptor used, nothing is live. -/
theorem fresh_core (region : k.toBuddy.Region) (unused : ∀ c, ¬ k.Used c)
    (pos : 0 < k.cachePool) (fits : k.cachePool + maxNumCaches * descSize ≤ 2 ^ 64)
    (head : k.headOfCacheList = 0) (tail : k.tailOfCacheList = 0) :
    Core (k.setBuddy k.toBuddy.buddyInit) freshView ∧
      live (k.setBuddy k.toBuddy.buddyInit) freshView.slabs = ∅ := by
  obtain ⟨free, rep, pool, _, _, _, blocks, owner, _⟩ := Buddy.buddyInit_spec region
  have num : k.toBuddy.buddyInit.num = k.num := by
    unfold Buddy.num
    rw [blocks]
  have allocNone : (k.setBuddy k.toBuddy.buddyInit).allocBlocks = ∅ := rep.allocEq
  have unused' : ∀ c, ¬ (k.setBuddy k.toBuddy.buddyInit).Used c := unused
  have noSlab : ∀ s w, freshView.slabs s ≠ some w := fun _ _ isSlab => by cases isSlab
  have slabs : SlabsInv (k.setBuddy k.toBuddy.buddyInit) freshView.slabs := by
    refine ⟨?_, ?_, fun c used => absurd used (unused' c), ?_, ?_, ?_, ?_⟩
    · show k.toBuddy.buddyInit.Rep k.toBuddy.buddyInit.freeBlocks k.toBuddy.buddyInit.allocBlocks
      rw [rep.freeEq, rep.allocEq]
      exact rep
    · show Pool maxOrder k.toBuddy.buddyInit.num k.toBuddy.buddyInit.freeBlocks
        k.toBuddy.buddyInit.allocBlocks
      rw [rep.freeEq, rep.allocEq, num]
      exact pool
    · exact fun s w isSlab => absurd isSlab (noSlab s w)
    · exact fun s w isSlab => absurd isSlab (noSlab s w)
    · exact fun s w isSlab => absurd isSlab (noSlab s w)
    · intro i lt s nonzero
      have lt' : i < k.num := num ▸ lt
      constructor
      · intro owned
        exact absurd (owned.symm.trans (owner i lt')) nonzero
      · intro owned
        obtain ⟨w, isSlab, _⟩ := owned
        exact absurd isSlab (noSlab s w)
  constructor
  · refine ⟨⟨fun c used => absurd used (unused' c), ?_, ?_, ?_, ?_⟩, slabs,
      ⟨pos, fits, ?_, ?_, tail⟩, ?_, ?_⟩
    · exact fun _ _ _ member => absurd member List.not_mem_nil
    · exact fun _ _ _ _ _ member => absurd member List.not_mem_nil
    · exact fun _ _ _ member => absurd member List.not_mem_nil
    · exact fun _ _ _ member => absurd member List.not_mem_nil
    · show Linked _ _ 0 0 k.headOfCacheList []
      rw [head]
      exact .nil _
    · exact fun c => ⟨fun member => absurd member List.not_mem_nil,
        fun used => absurd used (unused' c)⟩
    · intro s c
      constructor
      · intro known
        obtain ⟨l, isSlab⟩ := known
        exact absurd isSlab (noSlab s _)
      · intro known
        obtain ⟨list, member⟩ := known
        exact absurd member List.not_mem_nil
    · exact fun _ _ _ _ member => absurd member List.not_mem_nil
  · refine Set.eq_empty_of_forall_notMem ?_
    intro a isLive
    cases a with
    | block base order =>
      obtain ⟨i, member, _⟩ := isLive
      rw [allocNone] at member
      exact member
    | object c base size =>
      obtain ⟨_, s, l, x, isSlab, _⟩ := isLive
      exact absurd isSlab (noSlab s _)

/-! ### The caches of `kmalloc` -/

/-- The first `count` caches of `kmalloc` exist, with their object sizes. -/
def KmallocInv (k : Kmem) (count : Nat) : Prop :=
  ∀ j < count, k.Used (k.kmallocCaches j) ∧ (k.desc (k.kmallocCaches j)).objectSize = 32 * 2 ^ j

/-- The object sizes of the `kmalloc` caches are not rounded, and a slab layout exists for each. -/
theorem kmallocSizes : ∀ j < kmallocNumCaches, objectSizeFor (32 * 2 ^ j) = 32 * 2 ^ j ∧
    32 * 2 ^ j < 2 ^ 64 ∧
      layoutLoop (objectSizeFor (32 * 2 ^ j)) (minObjsFor (objectSizeFor (32 * 2 ^ j)))
      (maxSlabOrder + 1) 0 ≠ none := by
  decide

theorem KmallocInv.recast {gone : Set Nat} {v' : View} {count : Nat} (inv : KmallocInv k count)
    (recast : Recast gone k v k' v') (stays : ∀ j < count, k.kmallocCaches j ∉ gone) :
    KmallocInv k' count := by
  intro j lt
  obtain ⟨used, size⟩ := inv j lt
  obtain ⟨used', shape⟩ := recast.kept _ (stays j lt) used
  rw [recast.kmalloc]
  exact ⟨used', shape.objectSize.trans size⟩

/-- The invariant does not depend on which caches `kmalloc` uses. -/
theorem Core.setKmallocCaches (core : Core k v) (caches : Nat → Nat) :
    Core { k with kmallocCaches := caches } v where
  lists := ⟨core.lists.linked, core.lists.used, core.lists.apart, core.lists.paged,
    core.lists.small⟩
  slabs := ⟨core.slabs.rep, core.slabs.pool, core.slabs.geometry, core.slabs.used,
    core.slabs.header, core.slabs.placed, core.slabs.owner⟩
  pool := ⟨core.pool.pos, core.pool.fits, core.pool.linked, core.pool.members, core.pool.tail⟩
  listed := core.listed
  category := core.category

/-- **The caches of `kmalloc` are created one by one**, and none of these calls fails. -/
theorem Core.createKmallocCaches_spec (core : Core k v) (idle : k.Idle) (none : v.caches = []) :
    ∀ count ≤ kmallocNumCaches, ∃ k' v', k.createKmallocCaches count = .ok k' ∧ Core k' v' ∧
      live k' v'.slabs = live k v.slabs ∧ k'.Idle ∧ KmallocInv k' count ∧ SamePlace k k' ∧
      v'.caches = ((List.range count).map k'.kmallocCaches).reverse := by
  intro count
  induction count with
  | zero =>
    intro _
    exact ⟨k, v, rfl, core, rfl, idle, fun j lt => absurd lt (Nat.not_lt_zero j),
      ⟨rfl, rfl, rfl, rfl, rfl⟩, none⟩
  | succ count ih =>
    intro le
    obtain ⟨k₁, v₁, run, core₁, live₁, idle₁, kmalloc₁, place₁, caches₁⟩ :=
      ih (Nat.le_of_succ_le le)
    obtain ⟨unrounded, small, layout⟩ := kmallocSizes count le
    have nonzero : objectSizeFor (32 * 2 ^ count) ≠ 0 := by
      rw [unrounded]
      exact (Nat.mul_pos (by decide) (Nat.two_pow_pos count)).ne'
    have few : v₁.caches.length < maxNumCaches := by
      rw [caches₁, List.length_reverse, List.length_map, List.length_range]
      exact lt_of_lt_of_le le (by decide)
    obtain ⟨index, slotFree⟩ := core₁.pool.exists_free_slot few
    rcases core₁.kmemCacheCreate_spec Option.none small nonzero (fun _ isCtor => by cases isCtor)
      with ⟨_, _, _, full | noLayout⟩ | ⟨k₂, c, created, _, fresh, used, size, recast⟩
    · rw [slotFree] at full
      cases full
    · exact absurd noLayout layout
    · refine ⟨{ k₂ with kmallocCaches := Function.update k₂.kmallocCaches count c },
        { v₁ with caches := c :: v₁.caches }, ?_, recast.core.setKmallocCaches _,
        recast.live.trans live₁, recast.idle idle₁, ?_, ?_, ?_⟩
      · unfold createKmallocCaches
        rw [run]
        show (k₁.kmemCacheCreate (32 * 2 ^ count) Option.none >>= _) = _
        rw [created]
        rfl
      · have before := kmalloc₁.recast recast fun _ _ => Set.notMem_empty _
        intro j lt
        by_cases eq : j = count
        · simp only [eq, Function.update_self]
          exact ⟨used, size.trans unrounded⟩
        · simp only [Function.update_of_ne eq]
          exact before j (by omega)
      · have last :
            SamePlace k₂ { k₂ with kmallocCaches := Function.update k₂.kmallocCaches count c } :=
          ⟨rfl, rfl, rfl, rfl, rfl⟩
        exact (place₁.trans recast.place).trans last
      · have others : (List.range count).map (Function.update k₂.kmallocCaches count c) =
            (List.range count).map k₁.kmallocCaches := by
          refine List.map_congr_left fun j inRange => ?_
          rw [Function.update_of_ne (List.mem_range.mp inRange).ne, recast.kmalloc]
        simp only [List.range_succ, List.map_append, List.map_cons, List.map_nil,
          List.reverse_append,
          List.reverse_singleton, Function.update_self, others, caches₁, List.singleton_append]

/-! ### The call -/

theorem used_setBuddy {c : Nat} (b : Buddy) : (k.setBuddy b).Used c ↔ k.Used c := Iff.rfl

theorem used_manage {c : Nat} (low high : Nat) : (k.manage low high).Used c ↔ k.Used c := by
  unfold Used slot manage
  simp only

theorem placeMetadata_unused (k : Kmem) (space : Nat) (blockNum : Int) (c : Nat) :
    ¬ (k.placeMetadata space blockNum).1.Used c := by
  intro used
  obtain ⟨i, lt, isSlot, on⟩ := used
  have inPool : (k.placeMetadata space blockNum).1.cachePool ≤ c ∧
      c < (k.placeMetadata space blockNum).1.cachePool + maxNumCaches * descSize := by
    unfold slot at isSlot
    simp only [maxNumCaches, descSize] at *
    omega
  have zero : (k.placeMetadata space blockNum).1.desc c = KmemCache.zero := if_pos inPool
  rw [zero] at on
  cases on

/-- What `kmem_init` computes, given where the managed region ends. -/
theorem kmemInit_cases {isKernel : Bool} (given : Space space blockNum)
    (run : k.kmemInit space blockNum isKernel = .ok k') :
    ∃ high ≤ space + blockNum.toNat * 4096, (k.placeMetadata space blockNum).2 ≤ high + 2 ^ 20 ∧
      (((k.placeMetadata space blockNum).1.manage (k.placeMetadata space blockNum).2 high).setBuddy
        ((k.placeMetadata space blockNum).1.manage (k.placeMetadata space blockNum).2
          high).toBuddy.buddyInit).createKmallocCaches kmallocNumCaches = .ok k' := by
  obtain ⟨_, _, _, _, lowGe, lowLt⟩ := placeMetadata_spec given k
  have nonneg := given.nonneg
  have fits := given.fits
  simp only [maxva] at fits
  have count : toUint64 blockNum = blockNum.toNat := toUint64_of_nonneg nonneg (by omega)
  have regionEnd : (space + toUint64 blockNum * 4096) % 2 ^ 64 = space + blockNum.toNat * 4096 := by
    rw [count]
    omega
  unfold kmemInit at run
  simp only [regionEnd] at run
  generalize k.placeMetadata space blockNum = placed at *
  obtain ⟨k₁, low⟩ := placed
  cases isKernel with
  | false => exact ⟨_, le_rfl, by simp only at *; omega, run⟩
  | true =>
    simp only [if_true] at run
    cases carved : carveWindows low (space + blockNum.toNat * 4096) with
    | error fault =>
      rw [carved] at run
      cases run
    | ok windows =>
      obtain ⟨base, total⟩ := windows
      rw [carved] at run
      obtain ⟨above, below⟩ := carveWindows_spec (by omega) (by simp only at *; omega) carved
      exact ⟨base, below, by simp only; omega, run⟩

/-- The last part of `kmem_init`: in a region that was just set up, `buddy_init` and the caches of
`kmalloc` succeed. -/
theorem createKmallocCaches_fresh (given : Space space blockNum) (head : k.headOfCacheList = 0)
    (tail : k.tailOfCacheList = 0) {high : Nat} (highLe : high ≤ space + blockNum.toNat * 4096)
    (near : (k.placeMetadata space blockNum).2 ≤ high + 2 ^ 20) :
    ∃ k' v,
        (((k.placeMetadata space blockNum).1.manage (k.placeMetadata space blockNum).2
          high).setBuddy
        ((k.placeMetadata space blockNum).1.manage (k.placeMetadata space blockNum).2
          high).toBuddy.buddyInit).createKmallocCaches kmallocNumCaches = .ok k' ∧
      Core k' v ∧ live k' v.slabs = ∅ ∧ k'.Idle ∧ KmallocInv k' kmallocNumCaches ∧
      SamePlace ((k.placeMetadata space blockNum).1.manage (k.placeMetadata space blockNum).2 high)
      k' ∧ v.caches = ((List.range kmallocNumCaches).map k'.kmallocCaches).reverse := by
  have placement := manage_placement given k highLe near
  have region := placement.region given
  have unused := k.placeMetadata_unused space blockNum
  have head' : (k.placeMetadata space blockNum).1.headOfCacheList = 0 := head
  have tail' : (k.placeMetadata space blockNum).1.tailOfCacheList = 0 := tail
  generalize k.placeMetadata space blockNum = placed at *
  obtain ⟨k₁, low⟩ := placed
  obtain ⟨_, _, _, _, _, start, blocks, _, _⟩ := Buddy.buddyInit_spec region
  have place : SamePlace (k₁.manage low high)
      ((k₁.manage low high).setBuddy (k₁.manage low high).toBuddy.buddyInit) :=
    ⟨start, blocks, rfl, rfl, rfl⟩
  have pos : 0 < (k₁.manage low high).cachePool := by
    have poolAt := placement.cachePool
    simp only at poolAt
    omega
  have fits : (k₁.manage low high).cachePool + maxNumCaches * descSize ≤ 2 ^ 64 := by
    have startLe := placement.low
    exact placement.before.trans (startLe.trans (by decide))
  have unused' : ∀ c, ¬ (k₁.manage low high).Used c := fun c used =>
    unused c ((used_manage _ _).mp used)
  obtain ⟨core, noneLive⟩ := fresh_core region unused' pos fits head' tail'
  have idle : ((k₁.manage low high).setBuddy (k₁.manage low high).toBuddy.buddyInit).Idle :=
    fun c used => (unused' c ((used_setBuddy _).mp used)).elim
  obtain ⟨k₂, v, run, core', sameLive, idle', kmalloc, place', caches⟩ :=
    core.createKmallocCaches_spec idle rfl kmallocNumCaches le_rfl
  exact ⟨k₂, v, run, core', sameLive.trans noneLive, idle', kmalloc, place.trans place', caches⟩

/-- After `kmem_init` the invariant holds, nothing is live, and the caches are those of
`kmalloc`. -/
theorem kmemInit_caches {isKernel : Bool} (given : Space space blockNum)
    (head : k.headOfCacheList = 0) (tail : k.tailOfCacheList = 0)
    (run : k.kmemInit space blockNum isKernel = .ok k') :
    ∃ v, Core k' v ∧ live k' v.slabs = ∅ ∧ k'.Idle ∧ KmallocInv k' kmallocNumCaches ∧
      Placement k' space blockNum ∧
      v.caches = ((List.range kmallocNumCaches).map k'.kmallocCaches).reverse := by
  obtain ⟨high, highLe, near, created⟩ := kmemInit_cases given run
  obtain ⟨k₁, v, run', core, noneLive, idle, kmalloc, place, caches⟩ :=
    createKmallocCaches_fresh given head tail highLe near
  rw [run', Except.ok.injEq] at created
  subst created
  exact ⟨v, core, noneLive, idle, kmalloc,
    (manage_placement given k highLe near).of_samePlace place, caches⟩

/-- **After `kmem_init` the invariant holds and nothing is live.** -/
theorem kmemInit_spec {isKernel : Bool} (given : Space space blockNum)
    (head : k.headOfCacheList = 0) (tail : k.tailOfCacheList = 0)
    (run : k.kmemInit space blockNum isKernel = .ok k') :
    ∃ v, Core k' v ∧ live k' v.slabs = ∅ ∧ k'.Idle ∧ KmallocInv k' kmallocNumCaches ∧
      Placement k' space blockNum := by
  obtain ⟨v, core, none, idle, kmalloc, placement, _⟩ := kmemInit_caches given head tail run
  exact ⟨v, core, none, idle, kmalloc, placement⟩

end Kmem

end Xv6Slab
