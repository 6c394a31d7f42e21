/-
**What the calls on caches do in every reachable state.**

The statements are about the fields of the code: the objects that are on no index free list
(`liveObjects`), the slabs on the lists (`Listed`) and the free pages.

* `kmemCacheAlloc_reachable` — **`kmem_cache_alloc` returns null exactly when the cache is being
  destroyed, or none of its slabs has a free object and no free block is large enough; otherwise
  exactly one object becomes live.**
* `kmalloc_capacity_iff` — **`kmalloc` returns less than it was asked for exactly for sizes above
  `2^64 - 8`, whose rounding wraps to zero, when the smallest class has an object to give.**
* `kFree_reachable` — **`k_free` gives an object back to its cache and a block back to the buddy
  allocator.**
-/

import Xv6Slab.Spec.Objects
import Xv6Slab.Spec.BuddyCalls

namespace Xv6Slab

open Bytes Chains Tilings

namespace Kmem

variable {k k' k₀ : Kmem} {v v' : View} {held : List Allocation} {space c : Nat} {blockNum : Int}
  {isKernel : Bool}

/-! ### Live objects -/

/-- An object is handed out: it becomes live, and no other object changes. -/
theorem Sound.liveObjects_cons {obj : Nat} (sound : Sound k held space blockNum)
    (sizes : ∀ a, (k'.desc a).objectSize = (k.desc a).objectSize)
    (sound' : Sound k' (.object c obj (k.desc c).objectSize :: held) space blockNum) :
    k'.liveObjects c = insert obj (k.liveObjects c) ∧ obj ∉ k.liveObjects c ∧
      ∀ a ≠ c, k'.liveObjects a = k.liveObjects a := by
  have fresh : .object c obj (k.desc c).objectSize ∉ held := (List.nodup_cons.mp sound'.nodup).1
  refine ⟨?_, ?_, ?_⟩
  · rw [sound'.liveObjects_eq, sound.liveObjects_eq, sizes]
    ext p
    simp only [List.mem_cons, Allocation.object.injEq, true_and, and_true, Set.mem_insert_iff,
      Set.mem_ofPred_eq]
  · rw [sound.liveObjects_eq]
    exact fresh
  · intro a ne
    rw [sound'.liveObjects_eq, sound.liveObjects_eq, sizes]
    ext p
    simp only [List.mem_cons, Allocation.object.injEq, ne, false_and, false_or, Set.mem_ofPred_eq]

/-! ### Allocating an object -/

/-- What changes when `kmem_cache_alloc` returns an object. -/
structure HandsOut (k k' : Kmem) (c obj : Nat) : Prop where
  /-- The object was not live. -/
  fresh : obj ∉ k.liveObjects c
  /-- It becomes live, and no other object of any cache changes. -/
  live : k'.liveObjects c = insert obj (k.liveObjects c)
  others : ∀ a ≠ c, k'.liveObjects a = k.liveObjects a
  /-- Free pages are taken only for a new slab, when no slab had a free object. -/
  pages :
    k'.freePages = k.freePages ∨ k.NoFree c ∧ ∃ i, Buddy.pagesOf ⟨i, (k.desc c).slabOrder⟩ ⊆
    k.freePages ∧ k'.freePages = k.freePages \ Buddy.pagesOf ⟨i, (k.desc c).slabOrder⟩

theorem Quiet.freePages {touched : Set Nat} (quiet : Quiet k k' touched) :
    k'.freePages = k.freePages := by
  unfold Buddy.freePages
  rw [quiet.freeBlocks]

/-- The pages that a new slab takes. -/
theorem Grows.freePages {b : Buddy} {i m : Nat} (grows : Grows k v c b i m k' v')
    (pool : Pool maxOrder k.num k.freeBlocks k.allocBlocks) :
    Buddy.pagesOf ⟨i, (k.desc c).slabOrder⟩ ⊆ k.freePages ∧
      k'.freePages = k.freePages \ Buddy.pagesOf ⟨i, (k.desc c).slabOrder⟩ := by
  have allocates := grows.effect.allocates pool grows.taken grows.enough grows.least grows.pool
  refine ⟨allocates.wasFree, ?_⟩
  have same : (k.withSlab b c i).freePages = b.freePages := by
    unfold Buddy.freePages
    exact congrArg (fun blocks : Set Block => {p | ∃ d ∈ blocks, d.Covers p})
      (Buddy.withOwner_freeBlocks b i (2 ^ (k.desc c).slabOrder) (b.page i))
  rw [grows.quiet.freePages, same]
  exact allocates.freed

/-- A cache can give no object: none of its slabs has a free one, and no free block is large enough
for a new slab. -/
def Exhausted (k : Kmem) (c : Nat) : Prop :=
  k.NoFree c ∧ ∀ b ∈ k.freeBlocks, b.order < (k.desc c).slabOrder

/-- The fields that show it to the code: there is no slab on the two lists that it looks at. -/
theorem Sound.exhausted_iff (sound : Sound k held space blockNum) (used : k.Used c) :
    k.Exhausted c ↔ (k.desc c).head .partials = 0 ∧ (k.desc c).head .empty = 0 ∧
      ∀ i < k.num, (k.blockMeta i).isHeadOfFreeBlock = true →
        (k.blockMeta i).freeOrder < (k.desc c).slabOrder := by
  obtain ⟨v, core, _⟩ := sound.view
  have nil_iff : ∀ list, v.lists c list = [] ↔ (k.desc c).head list = 0 := by
    intro list
    have linked := core.lists.linked c used list
    constructor
    · intro none
      rw [none] at linked
      exact linked.stop_of_nil
    · intro null
      rw [null] at linked
      exact linked.eq_nil_of_stop
  unfold Exhausted
  rw [core.noFree_iff used, nil_iff, nil_iff, and_assoc]
  refine and_congr_right fun _ => and_congr_right fun _ => ⟨fun small i inside isHead => ?_, ?_⟩
  · exact small ⟨i, _⟩ ⟨inside, isHead, rfl⟩
  · rintro small b ⟨inside, isHead, order⟩
    rw [← order]
    exact small b.index inside isHead

theorem Sound.kmemCacheAlloc (sound : Sound k held space blockNum) (used : k.Used c) :
    ∃ k' obj, k.kmemCacheAlloc c = .ok (k', obj) ∧
      (obj = 0 ↔ (k.desc c).destroying = true ∨ k.Exhausted c) ∧
      (obj = 0 → ∃ error, k' = k.modifyDesc c fun d => { d with errorCode := error }) ∧
      (obj ≠ 0 → HandsOut k k' c obj ∧ (k'.desc c).objectSize = (k.desc c).objectSize) := by
  obtain ⟨v, core, same⟩ := sound.view
  have active := sound.idle c used
  have notMarked : ¬ (k.desc c).destroying = true := by
    rw [active]
    exact Bool.false_ne_true
  rcases core.kmemCacheAlloc_cases used active with
    ⟨call, noPartial, noEmpty, tooSmall⟩ | ⟨s, x, k', v', call, nonzero, takes, gains⟩ |
      ⟨b, i, m, k', v', call, nonzero, noPartial, noEmpty, grows, gains⟩
  · refine ⟨_, 0, call, ?_, fun _ => ⟨_, rfl⟩, fun ne => absurd rfl ne⟩
    exact iff_of_true rfl (Or.inr ⟨(core.noFree_iff used).mpr ⟨noPartial, noEmpty⟩, tooSmall⟩)
  · refine ⟨k', _, call, ?_, fun null => absurd null nonzero, fun _ => ?_⟩
    · refine iff_of_false nonzero ?_
      rintro (marked | ⟨noFree, _⟩)
      · exact notMarked marked
      · obtain ⟨l, isSlab, _⟩ := takes.slab
        obtain ⟨list, member⟩ := (core.listed s c).mp ⟨_, isSlab⟩
        have count := (core.slabs.header s _ isSlab).freeCount
        rw [noFree list s ((core.listed_iff used).mpr member)] at count
        exact absurd count (Nat.succ_ne_zero _).symm
    · obtain ⟨live, fresh, others⟩ := sound.liveObjects_cons
        (fun a => (KmemCache.SameShape.of_layout (gains.calm.layout a)).objectSize)
        (sound.gains same gains)
      exact ⟨⟨fresh, live, others, Or.inl takes.quiet.freePages⟩,
        (KmemCache.SameShape.of_layout (gains.calm.layout c)).objectSize⟩
  · have noFree := (core.noFree_iff used).mpr ⟨noPartial, noEmpty⟩
    refine ⟨k', _, call, ?_, fun null => absurd null nonzero, fun _ => ?_⟩
    · refine iff_of_false nonzero ?_
      rintro (marked | ⟨_, tooSmall⟩)
      · exact notMarked marked
      · exact absurd (tooSmall _ grows.taken) (Nat.not_lt.mpr grows.enough)
    · obtain ⟨live, fresh, others⟩ := sound.liveObjects_cons
        (fun a => (KmemCache.SameShape.of_layout (gains.calm.layout a)).objectSize)
        (sound.gains same gains)
      exact ⟨⟨fresh, live, others, Or.inr ⟨noFree, i, grows.freePages core.slabs.pool⟩⟩,
        (KmemCache.SameShape.of_layout (gains.calm.layout c)).objectSize⟩

/-- **`kmem_cache_alloc` in every reachable state.** -/
theorem kmemCacheAlloc_reachable (given : Space space blockNum) (head : k₀.headOfCacheList = 0)
    (tail : k₀.tailOfCacheList = 0) (run : Run k₀ space blockNum isKernel k held)
    (used : k.Used c) : ∃ k' obj, k.kmemCacheAlloc c = .ok (k', obj) ∧
      (obj = 0 ↔ (k.desc c).destroying = true ∨
        k.NoFree c ∧ ∀ b ∈ k.freeBlocks, b.order < (k.desc c).slabOrder) ∧
      (obj = 0 → ∃ error, k' = k.modifyDesc c fun d => { d with errorCode := error }) ∧
      (obj ≠ 0 → HandsOut k k' c obj) := by
  obtain ⟨k', obj, call, null, refused, given⟩ := (run.sound given head tail).kmemCacheAlloc used
  exact ⟨k', obj, call, null, refused, fun nonzero => (given nonzero).1⟩

/-- A run on sixteen pages, and the cache of the smallest `kmalloc` objects. -/
theorem kmemCacheAlloc_reachable_sixteenPages :
    ∃ k a, Run zeroed 4096 16 false k [a] ∧ k.Used (k.kmallocCaches 0) ∧
    ∃ k' obj, k.kmemCacheAlloc (k.kmallocCaches 0) = .ok (k', obj) ∧
      (obj ≠ 0 → HandsOut k k' (k.kmallocCaches 0) obj) := by
  obtain ⟨k, a, run⟩ := exists_run_kmalloc
  have used := ((run.sound space_sixteenPages rfl rfl).kmalloc 0 (by decide)).1
  obtain ⟨k', obj, call, _, _, handsOut⟩ :=
    kmemCacheAlloc_reachable space_sixteenPages rfl rfl run used
  exact ⟨k, a, run, used, k', obj, call, handsOut⟩

/-! ### Allocating by size -/

/-- **The capacity of what `kmalloc` returns**: null, or a live object of the smallest size class
that is large enough. -/
def Capacity (k : Kmem) (size : Nat) : Prop :=
  ∃ k' obj, k.kmalloc size = .ok (k', obj) ∧ (obj = 0 ∨ size ≠ 0 ∧ size ≤ 131072 ∧
    ∃ j < kmallocNumCaches, size ≤ 32 * 2 ^ j ∧ (∀ i < j, 32 * 2 ^ i < size) ∧
      obj ∈ k'.liveObjects (k.kmallocCaches j) ∧
      (k'.desc (k.kmallocCaches j)).objectSize = 32 * 2 ^ j)

/-- The size class that is looked up when the rounding does not wrap. -/
theorem kmallocIndex_round {size : Nat} (small : size + 7 < 2 ^ 64) :
    kmallocIndex (alignUp size 8) = (List.range kmallocNumCaches).find? fun j =>
    size ≤ 32 * 2 ^ j := by
  unfold kmallocIndex
  congr 1
  funext j
  have multiple : 32 * 2 ^ j = 8 * (4 * 2 ^ j) := by ring
  rw [alignUp_eight small, decide_eq_decide, multiple]
  omega

/-- What a search over the size classes finds. -/
theorem find_class {size j : Nat}
    (found : ((List.range kmallocNumCaches).find? fun j => decide (size ≤ 32 * 2 ^ j)) = some j) :
    j < kmallocNumCaches ∧ size ≤ 32 * 2 ^ j ∧ ∀ i < j, 32 * 2 ^ i < size := by
  obtain ⟨enough, member, smaller⟩ := List.find?_range_eq_some.mp found
  rw [decide_eq_true_eq] at enough
  refine ⟨List.mem_range.mp member, enough, fun i lt => ?_⟩
  have refused := smaller i lt
  rw [Bool.not_eq_true', decide_eq_false_iff_not] at refused
  exact Nat.not_le.mp refused

/-- `kmalloc` of a size that is looked up in a class. -/
theorem Sound.kmalloc_class (sound : Sound k held space blockNum) {size j : Nat}
    (nonzero : size ≠ 0) (found : kmallocIndex (alignUp size 8) = some j) :
    k.Used (k.kmallocCaches j) ∧
      k.kmalloc size = k.kmemCacheAlloc (k.kmallocCaches j) := by
  obtain ⟨v, core, _⟩ := sound.view
  have used := (sound.kmalloc j (kmallocIndex_lt found).1).1
  refine ⟨used, ?_⟩
  unfold Kmem.kmalloc
  rw [if_neg nonzero, found]
  refine if_neg ?_
  obtain ⟨i, _, isSlot, _⟩ := used
  have pos := core.pool.pos
  rw [isSlot]
  unfold slot
  omega

/-- Sizes whose rounding does not wrap get what they ask for. -/
theorem Sound.capacity_of_le (sound : Sound k held space blockNum) {size : Nat}
    (small : size + 7 < 2 ^ 64) :
    Capacity k size := by
  by_cases zero : size = 0
  · refine ⟨k, 0, ?_, Or.inl rfl⟩
    unfold Kmem.kmalloc
    rw [if_pos zero]
  cases found : kmallocIndex (alignUp size 8) with
  | none =>
    refine ⟨k, 0, ?_, Or.inl rfl⟩
    unfold Kmem.kmalloc
    rw [if_neg zero, found]
  | some j =>
    obtain ⟨used, same⟩ := sound.kmalloc_class zero found
    rw [kmallocIndex_round small] at found
    obtain ⟨lt, enough, least⟩ := find_class found
    obtain ⟨k', obj, call, _, _, given⟩ := sound.kmemCacheAlloc used
    refine ⟨k', obj, same.trans call, ?_⟩
    by_cases null : obj = 0
    · exact Or.inl null
    · obtain ⟨handsOut, sameSize⟩ := given null
      have largest : 2 ^ j ≤ 2 ^ 12 := Nat.pow_le_pow_right (by decide) (Nat.le_of_lt_succ lt)
      refine Or.inr ⟨zero, by omega, j, lt, enough, least, ?_,
        sameSize.trans (sound.kmalloc j lt).2⟩
      rw [handsOut.live]
      exact Set.mem_insert _ _

/-- **A size that wraps to zero gets an object of the smallest class**, unless there is none. -/
theorem Sound.capacity_wrapped (sound : Sound k held space blockNum) {size : Nat}
    (large : 2 ^ 64 ≤ size + 7) (small : size < 2 ^ 64) :
    Capacity k size ↔ k.Exhausted (k.kmallocCaches 0) := by
  have rounded : alignUp size 8 = 0 := by
    unfold alignUp
    rw [if_neg (by omega)]
    omega
  have found : kmallocIndex (alignUp size 8) = some 0 := by
    rw [rounded]
    rfl
  obtain ⟨used, same⟩ := sound.kmalloc_class (by omega) found
  obtain ⟨k', obj, call, null, _, _⟩ := sound.kmemCacheAlloc used
  have active := sound.idle _ used
  constructor
  · rintro ⟨k'', obj', call', isNull | ⟨_, bound, _⟩⟩
    · rw [same.trans call] at call'
      injection call' with eq
      rw [Prod.mk.injEq] at eq
      rcases null.mp (eq.2.trans isNull) with marked | exhausted
      · rw [active] at marked
        cases marked
      · exact exhausted
    · omega
  · exact fun exhausted => ⟨k', obj, same.trans call, Or.inl (null.mpr (Or.inr exhausted))⟩

/-- **`kmalloc` keeps to the size it is asked for exactly when rounding the size up to a multiple of
eight does not wrap, or the smallest class has nothing to give.** -/
theorem kmalloc_capacity_iff (given : Space space blockNum) (head : k₀.headOfCacheList = 0)
    (tail : k₀.tailOfCacheList = 0) (run : Run k₀ space blockNum isKernel k held) :
    ∀ size < 2 ^ 64, Capacity k size ↔ size ≤ 2 ^ 64 - 8 ∨ k.Exhausted (k.kmallocCaches 0) := by
  intro size small
  have sound := run.sound given head tail
  by_cases fits : size ≤ 2 ^ 64 - 8
  · exact iff_of_true (sound.capacity_of_le (by omega)) (Or.inl fits)
  · rw [sound.capacity_wrapped (by omega) small]
    exact ⟨Or.inr, fun either => either.resolve_left fits⟩

theorem kmalloc_capacity_iff_sixteenPages : ∃ k a, Run zeroed 4096 16 false k [a] ∧
    ∀ size < 2 ^ 64, Capacity k size ↔ size ≤ 2 ^ 64 - 8 ∨ k.Exhausted (k.kmallocCaches 0) := by
  obtain ⟨k, a, run⟩ := exists_run_kmalloc
  exact ⟨k, a, run, kmalloc_capacity_iff space_sixteenPages rfl rfl run⟩

/-- A request for `2^64 - 1` bytes right after `kmem_init` on sixteen pages gets an object of 32
bytes. -/
theorem kmalloc_wraps :
    ∃ k k' obj, Run zeroed 4096 16 false k [] ∧ k.kmalloc (2 ^ 64 - 1) = .ok (k', obj) ∧
    obj ≠ 0 ∧ (k'.desc (k.kmallocCaches 0)).objectSize = 32 ∧
    obj ∈ k'.liveObjects (k.kmallocCaches 0) ∧ ¬ Capacity k (2 ^ 64 - 1) := by
  obtain ⟨k, init, observed⟩ := exists_ok (zeroed.kmemInit 4096 16 false)
    (fun k => (k.kmalloc (2 ^ 64 - 1)).toOption.any fun r => r.2 != 0) true (by decide +kernel)
  have run : Run zeroed 4096 16 false k [] := .init init
  have sound := run.sound space_sixteenPages rfl rfl
  obtain ⟨used, same⟩ := sound.kmalloc_class (by decide : 2 ^ 64 - 1 ≠ 0) (j := 0) (by decide)
  obtain ⟨k', obj, call, null, _, handed⟩ := sound.kmemCacheAlloc used
  have nonzero : obj ≠ 0 := by
    rw [same, call] at observed
    have differs : (obj != 0) = true := observed
    exact bne_iff_ne.mp differs
  obtain ⟨handsOut, sameSize⟩ := handed nonzero
  refine ⟨k, k', obj, run, same.trans call, nonzero, sameSize.trans (sound.kmalloc 0 (by decide)).2,
    ?_, ?_⟩
  · rw [handsOut.live]
    exact Set.mem_insert _ _
  · rw [sound.capacity_wrapped (by decide) (by decide)]
    exact fun exhausted => nonzero (null.mpr (Or.inr exhausted))

/-! ### Freeing by address -/

/-- What `k_free` does to an allocation, by where it came from. -/
def Dispatched (k k' : Kmem) : Allocation → Prop
  | .object c p _ => p ∈ k.liveObjects c ∧ k'.liveObjects c = k.liveObjects c \ {p} ∧
      (∀ d ≠ c, k'.liveObjects d = k.liveObjects d) ∧ k'.liveBlocks = k.liveBlocks
  | .block base order => k.kFree base = k.buddyFree base ∧ (base, order) ∈ k.liveBlocks ∧
      k'.liveBlocks = k.liveBlocks \ {(base, order)} ∧ ∀ d, k'.liveObjects d = k.liveObjects d

/-- An allocation given back is no longer live, and the others stay. -/
theorem Sound.dispatched {a : Allocation} (sound : Sound k held space blockNum)
    (sizes : ∀ d, (k'.desc d).objectSize = (k.desc d).objectSize)
    (sound' : Sound k' (held.erase a) space blockNum) (isHeld : a ∈ held)
    (block : ∀ base order, a = .block base order → k.kFree base = k.buddyFree base) :
    Dispatched k k' a := by
  have erased : ∀ b, b ∈ held.erase a ↔ b ≠ a ∧ b ∈ held := fun b => sound.nodup.mem_erase_iff
  have objects :
      ∀ d, k'.liveObjects d =
      {p | .object d p (k.desc d).objectSize ≠ a ∧ .object d p (k.desc d).objectSize ∈ held} := by
    intro d
    rw [sound'.liveObjects_eq, sizes]
    ext p
    exact erased _
  have blocks : k'.liveBlocks = {b | .block b.1 b.2 ≠ a ∧ .block b.1 b.2 ∈ held} := by
    rw [sound'.liveBlocks_eq]
    ext b
    exact erased _
  cases a with
  | object c p size =>
    obtain ⟨_, rfl⟩ := sound.used_of_held isHeld
    refine ⟨?_, ?_, ?_, ?_⟩
    · rw [sound.liveObjects_eq]
      exact isHeld
    · rw [objects, sound.liveObjects_eq]
      ext q
      simp only [Set.mem_ofPred_eq, Set.mem_sdiff, Set.mem_singleton_iff, ne_eq,
        Allocation.object.injEq, true_and, and_comm]
    · intro d ne
      rw [objects, sound.liveObjects_eq]
      ext q
      simp only [Set.mem_ofPred_eq, ne_eq, Allocation.object.injEq, ne, false_and,
        not_false_eq_true, true_and]
    · rw [blocks, sound.liveBlocks_eq]
      ext b
      simp only [Set.mem_ofPred_eq, ne_eq, reduceCtorEq, not_false_eq_true, true_and]
  | block base order =>
    refine ⟨block base order rfl, ?_, ?_, ?_⟩
    · rw [sound.liveBlocks_eq]
      exact isHeld
    · rw [blocks, sound.liveBlocks_eq]
      ext b
      simp only [Set.mem_ofPred_eq, Set.mem_sdiff, Set.mem_singleton_iff, ne_eq,
        Allocation.block.injEq, Prod.ext_iff, and_comm]
    · intro d
      rw [objects, sound.liveObjects_eq]
      ext q
      simp only [Set.mem_ofPred_eq, ne_eq, reduceCtorEq, not_false_eq_true, true_and]

/-- **`k_free` in every reachable state**: exactly the allocation it is given goes back where it
came from. -/
theorem kFree_reachable (given : Space space blockNum) (head : k₀.headOfCacheList = 0)
    (tail : k₀.tailOfCacheList = 0) (run : Run k₀ space blockNum isKernel k held) {a : Allocation}
    (isHeld : a ∈ held) :
    ∃ k', k.kFree a.base = .ok k' ∧ Run k₀ space blockNum isKernel k' (held.erase a) ∧
      Dispatched k k' a ∧ ∀ b ∈ held, b ≠ a → ∀ p ∈ b.bytes, k'.mem p = k.mem p := by
  have sound := run.sound given head tail
  obtain ⟨v, core, same⟩ := sound.view
  have isLive := (same a).mp isHeld
  obtain ⟨k', v', call, loses⟩ := core.kFree_spec sound.idle isLive
  have run' := run.call (.allocator (.kFree isHeld call))
  refine ⟨k', call, run', ?_, ?_⟩
  · refine sound.dispatched ?_ (run'.sound given head tail) isHeld ?_
    · exact fun d => (KmemCache.SameShape.of_layout (loses.calm.layout d)).objectSize
    · rintro base order rfl
      exact core.kFree_block isLive
  · exact fun b bHeld ne => loses.contents core isLive ((same b).mp bHeld) ne

theorem kFree_reachable_sixteenPages :
    ∃ k a k', Run zeroed 4096 16 false k [a] ∧ k.kFree a.base = .ok k' ∧
    Dispatched k k' a := by
  obtain ⟨k, a, run⟩ := exists_run_kmalloc
  obtain ⟨k', call, _, dispatched, _⟩ :=
    kFree_reachable space_sixteenPages rfl rfl run List.mem_cons_self
  exact ⟨k, a, k', run, call, dispatched⟩

end Kmem

end Xv6Slab
