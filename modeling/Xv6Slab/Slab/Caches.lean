/-
**`kmem_cache_create` and `kmem_cache_destroy` keep the invariant.**

* `Core.redescribe` — the invariant after descriptors have changed, when the caches that have slabs
  keep their shape.
* `layoutLoop_spec` — **the slab layout that the loop over orders finds.**
* `Core.kmemCacheCreate_spec`, `Core.kmemCacheDestroy_spec` — the calls change no live allocation,
  and a destroyed cache has no slab left.
-/

import Xv6Slab.Slab.Shrink
import Xv6Slab.Slab.CacheList

namespace Xv6Slab

open Bytes Chains Tilings

namespace Kmem

variable {k k' : Kmem} {v v' : View} {slabs : Nat → Option SlabView} {s c : Nat}

/-! ### Other descriptors -/

/-- Slabs do not depend on the descriptors of caches that have none. -/
theorem SlabsInv.redescribe (inv : SlabsInv k slabs) (buddy : k'.toBuddy = k.toBuddy)
    (same : ∀ s w, slabs s = some w → KmemCache.SameShape (k.desc w.cache) (k'.desc w.cache))
    (geometry : ∀ c, k'.Used c → (k'.desc c).Geometry)
    (used : ∀ s w, slabs s = some w → k'.Used w.cache) : SlabsInv k' slabs := by
  refine ⟨?_, ?_, geometry, used, ?_, ?_, ?_⟩
  · rw [buddy]
    exact inv.rep
  · rw [buddy]
    exact inv.pool
  · intro s w isSlab
    rw [buddy, (same s w isSlab).objsPerSlab]
    exact inv.header s w isSlab
  · intro s w isSlab
    rw [buddy, (same s w isSlab).slabOrder]
    exact inv.placed s w isSlab
  · intro i lt s nonzero
    rw [buddy] at lt ⊢
    rw [inv.owner i lt s nonzero]
    constructor
    · intro owned
      obtain ⟨w, isSlab, range⟩ := owned
      refine ⟨w, isSlab, ?_⟩
      rw [(same s w isSlab).slabBytes]
      exact range
    · intro owned
      obtain ⟨w, isSlab, range⟩ := owned
      rw [(same s w isSlab).slabBytes] at range
      exact ⟨w, isSlab, range⟩

/-- Live allocations do not depend on the descriptors of caches that have no slab. -/
theorem live_redescribe (buddy : k'.toBuddy = k.toBuddy)
    (same : ∀ s w, slabs s = some w → KmemCache.SameShape (k.desc w.cache) (k'.desc w.cache)) :
    live k' slabs = live k slabs := by
  ext a
  cases a with
  | block base order =>
    simp only [mem_live_block, buddy]
  | object c base size =>
    simp only [mem_live_object]
    constructor
    · intro isLive
      obtain ⟨rfl, s, l, x, isSlab, lt, notFree, rfl⟩ := isLive
      have shape := same s _ isSlab
      simp only at shape
      rw [shape.objsPerSlab] at lt
      exact ⟨shape.objectSize, s, l, x, isSlab, lt, notFree, shape.objAt s x⟩
    · intro isLive
      obtain ⟨rfl, s, l, x, isSlab, lt, notFree, rfl⟩ := isLive
      have shape := same s _ isSlab
      simp only at shape
      rw [← shape.objsPerSlab] at lt
      exact ⟨shape.objectSize.symm, s, l, x, isSlab, lt, notFree, (shape.objAt s x).symm⟩

/-- **The invariant after descriptors have changed**: caches with slabs keep their shape, a used
cache keeps its heads or has no slab, and the cache list holds the caches now used. -/
theorem Core.redescribe (core : Core k v) (buddy : k'.toBuddy = k.toBuddy)
    (kept : ∀ s w, v.slabs s = some w →
      k'.Used w.cache ∧ KmemCache.SameShape (k.desc w.cache) (k'.desc w.cache))
    (heads : ∀ c, k'.Used c →
      (k.Used c ∧ ∀ list, (k'.desc c).head list = (k.desc c).head list) ∨
        ∀ list, (k'.desc c).head list = 0 ∧ v.lists c list = [])
    (geometry : ∀ c, k'.Used c → (k'.desc c).Geometry) {caches : List Nat}
    (pool : PoolInv k' caches) : Core k' { v with caches := caches } where
  lists := by
    refine ⟨?_, ?_, core.lists.apart, core.lists.paged, core.lists.small⟩
    · intro c used list
      rw [buddy]
      rcases heads c used with ⟨before, same⟩ | none
      · rw [same]
        exact core.lists.linked c before list
      · rw [(none list).1, (none list).2]
        exact .nil _
    · intro c list s member
      obtain ⟨l, isSlab⟩ := core.isSlab member
      exact (kept s _ isSlab).1
  slabs := core.slabs.redescribe buddy (fun s w isSlab => (kept s w isSlab).2) geometry
    fun s w isSlab => (kept s w isSlab).1
  pool := pool
  listed := core.listed
  category := by
    intro c list s l member isSlab
    rw [(kept s _ isSlab).2.objsPerSlab]
    exact core.category c list s l member isSlab

/-! ### The layout of a slab -/

theorem alignUp_eight {x : Nat} (small : x + 7 < 2 ^ 64) : alignUp x 8 = (x + 7) / 8 * 8 := by
  unfold alignUp
  by_cases aligned : x % 8 = 0
  · rw [if_pos aligned]
    omega
  · rw [if_neg aligned]
    omega

/-- The number of objects left after room was made for the index array of `n0` objects. -/
theorem layout_fits {bytes obj n0 header usable : Nat} (objGe : 8 ≤ obj) (bounded : bytes ≤ 262144)
    (isFirst : n0 = (bytes - slabHeaderSize) / obj)
    (isHeader : header = alignUp (slabHeaderSize + n0 * 2) 8)
    (isUsable : usable = if header < bytes then bytes - header else 0)
    (some_ : 1 ≤ usable / obj) :
    usable / obj < nofree ∧
      32 + 2 * (usable / obj) ≤ alignUp (slabHeaderSize + usable / obj * 2) 8 ∧
      alignUp (slabHeaderSize + usable / obj * 2) 8 + usable / obj * obj ≤ bytes := by
  have few : n0 ≤ (bytes - 32) / 8 := by
    rw [isFirst]
    exact Nat.div_le_div_left objGe (by decide)
  rw [alignUp_eight (by simp only [slabHeaderSize]; omega)] at isHeader
  have room : header < bytes := by
    by_contra full
    rw [if_neg full] at isUsable
    rw [isUsable, Nat.zero_div] at some_
    omega
  rw [if_pos room] at isUsable
  simp only [slabHeaderSize] at *
  have fewer : usable / obj ≤ n0 := by
    rw [isFirst]
    exact Nat.div_le_div_right (by omega)
  have whole : usable / obj * obj ≤ usable := Nat.div_mul_le_self _ _
  rw [alignUp_eight (by omega)]
  refine ⟨?_, ?_, ?_⟩
  · show usable / obj < 65535
    omega
  · omega
  · omega

/-- **What the loop over orders finds**: a layout in which header, index array and objects fit. -/
theorem layoutLoop_spec {obj minObjs : Nat} (objGe : 8 ≤ obj) (minPos : 1 ≤ minObjs)
    {order n offset : Nat} :
      ∀ fuel start, layoutLoop obj minObjs fuel start = some (order, n, offset) →
      order ≤ maxSlabOrder ∧ minObjs ≤ n ∧ n < nofree ∧ 32 + 2 * n ≤ offset ∧
        offset + n * obj ≤ 4096 * 2 ^ order := by
  intro fuel
  induction fuel with
  | zero =>
    intro start found
    cases found
  | succ fuel ih =>
    intro start found
    unfold layoutLoop at found
    by_cases high : maxSlabOrder < start
    · rw [if_pos high] at found
      cases found
    · rw [if_neg high] at found
      simp only at found
      split_ifs at found with few room enough enough
      · exact ih _ found
      · rw [Option.some.injEq, Prod.mk.injEq, Prod.mk.injEq] at found
        obtain ⟨rfl, rfl, rfl⟩ := found
        have power : 2 ^ start ≤ 2 ^ 6 := Nat.pow_le_pow_right (by decide) (Nat.not_lt.mp high)
        have bounded : blockSize * 2 ^ start ≤ 262144 := by
          simp only [blockSize]
          omega
        obtain ⟨small, header, fits⟩ := layout_fits objGe bounded rfl rfl (if_pos room).symm
          (minPos.trans enough)
        exact ⟨Nat.not_lt.mp high, enough, small, header, fits⟩
      · exact ih _ found
      · rw [Nat.zero_div] at enough
        omega
      · exact ih _ found

theorem objectSizeFor_ge {size : Nat} (small : size < 2 ^ 64) (nonzero : objectSizeFor size ≠ 0) :
    8 ≤ objectSizeFor size ∧ size ≤ objectSizeFor size := by
  unfold objectSizeFor alignUp at *
  by_cases tiny : size < 8
  · rw [if_pos tiny]
    exact ⟨by decide, tiny.le⟩
  · rw [if_neg tiny] at *
    by_cases aligned : size % 8 = 0
    · rw [if_pos aligned]
      omega
    · rw [if_neg aligned] at *
      omega

/-! ### Creating a cache -/

/-- The region and the metadata stay in place. -/
structure SamePlace (k k' : Kmem) : Prop where
  start : k'.managedStart = k.managedStart
  blocks : k'.managedNumBlocks = k.managedNumBlocks
  freeAreaAt : k'.freeAreaAt = k.freeAreaAt
  blockMetaAt : k'.blockMetaAt = k.blockMetaAt
  cachePool : k'.cachePool = k.cachePool

namespace SamePlace

theorem trans {k'' : Kmem} (first : SamePlace k k') (second : SamePlace k' k'') : SamePlace k k'' :=
  ⟨second.start.trans first.start, second.blocks.trans first.blocks,
    second.freeAreaAt.trans first.freeAreaAt, second.blockMetaAt.trans first.blockMetaAt,
    second.cachePool.trans first.cachePool⟩

theorem page (place : SamePlace k k') (i : Nat) : k'.page i = k.page i := by
  unfold Buddy.page
  rw [place.start]

theorem num (place : SamePlace k k') : k'.num = k.num := by
  unfold Buddy.num
  rw [place.blocks]

theorem slot (place : SamePlace k k') (i : Nat) : k'.slot i = k.slot i := by
  unfold Kmem.slot
  rw [place.cachePool]

end SamePlace

theorem Calm.samePlace (calm : Calm k k') : SamePlace k k' := by
  have rest := calm.rest
  refine ⟨calm.start, calm.blocks, ?_, ?_, ?_⟩ <;> rw [rest]

theorem Relinked.samePlace (relinked : Relinked k k') : SamePlace k k' := by
  have rest := relinked.rest
  refine ⟨?_, ?_, ?_, ?_, ?_⟩ <;> rw [rest]

theorem Calm.kmallocCaches (calm : Calm k k') : k'.kmallocCaches = k.kmallocCaches := by
  rw [calm.rest]

theorem Relinked.kmallocCaches (relinked : Relinked k k') : k'.kmallocCaches = k.kmallocCaches := by
  rw [relinked.rest]

/-- A call that changes which caches there are, but no live allocation. The caches other than `gone`
keep their shape. -/
structure Recast (gone : Set Nat) (k : Kmem) (v : View) (k' : Kmem) (v' : View) : Prop where
  core : Core k' v'
  live : live k' v'.slabs = live k v.slabs
  place : SamePlace k k'
  kmalloc : k'.kmallocCaches = k.kmallocCaches
  idle : k.Idle → k'.Idle
  kept : ∀ c ∉ gone, k.Used c → k'.Used c ∧ KmemCache.SameShape (k.desc c) (k'.desc c)
  mem : SameOutside k.regionBytes k.mem k'.mem

theorem Core.recast_refl (core : Core k v) : Recast ∅ k v k v :=
  ⟨core, rfl, ⟨rfl, rfl, rfl, rfl, rfl⟩, rfl, id, fun c _ used => ⟨used, .refl (k.desc c)⟩,
    SameOutside.refl _ _⟩

section Create

variable {i : Nat} {change : KmemCache → KmemCache} {caches : List Nat}

/-- A change to a descriptor that was not used, with the cache list relinked. -/
theorem Core.describe (core : Core k v) (lt : i < maxNumCaches) (isSlot : c = k.slot i)
    (unused : ¬ k.Used c) (relinked : Relinked (k.modifyDesc c change) k')
    (created : (change (k.desc c)).isUsed = true → (change (k.desc c)).Geometry ∧
      (change (k.desc c)).destroying = false ∧ ∀ list, (change (k.desc c)).head list = 0)
    (pool : PoolInv k' caches) : Recast ∅ k v k' { v with caches := caches } := by
  have here : (k.modifyDesc c change).desc c = change (k.desc c) := modifyDesc_self ..
  have usedIff : ∀ a, k'.Used a ↔ (a = c ∧ (change (k.desc c)).isUsed = true) ∨
      (a ≠ c ∧ k.Used a) :=
    fun a => (relinked.used_iff a).trans (used_modifyDesc lt isSlot change a)
  have other : ∀ a, k.Used a → a ≠ c := fun a used eq => unused (eq ▸ used)
  have shape : ∀ a, a ≠ c → KmemCache.SameShape (k.desc a) (k'.desc a) := by
    intro a ne
    have same := relinked.sameShape a
    rw [modifyDesc_of_ne _ _ ne] at same
    exact same
  have kept : ∀ a, k.Used a → k'.Used a ∧ KmemCache.SameShape (k.desc a) (k'.desc a) :=
    fun a used =>
    ⟨(usedIff a).mpr (Or.inr ⟨other a used, used⟩), shape a (other a used)⟩
  have buddy : k'.toBuddy = k.toBuddy := relinked.toBuddy
  have noSlabs : ∀ list, v.lists c list = [] := by
    intro list
    rw [List.eq_nil_iff_forall_not_mem]
    exact fun s member => unused (core.lists.used c list s member)
  refine ⟨core.redescribe buddy ?_ ?_ ?_ pool, ?_, ?_, relinked.kmallocCaches, ?_,
    fun a _ used => kept a used, ?_⟩
  · exact fun s w isSlab => kept w.cache (core.slabs.used s w isSlab)
  · intro a used
    rcases (usedIff a).mp used with ⟨rfl, on⟩ | ⟨ne, before⟩
    · right
      intro list
      rw [relinked.head, here]
      exact ⟨(created on).2.2 list, noSlabs list⟩
    · left
      refine ⟨before, fun list => ?_⟩
      rw [relinked.head, modifyDesc_of_ne _ _ ne]
  · intro a used
    rcases (usedIff a).mp used with ⟨rfl, on⟩ | ⟨ne, before⟩
    · refine (relinked.sameShape a).geometry ?_
      rw [here]
      exact (created on).1
    · exact (shape a ne).geometry (core.slabs.geometry a before)
  · exact live_redescribe buddy fun s w isSlab => (kept w.cache (core.slabs.used s w isSlab)).2
  · have place : SamePlace k (k.modifyDesc c change) := ⟨rfl, rfl, rfl, rfl, rfl⟩
    exact place.trans relinked.samePlace
  · intro idle a used
    have same : (k'.desc a).destroying = ((k.modifyDesc c change).desc a).destroying :=
      relinked.field KmemCache.destroying a
    rw [same]
    rcases (usedIff a).mp used with ⟨rfl, on⟩ | ⟨ne, before⟩
    · rw [here]
      exact (created on).2.1
    · rw [modifyDesc_of_ne _ _ ne]
      exact idle a before
  · rw [buddy]
    exact SameOutside.refl _ _

/-- A change to a descriptor that is not used, before and after. -/
theorem Core.describeUnused (core : Core k v) (lt : i < maxNumCaches) (isSlot : c = k.slot i)
    (unused : ¬ k.Used c) (off : (change (k.desc c)).isUsed = false) :
    Recast ∅ k v (k.modifyDesc c change) v := by
  refine core.describe lt isSlot unused (Relinked.refl _) ?_ ?_
  · intro on
    rw [off] at on
    cases on
  · refine core.pool.congr rfl rfl rfl ?_ ?_
    · intro a
      rw [used_modifyDesc_off off]
      exact ⟨And.right, fun used => ⟨fun eq => unused (eq ▸ used), used⟩⟩
    · intro a member
      have ne : a ≠ c := fun eq => unused (eq ▸ (core.pool.members a).mp member)
      rw [modifyDesc_of_ne _ _ ne]
      exact ⟨rfl, rfl⟩

end Create

theorem minObjsFor_pos (obj : Nat) : 1 ≤ minObjsFor obj := by
  unfold minObjsFor
  split_ifs <;> decide

theorem findFreeCacheSlot_spec {index : Nat} (found : k.findFreeCacheSlot = some index) :
    index < maxNumCaches ∧ (k.desc (k.slot index)).isUsed = false := by
  unfold findFreeCacheSlot at found
  have member := List.mem_of_find?_eq_some found
  have unused := List.find?_some found
  rw [List.mem_range] at member
  exact ⟨member, by simpa using unused⟩

/-- While the cache list is shorter than the pool, there is a free slot. -/
theorem PoolInv.exists_free_slot {caches : List Nat} (inv : PoolInv k caches)
    (few : caches.length < maxNumCaches) : ∃ index, k.findFreeCacheSlot = some index := by
  cases found : k.findFreeCacheSlot with
  | some index => exact ⟨index, rfl⟩
  | none =>
    unfold findFreeCacheSlot at found
    rw [List.find?_eq_none] at found
    have sub : (Finset.range maxNumCaches).image k.slot ⊆ caches.toFinset := by
      intro c member
      obtain ⟨i, lt, rfl⟩ := Finset.mem_image.mp member
      rw [Finset.mem_range] at lt
      have used := found i (List.mem_range.mpr lt)
      rw [List.mem_toFinset, inv.members]
      exact ⟨i, lt, rfl, by simpa using used⟩
    have injective : Function.Injective k.slot := by
      intro i j same
      unfold slot at same
      simp only [descSize] at same
      omega
    have all := Finset.card_le_card sub
    rw [Finset.card_image_of_injective _ injective, Finset.card_range] at all
    have bound := List.toFinset_card_le caches
    omega

/-- The descriptor that `kmem_cache_create` writes. -/
def created (ctor : Option (Mem → Nat → Mem)) (obj order n offset : Nat) : KmemCache where
  fullSlabs := 0
  partialSlabs := 0
  emptySlabs := 0
  ctor := ctor
  slabOrder := order
  objectSize := obj
  objsPerSlab := n
  objOffset := offset
  errorCode := .ok
  isUsed := true
  destroying := false
  next := 0
  prev := 0

/-- What `kmem_cache_create` does: null when there is no unused descriptor or no layout, and
otherwise a new descriptor with empty lists, at the front of the cache list. -/
theorem kmemCacheCreate_cases {size : Nat} {ctor : Option (Mem → Nat → Mem)}
    (run : k.kmemCacheCreate size ctor = .ok (k', c)) :
    c = 0 ∧ k'.toBuddy = k.toBuddy ∧ (k.findFreeCacheSlot = none ∨
      layoutLoop (objectSizeFor size) (minObjsFor (objectSizeFor size)) (maxSlabOrder + 1) 0 =
      none) ∨
    ∃ index order n offset, k.findFreeCacheSlot = some index ∧ c = k.slot index ∧
      layoutLoop (objectSizeFor size) (minObjsFor (objectSizeFor size)) (maxSlabOrder + 1) 0 =
      some (order, n, offset) ∧
      k' = (k.modifyDesc c fun _ => created ctor (objectSizeFor size) order n offset).addToCacheList
      c := by
  unfold kmemCacheCreate at run
  cases found : k.findFreeCacheSlot with
  | none =>
    rw [found] at run
    cases run
    exact .inl ⟨rfl, rfl, .inl rfl⟩
  | some index =>
    rw [found] at run
    simp only at run
    split_ifs at run
    cases layout : layoutLoop (objectSizeFor size) (minObjsFor (objectSizeFor size))
        (maxSlabOrder + 1) 0 with
    | none =>
      rw [layout] at run
      cases run
      exact .inl ⟨rfl, rfl, .inr rfl⟩
    | some result =>
      rw [layout] at run
      cases run
      exact .inr ⟨index, _, _, _, rfl, rfl, rfl, by rw [modifyDesc_modifyDesc]; rfl⟩

/-- An object size of zero is divided by, unless there is no unused descriptor. -/
theorem kmemCacheCreate_of_zero {size : Nat} {ctor : Option (Mem → Nat → Mem)}
    (zero : objectSizeFor size = 0) (run : k.kmemCacheCreate size ctor = .ok (k', c)) : k' = k := by
  unfold kmemCacheCreate at run
  cases found : k.findFreeCacheSlot with
  | none =>
    rw [found] at run
    cases run
    rfl
  | some index =>
    rw [found] at run
    simp only at run
    rw [if_pos zero] at run
    cases run

/-- `kmem_cache_create` writes descriptors only. -/
theorem kmemCacheCreate_toBuddy {size : Nat} {ctor : Option (Mem → Nat → Mem)}
    (call : k.kmemCacheCreate size ctor = .ok (k', c)) : k'.toBuddy = k.toBuddy := by
  rcases kmemCacheCreate_cases call with ⟨_, same, _⟩ | ⟨_, _, _, _, _, _, _, rfl⟩
  · exact same
  · exact (addToCacheList_relinked _ _).toBuddy

/-- **`kmem_cache_create`**: a new cache, or no change in the caches when no slot is free or no
order is large enough. -/
theorem Core.kmemCacheCreate_spec (core : Core k v) {size : Nat} (ctor : Option (Mem → Nat → Mem))
    (small : size < 2 ^ 64) (nonzero : objectSizeFor size ≠ 0)
    (ctorLocal : ∀ f, ctor = some f → ∀ mem obj,
      SameOutside (Set.Ico obj (obj + size)) mem (f mem obj)) :
    (∃ k', k.kmemCacheCreate size ctor = .ok (k', 0) ∧ Recast ∅ k v k' v ∧
      (k.findFreeCacheSlot = none ∨
        layoutLoop (objectSizeFor size) (minObjsFor (objectSizeFor size)) (maxSlabOrder + 1) 0 =
        none)) ∨
    ∃ k' c, k.kmemCacheCreate size ctor = .ok (k', c) ∧ c ≠ 0 ∧ ¬ k.Used c ∧ k'.Used c ∧
      (k'.desc c).objectSize = objectSizeFor size ∧
      Recast ∅ k v k' { v with caches := c :: v.caches } := by
  unfold kmemCacheCreate
  cases found : k.findFreeCacheSlot with
  | none => exact Or.inl ⟨k, rfl, core.recast_refl, Or.inl rfl⟩
  | some index =>
    obtain ⟨lt, unused⟩ := findFreeCacheSlot_spec found
    have notUsed : ¬ k.Used (k.slot index) := by
      intro used
      obtain ⟨_, _, _, on⟩ := used
      rw [unused] at on
      cases on
    simp only
    rw [if_neg nonzero]
    cases layout : layoutLoop (objectSizeFor size) (minObjsFor (objectSizeFor size))
        (maxSlabOrder + 1) 0 with
    | none =>
      left
      simp only [modifyDesc_modifyDesc]
      exact ⟨_, rfl, core.describeUnused lt rfl notUsed rfl, Or.inr trivial⟩
    | some result =>
      obtain ⟨order, n, offset⟩ := result
      right
      simp only [modifyDesc_modifyDesc]
      obtain ⟨objGe, sizeLe⟩ := objectSizeFor_ge small nonzero
      obtain ⟨orderLe, enough, few, header, fits⟩ :=
        layoutLoop_spec objGe (minObjsFor_pos _) _ _ layout
      have relinked := (k.modifyDesc (k.slot index) fun _ =>
        created ctor (objectSizeFor size) order n offset).addToCacheList_relinked (k.slot index)
      have pool := core.pool.add lt rfl notUsed
        (fun _ => created ctor (objectSizeFor size) order n offset) rfl rfl rfl
      have recast := core.describe lt rfl notUsed relinked ?_ pool
      · refine ⟨_, _, rfl, ?_, notUsed, ?_, ?_, recast⟩
        · have pos := core.pool.pos
          unfold slot
          omega
        · exact (recast.core.pool.members _).mp List.mem_cons_self
        · refine (relinked.sameShape _).objectSize.trans ?_
          rw [modifyDesc_self]
          rfl
      · intro _
        refine ⟨⟨objGe, orderLe, (minObjsFor_pos _).trans enough, few, header, fits, ?_⟩, rfl, ?_⟩
        · intro f isCtor mem obj
          refine (ctorLocal f isCtor mem obj).mono ?_
          intro a inside
          exact ⟨inside.1, lt_of_lt_of_le inside.2 (Nat.add_le_add_left sizeLe _)⟩
        · intro list
          cases list <;> rfl

/-! ### Destroying a cache -/

theorem sameShape_setDestroying (k : Kmem) (c : Nat) (flag : Bool) (a : Nat) :
    KmemCache.SameShape (k.desc a)
      ((k.modifyDesc c fun d => { d with destroying := flag }).desc a) := by
  by_cases eq : a = c
  · rw [eq, modifyDesc_self]
    exact ⟨rfl, rfl, rfl, rfl, rfl⟩
  · rw [modifyDesc_of_ne _ _ eq]
    exact .refl _

/-- `kmem_cache_destroy` sets and clears the flag of a cache. -/
theorem Core.setDestroying (core : Core k v) (c : Nat) (flag : Bool) :
    Core (k.modifyDesc c fun d => { d with destroying := flag }) v := by
  have used : ∀ a, (k.modifyDesc c fun d => { d with destroying := flag }).Used a ↔ k.Used a :=
    used_modifyDesc_same (fun d => { d with destroying := flag }) (fun _ => rfl) c
  have shape := k.sameShape_setDestroying c flag
  have pool : PoolInv (k.modifyDesc c fun d => { d with destroying := flag }) v.caches := by
    refine core.pool.congr rfl rfl rfl used ?_
    intro a _
    by_cases eq : a = c
    · rw [eq, modifyDesc_self]
      exact ⟨rfl, rfl⟩
    · rw [modifyDesc_of_ne _ _ eq]
      exact ⟨rfl, rfl⟩
  have buddy : (k.modifyDesc c fun d => { d with destroying := flag }).toBuddy = k.toBuddy := rfl
  refine core.redescribe buddy ?_ ?_ ?_ pool
  · exact fun s w isSlab => ⟨(used _).mpr (core.slabs.used s w isSlab), shape _⟩
  · intro a isUsed
    refine Or.inl ⟨(used a).mp isUsed, fun list => ?_⟩
    by_cases eq : a = c
    · rw [eq, modifyDesc_self]
      cases list <;> rfl
    · rw [modifyDesc_of_ne _ _ eq]
  · exact fun a isUsed => (shape a).geometry (core.slabs.geometry a ((used a).mp isUsed))

/-- The fields that `kmem_cache_destroy` clears at its end. -/
def cleared (d : KmemCache) : KmemCache :=
  { d with
    isUsed := false, errorCode := .ok, objectSize := 0, objsPerSlab := 0, slabOrder := 0,
    partialSlabs := 0, fullSlabs := 0, emptySlabs := 0, ctor := none }

/-- **The end of `kmem_cache_destroy`**: a cache without slabs leaves the list and is not used any
more. -/
theorem Core.dropWith (core : Core k v) (used : k.Used c) (noSlabs : ∀ list, v.lists c list = [])
    {change : KmemCache → KmemCache} (off : ∀ d, (change d).isUsed = false) :
    k.removeFromCacheList c = .ok (k.unlink c) ∧
      Core ((k.unlink c).modifyDesc c change) { v with caches := v.caches.erase c } ∧
      live ((k.unlink c).modifyDesc c change) v.slabs = live k v.slabs ∧
      (∀ a, ((k.unlink c).modifyDesc c change).Used a ↔ a ≠ c ∧ k.Used a) ∧
      ∀ a ≠ c, KmemCache.SameShape (k.desc a) (((k.unlink c).modifyDesc c change).desc a) ∧
        (((k.unlink c).modifyDesc c change).desc a).destroying = (k.desc a).destroying := by
  obtain ⟨run, linked, tail⟩ := core.pool.remove ((core.pool.members c).mpr used)
  have relinked := k.unlink_relinked c
  have usedIff : ∀ a, ((k.unlink c).modifyDesc c change).Used a ↔ a ≠ c ∧ k.Used a := by
    intro a
    rw [used_modifyDesc_off (off _), relinked.used_iff]
  have shape : ∀ a ≠ c, KmemCache.SameShape (k.desc a)
      (((k.unlink c).modifyDesc c change).desc a) := by
    intro a ne
    rw [modifyDesc_of_ne _ _ ne]
    exact relinked.sameShape a
  have buddy : ((k.unlink c).modifyDesc c change).toBuddy = k.toBuddy := relinked.toBuddy
  have distinct := core.pool.linked.nodup
  have pool : PoolInv ((k.unlink c).modifyDesc c change) (v.caches.erase c) := by
    have place : ((k.unlink c).modifyDesc c change).cachePool = k.cachePool := by
      show (k.unlink c).cachePool = _
      rw [relinked.rest]
    refine ⟨by rw [place]; exact core.pool.pos, by rw [place]; exact core.pool.fits, ?_, ?_, tail⟩
    · refine linked.congr ?_ ?_ <;>
      · intro a member
        have ne : a ≠ c := (distinct.mem_erase_iff.mp member).1
        rw [modifyDesc_of_ne _ _ ne]
    · intro a
      rw [distinct.mem_erase_iff, core.pool.members, usedIff]
  have otherCache : ∀ s w, v.slabs s = some w → w.cache ≠ c := by
    intro s w isSlab eq
    obtain ⟨list, member⟩ := (core.listed s w.cache).mp ⟨w.free, isSlab⟩
    rw [eq, noSlabs] at member
    cases member
  refine ⟨run, core.redescribe buddy ?_ ?_ ?_ pool, ?_, usedIff, ?_⟩
  · intro s w isSlab
    have ne := otherCache s w isSlab
    exact ⟨(usedIff _).mpr ⟨ne, core.slabs.used s w isSlab⟩, shape _ ne⟩
  · intro a isUsed
    obtain ⟨ne, before⟩ := (usedIff a).mp isUsed
    refine Or.inl ⟨before, fun list => ?_⟩
    rw [modifyDesc_of_ne _ _ ne, relinked.head]
  · intro a isUsed
    obtain ⟨ne, before⟩ := (usedIff a).mp isUsed
    exact (shape a ne).geometry (core.slabs.geometry a before)
  · exact live_redescribe buddy fun s w isSlab => shape _ (otherCache s w isSlab)
  · intro a ne
    refine ⟨shape a ne, ?_⟩
    rw [modifyDesc_of_ne _ _ ne]
    exact relinked.field KmemCache.destroying a

theorem Core.dropCache (core : Core k v) (used : k.Used c) (noSlabs : ∀ list, v.lists c list = []) :
    k.removeFromCacheList c = .ok (k.unlink c) ∧
      Core ((k.unlink c).modifyDesc c cleared) { v with caches := v.caches.erase c } ∧
      live ((k.unlink c).modifyDesc c cleared) v.slabs = live k v.slabs ∧
      (∀ a, ((k.unlink c).modifyDesc c cleared).Used a ↔ a ≠ c ∧ k.Used a) ∧
      ∀ a ≠ c, KmemCache.SameShape (k.desc a) (((k.unlink c).modifyDesc c cleared).desc a) ∧
        (((k.unlink c).modifyDesc c cleared).desc a).destroying = (k.desc a).destroying :=
  core.dropWith used noSlabs fun _ => rfl

/-- Setting and clearing the flag again leaves only the error code changed. -/
theorem refuse_eq (active : (k.desc c).destroying = false) :
    ((k.modifyDesc c fun d => { d with destroying := true }).modifyDesc c fun d =>
        { d with errorCode := .destroyNotEmpty, destroying := false }) =
      k.modifyDesc c fun d => { d with errorCode := .destroyNotEmpty } := by
  rw [modifyDesc_modifyDesc]
  unfold modifyDesc
  rw [← active]

/-- A cache whose slabs were all empty is gone, and its slabs have been given back. -/
structure Dropped (c : Nat) (k : Kmem) (v : View) (k' : Kmem) (v' : View) : Prop where
  recast : Recast {c} k v k' v'
  used : ∀ a, k'.Used a ↔ a ≠ c ∧ k.Used a
  slabs : ∀ t, v'.slabs t = if t ∈ v.lists c .empty then none else v.slabs t
  mem : SameOutside (spare k v.slabs ∪ slabArea k c {t | t ∈ v.lists c .empty}) k.mem k'.mem

/-- The flag of a cache does not change what is spare. -/
theorem spare_setDestroying (k : Kmem) (c : Nat) (flag : Bool) (slabs : Nat → Option SlabView) :
    spare (k.modifyDesc c fun d => { d with destroying := flag }) slabs = spare k slabs := by
  unfold spare headerArea
  simp only [(k.sameShape_setDestroying c flag _).objsPerSlab]
  rfl

/-- `kmem_cache_destroy` of a cache whose slabs are all empty: shrink it, then drop it. -/
theorem Core.destroyIdle_spec (core : Core k v) (used : k.Used c)
    (noPartial : (k.desc c).head .partials = 0) (noFull : (k.desc c).head .full = 0) :
    ∃ k₁ k₂ v', (k.modifyDesc c fun d => { d with destroying := true }).kmemCacheShrink c =
        .ok (k₁, (v.lists c .empty).length) ∧
      k₁.removeFromCacheList c = .ok k₂ ∧ Dropped c k v (k₂.modifyDesc c cleared) v' := by
  have flagged := core.setDestroying c true
  have usedIff : ∀ a, (k.modifyDesc c fun d => { d with destroying := true }).Used a ↔ k.Used a :=
    used_modifyDesc_same (fun d => { d with destroying := true }) (fun _ => rfl) c
  obtain ⟨k₁, v₁, run, shrunk⟩ := flagged.kmemCacheShrink_spec ((usedIff c).mpr used)
  have used₁ : k₁.Used c := (shrunk.calm.used_iff c).mpr ((usedIff c).mpr used)
  have noSlabs : ∀ list, v₁.lists c list = [] := by
    intro list
    rw [shrunk.lists]
    cases list with
    | empty => exact setList_self ..
    | partials =>
      have linked := core.lists.linked c used .partials
      rw [noPartial] at linked
      rw [setList_of_ne (by simp)]
      exact linked.eq_nil_of_stop
    | full =>
      have linked := core.lists.linked c used .full
      rw [noFull] at linked
      rw [setList_of_ne (by simp)]
      exact linked.eq_nil_of_stop
  obtain ⟨removed, core', live', usedIff', others⟩ := shrunk.core.dropCache used₁ noSlabs
  have relinked := k₁.unlink_relinked c
  have same : ∀ a ≠ c, (k.modifyDesc c fun d => { d with destroying := true }).desc a = k.desc a :=
    fun a ne => modifyDesc_of_ne _ _ ne
  have sameMem : ((k₁.unlink c).modifyDesc c cleared).mem = k₁.mem :=
    congrArg Buddy.mem relinked.toBuddy
  refine ⟨k₁, _, _, run, removed, ⟨core', ?_, ?_, ?_, ?_, ?_, ?_⟩, ?_, ?_, ?_⟩
  · have sameLive : live (k.modifyDesc c fun d => { d with destroying := true }) v.slabs =
        live k v.slabs :=
      live_redescribe rfl fun s w _ => k.sameShape_setDestroying c true w.cache
    exact (live'.trans shrunk.live).trans sameLive
  · have first : SamePlace k (k.modifyDesc c fun d => { d with destroying := true }) :=
      ⟨rfl, rfl, rfl, rfl, rfl⟩
    have last : SamePlace (k₁.unlink c) ((k₁.unlink c).modifyDesc c cleared) :=
      ⟨rfl, rfl, rfl, rfl, rfl⟩
    exact (first.trans shrunk.calm.samePlace).trans (relinked.samePlace.trans last)
  · exact relinked.kmallocCaches.trans shrunk.calm.kmallocCaches
  · intro idle a used'
    obtain ⟨ne, before⟩ := (usedIff' a).mp used'
    rw [(others a ne).2, shrunk.calm.destroying, same a ne]
    exact idle a ((usedIff a).mp ((shrunk.calm.used_iff a).mp before))
  · intro a ne used'
    have ne' : a ≠ c := ne
    refine ⟨(usedIff' a).mpr ⟨ne', (shrunk.calm.used_iff a).mpr ((usedIff a).mpr used')⟩, ?_⟩
    have first := KmemCache.SameShape.of_layout (shrunk.calm.layout a)
    rw [same a ne'] at first
    exact first.trans (others a ne').1
  · rw [sameMem]
    exact shrunk.mem_region flagged
  · intro a
    rw [usedIff' a, shrunk.calm.used_iff, usedIff]
  · intro t
    simp only [shrunk.slabs, List.not_mem_nil, not_false_eq_true, and_true]
  · have written := shrunk.mem
    have bytes := (k.sameShape_setDestroying c true c).slabBytes
    simp only [slabArea, bytes, List.not_mem_nil, not_false_eq_true, and_true] at written
    rw [spare_setDestroying] at written
    rw [sameMem]
    exact written

/-- `kmem_cache_destroy` looks for its cache among those of `kmalloc`. -/
theorem any_kmallocCaches :
    ((List.range kmallocNumCaches).any fun i => k.kmallocCaches i == c) = true ↔
    ∃ j < kmallocNumCaches, k.kmallocCaches j = c := by
  simp only [List.any_eq_true, List.mem_range, beq_iff_eq]

/-- `kmem_cache_destroy` of a cache without live objects that is not one of `kmalloc`. -/
theorem Core.kmemCacheDestroy_idle (core : Core k v) (used : k.Used c)
    (notKmalloc : ∀ j < kmallocNumCaches, k.kmallocCaches j ≠ c)
    (noPartial : (k.desc c).partialSlabs = 0) (noFull : (k.desc c).fullSlabs = 0) :
    ∃ k' v', k.kmemCacheDestroy c = .ok k' ∧ Dropped c k v k' v' := by
  obtain ⟨k₁, k₂, v', run, removed, dropped⟩ := core.destroyIdle_spec used noPartial noFull
  refine ⟨k₂.modifyDesc c cleared, v', ?_, dropped⟩
  have notAny : ¬ ((List.range kmallocNumCaches).any fun i => k.kmallocCaches i == c) = true := by
    rw [any_kmallocCaches]
    exact fun ⟨j, lt, eq⟩ => notKmalloc j lt eq
  unfold kmemCacheDestroy
  rw [if_neg (core.pool.used_bounds used).1, if_neg notAny]
  simp only [modifyDesc_self]
  rw [if_neg (not_or.mpr ⟨not_not.mpr noPartial, not_not.mpr noFull⟩), run]
  show (k₁.removeFromCacheList c >>= _) = _
  rw [removed]
  rfl

/-- A cache of `kmalloc`, or one with a slab that is not empty, is refused. -/
theorem Core.kmemCacheDestroy_refused (core : Core k v) (used : k.Used c)
    (active : (k.desc c).destroying = false)
    (busy : (∃ j < kmallocNumCaches, k.kmallocCaches j = c) ∨ (k.desc c).partialSlabs ≠ 0 ∨
      (k.desc c).fullSlabs ≠ 0) :
    ∃ error, k.kmemCacheDestroy c =
    .ok (k.modifyDesc c fun d => { d with errorCode := error }) := by
  unfold kmemCacheDestroy
  rw [if_neg (core.pool.used_bounds used).1]
  by_cases isKmalloc : ∃ j < kmallocNumCaches, k.kmallocCaches j = c
  · rw [if_pos (any_kmallocCaches.mpr isKmalloc)]
    exact ⟨_, rfl⟩
  · rw [if_neg (any_kmallocCaches.not.mpr isKmalloc)]
    simp only [modifyDesc_self]
    rw [if_pos (busy.resolve_left isKmalloc), refuse_eq active]
    exact ⟨_, rfl⟩

/-- **`kmem_cache_destroy`**: a cache with live objects, or of `kmalloc`, is refused with only its
error code changed; any other cache is gone and had no live object. -/
theorem Core.kmemCacheDestroy_cases (core : Core k v) (used : k.Used c)
    (active : (k.desc c).destroying = false) :
    (∃ error, k.kmemCacheDestroy c = .ok (k.modifyDesc c fun d => { d with errorCode := error }) ∧
      ((∃ j < kmallocNumCaches, k.kmallocCaches j = c) ∨ (k.desc c).partialSlabs ≠ 0 ∨
        (k.desc c).fullSlabs ≠ 0)) ∨
    ∃ k' v', k.kmemCacheDestroy c = .ok k' ∧ Dropped c k v k' v' ∧
      (∀ j < kmallocNumCaches, k.kmallocCaches j ≠ c) ∧ (k.desc c).partialSlabs = 0 ∧
      (k.desc c).fullSlabs = 0 := by
  by_cases busy : (∃ j < kmallocNumCaches, k.kmallocCaches j = c) ∨ (k.desc c).partialSlabs ≠ 0 ∨
      (k.desc c).fullSlabs ≠ 0
  · obtain ⟨error, call⟩ := core.kmemCacheDestroy_refused used active busy
    exact Or.inl ⟨error, call, busy⟩
  · rw [not_or, not_or, not_not, not_not] at busy
    obtain ⟨notKmalloc, noPartial, noFull⟩ := busy
    have other : ∀ j < kmallocNumCaches, k.kmallocCaches j ≠ c :=
      fun j lt eq => notKmalloc ⟨j, lt, eq⟩
    obtain ⟨k', v', run, dropped⟩ := core.kmemCacheDestroy_idle used other noPartial noFull
    exact Or.inr ⟨k', v', run, dropped, other, noPartial, noFull⟩

theorem Core.kmemCacheDestroy_spec (core : Core k v) (used : k.Used c)
    (active : (k.desc c).destroying = false) :
    (∃ k', k.kmemCacheDestroy c = .ok k' ∧ Keeps k v k') ∨
    ∃ k' v', k.kmemCacheDestroy c = .ok k' ∧ Recast {c} k v k' v' ∧ ¬ k'.Used c ∧
      ∀ j < kmallocNumCaches, k.kmallocCaches j ≠ c := by
  rcases core.kmemCacheDestroy_cases used active with ⟨error, call, _⟩ |
    ⟨k', v', run, dropped, other, _⟩
  · exact Or.inl ⟨_, call, core.setError c error⟩
  · exact Or.inr ⟨k', v', run, dropped.recast, fun stays => ((dropped.used c).mp stays).1 rfl,
      other⟩

end Kmem

end Xv6Slab
