/-
**The slab allocator as its clients in the kernel see it.**

* `liveObjects k c` — the objects of a cache that are not free, read from the fields of the code;
  `Sound.liveObjects_eq` says that these are the objects clients hold.
* `Listed`, `NoFree` — the slabs on a list of a cache, and that none of its slabs has a free object.
* `Sound.alloc_cases`, `Sound.writeObject` — what `kmem_cache_alloc`, and a write inside a held
  object, leave alone.
-/

import Xv6Slab.Slab.Invariant

namespace Xv6Slab

open Bytes Chains

namespace Kmem

variable {k k' : Kmem} {held : List Allocation} {space c : Nat} {blockNum : Int} {a b : Allocation}

/-- The objects of a cache that are on no index free list. -/
def liveObjects (k : Kmem) (c : Nat) : Set Nat :=
  {p | ∃ i < k.num, ∃ s, s ≠ 0 ∧ (k.blockMeta i).ownerSlab = s ∧ slabCache k.mem s = c ∧
    ∃ l x, Chain (slabNextArray k.mem s) nofree (slabFirstFree k.mem s) l ∧
      x < (k.desc c).objsPerSlab ∧ x ∉ l ∧ p = slabObjPtr (k.desc c) s x}

/-- **The live objects of a cache are those that clients hold.** -/
theorem Sound.liveObjects_eq (sound : Sound k held space blockNum) (c : Nat) :
    k.liveObjects c = {p | .object c p (k.desc c).objectSize ∈ held} := by
  obtain ⟨v, core, same⟩ := sound.view
  ext p
  rw [Set.mem_ofPred_eq, same, mem_live_object]
  constructor
  · rintro ⟨i, lt, s, nonzero, owner, isCache, l, x, chain, inside, notFree, rfl⟩
    obtain ⟨w, isSlab, _⟩ := (core.slabs.owner i lt s nonzero).mp owner
    have header := core.slabs.header s w isSlab
    obtain rfl : w.cache = c := header.cache.symm.trans isCache
    obtain rfl : l = w.free := chain.unique header.chain
    exact ⟨rfl, s, w.free, x, isSlab, inside, notFree, core.slabs.objPtr_eq isSlab inside⟩
  · rintro ⟨_, s, l, x, isSlab, inside, notFree, rfl⟩
    have header := core.slabs.header s _ isSlab
    obtain ⟨i, isPage, inAlloc⟩ := core.slabs.placed s _ isSlab
    have lt : i < k.num := by
      have fits := core.slabs.pool.tiling.inside _ (Or.inr inAlloc)
      have some_ : 0 < 2 ^ (k.desc c).slabOrder := Nat.two_pow_pos _
      simp only at fits
      omega
    have nonzero := core.slabs.nonzero isSlab
    refine ⟨i, lt, s, nonzero, ?_, header.cache, l, x, header.chain, inside, notFree,
      (core.slabs.objPtr_eq isSlab inside).symm⟩
    refine (core.slabs.owner i lt s nonzero).mpr ⟨_, isSlab, ?_⟩
    rw [← isPage]
    have some_ : 0 < (k.desc c).slabBytes := by
      unfold KmemCache.slabBytes
      positivity
    exact ⟨le_rfl, Nat.lt_add_of_pos_right some_⟩

/-- The blocks, by address and order, that are allocated and belong to no slab. -/
def liveBlocks (k : Kmem) : Set (Nat × Nat) :=
  {b | ∃ i, ⟨i, b.2⟩ ∈ k.allocBlocks ∧ (k.blockMeta i).ownerSlab = 0 ∧ b.1 = k.page i}

/-- These are the blocks that clients hold. -/
theorem Sound.liveBlocks_eq (sound : Sound k held space blockNum) :
    k.liveBlocks = {b | .block b.1 b.2 ∈ held} := by
  obtain ⟨v, core, same⟩ := sound.view
  ext b
  rw [Set.mem_ofPred_eq, same, mem_live_block]
  rfl

/-- A slab on one of the lists of a cache. -/
def Listed (k : Kmem) (c : Nat) (list : SlabList) (s : Nat) : Prop :=
  ∃ l, Chain (slabNext k.mem) 0 ((k.desc c).head list) l ∧ s ∈ l

theorem Core.listed_iff {v : View} (core : Core k v) (used : k.Used c) {list : SlabList} {s : Nat} :
    k.Listed c list s ↔ s ∈ v.lists c list := by
  have linked := (core.lists.linked c used list).chain
  constructor
  · rintro ⟨l, chain, member⟩
    exact chain.unique linked ▸ member
  · exact fun member => ⟨_, linked, member⟩

/-- No slab of a cache has a free object. -/
def NoFree (k : Kmem) (c : Nat) : Prop := ∀ list s, k.Listed c list s → slabFreeCount k.mem s = 0

/-- Only full slabs have no free object. -/
theorem Core.noFree_iff {v : View} (core : Core k v) (used : k.Used c) :
    k.NoFree c ↔ v.lists c .partials = [] ∧ v.lists c .empty = [] := by
  have positive := (core.slabs.geometry c used).objs_pos
  have count : ∀ list s, s ∈ v.lists c list → ∃ n, slabFreeCount k.mem s = n ∧
      InCategory (k.desc c).objsPerSlab n list := by
    intro list s member
    obtain ⟨l, isSlab⟩ := core.isSlab member
    exact ⟨l.length, (core.slabs.header s _ isSlab).freeCount,
      core.category c list s l member isSlab⟩
  constructor
  · intro none
    constructor <;> rw [List.eq_nil_iff_forall_not_mem] <;> intro s member
    · obtain ⟨n, isCount, category⟩ := count .partials s member
      have zero := none .partials s ((core.listed_iff used).mpr member)
      exact absurd category.1 (by omega)
    · obtain ⟨n, isCount, category⟩ := count .empty s member
      have zero := none .empty s ((core.listed_iff used).mpr member)
      have full : n = (k.desc c).objsPerSlab := category
      omega
  · rintro ⟨noPartial, noEmpty⟩ list s isListed
    have member := (core.listed_iff used).mp isListed
    cases list with
    | full =>
      obtain ⟨n, isCount, category⟩ := count .full s member
      exact isCount.trans category
    | partials =>
      rw [noPartial] at member
      cases member
    | empty =>
      rw [noEmpty] at member
      cases member

/-- Held allocations do not overlap. -/
theorem Sound.held_disjoint (sound : Sound k held space blockNum) (aHeld : a ∈ held)
    (bHeld : b ∈ held) (ne : a ≠ b) : Disjoint a.bytes b.bytes := by
  obtain ⟨v, core, same⟩ := sound.view
  exact core.slabs.live_disjoint ((same a).mp aHeld) ((same b).mp bHeld) ne

/-- The cache of a held object is in use. -/
theorem Sound.used_of_held (sound : Sound k held space blockNum) {p size : Nat}
    (isHeld : .object c p size ∈ held) : k.Used c ∧ size = (k.desc c).objectSize := by
  obtain ⟨v, core, same⟩ := sound.view
  obtain ⟨isSize, s, l, x, isSlab, _⟩ := (same _).mp isHeld
  exact ⟨core.slabs.used s _ isSlab, isSize⟩

/-- A write inside a held allocation. -/
theorem Sound.writeObject (sound : Sound k held space blockNum) (isHeld : a ∈ held) {mem : Mem}
    (outside : SameOutside a.bytes k.mem mem) : Sound (k.setMem mem) held space blockNum :=
  sound.write (outside.mono fun _ inside => ⟨a, isHeld, inside⟩)

/-- What a call leaves alone: the caches and the contents of what clients hold. -/
structure Leaves (k k' : Kmem) (held : List Allocation) : Prop where
  used : ∀ c, k'.Used c ↔ k.Used c
  objectSize : ∀ c, (k'.desc c).objectSize = (k.desc c).objectSize
  contents : ∀ p ∈ heldBytes held, k'.mem p = k.mem p

theorem Gains.leaves {v v' : View} (gains : Gains k v k' v' a) (core : Core k v)
    (same : ∀ b, b ∈ held ↔ b ∈ Kmem.live k v.slabs) : Leaves k k' held where
  used := gains.calm.used_iff
  objectSize := fun c => (KmemCache.SameShape.of_layout (gains.calm.layout c)).objectSize
  contents := by
    rintro p ⟨b, bHeld, inside⟩
    refine gains.mem p ?_
    rintro (⟨t, c', l, isSlab, range⟩ | inFree)
    · exact core.slabs.live_not_header ((same b).mp bHeld) isSlab inside range
    · exact core.slabs.live_not_free ((same b).mp bHeld) inside inFree

/-- Giving an allocation back leaves the contents of the others alone. -/
theorem Loses.contents {v v' : View} (loses : Loses k v k' v' a) (core : Core k v)
    (isLive : a ∈ Kmem.live k v.slabs) (bLive : b ∈ Kmem.live k v.slabs) (ne : b ≠ a) :
    ∀ p ∈ b.bytes, k'.mem p = k.mem p := by
  intro p inside
  refine loses.mem p ?_
  rintro ((⟨t, c', l, isSlab, range⟩ | inFree) | inA)
  · exact core.slabs.live_not_header bLive isSlab inside range
  · exact core.slabs.live_not_free bLive inside inFree
  · exact Set.disjoint_left.mp (core.slabs.live_disjoint bLive isLive ne) inside inA

theorem Keeps.leaves {v : View} (keeps : Keeps k v k') (held : List Allocation) :
    Leaves k k' held where
  used := keeps.calm.used_iff
  objectSize := fun c => (KmemCache.SameShape.of_layout (keeps.calm.layout c)).objectSize
  contents := fun _ _ => by rw [keeps.mem]

/-- **`kmem_cache_alloc` for a client**: null, or an object that nobody held. -/
theorem Sound.alloc_cases (sound : Sound k held space blockNum) (used : k.Used c) :
    ∃ k' obj, k.kmemCacheAlloc c = .ok (k', obj) ∧ Leaves k k' held ∧
      (obj = 0 ∧ Sound k' held space blockNum ∨
        obj ≠ 0 ∧ .object c obj (k.desc c).objectSize ∉ held ∧
        Sound k' (.object c obj (k.desc c).objectSize :: held) space blockNum) := by
  obtain ⟨v, core, same⟩ := sound.view
  rcases core.kmemCacheAlloc_spec used (sound.idle c used) with
    ⟨k₁, call, keeps, _⟩ | ⟨k₁, v₁, obj, call, nonzero, gains⟩
  · exact ⟨k₁, 0, call, keeps.leaves held, Or.inl ⟨rfl, sound.keeps same keeps⟩⟩
  · refine ⟨k₁, obj, call, gains.leaves core same, Or.inr ⟨nonzero, ?_, sound.gains same gains⟩⟩
    rw [same]
    exact gains.fresh

/-- `kmalloc` for a client: null, or an object of one of its caches that nobody held. -/
theorem Sound.kmalloc_cases (sound : Sound k held space blockNum) (size : Nat) :
    ∃ k' obj, k.kmalloc size = .ok (k', obj) ∧ Leaves k k' held ∧
      (obj = 0 ∧ Sound k' held space blockNum ∨ obj ≠ 0 ∧ ∃ j < kmallocNumCaches,
        alignUp size 8 ≤ 32 * 2 ^ j ∧ .object (k.kmallocCaches j) obj (32 * 2 ^ j) ∉ held ∧
          Sound k' (.object (k.kmallocCaches j) obj (32 * 2 ^ j) :: held) space blockNum) := by
  unfold Kmem.kmalloc
  by_cases zero : size = 0
  · rw [if_pos zero]
    exact ⟨k, 0, rfl, ⟨fun _ => Iff.rfl, fun _ => rfl, fun _ _ => rfl⟩, Or.inl ⟨rfl, sound⟩⟩
  · rw [if_neg zero]
    cases found : kmallocIndex (alignUp size 8) with
    | none => exact ⟨k, 0, rfl, ⟨fun _ => Iff.rfl, fun _ => rfl, fun _ _ => rfl⟩,
      Or.inl ⟨rfl, sound⟩⟩
    | some j =>
      obtain ⟨lt, fits⟩ := kmallocIndex_lt found
      obtain ⟨used, isSize⟩ := sound.kmalloc j lt
      obtain ⟨v, core, _⟩ := sound.view
      simp only
      rw [if_neg (core.pool.used_bounds used).1]
      obtain ⟨k', obj, call, leaves, null | ⟨nonzero, notHeld, sound'⟩⟩ := sound.alloc_cases used
      · exact ⟨k', obj, call, leaves, Or.inl null⟩
      · rw [isSize] at notHeld sound'
        exact ⟨k', obj, call, leaves, Or.inr ⟨nonzero, j, lt, fits, notHeld, sound'⟩⟩

end Kmem

end Xv6Slab
