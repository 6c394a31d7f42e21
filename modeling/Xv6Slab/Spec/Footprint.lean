/-
**What one allocator may change, and what it depends on.**

The allocators of the kernel and of the processes work on one memory. Each of them has a region of
managed pages and a pool of descriptors.

* `Footprint` — a change inside the region and the pool that keeps some bytes.
* `Sound.footprint` — **a call of the allocator stays inside its region and its pool, and keeps what
  stays held.**
* `Sound.elsewhere` — **an allocator depends on nothing but its pool and the bytes of its region
  that nobody holds.**
-/

import Xv6Slab.Slab.BadFree
import Xv6Slab.Slab.Run
import Xv6Slab.Slab.Frames
import Xv6Slab.Spec.GiveBack

namespace Xv6Slab

open Bytes

namespace Kmem

variable {k k' k'' : Kmem} {v v' : View} {held held' : List Allocation} {space c : Nat}
  {blockNum : Int} {a : Allocation}

/-! ### Changes inside an allocator -/

/-- **A change inside the region and the pool of an allocator**, which keeps some bytes. -/
structure Footprint (k k' : Kmem) (kept : Set Nat) : Prop where
  place : SamePlace k k'
  mem : SameOutside (k.regionBytes \ kept) k.mem k'.mem
  desc : ∀ c, ¬ k.InPool c → k'.desc c = k.desc c

namespace Footprint

variable {kept kept' : Set Nat}

theorem refl (k : Kmem) (kept : Set Nat) : Footprint k k kept :=
  ⟨⟨rfl, rfl, rfl, rfl, rfl⟩, SameOutside.refl _ _, fun _ _ => rfl⟩

theorem mono (footprint : Footprint k k' kept) (sub : kept' ⊆ kept) : Footprint k k' kept' :=
  ⟨footprint.place, footprint.mem.mono (Set.sdiff_subset_sdiff_right sub), footprint.desc⟩

theorem inPool_iff (footprint : Footprint k k' kept) (c : Nat) : k'.InPool c ↔ k.InPool c := by
  unfold InPool
  rw [footprint.place.cachePool]

theorem trans (first : Footprint k k' kept) (second : Footprint k' k'' kept) :
    Footprint k k'' kept where
  place := first.place.trans second.place
  mem := by
    have after := second.mem
    rw [first.place.regionBytes] at after
    exact first.mem.trans after
  desc c outside := by
    rw [second.desc c fun inside => outside ((first.inPool_iff c).mp inside), first.desc c outside]

/-- Memory is unchanged outside the region. -/
theorem outside (footprint : Footprint k k' kept) {x : Nat} (notIn : x ∉ k.regionBytes) :
    k'.mem x = k.mem x :=
  footprint.mem x fun inside => notIn inside.1

theorem kept_mem (footprint : Footprint k k' kept) {x : Nat} (isKept : x ∈ kept) :
    k'.mem x = k.mem x :=
  footprint.mem x fun inside => inside.2 isKept

/-- A change of descriptors in the pool. -/
theorem of_mem_eq (place : SamePlace k k') (mem : k'.mem = k.mem)
    (desc : ∀ c, ¬ k.InPool c → k'.desc c = k.desc c) (kept : Set Nat) : Footprint k k' kept :=
  ⟨place, fun x _ => congrFun mem x, desc⟩

/-- What is written is known to be in the region and not to be kept. -/
theorem of_written {written : Set Nat} (place : SamePlace k k') (region : written ⊆ k.regionBytes)
    (apart : ∀ x ∈ kept, x ∉ written) (mem : SameOutside written k.mem k'.mem)
    (desc : ∀ c, ¬ k.InPool c → k'.desc c = k.desc c) : Footprint k k' kept :=
  ⟨place, mem.mono fun x inside => ⟨region inside, fun isKept => apart x isKept inside⟩, desc⟩

end Footprint

/-- A change of one used descriptor, by a function that changes no other. -/
theorem Used.desc_outside (used : k.Used c) (others : ∀ a ≠ c, k'.desc a = k.desc a) :
    ∀ a, ¬ k.InPool a → k'.desc a = k.desc a := by
  intro a outside
  refine others a ?_
  rintro rfl
  exact outside used.inPool

theorem Core.spare_not_held (core : Core k v) (same : ∀ b, b ∈ held ↔ b ∈ live k v.slabs) :
    ∀ x ∈ heldBytes held, x ∉ spare k v.slabs := by
  rintro x ⟨b, isHeld, inside⟩ (⟨t, d, l, isSlab, range⟩ | inFree)
  · exact core.slabs.live_not_header ((same b).mp isHeld) isSlab inside range
  · exact core.slabs.live_not_free ((same b).mp isHeld) inside inFree

theorem Gains.footprint (gains : Gains k v k' v' a) (core : Core k v)
    (same : ∀ b, b ∈ held ↔ b ∈ Kmem.live k v.slabs)
    (desc : ∀ c, ¬ k.InPool c → k'.desc c = k.desc c) : Footprint k k' (heldBytes held) :=
  .of_written gains.calm.samePlace core.slabs.spare_sub (core.spare_not_held same) gains.mem desc

theorem Loses.footprint (loses : Loses k v k' v' a) (sound : Sound k held space blockNum)
    (core : Core k v) (same : ∀ b, b ∈ held ↔ b ∈ Kmem.live k v.slabs) (isHeld : a ∈ held)
    (desc : ∀ c, ¬ k.InPool c → k'.desc c = k.desc c) :
    Footprint k k' (heldBytes (held.erase a)) := by
  refine .of_written loses.calm.samePlace (Set.union_subset core.slabs.spare_sub
    (core.slabs.bytes_sub ((same a).mp isHeld))) ?_ loses.mem desc
  rintro x ⟨b, bHeld, inside⟩ written
  obtain ⟨ne, bHeld⟩ := sound.nodup.mem_erase_iff.mp bHeld
  rcases written with inSpare | inA
  · exact core.spare_not_held same x ⟨b, bHeld, inside⟩ inSpare
  · exact Set.disjoint_left.mp (sound.held_disjoint bHeld isHeld ne) inside inA

theorem Keeps.footprint (keeps : Keeps k v k') (kept : Set Nat)
    (desc : ∀ c, ¬ k.InPool c → k'.desc c = k.desc c) : Footprint k k' kept :=
  .of_mem_eq keeps.calm.samePlace keeps.mem desc kept

/-! ### The calls -/

theorem buddyAlloc_desc {pages base : Nat} (run : k.buddyAlloc pages = .ok (k', base)) :
    k'.desc = k.desc := by
  obtain ⟨⟨b, blk⟩, _, run⟩ := bind_eq_ok run
  cases run
  rfl

theorem buddyFree_desc {base : Nat} (run : k.buddyFree base = .ok k') : k'.desc = k.desc := by
  obtain ⟨b, _, run⟩ := bind_eq_ok run
  cases run
  rfl

/-- Unlinking a cache writes its neighbours, which are in the pool. -/
theorem PoolInv.unlink_desc {caches : List Nat} (pool : PoolInv k caches) (member : c ∈ caches)
    {d : Nat} (outside : ¬ k.InPool d) : (k.unlink c).desc d = k.desc d := by
  obtain ⟨before, after⟩ := pool.neighbours_listed member
  have notListed : d ∉ caches := fun listed => outside ((pool.members d).mp listed).inPool
  refine k.unlink_desc_of_ne ?_ ?_ ?_
  · rintro rfl
    exact notListed member
  · rintro rfl
    exact before.resolve_right notListed
  · rintro rfl
    exact after.resolve_right notListed

/-- `kmem_cache_destroy` writes descriptors of its pool only. -/
theorem Core.destroy_desc (core : Core k v) (used : k.Used c) (run : k.kmemCacheDestroy c = .ok k')
    {d : Nat} (outside : ¬ k.InPool d) : k'.desc d = k.desc d := by
  have ne : d ≠ c := by
    rintro rfl
    exact outside used.inPool
  unfold kmemCacheDestroy at run
  rw [if_neg (core.pool.used_bounds used).1] at run
  split at run
  · cases run
    exact modifyDesc_of_ne k _ ne
  dsimp only at run
  split at run
  · cases run
    rw [modifyDesc_of_ne _ _ ne, modifyDesc_of_ne _ _ ne]
  have flagged := core.setDestroying c true
  have usedFlagged : (k.modifyDesc c fun d => { d with destroying := true }).Used c :=
    (used_modifyDesc_same (fun d => { d with destroying := true }) (fun _ => rfl) c c).mpr used
  obtain ⟨⟨k₁, freed⟩, shrink, run⟩ := bind_eq_ok run
  obtain ⟨k₁', v₁, shrink', shrunk⟩ := flagged.kmemCacheShrink_spec usedFlagged
  obtain rfl : k₁' = k₁ := by
    rw [shrink, Except.ok.injEq, Prod.mk.injEq] at shrink'
    exact shrink'.1.symm
  have member := (shrunk.core.pool.members c).mpr ((shrunk.calm.used_iff c).mpr usedFlagged)
  obtain ⟨k₂, remove, run⟩ := bind_eq_ok run
  rw [(shrunk.core.pool.remove member).1] at remove
  cases remove
  cases run
  have outside₁ : ¬ k₁'.InPool d := by
    unfold InPool
    rw [shrunk.calm.samePlace.cachePool]
    exact outside
  rw [modifyDesc_of_ne _ _ ne, shrunk.core.pool.unlink_desc member outside₁,
    kmemCacheShrink_desc_of_ne ne shrink, modifyDesc_of_ne _ _ ne]

/-- The cache that `k_free` passes on is in use. -/
theorem Core.kFree_desc (core : Core k v) {p : Nat} (run : k.kFree p = .ok k') {d : Nat}
    (outside : ¬ k.InPool d) : k'.desc d = k.desc d := by
  unfold kFree at run
  dsimp only at run
  split at run
  · cases run
    rfl
  next found =>
  split at run
  next owned =>
    have owner : k.ownerOf p = (k.blockMeta (k.addrToIndex (pageAlignDown p)).toNat).ownerSlab :=
      if_pos (by omega)
    obtain ⟨l, isSlab⟩ := core.ownerOf_slab owner owned
    have used := core.slabs.used _ _ isSlab
    exact used.desc_outside (fun _ ne => kmemCacheFree_desc_of_ne ne run) d outside
  split at run
  · cases run
    rfl
  · rw [buddyFree_desc run]

theorem Sound.kmalloc_desc (sound : Sound k held space blockNum) {size obj : Nat}
    (run : k.kmalloc size = .ok (k', obj)) {d : Nat} (outside : ¬ k.InPool d) :
    k'.desc d = k.desc d := by
  obtain ⟨v, core, _⟩ := sound.view
  unfold Kmem.kmalloc at run
  split at run
  · cases run
    rfl
  cases found : kmallocIndex (alignUp size 8) with
  | none =>
    rw [found] at run
    cases run
    rfl
  | some idx =>
    rw [found] at run
    dsimp only at run
    have used := (sound.kmalloc idx (kmallocIndex_lt found).1).1
    rw [if_neg (core.pool.used_bounds used).1] at run
    exact used.desc_outside (fun _ ne => kmemCacheAlloc_desc_of_ne ne run) d outside

/-- The cache list starts in the pool. -/
theorem PoolInv.head_inPool {caches : List Nat} (pool : PoolInv k caches) :
    k.headOfCacheList = 0 ∨ k.InPool k.headOfCacheList := by
  by_cases none : k.headOfCacheList = 0
  · exact .inl none
  · obtain ⟨rest, rfl, _⟩ := pool.linked.eq_cons_of_ne none
    exact .inr ((pool.members _).mp List.mem_cons_self).inPool

theorem Pooled.footprint (pooled : Pooled k k') (kept : Set Nat) : Footprint k k' kept := by
  have place : SamePlace k k' :=
    ⟨by rw [pooled.buddy], by rw [pooled.buddy], pooled.freeAreaAt, pooled.blockMetaAt,
    pooled.cachePool⟩
  exact .of_mem_eq place (by rw [pooled.buddy]) pooled.desc kept

/-- Giving empty slabs back. -/
theorem Core.footprint_gone (core : Core k v) (same : ∀ b, b ∈ held ↔ b ∈ live k v.slabs)
    {gone : Set Nat} (isEmpty : ∀ t ∈ gone, t ∈ v.lists c .empty) (place : SamePlace k k')
    (written : SameOutside (spare k v.slabs ∪ slabArea k c gone) k.mem k'.mem)
    (region : SameOutside k.regionBytes k.mem k'.mem)
    (desc : ∀ d, ¬ k.InPool d → k'.desc d = k.desc d) : Footprint k k' (heldBytes held) := by
  refine ⟨place, fun x outside => ?_, desc⟩
  by_cases inRegion : x ∈ k.regionBytes
  · obtain ⟨a, isHeld, inside⟩ := not_not.mp fun notKept => outside ⟨inRegion, notKept⟩
    exact core.contents_of_gone isEmpty written ((same a).mp isHeld) inside
  · exact region x inRegion

/-- **A call of the allocator stays inside its region and its pool**, and keeps the contents of what
stays held. -/
theorem Sound.footprint (sound : Sound k held space blockNum)
    (call : AllocatorCall k held k' held') :
    Footprint k k' {x | ∃ a ∈ held, a ∈ held' ∧ x ∈ a.bytes} := by
  obtain ⟨v, core, same⟩ := sound.view
  have stays : {x | ∃ a ∈ held, a ∈ held' ∧ x ∈ a.bytes} ⊆ heldBytes held :=
    fun x ⟨a, isHeld, _, inside⟩ => ⟨a, isHeld, inside⟩
  have stays' : {x | ∃ a ∈ held, a ∈ held' ∧ x ∈ a.bytes} ⊆ heldBytes held' :=
    fun x ⟨a, _, isHeld, inside⟩ => ⟨a, isHeld, inside⟩
  cases call with
  | create small ctorLocal run =>
    exact (kmemCacheCreate_pooled core.pool.head_inPool run).footprint _
  | alloc valid run =>
    rcases valid with rfl | used
    · cases run
      exact .refl k _
    have desc := used.desc_outside fun _ ne => kmemCacheAlloc_desc_of_ne ne run
    rcases core.kmemCacheAlloc_spec used (sound.idle _ used) with ⟨k₁, run₁, keeps, _⟩ |
      ⟨k₁, v₁, obj, run₁, _, gains⟩
    · obtain ⟨rfl, _⟩ := Prod.mk.inj (Except.ok.inj (run₁.symm.trans run))
      exact keeps.footprint _ desc
    · obtain ⟨rfl, _⟩ := Prod.mk.inj (Except.ok.inj (run₁.symm.trans run))
      exact (gains.footprint core same desc).mono stays
  | free isHeld run =>
    have used := (sound.used_of_held isHeld).1
    have desc := used.desc_outside fun _ ne => kmemCacheFree_desc_of_ne ne run
    obtain ⟨k₁, v₁, run₁, loses⟩ := core.kmemCacheFree_spec (sound.idle _ used) ((same _).mp isHeld)
    obtain rfl := Except.ok.inj (run₁.symm.trans run)
    exact (loses.footprint sound core same isHeld desc).mono stays'
  | @kmalloc _ _ size _ run =>
    have desc := fun d outside => sound.kmalloc_desc (d := d) run outside
    rcases core.kmalloc_spec sound.idle sound.kmalloc size with ⟨k₁, run₁, keeps⟩ |
      ⟨k₁, v₁, obj, run₁, _, gains⟩
    · obtain ⟨rfl, _⟩ := Prod.mk.inj (Except.ok.inj (run₁.symm.trans run))
      exact keeps.footprint _ desc
    · obtain ⟨rfl, _⟩ := Prod.mk.inj (Except.ok.inj (run₁.symm.trans run))
      exact (gains.footprint core same desc).mono stays
  | kFree isHeld run =>
    obtain ⟨k₁, v₁, run₁, loses⟩ := core.kFree_spec sound.idle ((same _).mp isHeld)
    obtain rfl := Except.ok.inj (run₁.symm.trans run)
    exact (loses.footprint sound core same isHeld fun _ => core.kFree_desc run).mono stays'
  | @buddyAlloc _ _ pages order _ isOrder run =>
    have desc := buddyAlloc_desc run
    by_cases zero : pages = 0
    · subst zero
      cases run
      exact .refl k _
    rcases core.buddyAlloc_spec zero isOrder with run₁ | ⟨k₁, base, run₁, _, gains⟩
    · obtain ⟨rfl, _⟩ := Prod.mk.inj (Except.ok.inj (run₁.symm.trans run))
      exact .refl k _
    · obtain ⟨rfl, _⟩ := Prod.mk.inj (Except.ok.inj (run₁.symm.trans run))
      exact (gains.footprint core same fun c _ => congrFun desc c).mono stays
  | buddyFree isHeld run =>
    have desc := buddyFree_desc run
    obtain ⟨k₁, run₁, loses⟩ := core.buddyFree_spec ((same _).mp isHeld)
    obtain rfl := Except.ok.inj (run₁.symm.trans run)
    exact (loses.footprint sound core same isHeld fun c _ => congrFun desc c).mono stays'
  | shrink used run =>
    obtain ⟨k₁, v₁, run₁, shrunk⟩ := core.kmemCacheShrink_spec used
    obtain ⟨rfl, _⟩ := Prod.mk.inj (Except.ok.inj (run₁.symm.trans run))
    have desc := used.desc_outside fun _ ne => kmemCacheShrink_desc_of_ne ne run
    exact (core.footprint_gone same (fun t gone => gone.1) shrunk.calm.samePlace shrunk.mem
      (shrunk.mem_region core) desc).mono stays
  | destroy used run =>
    have desc := fun d outside => core.destroy_desc (d := d) used run outside
    rcases core.kmemCacheDestroy_cases used (sound.idle _ used) with ⟨error, run₁, _⟩ |
      ⟨k₁, v₁, run₁, dropped, _⟩
    · obtain rfl := Except.ok.inj (run₁.symm.trans run)
      exact (core.setError _ error).footprint _ desc
    · obtain rfl := Except.ok.inj (run₁.symm.trans run)
      exact (core.footprint_gone same (fun t gone => gone) dropped.recast.place dropped.mem
        dropped.recast.mem desc).mono stays

/-- What a call of the allocator does to caches: nothing but to their lists and error codes, or one
is created or dropped. -/
theorem Sound.calm_or_recast (sound : Sound k held space blockNum)
    (call : AllocatorCall k held k' held') :
    Calm k k' ∨ ∃ v v' gone, Recast gone k v k' v' ∧ ∀ c ∈ gone, ¬ k'.Used c := by
  obtain ⟨v, core, same⟩ := sound.view
  cases call with
  | @create _ _ size _ ctor small ctorLocal run =>
    by_cases zero : objectSizeFor size = 0
    · exact .inl (kmemCacheCreate_of_zero zero run ▸ Calm.refl k)
    · refine .inr ?_
      rcases core.kmemCacheCreate_spec ctor small zero ctorLocal with
        ⟨k₁, run₁, recast, _⟩ | ⟨k₁, c₁, run₁, _, _, _, _, recast⟩
      all_goals
        obtain ⟨rfl, _⟩ := Prod.mk.inj (Except.ok.inj (run₁.symm.trans run))
        exact ⟨v, _, ∅, recast, fun _ isGone => isGone.elim⟩
  | alloc valid run =>
    rcases valid with rfl | used
    · cases run
      exact .inl (Calm.refl k)
    · rcases core.kmemCacheAlloc_spec used (sound.idle _ used) with ⟨k₁, run₁, keeps, _⟩ |
        ⟨k₁, v₁, obj, run₁, _, gains⟩
      all_goals obtain ⟨rfl, _⟩ := Prod.mk.inj (Except.ok.inj (run₁.symm.trans run))
      · exact .inl keeps.calm
      · exact .inl gains.calm
  | free isHeld run =>
    obtain ⟨k₁, v₁, run₁, loses⟩ :=
      core.kmemCacheFree_spec (sound.idle _ (sound.used_of_held isHeld).1) ((same _).mp isHeld)
    obtain rfl := Except.ok.inj (run₁.symm.trans run)
    exact .inl loses.calm
  | @kmalloc _ _ size _ run =>
    rcases core.kmalloc_spec sound.idle sound.kmalloc size with ⟨k₁, run₁, keeps⟩ |
      ⟨k₁, v₁, obj, run₁, _, gains⟩
    all_goals obtain ⟨rfl, _⟩ := Prod.mk.inj (Except.ok.inj (run₁.symm.trans run))
    · exact .inl keeps.calm
    · exact .inl gains.calm
  | kFree isHeld run =>
    obtain ⟨k₁, v₁, run₁, loses⟩ := core.kFree_spec sound.idle ((same _).mp isHeld)
    obtain rfl := Except.ok.inj (run₁.symm.trans run)
    exact .inl loses.calm
  | @buddyAlloc _ _ pages order _ isOrder run =>
    by_cases zero : pages = 0
    · subst zero
      cases run
      exact .inl (Calm.refl k)
    rcases core.buddyAlloc_spec zero isOrder with run₁ | ⟨k₁, base, run₁, _, gains⟩
    all_goals obtain ⟨rfl, _⟩ := Prod.mk.inj (Except.ok.inj (run₁.symm.trans run))
    · exact .inl (Calm.refl k)
    · exact .inl gains.calm
  | buddyFree isHeld run =>
    obtain ⟨k₁, run₁, loses⟩ := core.buddyFree_spec ((same _).mp isHeld)
    obtain rfl := Except.ok.inj (run₁.symm.trans run)
    exact .inl loses.calm
  | shrink used run =>
    obtain ⟨k₁, v₁, run₁, shrunk⟩ := core.kmemCacheShrink_spec used
    obtain ⟨rfl, _⟩ := Prod.mk.inj (Except.ok.inj (run₁.symm.trans run))
    exact .inl shrunk.calm
  | @destroy _ _ c used run =>
    rcases core.kmemCacheDestroy_cases used (sound.idle c used) with ⟨error, run₁, _⟩ |
      ⟨k₁, v₁, run₁, dropped, _⟩
    all_goals obtain rfl := Except.ok.inj (run₁.symm.trans run)
    · exact .inl (core.setError c error).calm
    · exact .inr ⟨v, v₁, {c}, dropped.recast,
        fun d isGone used => ((dropped.used d).mp used).1 isGone⟩

/-- **A cache that stays in use keeps its layout.** -/
theorem Sound.sameShape (sound : Sound k held space blockNum) (call : AllocatorCall k held k' held')
    (used : k.Used c) (stays : k'.Used c) : KmemCache.SameShape (k.desc c) (k'.desc c) := by
  rcases sound.calm_or_recast call with calm | ⟨v, v', gone, recast, dropped⟩
  · exact .of_layout (calm.layout c)
  · exact (recast.kept c (fun isGone => dropped c isGone stays) used).2

/-- A client that writes inside what it holds. -/
theorem Sound.footprint_write (sound : Sound k held space blockNum) {mem : Mem}
    (outside : SameOutside (heldBytes held) k.mem mem) : Footprint k (k.setMem mem) ∅ := by
  obtain ⟨v, core, same⟩ := sound.view
  refine .of_written ⟨rfl, rfl, rfl, rfl, rfl⟩ ?_ (fun _ inNone => inNone.elim) outside
    fun _ _ => rfl
  rintro x ⟨a, isHeld, inside⟩
  exact core.slabs.bytes_sub ((same a).mp isHeld) inside

/-- A rejected free. -/
theorem OnlyError.footprint (only : OnlyError k k' c)
    (desc : ∀ d, ¬ k.InPool d → k'.desc d = k.desc d) (kept : Set Nat) :
    Footprint k k' kept := by
  have place : SamePlace k k' := by
    rcases only with rfl | ⟨code, rfl⟩ <;> exact ⟨rfl, rfl, rfl, rfl, rfl⟩
  exact .of_mem_eq place only.mem desc kept

/-! ### What an allocator depends on -/

/-- Descriptors outside the pool do not matter. -/
theorem Sound.redescribe (sound : Sound k held space blockNum) {desc : Nat → KmemCache}
    (same : ∀ c, k.InPool c → desc c = k.desc c) :
    Sound { k with desc := desc } held space blockNum := by
  obtain ⟨v, core, isLive⟩ := sound.view
  have usedIff : ∀ c, ({ k with desc := desc } : Kmem).Used c ↔ k.Used c := by
    intro c
    have flag : ∀ i < maxNumCaches, (desc (k.slot i)).isUsed = (k.desc (k.slot i)).isUsed :=
      fun i lt => by
      rw [same _ (k.slot_inPool lt)]
    constructor
    · rintro ⟨i, lt, rfl, on⟩
      exact ⟨i, lt, rfl, (flag i lt).symm.trans on⟩
    · rintro ⟨i, lt, rfl, on⟩
      exact ⟨i, lt, rfl, (flag i lt).trans on⟩
  have sameUsed : ∀ c, k.Used c → desc c = k.desc c := fun c used => same c used.inPool
  have sameShape : ∀ c, k.Used c → KmemCache.SameShape (k.desc c) (desc c) := by
    intro c used
    rw [sameUsed c used]
    exact .refl _
  have pool : PoolInv { k with desc := desc } v.caches := by
    refine core.pool.congr rfl rfl rfl usedIff fun c member => ?_
    have used := (core.pool.members c).mp member
    simp only [sameUsed c used, and_self]
  have buddy : ({ k with desc := desc } : Kmem).toBuddy = k.toBuddy := rfl
  have core' : Core { k with desc := desc } { v with caches := v.caches } := by
    refine core.redescribe buddy ?_ ?_ ?_ pool
    · intro s w isSlab
      have used := core.slabs.used s w isSlab
      exact ⟨(usedIff _).mpr used, sameShape _ used⟩
    · intro c used
      have before := (usedIff c).mp used
      refine .inl ⟨before, fun list => ?_⟩
      simp only [sameUsed c before]
    · intro c used
      have before := (usedIff c).mp used
      simp only [sameUsed c before]
      exact core.slabs.geometry c before
  refine ⟨⟨v, core', fun a => ?_⟩, sound.nodup, ?_, ?_,
    ⟨sound.placement.freeAreaAt, sound.placement.blockMetaAt,
    sound.placement.cachePool, sound.placement.before, sound.placement.aligned,
    sound.placement.blocks, sound.placement.inside, sound.placement.low⟩⟩
  · have sameLive : live { k with desc := desc } v.slabs = live k v.slabs :=
      live_redescribe buddy fun s w isSlab => sameShape _ (core.slabs.used s w isSlab)
    rw [sameLive, isLive]
  · intro c used
    have before := (usedIff c).mp used
    simp only [sameUsed c before]
    exact sound.idle c before
  · intro j lt
    obtain ⟨used, size⟩ := sound.kmalloc j lt
    refine ⟨(usedIff _).mpr used, ?_⟩
    simp only [sameUsed _ used]
    exact size

/-- **An allocator depends on nothing but its pool and the bytes of its region that nobody
holds.** -/
theorem Sound.elsewhere (sound : Sound k held space blockNum) {mem : Mem} {desc : Nat → KmemCache}
    (sameMem : ∀ x ∈ k.regionBytes, x ∉ heldBytes held → mem x = k.mem x)
    (sameDesc : ∀ c, k.InPool c → desc c = k.desc c) :
    Sound { k with mem := mem, desc := desc } held space blockNum := by
  have moved := sound.redescribe sameDesc
  generalize isK : ({ k with desc := desc } : Kmem) = k₁ at moved
  obtain ⟨v, core, same⟩ := moved.view
  have region : k₁.regionBytes = k.regionBytes := by rw [← isK]
  have before : k₁.mem = k.mem := by rw [← isK]
  have written : SameOutside {x | x ∉ k₁.regionBytes ∨ x ∈ heldBytes held} k₁.mem mem := by
    intro x outside
    rw [Set.mem_ofPred_eq, not_or, not_not, region] at outside
    rw [before]
    exact sameMem x outside.1 outside.2
  have apart : ∀ x, x ∉ k₁.regionBytes ∨ x ∈ heldBytes held → x ∉ spare k₁ v.slabs := by
    rintro x (outside | isHeld) inSpare
    · exact outside (core.slabs.spare_sub inSpare)
    · exact core.spare_not_held same x isHeld inSpare
  have quiet := k₁.setMem_quiet written
  have core' : Core (k₁.setMem mem) v := by
    refine core.frame quiet (fun _ _ => rfl) (fun x touched inFree => apart x touched (.inr inFree))
      ?_
    exact fun s c l isSlab x touched inHeader => apart x touched (.inl ⟨s, c, l, isSlab, inHeader⟩)
  obtain ⟨idle, kmalloc, placement⟩ := moved.calm quiet.calm
  have result : Sound (k₁.setMem mem) held space blockNum := by
    refine ⟨⟨v, core', fun a => ?_⟩, moved.nodup, idle, kmalloc, placement⟩
    rw [quiet.live, same]
  rw [← isK] at result
  exact result

end Kmem

end Xv6Slab
