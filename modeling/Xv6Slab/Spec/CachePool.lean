/-
**The cache pool and the cache list.**

* `PoolRep` — the list from `head_of_cache_list` holds exactly the used descriptors of the pool,
  doubly linked, with `tail_of_cache_list` at its end.
* `Acceptable` — the sizes for which `kmem_cache_create` finds a slab layout.
* `PoolRun` — runs in which a descriptor may also be destroyed when it is no longer in use.
* `run_poolRep` — **in every reachable state the pool and the list agree, and a create of an
  acceptable size succeeds while a descriptor is unused.**
-/

import Xv6Slab.Slab.Invariant

namespace Xv6Slab

open Bytes Chains

namespace Kmem

/-- The cache list, as the descriptors that it visits. -/
structure PoolRep (k : Kmem) (caches : List Nat) : Prop where
  /-- `next` leads from the head through the list to null, and `prev` back. -/
  linked : Linked (fun c => (k.desc c).next) (fun c => (k.desc c).prev) 0 0 k.headOfCacheList caches
  /-- It visits exactly the used descriptors of the pool. -/
  members : ∀ c, c ∈ caches ↔ ∃ i < maxNumCaches, c = k.slot i ∧ (k.desc c).isUsed = true
  once : caches.Nodup
  tail : k.tailOfCacheList = caches.getLast?.getD 0
  /-- Both ends are null exactly when it is empty. -/
  headNull : k.headOfCacheList = 0 ↔ caches = []
  tailNull : k.tailOfCacheList = 0 ↔ caches = []

/-- `kmem_cache_create` finds a slab order at which enough objects fit. -/
def Acceptable (size : Nat) : Prop :=
  objectSizeFor size ≠ 0 ∧
    layoutLoop (objectSizeFor size) (minObjsFor (objectSizeFor size)) (maxSlabOrder + 1) 0 ≠ none

section Reached

variable {k k₀ : Kmem} {held : List Allocation} {space : Nat} {blockNum : Int} {isKernel : Bool}
  {caches : List Nat}

theorem PoolInv.poolRep (inv : PoolInv k caches) : PoolRep k caches := by
  have nonzero : ∀ c ∈ caches, c ≠ 0 := by
    intro c member
    exact (inv.used_bounds ((inv.members c).mp member)).1
  refine ⟨inv.linked, inv.members, inv.linked.chain.nodup, inv.tail, ?_, ?_⟩
  · constructor
    · intro null
      have chain := inv.linked.chain
      rw [null] at chain
      cases chain with
      | nil => rfl
      | cons fresh _ => exact absurd rfl fresh
    · rintro rfl
      exact inv.linked.stop_of_nil
  · constructor
    · intro null
      cases last : caches.getLast? with
      | none => exact List.getLast?_eq_none_iff.mp last
      | some c =>
        have tail := inv.tail
        rw [last, Option.getD_some, null] at tail
        exact absurd tail.symm (nonzero c (List.mem_of_getLast? last))
    · rintro rfl
      exact inv.tail

/-- A create of an acceptable size takes the first unused descriptor. -/
theorem PoolInv.create_succeeds (inv : PoolInv k caches) (few : caches.length < maxNumCaches)
    {size : Nat} (acceptable : Acceptable size) (ctor : Option (Mem → Nat → Mem)) :
    ∃ k' c, k.kmemCacheCreate size ctor = .ok (k', c) ∧ c ≠ 0 := by
  obtain ⟨index, found⟩ := inv.exists_free_slot few
  obtain ⟨⟨order, n, offset⟩, layout⟩ := Option.ne_none_iff_exists'.mp acceptable.2
  have nonzero : k.slot index ≠ 0 := by
    have pos := inv.pos
    unfold slot
    omega
  unfold kmemCacheCreate
  simp only [found, layout, if_neg acceptable.1]
  exact ⟨_, _, rfl, nonzero⟩

/-- The search of `remove_from_cache_list` runs off the list when the descriptor is not on it. -/
theorem findInCacheList_absent {c start : Nat} {l : List Nat}
    (chain : Chain (fun c => (k.desc c).next) 0 start l) (absent : c ∉ l) :
    ∀ fuel, l.length < fuel → k.findInCacheList c fuel start = .ok 0 := by
  induction chain with
  | nil =>
    intro fuel enough
    obtain ⟨fuel, rfl⟩ := Nat.exists_eq_succ_of_ne_zero (Nat.ne_zero_of_lt enough)
    unfold findInCacheList
    rw [if_pos (Or.inl rfl)]
  | @cons a l fresh rest ih =>
    intro fuel enough
    obtain ⟨fuel, rfl⟩ := Nat.exists_eq_succ_of_ne_zero (Nat.ne_zero_of_lt enough)
    rw [List.length_cons] at enough
    rw [List.mem_cons, not_or] at absent
    unfold findInCacheList
    rw [if_neg (not_or.mpr ⟨fresh, Ne.symm absent.1⟩)]
    exact ih absent.2 fuel (by omega)

end Reached

/-! ### Destroying a descriptor again -/

section Again

variable {k k' k₀ : Kmem} {v : View} {held : List Allocation} {space c : Nat} {blockNum : Int}
  {isKernel : Bool}

/-- A descriptor as `kmem_cache_destroy` leaves it: not in use, and without slabs. -/
structure Spent (k : Kmem) (c : Nat) : Prop where
  isSlot : ∃ i < maxNumCaches, c = k.slot i
  unused : (k.desc c).isUsed = false
  noSlabs : ∀ list, (k.desc c).head list = 0

/-- A change to the fields of a spent descriptor, other than `is_used`. -/
theorem Core.spent (core : Core k v) (spent : k.Spent c) {change : KmemCache → KmemCache}
    (stays : (change (k.desc c)).isUsed = false) : Recast ∅ k v (k.modifyDesc c change) v := by
  obtain ⟨i, lt, isSlot⟩ := spent.isSlot
  have unused : ¬ k.Used c := by
    rintro ⟨_, _, _, on⟩
    rw [spent.unused] at on
    cases on
  have usedIff : ∀ a, (k.modifyDesc c change).Used a ↔ k.Used a := by
    intro a
    rw [used_modifyDesc lt isSlot change, stays]
    refine ⟨fun either => (either.resolve_left (fun off => Bool.noConfusion off.2)).2,
      fun used => ?_⟩
    exact Or.inr ⟨fun eq => unused (eq ▸ used), used⟩
  have pool : PoolInv (k.modifyDesc c change) v.caches := by
    refine core.pool.congr rfl rfl rfl usedIff ?_
    intro a member
    have ne : a ≠ c := fun eq => unused (eq ▸ (core.pool.members a).mp member)
    rw [modifyDesc_of_ne _ _ ne]
    exact ⟨rfl, rfl⟩
  refine core.describe lt isSlot unused (Relinked.refl _) (fun on => ?_) pool
  rw [stays] at on
  cases on

/-- **`kmem_cache_destroy` of a spent descriptor** writes only its fields: it is not on the list any
more. -/
theorem Core.destroySpent (core : Core k v) (spent : k.Spent c) :
    ∃ k', k.kmemCacheDestroy c = .ok k' ∧ Recast ∅ k v k' v := by
  obtain ⟨i, lt, isSlot⟩ := spent.isSlot
  have nonzero : c ≠ 0 := by
    have pos := core.pool.pos
    unfold slot at isSlot
    omega
  have absent : c ∉ v.caches := by
    intro member
    obtain ⟨_, _, _, on⟩ := (core.pool.members c).mp member
    rw [spent.unused] at on
    cases on
  have noEmpty : (k.desc c).emptySlabs = 0 := spent.noSlabs .empty
  have noPartial : (k.desc c).partialSlabs = 0 := spent.noSlabs .partials
  have noFull : (k.desc c).fullSlabs = 0 := spent.noSlabs .full
  have flagged : Recast ∅ k v (k.modifyDesc c fun d => { d with destroying := true }) v :=
    core.spent spent spent.unused
  have shrunk : (k.modifyDesc c fun d => { d with destroying := true }).kmemCacheShrink c =
      .ok (k.modifyDesc c fun d => { d with destroying := true }, 0) := by
    unfold kmemCacheShrink shrinkLoop removeFromSlabList slabListPopFront
    rw [if_neg nonzero]
    simp only [modifyDesc_self, KmemCache.head, noEmpty, if_true]
  have removed : (k.modifyDesc c fun d => { d with destroying := true }).removeFromCacheList c =
      .ok (k.modifyDesc c fun d => { d with destroying := true }) := by
    have few := flagged.core.pool.length_le
    unfold removeFromCacheList
    rw [findInCacheList_absent flagged.core.pool.linked.chain absent _ (Nat.lt_succ_of_le few)]
    rfl
  unfold kmemCacheDestroy
  rw [if_neg nonzero]
  by_cases isKmalloc : ((List.range kmallocNumCaches).any fun i => k.kmallocCaches i == c) = true
  · rw [if_pos isKmalloc]
    exact ⟨_, rfl, core.spent spent spent.unused⟩
  · rw [if_neg isKmalloc]
    simp only [modifyDesc_self, noPartial, noFull, ne_eq, not_true_eq_false, or_self, if_false]
    refine ⟨k.modifyDesc c fun d => cleared { d with destroying := true }, ?_, core.spent spent rfl⟩
    rw [shrunk]
    show (Kmem.removeFromCacheList _ c >>= _) = _
    rw [removed]
    exact congrArg Except.ok (modifyDesc_modifyDesc k c _ _)

theorem Sound.destroySpent (sound : Sound k held space blockNum) (spent : k.Spent c)
    (call : k.kmemCacheDestroy c = .ok k') : Sound k' held space blockNum := by
  obtain ⟨v, core, same⟩ := sound.view
  obtain ⟨k₁, run, recast⟩ := core.destroySpent spent
  rw [run, Except.ok.injEq] at call
  subst call
  exact sound.recast same recast fun _ _ => Set.notMem_empty _

/-- Runs in which a descriptor may also be destroyed when it is not in use any more. -/
inductive PoolRun (k₀ : Kmem) (space : Nat) (blockNum : Int) (isKernel : Bool) :
    Kmem → List Allocation → Prop
  | run {k : Kmem} {held : List Allocation} :
      Run k₀ space blockNum isKernel k held → PoolRun k₀ space blockNum isKernel k held
  | call {k k' : Kmem} {held held' : List Allocation} :
      PoolRun k₀ space blockNum isKernel k held → Call k held k' held' →
      PoolRun k₀ space blockNum isKernel k' held'
  | destroySpent {k k' : Kmem} {held : List Allocation} {c : Nat} :
      PoolRun k₀ space blockNum isKernel k held → k.Spent c → k.kmemCacheDestroy c = .ok k' →
      PoolRun k₀ space blockNum isKernel k' held

theorem PoolRun.sound (given : Space space blockNum) (head : k₀.headOfCacheList = 0)
    (tail : k₀.tailOfCacheList = 0) (run : PoolRun k₀ space blockNum isKernel k held) :
    Sound k held space blockNum := by
  induction run with
  | run run => exact run.sound given head tail
  | call _ call ih => exact ih.call call
  | destroySpent _ spent call ih => exact ih.destroySpent spent call

/-- **In every reachable state the cache list holds exactly the used descriptors, and a create of an
acceptable size succeeds whenever fewer than `MAX_NUM_CACHES` are in use.** -/
theorem run_poolRep (given : Space space blockNum) (head : k₀.headOfCacheList = 0)
    (tail : k₀.tailOfCacheList = 0) (run : PoolRun k₀ space blockNum isKernel k held) :
    ∃ caches, PoolRep k caches ∧ (caches.length < maxNumCaches → ∀ size, Acceptable size →
      ∀ ctor, ∃ k' c, k.kmemCacheCreate size ctor = .ok (k', c) ∧ c ≠ 0) := by
  obtain ⟨v, core, _⟩ := (run.sound given head tail).view
  exact ⟨v.caches, core.pool.poolRep, fun few _ acceptable ctor =>
    core.pool.create_succeeds few acceptable ctor⟩

theorem run_poolRep_sixteenPages : ∃ k a, PoolRun zeroed 4096 16 false k [a] ∧
    ∃ caches, PoolRep k caches ∧ (caches.length < maxNumCaches → ∀ size, Acceptable size →
      ∀ ctor, ∃ k' c, k.kmemCacheCreate size ctor = .ok (k', c) ∧ c ≠ 0) := by
  obtain ⟨k, a, run⟩ := exists_run_kmalloc
  exact ⟨k, a, .run run, run_poolRep space_sixteenPages rfl rfl (.run run)⟩

end Again

end Kmem

end Xv6Slab
