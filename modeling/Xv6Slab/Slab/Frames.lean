/-
**What each function leaves alone, in every state.**

* `SameRegion` — the buddy allocator writes no page owner and does not move its region:
  `buddyAlloc_sameRegion`, `buddyFree_sameRegion`.
* The list operations, `kmem_cache_alloc`, `kmem_cache_free` and `kmem_cache_shrink` change the
  descriptor they are given and no other; `kmem_cache_create` changes descriptors of its pool only
  (`Pooled`).
-/

import Xv6Slab.Slab.Model
import Xv6Slab.Slab.Lists
import Xv6Slab.Buddy.Rep

namespace Xv6Slab

open Bytes

namespace Buddy

section Region

variable {b b' : Buddy}

theorem modifyMeta_sameRegion {idx : Int} {change : BlockMeta → BlockMeta}
    (run : b.modifyMeta idx change = .ok b') (owner : ∀ m, (change m).ownerSlab = m.ownerSlab) :
    SameRegion b b' := by
  unfold modifyMeta at run
  split_ifs at run
  obtain rfl := Except.ok.inj run
  exact b.setMeta_sameRegion idx.toNat _ (owner _)

theorem popFree_sameRegion {order blk : Nat} (run : b.popFree order = .ok (b', blk)) :
    SameRegion b b' := by
  unfold popFree at run
  simp only at run
  split_ifs at run
  · obtain ⟨rfl, _⟩ := Prod.mk.inj (Except.ok.inj run)
    exact SameRegion.refl b
  · obtain ⟨b₁, marked, rest⟩ := bind_eq_ok run
    obtain ⟨rfl, _⟩ := Prod.mk.inj (Except.ok.inj rest)
    have first : SameRegion b { b with
        freeArea := Function.update b.freeArea order (load b.mem (b.freeArea order) 8) } :=
      ⟨rfl, rfl, fun _ => rfl⟩
    exact first.trans (modifyMeta_sameRegion marked fun _ => rfl)
  · obtain ⟨rfl, _⟩ := Prod.mk.inj (Except.ok.inj run)
    exact ⟨rfl, rfl, fun _ => rfl⟩

theorem pushFree_sameRegion (b : Buddy) (order blk : Nat) : SameRegion b (b.pushFree order blk) :=
  ⟨rfl, rfl, fun _ => rfl⟩

theorem splitLoop_sameRegion {blk target : Nat} : ∀ (k : Nat) {b b' : Buddy},
    splitLoop blk target k b = .ok b' → SameRegion b b' := by
  intro k
  induction k with
  | zero =>
    intro b b' run
    obtain rfl := Except.ok.inj run
    exact SameRegion.refl b
  | succ k ih =>
    intro b b' run
    unfold splitLoop at run
    split_ifs at run
    · obtain ⟨b₁, marked, rest⟩ := bind_eq_ok run
      exact ((modifyMeta_sameRegion marked fun _ => rfl).trans (b₁.pushFree_sameRegion _ _)).trans
        (ih rest)
    · obtain rfl := Except.ok.inj run
      exact SameRegion.refl b

/-- **`buddy_alloc` writes no owner.** -/
theorem buddyAlloc_sameRegion {pages blk : Nat} (run : b.buddyAlloc pages = .ok (b', blk)) :
    SameRegion b b' := by
  unfold buddyAlloc at run
  by_cases none : pages = 0
  · rw [if_pos none] at run
    obtain ⟨rfl, _⟩ := Prod.mk.inj (Except.ok.inj run)
    exact SameRegion.refl b
  · rw [if_neg none] at run
    obtain ⟨target, _, run⟩ := bind_eq_ok run
    simp only at run
    split_ifs at run
    · obtain ⟨rfl, _⟩ := Prod.mk.inj (Except.ok.inj run)
      exact SameRegion.refl b
    · obtain ⟨rfl, _⟩ := Prod.mk.inj (Except.ok.inj run)
      exact SameRegion.refl b
    · obtain ⟨⟨b₁, p⟩, popped, run⟩ := bind_eq_ok run
      obtain ⟨b₂, marked, run⟩ := bind_eq_ok run
      obtain ⟨b₃, split, run⟩ := bind_eq_ok run
      obtain ⟨b₄, taken, run⟩ := bind_eq_ok run
      obtain ⟨rfl, _⟩ := Prod.mk.inj (Except.ok.inj run)
      exact (((popFree_sameRegion popped).trans (modifyMeta_sameRegion marked fun _ => rfl)).trans
        (splitLoop_sameRegion _ split)).trans (modifyMeta_sameRegion taken fun _ => rfl)

theorem removeLoop_sameRegion {order blk : Nat} {found : Bool} : ∀ (fuel prev cur : Nat),
    b.removeLoop order blk fuel prev cur = .ok (b', found) → SameRegion b b' := by
  intro fuel
  induction fuel with
  | zero =>
    intro prev cur run
    cases run
  | succ fuel ih =>
    intro prev cur run
    unfold removeLoop at run
    simp only at run
    split_ifs at run
    · obtain ⟨rfl, _⟩ := Prod.mk.inj (Except.ok.inj run)
      exact SameRegion.refl b
    · obtain ⟨rfl, _⟩ := Prod.mk.inj (Except.ok.inj run)
      exact ⟨rfl, rfl, fun _ => rfl⟩
    · obtain ⟨rfl, _⟩ := Prod.mk.inj (Except.ok.inj run)
      exact ⟨rfl, rfl, fun _ => rfl⟩
    · exact ih _ _ run

theorem mergeLoop_sameRegion : ∀ (fuel : Nat) {b : Buddy} {addr cur : Nat}
    {result : Buddy × Nat × Nat × MergeExit},
    mergeLoop fuel b addr cur = .ok result → SameRegion b result.1 := by
  intro fuel
  induction fuel with
  | zero =>
    intro b addr cur result run
    cases run
  | succ fuel ih =>
    intro b addr cur result run
    unfold mergeLoop at run
    by_cases more : cur < maxOrder
    · rw [if_pos more] at run
      simp only at run
      by_cases outside : b.addrToIndex (addr ^^^ (blockSize * 2 ^ cur)) < 0
      · rw [if_pos outside] at run
        obtain rfl := Except.ok.inj run
        exact SameRegion.refl b
      rw [if_neg outside] at run
      obtain ⟨_, run⟩ | ⟨_, run⟩ := ite_eq_iff.mp run
      · obtain ⟨⟨b₁, removed⟩, unlinked, run⟩ := bind_eq_ok run
        have first := removeLoop_sameRegion _ _ _ unlinked
        cases removed with
        | false =>
          obtain rfl := Except.ok.inj run
          exact first
        | true =>
          obtain ⟨b₂, marked, run⟩ := bind_eq_ok run
          exact (first.trans (modifyMeta_sameRegion marked fun _ => rfl)).trans (ih run)
      · obtain rfl := Except.ok.inj run
        exact SameRegion.refl b
    · rw [if_neg more] at run
      obtain rfl := Except.ok.inj run
      exact SameRegion.refl b

/-- **`buddy_free` writes no owner.** -/
theorem buddyFree_sameRegion {p : Nat} (run : b.buddyFree p = .ok b') : SameRegion b b' := by
  unfold buddyFree at run
  obtain ⟨⟨b₁, exit⟩, freed, run⟩ := bind_eq_ok run
  obtain rfl := Except.ok.inj run
  unfold buddyFreeExit at freed
  simp only at freed
  split_ifs at freed
  · obtain ⟨rfl, _⟩ := Prod.mk.inj (Except.ok.inj freed)
    exact SameRegion.refl b
  · obtain ⟨rfl, _⟩ := Prod.mk.inj (Except.ok.inj freed)
    exact SameRegion.refl b
  · obtain ⟨rfl, _⟩ := Prod.mk.inj (Except.ok.inj freed)
    exact SameRegion.refl b
  · obtain ⟨b₂, marked, freed⟩ := bind_eq_ok freed
    have first : SameRegion b b₂ := modifyMeta_sameRegion marked fun _ => rfl
    unfold buddyFreeOrder at freed
    split_ifs at freed
    · obtain ⟨rfl, _⟩ := Prod.mk.inj (Except.ok.inj freed)
      exact first
    · obtain ⟨⟨b₃, addr, cur, exit'⟩, merged, freed⟩ := bind_eq_ok freed
      obtain ⟨b₄, head, freed⟩ := bind_eq_ok freed
      obtain ⟨rfl, _⟩ := Prod.mk.inj (Except.ok.inj freed)
      exact ((first.trans (mergeLoop_sameRegion _ merged)).trans
        (modifyMeta_sameRegion head fun _ => rfl)).trans (b₄.pushFree_sameRegion _ _)

end Region

end Buddy

namespace Kmem

section Descriptors

variable {k : Kmem} {a c : Nat}

theorem slabListPushFront_desc_of_ne (ne : a ≠ c) (list : SlabList) (s : Nat) :
    (k.slabListPushFront c list s).desc a = k.desc a := by
  unfold slabListPushFront
  simp only
  rw [modifyDesc_of_ne _ _ ne]
  rfl

theorem slabListPopFront_desc_of_ne (ne : a ≠ c) (list : SlabList) :
    (k.slabListPopFront c list).1.desc a = k.desc a := by
  unfold slabListPopFront
  simp only
  by_cases null : (k.desc c).head list = 0
  · rw [if_pos null]
  · rw [if_neg null]
    simp only
    rw [modifyDesc_of_ne _ _ ne]
    rfl

/-- The heads of the other lists stay. -/
theorem slabListPopFront_head_of_ne {list list' : SlabList} (ne : list' ≠ list) (c : Nat) :
    ((k.slabListPopFront c list).1.desc c).head list' = (k.desc c).head list' := by
  unfold slabListPopFront
  simp only
  by_cases null : (k.desc c).head list = 0
  · rw [if_pos null]
  · rw [if_neg null]
    simp only [modifyDesc_self]
    exact KmemCache.head_setHead_of_ne _ _ ne

theorem slabListRemoveNode_desc_of_ne (ne : a ≠ c) (list : SlabList) (s : Nat) :
    (k.slabListRemoveNode c list s).desc a = k.desc a := by
  unfold slabListRemoveNode
  simp only
  by_cases first : slabPrev k.mem s ≠ 0
  · rw [if_pos first]
    rfl
  · rw [if_neg first]
    exact modifyDesc_of_ne k (fun d => d.setHead list (slabNext k.mem s)) ne

theorem slabAllocObj_desc (k : Kmem) (c s : Nat) : (k.slabAllocObj c s).1.desc = k.desc := by
  unfold slabAllocObj
  simp only
  split_ifs <;> rfl

theorem takeObject_desc_of_ne (ne : a ≠ c) (s : Nat) : (k.takeObject c s).1.desc a = k.desc a := by
  have before : (k.slabAllocObj c s).1.desc a = k.desc a := by rw [slabAllocObj_desc]
  unfold takeObject
  simp only
  split_ifs
  · rw [modifyDesc_of_ne _ _ ne]
    exact before
  · rw [slabListPushFront_desc_of_ne ne, slabListRemoveNode_desc_of_ne ne]
    exact before
  · exact before

/-! #### The buddy part -/

/-- Two states with the same buddy part but for memory. -/
def SameMeta (k k' : Kmem) : Prop := k'.toBuddy = { k.toBuddy with mem := k'.mem }

theorem SameMeta.trans {k' k'' : Kmem} (first : SameMeta k k') (second : SameMeta k' k'') :
    SameMeta k k'' := by
  unfold SameMeta at *
  rw [second, first]

theorem slabListPushFront_sameMeta (k : Kmem) (c : Nat) (list : SlabList) (s : Nat) :
    SameMeta k (k.slabListPushFront c list s) := rfl

theorem slabListPopFront_sameMeta (k : Kmem) (c : Nat) (list : SlabList) :
    SameMeta k (k.slabListPopFront c list).1 := by
  unfold slabListPopFront
  simp only
  by_cases null : (k.desc c).head list = 0
  · rw [if_pos null]
    rfl
  · rw [if_neg null]
    rfl

theorem slabListRemoveNode_sameMeta (k : Kmem) (c : Nat) (list : SlabList) (s : Nat) :
    SameMeta k (k.slabListRemoveNode c list s) := by
  unfold slabListRemoveNode
  simp only
  by_cases first : slabPrev k.mem s ≠ 0
  · rw [if_pos first]
    rfl
  · rw [if_neg first]
    rfl

theorem takeObject_sameMeta (k : Kmem) (c s : Nat) : SameMeta k (k.takeObject c s).1 := by
  have before : SameMeta k (k.slabAllocObj c s).1 := by
    unfold slabAllocObj
    simp only
    split_ifs <;> rfl
  unfold takeObject
  simp only
  split_ifs
  · exact before
  · exact (before.trans (slabListRemoveNode_sameMeta _ _ _ _)).trans
      (slabListPushFront_sameMeta _ _ _ _)
  · exact before

/-! #### Whole calls -/

section Calls

variable {k' : Kmem}

/-- The end of the slow path of `kmem_cache_alloc`, after the constructors. -/
theorem growEnd_desc_of_ne (ne : a ≠ c) {base pages obj : Nat} {head : Int}
    (run : (if (k.desc c).destroying then do
        let b ← k.toBuddy.setOwners head 0 pages
        let b ← b.buddyFree base
        return (k.setBuddy b, 0)
      else return (k.slabListPushFront c .partials base).takeObject c base) = (.ok (k', obj) :
        Except Fault (Kmem × Nat))) :
    k'.desc a = k.desc a := by
  split at run
  · obtain ⟨b, _, run⟩ := bind_eq_ok run
    obtain ⟨b', _, run⟩ := bind_eq_ok run
    cases run
    rfl
  · have result : ((k.slabListPushFront c .partials base).takeObject c base).1 = k' :=
      congrArg Prod.fst (Except.ok.inj run)
    rw [← result, takeObject_desc_of_ne ne, slabListPushFront_desc_of_ne ne]

theorem growCache_desc_of_ne (ne : a ≠ c) {obj : Nat} (run : k.growCache c = .ok (k', obj)) :
    k'.desc a = k.desc a := by
  unfold growCache at run
  obtain ⟨⟨b, base⟩, _, run⟩ := bind_eq_ok run
  dsimp only at run
  split at run
  · cases run
    exact modifyDesc_of_ne (k.setBuddy b) _ ne
  generalize header : initHeader (k.setBuddy b).mem c (k.desc c).objsPerSlab base = mem at run
  obtain ⟨b₁, _, run⟩ := bind_eq_ok run
  -- what `ctor` writes is memory
  cases isCtor : (k.desc c).ctor with
  | none =>
    rw [isCtor] at run
    exact growEnd_desc_of_ne (k := ((k.setBuddy b).setMem mem).setBuddy b₁) ne run
  | some ctor =>
    rw [isCtor] at run
    exact growEnd_desc_of_ne (k := (((k.setBuddy b).setMem mem).setBuddy b₁).setMem
      (runCtors (k.desc c) ctor b₁.mem base ((k.desc c).objsPerSlab % 2 ^ 16))) ne run

/-- **`kmem_cache_alloc` changes the descriptor of its cache and no other.** -/
theorem kmemCacheAlloc_desc_of_ne (ne : a ≠ c) {obj : Nat}
    (run : k.kmemCacheAlloc c = .ok (k', obj)) : k'.desc a = k.desc a := by
  unfold kmemCacheAlloc at run
  split at run
  · cases run
    rfl
  split at run
  · cases run
    rfl
  split at run
  · have result : (k.takeObject c (k.desc c).partialSlabs).1 = k' :=
      congrArg Prod.fst (Except.ok.inj run)
    rw [← result, takeObject_desc_of_ne ne]
  split at run
  · have popped : (k.slabListPopFront c .empty).1.desc a = k.desc a :=
      slabListPopFront_desc_of_ne ne .empty
    generalize k.slabListPopFront c .empty = pop at popped run
    have result : ((pop.1.slabListPushFront c .partials pop.2).takeObject c pop.2).1 = k' :=
      congrArg Prod.fst (Except.ok.inj run)
    rw [← result, takeObject_desc_of_ne ne, slabListPushFront_desc_of_ne ne, popped]
  · exact growCache_desc_of_ne ne run

/-- Moving a slab to another list of its cache, or not. -/
theorem move_desc_of_ne (ne : a ≠ c) (moves : Prop) [Decidable moves] (source target : SlabList)
    (s : Nat) :
    (if moves then (k.slabListRemoveNode c source s).slabListPushFront c target s else k).desc a =
    k.desc a := by
  split
  · rw [slabListPushFront_desc_of_ne ne, slabListRemoveNode_desc_of_ne ne]
  · rfl

/-- **`kmem_cache_free` changes the descriptor of its cache and no other.** -/
theorem kmemCacheFree_desc_of_ne (ne : a ≠ c) {obj : Nat} (run : k.kmemCacheFree c obj = .ok k') :
    k'.desc a = k.desc a := by
  unfold kmemCacheFree at run
  split at run
  · cases run
    rfl
  dsimp only at run
  split at run
  · cases run
    exact modifyDesc_of_ne k _ ne
  split at run
  · cases run
    rfl
  split at run
  · cases run
    exact modifyDesc_of_ne k _ ne
  split at run
  · cases run
    exact modifyDesc_of_ne k _ ne
  obtain ⟨k₁, freed, run⟩ := bind_eq_ok run
  obtain ⟨index, _, freed⟩ := bind_eq_ok freed
  have desc₁ : k₁.desc = k.desc := by rw [← Except.ok.inj freed]; rfl
  rw [← Except.ok.inj run, move_desc_of_ne ne, move_desc_of_ne ne, desc₁]

/-- `kmem_cache_shrink` changes the descriptor of its cache and no other. -/
theorem shrinkLoop_desc_of_ne (ne : a ≠ c) : ∀ (fuel : Nat) {k k' : Kmem} {freed freed' : Nat},
    shrinkLoop c fuel k freed = .ok (k', freed') → k'.desc a = k.desc a := by
  intro fuel
  induction fuel with
  | zero =>
    intro k k' freed freed' run
    cases run
  | succ fuel ih =>
    intro k k' freed freed' run
    unfold shrinkLoop at run
    have popped : (k.removeFromSlabList c .empty).1.desc a = k.desc a :=
      slabListPopFront_desc_of_ne ne .empty
    generalize k.removeFromSlabList c .empty = result at popped run
    obtain ⟨k₁, s⟩ := result
    dsimp only at run
    split at run
    · cases run
      exact popped
    · obtain ⟨b, _, run⟩ := bind_eq_ok run
      obtain ⟨b', _, run⟩ := bind_eq_ok run
      rw [ih run]
      exact popped

theorem kmemCacheShrink_desc_of_ne (ne : a ≠ c) {freed : Nat}
    (run : k.kmemCacheShrink c = .ok (k', freed)) : k'.desc a = k.desc a := by
  unfold kmemCacheShrink at run
  split at run
  · cases run
  · exact shrinkLoop_desc_of_ne ne _ run

end Calls

end Descriptors

/-! ### The cache pool -/

section Pool

variable {k k' : Kmem}

/-- An address is in the cache pool. -/
def InPool (k : Kmem) (c : Nat) : Prop :=
  k.cachePool ≤ c ∧ c < k.cachePool + maxNumCaches * descSize

/-- A change of descriptors in the pool, on an allocator whose list of caches is in the pool. -/
structure Pooled (k k' : Kmem) : Prop where
  buddy : k'.toBuddy = k.toBuddy
  freeAreaAt : k'.freeAreaAt = k.freeAreaAt
  blockMetaAt : k'.blockMetaAt = k.blockMetaAt
  cachePool : k'.cachePool = k.cachePool
  head : k'.headOfCacheList = 0 ∨ k'.InPool k'.headOfCacheList
  desc : ∀ c, ¬ k.InPool c → k'.desc c = k.desc c

namespace Pooled

variable {k₁ : Kmem} {c : Nat}

theorem refl (head : k.headOfCacheList = 0 ∨ k.InPool k.headOfCacheList) : Pooled k k :=
  ⟨rfl, rfl, rfl, rfl, head, fun _ _ => rfl⟩

theorem trans (first : Pooled k k₁) (second : Pooled k₁ k') : Pooled k k' where
  buddy := second.buddy.trans first.buddy
  freeAreaAt := second.freeAreaAt.trans first.freeAreaAt
  blockMetaAt := second.blockMetaAt.trans first.blockMetaAt
  cachePool := second.cachePool.trans first.cachePool
  head := second.head
  desc c outside := by
    rw [second.desc c (by unfold InPool; rw [first.cachePool]; exact outside), first.desc c outside]

theorem modifyDesc (pooled : Pooled k k₁) (inPool : k.InPool c) (change : KmemCache → KmemCache) :
    Pooled k (k₁.modifyDesc c change) where
  buddy := pooled.buddy
  freeAreaAt := pooled.freeAreaAt
  blockMetaAt := pooled.blockMetaAt
  cachePool := pooled.cachePool
  head := pooled.head
  desc a outside := by
    have ne : a ≠ c := by
      rintro rfl
      exact outside inPool
    exact (Function.update_of_ne ne ..).trans (pooled.desc a outside)

theorem setHead (pooled : Pooled k k₁) (inPool : k.InPool c) (tail : Nat) :
    Pooled k { k₁ with headOfCacheList := c, tailOfCacheList := tail } := by
  refine ⟨pooled.buddy, pooled.freeAreaAt, pooled.blockMetaAt, pooled.cachePool, .inr ?_,
    pooled.desc⟩
  unfold InPool
  simp only [pooled.cachePool]
  exact inPool

theorem addToCacheList (pooled : Pooled k k₁) (inPool : k.InPool c) :
    Pooled k (k₁.addToCacheList c) := by
  unfold Kmem.addToCacheList
  by_cases empty : k₁.headOfCacheList = 0
  · rw [if_pos empty]
    exact pooled.setHead inPool c
  · rw [if_neg empty]
    have headIn : k.InPool k₁.headOfCacheList := by
      have inside := pooled.head.resolve_left empty
      unfold InPool at inside ⊢
      rwa [pooled.cachePool] at inside
    exact ((pooled.modifyDesc headIn _).modifyDesc inPool _).setHead inPool _

end Pooled

theorem slot_inPool (k : Kmem) {index : Nat} (lt : index < maxNumCaches) :
    k.InPool (k.slot index) := by
  unfold InPool slot
  simp only [maxNumCaches, descSize] at *
  omega

/-- `kmem_cache_create` only writes in the pool. -/
theorem kmemCacheCreate_pooled (head : k.headOfCacheList = 0 ∨ k.InPool k.headOfCacheList)
    {size c : Nat} {ctor : Option (Mem → Nat → Mem)}
    (run : k.kmemCacheCreate size ctor = .ok (k', c)) : Pooled k k' := by
  unfold kmemCacheCreate at run
  cases found : k.findFreeCacheSlot with
  | none =>
    rw [found] at run
    cases run
    exact .refl head
  | some index =>
    have lt : index < maxNumCaches := by
      have member := List.mem_of_find?_eq_some found
      exact List.mem_range.mp member
    have inPool := k.slot_inPool lt
    rw [found] at run
    dsimp only at run
    split at run
    · cases run
    split at run
    · cases run
      exact ((Pooled.refl head).modifyDesc inPool _).modifyDesc inPool _
    · cases run
      exact (((Pooled.refl head).modifyDesc inPool _).modifyDesc inPool _).addToCacheList inPool

theorem Used.inPool {c : Nat} (used : k.Used c) : k.InPool c := by
  obtain ⟨i, lt, rfl, _⟩ := used
  exact k.slot_inPool lt

end Pool


end Kmem

end Xv6Slab
