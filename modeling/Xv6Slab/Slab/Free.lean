/-
**`kmem_cache_free`, `k_free` and the buddy calls of a client keep the invariant.**

* `SlabsInv.ownerOf_mem` — the page owner found for an address inside a slab is that slab.
* `Loses` — what a valid free changes: one allocation is no longer live.
* `Core.kmemCacheFree_spec` — **freeing a live object to its cache makes exactly it non-live.**
* `Core.buddyAlloc_spec`, `Core.buddyFree_spec` — blocks handed to clients and back.
* `Core.kFree_spec` — **`k_free` of any live allocation.**
-/

import Xv6Slab.Slab.Alloc
import Xv6Slab.Buddy.Free

namespace Xv6Slab

open Bytes Chains Tilings

theorem InCategory.unique {n free : Nat} (pos : 0 < n) {list list' : SlabList}
    (first : InCategory n free list) (second : InCategory n free list') : list = list' := by
  cases list <;> cases list' <;> simp only [InCategory] at first second <;> first | rfl | omega

namespace Kmem

variable {k k' k'' : Kmem} {v : View} {s c : Nat}

/-- A slab stands on the list of its category. -/
theorem Core.mem_list (core : Core k v) {l : List Nat} (isSlab : v.slabs s = some ⟨c, l⟩)
    {list : SlabList} (right : InCategory (k.desc c).objsPerSlab l.length list) :
    s ∈ v.lists c list := by
  obtain ⟨list', member⟩ := (core.listed s c).mp ⟨l, isSlab⟩
  have positive := (core.slabs.geometry c (core.slabs.used s _ isSlab)).objs_pos
  have same := (core.category c list' s l member isSlab).unique positive right
  exact same ▸ member

/-! ### Finding the slab of an address -/

/-- The page of an address in the managed region. -/
theorem pageAlignDown_page (region : k.toBuddy.Region) {a i : Nat} (low : k.page i ≤ a)
    (high : a < k.page i + 4096) : pageAlignDown a = k.page i := by
  have aligned := region.aligned
  unfold pageAlignDown
  simp only [Buddy.page] at *
  omega

/-- The page of an address inside a slab, and its owner. -/
theorem SlabsInv.owner_mem {slabs : Nat → Option SlabView} (inv : SlabsInv k slabs) {w : SlabView}
    (isSlab : slabs s = some w) {a : Nat}
    (inside : a ∈ Set.Ico s (s + (k.desc w.cache).slabBytes)) :
    ∃ j : Nat, k.addrToIndex (pageAlignDown a) = j ∧ (k.blockMeta j).ownerSlab = s := by
  obtain ⟨i, address, member, bytes⟩ := inv.slabBytes_eq isSlab
  rw [bytes] at inside
  obtain ⟨j, ⟨d, isBlock, covers⟩, low, high⟩ := inside
  have dMember : d ∈ k.allocBlocks := by
    rw [Set.mem_singleton_iff.mp isBlock]
    exact member
  have lt := inv.pool.tiling.lt_of_covers (Or.inr dMember) covers
  refine ⟨j, ?_, ?_⟩
  · rw [pageAlignDown_page inv.rep.region low high]
    exact Buddy.addrToIndex_page inv.rep.region lt
  · refine (inv.owner j lt s (inv.nonzero isSlab)).mpr ⟨w, isSlab, ?_⟩
    rw [bytes]
    exact ⟨j, ⟨d, isBlock, covers⟩, le_rfl, by omega⟩

/-- The owner that `kmem_cache_free` finds for an address inside a slab. -/
theorem SlabsInv.ownerOf_mem {slabs : Nat → Option SlabView} (inv : SlabsInv k slabs) {w : SlabView}
    (isSlab : slabs s = some w) {a : Nat}
    (inside : a ∈ Set.Ico s (s + (k.desc w.cache).slabBytes)) : k.ownerOf a = s := by
  obtain ⟨j, index, owner⟩ := inv.owner_mem isSlab inside
  unfold ownerOf
  simp only [index]
  rw [if_pos (Int.natCast_nonneg j), Int.toNat_natCast]
  exact owner

/-! ### Freeing an object -/

/-- A call that makes one live allocation non-live, and writes only spare bytes or its own. -/
structure Loses (k : Kmem) (v : View) (k' : Kmem) (v' : View) (a : Allocation) : Prop where
  core : Core k' v'
  caches : v'.caches = v.caches
  live : live k' v'.slabs = live k v.slabs \ {a}
  calm : Calm k k'
  mem : SameOutside (spare k v.slabs ∪ a.bytes) k.mem k'.mem

/-- Giving an index back to a slab makes exactly its object non-live. -/
theorem SlabsInv.live_give {slabs : Nat → Option SlabView} {x : Nat} {l : List Nat}
    (inv : SlabsInv k (Function.update slabs s (some ⟨c, x :: l⟩)))
    (isSlab : slabs s = some ⟨c, l⟩) :
    live k (Function.update slabs s (some ⟨c, x :: l⟩)) =
      live k slabs \ {.object c ((k.desc c).objAt s x) (k.desc c).objectSize} := by
  obtain ⟨taken, absent⟩ := inv.live_take (Function.update_self ..)
  have back :
      Function.update (Function.update slabs s (some ⟨c, x :: l⟩)) s (some ⟨c, l⟩) = slabs := by
    rw [Function.update_idem, ← isSlab, Function.update_eq_self]
  rw [back] at taken
  rw [taken]
  exact (Set.insert_sdiff_self_of_notMem absent).symm

/-- Another free list changes no header's place. -/
theorem headerArea_update (k : Kmem) {slabs : Nat → Option SlabView} {l : List Nat}
    (isSlab : slabs s = some ⟨c, l⟩) (l' : List Nat) :
    headerArea k (Function.update slabs s (some ⟨c, l'⟩)) = headerArea k slabs := by
  ext a
  constructor
  · intro inside
    obtain ⟨t, c', m, isSlab', range⟩ := inside
    by_cases eq : t = s
    · subst eq
      rw [Function.update_self, Option.some.injEq, SlabView.mk.injEq] at isSlab'
      exact ⟨t, c, l, isSlab, isSlab'.1 ▸ range⟩
    · rw [Function.update_of_ne eq] at isSlab'
      exact ⟨t, c', m, isSlab', range⟩
  · intro inside
    obtain ⟨t, c', m, isSlab', range⟩ := inside
    by_cases eq : t = s
    · subst eq
      rw [isSlab, Option.some.injEq, SlabView.mk.injEq] at isSlab'
      exact ⟨t, c, l', Function.update_self .., isSlab'.1 ▸ range⟩
    · exact ⟨t, c', m, by rw [Function.update_of_ne eq]; exact isSlab', range⟩

/-- The slab at hand, on the full or the partial list by what it was before, moves to the partial
list. -/
theorem Open.unfull (mid : Open k v s) {full : Prop} [Decidable full]
    (member : s ∈ v.lists c (if full then .full else .partials)) :
    ∃ k' v',
        (if full then (k.slabListRemoveNode c .full s).slabListPushFront c .partials s else k) =
        k' ∧ Open k' v' s ∧ s ∈ v'.lists c .partials ∧ v'.slabs = v.slabs ∧ v'.caches = v.caches ∧
      Quiet k k' (headerArea k v.slabs) := by
  by_cases was : full
  · rw [if_pos was] at member ⊢
    obtain ⟨moved, quiet⟩ := mid.move member .partials
    exact ⟨_, _, rfl, moved, Open.mem_moveLists .., rfl, rfl, quiet.mono mid.links_sub⟩
  · rw [if_neg was] at member ⊢
    exact ⟨k, v, rfl, mid, member, rfl, rfl, Quiet.refl _ _⟩

/-- The slab at hand, on the partial list after one of its objects was given back, moves on to the
empty list when it was the last one in use. -/
theorem Open.settle (mid : Open k v s) (member : s ∈ v.lists c .partials) {x : Nat} {l : List Nat}
    (isSlab : v.slabs s = some ⟨c, x :: l⟩) :
    ∃ k' v', (if slabInuse k.mem s = 0 then
          (k.slabListRemoveNode c .partials s).slabListPushFront c .empty s else k) = k' ∧
      Core k' v' ∧ v'.slabs = v.slabs ∧ v'.caches = v.caches ∧
      Quiet k k' (headerArea k v.slabs) := by
  have inuse := (mid.slabs.header s _ isSlab).inuse
  simp only [List.length_cons] at inuse
  by_cases idle : slabInuse k.mem s = 0
  · rw [if_pos idle]
    obtain ⟨moved, quiet⟩ := mid.move member .empty
    refine ⟨_, _, rfl, moved.close (Open.mem_moveLists ..) isSlab ?_, rfl, rfl,
      quiet.mono mid.links_sub⟩
    show (x :: l).length = _
    rw [quiet.objsPerSlab, List.length_cons]
    omega
  · rw [if_neg idle]
    refine ⟨k, v, rfl, mid.close member isSlab ⟨?_, ?_⟩, rfl, rfl, Quiet.refl _ _⟩ <;>
      rw [List.length_cons] <;> omega

/-- What `kmem_cache_free` does to the lists after it gave an object back to the slab. -/
def relist (k : Kmem) (c s : Nat) (wasFull : Prop) [Decidable wasFull] : Kmem :=
  let k := if wasFull then (k.slabListRemoveNode c .full s).slabListPushFront c .partials s else k
  if slabInuse k.mem s = 0 then (k.slabListRemoveNode c .partials s).slabListPushFront c
    .empty s else k

/-- What `kmem_cache_free` computes for an address whose page belongs to a slab of the cache that is
in use. -/
theorem Core.kmemCacheFree_eq (core : Core k v) {l : List Nat} (isSlab : v.slabs s = some ⟨c, l⟩)
    (active : (k.desc c).destroying = false) {p : Nat} (nonnull : p ≠ 0) (owner : k.ownerOf p = s)
    (busy : slabInuse k.mem s ≠ 0) :
    k.kmemCacheFree c p = (k.slabFreeObj c s p).map fun k₁ =>
      k₁.relist c s (slabInuse k.mem s = (k.desc c).objsPerSlab) := by
  have used := core.slabs.used s _ isSlab
  have nonzero := (core.pool.used_bounds used).1
  have sNonzero := core.slabs.nonzero isSlab
  have cache : slabCache k.mem s = c := (core.slabs.header s _ isSlab).cache
  unfold kmemCacheFree
  simp only [owner]
  rw [if_neg (not_or.mpr ⟨nonzero, nonnull⟩), if_neg sNonzero,
    if_neg (by rw [active]; exact Bool.false_ne_true), if_neg (not_not.mpr cache), if_neg busy]
  cases k.slabFreeObj c s p <;> rfl

/-- An object is given back to its slab: nothing but headers is written. -/
structure Gives (k : Kmem) (v : View) (c s x : Nat) (k' : Kmem) (v' : View) : Prop where
  slab : ∃ l, v.slabs s = some ⟨c, l⟩ ∧ x < (k.desc c).objsPerSlab ∧
    v'.slabs = Function.update v.slabs s (some ⟨c, x :: l⟩)
  quiet : Quiet k k' (headerArea k v.slabs)

/-- **`kmem_cache_free` of a live object to its cache makes exactly it non-live**, and writes
nothing but headers. -/
theorem Core.kmemCacheFree_gives (core : Core k v) (active : (k.desc c).destroying = false)
    {p size : Nat} (isLive : .object c p size ∈ live k v.slabs) :
    ∃ s x k' v', p = (k.desc c).objAt s x ∧ k.kmemCacheFree c p = .ok k' ∧ Gives k v c s x k' v' ∧
      Loses k v k' v' (.object c p size) := by
  obtain ⟨rfl, s, l, x, isSlab, lt, notFree, rfl⟩ := isLive
  have header := core.slabs.header s _ isSlab
  have fewer := header.length_lt lt notFree
  have inuse := header.inuse
  simp only at fewer inuse
  have busy : slabInuse k.mem s ≠ 0 := by omega
  have inside := core.slabs.objAt_mem isSlab lt
  have nonnull : (k.desc c).objAt s x ≠ 0 := by
    have sNonzero := core.slabs.nonzero isSlab
    unfold KmemCache.objAt
    omega
  rw [core.kmemCacheFree_eq isSlab active nonnull (core.slabs.ownerOf_mem isSlab inside) busy]
  obtain ⟨mem, call, _, same, given⟩ := (core.toOpen s).give isSlab lt notFree
  have isSlab' : Function.update v.slabs s (some ⟨c, x :: l⟩) s = some ⟨c, x :: l⟩ :=
    Function.update_self ..
  have quiet₁ : Quiet k (k.setMem mem) (headerArea k v.slabs) := by
    refine (k.setMem_quiet same).mono ?_
    intro a inInfo
    rcases inInfo with ⟨low, high⟩ | ⟨low, high⟩ <;> exact ⟨s, c, l, isSlab, by omega, by omega⟩
  have onList : s ∈ v.lists c
      (if slabInuse k.mem s = (k.desc c).objsPerSlab then .full else .partials) := by
    apply core.mem_list isSlab
    by_cases full : slabInuse k.mem s = (k.desc c).objsPerSlab
    · rw [if_pos full]
      show l.length = 0
      omega
    · rw [if_neg full]
      show 0 < l.length ∧ l.length < _
      omega
  obtain ⟨k₂, v₂, code₂, mid, member, slabs₂, caches₂, quiet₂⟩ := given.unfull onList
  have isSlab₂ : v₂.slabs s = some ⟨c, x :: l⟩ := by
    rw [slabs₂]
    exact isSlab'
  obtain ⟨k₃, v₃, code₃, core', slabs₃, caches₃, quiet₃⟩ := mid.settle member isSlab₂
  have slabsEq : v₃.slabs = Function.update v.slabs s (some ⟨c, x :: l⟩) := slabs₃.trans slabs₂
  have area : headerArea (k.setMem mem) (Function.update v.slabs s (some ⟨c, x :: l⟩)) =
      headerArea k v.slabs := (quiet₁.headerArea _).trans (k.headerArea_update isSlab _)
  rw [slabs₂, quiet₂.headerArea] at quiet₃
  simp only [area] at quiet₂ quiet₃
  have quiet := (quiet₁.trans quiet₂).trans quiet₃
  refine ⟨s, x, k₃, v₃, rfl, ?_, ⟨⟨l, isSlab, lt, slabsEq⟩, quiet⟩, core', caches₃.trans caches₂,
    ?_, quiet.calm, quiet.mem.mono fun a inside => Or.inl (Or.inl inside)⟩
  · unfold relist
    simp only [call, Except.map, code₂, code₃]
  · have final := core'.slabs
    rw [slabsEq] at final ⊢
    rw [final.live_give isSlab, quiet.live, quiet.objectSize, quiet.objAt]

theorem Core.kmemCacheFree_spec (core : Core k v) (active : (k.desc c).destroying = false)
    {p size : Nat} (isLive : .object c p size ∈ live k v.slabs) :
    ∃ k' v', k.kmemCacheFree c p = .ok k' ∧ Loses k v k' v' (.object c p size) := by
  obtain ⟨_, _, k', v', _, call, _, loses⟩ := core.kmemCacheFree_gives active isLive
  exact ⟨k', v', call, loses⟩

/-! ### Blocks of clients -/

/-- A step of the buddy allocator that leaves the blocks of slabs alone. -/
theorem Core.buddy (core : Core k v) {b : Buddy} {free alloc : Set Block} {touched : Set Nat}
    (effect : Buddy.Effect k.toBuddy b free alloc touched) (pool : Pool maxOrder k.num free alloc)
    (keeps : ∀ d ∈ k.allocBlocks, ¬ SlabsInv.NotSlab k d → d ∈ alloc)
    (notSlab : ∀ s w, v.slabs s = some w → ∀ a ∈ touched,
      a ∉ Set.Ico s (s + (k.desc w.cache).slabBytes)) : Core (k.setBuddy b) v where
  lists := by
    refine core.lists.frame effect.mem (fun _ => Iff.rfl) (fun _ _ => rfl) ?_
    intro a inTouched inLinks
    obtain ⟨t, ⟨c', list, member⟩, low, high⟩ := inLinks
    obtain ⟨l, isSlab⟩ := core.isSlab member
    have room := (core.slabs.geometry _ (core.slabs.used t _ isSlab)).header_lt
    exact notSlab t _ isSlab a inTouched ⟨by omega, by omega⟩
  slabs := core.slabs.buddy effect pool keeps notSlab
  pool := core.pool.setBuddy b
  listed := core.listed
  category := core.category

/-- **`buddy_alloc` for a client**: a new live block, or no change. -/
theorem Core.buddyAlloc_spec (core : Core k v) {size order : Nat} (positive : size ≠ 0)
    (isOrder : Buddy.orderForPages size = .ok order) :
    k.buddyAlloc size = .ok (k, 0) ∨
    ∃ k' base, k.buddyAlloc size = .ok (k', base) ∧ base ≠ 0 ∧
    Gains k v k' v (.block base order) := by
  rcases Buddy.buddyAlloc_spec core.slabs.rep core.slabs.pool positive isOrder with
    ⟨run, _⟩ | ⟨i, m, b, taken, _, _, run, effect, pool⟩
  · left
    unfold buddyAlloc
    rw [run]
    rfl
  · right
    have takenSub : k.span {⟨i, m⟩} ⊆ k.span k.freeBlocks :=
      Buddy.span_mono fun d same p covers => ⟨d, Set.mem_singleton_iff.mp same ▸ taken, covers⟩
    refine ⟨k.setBuddy b, k.page i, ?_, core.slabs.rep.region.page_pos.ne', ?_, rfl, ?_, ?_,
      Calm.of_buddy effect.same, ?_⟩
    · unfold buddyAlloc
      rw [run]
      rfl
    · refine core.buddy effect pool (fun d inAlloc _ => Or.inr inAlloc) ?_
      intro t w isSlab a inTouched inSlab
      exact core.slabs.not_free isSlab inSlab (takenSub inTouched)
    · exact live_alloc effect (core.slabs.owner_of_free taken (Block.covers_index _))
    · exact core.slabs.free_not_live taken order
    · exact effect.mem.mono (takenSub.trans Set.subset_union_right)

/-- **`buddy_free` of a live block makes exactly it non-live.** -/
theorem Core.buddyFree_spec (core : Core k v) {base order : Nat}
    (isLive : .block base order ∈ live k v.slabs) :
    ∃ k', k.buddyFree base = .ok k' ∧ Loses k v k' v (.block base order) := by
  obtain ⟨i, member, unowned, rfl⟩ := isLive
  obtain ⟨b, free', hand, exit, run, _, _, effect, pool⟩ :=
    Buddy.buddyFree_accepts core.slabs.rep core.slabs.pool member unowned
      fun d inFree => core.slabs.owner_of_free inFree d.covers_index
  have parts : k.span (insert ⟨i, order⟩ k.freeBlocks) ⊆
      k.span {⟨i, order⟩} ∪ k.span k.freeBlocks := by
    intro a inside
    obtain ⟨p, ⟨d, isBlock, covers⟩, range⟩ := inside
    rcases isBlock with rfl | inFree
    · exact Or.inl ⟨p, ⟨_, rfl, covers⟩, range⟩
    · exact Or.inr ⟨p, ⟨d, inFree, covers⟩, range⟩
  refine ⟨k.setBuddy b, ?_, ?_, rfl, live_free effect, Calm.of_buddy effect.same, ?_⟩
  · unfold buddyFree
    rw [Buddy.buddyFree_eq run]
    rfl
  · refine core.buddy effect pool ?_ ?_
    · intro d inAlloc isSlab
      refine ⟨inAlloc, ?_⟩
      intro same
      rw [Set.mem_singleton_iff.mp same] at isSlab
      exact isSlab unowned
    · intro t w isSlab a inTouched inSlab
      rcases parts inTouched with inBlock | inFree
      · exact core.slabs.notSlab_apart member unowned isSlab inBlock inSlab
      · exact core.slabs.not_free isSlab inSlab inFree
  · refine effect.mem.mono (parts.trans ?_)
    intro a inside
    rcases inside with inBlock | inFree
    · rw [Buddy.span_singleton] at inBlock
      exact Or.inr inBlock
    · exact Or.inl (Or.inr inFree)

/-- `k_free` of an object is `kmem_cache_free` to the cache of its slab. -/
theorem Core.kFree_object (core : Core k v) {p size : Nat}
    (isLive : .object c p size ∈ live k v.slabs) : k.Used c ∧ k.kFree p = k.kmemCacheFree c p := by
  obtain ⟨_, s, l, x, isSlab, lt, _, rfl⟩ := isLive
  obtain ⟨j, index, owner⟩ := core.slabs.owner_mem isSlab (core.slabs.objAt_mem isSlab lt)
  have cache : slabCache k.mem s = c := (core.slabs.header s _ isSlab).cache
  have notNeg : ¬ (j : Int) < 0 := by omega
  refine ⟨core.slabs.used s _ isSlab, ?_⟩
  unfold kFree
  simp only [index, Int.toNat_natCast, owner, cache]
  rw [if_neg notNeg, if_pos (core.slabs.nonzero isSlab)]

/-- `k_free` of a block is `buddy_free`: its first page has no slab. -/
theorem Core.kFree_block (core : Core k v) {base order : Nat}
    (isLive : .block base order ∈ live k v.slabs) : k.kFree base = k.buddyFree base := by
  obtain ⟨i, member, unowned, rfl⟩ := isLive
  have page : pageAlignDown (k.page i) = k.page i :=
    pageAlignDown_page core.slabs.rep.region le_rfl (by omega)
  have index : k.addrToIndex (k.page i) = i :=
    Buddy.addrToIndex_page core.slabs.rep.region (core.slabs.pool.index_lt_of_taken member)
  have notNeg : ¬ (i : Int) < 0 := by omega
  unfold kFree
  simp only [page, index, Int.toNat_natCast, unowned]
  rw [if_neg notNeg, if_neg (not_not.mpr rfl), if_neg (not_not.mpr rfl)]

/-- **`k_free` of a live allocation makes exactly it non-live**, whatever it is. -/
theorem Core.kFree_spec (core : Core k v) (idle : k.Idle) {a : Allocation}
    (isLive : a ∈ live k v.slabs) :
    ∃ k' v', k.kFree a.base = .ok k' ∧ Loses k v k' v' a := by
  cases a with
  | object c p size =>
    obtain ⟨used, same⟩ := core.kFree_object isLive
    obtain ⟨k', v', call, loses⟩ := core.kmemCacheFree_spec (idle c used) isLive
    exact ⟨k', v', same.trans call, loses⟩
  | block base order =>
    obtain ⟨k', call, loses⟩ := core.buddyFree_spec isLive
    exact ⟨k', v, (core.kFree_block isLive).trans call, loses⟩

end Kmem

end Xv6Slab
