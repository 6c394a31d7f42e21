/-
**The slabs of an allocator.**

`SlabsInv k slabs` says that `slabs` names exactly the slabs of the allocator, each with its cache
and its free indices:

* `header` — the header of each slab agrees with its view;
* `placed` — a slab is an allocated block of the buddy allocator, of the order of its cache;
* `owner` — a page is owned by a slab exactly when it is one of the slab's pages.

`SlabsInv.transfer` moves the invariant to a state whose headers may have changed, `SlabsInv.buddy`
to one whose buddy part has changed; the object operations are `SlabsInv.allocObj` and
`SlabsInv.freeObj`.
-/

import Xv6Slab.Slab.Headers

namespace Xv6Slab

open Bytes Chains Tilings

namespace Kmem

/-- The slabs of the allocator are those of `slabs`. -/
structure SlabsInv (k : Kmem) (slabs : Nat → Option SlabView) : Prop where
  rep : k.toBuddy.Rep k.freeBlocks k.allocBlocks
  pool : Pool maxOrder k.num k.freeBlocks k.allocBlocks
  geometry : ∀ c, k.Used c → (k.desc c).Geometry
  used : ∀ s v, slabs s = some v → k.Used v.cache
  header : ∀ s v, slabs s = some v → Header k.mem s v (k.desc v.cache).objsPerSlab
  placed : ∀ s v, slabs s = some v →
    ∃ i, s = k.page i ∧ ⟨i, (k.desc v.cache).slabOrder⟩ ∈ k.allocBlocks
  owner : ∀ i < k.num, ∀ s, s ≠ 0 → ((k.blockMeta i).ownerSlab = s ↔
    ∃ v, slabs s = some v ∧ k.page i ∈ Set.Ico s (s + (k.desc v.cache).slabBytes))

namespace SlabsInv

variable {k k' : Kmem} {slabs slabs' : Nat → Option SlabView} {s t : Nat} {v w : SlabView}

/-! ### Where slabs lie -/

theorem nonzero (inv : SlabsInv k slabs) (isSlab : slabs s = some v) : s ≠ 0 := by
  obtain ⟨i, rfl, _⟩ := inv.placed s v isSlab
  exact inv.rep.region.page_pos.ne'

theorem paged (inv : SlabsInv k slabs) (isSlab : slabs s = some v) : s % 4096 = 0 := by
  obtain ⟨i, rfl, _⟩ := inv.placed s v isSlab
  have := inv.rep.region.aligned
  unfold Buddy.page
  omega

/-- The bytes of a slab are those of its block. -/
theorem slabBytes_eq (inv : SlabsInv k slabs) (isSlab : slabs s = some v) :
    ∃ i, s = k.page i ∧ ⟨i, (k.desc v.cache).slabOrder⟩ ∈ k.allocBlocks ∧
      Set.Ico s (s + (k.desc v.cache).slabBytes) =
        k.span {⟨i, (k.desc v.cache).slabOrder⟩} := by
  obtain ⟨i, rfl, member⟩ := inv.placed s v isSlab
  exact ⟨i, rfl, member, (Buddy.span_singleton _ _ _).symm⟩

theorem fits (inv : SlabsInv k slabs) (isSlab : slabs s = some v) :
    s + (k.desc v.cache).slabBytes ≤ k.managedStart + k.num * 4096 := by
  obtain ⟨i, rfl, member⟩ := inv.placed s v isSlab
  have inside := inv.pool.tiling.inside _ (Or.inr member)
  unfold KmemCache.slabBytes Buddy.page
  simp only at inside
  omega

theorem small (inv : SlabsInv k slabs) (isSlab : slabs s = some v) :
    s + (k.desc v.cache).slabBytes ≤ 2 ^ 64 :=
  (inv.fits isSlab).trans inv.rep.region.fits

/-- The bytes of a slab are not in a free block. -/
theorem not_free (inv : SlabsInv k slabs) (isSlab : slabs s = some v) {a : Nat}
    (inside : a ∈ Set.Ico s (s + (k.desc v.cache).slabBytes)) : a ∉ k.span k.freeBlocks := by
  obtain ⟨i, _, member, same⟩ := inv.slabBytes_eq isSlab
  rw [same] at inside
  refine Buddy.span_apart inv.pool.tiling ?_ Set.subset_union_left ?_ inside
  · exact Set.singleton_subset_iff.mpr (Or.inr member)
  · intro c eq inFree
    exact inv.pool.disjoint c inFree (eq ▸ member)

/-- Two slabs do not overlap. -/
theorem apart (inv : SlabsInv k slabs) (first : slabs s = some v) (second : slabs t = some w)
    (ne : s ≠ t) {a : Nat} (inside : a ∈ Set.Ico s (s + (k.desc v.cache).slabBytes)) :
    a ∉ Set.Ico t (t + (k.desc w.cache).slabBytes) := by
  obtain ⟨i, iEq, iMember, iBytes⟩ := inv.slabBytes_eq first
  obtain ⟨j, jEq, jMember, jBytes⟩ := inv.slabBytes_eq second
  rw [iBytes] at inside
  rw [jBytes]
  refine Buddy.span_apart inv.pool.tiling ?_ ?_ ?_ inside
  · exact Set.singleton_subset_iff.mpr (Or.inr iMember)
  · exact Set.singleton_subset_iff.mpr (Or.inr jMember)
  · intro c eq eq'
    have same : i = j := by
      have := (Set.mem_singleton_iff.mp eq).symm.trans (Set.mem_singleton_iff.mp eq')
      exact congrArg Block.index this
    exact ne (by rw [iEq, jEq, same])

theorem infoBytes_sub (inv : SlabsInv k slabs) (isSlab : slabs s = some v) :
    infoBytes s (k.desc v.cache).objsPerSlab ⊆ Set.Ico s (s + (k.desc v.cache).slabBytes) := by
  have header := (inv.geometry _ (inv.used s v isSlab)).header_lt
  intro a inside
  rcases inside with ⟨low, high⟩ | ⟨low, high⟩
  · exact ⟨low, by omega⟩
  · exact ⟨by omega, by omega⟩

/-! ### Transfer to another state -/

/-- Headers may change, and memory outside free blocks. -/
theorem transfer (inv : SlabsInv k slabs) {touched : Set Nat} (quiet : Quiet k k' touched)
    (notFree : ∀ a ∈ touched, a ∉ k.span k.freeBlocks)
    (caches : ∀ s, (slabs' s).map SlabView.cache = (slabs s).map SlabView.cache)
    (headers : ∀ s v, slabs' s = some v → Header k'.mem s v (k.desc v.cache).objsPerSlab) :
    SlabsInv k' slabs' := by
  have before : ∀ s v, slabs' s = some v → ∃ w, slabs s = some w ∧ w.cache = v.cache := by
    intro s v isSlab
    have same := caches s
    rw [isSlab] at same
    cases old : slabs s with
    | none =>
      rw [old] at same
      cases same
    | some w =>
      rw [old] at same
      exact ⟨w, rfl, (Option.some.inj same).symm⟩
  have after : ∀ s v, slabs s = some v → ∃ w, slabs' s = some w ∧ w.cache = v.cache := by
    intro s v isSlab
    have same := caches s
    rw [isSlab] at same
    cases new : slabs' s with
    | none =>
      rw [new] at same
      cases same
    | some w =>
      rw [new] at same
      exact ⟨w, rfl, Option.some.inj same⟩
  refine ⟨?_, ?_, ?_, ?_, ?_, ?_, ?_⟩
  · rw [quiet.freeBlocks, quiet.allocBlocks]
    exact quiet.rep inv.rep notFree
  · rw [quiet.freeBlocks, quiet.allocBlocks, quiet.num]
    exact inv.pool
  · intro c used
    rw [quiet.used_iff] at used
    exact (KmemCache.SameShape.of_layout (quiet.layout c)).geometry (inv.geometry c used)
  · intro s v isSlab
    obtain ⟨w, old, same⟩ := before s v isSlab
    rw [quiet.used_iff, ← same]
    exact inv.used s w old
  · intro s v isSlab
    rw [quiet.objsPerSlab]
    exact headers s v isSlab
  · intro s v isSlab
    obtain ⟨w, old, same⟩ := before s v isSlab
    obtain ⟨i, address, member⟩ := inv.placed s w old
    refine ⟨i, by rw [quiet.page]; exact address, ?_⟩
    rw [quiet.allocBlocks, quiet.slabOrder, ← same]
    exact member
  · intro i lt s nonzero
    rw [quiet.num] at lt
    rw [quiet.blockMeta, inv.owner i lt s nonzero]
    simp only [quiet.slabBytes, quiet.page]
    constructor
    · intro owned
      obtain ⟨v, old, range⟩ := owned
      obtain ⟨w, new, same⟩ := after s v old
      exact ⟨w, new, by rw [same]; exact range⟩
    · intro owned
      obtain ⟨v, new, range⟩ := owned
      obtain ⟨w, old, same⟩ := before s v new
      exact ⟨w, old, by rw [same]; exact range⟩

/-- A quiet step outside free blocks and headers. -/
theorem frame (inv : SlabsInv k slabs) {touched : Set Nat} (quiet : Quiet k k' touched)
    (notFree : ∀ a ∈ touched, a ∉ k.span k.freeBlocks)
    (notInfo : ∀ s v, slabs s = some v → ∀ a ∈ touched,
      a ∉ infoBytes s (k.desc v.cache).objsPerSlab) : SlabsInv k' slabs :=
  inv.transfer quiet notFree (fun _ => rfl) fun s v isSlab =>
    (inv.header s v isSlab).frame quiet.mem (notInfo s v isSlab)

/-- A quiet step inside one slab that leaves it with a header for a new view. -/
theorem update (inv : SlabsInv k slabs) (isSlab : slabs s = some v) {touched : Set Nat}
    (quiet : Quiet k k' touched)
    (inside : ∀ a ∈ touched, a ∈ Set.Ico s (s + (k.desc v.cache).slabBytes))
    (cache : w.cache = v.cache) (header : Header k'.mem s w (k.desc v.cache).objsPerSlab) :
    SlabsInv k' (Function.update slabs s (some w)) := by
  refine inv.transfer quiet (fun a inTouched => inv.not_free isSlab (inside a inTouched)) ?_ ?_
  · intro t
    by_cases eq : t = s
    · subst eq
      rw [Function.update_self, isSlab, Option.map_some, Option.map_some, cache]
    · rw [Function.update_of_ne eq]
  · intro t u isSlab'
    by_cases eq : t = s
    · subst eq
      rw [Function.update_self, Option.some.injEq] at isSlab'
      subst isSlab'
      rw [cache]
      exact header
    · rw [Function.update_of_ne eq] at isSlab'
      apply (inv.header t u isSlab').frame quiet.mem
      intro a inTouched inInfo
      exact inv.apart isSlab isSlab' (Ne.symm eq) (inside a inTouched)
        (inv.infoBytes_sub isSlab' inInfo)

/-- The link words of slabs are in no free block and in no other part of a header. -/
theorem frame_links (inv : SlabsInv k slabs) {linked : Set Nat}
    (quiet : Quiet k k' (linkBytes linked)) (areSlabs : ∀ s ∈ linked, ∃ v, slabs s = some v) :
    SlabsInv k' slabs := by
  have inside : ∀ a ∈ linkBytes linked, ∃ s v, slabs s = some v ∧ s + 16 ≤ a ∧ a < s + 32 ∧
      a ∈ Set.Ico s (s + (k.desc v.cache).slabBytes) := by
    intro a inLinks
    obtain ⟨s, member, low, high⟩ := inLinks
    obtain ⟨v, isSlab⟩ := areSlabs s member
    have header := (inv.geometry _ (inv.used s v isSlab)).header_lt
    exact ⟨s, v, isSlab, low, high, by omega, by omega⟩
  refine inv.frame quiet ?_ ?_
  · intro a inLinks
    obtain ⟨s, v, isSlab, _, _, range⟩ := inside a inLinks
    exact inv.not_free isSlab range
  · intro t w isSlab' a inLinks inInfo
    obtain ⟨s, v, isSlab, low, high, range⟩ := inside a inLinks
    by_cases eq : s = t
    · subst eq
      rcases inInfo with ⟨_, before⟩ | ⟨after, _⟩ <;> omega
    · exact inv.apart isSlab isSlab' eq range (inv.infoBytes_sub isSlab' inInfo)

/-! ### Object operations -/

theorem objPtr_eq (inv : SlabsInv k slabs) (isSlab : slabs s = some v) {x : Nat}
    (lt : x < (k.desc v.cache).objsPerSlab) :
    slabObjPtr (k.desc v.cache) s x = (k.desc v.cache).objAt s x := by
  have geometry := inv.geometry _ (inv.used s v isSlab)
  have bound := geometry.objAt_le s lt
  have size := geometry.objectSize_ge
  have small := inv.small isSlab
  exact Nat.mod_eq_of_lt (by unfold KmemCache.objAt at bound; omega)

theorem objIndex_eq (inv : SlabsInv k slabs) (isSlab : slabs s = some v) {x : Nat}
    (lt : x < (k.desc v.cache).objsPerSlab) :
    slabObjIndex (k.desc v.cache) s ((k.desc v.cache).objAt s x) = .ok x := by
  have geometry := inv.geometry _ (inv.used s v isSlab)
  have bound := geometry.objAt_le s lt
  have size := geometry.objectSize_ge
  have small := inv.small isSlab
  have objs : (k.desc v.cache).objsPerSlab < 65535 := geometry.objs_lt
  unfold KmemCache.objAt at *
  have wrap : (s + (k.desc v.cache).objOffset) % 2 ^ 64 = s + (k.desc v.cache).objOffset :=
    Nat.mod_eq_of_lt (by omega)
  have offset : (s + (k.desc v.cache).objOffset + x * (k.desc v.cache).objectSize + 2 ^ 64 -
      (s + (k.desc v.cache).objOffset)) % 2 ^ 64 = x * (k.desc v.cache).objectSize := by
    omega
  unfold slabObjIndex
  rw [if_neg (by omega), wrap, offset, Nat.mul_div_cancel _ (by omega)]
  rw [Nat.mod_eq_of_lt (by omega)]

/-- **`slab_alloc_obj`** takes the first free index of a slab. -/
theorem allocObj (inv : SlabsInv k slabs) {c x : Nat} {l : List Nat}
    (isSlab : slabs s = some ⟨c, x :: l⟩) :
    ∃ mem, k.slabAllocObj c s = (k.setMem mem, (k.desc c).objAt s x) ∧
      SameOutside (Set.Ico (s + 8) (s + 16)) k.mem mem ∧
      slabInuse mem s + l.length = (k.desc c).objsPerSlab ∧
      SlabsInv (k.setMem mem) (Function.update slabs s (some ⟨c, l⟩)) := by
  have header := inv.header s _ isSlab
  have geometry := inv.geometry _ (inv.used s _ isSlab)
  obtain ⟨first, _⟩ := header.chain.tail
  have lt := header.bounded x List.mem_cons_self
  have notLast : slabFirstFree k.mem s ≠ nofree := by
    rw [first]
    exact header.chain.ne_stop List.mem_cons_self
  obtain ⟨header', inuse, same⟩ := header.alloc geometry.objs_lt rfl rfl rfl
  refine ⟨_, ?_, same, inuse, ?_⟩
  · unfold slabAllocObj
    simp only
    rw [if_neg notLast, first, inv.objPtr_eq isSlab lt]
  · refine inv.update isSlab (k.setMem_quiet same) ?_ rfl header'
    intro a inside
    have room : 32 + 2 * (k.desc c).objsPerSlab ≤ (k.desc c).slabBytes := geometry.header_lt
    have high : s + 16 ≤ s + (k.desc c).slabBytes := by omega
    exact ⟨le_trans (by omega) inside.1, lt_of_lt_of_le inside.2 high⟩

/-- **`slab_free_obj`** of a live object returns its index. -/
theorem freeObj (inv : SlabsInv k slabs) {c x : Nat} {l : List Nat} (isSlab : slabs s = some ⟨c, l⟩)
    (lt : x < (k.desc c).objsPerSlab) (live : x ∉ l) :
    ∃ mem, k.slabFreeObj c s ((k.desc c).objAt s x) = .ok (k.setMem mem) ∧
      SameOutside (infoBytes s (k.desc c).objsPerSlab) k.mem mem ∧
      slabInuse mem s + l.length + 1 = (k.desc c).objsPerSlab ∧
      SlabsInv (k.setMem mem) (Function.update slabs s (some ⟨c, x :: l⟩)) := by
  have header := inv.header s _ isSlab
  have geometry := inv.geometry _ (inv.used s _ isSlab)
  obtain ⟨header', inuse, same⟩ := header.release geometry.objs_lt lt live rfl rfl rfl rfl
  refine ⟨_, ?_, same, inuse, ?_⟩
  · unfold slabFreeObj
    rw [inv.objIndex_eq isSlab lt]
    rfl
  · exact inv.update isSlab (k.setMem_quiet same) (fun a inside => inv.infoBytes_sub isSlab inside)
      rfl header'

end SlabsInv

end Kmem

end Xv6Slab
