/-
**`kmem_cache_alloc` keeps the invariant.**

* `Calm` — what every call but `kmem_cache_create` and `kmem_cache_destroy` leaves alone.
* `spare` — the bytes the allocator may write: free blocks and slab headers.
* `Open.takeObject_spec` — taking an object of a slab on the partial list.
* `Core.growCache_cases` — a new slab, or no change when no block is free.
* `Core.kmemCacheAlloc_cases` — the three things the call can do.
* `Core.kmemCacheAlloc_spec` — **the call makes exactly one object live, or changes nothing but the
  error code.**
-/

import Xv6Slab.Slab.Inv
import Xv6Slab.Slab.Setup
import Xv6Slab.Buddy.Alloc

namespace Xv6Slab

open Bytes Chains Tilings

namespace Kmem

variable {k k' k'' : Kmem} {v : View} {s c : Nat}

/-! ### What a call leaves alone -/

/-- A step that leaves the region, the layouts of all descriptors and the cache list alone. -/
structure Calm (k k' : Kmem) : Prop where
  start : k'.managedStart = k.managedStart
  blocks : k'.managedNumBlocks = k.managedNumBlocks
  layout : ∀ c, (k'.desc c).layout = (k.desc c).layout
  rest : k' = { k with toBuddy := k'.toBuddy, desc := k'.desc }

namespace Calm

theorem refl (k : Kmem) : Calm k k := ⟨rfl, rfl, fun _ => rfl, rfl⟩

theorem trans (first : Calm k k') (second : Calm k' k'') : Calm k k'' where
  start := second.start.trans first.start
  blocks := second.blocks.trans first.blocks
  layout := fun c => (second.layout c).trans (first.layout c)
  rest := by
    rw [second.rest, first.rest]

theorem of_buddy {b : Buddy} (same : Buddy.SameRegion k.toBuddy b) : Calm k (k.setBuddy b) :=
  ⟨same.start, same.blocks, fun _ => rfl, rfl⟩

theorem field {β : Type} (calm : Calm k k') (f : KmemCache → β) (c : Nat) :
    f (k'.desc c).layout = f (k.desc c).layout := congrArg f (calm.layout c)

theorem regionBytes (calm : Calm k k') : k'.regionBytes = k.regionBytes := by
  unfold Buddy.regionBytes Buddy.num
  rw [calm.start, calm.blocks]

theorem destroying (calm : Calm k k') (c : Nat) : (k'.desc c).destroying = (k.desc c).destroying :=
  calm.field KmemCache.destroying c

theorem used_iff (calm : Calm k k') (c : Nat) : k'.Used c ↔ k.Used c := by
  have used : (k'.desc c).isUsed = (k.desc c).isUsed := calm.field KmemCache.isUsed c
  have slots : ∀ i, k'.slot i = k.slot i := by
    intro i
    unfold slot
    rw [calm.rest]
  unfold Used
  simp only [used, slots]

theorem idle (calm : Calm k k') (idle : k.Idle) : k'.Idle := by
  intro c used
  rw [calm.destroying]
  exact idle c ((calm.used_iff c).mp used)

end Calm

theorem Quiet.calm {touched : Set Nat} (quiet : Quiet k k' touched) : Calm k k' where
  start := by rw [quiet.rest]
  blocks := by rw [quiet.rest]
  layout := quiet.layout
  rest := by
    conv_lhs => rw [quiet.rest]
    rw [quiet.toBuddy]

/-- The bytes of slab headers. -/
def headerArea (k : Kmem) (slabs : Nat → Option SlabView) : Set Nat :=
  {a | ∃ s c l, slabs s = some ⟨c, l⟩ ∧ s ≤ a ∧ a < s + 32 + 2 * (k.desc c).objsPerSlab}

/-- The bytes of slab headers and of free blocks. -/
def spare (k : Kmem) (slabs : Nat → Option SlabView) : Set Nat :=
  headerArea k slabs ∪ k.span k.freeBlocks

theorem Open.links_sub (mid : Open k v s) :
    linkBytes (ListsInv.listed v.lists) ⊆ headerArea k v.slabs := by
  intro a inside
  obtain ⟨t, ⟨c, list, member⟩, low, high⟩ := inside
  obtain ⟨l, isSlab⟩ := (mid.listed t c).mpr ⟨list, member⟩
  exact ⟨t, c, l, isSlab, by omega, by omega⟩

theorem Loose.links_sub (loose : Loose k v s) {l : List Nat} (isSlab : v.slabs s = some ⟨c, l⟩) :
    linkBytes (insert s (ListsInv.listed v.lists)) ⊆ headerArea k v.slabs := by
  intro a inside
  obtain ⟨t, isListed, low, high⟩ := inside
  by_cases eq : t = s
  · subst eq
    exact ⟨t, c, l, isSlab, by omega, by omega⟩
  · obtain ⟨c', list, member⟩ := Set.mem_of_mem_insert_of_ne isListed eq
    obtain ⟨l', isSlab'⟩ := (loose.listed t c' eq).mpr ⟨list, member⟩
    exact ⟨t, c', l', isSlab', by omega, by omega⟩

theorem Quiet.headerArea {touched : Set Nat} (quiet : Quiet k k' touched)
    (slabs : Nat → Option SlabView) : Kmem.headerArea k' slabs = Kmem.headerArea k slabs := by
  unfold Kmem.headerArea
  simp only [quiet.objsPerSlab]

theorem Quiet.spare {touched : Set Nat} (quiet : Quiet k k' touched)
    (slabs : Nat → Option SlabView) : Kmem.spare k' slabs = Kmem.spare k slabs := by
  unfold Kmem.spare
  rw [quiet.headerArea, quiet.freeBlocks, quiet.span]

theorem SlabsInv.spare_sub {slabs : Nat → Option SlabView} (inv : SlabsInv k slabs) :
    spare k slabs ⊆ k.regionBytes := by
  intro a inside
  rcases inside with ⟨t, c, l, isSlab, low, high⟩ | ⟨p, ⟨d, inFree, covers⟩, low, high⟩
  · obtain ⟨i, address, _⟩ := inv.placed t _ isSlab
    have room := (inv.geometry _ (inv.used t _ isSlab)).header_lt
    have fits := inv.fits isSlab
    simp only [Buddy.page] at address room fits
    exact ⟨by omega, by omega⟩
  · have lt := inv.pool.tiling.lt_of_covers (Or.inl inFree) covers
    simp only [Buddy.page] at low high
    exact ⟨by omega, by omega⟩

/-! ### What a call changes -/

/-- A call that makes one allocation live which was not, and writes only spare bytes. -/
structure Gains (k : Kmem) (v : View) (k' : Kmem) (v' : View) (a : Allocation) : Prop where
  core : Core k' v'
  caches : v'.caches = v.caches
  live : live k' v'.slabs = insert a (live k v.slabs)
  fresh : a ∉ Kmem.live k v.slabs
  calm : Calm k k'
  mem : SameOutside (spare k v.slabs) k.mem k'.mem

/-- A call that changes nothing but error codes. -/
structure Keeps (k : Kmem) (v : View) (k' : Kmem) : Prop where
  core : Core k' v
  live : live k' v.slabs = live k v.slabs
  calm : Calm k k'
  mem : k'.mem = k.mem

theorem Core.keeps (core : Core k v) : Keeps k v k := ⟨core, rfl, Calm.refl k, rfl⟩

theorem Core.setError (core : Core k v) (c : Nat) (error : KmemError) :
    Keeps k v (k.modifyDesc c fun d => { d with errorCode := error }) := by
  have quiet : Quiet k (k.modifyDesc c fun d => { d with errorCode := error }) ∅ :=
    k.modifyDesc_quiet c ∅ fun _ => rfl
  refine ⟨core.frame quiet ?_ ?_ ?_, quiet.live _, quiet.calm, rfl⟩
  · intro c' list
    by_cases eq : c' = c
    · subst eq
      rw [modifyDesc_self]
      cases list <;> rfl
    · rw [modifyDesc_of_ne _ _ eq]
  · exact fun _ inside => absurd inside (Set.notMem_empty _)
  · exact fun _ _ _ _ _ inside => absurd inside (Set.notMem_empty _)

/-! ### Taking an object -/

/-- **The end of both paths of `kmem_cache_alloc`.** -/
theorem Open.takeObject_spec (mid : Open k v s) (member : s ∈ v.lists c .partials) {x : Nat}
    {l : List Nat} (isSlab : v.slabs s = some ⟨c, x :: l⟩) :
    ∃ k' v', k.takeObject c s = (k', (k.desc c).objAt s x) ∧ Core k' v' ∧ v'.caches = v.caches ∧
      v'.slabs = Function.update v.slabs s (some ⟨c, l⟩) ∧ Quiet k k' (headerArea k v.slabs) := by
  obtain ⟨mem, call, inuse, same, taken⟩ := mid.take isSlab
  have header := mid.slabs.header s _ isSlab
  have positive : (k.desc c).objAt s x ≠ 0 := by
    have := mid.slabs.nonzero isSlab
    unfold KmemCache.objAt
    omega
  have quiet₁ : Quiet k (k.setMem mem) (headerArea k v.slabs) := by
    refine (k.setMem_quiet same).mono ?_
    intro a inside
    have low := inside.1
    have high := inside.2
    exact ⟨s, c, x :: l, isSlab, by omega, by omega⟩
  have isSlab' : Function.update v.slabs s (some ⟨c, l⟩) s = some ⟨c, l⟩ := Function.update_self ..
  have fewer := header.inuse
  simp only [List.length_cons] at fewer
  unfold takeObject
  simp only [call]
  rw [if_neg positive]
  by_cases last : slabInuse mem s = (k.desc c).objsPerSlab
  · have none : l.length = 0 := by omega
    obtain ⟨moved, quiet₂⟩ := taken.move member .full
    exact ⟨_, _, if_pos last, moved.close (Open.mem_moveLists ..) isSlab' none, rfl, rfl,
      quiet₁.trans (quiet₂.mono mid.links_sub)⟩
  · refine ⟨_, _, if_neg last, taken.close member isSlab' ⟨?_, ?_⟩, rfl, rfl,
      quiet₁⟩
    · by_contra zero
      exact last (by omega)
    · show l.length < (k.desc c).objsPerSlab
      omega

/-! ### A new slab -/

/-- The memory after a new slab has been set up. -/
def setupMem (d : KmemCache) (mem : Mem) (c s : Nat) : Mem :=
  match d.ctor with
  | some ctor => runCtors d ctor (initHeader mem c d.objsPerSlab s) s (d.objsPerSlab % 2 ^ 16)
  | none => initHeader mem c d.objsPerSlab s

theorem setupMem_spec {d : KmemCache} (geometry : d.Geometry) {c s : Nat} (cSmall : c < 2 ^ 64)
    (fits : s + d.slabBytes ≤ 2 ^ 64) (mem : Mem) :
    Header (setupMem d mem c s) s ⟨c, List.range' 0 d.objsPerSlab⟩ d.objsPerSlab ∧
      SameOutside (Set.Ico s (s + d.slabBytes)) mem (setupMem d mem c s) := by
  obtain ⟨header, same⟩ := initHeader_spec mem (s := s) cSmall geometry.objs_pos geometry.objs_lt
  have room := geometry.header_lt
  have small : d.objsPerSlab < 65535 := geometry.objs_lt
  have same' : SameOutside (Set.Ico s (s + d.slabBytes)) mem
      (initHeader mem c d.objsPerSlab s) := by
    refine same.mono ?_
    intro a inside
    exact ⟨inside.1, lt_of_lt_of_le inside.2 (by omega)⟩
  unfold setupMem
  cases isCtor : d.ctor with
  | none => exact ⟨header, same'⟩
  | some ctor =>
    have count : d.objsPerSlab % 2 ^ 16 ≤ d.objsPerSlab := Nat.mod_le _ _
    have ctors :=
      runCtors_sameOutside geometry isCtor fits (initHeader mem c d.objsPerSlab s) _ count
    refine ⟨header.frame ctors ?_, same'.trans (ctors.mono ?_)⟩
    · intro a inside inInfo
      have low := inside.1
      rcases inInfo with ⟨_, high⟩ | ⟨_, high⟩ <;> omega
    · intro a inside
      exact ⟨le_trans (by omega) inside.1, inside.2⟩

/-- What the slow path computes, once the buddy allocator has handed out a block. -/
theorem growCache_eq {b : Buddy} {base i : Nat}
    (run : k.toBuddy.buddyAlloc (2 ^ (k.desc c).slabOrder) = .ok (b, base)) (nonzero : base ≠ 0)
    (index : b.addrToIndex base = i) (fits : i + 2 ^ (k.desc c).slabOrder ≤ b.num)
    (active : (k.desc c).destroying = false) :
    k.growCache c = .ok ((((k.setBuddy (b.withOwner i (2 ^ (k.desc c).slabOrder) base)).setMem
      (setupMem (k.desc c) b.mem c base)).slabListPushFront c .partials base).takeObject
      c base) := by
  have owners : ({ b with mem := initHeader b.mem c (k.desc c).objsPerSlab base } : Buddy).setOwners
      i base (2 ^ (k.desc c).slabOrder) =
        .ok (({ b with mem := initHeader b.mem c (k.desc c).objsPerSlab base } : Buddy).withOwner i
          (2 ^ (k.desc c).slabOrder) base) := Buddy.setOwners_ok _ _ _ _ fits
  have found :
      ({ b with mem := initHeader b.mem c (k.desc c).objsPerSlab base } : Buddy).addrToIndex
      base = i := index
  unfold growCache
  simp only
  rw [run]
  show (if base = 0 then _ else _) = _
  rw [if_neg nonzero]
  show ((({ b with mem := initHeader b.mem c (k.desc c).objsPerSlab base } : Buddy).setOwners
    (({ b with mem := initHeader b.mem c (k.desc c).objsPerSlab base } : Buddy).addrToIndex base)
      base (2 ^ (k.desc c).slabOrder)) >>= _) = _
  rw [found, owners]
  unfold setupMem
  cases isCtor : (k.desc c).ctor with
  | none =>
    show (if (k.desc c).destroying then _ else _) = _
    rw [active]
    rfl
  | some ctor =>
    show (if (k.desc c).destroying then _ else _) = _
    rw [active]
    rfl

/-- The state after a new slab has been set up and its owners published, not yet on a list. -/
def withSlab (k : Kmem) (b : Buddy) (c i : Nat) : Kmem :=
  (k.setBuddy (b.withOwner i (2 ^ (k.desc c).slabOrder) (b.page i))).setMem
    (setupMem (k.desc c) b.mem c (b.page i))

/-- The slabs after a new one has been set up. -/
def slabsWith (k : Kmem) (slabs : Nat → Option SlabView) (c s : Nat) : Nat → Option SlabView :=
  Function.update slabs s (some ⟨c, List.range' 0 (k.desc c).objsPerSlab⟩)

section NewSlab

variable {b : Buddy} {free : Set Block} {i m : Nat}

/-- A free block becomes a slab in which every object is free, and which is on no list. -/
theorem Core.withSlab_spec (core : Core k v) (used : k.Used c) (taken : ⟨i, m⟩ ∈ k.freeBlocks)
    (effect : Buddy.Effect k.toBuddy b free (insert ⟨i, (k.desc c).slabOrder⟩ k.allocBlocks)
      (k.span {⟨i, m⟩}))
    (pool : Pool maxOrder k.num free (insert ⟨i, (k.desc c).slabOrder⟩ k.allocBlocks))
    (part : k.span {⟨i, (k.desc c).slabOrder⟩} ⊆ k.span {⟨i, m⟩}) :
    Loose (k.withSlab b c i) { v with slabs := k.slabsWith v.slabs c (b.page i) } (b.page i) ∧
      live (k.withSlab b c i) (k.slabsWith v.slabs c (b.page i)) = live k v.slabs ∧
      SameOutside (k.span k.freeBlocks) k.mem (k.withSlab b c i).mem ∧
      headerArea (k.withSlab b c i) (k.slabsWith v.slabs c (b.page i)) ⊆ spare k v.slabs := by
  have geometry := core.slabs.geometry c used
  have cSmall := (core.pool.used_bounds used).2
  have takenSub : k.span {⟨i, m⟩} ⊆ k.span k.freeBlocks :=
    Buddy.span_mono fun d same p covers => ⟨d, Set.mem_singleton_iff.mp same ▸ taken, covers⟩
  have slabs₁ : SlabsInv (k.setBuddy b) v.slabs := by
    refine core.slabs.buddy effect pool (fun d inAlloc _ => Or.inr inAlloc) ?_
    intro t w isSlab a inside inSlab
    exact core.slabs.not_free isSlab inSlab (takenSub inside)
  have member₁ : ⟨i, (k.desc c).slabOrder⟩ ∈ (k.setBuddy b).allocBlocks := by
    show _ ∈ b.allocBlocks
    rw [effect.rep.allocEq]
    exact Set.mem_insert _ _
  have unowned : (k.blockMeta i).ownerSlab = 0 :=
    core.slabs.owner_of_free taken (Block.covers_index _)
  have notSlab₁ : SlabsInv.NotSlab (k.setBuddy b) ⟨i, (k.desc c).slabOrder⟩ := by
    show (b.blockMeta i).ownerSlab = 0
    rw [effect.same.owner]
    exact unowned
  have positive : b.page i ≠ 0 := effect.rep.region.page_pos.ne'
  have inside : i + 2 ^ (k.desc c).slabOrder ≤ b.num := by
    rw [effect.same.num]
    exact pool.tiling.inside ⟨i, (k.desc c).slabOrder⟩ (Or.inr (Set.mem_insert _ _))
  have fits : b.page i + (k.desc c).slabBytes ≤ 2 ^ 64 := by
    have region := effect.rep.region.fits
    unfold KmemCache.slabBytes Buddy.page
    omega
  obtain ⟨header, sameSetup⟩ := setupMem_spec geometry cSmall fits b.mem
  have blockBytes : b.span {⟨i, (k.desc c).slabOrder⟩} =
      Set.Ico (b.page i) (b.page i + (k.desc c).slabBytes) := Buddy.span_singleton _ _ _
  rw [← blockBytes] at sameSetup
  have fresh := slabs₁.notSlab_fresh member₁ notSlab₁
  change v.slabs (b.page i) = none at fresh
  have slabs₂ : SlabsInv (k.withSlab b c i) (k.slabsWith v.slabs c (b.page i)) :=
    slabs₁.addSlab used member₁ notSlab₁ sameSetup header
  have sameAll : SameOutside (k.span k.freeBlocks) k.mem (k.withSlab b c i).mem := by
    refine (effect.mem.mono takenSub).trans (sameSetup.mono ?_)
    rw [effect.same.span]
    exact part.trans takenSub
  have unlisted : ∀ c' list, b.page i ∉ v.lists c' list := by
    intro c' list member
    obtain ⟨l, old⟩ := core.isSlab member
    rw [fresh] at old
    cases old
  have pool' : PoolInv (k.withSlab b c i) v.caches :=
    ⟨core.pool.pos, core.pool.fits, core.pool.linked, core.pool.members, core.pool.tail⟩
  refine ⟨⟨?_, slabs₂, pool', unlisted, ?_, ?_⟩, ?_, sameAll, ?_⟩
  · refine core.lists.frame sameAll (fun _ => Iff.rfl) (fun _ _ => rfl) ?_
    intro a inFree inLinks
    obtain ⟨t, ⟨c', list, inList⟩, low, high⟩ := inLinks
    obtain ⟨l, isSlab⟩ := core.isSlab inList
    have room := (core.slabs.geometry _ (core.slabs.used t _ isSlab)).header_lt
    exact core.slabs.not_free isSlab ⟨by omega, by omega⟩ inFree
  · intro t c' other
    simp only [slabsWith, Function.update_of_ne other]
    exact core.listed t c'
  · intro c' list t l inList isSlab
    have other : t ≠ b.page i := fun eq => unlisted c' list (eq ▸ inList)
    simp only [slabsWith, Function.update_of_ne other] at isSlab
    exact core.category c' list t l inList isSlab
  · have all : ∀ x < ((k.setBuddy b).desc c).objsPerSlab,
        x ∈ List.range' 0 (k.desc c).objsPerSlab := by
      intro x lt
      have lt' : x < (k.desc c).objsPerSlab := lt
      exact List.mem_range'_1.mpr ⟨Nat.zero_le _, by omega⟩
    have gone : live (k.withSlab b c i) (k.slabsWith v.slabs c (b.page i)) =
        live (k.setBuddy b) v.slabs \ {.block ((k.setBuddy b).page i) (k.desc c).slabOrder} :=
      live_addSlab _ positive all fresh rfl member₁ slabs₁.pool
    have added : live (k.setBuddy b) v.slabs =
        insert (.block (k.page i) (k.desc c).slabOrder) (live k v.slabs) :=
      live_alloc effect unowned
    have absent := core.slabs.free_not_live taken (k.desc c).slabOrder
    have pageEq : (k.setBuddy b).page i = k.page i := effect.same.page i
    have back :
        live (k.setBuddy b) v.slabs \ {.block ((k.setBuddy b).page i) (k.desc c).slabOrder} =
        live k v.slabs := by
      rw [added, pageEq]
      exact Set.insert_sdiff_self_of_notMem absent
    exact gone.trans back
  · intro a inside
    obtain ⟨t, c', l, isSlab, low, high⟩ := inside
    by_cases eq : t = b.page i
    · subst eq
      simp only [slabsWith, Function.update_self, Option.some.injEq, SlabView.mk.injEq] at isSlab
      obtain ⟨rfl, _⟩ := isSlab
      have room := geometry.header_lt
      have high' : a < b.page i + 32 + 2 * (k.desc c).objsPerSlab := high
      have inBlock : a ∈ b.span {⟨i, (k.desc c).slabOrder⟩} := by
        rw [blockBytes]
        exact ⟨low, by omega⟩
      rw [effect.same.span] at inBlock
      exact Or.inr (takenSub (part inBlock))
    · simp only [slabsWith, Function.update_of_ne eq] at isSlab
      exact Or.inl ⟨t, c', l, isSlab, low, high⟩

end NewSlab

/-- A new slab on the block `⟨i, slab_order⟩`, cut from the free block `⟨i, m⟩`, whose first object
is handed out. -/
structure Grows (k : Kmem) (v : View) (c : Nat) (b : Buddy) (i m : Nat) (k' : Kmem) (v' : View) :
    Prop where
  taken : ⟨i, m⟩ ∈ k.freeBlocks
  enough : (k.desc c).slabOrder ≤ m
  least : ∀ d ∈ k.freeBlocks, (k.desc c).slabOrder ≤ d.order → m ≤ d.order
  alloc : k.toBuddy.buddyAlloc (2 ^ (k.desc c).slabOrder) = .ok (b, b.page i)
  effect :
    Buddy.Effect k.toBuddy b (k.freeBlocks \ {⟨i, m⟩} ∪ Buddy.halves i (k.desc c).slabOrder m)
    (insert ⟨i, (k.desc c).slabOrder⟩ k.allocBlocks) (k.span {⟨i, m⟩})
  pool : Pool maxOrder k.num (k.freeBlocks \ {⟨i, m⟩} ∪ Buddy.halves i (k.desc c).slabOrder m)
    (insert ⟨i, (k.desc c).slabOrder⟩ k.allocBlocks)
  slabs : v'.slabs = Function.update v.slabs (b.page i)
    (some ⟨c, List.range' 1 ((k.desc c).objsPerSlab - 1)⟩)
  quiet :
      Quiet (k.withSlab b c i) k' (headerArea (k.withSlab b c i) (k.slabsWith v.slabs c (b.page i)))

/-- **The slow path of `kmem_cache_alloc`**: a new slab, one object of which is live, or no change
when no block is large enough. -/
theorem Core.growCache_cases (core : Core k v) (used : k.Used c)
    (active : (k.desc c).destroying = false) :
    (k.growCache c = .ok (k.modifyDesc c fun d => { d with errorCode := .buddyOom }, 0) ∧
      ∀ b ∈ k.freeBlocks, b.order < (k.desc c).slabOrder) ∨
    ∃ (b : Buddy) (i m : Nat) (k' : Kmem) (v' : View),
      k.growCache c = .ok (k', (k.desc c).objAt (b.page i) 0) ∧
      (k.desc c).objAt (b.page i) 0 ≠ 0 ∧ Grows k v c b i m k' v' ∧
      Gains k v k' v' (.object c ((k.desc c).objAt (b.page i) 0) (k.desc c).objectSize) := by
  have geometry := core.slabs.geometry c used
  have orderLe : (k.desc c).slabOrder ≤ maxOrder := geometry.slabOrder_le.trans (by decide)
  rcases Buddy.buddyAlloc_spec core.slabs.rep core.slabs.pool
    (Nat.two_pow_pos (k.desc c).slabOrder).ne' (Buddy.orderForPages_two_pow orderLe) with
    ⟨run, tooSmall⟩ | ⟨i, m, b, taken, le, least, run, effect, pool⟩
  · left
    refine ⟨?_, tooSmall⟩
    unfold growCache
    simp only
    rw [run]
    rfl
  · right
    have pageEq : b.page i = k.page i := effect.same.page i
    have positive : b.page i ≠ 0 := effect.rep.region.page_pos.ne'
    have inside : i + 2 ^ (k.desc c).slabOrder ≤ b.num := by
      rw [effect.same.num]
      exact pool.tiling.inside ⟨i, (k.desc c).slabOrder⟩ (Or.inr (Set.mem_insert _ _))
    have part : k.span {⟨i, (k.desc c).slabOrder⟩} ⊆ k.span {⟨i, m⟩} := by
      rw [Buddy.span_singleton, Buddy.span_singleton]
      have larger : 2 ^ (k.desc c).slabOrder ≤ 2 ^ m := Nat.pow_le_pow_right (by decide) le
      intro a range
      exact ⟨range.1, lt_of_lt_of_le range.2 (by omega)⟩
    have index : b.addrToIndex (b.page i) = i := Buddy.addrToIndex_page effect.rep.region
      (effect.same.num ▸ pool.index_lt_of_taken (Set.mem_insert _ _))
    rw [← pageEq] at run
    have code := growCache_eq run positive index inside active
    obtain ⟨loose, sameLive, sameMem, headers⟩ := core.withSlab_spec used taken effect pool part
    have calm : Calm k (k.withSlab b c i) :=
      ⟨effect.same.start, effect.same.blocks, fun _ => rfl, rfl⟩
    have isSlab : k.slabsWith v.slabs c (b.page i) (b.page i) =
        some ⟨c, List.range' 0 (k.desc c).objsPerSlab⟩ := Function.update_self ..
    obtain ⟨mid, quiet⟩ := loose.push isSlab .partials
    have onList : b.page i ∈
        setList v.lists c .partials (b.page i :: v.lists c .partials) c .partials := by
      rw [setList_self]
      exact List.mem_cons_self
    obtain ⟨n, nEq⟩ := Nat.exists_eq_add_of_le' geometry.objs_pos
    have isSlabCons : k.slabsWith v.slabs c (b.page i) (b.page i) =
        some ⟨c, 0 :: List.range' 1 n⟩ := by
      rw [isSlab, nEq]
      rfl
    obtain ⟨k', v', call, core', caches, slabsEq, quiet'⟩ := mid.takeObject_spec onList isSlabCons
    obtain ⟨taken', absent⟩ := mid.slabs.live_take isSlabCons
    have sameLive' : live ((k.withSlab b c i).slabListPushFront c .partials (b.page i))
        (k.slabsWith v.slabs c (b.page i)) = live k v.slabs := (quiet.live _).trans sameLive
    simp only at taken' absent
    rw [sameLive', quiet.objectSize] at taken' absent
    have sameObj : (((k.withSlab b c i).slabListPushFront c .partials (b.page i)).desc c).objAt
        (b.page i) 0 = (k.desc c).objAt (b.page i) 0 := quiet.objAt c (b.page i) 0
    rw [sameObj] at call taken' absent
    have objNonzero : (k.desc c).objAt (b.page i) 0 ≠ 0 := by
      unfold KmemCache.objAt
      omega
    rw [quiet.headerArea] at quiet'
    have grows : Grows k v c b i m k' v' := by
      refine ⟨taken, le, least, run, effect, pool, ?_,
        (quiet.mono (loose.links_sub isSlab)).trans quiet'⟩
      rw [slabsEq, nEq, Nat.add_sub_cancel]
      exact Function.update_idem ..
    refine ⟨b, i, m, k', v', code.trans (congrArg _ call), objNonzero, grows, core',
      caches, ?_, absent, (calm.trans quiet.calm).trans quiet'.calm, ?_⟩
    · rw [slabsEq, quiet'.live]
      exact taken'
    · exact ((sameMem.mono Set.subset_union_right).trans
        (quiet.mem.mono ((loose.links_sub isSlab).trans headers))).trans (quiet'.mem.mono headers)

/-! ### The call -/

/-- An object of a slab at hand is handed out. -/
structure Takes (k : Kmem) (v : View) (c s x : Nat) (k' : Kmem) (v' : View) : Prop where
  slab : ∃ l, v.slabs s = some ⟨c, x :: l⟩ ∧ v'.slabs = Function.update v.slabs s (some ⟨c, l⟩)
  quiet : Quiet k k' (headerArea k v.slabs)

/-- `kmem_cache_alloc` from a slab at hand on the partial list. -/
theorem Open.takeObject_gains (mid : Open k v s) (member : s ∈ v.lists c .partials) {l : List Nat}
    (isSlab : v.slabs s = some ⟨c, l⟩) (some_ : l ≠ []) :
    ∃ x k' v', k.takeObject c s = (k', (k.desc c).objAt s x) ∧ (k.desc c).objAt s x ≠ 0 ∧
      Takes k v c s x k' v' ∧
      Gains k v k' v' (.object c ((k.desc c).objAt s x) (k.desc c).objectSize) := by
  obtain ⟨x, l, rfl⟩ := List.exists_cons_of_ne_nil some_
  obtain ⟨k', v', call, core, caches, slabs, quiet⟩ := mid.takeObject_spec member isSlab
  obtain ⟨live, fresh⟩ := mid.slabs.live_take isSlab
  have nonzero : (k.desc c).objAt s x ≠ 0 := by
    have := mid.slabs.nonzero isSlab
    unfold KmemCache.objAt
    omega
  refine ⟨x, k', v', call, nonzero, ⟨⟨l, isSlab, slabs⟩, quiet⟩, core, caches, ?_,
    fresh, quiet.calm, quiet.mem.mono Set.subset_union_left⟩
  rw [slabs, quiet.live]
  exact live

/-- A gain after a quiet step on headers. -/
theorem Gains.after_quiet {v₁ v' : View} {a : Allocation} (gains : Gains k' v₁ k'' v' a)
    (quiet : Quiet k k' (headerArea k v.slabs)) (slabs : v₁.slabs = v.slabs)
    (caches : v₁.caches = v.caches) : Gains k v k'' v' a where
  core := gains.core
  caches := gains.caches.trans caches
  live := by
    rw [gains.live, slabs, quiet.live]
  fresh := by
    rw [← quiet.live, ← slabs]
    exact gains.fresh
  calm := quiet.calm.trans gains.calm
  mem := by
    have later := gains.mem
    rw [slabs, quiet.spare] at later
    exact (quiet.mem.mono Set.subset_union_left).trans later

theorem Takes.after_quiet {v₁ v' : View} {x : Nat} (takes : Takes k' v₁ c s x k'' v')
    (quiet : Quiet k k' (headerArea k v.slabs)) (slabs : v₁.slabs = v.slabs) :
    Takes k v c s x k'' v' where
  slab := by
    rw [← slabs]
    exact takes.slab
  quiet := by
    have later := takes.quiet
    rw [slabs, quiet.headerArea] at later
    exact quiet.trans later

/-- The fast path of `kmem_cache_alloc`: a slab of the partial list. -/
theorem Core.allocPartial (core : Core k v) (used : k.Used c)
    (nonempty : (k.desc c).head .partials ≠ 0) :
    ∃ s x k' v', k.takeObject c ((k.desc c).head .partials) = (k', (k.desc c).objAt s x) ∧
      (k.desc c).objAt s x ≠ 0 ∧ Takes k v c s x k' v' ∧
      Gains k v k' v' (.object c ((k.desc c).objAt s x) (k.desc c).objectSize) := by
  have member := core.lists.head_mem used .partials nonempty
  obtain ⟨l, isSlab⟩ := core.isSlab member
  have category := core.category c .partials _ l member isSlab
  exact ⟨_, (core.toOpen _).takeObject_gains member isSlab (List.ne_nil_of_length_pos category.1)⟩

/-- The fast path of `kmem_cache_alloc`: a slab of the empty list, which moves to the partial
list. -/
theorem Core.allocEmpty (core : Core k v) (used : k.Used c)
    (nonempty : (k.desc c).head .empty ≠ 0) :
    ∃ s x k' v', ((k.slabListPopFront c .empty).1.slabListPushFront c .partials
        (k.slabListPopFront c .empty).2).takeObject c (k.slabListPopFront c .empty).2 =
          (k', (k.desc c).objAt s x) ∧ (k.desc c).objAt s x ≠ 0 ∧ Takes k v c s x k' v' ∧
      Gains k v k' v' (.object c ((k.desc c).objAt s x) (k.desc c).objectSize) := by
  have member := core.lists.head_mem used .empty nonempty
  obtain ⟨l, isSlab⟩ := core.isSlab member
  have category : l.length = (k.desc c).objsPerSlab := core.category c .empty _ l member isSlab
  have positive := (core.slabs.geometry c used).objs_pos
  obtain ⟨rest, _, popped⟩ := core.lists.pop used nonempty
  obtain ⟨mid, quiet⟩ := (core.toOpen _).move member .partials
  obtain ⟨x, k', v', call, nonzero, takes, gains⟩ :=
    mid.takeObject_gains (Open.mem_moveLists ..) isSlab (List.ne_nil_of_length_pos (by omega))
  have sub := quiet.mono (core.toOpen 0).links_sub
  rw [quiet.objAt] at call nonzero gains
  rw [quiet.objectSize] at gains
  rw [popped]
  exact ⟨_, x, k', v', call, nonzero, takes.after_quiet sub rfl, gains.after_quiet sub rfl rfl⟩

/-- The three paths of `kmem_cache_alloc`. -/
theorem Core.kmemCacheAlloc_eq (core : Core k v) (used : k.Used c)
    (active : (k.desc c).destroying = false) :
    k.kmemCacheAlloc c =
      if (k.desc c).head .partials ≠ 0 then .ok (k.takeObject c ((k.desc c).head .partials))
      else if (k.desc c).head .empty ≠ 0 then
        .ok (((k.slabListPopFront c .empty).1.slabListPushFront c .partials
          (k.slabListPopFront c .empty).2).takeObject c (k.slabListPopFront c .empty).2)
      else k.growCache c := by
  have nonzero := (core.pool.used_bounds used).1
  unfold kmemCacheAlloc
  rw [if_neg nonzero, if_neg (by rw [active]; exact Bool.false_ne_true)]
  rfl

/-- **What `kmem_cache_alloc` of a used cache does**: nothing but an error code changes, an object
of a slab at hand is handed out, or the first object of a new slab. -/
theorem Core.kmemCacheAlloc_cases (core : Core k v) (used : k.Used c)
    (active : (k.desc c).destroying = false) :
    (k.kmemCacheAlloc c = .ok (k.modifyDesc c fun d => { d with errorCode := .buddyOom }, 0) ∧
      v.lists c .partials = [] ∧ v.lists c .empty = [] ∧
      ∀ b ∈ k.freeBlocks, b.order < (k.desc c).slabOrder) ∨
    (∃ s x k' v', k.kmemCacheAlloc c = .ok (k', (k.desc c).objAt s x) ∧ (k.desc c).objAt s x ≠ 0 ∧
      Takes k v c s x k' v' ∧
      Gains k v k' v' (.object c ((k.desc c).objAt s x) (k.desc c).objectSize)) ∨
    ∃ (b : Buddy) (i m : Nat) (k' : Kmem) (v' : View), k.kmemCacheAlloc c = .ok (k',
      (k.desc c).objAt (b.page i) 0) ∧
      (k.desc c).objAt (b.page i) 0 ≠ 0 ∧ v.lists c .partials = [] ∧ v.lists c .empty = [] ∧
      Grows k v c b i m k' v' ∧
      Gains k v k' v' (.object c ((k.desc c).objAt (b.page i) 0) (k.desc c).objectSize) := by
  rw [core.kmemCacheAlloc_eq used active]
  by_cases noPartial : (k.desc c).head .partials = 0
  · rw [if_neg (not_not.mpr noPartial)]
    by_cases noEmpty : (k.desc c).head .empty = 0
    · rw [if_neg (not_not.mpr noEmpty)]
      have partialNil := core.lists.linked c used .partials
      have emptyNil := core.lists.linked c used .empty
      rw [noPartial] at partialNil
      rw [noEmpty] at emptyNil
      rcases core.growCache_cases used active with ⟨run, tooSmall⟩ |
        ⟨b, i, m, k', v', run, nonzero, rest⟩
      · exact Or.inl ⟨run, partialNil.eq_nil_of_stop, emptyNil.eq_nil_of_stop, tooSmall⟩
      · exact Or.inr (Or.inr ⟨b, i, m, k', v', run, nonzero, partialNil.eq_nil_of_stop,
          emptyNil.eq_nil_of_stop, rest⟩)
    · rw [if_pos noEmpty]
      obtain ⟨s, x, k', v', call, rest⟩ := core.allocEmpty used noEmpty
      exact Or.inr (Or.inl ⟨s, x, k', v', congrArg _ call, rest⟩)
  · rw [if_pos noPartial]
    obtain ⟨s, x, k', v', call, rest⟩ := core.allocPartial used noPartial
    exact Or.inr (Or.inl ⟨s, x, k', v', congrArg _ call, rest⟩)

/-- **`kmem_cache_alloc` of a used cache makes exactly one object live, or changes nothing but the
error code**; the second only when no slab has a free object and no free block is large enough. -/
theorem Core.kmemCacheAlloc_spec (core : Core k v) (used : k.Used c)
    (active : (k.desc c).destroying = false) :
    (∃ k', k.kmemCacheAlloc c = .ok (k', 0) ∧ Keeps k v k' ∧ v.lists c .partials = [] ∧
      v.lists c .empty = [] ∧ ∀ b ∈ k.freeBlocks, b.order < (k.desc c).slabOrder) ∨
    ∃ k' v' obj, k.kmemCacheAlloc c = .ok (k', obj) ∧ obj ≠ 0 ∧
      Gains k v k' v' (.object c obj (k.desc c).objectSize) := by
  rcases core.kmemCacheAlloc_cases used active with
    ⟨run, rest⟩ | ⟨s, x, k', v', run, nonzero, _, gains⟩ |
      ⟨b, i, m, k', v', run, nonzero, _, _, _, gains⟩
  · exact Or.inl ⟨_, run, core.setError c .buddyOom, rest⟩
  · exact Or.inr ⟨k', v', _, run, nonzero, gains⟩
  · exact Or.inr ⟨k', v', _, run, nonzero, gains⟩

end Kmem

end Xv6Slab
