/-
**What shrinking and destroying a cache give back.**

The bytes that are free are those of the region that are in no slab and in no live block
(`SlabsInv.mem_span_free`). Both calls leave the live blocks alone, so the free pages grow by the
pages of the slabs that are gone, and by nothing else.

* `Core.freePages_gone` — the free pages after some slabs of a cache are gone.
* `Core.noLive_iff` — a cache has no live object exactly when its full and its partial list are
  empty.
* `giveBack_reachable` — **`kmem_cache_shrink` and `kmem_cache_destroy` in every reachable state.**
-/

import Xv6Slab.Spec.CacheCalls

namespace Xv6Slab

open Bytes Chains Tilings

theorem Buddy.mem_freePages_span (b : Buddy) {p : Nat} :
    p ∈ b.freePages ↔ b.page p ∈ b.span b.freeBlocks := by
  constructor
  · rintro ⟨d, inFree, covers⟩
    exact ⟨p, ⟨d, inFree, covers⟩, le_rfl, by omega⟩
  · rintro ⟨q, ⟨d, inFree, covers⟩, low, high⟩
    have same : q = p := by
      simp only [Buddy.page] at low high
      omega
    exact ⟨d, inFree, same ▸ covers⟩

namespace Kmem

variable {k k' k₀ : Kmem} {v v' : View} {held : List Allocation} {space c : Nat} {blockNum : Int}
  {isKernel : Bool}

/-- The pages of the slabs on some lists of a cache. -/
def slabPages (k : Kmem) (c : Nat) (lists : Set SlabList) : Set Nat :=
  {p | ∃ list ∈ lists, ∃ s, k.Listed c list s ∧ k.page p ∈ Set.Ico s (s + (k.desc c).slabBytes)}

/-! ### The free pages -/

theorem SamePlace.regionBytes (place : SamePlace k k') : k'.regionBytes = k.regionBytes := by
  unfold Buddy.regionBytes
  rw [place.start, place.num]

/-- **Slabs of a cache are gone, and the live blocks are the same**: the free pages grow by the
pages of the slabs. -/
theorem Core.freePages_gone (core : Core k v) (core' : Core k' v') (place : SamePlace k k')
    (gone : List Nat) (isSlab : ∀ t ∈ gone, ∃ l, v.slabs t = some ⟨c, l⟩)
    (slabs : ∀ t, v'.slabs t = if t ∈ gone then none else v.slabs t)
    (shape : ∀ t w, v'.slabs t = some w → (k'.desc w.cache).slabBytes = (k.desc w.cache).slabBytes)
    (live : Kmem.live k' v'.slabs = Kmem.live k v.slabs) :
    k'.freePages = k.freePages ∪ {p | ∃ t ∈ gone, k.page p ∈ Set.Ico t (t + (k.desc c).slabBytes)} ∧
      Disjoint k.freePages {p | ∃ t ∈ gone, k.page p ∈ Set.Ico t (t + (k.desc c).slabBytes)} := by
  constructor
  · ext p
    rw [Set.mem_union, Buddy.mem_freePages_span, Buddy.mem_freePages_span,
      core'.slabs.mem_span_free,
      core.slabs.mem_span_free, place.page, place.regionBytes, live, Set.mem_ofPred_eq]
    constructor
    · rintro ⟨inRegion, noSlab, noBlock⟩
      by_cases given : ∃ t ∈ gone, k.page p ∈ Set.Ico t (t + (k.desc c).slabBytes)
      · exact Or.inr given
      refine Or.inl ⟨inRegion, ?_, noBlock⟩
      intro t w isSlab₁ inside
      by_cases isGone : t ∈ gone
      · obtain ⟨l, isSlab₂⟩ := isSlab t isGone
        rw [isSlab₁, Option.some.injEq] at isSlab₂
        rw [isSlab₂] at inside
        exact given ⟨t, isGone, inside⟩
      · have stays : v'.slabs t = some w := by
          rw [slabs, if_neg isGone]
          exact isSlab₁
        refine noSlab t w stays ?_
        rw [shape t w stays]
        exact inside
    · rintro (⟨inRegion, noSlab, noBlock⟩ | ⟨t, isGone, inside⟩)
      · refine ⟨inRegion, ?_, noBlock⟩
        intro t w stays inside
        rw [shape t w stays] at inside
        rw [slabs] at stays
        split_ifs at stays
        exact noSlab t w stays inside
      · obtain ⟨l, isSlab₁⟩ := isSlab t isGone
        refine ⟨?_, ?_, ?_⟩
        · obtain ⟨i, address, _⟩ := core.slabs.placed t _ isSlab₁
          have fits := core.slabs.fits isSlab₁
          have low := inside.1
          have high := inside.2
          simp only [Buddy.page] at address fits low high ⊢
          exact ⟨by omega, by omega⟩
        · -- a slab that stays does not overlap one that is gone
          intro t' w stays inside'
          rw [shape t' w stays] at inside'
          rw [slabs] at stays
          split_ifs at stays with isGone'
          have ne : t' ≠ t := fun eq => isGone' (eq ▸ isGone)
          exact core.slabs.apart stays isSlab₁ ne inside' inside
        · rintro base order ⟨i, member, unowned, rfl⟩ inBlock
          rw [SlabsInv.block_eq] at inBlock
          exact core.slabs.notSlab_apart member unowned isSlab₁ inBlock inside
  · rw [Set.disjoint_left]
    rintro p isFree ⟨t, isGone, inside⟩
    obtain ⟨l, isSlab₁⟩ := isSlab t isGone
    rw [Buddy.mem_freePages_span] at isFree
    exact core.slabs.not_free isSlab₁ inside isFree

/-- The slabs on some lists, in the view of the invariant. -/
theorem Core.slabPages_eq (core : Core k v) (used : k.Used c) (lists : Set SlabList) :
    k.slabPages c lists = {p | ∃ list ∈ lists, ∃ s ∈ v.lists c list,
      k.page p ∈ Set.Ico s (s + (k.desc c).slabBytes)} := by
  unfold slabPages
  simp only [core.listed_iff used]

/-! ### Live objects and lists -/

/-- A list is empty when its head is null. -/
theorem Core.head_eq_zero (core : Core k v) (used : k.Used c) (list : SlabList) :
    (k.desc c).head list = 0 ↔ v.lists c list = [] := by
  have linked := core.lists.linked c used list
  constructor
  · intro zero
    rw [zero] at linked
    exact linked.eq_nil_of_stop
  · intro nil
    rw [nil] at linked
    exact linked.stop_of_nil

/-- A slab that is not empty has a live object. -/
theorem exists_live {s : Nat} {l : List Nat} (isSlab : v.slabs s = some ⟨c, l⟩)
    (fewer : l.length < (k.desc c).objsPerSlab) :
    ∃ p, .object c p (k.desc c).objectSize ∈ live k v.slabs := by
  obtain ⟨x, inRange, notFree⟩ : ∃ x ∈ Finset.range (k.desc c).objsPerSlab, x ∉ l.toFinset := by
    refine Finset.exists_mem_notMem_of_card_lt_card ?_
    rw [Finset.card_range]
    exact l.toFinset_card_le.trans_lt fewer
  rw [List.mem_toFinset] at notFree
  exact ⟨_, rfl, s, l, x, isSlab, Finset.mem_range.mp inRange, notFree, rfl⟩

/-- **A cache has no live object exactly when only its empty list has slabs.** -/
theorem Core.noLive_iff (core : Core k v) (used : k.Used c) :
    (∀ p, .object c p (k.desc c).objectSize ∉ live k v.slabs) ↔
      (k.desc c).partialSlabs = 0 ∧ (k.desc c).fullSlabs = 0 := by
  have positive := (core.slabs.geometry c used).objs_pos
  have partialNil := core.head_eq_zero used .partials
  have fullNil := core.head_eq_zero used .full
  constructor
  · intro none
    have idle : ∀ list, list ≠ .empty → v.lists c list = [] := by
      intro list notEmpty
      rw [List.eq_nil_iff_forall_not_mem]
      intro s member
      obtain ⟨l, isSlab⟩ := core.isSlab member
      have category := core.category c list s l member isSlab
      have fewer : l.length < (k.desc c).objsPerSlab := by
        cases list with
        | full =>
          have zero : l.length = 0 := category
          omega
        | partials => exact category.2
        | empty => exact absurd rfl notEmpty
      obtain ⟨p, isLive⟩ := exists_live isSlab fewer
      exact none p isLive
    exact ⟨partialNil.mpr (idle .partials nofun), fullNil.mpr (idle .full nofun)⟩
  · rintro ⟨noPartial, noFull⟩ p ⟨_, s, l, x, isSlab, lt, notFree, _⟩
    obtain ⟨list, member⟩ := (core.listed s c).mp ⟨l, isSlab⟩
    have category := core.category c list s l member isSlab
    cases list with
    | full =>
      rw [fullNil.mp noFull] at member
      cases member
    | partials =>
      rw [partialNil.mp noPartial] at member
      cases member
    | empty => exact notFree ((core.slabs.header s _ isSlab).all_free category x lt)

/-! ### The calls -/

/-- What `kmem_cache_shrink` does, and the number it returns. -/
structure Shrinks (k k' : Kmem) (held : List Allocation) (c freed : Nat) : Prop where
  /-- The number of slabs on the empty list. -/
  count : ∃ l, Chain (slabNext k.mem) 0 ((k.desc c).head .empty) l ∧ l.Nodup ∧ freed = l.length
  emptied : (k'.desc c).head .empty = 0
  /-- The full and the partial list are the same. -/
  lists : ∀ list ≠ .empty, ∀ l, Chain (slabNext k'.mem) 0 ((k'.desc c).head list) l ↔
    Chain (slabNext k.mem) 0 ((k.desc c).head list) l
  /-- So are the live objects of every cache, the live blocks, and their contents. -/
  live : ∀ d, k'.liveObjects d = k.liveObjects d
  blocks : k'.liveBlocks = k.liveBlocks
  contents : ∀ p ∈ heldBytes held, k'.mem p = k.mem p
  /-- The free pages grow by the pages of the empty slabs. -/
  pages : k'.freePages = k.freePages ∪ k.slabPages c {.empty}
  grown : Disjoint k.freePages (k.slabPages c {.empty})

/-- What a successful `kmem_cache_destroy` does. -/
structure Destroys (k k' : Kmem) (c : Nat) : Prop where
  /-- The free pages grow by the pages of all slabs of the cache. -/
  pages : k'.freePages = k.freePages ∪ k.slabPages c Set.univ
  grown : Disjoint k.freePages (k.slabPages c Set.univ)
  /-- A page that is not free is in a live block or in a slab of another cache. -/
  accounted : ∀ p < k.num, p ∈ k'.freePages ∨
    (∃ b ∈ k'.liveBlocks, k'.page p ∈ (Allocation.block b.1 b.2).bytes) ∨
    ∃ d ≠ c, k'.Used d ∧ p ∈ k'.slabPages d Set.univ
  owners : ∀ i < k.num, ∀ list s, k.Listed c list s → (k'.blockMeta i).ownerSlab ≠ s
  unused : (k'.desc c).isUsed = false
  unlisted : ∀ l, Chain (fun a => (k'.desc a).next) 0 k'.headOfCacheList l → c ∉ l

/-- The contents of what clients hold are not written when empty slabs are given back. -/
theorem Core.contents_of_gone (core : Core k v) {gone : Set Nat} {mem : Mem}
    (isEmpty : ∀ t ∈ gone, t ∈ v.lists c .empty)
    (written : SameOutside (spare k v.slabs ∪ slabArea k c gone) k.mem mem) {a : Allocation}
    (isLive : a ∈ live k v.slabs) {p : Nat} (inside : p ∈ a.bytes) : mem p = k.mem p := by
  refine written p ?_
  rintro ((⟨t, c', l, isSlab, range⟩ | inFree) | ⟨t, isGone, range⟩)
  · exact core.slabs.live_not_header isLive isSlab inside range
  · exact core.slabs.live_not_free isLive inside inFree
  -- an object of an empty slab is not live
  · obtain ⟨l, isSlab⟩ := core.isSlab (isEmpty t isGone)
    have length : l.length = (k.desc c).objsPerSlab :=
      core.category c .empty t l (isEmpty t isGone) isSlab
    have all := (core.slabs.header t _ isSlab).all_free length
    cases a with
    | block base order =>
      obtain ⟨i, member, unowned, rfl⟩ := isLive
      rw [SlabsInv.block_eq] at inside
      exact core.slabs.notSlab_apart member unowned isSlab inside range
    | object d base size =>
      obtain ⟨rfl, s, l', x, isSlab', lt, notFree, rfl⟩ := isLive
      have object := core.slabs.object_sub isSlab' lt inside
      by_cases eq : s = t
      · subst eq
        rw [isSlab, Option.some.injEq, SlabView.mk.injEq] at isSlab'
        obtain ⟨rfl, rfl⟩ := isSlab'
        exact notFree (all x lt)
      · refine core.slabs.apart isSlab' isSlab eq ?_ range
        exact ⟨le_trans (by omega) object.1, object.2⟩

theorem Sound.shrinks (sound : Sound k held space blockNum) (used : k.Used c) :
    ∃ k' freed, k.kmemCacheShrink c = .ok (k', freed) ∧ Shrinks k k' held c freed := by
  obtain ⟨v, core, same⟩ := sound.view
  obtain ⟨k', v', call, shrunk⟩ := core.kmemCacheShrink_spec used
  have sound' := sound.shrink used call
  have used' := (shrunk.calm.used_iff c).mpr used
  have shape := fun d => KmemCache.SameShape.of_layout (shrunk.calm.layout d)
  have linked := core.lists.linked c used .empty
  obtain ⟨pages, grown⟩ := core.freePages_gone shrunk.core shrunk.calm.samePlace (v.lists c .empty)
    (fun t member => core.isSlab member) (fun t => by
      rw [shrunk.slabs]
      simp only [List.not_mem_nil, not_false_eq_true, and_true])
    (fun t w _ => (shape w.cache).slabBytes) shrunk.live
  have isPages : k.slabPages c {.empty} =
      {p | ∃ t ∈ v.lists c .empty, k.page p ∈ Set.Ico t (t + (k.desc c).slabBytes)} := by
    rw [core.slabPages_eq used]
    simp only [Set.mem_singleton_iff, exists_eq_left]
  refine ⟨k', _, call, ⟨_, linked.chain, linked.nodup, rfl⟩, ?_, ?_, ?_, ?_, ?_, ?_, ?_⟩
  · rw [shrunk.core.head_eq_zero used', shrunk.lists, setList_self]
  · intro list ne l
    have before := (core.lists.linked c used list).chain
    have after := (shrunk.core.lists.linked c used' list).chain
    rw [shrunk.lists, setList_of_ne fun here => ne here.2] at after
    constructor
    · exact fun chain => chain.unique after ▸ before
    · exact fun chain => chain.unique before ▸ after
  · intro d
    rw [sound'.liveObjects_eq, sound.liveObjects_eq, (shape d).objectSize]
  · rw [sound'.liveBlocks_eq, sound.liveBlocks_eq]
  · rintro p ⟨a, isHeld, inside⟩
    exact core.contents_of_gone (fun t gone => gone.1) shrunk.mem ((same a).mp isHeld) inside
  · rw [isPages]
    exact pages
  · rw [isPages]
    exact grown

/-- Every page is free, in a live block, or in a slab of a used cache. -/
theorem Core.accounted (core : Core k v) {p : Nat} (lt : p < k.num) : p ∈ k.freePages ∨
    (∃ b ∈ k.liveBlocks, k.page p ∈ (Allocation.block b.1 b.2).bytes) ∨
    ∃ d, k.Used d ∧ p ∈ k.slabPages d Set.univ := by
  by_contra lost
  rw [not_or, not_or] at lost
  obtain ⟨notFree, noBlock, noSlab⟩ := lost
  refine notFree (k.toBuddy.mem_freePages_span.mpr (core.slabs.mem_span_free.mpr ⟨?_, ?_, ?_⟩))
  · simp only [Buddy.page]
    exact ⟨by omega, by omega⟩
  · intro t w isSlab inside
    have used := core.slabs.used t w isSlab
    obtain ⟨list, member⟩ := (core.listed t w.cache).mp ⟨w.free, isSlab⟩
    exact noSlab ⟨w.cache, used, list, Set.mem_univ _, t, (core.listed_iff used).mpr member, inside⟩
  · exact fun base order isLive inside => noBlock ⟨(base, order), isLive, inside⟩

/-- **A cache has no live object exactly when its partial and its full list are empty.** -/
theorem Sound.liveObjects_eq_empty_iff (sound : Sound k held space blockNum) (used : k.Used c) :
    k.liveObjects c = ∅ ↔ (k.desc c).partialSlabs = 0 ∧ (k.desc c).fullSlabs = 0 := by
  obtain ⟨v, core, same⟩ := sound.view
  rw [← core.noLive_iff used, sound.liveObjects_eq, Set.eq_empty_iff_forall_notMem]
  simp only [Set.mem_ofPred_eq, same]

theorem Sound.destroys (sound : Sound k held space blockNum) (used : k.Used c) :
    ∃ k', k.kmemCacheDestroy c = .ok k' ∧
      ((k'.desc c).isUsed = false ↔ (∀ j < kmallocNumCaches, k.kmallocCaches j ≠ c) ∧
        k.liveObjects c = ∅) ∧
      ((k'.desc c).isUsed = false → Destroys k k' c) ∧
      ((k'.desc c).isUsed = true →
        ∃ error, k' = k.modifyDesc c fun d => { d with errorCode := error }) := by
  obtain ⟨v, core, _⟩ := sound.view
  have noLive := sound.liveObjects_eq_empty_iff used
  rcases core.kmemCacheDestroy_cases used (sound.idle c used) with
    ⟨error, call, busy⟩ | ⟨k', v', call, dropped, notKmalloc, noPartial, noFull⟩
  · have stays :
        ((k.modifyDesc c fun d => { d with errorCode := error }).desc c).isUsed = true := by
      obtain ⟨_, _, _, on⟩ := used
      rw [modifyDesc_self]
      exact on
    refine ⟨_, call, ?_, fun off => ?_, fun _ => ⟨error, rfl⟩⟩
    · refine iff_of_false (fun off => ?_) ?_
      · rw [stays] at off
        cases off
      · rintro ⟨notKmalloc, none⟩
        obtain ⟨noPartial, noFull⟩ := noLive.mp none
        rcases busy with ⟨j, lt, eq⟩ | some_ | some_
        · exact notKmalloc j lt eq
        · exact some_ noPartial
        · exact some_ noFull
    · rw [stays] at off
      cases off
  · have recast := dropped.recast
    have gone : ¬ k'.Used c := fun stays => ((dropped.used c).mp stays).1 rfl
    have off : (k'.desc c).isUsed = false := by
      obtain ⟨i, lt, isSlot, _⟩ := used
      by_contra on
      rw [Bool.not_eq_false] at on
      exact gone ⟨i, lt, isSlot.trans (recast.place.slot i).symm, on⟩
    have onlyEmpty : ∀ list s, s ∈ v.lists c list → s ∈ v.lists c .empty := by
      intro list s member
      cases list with
      | full =>
        rw [(core.head_eq_zero used .full).mp noFull] at member
        cases member
      | partials =>
        rw [(core.head_eq_zero used .partials).mp noPartial] at member
        cases member
      | empty => exact member
    have isPages : k.slabPages c Set.univ =
        {p | ∃ t ∈ v.lists c .empty, k.page p ∈ Set.Ico t (t + (k.desc c).slabBytes)} := by
      rw [core.slabPages_eq used]
      ext p
      constructor
      · rintro ⟨list, _, s, member, inside⟩
        exact ⟨s, onlyEmpty list s member, inside⟩
      · rintro ⟨s, member, inside⟩
        exact ⟨.empty, Set.mem_univ _, s, member, inside⟩
    have otherCache : ∀ t w, v'.slabs t = some w → w.cache ≠ c ∧ v.slabs t = some w := by
      intro t w isSlab
      have used' := recast.core.slabs.used t w isSlab
      rw [dropped.slabs] at isSlab
      split_ifs at isSlab
      exact ⟨((dropped.used _).mp used').1, isSlab⟩
    obtain ⟨pages, grown⟩ := core.freePages_gone recast.core recast.place (v.lists c .empty)
      (fun t member => core.isSlab member) dropped.slabs (fun t w isSlab => by
        obtain ⟨ne, before⟩ := otherCache t w isSlab
        exact (recast.kept _ ne (core.slabs.used t w before)).2.slabBytes) recast.live
    refine ⟨k', call, iff_of_true off ⟨notKmalloc, noLive.mpr ⟨noPartial, noFull⟩⟩, fun _ => ?_,
      fun on => ?_⟩
    · refine ⟨isPages ▸ pages, isPages ▸ grown, ?_, ?_, off, ?_⟩
      · intro p lt
        rw [← recast.place.num] at lt
        rcases recast.core.accounted lt with isFree | inBlock | ⟨d, used', inSlab⟩
        · exact Or.inl isFree
        · exact Or.inr (Or.inl inBlock)
        · exact Or.inr (Or.inr ⟨d, ((dropped.used d).mp used').1, used', inSlab⟩)
      · intro i lt list s isListed owner
        have member := onlyEmpty list s ((core.listed_iff used).mp isListed)
        obtain ⟨l, isSlab⟩ := core.isSlab member
        rw [← recast.place.num] at lt
        obtain ⟨w, isSlab', _⟩ :=
          (recast.core.slabs.owner i lt s (core.slabs.nonzero isSlab)).mp owner
        rw [dropped.slabs, if_pos member] at isSlab'
        cases isSlab'
      · intro l chain member
        rw [chain.unique recast.core.pool.linked.chain, recast.core.pool.members] at member
        exact gone member
    · rw [off] at on
      cases on

/-- **Shrinking and destroying a cache in every reachable state.** -/
theorem giveBack_reachable (given : Space space blockNum) (head : k₀.headOfCacheList = 0)
    (tail : k₀.tailOfCacheList = 0) (run : Run k₀ space blockNum isKernel k held)
    (used : k.Used c) :
    (∃ k' freed, k.kmemCacheShrink c = .ok (k', freed) ∧ Shrinks k k' held c freed) ∧
    ∃ k', k.kmemCacheDestroy c = .ok k' ∧
      ((k'.desc c).isUsed = false ↔ (∀ j < kmallocNumCaches, k.kmallocCaches j ≠ c) ∧
        k.liveObjects c = ∅) ∧
      ((k'.desc c).isUsed = false → Destroys k k' c) ∧
      ((k'.desc c).isUsed = true →
        ∃ error, k' = k.modifyDesc c fun d => { d with errorCode := error }) :=
  ⟨(run.sound given head tail).shrinks used, (run.sound given head tail).destroys used⟩

/-- An object is allocated and freed, which leaves an empty slab; the slab is given back. -/
theorem giveBack_reachable_sixteenPages : ∃ k k' c, Run zeroed 4096 16 false k [] ∧ k.Used c ∧
    k.kmemCacheShrink c = .ok (k', 1) ∧ Shrinks k k' [] c 1 := by
  obtain ⟨k₁, init, observed⟩ :=
    exists_ok (zeroed.kmemInit 4096 16 false) (fun k => ((k.kmalloc 100).map fun r =>
    (r.2,
      ((r.1.kFree 65632).map fun k =>
    ((k.kmemCacheShrink (k.kmallocCaches 2)).map Prod.snd).toOption).toOption)).toOption)
    (some (65632, some (some 1))) (by decide +kernel)
  obtain ⟨⟨k₂, obj⟩, call, observed⟩ := exists_ok _ _ _ observed
  obtain ⟨rfl, observed⟩ := Prod.mk.inj observed
  obtain ⟨k₃, free, observed⟩ := exists_ok _ _ _ observed
  obtain ⟨⟨k₄, freed⟩, shrink, rfl⟩ := exists_ok _ _ _ observed
  have run := (Run.init init).call (.allocator (.kmalloc call))
  rw [handOut_of_ne (by decide)] at run
  have run' := run.call (.allocator (.kFree List.mem_cons_self free))
  rw [List.erase_cons_head] at run'
  have used := ((run'.sound space_sixteenPages rfl rfl).kmalloc 2 (by decide)).1
  obtain ⟨k', freed, shrink', shrinks⟩ :=
    (giveBack_reachable space_sixteenPages rfl rfl run' used).1
  obtain ⟨rfl, rfl⟩ := Prod.mk.inj (Except.ok.inj (shrink'.symm.trans shrink))
  exact ⟨k₃, k', _, run', used, shrink', shrinks⟩

end Kmem

end Xv6Slab
