/-
**Creating, using and destroying a cache of a process.**

`sys_k_kmem_cache_create` takes a page for the name, and `kmem_cache_destroy` gives back the slabs
and the descriptor only.

* `Beside c k k'` — the other caches keep their descriptors and pages, and the blocks stay.
* `Core.mem_freePages_iff` — a page is free when it is in no live block and in no slab of a used
  cache.
* `roundTrip_loses` — **every round of a create, any use that frees what it allocated, and a destroy
  gives back the descriptor and all pages but one.**
-/

import Xv6Slab.Kernel.Results
import Xv6Slab.Spec.GiveBack

namespace Xv6Slab

open Bytes Machine

/-! ### The other caches -/

namespace Kmem

variable {k k' k'' : Kmem} {v v' : View} {held : List Allocation} {space c : Nat} {blockNum : Int}

/-- **What happens to one cache leaves the others alone**: they keep their descriptors and the pages
of their slabs, and the live blocks stay. -/
structure Beside (c : Nat) (k k' : Kmem) : Prop where
  place : SamePlace k k'
  kmalloc : k'.kmallocCaches = k.kmallocCaches
  used : ∀ a ≠ c, (k'.Used a ↔ k.Used a)
  pages : ∀ a ≠ c, k.Used a → k'.slabPages a Set.univ = k.slabPages a Set.univ
  blocks : k'.liveBlocks = k.liveBlocks

theorem Beside.refl (c : Nat) (k : Kmem) : Beside c k k :=
  ⟨⟨rfl, rfl, rfl, rfl, rfl⟩, rfl, fun _ _ => Iff.rfl, fun _ _ _ => rfl, rfl⟩

theorem Beside.trans (first : Beside c k k') (second : Beside c k' k'') : Beside c k k'' where
  place := first.place.trans second.place
  kmalloc := second.kmalloc.trans first.kmalloc
  used := fun a ne => (second.used a ne).trans (first.used a ne)
  pages := fun a ne used => (second.pages a ne ((first.used a ne).mpr used)).trans
    (first.pages a ne used)
  blocks := second.blocks.trans first.blocks

/-- The pages of the slabs of a cache, in the view of the invariant. -/
theorem Core.mem_slabPages (core : Core k v) (used : k.Used c) {p : Nat} :
    p ∈ k.slabPages c Set.univ ↔ ∃ t l, v.slabs t = some ⟨c, l⟩ ∧
    k.page p ∈ Set.Ico t (t + (k.desc c).slabBytes) := by
  rw [core.slabPages_eq used]
  constructor
  · rintro ⟨list, _, t, member, inside⟩
    obtain ⟨l, isSlab⟩ := core.isSlab member
    exact ⟨t, l, isSlab, inside⟩
  · rintro ⟨t, l, isSlab, inside⟩
    obtain ⟨list, member⟩ := (core.listed t c).mp ⟨l, isSlab⟩
    exact ⟨list, Set.mem_univ _, t, member, inside⟩

/-- **A page is free when it is in no live block and in no slab of a used cache.** -/
theorem Core.mem_freePages_iff (core : Core k v) {p : Nat} : p ∈ k.freePages ↔ p < k.num ∧
    (∀ b ∈ k.liveBlocks, k.page p ∉ (Allocation.block b.1 b.2).bytes) ∧ ∀ a, k.Used a →
    p ∉ k.slabPages a Set.univ := by
  constructor
  · intro isFree
    have lt := ((Buddy.mem_freePages core.slabs.pool).mp isFree).1
    obtain ⟨_, noSlab, noBlock⟩ :=
      core.slabs.mem_span_free.mp (k.toBuddy.mem_freePages_span.mp isFree)
    refine ⟨lt, fun b isLive => noBlock b.1 b.2 isLive, fun a used inSlab => ?_⟩
    obtain ⟨t, l, isSlab, inside⟩ := (core.mem_slabPages used).mp inSlab
    exact noSlab t _ isSlab inside
  · rintro ⟨lt, noBlock, noSlab⟩
    rcases core.accounted lt with isFree | ⟨b, isLive, inside⟩ | ⟨a, used, inSlab⟩
    · exact isFree
    · exact absurd inside (noBlock b isLive)
    · exact absurd inSlab (noSlab a used)

/-- The free pages are the same, when the cache has no slab before and none after. -/
theorem Beside.freePages (beside : Beside c k k') (core : Core k v) (core' : Core k' v')
    (before : ∀ p, k.Used c → p ∉ k.slabPages c Set.univ)
    (after : ∀ p, k'.Used c → p ∉ k'.slabPages c Set.univ) : k'.freePages = k.freePages := by
  ext p
  rw [core.mem_freePages_iff, core'.mem_freePages_iff, beside.place.num, beside.blocks,
    beside.place.page]
  refine and_congr_right fun _ => and_congr_right fun _ => ⟨fun noSlab a used => ?_,
    fun noSlab a used => ?_⟩
  · by_cases same : a = c
    · exact same ▸ before p (same ▸ used)
    · rw [← beside.pages a same used]
      exact noSlab a ((beside.used a same).mpr used)
  · by_cases same : a = c
    · exact same ▸ after p (same ▸ used)
    · have usedBefore := (beside.used a same).mp used
      rw [beside.pages a same usedBefore]
      exact noSlab a usedBefore

/-- **A change that keeps the slabs of the other caches.** -/
theorem Core.beside (core : Core k v) (core' : Core k' v') (place : SamePlace k k')
    (kmalloc : k'.kmallocCaches = k.kmallocCaches) (used : ∀ a ≠ c, (k'.Used a ↔ k.Used a))
    (slabs : ∀ t a l, a ≠ c → (v'.slabs t = some ⟨a, l⟩ ↔ v.slabs t = some ⟨a, l⟩))
    (bytes : ∀ a ≠ c, k.Used a → (k'.desc a).slabBytes = (k.desc a).slabBytes)
    (blocks : ∀ base order, .block base order ∈ live k' v'.slabs ↔
      .block base order ∈ live k v.slabs) : Beside c k k' := by
  refine ⟨place, kmalloc, used, fun a ne isUsed => ?_, Set.ext fun b => blocks b.1 b.2⟩
  ext p
  rw [core.mem_slabPages isUsed, core'.mem_slabPages ((used a ne).mpr isUsed), bytes a ne isUsed,
    place.page]
  simp only [slabs _ a _ ne]

/-- The same, for a change that keeps the caches. -/
theorem Core.beside_calm (core : Core k v) (core' : Core k' v') (calm : Calm k k')
    (slabs : ∀ t a l, a ≠ c → (v'.slabs t = some ⟨a, l⟩ ↔ v.slabs t = some ⟨a, l⟩))
    (blocks : ∀ base order, .block base order ∈ live k' v'.slabs ↔
      .block base order ∈ live k v.slabs) : Beside c k k' :=
  core.beside core' calm.samePlace calm.kmallocCaches (fun a _ => calm.used_iff a) slabs
    (fun a _ _ => (KmemCache.SameShape.of_layout (calm.layout a)).slabBytes) blocks

/-- A slab of the cache is exchanged for another of the same cache. -/
theorem slabs_update {slabs : Nat → Option SlabView} {s : Nat} {l : List Nat}
    (own : ∀ w, slabs s = some w → w.cache = c) {t a : Nat} {m : List Nat} (ne : a ≠ c) :
    Function.update slabs s (some ⟨c, l⟩) t = some ⟨a, m⟩ ↔ slabs t = some ⟨a, m⟩ := by
  by_cases same : t = s
  · subst same
    rw [Function.update_self]
    constructor
    · intro eq
      cases eq
      exact absurd rfl ne
    · exact fun isSlab => absurd (own _ isSlab) ne
  · rw [Function.update_of_ne same]

/-- `kmem_cache_alloc` concerns its cache only. -/
theorem Sound.beside_alloc (sound : Sound k held space blockNum) (used : k.Used c) {obj : Nat}
    (run : k.kmemCacheAlloc c = .ok (k', obj)) : Beside c k k' := by
  obtain ⟨v, core, _⟩ := sound.view
  rcases core.kmemCacheAlloc_cases used (sound.idle c used) with
    ⟨call, _⟩ | ⟨s, x, k₁, v₁, call, _, takes, gains⟩ |
      ⟨b, i, m, k₁, v₁, call, _, _, _, grows, gains⟩
  · rw [call] at run
    cases run
    have keeps := core.setError c .buddyOom
    exact core.beside_calm keeps.core keeps.calm (fun _ _ _ _ => Iff.rfl) fun _ _ => by
      rw [keeps.live]
  · rw [call] at run
    cases run
    obtain ⟨l, isSlab, slabs⟩ := takes.slab
    refine core.beside_calm gains.core gains.calm (fun t a m ne => ?_) fun base order => ?_
    · rw [slabs]
      exact slabs_update (fun w isW => by rw [isSlab] at isW; cases isW; rfl) ne
    · rw [gains.live, Set.mem_insert_iff]
      exact or_iff_right nofun
  · rw [call] at run
    cases run
    refine core.beside_calm gains.core gains.calm (fun t a m ne => ?_) fun base order => ?_
    · rw [grows.slabs]
      refine slabs_update (fun w isW => ?_) ne
      -- the page of the new slab was free
      have isFree : i ∈ k.freePages :=
        (grows.freePages core.slabs.pool).1 (Tilings.Block.covers_index _)
      have inSlab : k.page i ∈ Set.Ico (b.page i) (b.page i + (k.desc w.cache).slabBytes) := by
        have positive : 0 < (k.desc w.cache).slabBytes := by
          unfold KmemCache.slabBytes
          positivity
        rw [grows.effect.same.page]
        exact ⟨le_rfl, Nat.lt_add_of_pos_right positive⟩
      exact absurd (k.toBuddy.mem_freePages_span.mp isFree) (core.slabs.not_free isW inSlab)
    · rw [gains.live, Set.mem_insert_iff]
      exact or_iff_right nofun

/-- `kmem_cache_free` of a live object concerns its cache only. -/
theorem Sound.beside_free (sound : Sound k held space blockNum) {p : Nat}
    (isLive : p ∈ k.liveObjects c) (run : k.kmemCacheFree c p = .ok k') : Beside c k k' := by
  rw [sound.liveObjects_eq] at isLive
  have used := (sound.used_of_held isLive).1
  obtain ⟨v, core, same⟩ := sound.view
  obtain ⟨s, x, k₁, v₁, _, call, gives, loses⟩ :=
    core.kmemCacheFree_gives (sound.idle c used) ((same _).mp isLive)
  rw [call] at run
  cases run
  obtain ⟨l, isSlab, _, slabs⟩ := gives.slab
  refine core.beside_calm loses.core loses.calm (fun t a m ne => ?_) fun base order => ?_
  · rw [slabs]
    exact slabs_update (fun w isW => by rw [isSlab] at isW; cases isW; rfl) ne
  · rw [loses.live]
    exact and_iff_left nofun

/-- So does an error code. -/
theorem Sound.beside_onlyError (sound : Sound k held space blockNum) (only : OnlyError k k' c) :
    Beside c k k' := by
  rcases only with rfl | ⟨code, rfl⟩
  · exact .refl c k'
  obtain ⟨v, core, _⟩ := sound.view
  have keeps := core.setError c code
  exact core.beside_calm keeps.core keeps.calm (fun _ _ _ _ => Iff.rfl) fun _ _ => by
    rw [keeps.live]

/-- **`kmem_cache_destroy` of a cache without live objects** concerns its cache only, which is no
longer used. -/
theorem Sound.beside_destroy (sound : Sound k held space blockNum) (used : k.Used c)
    (notKmalloc : ∀ j < kmallocNumCaches, k.kmallocCaches j ≠ c) (none : k.liveObjects c = ∅) :
    ∃ k', k.kmemCacheDestroy c = .ok k' ∧ Sound k' held space blockNum ∧ Beside c k k' ∧
    ¬ k'.Used c := by
  obtain ⟨v, core, _⟩ := sound.view
  obtain ⟨noPartial, noFull⟩ := (sound.liveObjects_eq_empty_iff used).mp none
  obtain ⟨k', v', call, dropped⟩ := core.kmemCacheDestroy_idle used notKmalloc noPartial noFull
  have recast := dropped.recast
  refine ⟨k', call, sound.destroy used call,
    core.beside recast.core recast.place recast.kmalloc (fun a ne => ?_) (fun t a m ne => ?_)
    (fun a ne isUsed => (recast.kept a ne isUsed).2.slabBytes) (fun _ _ => by rw [recast.live]),
    fun stays => ((dropped.used c).mp stays).1 rfl⟩
  · rw [dropped.used]
    exact and_iff_right ne
  · rw [dropped.slabs]
    split_ifs with gone
    · obtain ⟨l, isSlab⟩ := core.isSlab gone
      refine iff_of_false nofun fun isOther => ?_
      rw [isSlab] at isOther
      cases isOther
      exact ne rfl
    · exact Iff.rfl

/-- A cache whose lists are empty has no page. -/
theorem Sound.notMem_slabPages (sound : Sound k held space blockNum) (used : k.Used c)
    (heads : ∀ list, (k.desc c).head list = 0) (p : Nat) : p ∉ k.slabPages c Set.univ := by
  obtain ⟨v, core, _⟩ := sound.view
  rw [core.slabPages_eq used]
  rintro ⟨list, _, t, member, _⟩
  rw [(core.head_eq_zero used list).mp (heads list)] at member
  cases member

end Kmem

/-! ### Using a cache -/

namespace Kernel

variable {s s' s₁ s₂ : Kernel} {p arena d : Nat} {pages : Int} {held : List Allocation}
  {hc : UInt64} {k₁ : Kmem}

/-- A use of a cache through its handle. -/
inductive Use
  | alloc
  | free (uobj : UInt64)
  deriving DecidableEq

def Use.call (hc : UInt64) : Use → Call
  | alloc => .cacheAlloc hc
  | free uobj => .cacheFree hc uobj

/-- One use by a process. -/
def useStep (p : Nat) (hc : UInt64) (s : Kernel) (use : Use) : Option Kernel :=
  callStep s (p, use.call hc)

theorem toKernel_of_window {q q' : Proc} (window : q'.window = q.window) (x : UInt64) :
    q'.toKernel x = q.toKernel x := by
  simp only [Proc.window, Prod.mk.injEq] at window
  unfold Proc.toKernel
  rw [window.1, window.2.2.1]

/-- The cache of a handle is in use, and the others are as in an earlier state of the allocator. -/
structure InUse (k₁ : Kmem) (p arena : Nat) (pages : Int) (hc : UInt64) (d : Nat) (s : Kernel) :
    Prop where
  arena : ∃ held, Arena s p arena pages held
  used : (s.ukmem p).Used d
  handle : ((s.proc p).toKernel hc).toNat = d
  beside : Kmem.Beside d k₁ (s.ukmem p)

namespace InUse

theorem of_eq (inUse : InUse k₁ p arena pages hc d s) (ukmem : s'.ukmem p = s.ukmem p)
    (window : (s'.proc p).window = (s.proc p).window) : InUse k₁ p arena pages hc d s' := by
  obtain ⟨held, holds⟩ := inUse.arena
  refine ⟨⟨held, holds.setUkmem holds.sound ukmem window⟩, ?_, ?_, ?_⟩
  · rw [ukmem]
    exact inUse.used
  · rw [toKernel_of_window window]
    exact inUse.handle
  · rw [ukmem]
    exact inUse.beside

/-- An operation of the allocator on the cache. -/
theorem setUkmem (inUse : InUse k₁ p arena pages hc d s) {k : Kmem}
    (sound : Kmem.Sound k held arena pages) (used : k.Used d)
    (beside : Kmem.Beside d (s.ukmem p) k) : InUse k₁ p arena pages hc d (s.setUkmem p k) := by
  obtain ⟨_, holds⟩ := inUse.arena
  refine ⟨⟨held, holds.setUkmem sound (by simp) (by simp)⟩, ?_, ?_, ?_⟩
  · rw [ukmem_setUkmem]
    exact used
  · rw [toKernel_of_window (window_setUkmem k)]
    exact inUse.handle
  · rw [ukmem_setUkmem]
    exact inUse.beside.trans beside

theorem alloc (inUse : InUse k₁ p arena pages hc d s) {value : UInt64}
    (done : (Call.cacheAlloc hc).exec s p = .ok (s', value)) : InUse k₁ p arena pages hc d s' := by
  obtain ⟨held, holds⟩ := inUse.arena
  obtain ⟨⟨t, kobj⟩, alloc, done⟩ := bind_eq_ok done
  cases done
  have used := inUse.used
  rcases allocObject_cases alloc with ⟨rfl | rfl, _⟩ | ⟨_, k, run, rfl⟩
  · exact inUse
  · exact inUse.of_eq rfl rfl
  · rw [inUse.handle] at run
    obtain ⟨k', obj, call, leaves, result⟩ := holds.sound.alloc_cases used
    obtain ⟨rfl, rfl⟩ := Prod.mk.inj (Except.ok.inj (call.symm.trans run))
    have used' := (leaves.used d).mpr used
    have beside := holds.sound.beside_alloc used run
    rcases result with ⟨_, sound⟩ | ⟨_, _, sound⟩
    · exact inUse.setUkmem sound used' beside
    · exact inUse.setUkmem sound used' beside

theorem free (inUse : InUse k₁ p arena pages hc d s) {uobj value : UInt64}
    (freesLive : FreesLive s p (.cacheFree hc uobj))
    (done : (Call.cacheFree hc uobj).exec s p = .ok (s', value)) :
    InUse k₁ p arena pages hc d s' := by
  obtain ⟨held, holds⟩ := inUse.arena
  have exec := (sysKmemCacheFree_inited holds.inited hc uobj).symm.trans done
  by_cases null : hc = 0 ∨ uobj = 0
  · rw [if_pos null] at exec
    cases exec
    exact inUse
  rw [if_neg null] at exec
  by_cases outside : (s.proc p).toKernel uobj < (s.proc p).kheapwinBase ∨
      (s.proc p).kheapwinBase + (s.proc p).windowBytes ≤ (s.proc p).toKernel uobj
  · rw [if_pos outside] at exec
    cases exec
    exact inUse
  rw [if_neg outside, inUse.handle] at exec
  rw [not_or, UInt64.not_lt, UInt64.not_le] at outside
  obtain ⟨k, free, done⟩ := bind_eq_ok exec
  cases done
  rcases freesLive d ⟨holds.inited, (not_or.mp null).1, (not_or.mp null).2, outside,
    inUse.handle.symm⟩ with bad | isLive
  · obtain ⟨k', free', only, _⟩ := holds.sound.rejected inUse.used bad
    obtain rfl : k' = k := Except.ok.inj (free'.symm.trans free)
    exact inUse.setUkmem (holds.sound.of_onlyError only) ((only.used_iff d).mpr inUse.used)
      (holds.sound.beside_onlyError only)
  · have beside := holds.sound.beside_free isLive free
    rw [holds.sound.liveObjects_eq] at isLive
    exact inUse.setUkmem (holds.sound.free isLive free)
      (((holds.sound.free_calm isLive free).used_iff d).mpr inUse.used) beside

/-- **Every use keeps the cache in use and the others as they are.** -/
theorem step (inUse : InUse k₁ p arena pages hc d s) {use : Use}
    (freesLive : FreesLive s p (use.call hc)) (moves : useStep p hc s use = some s') :
    InUse k₁ p arena pages hc d s' := by
  obtain ⟨value, done⟩ := exec_of_callStep moves
  cases use with
  | alloc => exact inUse.alloc done
  | free uobj => exact inUse.free freesLive done

theorem run (inUse : InUse k₁ p arena pages hc d s₁) {uses : List Use}
    (freesLive : Along (useStep p hc) (fun t use => FreesLive t p (use.call hc)) s₁ uses)
    (ran : Machine.run (useStep p hc) s₁ uses = some s₂) : InUse k₁ p arena pages hc d s₂ :=
  inv_of_run (fun _ _ _ inUse freesLive moves => inUse.step freesLive moves) uses inUse
    freesLive ran

end InUse

/-! ### The round trip -/

/-- A cache that was created. -/
theorem Arena.created (holds : Arena s p arena pages held) {uname : Option Name} {size : Int32}
    (create : (Call.cacheCreate uname size).exec s p = .ok (s₁, hc))
    (obtained : (Call.cacheCreate uname size).object s p = .ok d) (nonnull : d ≠ 0) :
    ∃ page, Named s s₁ p arena pages held size.toInt.toNat page d ∧
      (s₁.ukmem p).kmallocCaches = (s.ukmem p).kmallocCaches ∧
      InUse (s₁.ukmem p) p arena pages hc d s₁ := by
  have handle := exec_object create obtained nonnull rfl
  obtain ⟨⟨t, c⟩, call, done⟩ := bind_eq_ok create
  obtain rfl : s₁ = t := by cases c <;> cases done <;> rfl
  have object : (Call.cacheCreate uname size).object s p = .ok (c.getD 0) :=
    congrArg (Except.map fun r : Kernel × Option Nat => r.2.getD 0) call
  obtain rfl : d = c.getD 0 := Except.ok.inj (obtained.symm.trans object)
  obtain ⟨_, _, _, kmalloc, _⟩ := holds.createCache call
  rcases holds.createCache_named call with ⟨rfl, _⟩ | ⟨page, d, rfl, _, named⟩
  · exact absurd rfl nonnull
  have used := ((named.used nonnull).2 d).mpr (.inl rfl)
  refine ⟨page, named, kmalloc, ⟨⟨_, named.arena⟩, used, ?_, .refl d _⟩⟩
  obtain ⟨v, core, _⟩ := named.arena.sound.view
  rw [handle, UInt64.toNat_ofNat']
  exact Nat.mod_eq_of_lt (core.pool.used_bounds used).2

/-- The free pages of the arena and the used descriptors are what they were. -/
structure RoundTrip (s s' : Kernel) (p : Nat) : Prop where
  pages : (s'.ukmem p).freePages = (s.ukmem p).freePages
  used : ∀ c, (s'.ukmem p).Used c ↔ (s.ukmem p).Used c

/-- **A round of a cache loses the page of the name and nothing else.** -/
theorem Arena.roundTrip (holds : Arena s p arena pages held) {uname : Option Name} {size : Int32}
    (create : (Call.cacheCreate uname size).exec s p = .ok (s₁, hc))
    (obtained : (Call.cacheCreate uname size).object s p = .ok d) (nonnull : d ≠ 0)
    {uses : List Use}
    (freesLive : Along (useStep p hc) (fun t use => FreesLive t p (use.call hc)) s₁ uses)
    (used : run (useStep p hc) s₁ uses = some s₂) (allFreed : (s₂.ukmem p).liveObjects d = ∅) :
    ∃ s₃ value, (Call.cacheDestroy hc).exec s₂ p = .ok (s₃, value) ∧
      (∀ c, (s₃.ukmem p).Used c ↔ (s.ukmem p).Used c) ∧
      ∃ i ∈ (s.ukmem p).freePages, (s₃.ukmem p).freePages = (s.ukmem p).freePages \ {i} := by
  obtain ⟨page, named, kmalloc, inUse₁⟩ := holds.created create obtained nonnull
  obtain ⟨unused, usedIff⟩ := named.used nonnull
  have inUse₂ := inUse₁.run freesLive used
  obtain ⟨held₂, holds₂⟩ := inUse₂.arena
  have notKmalloc : ∀ j < kmallocNumCaches, (s₂.ukmem p).kmallocCaches j ≠ d := by
    rintro j lt rfl
    rw [inUse₂.beside.kmalloc, kmalloc] at unused
    exact unused (holds.sound.kmalloc j lt).1
  obtain ⟨k₃, destroy, sound₃, beside, gone⟩ :=
    holds₂.sound.beside_destroy inUse₂.used notKmalloc allFreed
  have exec := sysKmemCacheDestroy_inited holds₂.inited hc
  have some_ : (s₂.proc p).toKernel hc ≠ 0 :=
    fun null => nonnull (by rw [← inUse₂.handle, null]; rfl)
  rw [if_neg some_, inUse₂.handle, destroy] at exec
  refine ⟨s₂.setUkmem p k₃, 0, exec, fun c => ?_, ?_⟩
  · rw [ukmem_setUkmem]
    by_cases same : c = d
    · rw [same]
      exact iff_of_false gone unused
    · rw [(inUse₂.beside.trans beside).used c same, usedIff]
      exact or_iff_right same
  · obtain ⟨i, isFree, _, freed⟩ := named.taken
    refine ⟨i, isFree, ?_⟩
    obtain ⟨v₁, core₁, _⟩ := named.arena.sound.view
    obtain ⟨v₃, core₃, _⟩ := sound₃.view
    rw [ukmem_setUkmem, ← freed]
    exact (inUse₂.beside.trans beside).freePages core₁ core₃
      (fun q isUsed => named.arena.sound.notMem_slabPages isUsed (named.heads nonnull) q)
      fun _ isUsed => absurd isUsed gone

/-- **In no run of allowed calls from the boot of the kernel does a round of a cache restore the
arena**: when `sys_k_kmem_cache_create` succeeded, and the calls on the new cache left no live
object, `sys_k_kmem_cache_destroy` gives back the descriptor and all pages but the one of the
name. -/
theorem roundTrip_loses {space₀ : Nat} {blockNum₀ : Int} (given : Space space₀ blockNum₀)
    {k₀ k : Kmem} {isKernel : Bool} (head : k₀.headOfCacheList = 0) (tail : k₀.tailOfCacheList = 0)
    (booted : k₀.kmemInit space₀ blockNum₀ isKernel = .ok k) (events : List Event)
    (guarded : Along step Guard (Window.unusedSlot k).kernel events)
    (reached : run step (Window.unusedSlot k).kernel events = some s)
    (inited : (s.proc p).ukmemInited = true) (uname : Option Name) (size : Int32)
    (create : (Call.cacheCreate uname size).exec s p = .ok (s₁, hc))
    (obtained : (Call.cacheCreate uname size).object s p = .ok d) (nonnull : d ≠ 0)
    (uses : List Use)
    (freesLive : Along (useStep p hc) (fun t use => FreesLive t p (use.call hc)) s₁ uses)
    (used : run (useStep p hc) s₁ uses = some s₂) (allFreed : (s₂.ukmem p).liveObjects d = ∅) :
    ∃ s₃ value, (Call.cacheDestroy hc).exec s₂ p = .ok (s₃, value) ∧ ¬ RoundTrip s s₃ p ∧
      (∀ c, (s₃.ukmem p).Used c ↔ (s.ukmem p).Used c) ∧
      ∃ i ∈ (s.ukmem p).freePages, (s₃.ukmem p).freePages = (s.ukmem p).freePages \ {i} := by
  obtain ⟨taken, inv⟩ := Inv.reached given head tail booted guarded reached
  obtain ⟨held, holds⟩ := (inv.granted p inited).arena
  obtain ⟨s₃, value, done, usedIff, i, isFree, freed⟩ :=
    holds.roundTrip create obtained nonnull freesLive used allFreed
  refine ⟨s₃, value, done, fun restored => ?_, usedIff, i, isFree, freed⟩
  rw [← restored.pages, freed] at isFree
  exact isFree.2 rfl

/-- Process 3 creates a cache of objects of 64 bytes, allocates and frees one, and destroys the
cache: the states between the calls, with what the calls return. -/
def oneRoundStates :
    Except Fault (Kmem × Kernel × Kernel × UInt64 × Nat × Nat × Kernel × Kernel × UInt64) := do
  let k ← Kmem.zeroed.kmemInit 0x80030000 32720 true
  let s ← (run step (Window.unusedSlot k).kernel setUp).elim (.error .hang) .ok
  let (s₁, hc) ← (Call.cacheCreate (some shortName) 64).exec s 3
  let d ← (Call.cacheCreate (some shortName) 64).object s 3
  let (_, kobj) ← s₁.allocObject 3 18432
  let s₂ ← (run (useStep 3 18432) s₁ [.alloc, .free 69792]).elim (.error .hang) .ok
  let (s₃, value) ← (Call.cacheDestroy 18432).exec s₂ 3
  return (k, s, s₁, hc, d, kobj, s₂, s₃, value)

/-- The object is given back, and page 10 of the arena is not. -/
def losesPage : Kmem × Kernel × Kernel × UInt64 × Nat × Nat × Kernel × Kernel × UInt64 → Bool
  | (_, s, s₁, hc, d, kobj, s₂, s₃, value) =>
    decide ((s.proc 3).ukmemInited = true ∧ hc = 18432 ∧ d = 2184923136 ∧ kobj ≠ 0 ∧
      ((s₁.proc 3).toKernel 69792).toNat = kobj ∧ ((s₂.ukmem 3).desc 2184923136).partialSlabs = 0 ∧
      ((s₂.ukmem 3).desc 2184923136).fullSlabs = 0 ∧ value = 0 ∧ 10 < (s.ukmem 3).num ∧
      ((s.ukmem 3).blockMeta 10).isHeadOfFreeBlock = true ∧
      ∀ i ∈ List.range 11, ((s₃.ukmem 3).blockMeta i).isHeadOfFreeBlock = true →
        i + 2 ^ ((s₃.ukmem 3).blockMeta i).freeOrder ≤ 10)

/-- The last page of the arena was free before, and is not free after that. -/
theorem oneRound : ∃ k s s₁ s₂ s₃, Kmem.zeroed.kmemInit 0x80030000 32720 true = .ok k ∧
    run step (Window.unusedSlot k).kernel setUp = some s ∧ (s.proc 3).ukmemInited = true ∧
    (Call.cacheCreate (some shortName) 64).exec s 3 = .ok (s₁, 18432) ∧
    (Call.cacheCreate (some shortName) 64).object s 3 = .ok 2184923136 ∧
    Along (useStep 3 18432) (fun t use => FreesLive t 3 (use.call 18432)) s₁ [.alloc, .free 69792] ∧
    run (useStep 3 18432) s₁ [.alloc, .free 69792] = some s₂ ∧
    (s₂.ukmem 3).liveObjects 2184923136 = ∅ ∧
    (Call.cacheDestroy 18432).exec s₂ 3 = .ok (s₃, 0) ∧ 10 ∈ (s.ukmem 3).freePages ∧
    10 ∉ (s₃.ukmem 3).freePages := by
  obtain ⟨⟨k, s, s₁, hc, d, kobj, s₂, s₃, value⟩, done, observed⟩ :=
    exists_ok oneRoundStates losesPage true (by decide +kernel)
  obtain ⟨inited, rfl, rfl, some_, isObject, noPartial, noFull, rfl, lt, isHead, heads⟩ :=
    of_decide_eq_true observed
  unfold oneRoundStates at done
  obtain ⟨k', booted, done⟩ := bind_eq_ok done
  obtain ⟨s', ran, done⟩ := bind_eq_ok done
  obtain ⟨⟨s₁', hc'⟩, create, done⟩ := bind_eq_ok done
  obtain ⟨d', obtained, done⟩ := bind_eq_ok done
  obtain ⟨⟨t, kobj'⟩, alloc, done⟩ := bind_eq_ok done
  obtain ⟨s₂', used, done⟩ := bind_eq_ok done
  obtain ⟨⟨s₃', value'⟩, destroy, done⟩ := bind_eq_ok done
  cases done
  have given : Space 0x80030000 32720 := ⟨by decide, by decide⟩
  obtain ⟨taken, inv⟩ := Inv.reached given rfl rfl booted (guarded_setUp k) (some_of_elim ran)
  obtain ⟨held, holds⟩ := (inv.granted 3 inited).arena
  obtain ⟨page, named, _, inUse⟩ := holds.created create obtained (by decide)
  -- the object that is freed is the one that was allocated
  have freesLive :
      Along (useStep 3 18432) (fun t use => FreesLive t 3 (use.call 18432)) s₁ [.alloc,
        .free 69792] := by
    refine ⟨trivial, fun t' moves => ⟨?_, fun _ _ => trivial⟩⟩
    obtain ⟨value, exec⟩ := exec_of_callStep moves
    have window := exec_window (q := 3) (fun _ _ isInit => by cases isInit) exec
    have inUse' := inUse.alloc exec
    obtain ⟨⟨t'', kobj''⟩, alloc', exec⟩ := bind_eq_ok exec
    obtain ⟨rfl, rfl⟩ := Prod.mk.inj (Except.ok.inj (alloc'.symm.trans alloc))
    cases exec
    rintro c ⟨_, _, _, _, isCache⟩
    rw [inUse'.handle] at isCache
    subst isCache
    obtain ⟨_, _, size, _, holds'⟩ :=
      (named.arena.allocObject (by rw [inUse.handle]; exact inUse.used) alloc).2.resolve_left
      fun failed => some_ failed.1
    rw [inUse.handle] at holds'
    right
    rw [holds'.sound.liveObjects_eq, toKernel_of_window window, isObject]
    obtain ⟨_, isSize⟩ := holds'.sound.used_of_held List.mem_cons_self
    exact isSize ▸ List.mem_cons_self
  have inUse₂ := inUse.run freesLive (some_of_elim used)
  obtain ⟨held₂, holds₂⟩ := inUse₂.arena
  exact ⟨k, s, s₁, s₂, s₃, booted, some_of_elim ran, inited, create, obtained, freesLive,
    some_of_elim used,
    (holds₂.sound.liveObjects_eq_empty_iff inUse₂.used).mpr ⟨noPartial, noFull⟩, destroy,
    Buddy.mem_freePages_of_head lt isHead, Buddy.notMem_freePages heads⟩

theorem roundTrip_loses_oneRound :
    ∃ k s s₁ s₂ s₃ value, Kmem.zeroed.kmemInit 0x80030000 32720 true = .ok k ∧
    run step (Window.unusedSlot k).kernel setUp = some s ∧
    (Call.cacheCreate (some shortName) 64).exec s 3 = .ok (s₁, 18432) ∧
    run (useStep 3 18432) s₁ [.alloc, .free 69792] = some s₂ ∧
    (s₂.ukmem 3).liveObjects 2184923136 = ∅ ∧
    (Call.cacheDestroy 18432).exec s₂ 3 = .ok (s₃, value) ∧ ¬ RoundTrip s s₃ 3 := by
  obtain ⟨k, s, s₁, s₂, _, booted, reached, inited, create, obtained, freesLive, used, allFreed,
    _⟩ := oneRound
  have given : Space 0x80030000 32720 := ⟨by decide, by decide⟩
  obtain ⟨s₃, value, done, notRestored, _⟩ :=
    roundTrip_loses given rfl rfl booted setUp (guarded_setUp k) reached inited
    (some shortName) 64 create obtained (by decide) [.alloc, .free 69792] freesLive used allFreed
  exact ⟨k, s, s₁, s₂, s₃, value, booted, reached, create, used, allFreed, done, notRestored⟩

/-- Process 3 creates a cache, allocates and frees an object, and destroys the cache. -/
theorem oneRound_not_roundTrip :
    ∃ k s s₁ s₂ s₃, Kmem.zeroed.kmemInit 0x80030000 32720 true = .ok k ∧
    run step (Window.unusedSlot k).kernel setUp = some s ∧
    Along step Guard (Window.unusedSlot k).kernel setUp ∧
    (Call.cacheCreate (some shortName) 64).exec s 3 = .ok (s₁, 18432) ∧
    (Call.cacheCreate (some shortName) 64).object s 3 = .ok 2184923136 ∧
    Along (useStep 3 18432) (fun t use => FreesLive t 3 (use.call 18432)) s₁ [.alloc, .free 69792] ∧
    run (useStep 3 18432) s₁ [.alloc, .free 69792] = some s₂ ∧
    (s₂.ukmem 3).liveObjects 2184923136 = ∅ ∧
    (Call.cacheDestroy 18432).exec s₂ 3 = .ok (s₃, 0) ∧ 10 ∈ (s.ukmem 3).freePages ∧
    10 ∉ (s₃.ukmem 3).freePages ∧ ¬ RoundTrip s s₃ 3 := by
  obtain ⟨k, s, s₁, s₂, s₃, booted, reached, _, create, obtained, freesLive, used, allFreed,
    destroy, before, after⟩ := oneRound
  exact ⟨k, s, s₁, s₂, s₃, booted, reached, guarded_setUp k, create, obtained, freesLive, used,
    allFreed, destroy, before, after, fun restored => after (restored.pages ▸ before)⟩

end Kernel

end Xv6Slab
