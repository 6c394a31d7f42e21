/-
**What the results of the allocator system calls say.**

A call that returns an address gets a descriptor or an object from the allocator of its process, or
null, and translates it into the window. `sys_k_kmem_cache_create` takes a page for the name before
it asks for a descriptor, and translates a null descriptor as well (`LosesName`). `sys_kmem_init`
writes the window before it asks for the arena (`MovesWindow`).

* `Handed` — the descriptors, objects and blocks that an allocator has handed out.
* `Arena.cacheCreate_outcome`, `Arena.cacheAlloc_outcome`, `Arena.kmalloc_outcome` — what the calls
  on an arena return and leave.
* `faithful_of_guarded` — **after every run of allowed calls, the result of a call with a used
  descriptor is null exactly when the call failed, and otherwise stands for what the call obtained,
  unless a name is lost.**
* `unchanged_of_guarded` — **after every run of allowed calls, a failed call with a used descriptor
  changes nothing, unless a name is lost or a window moves.**
-/

import Xv6Slab.Kernel.Isolation
import Xv6Slab.Spec.CacheCalls

namespace Xv6Slab

open Bytes Machine

/-! ### What an allocator has handed out -/

namespace Kmem

variable {k k' : Kmem} {held : List Allocation} {space : Nat} {blockNum : Int} {c x : Nat}

/-- A descriptor in use, a live object or a live block. -/
def Handed (k : Kmem) (x : Nat) : Prop :=
  k.Used x ∨ (∃ c, x ∈ k.liveObjects c) ∨ ∃ order, (x, order) ∈ k.liveBlocks

theorem Sound.handed_iff (sound : Sound k held space blockNum) :
    k.Handed x ↔ k.Used x ∨ ∃ a ∈ held, a.base = x := by
  unfold Handed
  simp only [sound.liveObjects_eq, sound.liveBlocks_eq, Set.mem_ofPred_eq]
  constructor
  · rintro (used | ⟨c, isHeld⟩ | ⟨order, isHeld⟩)
    · exact .inl used
    · exact .inr ⟨_, isHeld, rfl⟩
    · exact .inr ⟨_, isHeld, rfl⟩
  · rintro (used | ⟨a, isHeld, rfl⟩)
    · exact .inl used
    cases a with
    | object c base size =>
      obtain ⟨_, rfl⟩ := sound.used_of_held isHeld
      exact .inr (.inl ⟨c, isHeld⟩)
    | block base order => exact .inr (.inr ⟨order, isHeld⟩)

/-- The base of a new allocation is the base of no other. -/
theorem Sound.base_fresh {a b : Allocation} (sound : Sound k (a :: held) space blockNum)
    (isHeld : b ∈ held) : b.base ≠ a.base := by
  intro same
  have eq := sound.eq_of_base (List.mem_cons_of_mem a isHeld) List.mem_cons_self same
  exact (List.nodup_cons.mp sound.nodup).1 (eq ▸ isHeld)

/-- What was handed out lies in the space, when the descriptors do. -/
theorem Sound.handed_mem (sound : Sound k held space blockNum)
    (start : k.managedStart ≤ space + blockNum.toNat * 4096) (handed : k.Handed x) :
    x ∈ Set.Ico space (space + blockNum.toNat * 4096) := by
  rcases sound.handed_iff.mp handed with used | ⟨a, isHeld, rfl⟩
  · obtain ⟨low, high⟩ := sound.placement.metadata_before (.inr used.inPool)
    exact ⟨low, high.trans_le start⟩
  · exact sound.bytes_sub isHeld (sound.base_mem isHeld)

/-! ### A page and a descriptor -/

/-- `kmem_cache_create` finds an unused descriptor and a layout for the slabs. -/
def Creates (k : Kmem) (size : Nat) : Prop :=
  k.findFreeCacheSlot ≠ none ∧
    layoutLoop (objectSizeFor size) (minObjsFor (objectSizeFor size)) (maxSlabOrder + 1) 0 ≠ none

instance (k : Kmem) (size : Nat) : Decidable (k.Creates size) :=
  inferInstanceAs (Decidable (_ ∧ _))

/-- Whether there is one depends on the descriptors only. -/
theorem creates_congr (desc : k'.desc = k.desc) (pool : k'.cachePool = k.cachePool) (size : Nat) :
    k'.Creates size ↔ k.Creates size := by
  unfold Creates findFreeCacheSlot slot
  rw [desc, pool]

theorem kmemCacheCreate_eq_zero_iff (pool : 0 < k.cachePool) {size : Nat}
    {ctor : Option (Mem → Nat → Mem)} (run : k.kmemCacheCreate size ctor = .ok (k', c)) :
    c = 0 ↔ ¬ k.Creates size := by
  unfold Creates
  rcases kmemCacheCreate_cases run with ⟨null, _, missing⟩ |
    ⟨index, _, _, _, found, isSlot, layout, _⟩
  · refine iff_of_true null fun ⟨some_, layout⟩ => ?_
    rcases missing with none | none
    · exact some_ none
    · exact layout none
  · refine iff_of_false (fun null => ?_) (not_not.mpr ⟨by rw [found]; nofun, by rw [layout]; nofun⟩)
    rw [isSlot, slot] at null
    omega

/-- A new cache has no slab. -/
theorem kmemCacheCreate_heads {size : Nat} {ctor : Option (Mem → Nat → Mem)}
    (run : k.kmemCacheCreate size ctor = .ok (k', c)) (nonnull : c ≠ 0) (list : SlabList) :
    (k'.desc c).head list = 0 := by
  rcases kmemCacheCreate_cases run with ⟨null, _⟩ | ⟨_, _, _, _, _, _, _, rfl⟩
  · exact absurd null nonnull
  · rw [(addToCacheList_relinked _ _).head, modifyDesc_self]
    cases list <;> rfl

theorem pagesOf_zero (i : Nat) : Buddy.pagesOf ⟨i, 0⟩ = {i} := by
  ext p
  show i ≤ p ∧ p < i + 2 ^ 0 ↔ p = i
  omega

/-- **`kalloc`** fails when no page is free, with nothing changed, and takes a free page
otherwise. -/
theorem Sound.kalloc_cases (sound : Sound k held space blockNum) {page : Nat}
    (call : k.kalloc = .ok (k', page)) : page = 0 ∧ k' = k ∧ k.freePages = ∅ ∨
      page ≠ 0 ∧ ∃ i ∈ k.freePages, page = k.page i ∧ k'.freePages = k.freePages \ {i} := by
  obtain ⟨v, core, _⟩ := sound.view
  have zero : IsLeast {t | 1 ≤ 2 ^ t} 0 := ⟨show 1 ≤ 2 ^ 0 by decide, fun _ _ => Nat.zero_le _⟩
  obtain ⟨⟨b, base⟩, alloc, done⟩ := bind_eq_ok call
  rcases core.slabs.rep.buddyAlloc_cases core.slabs.pool le_rfl (by decide) zero with
    ⟨failed, none⟩ | ⟨i, m, b', run, nonnull, allocates⟩
  · rw [failed] at alloc
    cases alloc
    cases done
    refine .inl ⟨rfl, rfl, Set.eq_empty_of_forall_notMem ?_⟩
    rintro p ⟨d, isFree, _⟩
    exact absurd (none d isFree) (Nat.not_lt_zero _)
  · rw [run] at alloc
    cases alloc
    cases done
    have isFree := allocates.wasFree
    have freed := allocates.freed
    rw [pagesOf_zero] at isFree freed
    exact .inr ⟨nonnull, i, isFree rfl, rfl, freed⟩

/-! ### An object -/

/-- **An allocator was asked for an object**: nothing but an error code changed, or a new object was
handed out. -/
structure Provides (k k' : Kmem) (held : List Allocation) (space : Nat) (blockNum : Int)
    (obj : Nat) : Prop where
  calm : Calm k k'
  result :
      obj = 0 ∧ (∃ c, OnlyError k k' c) ∨
      obj ≠ 0 ∧ ∃ c size, Sound k' (.object c obj size :: held) space blockNum

theorem Sound.provides (sound : Sound k held space blockNum) (used : k.Used c) :
    ∃ k' obj, k.kmemCacheAlloc c = .ok (k', obj) ∧ Provides k k' held space blockNum obj := by
  obtain ⟨k', obj, call, _, failed, _⟩ := sound.kmemCacheAlloc used
  refine ⟨k', obj, call, sound.alloc_calm used call, ?_⟩
  obtain ⟨k₁, obj₁, call₁, _, result⟩ := sound.alloc_cases used
  obtain ⟨rfl, rfl⟩ := Prod.mk.inj (Except.ok.inj (call₁.symm.trans call))
  rcases result with ⟨null, _⟩ | ⟨nonnull, _, sound'⟩
  · exact .inl ⟨null, c, .inr (failed null)⟩
  · exact .inr ⟨nonnull, c, _, sound'⟩

theorem Sound.provides_kmalloc (sound : Sound k held space blockNum) (size : Nat) :
    ∃ k' obj, k.kmalloc size = .ok (k', obj) ∧ Provides k k' held space blockNum obj := by
  have none : k.kmalloc size = .ok (k, 0) → ∃ k' obj, k.kmalloc size = .ok (k', obj) ∧
      Provides k k' held space blockNum obj :=
    fun call => ⟨k, 0, call, .refl k, .inl ⟨rfl, 0, .inl rfl⟩⟩
  by_cases zero : size = 0
  · refine none ?_
    unfold Kmem.kmalloc
    rw [if_pos zero]
  cases found : kmallocIndex (alignUp size 8) with
  | none =>
    refine none ?_
    unfold Kmem.kmalloc
    rw [if_neg zero, found]
  | some j =>
    obtain ⟨used, same⟩ := sound.kmalloc_class zero found
    rw [same]
    exact sound.provides used

/-- A new object is the address of nothing handed out before. -/
theorem Provides.handed {obj : Nat} (provides : Provides k k' held space blockNum obj)
    (sound : Sound k held space blockNum) (nonnull : obj ≠ 0) : ¬ k.Handed obj ∧ k'.Handed obj := by
  obtain ⟨c, size, sound'⟩ := (provides.result.resolve_left fun failed => nonnull failed.1).2
  rw [sound.handed_iff, sound'.handed_iff]
  refine ⟨?_, .inr ⟨_, List.mem_cons_self, rfl⟩⟩
  rintro (used | ⟨a, isHeld, base⟩)
  · have used' := (provides.calm.used_iff obj).mpr used
    exact sound'.pool_not_held used'.inPool ⟨_, List.mem_cons_self,
      sound'.base_mem List.mem_cons_self⟩
  · exact sound'.base_fresh isHeld base

/-- The error code of a cache says nothing about its objects. -/
theorem liveObjects_setError (k : Kmem) (c : Nat) (code : KmemError) (d : Nat) :
    (k.modifyDesc c fun e => { e with errorCode := code }).liveObjects d = k.liveObjects d := by
  unfold liveObjects
  by_cases same : d = c
  · rw [same, modifyDesc_self]
    rfl
  · rw [modifyDesc_of_ne _ _ same]
    rfl

end Kmem

/-! ### What a call returns -/

namespace Kernel

variable {s s' : Kernel} {p : Nat} {arena : Nat} {pages : Int} {held : List Allocation}

/-- **A name is lost**: there is a page for the name, but no descriptor, or no layout for objects of
the size. -/
def LosesName (s : Kernel) (p : Nat) : Call → Prop
  | .cacheCreate uname size => (s.proc p).ukmemInited = true ∧ 0 < size.toInt ∧ uname ≠ none ∧
      (s.ukmem p).freePages.Nonempty ∧ ¬ (s.ukmem p).Creates size.toInt.toNat
  | .kmemInit .. | .cacheAlloc _ | .cacheFree .. | .cacheDestroy _ | .cacheInfo _ | .kmalloc _
  | .kfree _ => False

instance (b : Buddy) : Decidable b.freePages.Nonempty :=
  decidable_of_iff (∃ i < b.num, (b.blockMeta i).isHeadOfFreeBlock = true)
    ⟨fun ⟨i, lt, isHead⟩ => ⟨i, Buddy.mem_freePages_of_head lt isHead⟩,
      fun ⟨_, c, ⟨lt, isHead, _⟩, _⟩ => ⟨c.index, lt, isHead⟩⟩

instance (s : Kernel) (p : Nat) : ∀ call, Decidable (LosesName s p call)
  | .cacheCreate uname size =>
      inferInstanceAs (Decidable ((s.proc p).ukmemInited = true ∧ 0 < size.toInt ∧
      uname ≠ none ∧ (s.ukmem p).freePages.Nonempty ∧ ¬ (s.ukmem p).Creates size.toInt.toNat))
  | .kmemInit .. | .cacheAlloc _ | .cacheFree .. | .cacheDestroy _ | .cacheInfo _ | .kmalloc _
  | .kfree _ =>
    inferInstanceAs (Decidable False)

/-- **What a call that returns an address leaves**, with the address and what it obtained. -/
inductive Outcome (s s' : Kernel) (p : Nat) (call : Call) : UInt64 → Nat → Prop
  | failed {c : Nat} : ¬ LosesName s p call → Kmem.OnlyError (s.ukmem p) (s'.ukmem p) c →
    Outcome s s' p call 0 0
  | lost {i : Nat} : LosesName s p call → i ∈ (s.ukmem p).freePages →
      (s'.ukmem p).freePages = (s.ukmem p).freePages \ {i} →
      Outcome s s' p call ((s.proc p).toUser 0) 0
  | obtained {object : Nat} : ¬ LosesName s p call → object ≠ 0 → ¬ (s.ukmem p).Handed object →
      (s'.ukmem p).Handed object → Outcome s s' p call ((s.proc p).toUser (.ofNat object)) object

/-- The arena is where it was. -/
structure Kept (s s' : Kernel) (p arena : Nat) (pages : Int) : Prop where
  arena : ∃ held, Arena s' p arena pages held
  window : (s'.proc p).window = (s.proc p).window
  start : (s'.ukmem p).managedStart = (s.ukmem p).managedStart

theorem toUser_of_window {q q' : Proc} (window : q'.window = q.window) (x : UInt64) :
    q'.toUser x = q.toUser x := by
  simp only [Proc.window, Prod.mk.injEq] at window
  unfold Proc.toUser
  rw [window.1, window.2.2.1]

theorem Arena.kept_of_eq (holds : Arena s p arena pages held) (ukmem : s'.ukmem p = s.ukmem p)
    (window : (s'.proc p).window = (s.proc p).window) : Kept s s' p arena pages :=
  ⟨⟨held, holds.setUkmem holds.sound ukmem window⟩, window, by rw [ukmem]⟩

/-- The allocator of the process was asked for an object. -/
theorem Arena.provides (holds : Arena s p arena pages held) {k : Kmem} {obj : Nat}
    (provides : Kmem.Provides (s.ukmem p) k held arena pages obj) (call : Call)
    (keepsName : ¬ LosesName s p call) :
    Kept s (s.setUkmem p k) p arena pages ∧ Outcome s (s.setUkmem p k) p call
      (if obj = 0 then 0 else ((s.setUkmem p k).proc p).toUser (UInt64.ofNat obj)) obj := by
  have start : ((s.setUkmem p k).ukmem p).managedStart = (s.ukmem p).managedStart := by
    rw [ukmem_setUkmem, provides.calm.start]
  rcases provides.result with ⟨rfl, c, only⟩ | ⟨nonnull, c, size, sound⟩
  · refine ⟨⟨⟨held, holds.setUkmem (holds.sound.of_onlyError only) (by simp) (by simp)⟩, by simp,
      start⟩, ?_⟩
    rw [if_pos rfl]
    refine .failed (c := c) keepsName ?_
    rw [ukmem_setUkmem]
    exact only
  · refine ⟨⟨⟨_, holds.setUkmem sound (by simp) (by simp)⟩, by simp, start⟩, ?_⟩
    obtain ⟨fresh, handed⟩ := provides.handed holds.sound nonnull
    rw [if_neg nonnull, toUser_of_window (window_setUkmem k)]
    exact .obtained keepsName nonnull fresh (by rw [ukmem_setUkmem]; exact handed)

/-- What `sys_k_kmem_cache_alloc` leaves and returns. -/
theorem Arena.cacheAlloc_outcome (holds : Arena s p arena pages held) {hc : UInt64}
    (descriptor : ∀ c, Passes s p (.cacheAlloc hc) c → (s.ukmem p).Used c) :
    ∃ s' value object, (Call.cacheAlloc hc).exec s p = .ok (s', value) ∧
      (Call.cacheAlloc hc).object s p = .ok object ∧
      Kept s s' p arena pages ∧ Outcome s s' p (.cacheAlloc hc) value object := by
  -- an early return selects the allocator of the process and changes nothing else
  have early : s.allocObject p hc = .ok ((s.kmemPush p).1, 0) →
      ∃ s' value object, (Call.cacheAlloc hc).exec s p = .ok (s', value) ∧
      (Call.cacheAlloc hc).object s p = .ok object ∧ Kept s s' p arena pages ∧
      Outcome s s' p (.cacheAlloc hc) value object :=
    fun alloc => ⟨_, _, 0, congrArg (· >>= _) alloc, congrArg (Except.map Prod.snd) alloc,
      holds.kept_of_eq rfl rfl, .failed (c := 0) id (.inl rfl)⟩
  by_cases noWindow : NoWindow (s.proc p)
  · refine early ?_
    unfold Kernel.allocObject
    rw [holds.inited]
    exact if_pos noWindow
  by_cases null : (s.proc p).toKernel hc = 0
  · refine early ?_
    unfold Kernel.allocObject
    rw [holds.inited]
    exact (if_neg noWindow).trans (if_pos null)
  obtain ⟨k, obj, alloc, provides⟩ :=
    holds.sound.provides (descriptor _ ⟨holds.inited, noWindow, null, rfl⟩)
  have object := allocObject_paired holds.inited noWindow null
  rw [alloc] at object
  obtain ⟨kept, outcome⟩ := holds.provides provides (.cacheAlloc hc) id
  exact ⟨_, _, obj, congrArg (· >>= _) object, congrArg (Except.map Prod.snd) object, kept, outcome⟩

/-- What `sys_kmalloc` leaves and returns. -/
theorem Arena.kmalloc_outcome (holds : Arena s p arena pages held) (n : Int32) :
    ∃ s' value object, (Call.kmalloc n).exec s p = .ok (s', value) ∧
      (Call.kmalloc n).object s p = .ok object ∧
      Kept s s' p arena pages ∧ Outcome s s' p (.kmalloc n) value object := by
  have early : s.kmallocObject p n = .ok (s, 0) →
      ∃ s' value object, (Call.kmalloc n).exec s p = .ok (s', value) ∧
      (Call.kmalloc n).object s p = .ok object ∧ Kept s s' p arena pages ∧
      Outcome s s' p (.kmalloc n) value object :=
    fun alloc => ⟨_, _, 0, congrArg (· >>= _) alloc, congrArg (Except.map Prod.snd) alloc,
      holds.kept_of_eq rfl rfl, .failed (c := 0) id (.inl rfl)⟩
  have object := kmallocObject_inited holds.inited n
  by_cases small : n.toInt ≤ 0
  · exact early (object.trans (if_pos small))
  by_cases noWindow : NoWindow (s.proc p)
  · exact early (object.trans ((if_neg small).trans (if_pos noWindow)))
  rw [if_neg small, if_neg noWindow] at object
  obtain ⟨k, obj, alloc, provides⟩ := holds.sound.provides_kmalloc n.toInt.toNat
  rw [alloc] at object
  obtain ⟨kept, outcome⟩ := holds.provides provides (.kmalloc n) id
  exact ⟨_, _, obj, congrArg (· >>= _) object, congrArg (Except.map Prod.snd) object, kept, outcome⟩

/-- **A page was taken for the name and a descriptor asked for.** -/
structure Named (s s' : Kernel) (p arena : Nat) (pages : Int) (held : List Allocation)
    (size page d : Nat) : Prop where
  arena : Arena s' p arena pages (.block page 0 :: held)
  taken : ∃ i ∈ (s.ukmem p).freePages, page = (s.ukmem p).page i ∧
      (s'.ukmem p).freePages = (s.ukmem p).freePages \ {i}
  start : (s'.ukmem p).managedStart = (s.ukmem p).managedStart
  created : d = 0 ↔ ¬ (s.ukmem p).Creates size
  used : d ≠ 0 → ¬ (s.ukmem p).Used d ∧ ∀ a, (s'.ukmem p).Used a ↔ a = d ∨ (s.ukmem p).Used a
  heads : d ≠ 0 → ∀ list, ((s'.ukmem p).desc d).head list = 0

/-- `sys_k_kmem_cache_create` of a process with an arena takes no page, or one for the name. -/
theorem Arena.createCache_named (holds : Arena s p arena pages held) {uname : Option Name}
    {size : Int32} {c : Option Nat} (call : s.createCache p uname size = .ok (s', c)) :
    c = none ∧ ¬ LosesName s p (.cacheCreate uname size) ∧ s'.ukmem p = s.ukmem p ∨
      ∃ page d, c = some d ∧ (LosesName s p (.cacheCreate uname size) ↔ d = 0) ∧
        Named s s' p arena pages held size.toInt.toNat page d := by
  have used := holds.createCache call
  rcases createCache_cases call with ⟨same, rfl, early⟩ |
    ⟨inited, positive, kname, k, page, rfl, kalloc, rest⟩
  · refine .inl ⟨rfl, fun ⟨inited, positive, named, _⟩ => early ⟨inited, positive, named⟩, ?_⟩
    rcases same with rfl | rfl <;> rfl
  obtain ⟨sound, calm⟩ := holds.sound.kalloc kalloc
  rcases holds.sound.kalloc_cases kalloc with ⟨rfl, rfl, noPages⟩ |
    ⟨nonnull, i, isFree, isPage, freed⟩
  · obtain ⟨_, rfl, rfl⟩ := rest.resolve_right fun ⟨_, _, nonnull, _⟩ => nonnull rfl
    refine .inl ⟨rfl, fun loses => ?_, ukmem_setUkmem _⟩
    have some_ := loses.2.2.2.1
    rw [noPages] at some_
    exact Set.not_nonempty_empty some_
  obtain ⟨k', d, _, create, rfl, rfl⟩ := rest.resolve_left fun failed => nonnull failed.1
  rw [Kmem.handOut_of_ne nonnull] at sound
  have named := sound.writeName List.mem_cons_self kname
  have small : size.toInt.toNat < 2 ^ 64 := by
    have bound := size.toInt_lt
    omega
  have made := named.create small (fun f isSome => by cases isSome) create
  have creates : (k.setMem (writeName k.mem page kname)).Creates size.toInt.toNat ↔
      (s.ukmem p).Creates size.toInt.toNat :=
    Kmem.creates_congr (Kmem.buddyAlloc_desc kalloc) calm.samePlace.cachePool _
  have pool : 0 < (k.setMem (writeName k.mem page kname)).cachePool := by
    obtain ⟨v, core, _⟩ := named.view
    exact core.pool.pos
  have null := Kmem.kmemCacheCreate_eq_zero_iff pool create
  rw [creates] at null
  have buddy := Kmem.kmemCacheCreate_toBuddy create
  refine .inr ⟨page, d, rfl, ?_, holds.setUkmem made (by simp) (by simp), ⟨i, isFree, isPage, ?_⟩,
    ?_, null, fun nonzero => ?_, fun nonzero => ?_⟩
  · rw [null]
    exact ⟨fun loses => loses.2.2.2.2, fun fails => ⟨inited, positive, nofun, ⟨i, isFree⟩, fails⟩⟩
  · rw [ukmem_setUkmem, buddy]
    exact freed
  · rw [ukmem_setUkmem, buddy]
    exact calm.start
  · obtain ⟨_, _, _, _, _, ⟨zero, _⟩ | ⟨_, isSome, _, unused, after⟩⟩ := used
    · exact absurd zero nonzero
    · cases isSome
      exact ⟨unused, after⟩
  · rw [ukmem_setUkmem]
    exact Kmem.kmemCacheCreate_heads create nonzero

/-- What `sys_k_kmem_cache_create` leaves and returns. -/
theorem Arena.cacheCreate_outcome (holds : Arena s p arena pages held) (uname : Option Name)
    (size : Int32) : ∃ s' value object, (Call.cacheCreate uname size).exec s p = .ok (s', value) ∧
      (Call.cacheCreate uname size).object s p = .ok object ∧ Kept s s' p arena pages ∧
      Outcome s s' p (.cacheCreate uname size) value object := by
  obtain ⟨⟨s', c⟩, create⟩ := holds.createCache_returns uname size
  have object : (Call.cacheCreate uname size).object s p = .ok (c.getD 0) :=
    congrArg (Except.map fun r : Kernel × Option Nat => r.2.getD 0) create
  have exec :
      (Call.cacheCreate uname size).exec s p = .ok (s',
        c.elim 0 fun c => (s'.proc p).toUser (UInt64.ofNat c)) := by
    show s.createCache p uname size >>= _ = _
    rw [create]
    cases c <;> rfl
  have window := exec_window (q := p) (fun _ _ isInit => by cases isInit) exec
  refine ⟨s', _, _, exec, object, ?_⟩
  rcases holds.createCache_named create with ⟨rfl, keepsName, same⟩ | ⟨page, d, rfl, loses, named⟩
  · exact ⟨holds.kept_of_eq same window, .failed (c := 0) keepsName (.inl same)⟩
  refine ⟨⟨⟨_, named.arena⟩, window, named.start⟩, ?_⟩
  show Outcome s s' p _ ((s'.proc p).toUser (UInt64.ofNat d)) d
  rw [toUser_of_window window]
  by_cases null : d = 0
  · subst null
    obtain ⟨i, isFree, _, freed⟩ := named.taken
    exact .lost (loses.mpr rfl) isFree freed
  · obtain ⟨unused, used⟩ := named.used null
    have isUsed := (used d).mpr (.inl rfl)
    refine .obtained (mt loses.mp null) null (fun handed => ?_) (.inl isUsed)
    rcases holds.sound.handed_iff.mp handed with before | ⟨a, isHeld, rfl⟩
    · exact unused before
    · have later := List.mem_cons_of_mem (.block page 0) isHeld
      exact named.arena.sound.pool_not_held isUsed.inPool ⟨a, later,
        named.arena.sound.base_mem later⟩

/-- **A call of a process with an arena that returns an address.** -/
theorem Arena.outcome (holds : Arena s p arena pages held) {call : Call}
    (pointer : call.failure = 0) (descriptor : ∀ c, Passes s p call c → (s.ukmem p).Used c) :
    ∃ s' value object, call.exec s p = .ok (s', value) ∧ call.object s p = .ok object ∧
    Kept s s' p arena pages ∧
      Outcome s s' p call value object := by
  cases call with
  | cacheCreate uname size => exact holds.cacheCreate_outcome uname size
  | cacheAlloc hc => exact holds.cacheAlloc_outcome descriptor
  | kmalloc n => exact holds.kmalloc_outcome n
  | kmemInit _ _ | cacheFree _ _ | cacheDestroy _ | cacheInfo _ | kfree _ => cases pointer

/-! ### Results report what was obtained -/

/-- **The result of a call reports what it obtained.** -/
structure Faithful (s s' : Kernel) (p : Nat) (value : UInt64) (object : Nat) : Prop where
  null : value = 0 ↔ object = 0
  inside : object ≠ 0 → (s.proc p).uheapwinBase.toNat ≤ value.toNat ∧
    value.toNat < (s.proc p).uheapwinBase.toNat + (s.proc p).kheapwinPages.toNat * 4096
  /-- The address is translated back to what it came from. -/
  back : object ≠ 0 → ((s.proc p).toKernel value).toNat = object
  /-- It is not the address of anything handed out before. -/
  fresh : object ≠ 0 → ¬ (s.ukmem p).Handed object ∧ (s'.ukmem p).Handed object
  distinct : ∀ x y, (s'.ukmem p).Handed x → (s'.ukmem p).Handed y →
    (s'.proc p).toUser (.ofNat x) = (s'.proc p).toUser (.ofNat y) → x = y

/-- An address of the arena in the window. -/
theorem Arena.toUser_toNat (holds : Arena s p arena pages held)
    (noWrap : (s.proc p).uheapwinBase.toNat + pages.toNat * 4096 ≤ 2 ^ 64) {x : Nat}
    (inside : x ∈ Set.Ico arena (arena + pages.toNat * 4096)) :
    ((s.proc p).toUser (.ofNat x)).toNat = (s.proc p).uheapwinBase.toNat + (x - arena) := by
  obtain ⟨low, high⟩ := inside
  have fits := holds.given.fits
  simp only [maxva] at fits
  unfold Proc.toUser
  rw [holds.base, UInt64.toNat_add, UInt64.toNat_sub, UInt64.toNat_ofNat', UInt64.toNat_ofNat',
    Nat.mod_eq_of_lt (show x < 2 ^ 64 by omega), Nat.mod_eq_of_lt (show arena < 2 ^ 64 by omega)]
  omega

/-- What was handed out from an arena, with the window it is in. -/
theorem Arena.handed_lt (holds : Arena s p arena pages held)
    (start : (s.ukmem p).managedStart ≤ arena + pages.toNat * 4096) {x : Nat}
    (handed : (s.ukmem p).Handed x) :
    x ∈ Set.Ico arena (arena + pages.toNat * 4096) ∧ x < 2 ^ 64 := by
  have inside := holds.sound.handed_mem start handed
  have fits := holds.given.fits
  simp only [maxva] at fits
  exact ⟨inside, by have := inside.2; omega⟩

/-- Distinct caches and objects have distinct addresses. -/
theorem Arena.toUser_injOn (holds : Arena s p arena pages held)
    (start : (s.ukmem p).managedStart ≤ arena + pages.toNat * 4096) {x y : Nat}
    (handedX : (s.ukmem p).Handed x) (handedY : (s.ukmem p).Handed y)
    (same : (s.proc p).toUser (.ofNat x) = (s.proc p).toUser (.ofNat y)) : x = y := by
  have sameKernel := congrArg (fun u => ((s.proc p).toKernel u).toNat) same
  simp only [Proc.toKernel_toUser, UInt64.toNat_ofNat'] at sameKernel
  rwa [Nat.mod_eq_of_lt (holds.handed_lt start handedX).2,
    Nat.mod_eq_of_lt (holds.handed_lt start handedY).2] at sameKernel

/-- **The result of a call on an arena is faithful exactly when no name is lost**, or when the
translation of null is null. -/
theorem Arena.faithful_iff (holds : Arena s p arena pages held)
    (start : (s.ukmem p).managedStart ≤ arena + pages.toNat * 4096)
    (nonnull : (s.proc p).uheapwinBase ≠ 0)
    (noWrap : (s.proc p).uheapwinBase.toNat + pages.toNat * 4096 ≤ 2 ^ 64) {call : Call}
    {value : UInt64} {object : Nat} (kept : Kept s s' p arena pages)
    (outcome : Outcome s s' p call value object) :
    Faithful s s' p value object ↔
    ¬ (LosesName s p call ∧ (s.proc p).uheapwinBase ≠ (s.proc p).kheapwinBase) := by
  obtain ⟨held', holds'⟩ := kept.arena
  have start' : (s'.ukmem p).managedStart ≤ arena + pages.toNat * 4096 := kept.start ▸ start
  have distinct : ∀ x y, (s'.ukmem p).Handed x → (s'.ukmem p).Handed y →
      (s'.proc p).toUser (.ofNat x) = (s'.proc p).toUser (.ofNat y) → x = y :=
    fun x y handedX handedY => holds'.toUser_injOn start' handedX handedY
  cases outcome with
  | failed keepsName _ =>
    exact iff_of_true ⟨iff_of_true rfl rfl, fun some_ => absurd rfl some_,
      fun some_ => absurd rfl some_,
      fun some_ => absurd rfl some_, distinct⟩ fun loses => keepsName loses.1
  | lost loses _ _ =>
    -- the translation of null is the distance between the window and the arena
    have isDistance :
        (s.proc p).toUser 0 = 0 ↔ (s.proc p).uheapwinBase = (s.proc p).kheapwinBase := by
      unfold Proc.toUser
      constructor
      · intro zero
        grind
      · intro same
        rw [same]
        grind
    constructor
    · rintro faithful ⟨_, apart⟩
      exact apart (isDistance.mp (faithful.null.mpr rfl))
    · intro harmless
      have same : (s.proc p).uheapwinBase = (s.proc p).kheapwinBase :=
        not_not.mp fun apart => harmless ⟨loses, apart⟩
      exact ⟨iff_of_true (isDistance.mpr same) rfl, fun some_ => absurd rfl some_,
        fun some_ => absurd rfl some_, fun some_ => absurd rfl some_, distinct⟩
  | obtained keepsName some_ fresh handed =>
    obtain ⟨inside, small⟩ := holds'.handed_lt start' handed
    have address := holds.toUser_toNat noWrap inside
    have positive : 0 < (s.proc p).uheapwinBase.toNat :=
      Nat.pos_of_ne_zero fun zero => nonnull (UInt64.toNat_inj.mp zero)
    refine iff_of_true ⟨iff_of_false (fun zero => ?_) some_, fun _ => ?_, fun _ => ?_,
      fun _ => ⟨fresh, handed⟩, distinct⟩ fun loses => keepsName loses.1
    · rw [zero] at address
      have isZero : (0 : UInt64).toNat = 0 := rfl
      omega
    · rw [holds.count, address]
      obtain ⟨low, high⟩ := inside
      omega
    · rw [Proc.toKernel_toUser, UInt64.toNat_ofNat', Nat.mod_eq_of_lt small]

/-- **The condition on a call that returns an address**: a handle that gets to the allocator names a
used descriptor, and no name is lost, or the translation of null is null. -/
structure Reports (s : Kernel) (p : Nat) (call : Call) : Prop where
  descriptor : ∀ c, Passes s p call c → (s.ukmem p).Used c
  named : ¬ (LosesName s p call ∧ (s.proc p).uheapwinBase ≠ (s.proc p).kheapwinBase)

/-- A call that loses a name hands no descriptor to the allocator. -/
theorem not_passes_of_losesName {call : Call} (loses : LosesName s p call) (c : Nat) :
    ¬ Passes s p call c := by
  cases call with
  | cacheCreate _ _ => exact id
  | kmemInit _ _ | cacheAlloc _ | cacheFree _ _ | cacheDestroy _ | cacheInfo _ | kmalloc _
  | kfree _ => exact loses.elim

/-- **After every run of allowed calls from the boot of the kernel, a call that returns an address
and meets the condition returns faithfully; one that loses a name does not**, unless the translation
of null is null. The process has an arena at a window that is not null and does not wrap. -/
theorem faithful_of_guarded {space₀ : Nat} {blockNum₀ : Int} (given : Space space₀ blockNum₀)
    {k₀ k : Kmem} {isKernel : Bool} (head : k₀.headOfCacheList = 0) (tail : k₀.tailOfCacheList = 0)
    (booted : k₀.kmemInit space₀ blockNum₀ isKernel = .ok k) (events : List Event)
    (guarded : Along step Guard (Window.unusedSlot k).kernel events)
    (reached : run step (Window.unusedSlot k).kernel events = some s)
    (inited : (s.proc p).ukmemInited = true) (nonnull : (s.proc p).uheapwinBase ≠ 0)
    (noWrap : (s.proc p).uheapwinBase.toNat + (s.proc p).kheapwinPages.toNat * 4096 ≤ 2 ^ 64)
    (call : Call) (pointer : call.failure = 0) :
    (Reports s p call → ∃ s' value object, call.exec s p = .ok (s', value) ∧
      call.object s p = .ok object ∧ Faithful s s' p value object) ∧
    (LosesName s p call → (s.proc p).uheapwinBase ≠ (s.proc p).kheapwinBase →
      ∃ s' value object, call.exec s p = .ok (s', value) ∧ call.object s p = .ok object ∧
        ¬ Faithful s s' p value object) := by
  obtain ⟨taken, inv⟩ := Inv.reached given head tail booted guarded reached
  have granted := inv.granted p inited
  obtain ⟨held, holds⟩ := granted.arena
  constructor
  · intro reports
    obtain ⟨s', value, object, exec, obtained, kept, outcome⟩ :=
      holds.outcome pointer reports.descriptor
    exact ⟨s', value, object, exec, obtained,
      (holds.faithful_iff granted.start nonnull noWrap kept outcome).mpr reports.named⟩
  · intro loses apart
    obtain ⟨s', value, object, exec, obtained, kept, outcome⟩ :=
      holds.outcome pointer fun c passes =>
      absurd passes (not_passes_of_losesName loses c)
    exact ⟨s', value, object, exec, obtained, fun faithful =>
      (holds.faithful_iff granted.start nonnull noWrap kept outcome).mp faithful ⟨loses, apart⟩⟩

/-- Process 3 gets an object of its arena. -/
theorem faithful_of_guarded_object :
    ∃ k s s' value object, Kmem.zeroed.kmemInit 0x80030000 32720 true = .ok k ∧
    run step (Window.unusedSlot k).kernel setUp = some s ∧
    (Call.kmalloc 100).exec s 3 = .ok (s', value) ∧
    (Call.kmalloc 100).object s 3 = .ok object ∧ object ≠ 0 ∧ Faithful s s' 3 value object := by
  obtain ⟨k, booted, observed⟩ := exists_ok (Kmem.zeroed.kmemInit 0x80030000 32720 true)
    (fun k => (run step (Window.unusedSlot k).kernel setUp).map fun s : Kernel =>
      decide ((s.proc 3).ukmemInited = true ∧ (s.proc 3).uheapwinBase = 0x4000 ∧
        (s.proc 3).kheapwinPages = 16 ∧ ((Call.kmalloc 100).object s 3).toOption ≠ some 0))
    (some true) (by decide +kernel)
  obtain ⟨s, reached, values⟩ := Option.map_eq_some_iff.mp observed
  obtain ⟨inited, base, pages, some_⟩ := of_decide_eq_true values
  have given : Space 0x80030000 32720 := ⟨by decide, by decide⟩
  obtain ⟨s', value, object, exec, obtained, faithful⟩ :=
    (faithful_of_guarded given rfl rfl booted setUp (guarded_setUp k)
    reached inited (by rw [base]; decide) (by rw [base, pages]; decide) (.kmalloc 100) rfl).1
    ⟨nofun, fun loses => loses.1⟩
  refine ⟨k, s, s', value, object, booted, reached, exec, obtained, fun zero => some_ ?_, faithful⟩
  rw [obtained, zero]
  rfl

/-- A name of one letter. -/
abbrev shortName : Name := ⟨[0x61], by decide⟩

/-- Process 3 asks for a cache of objects of a million bytes, which no slab can hold. There is no
such cache, but the call returns an address. -/
theorem cacheCreate_not_faithful :
    ∃ k s s' value, Kmem.zeroed.kmemInit 0x80030000 32720 true = .ok k ∧
    run step (Window.unusedSlot k).kernel setUp = some s ∧
    Along step Guard (Window.unusedSlot k).kernel setUp ∧
    (s.proc 3).ukmemInited = true ∧ (s.proc 3).uheapwinBase = 0x4000 ∧
    (s.proc 3).kheapwinPages = 16 ∧ (Call.cacheCreate (some shortName) 1000000).exec s 3 =
    .ok (s', value) ∧
    (Call.cacheCreate (some shortName) 1000000).object s 3 = .ok 0 ∧ value = 18446744071524646912 ∧
    ¬ Faithful s s' 3 value 0 := by
  obtain ⟨⟨k, s, s', value, object⟩, done, observed⟩ := exists_ok (do
      let k ← Kmem.zeroed.kmemInit 0x80030000 32720 true
      let s ← ((run step (Window.unusedSlot k).kernel setUp).elim (.error .hang) .ok :
        Except Fault Kernel)
      let (s', value) ← (Call.cacheCreate (some shortName) 1000000).exec s 3
      let object ← (Call.cacheCreate (some shortName) 1000000).object s 3
      return (k, s, s', value, object))
    (fun (_, s, _, value, object) => decide ((s.proc 3).ukmemInited = true ∧
      (s.proc 3).uheapwinBase = 0x4000 ∧ (s.proc 3).kheapwinPages = 16 ∧ object = 0 ∧
      value = 18446744071524646912))
    true (by decide +kernel)
  obtain ⟨inited, base, pages, rfl, isValue⟩ := of_decide_eq_true observed
  obtain ⟨k₁, booted, done⟩ := bind_eq_ok done
  obtain ⟨s₁, ran, done⟩ := bind_eq_ok done
  obtain ⟨⟨s₂, value₂⟩, exec, done⟩ := bind_eq_ok done
  obtain ⟨object₂, obtained, done⟩ := bind_eq_ok done
  cases done
  refine ⟨k, s, s', value, booted, some_of_elim ran, guarded_setUp k, inited, base, pages, exec,
    obtained, isValue, ?_⟩
  intro faithful
  have zero := faithful.null.mpr rfl
  rw [isValue] at zero
  exact absurd zero (by decide)

/-! ### Failed calls change nothing -/

/-- The window, the free pages, the caches and the live objects of a process are what they were. -/
structure Unchanged (s s' : Kernel) (p : Nat) : Prop where
  window : (s'.proc p).window = (s.proc p).window
  pages : (s'.ukmem p).freePages = (s.ukmem p).freePages
  used : ∀ c, (s'.ukmem p).Used c ↔ (s.ukmem p).Used c
  objects : ∀ c, (s'.ukmem p).liveObjects c = (s.ukmem p).liveObjects c

/-- A call that allocates has failed: `sys_kmem_init` returned `-1`, or another call has got nothing
from the allocator. -/
def Failed (s : Kernel) (p : Nat) (value : UInt64) : Call → Prop
  | .kmemInit .. => value = minusOne
  | .cacheCreate uname size => (Call.cacheCreate uname size).object s p = .ok 0
  | .cacheAlloc hc => (Call.cacheAlloc hc).object s p = .ok 0
  | .kmalloc n => (Call.kmalloc n).object s p = .ok 0
  | .cacheFree .. | .cacheDestroy _ | .cacheInfo _ | .kfree _ => False

/-- **A window moves**: `sys_kmem_init` finds no arena, and was asked for another window than the
one it finds. -/
def MovesWindow (s : Kernel) (p : Nat) : Call → Prop
  | .kmemInit space pages => AsksForArena s p pages ∧
      (∀ b ∈ s.kmem.freeBlocks, 2 ^ b.order < pages.toInt.toNat) ∧
      ¬ ((s.proc p).uheapwinBase = space ∧ (s.proc p).kheapwinPages = pages.toInt)
  | .cacheCreate .. | .cacheAlloc _ | .cacheFree .. | .cacheDestroy _ | .cacheInfo _ | .kmalloc _
  | .kfree _ => False

theorem Unchanged.of_eq (ukmem : s'.ukmem p = s.ukmem p)
    (window : (s'.proc p).window = (s.proc p).window) : Unchanged s s' p :=
  ⟨window, by rw [ukmem], fun c => by rw [ukmem], fun c => by rw [ukmem]⟩

/-- An error code is none of what a failed call has to leave alone. -/
theorem Unchanged.of_onlyError {c : Nat} (only : Kmem.OnlyError (s.ukmem p) (s'.ukmem p) c)
    (window : (s'.proc p).window = (s.proc p).window) : Unchanged s s' p := by
  refine ⟨window, ?_, only.used_iff, fun d => ?_⟩
  · rcases only with same | ⟨code, changed⟩
    · rw [same]
    · rw [changed, Kmem.modifyDesc_toBuddy]
  · rcases only with same | ⟨code, changed⟩
    · rw [same]
    · rw [changed]
      exact Kmem.liveObjects_setError _ c code d

/-- Only `sys_kmem_init` can move a window. -/
theorem not_movesWindow {call : Call} (pointer : call.failure = 0) : ¬ MovesWindow s p call := by
  cases call with
  | cacheCreate _ _ | cacheAlloc _ | kmalloc _ => exact id
  | kmemInit _ _ | cacheFree _ _ | cacheDestroy _ | cacheInfo _ | kfree _ => cases pointer

/-- A call that returns an address has failed when it got nothing. -/
theorem object_of_failed {call : Call} {value : UInt64} (pointer : call.failure = 0)
    (failed : Failed s p value call) : call.object s p = .ok 0 := by
  cases call with
  | cacheCreate _ _ | cacheAlloc _ | kmalloc _ => exact failed
  | kmemInit _ _ | cacheFree _ _ | cacheDestroy _ | cacheInfo _ | kfree _ => cases pointer

/-- A failed call on an arena changes nothing exactly when no name is lost. -/
theorem Outcome.unchanged_iff {call : Call} {value : UInt64} (outcome : Outcome s s' p call value 0)
    (window : (s'.proc p).window = (s.proc p).window) :
    Unchanged s s' p ↔ ¬ LosesName s p call := by
  generalize isObject : 0 = object at outcome
  cases outcome with
  | failed keepsName only => exact iff_of_true (.of_onlyError only window) keepsName
  | lost loses isFree freed =>
    refine iff_of_false (fun unchanged => ?_) (not_not.mpr loses)
    rw [unchanged.pages] at freed
    rw [freed] at isFree
    exact isFree.2 rfl
  | obtained _ some_ _ _ => exact absurd isObject.symm some_

/-- A process without an arena gets nothing, and nothing changes. -/
theorem exec_uninited (without : (s.proc p).ukmemInited = false) {call : Call}
    (pointer : call.failure = 0) : call.exec s p = .ok (s, 0) ∧ ¬ LosesName s p call := by
  cases call with
  | cacheCreate uname size =>
    refine ⟨congrArg (· >>= _) (createCache_uninited without uname size), fun loses => ?_⟩
    rw [loses.1] at without
    cases without
  | cacheAlloc hc => exact ⟨congrArg (· >>= _) (allocObject_uninited without hc), id⟩
  | kmalloc n => exact ⟨congrArg (· >>= _) (kmallocObject_uninited without n), id⟩
  | kmemInit _ _ | cacheFree _ _ | cacheDestroy _ | cacheInfo _ | kfree _ => cases pointer

namespace Inv

variable {space₀ : Nat} {blockNum₀ : Int} {taken : List Allocation}

/-- A failed `sys_kmem_init` changes nothing exactly when the window does not move. -/
theorem kmemInit_unchanged_iff (inv : Inv space₀ blockNum₀ s taken) {space : UInt64} {pages : Int32}
    (done : s.sysKmemInit p space pages = .ok (s', minusOne)) :
    Unchanged s s' p ↔ ¬ MovesWindow s p (.kmemInit space pages) := by
  rcases sysKmemInit_failed inv.active done with ⟨rfl, noRequest⟩ | ⟨asks, k, buddy, rfl⟩
  · exact iff_of_true (.of_eq rfl rfl) fun moves => noRequest moves.1
  obtain ⟨positive, few, without⟩ := asks
  simp only [maxTestPages] at few
  obtain ⟨rfl, tooSmall⟩ := inv.kernel.buddyAlloc_null (by omega) (by omega) buddy
  have ukmem :
      Kernel.ukmem { s.modifyProc p (fun q => q.request space pages.toInt) with kmem := s.kmem } p =
      s.ukmem p := by
    unfold Kernel.ukmem
    simp only [modifyProc_self]
    rfl
  have window :
      (Kernel.proc { s.modifyProc p (fun q => q.request space pages.toInt) with kmem := s.kmem }
        p).window =
      ((s.proc p).kheapwinBase, pages.toInt, space, (s.proc p).ukmemInited) := by
    simp only [modifyProc_self]
    rfl
  constructor
  · rintro unchanged ⟨_, _, differs⟩
    have same := unchanged.window
    rw [window] at same
    simp only [Proc.window, Prod.mk.injEq] at same
    exact differs ⟨same.2.2.1.symm, same.2.1.symm⟩
  · intro stays
    obtain ⟨sameBase, samePages⟩ :=
      not_not.mp fun differs => stays ⟨⟨positive, few, without⟩, tooSmall, differs⟩
    refine .of_eq ukmem ?_
    rw [window, ← sameBase, ← samePages]
    rfl

/-- A call that allocates returns, and when it fails, it changes nothing unless a name is lost or a
window moves. -/
theorem unchanged_iff (inv : Inv space₀ blockNum₀ s taken) (given : Space space₀ blockNum₀)
    {call : Call} (allocates : call.failure = 0 ∨ ∃ space pages, call = .kmemInit space pages)
    (descriptor : ∀ c, Passes s p call c → (s.ukmem p).Used c) :
    ∃ s' value, call.exec s p = .ok (s', value) ∧
      (Failed s p value call →
        (Unchanged s s' p ↔ ¬ (LosesName s p call ∨ MovesWindow s p call))) := by
  rcases allocates with pointer | ⟨space, pages, rfl⟩
  · have noMove := not_movesWindow (s := s) (p := p) pointer
    cases inited : (s.proc p).ukmemInited with
    | true =>
      obtain ⟨held, holds⟩ := (inv.granted p inited).arena
      obtain ⟨s', value, object, exec, obtained, kept, outcome⟩ := holds.outcome pointer descriptor
      refine ⟨s', value, exec, fun failed => ?_⟩
      obtain rfl : object = 0 :=
          Except.ok.inj (obtained.symm.trans (object_of_failed pointer failed))
      rw [outcome.unchanged_iff kept.window, not_or]
      exact ⟨fun keepsName => ⟨keepsName, noMove⟩, fun neither => neither.1⟩
    | false =>
      obtain ⟨exec, keepsName⟩ := exec_uninited inited pointer
      exact ⟨s, 0, exec, fun _ => iff_of_true (.of_eq rfl rfl) (not_or.mpr ⟨keepsName, noMove⟩)⟩
  · have returned : ∃ s' value, s.sysKmemInit p space pages = .ok (s', value) := by
      cases inited : (s.proc p).ukmemInited with
      | true =>
        obtain ⟨held, holds⟩ := (inv.granted p inited).arena
        have served : Served s p held (.kmemInit space pages) := trivial
        obtain ⟨⟨s', value⟩, done⟩ := holds.returns served
        exact ⟨s', value, done⟩
      | false =>
        have cleared := inv.cleared p inited
        obtain ⟨s', value, done, _⟩ :=
          sysKmemInit_returns inv.kernel given inv.active cleared.head cleared.tail space pages
        exact ⟨s', value, done⟩
    obtain ⟨s', value, done⟩ := returned
    refine ⟨s', value, done, ?_⟩
    rintro rfl
    rw [inv.kmemInit_unchanged_iff done, not_or]
    exact ⟨fun stays => ⟨id, stays⟩, fun neither => neither.2⟩

end Inv

/-- **The condition on a call that allocates**: a handle that gets to the allocator names a used
descriptor, no name is lost and no window moves. -/
structure Restores (s : Kernel) (p : Nat) (call : Call) : Prop where
  descriptor : ∀ c, Passes s p call c → (s.ukmem p).Used c
  named : ¬ LosesName s p call
  stays : ¬ MovesWindow s p call

/-- **After every run of allowed calls from the boot of the kernel, a call that allocates and meets
the condition returns, and when it fails, it leaves the process as it was; one that loses a name or
moves the window does not.** -/
theorem unchanged_of_guarded {space₀ : Nat} {blockNum₀ : Int} (given : Space space₀ blockNum₀)
    {k₀ k : Kmem} {isKernel : Bool} (head : k₀.headOfCacheList = 0) (tail : k₀.tailOfCacheList = 0)
    (booted : k₀.kmemInit space₀ blockNum₀ isKernel = .ok k) (events : List Event)
    (guarded : Along step Guard (Window.unusedSlot k).kernel events)
    (reached : run step (Window.unusedSlot k).kernel events = some s) (call : Call)
    (allocates : call.failure = 0 ∨ ∃ space pages, call = .kmemInit space pages) :
    (Restores s p call → ∃ s' value, call.exec s p = .ok (s', value) ∧
      (Failed s p value call → Unchanged s s' p)) ∧
    (LosesName s p call ∨ MovesWindow s p call →
      ∃ s' value, call.exec s p = .ok (s', value) ∧
      (Failed s p value call → ¬ Unchanged s s' p)) := by
  obtain ⟨taken, inv⟩ := Inv.reached given head tail booted guarded reached
  constructor
  · intro restores
    obtain ⟨s', value, exec, unchanged⟩ := inv.unchanged_iff given allocates restores.descriptor
    exact ⟨s', value, exec,
      fun failed => (unchanged failed).mpr (not_or.mpr ⟨restores.named, restores.stays⟩)⟩
  · intro spoils
    have noHandle : ∀ c, Passes s p call c → (s.ukmem p).Used c := by
      intro c passes
      rcases spoils with loses | moves
      · exact absurd passes (not_passes_of_losesName loses c)
      · cases call with
        | kmemInit _ _ => exact passes.elim
        | cacheCreate _ _ | cacheAlloc _ | cacheFree _ _ | cacheDestroy _ | cacheInfo _ | kmalloc _
        | kfree _ => exact moves.elim
    obtain ⟨s', value, exec, unchanged⟩ := inv.unchanged_iff given allocates noHandle
    exact ⟨s', value, exec, fun failed same => (unchanged failed).mp same spoils⟩

/-- Process 3 asks for more bytes than the largest size class has. -/
theorem unchanged_of_guarded_tooLarge :
    ∃ k s s' value, Kmem.zeroed.kmemInit 0x80030000 32720 true = .ok k ∧
    run step (Window.unusedSlot k).kernel setUp = some s ∧
    (Call.kmalloc 200000).exec s 3 = .ok (s', value) ∧
    Failed s 3 value (.kmalloc 200000) ∧ Unchanged s s' 3 := by
  obtain ⟨k, booted, observed⟩ := exists_ok (Kmem.zeroed.kmemInit 0x80030000 32720 true)
    (fun k => (run step (Window.unusedSlot k).kernel setUp).bind fun s : Kernel =>
      ((Call.kmalloc 200000).object s 3).toOption)
    (some 0) (by decide +kernel)
  obtain ⟨s, reached, isNull⟩ := Option.bind_eq_some_iff.mp observed
  have given : Space 0x80030000 32720 := ⟨by decide, by decide⟩
  obtain ⟨s', value, exec, unchanged⟩ :=
    (unchanged_of_guarded (p := 3) given rfl rfl booted setUp (guarded_setUp k) reached
    (.kmalloc 200000) (.inl rfl)).1 ⟨nofun, id, id⟩
  have failed : Failed s 3 value (.kmalloc 200000) := by
    show (Call.kmalloc 200000).object s 3 = .ok 0
    cases object : (Call.kmalloc 200000).object s 3 with
    | error fault =>
      rw [object] at isNull
      cases isNull
    | ok result =>
      rw [object] at isNull
      cases isNull
      rfl
  exact ⟨k, s, s', value, booted, reached, exec, failed, unchanged failed⟩

/-- Process 3 asks for a cache of objects of a million bytes. The call fails, and the last page of
the arena is lost. -/
theorem cacheCreate_not_unchanged :
    ∃ k s s' value, Kmem.zeroed.kmemInit 0x80030000 32720 true = .ok k ∧
    run step (Window.unusedSlot k).kernel setUp = some s ∧
    Along step Guard (Window.unusedSlot k).kernel setUp ∧
    (Call.cacheCreate (some shortName) 1000000).exec s 3 = .ok (s', value) ∧
    Failed s 3 value (.cacheCreate (some shortName) 1000000) ∧
    10 ∈ (s.ukmem 3).freePages ∧ 10 ∉ (s'.ukmem 3).freePages ∧ ¬ Unchanged s s' 3 := by
  obtain ⟨⟨k, s, s', value, object⟩, done, observed⟩ := exists_ok (do
      let k ← Kmem.zeroed.kmemInit 0x80030000 32720 true
      let s ← ((run step (Window.unusedSlot k).kernel setUp).elim (.error .hang) .ok :
        Except Fault Kernel)
      let (s', value) ← (Call.cacheCreate (some shortName) 1000000).exec s 3
      let object ← (Call.cacheCreate (some shortName) 1000000).object s 3
      return (k, s, s', value, object))
    (fun ((_, s, s', _, object) : Kmem × Kernel × Kernel × UInt64 × Nat) => decide (object = 0 ∧
      10 < (s.ukmem 3).num ∧ ((s.ukmem 3).blockMeta 10).isHeadOfFreeBlock = true ∧
      ∀ i ∈ List.range 11, ((s'.ukmem 3).blockMeta i).isHeadOfFreeBlock = true →
        i + 2 ^ ((s'.ukmem 3).blockMeta i).freeOrder ≤ 10))
    true (by decide +kernel)
  obtain ⟨rfl, lt, isHead, heads⟩ := of_decide_eq_true observed
  obtain ⟨k₁, booted, done⟩ := bind_eq_ok done
  obtain ⟨s₁, ran, done⟩ := bind_eq_ok done
  obtain ⟨⟨s₂, value₂⟩, exec, done⟩ := bind_eq_ok done
  obtain ⟨object₂, obtained, done⟩ := bind_eq_ok done
  cases done
  have before : 10 ∈ (s.ukmem 3).freePages := Buddy.mem_freePages_of_head lt isHead
  have after : 10 ∉ (s'.ukmem 3).freePages := Buddy.notMem_freePages heads
  refine ⟨k, s, s', value, booted, some_of_elim ran, guarded_setUp k, exec, obtained, before, after,
    fun unchanged => ?_⟩
  exact after (unchanged.pages ▸ before)

end Kernel

end Xv6Slab
