/-
**The arena of a process.**

* `sysKmemInit_ok` — what a successful `sys_kmem_init` did, step by step.
* `Arena` — a process has an arena whose allocator is sound, with the allocations made from it.
* `Initialised.arena` — **a successful `sys_kmem_init` sets up an empty arena.**
* `Arena.createCache`, `Arena.allocObject`, `Arena.free`, `Arena.destroy` — the system calls on an
  arena, as long as they are called with live caches and objects.
-/

import Xv6Slab.Kernel.Syscalls
import Xv6Slab.Spec.Objects

namespace Xv6Slab

open Bytes

/-! ### Calls that change no cache -/

namespace Kmem

variable {k k' : Kmem} {held : List Allocation} {space : Nat} {blockNum : Int} {c : Nat}

theorem orderForPages_one : Buddy.orderForPages 1 = .ok 0 := by decide

/-- `kalloc` hands out a page and changes no cache. -/
theorem Sound.kalloc (sound : Sound k held space blockNum) {page : Nat}
    (call : k.kalloc = .ok (k', page)) :
    Sound k' (handOut page (.block page 0) held) space blockNum ∧ Calm k k' := by
  refine ⟨sound.buddyAlloc orderForPages_one call, ?_⟩
  obtain ⟨v, core, same⟩ := sound.view
  rcases core.buddyAlloc_spec (by decide) orderForPages_one with failed |
    ⟨k₁, base, taken, _, gains⟩
  · rw [Kmem.kalloc, failed] at call
    cases call
    exact Calm.refl k
  · rw [Kmem.kalloc, taken] at call
    cases call
    exact gains.calm

/-- `kmem_cache_alloc` changes no cache. -/
theorem Sound.alloc_calm (sound : Sound k held space blockNum) (used : k.Used c) {obj : Nat}
    (call : k.kmemCacheAlloc c = .ok (k', obj)) : Calm k k' := by
  obtain ⟨v, core, same⟩ := sound.view
  rcases core.kmemCacheAlloc_spec used (sound.idle c used) with ⟨k₁, run, keeps, _⟩ |
    ⟨k₁, v₁, obj₁, run, _, gains⟩
  · rw [run] at call
    cases call
    exact keeps.calm
  · rw [run] at call
    cases call
    exact gains.calm

/-- `kmem_cache_free` of a live object changes no cache. -/
theorem Sound.free_calm (sound : Sound k held space blockNum) {obj size : Nat}
    (isHeld : .object c obj size ∈ held) (call : k.kmemCacheFree c obj = .ok k') : Calm k k' := by
  have used := (sound.used_of_held isHeld).1
  obtain ⟨v, core, same⟩ := sound.view
  obtain ⟨k₁, v₁, run, loses⟩ := core.kmemCacheFree_spec (sound.idle c used) ((same _).mp isHeld)
  rw [run] at call
  cases call
  exact loses.calm

/-- `kmem_cache_create` adds one cache, or none. -/
theorem Sound.create_used (sound : Sound k held space blockNum) {size : Nat} (small : size < 2 ^ 31)
    (call : k.kmemCacheCreate size none = .ok (k', c)) :
    k'.kmallocCaches = k.kmallocCaches ∧ k'.cachePool = k.cachePool ∧
      (c = 0 ∧ (∀ a, k'.Used a ↔ k.Used a) ∨ c ≠ 0 ∧ ¬ k.Used c ∧ ∀ a, k'.Used a ↔
        a = c ∨ k.Used a) := by
  obtain ⟨v, core, same⟩ := sound.view
  have nonzero : objectSizeFor size ≠ 0 := by
    unfold objectSizeFor alignUp
    split <;> split <;> omega
  have noCtor : ∀ f, (none : Option (Mem → Nat → Mem)) = some f → ∀ mem obj,
      SameOutside (Set.Ico obj (obj + size)) mem (f mem obj) := fun f isSome => by cases isSome
  rcases core.kmemCacheCreate_spec none (small.trans (by decide)) nonzero noCtor with
    ⟨k₁, run, recast, _⟩ | ⟨k₁, c₁, run, nonnull, unused, used, _, recast⟩
  · rw [run] at call
    cases call
    refine ⟨recast.kmalloc, recast.place.cachePool, .inl ⟨rfl, fun a => ?_⟩⟩
    rw [← recast.core.pool.members, core.pool.members]
  · rw [run] at call
    cases call
    refine ⟨recast.kmalloc, recast.place.cachePool, .inr ⟨nonnull, unused, fun a => ?_⟩⟩
    rw [← recast.core.pool.members, List.mem_cons, core.pool.members]

/-- `kmem_cache_destroy` of a cache without live objects removes exactly that cache. -/
theorem Sound.destroy_used (sound : Sound k held space blockNum) (used : k.Used c)
    (notKmalloc : ∀ j < kmallocNumCaches, k.kmallocCaches j ≠ c)
    (noPartial : (k.desc c).partialSlabs = 0) (noFull : (k.desc c).fullSlabs = 0)
    (call : k.kmemCacheDestroy c = .ok k') :
    k'.kmallocCaches = k.kmallocCaches ∧ k'.cachePool = k.cachePool ∧ ∀ a, k'.Used a ↔
    a ≠ c ∧ k.Used a := by
  obtain ⟨v, core, same⟩ := sound.view
  obtain ⟨k₁, v₁, run, dropped⟩ := core.kmemCacheDestroy_idle used notKmalloc noPartial noFull
  rw [run] at call
  cases call
  exact ⟨dropped.recast.kmalloc, dropped.recast.place.cachePool, dropped.used⟩

/-- What clients hold lies in the memory given to `kmem_init`. -/
theorem Sound.bytes_sub (sound : Sound k held space blockNum) {a : Allocation} (isHeld : a ∈ held) :
    a.bytes ⊆ Set.Ico space (space + blockNum.toNat * 4096) := by
  obtain ⟨v, core, same⟩ := sound.view
  have placement := sound.placement
  have inside := core.slabs.bytes_sub ((same a).mp isHeld)
  intro p inA
  obtain ⟨low, high⟩ := inside inA
  have before := placement.before
  have pool := placement.cachePool
  rcases placement.inside with none | bound
  · rw [none] at high
    omega
  · exact ⟨by omega, by omega⟩

/-- An allocation is not empty. -/
theorem Sound.base_mem (sound : Sound k held space blockNum) {a : Allocation} (isHeld : a ∈ held) :
    a.base ∈ a.bytes := by
  obtain ⟨v, core, same⟩ := sound.view
  obtain ⟨p, low, high⟩ := core.slabs.bytes_nonempty ((same a).mp isHeld)
  exact ⟨le_rfl, by omega⟩

/-- A block that was handed out is a space that `kmem_init` may be given. -/
theorem Sound.arenaSpace (sound : Sound k held space blockNum) (given : Space space blockNum)
    {arena order : Nat} {pages : Int} (isHeld : .block arena order ∈ held) (positive : 0 < pages)
    (enough : pages.toNat ≤ 2 ^ order) : Space arena pages := by
  refine ⟨positive.le, ?_⟩
  have last : arena + 4096 * 2 ^ order - 1 ∈ (Allocation.block arena order).bytes := by
    have pos := Nat.two_pow_pos order
    exact
      ⟨by simp only [Allocation.base]; omega,
        by simp only [Allocation.base, Allocation.size]; omega⟩
  have high := (sound.bytes_sub isHeld last).2
  have fits := given.fits
  omega

/-- A write of the name into a page that was just handed out. -/
theorem Sound.writeName (sound : Sound k held space blockNum) {page : Nat}
    (isHeld : .block page 0 ∈ held) (name : Name) :
    Sound (k.setMem (writeName k.mem page name)) held space blockNum := by
  refine sound.writeObject isHeld fun p outside => ?_
  have apart : ¬ (page ≤ p ∧ p < page + 4096) := outside
  exact if_neg apart

end Kmem

/-! ### Setting up an arena -/

namespace Kernel

variable {s s' : Kernel} {p : Nat}

/-- What a successful `sys_kmem_init` did: `buddy_alloc` on the kernel's allocator, then `kmem_init`
on the process's. -/
structure Initialised (s s' : Kernel) (p : Nat) (space : UInt64) (pages : Int) (k k' : Kmem)
    (arena : Nat) : Prop where
  positive : 0 < pages
  few : pages ≤ maxTestPages
  without : (s.proc p).ukmemInited = false
  buddy : s.kmem.buddyAlloc pages.toNat = .ok (k, arena)
  nonnull : arena ≠ 0
  init :
      ({ (s.proc p).ukmem with mem := k.mem, desc := k.desc } : Kmem).kmemInit arena pages false =
      .ok k'
  ukmem : s'.ukmem p = k'
  kmem : s'.kmem = { k with mem := k'.mem, desc := k'.desc }
  active : s'.active = s.active
  others : ∀ q ≠ p, s'.proc q = s.proc q
  window : (s'.proc p).window = (UInt64.ofNat arena, pages, space, true)

theorem sysKmemInit_ok (global : s.active = none) {space : UInt64} {pages : Int32}
    (done : s.sysKmemInit p space pages = .ok (s', 0)) :
    ∃ k k' arena, Initialised s s' p space pages.toInt k k' arena := by
  unfold sysKmemInit at done
  split at done
  · cases done
  next range =>
  split at done
  · cases done
  next inited =>
  obtain ⟨⟨k, arena⟩, buddy, done⟩ := bind_eq_ok done
  dsimp only at done
  split at done
  · cases done
  next nonnull =>
  obtain ⟨k', init, done⟩ := bind_eq_ok done
  cases done
  obtain ⟨kmem, proc, active⟩ := s
  cases global
  refine ⟨k, k', arena, ⟨by omega, by omega, by simpa using inited, buddy, nonnull, ?_, ?_, rfl,
    rfl, ?_, ?_⟩⟩
  · simpa [curr, ukmem, kmemPush, setCurr, modifyProc, Proc.back, Proc.request] using init
  · simp [ukmem, kmemPop, kmemPush, setCurr, setUkmem, modifyProc, Proc.start]
  · intro q ne
    simp [kmemPop, kmemPush, setCurr, setUkmem, modifyProc, Function.update_of_ne ne]
  · simp [kmemPop, kmemPush, setCurr, setUkmem, modifyProc, Proc.window, Proc.start, Proc.back,
      Proc.request]

/-- A process has an arena with a sound allocator, and these allocations were made from it. -/
structure Arena (s : Kernel) (p arena : Nat) (pages : Int) (held : List Allocation) : Prop where
  inited : (s.proc p).ukmemInited = true
  base : (s.proc p).kheapwinBase = UInt64.ofNat arena
  count : (s.proc p).kheapwinPages = pages
  given : Space arena pages
  sound : Kmem.Sound (s.ukmem p) held arena pages

/-- **A successful `sys_kmem_init` sets up an empty arena**, when the page of its `kmem_state` is
zero; its caches are those of `kmalloc`. -/
theorem Initialised.arena {space₀ : Nat} {blockNum₀ : Int} {held : List Allocation} {space : UInt64}
    {pages : Int} {k k' : Kmem} {arena : Nat} (done : Initialised s s' p space pages k k' arena)
    (kernel : Kmem.Sound s.kmem held space₀ blockNum₀) (given : Space space₀ blockNum₀)
    (head : (s.proc p).ukmem.headOfCacheList = 0) (tail : (s.proc p).ukmem.tailOfCacheList = 0) :
    Arena s' p arena pages [] ∧ ∀ c, (s'.ukmem p).Used c →
    ∃ j < kmallocNumCaches, (s'.ukmem p).kmallocCaches j = c := by
  have few : pages.toNat ≤ 2 ^ 31 := by
    have bound := done.few
    simp only [maxTestPages] at bound
    omega
  obtain ⟨order, isOrder, _, enough, _⟩ := Buddy.orderForPages_least few
  have handed := kernel.buddyAlloc isOrder done.buddy
  rw [Kmem.handOut_of_ne done.nonnull] at handed
  have arenaSpace := handed.arenaSpace given List.mem_cons_self done.positive enough
  have same := done.window
  simp only [Proc.window, Prod.mk.injEq] at same
  obtain ⟨v, core, none, idle, kmalloc, placement, caches⟩ := Kmem.kmemInit_caches
    (k := { (s.proc p).ukmem with mem := k.mem, desc := k.desc }) arenaSpace head tail done.init
  rw [← done.ukmem] at core none idle kmalloc placement caches
  refine ⟨⟨same.2.2.2, same.1, same.2.1, arenaSpace, ⟨v, core, fun a => ?_⟩, List.nodup_nil, idle,
    kmalloc, placement⟩, fun c used => ?_⟩
  · rw [none]
    exact iff_of_false List.not_mem_nil (Set.notMem_empty a)
  · rw [← core.pool.members, caches, List.mem_reverse, List.mem_map] at used
    obtain ⟨j, inRange, isCache⟩ := used
    exact ⟨j, List.mem_range.mp inRange, isCache⟩

namespace Arena

variable {arena : Nat} {pages : Int} {held held' : List Allocation}

/-- An operation on the allocator of the process. -/
theorem setUkmem (holds : Arena s p arena pages held) {k : Kmem}
    (sound : Kmem.Sound k held' arena pages) (ukmem : s'.ukmem p = k)
    (window : (s'.proc p).window = (s.proc p).window) : Arena s' p arena pages held' := by
  simp only [Proc.window, Prod.mk.injEq] at window
  exact ⟨window.2.2.2.trans holds.inited, window.1.trans holds.base, window.2.1.trans holds.count,
    holds.given, ukmem ▸ sound⟩

/-- `sys_k_kmem_cache_create` adds one cache, or none. -/
theorem createCache (holds : Arena s p arena pages held) {uname : Option Name} {size : Int32}
    {c : Option Nat} (call : s.createCache p uname size = .ok (s', c)) :
    ∃ held', Arena s' p arena pages held' ∧ held ⊆ held' ∧
      (s'.ukmem p).kmallocCaches = (s.ukmem p).kmallocCaches ∧
      (s'.ukmem p).cachePool = (s.ukmem p).cachePool ∧
      (c.getD 0 = 0 ∧ (∀ a, (s'.ukmem p).Used a ↔ (s.ukmem p).Used a) ∨
        ∃ d, c = some d ∧ d ≠ 0 ∧ ¬ (s.ukmem p).Used d ∧ ∀ a, (s'.ukmem p).Used a ↔
        a = d ∨ (s.ukmem p).Used a) := by
  rcases createCache_cases call with ⟨rfl | rfl, rfl, _⟩ | ⟨_, _, kname, k, page, _, kalloc, rest⟩
  · exact ⟨held, holds, fun _ inside => inside, rfl, rfl, .inl ⟨rfl, fun _ => Iff.rfl⟩⟩
  · exact ⟨held, holds.setUkmem holds.sound rfl rfl, fun _ inside => inside, rfl, rfl,
      .inl ⟨rfl, fun _ => Iff.rfl⟩⟩
  obtain ⟨sound, calm⟩ := holds.sound.kalloc kalloc
  rcases rest with ⟨rfl, rfl, rfl⟩ | ⟨k', d, nonnull, create, rfl, rfl⟩
  · refine ⟨held, holds.setUkmem sound (by simp) (by simp), fun _ inside => inside, ?_, ?_,
      .inl ⟨rfl, fun a => ?_⟩⟩
    · rw [ukmem_setUkmem, calm.kmallocCaches]
    · rw [ukmem_setUkmem, calm.samePlace.cachePool]
    · rw [ukmem_setUkmem, calm.used_iff]
  rw [Kmem.handOut_of_ne nonnull] at sound
  have named := sound.writeName List.mem_cons_self kname
  have small : size.toInt.toNat < 2 ^ 31 := by
    have bound := size.toInt_lt
    omega
  obtain ⟨kmalloc, pool, used⟩ := named.create_used small create
  have noCtor : ∀ f, (none : Option (Mem → Nat → Mem)) = some f → ∀ mem obj,
      SameOutside (Set.Ico obj (obj + size.toInt.toNat)) mem (f mem obj) := fun f isSome => by
        cases isSome
  have created := named.create (small.trans (by decide)) noCtor create
  refine ⟨.block page 0 :: held, holds.setUkmem created (by simp) (by simp),
    List.subset_cons_self .., ?_, ?_, ?_⟩
  · rw [ukmem_setUkmem, kmalloc]
    exact calm.kmallocCaches
  · rw [ukmem_setUkmem, pool]
    exact calm.samePlace.cachePool
  · rw [ukmem_setUkmem]
    have before : ∀ a, (k.setMem (writeName k.mem page kname)).Used a ↔ (s.ukmem p).Used a :=
      calm.used_iff
    rcases used with ⟨rfl, same⟩ | ⟨nonzero, unused, grows⟩
    · exact .inl ⟨rfl, fun a => (same a).trans (before a)⟩
    · refine .inr ⟨d, rfl, nonzero, fun used => unused ((before d).mpr used), fun a => ?_⟩
      rw [grows, before]

/-- A call that changes no cache. -/
structure Steady (s s' : Kernel) (p : Nat) : Prop where
  used : ∀ a, (s'.ukmem p).Used a ↔ (s.ukmem p).Used a
  kmallocCaches : (s'.ukmem p).kmallocCaches = (s.ukmem p).kmallocCaches
  cachePool : (s'.ukmem p).cachePool = (s.ukmem p).cachePool

theorem Steady.refl (s : Kernel) (p : Nat) : Steady s s p := ⟨fun _ => Iff.rfl, rfl, rfl⟩

theorem Steady.of_calm (calm : Kmem.Calm (s.ukmem p) (s'.ukmem p)) : Steady s s' p :=
  ⟨calm.used_iff, calm.kmallocCaches, calm.samePlace.cachePool⟩

/-- `sys_k_kmem_cache_alloc` of a live cache takes an object that nobody held, or none. -/
theorem allocObject (holds : Arena s p arena pages held) {hc : UInt64} {kobj : Nat}
    (used : (s.ukmem p).Used ((s.proc p).toKernel hc).toNat)
    (call : s.allocObject p hc = .ok (s', kobj)) :
    Steady s s' p ∧ (kobj = 0 ∧ Arena s' p arena pages held ∨
      kobj ≠ 0 ∧ kobj < 2 ^ 64 ∧
        ∃ size, (∀ size', .object ((s.proc p).toKernel hc).toNat kobj size' ∉ held) ∧
        Arena s' p arena pages (.object ((s.proc p).toKernel hc).toNat kobj size :: held)) := by
  rcases allocObject_cases call with ⟨rfl | rfl, rfl⟩ | ⟨_, k, alloc, rfl⟩
  · exact ⟨.refl .., .inl ⟨rfl, holds⟩⟩
  · exact ⟨⟨fun _ => Iff.rfl, rfl, rfl⟩, .inl ⟨rfl, holds.setUkmem holds.sound rfl rfl⟩⟩
  obtain ⟨k₁, obj, call', _, cases⟩ := holds.sound.alloc_cases used
  rw [alloc] at call'
  cases call'
  refine ⟨.of_calm (by rw [ukmem_setUkmem]; exact holds.sound.alloc_calm used alloc), ?_⟩
  rcases cases with ⟨null, sound⟩ | ⟨nonnull, fresh, sound⟩
  · exact .inl ⟨null, holds.setUkmem sound (by simp) (by simp)⟩
  · refine .inr ⟨nonnull, ?_, _, fun size' isHeld => ?_, holds.setUkmem sound (by simp) (by simp)⟩
    · have fits := holds.given.fits
      have inside := (sound.bytes_sub List.mem_cons_self (sound.base_mem List.mem_cons_self)).2
      simp only [Allocation.base, maxva] at inside fits
      omega
    · rw [(holds.sound.used_of_held isHeld).2] at isHeld
      exact fresh isHeld

/-- `sys_k_kmem_cache_free` of a live object frees it. -/
theorem free (holds : Arena s p arena pages held) {hc uobj value : UInt64} {size : Nat}
    (isHeld : .object ((s.proc p).toKernel hc).toNat ((s.proc p).toKernel uobj).toNat size ∈ held)
    (done : s.sysKmemCacheFree p hc uobj = .ok (s', value)) :
    Steady s s' p ∧ (Arena s' p arena pages held ∨ Arena s' p arena pages
      (held.erase
        (.object ((s.proc p).toKernel hc).toNat ((s.proc p).toKernel uobj).toNat size))) := by
  rcases sysKmemCacheFree_cases done with ⟨rfl, _⟩ | ⟨_, _, _, k, free, rfl⟩
  · exact ⟨.refl .., .inl holds⟩
  · refine ⟨.of_calm ?_, .inr (holds.setUkmem (holds.sound.free isHeld free) (by simp) (by simp))⟩
    rw [ukmem_setUkmem]
    exact holds.sound.free_calm isHeld free

/-- `sys_k_kmem_cache_destroy` of a live cache without live objects removes exactly that cache. -/
theorem destroy (holds : Arena s p arena pages held) {hc value : UInt64}
    (used : (s.ukmem p).Used ((s.proc p).toKernel hc).toNat)
    (notKmalloc : ∀ j < kmallocNumCaches, (s.ukmem p).kmallocCaches j ≠
      ((s.proc p).toKernel hc).toNat)
    (noPartial : ((s.ukmem p).desc ((s.proc p).toKernel hc).toNat).partialSlabs = 0)
    (noFull : ((s.ukmem p).desc ((s.proc p).toKernel hc).toNat).fullSlabs = 0)
    (done : s.sysKmemCacheDestroy p hc = .ok (s', value)) :
    Arena s' p arena pages held ∧ (s'.ukmem p).kmallocCaches = (s.ukmem p).kmallocCaches ∧
      (s'.ukmem p).cachePool = (s.ukmem p).cachePool ∧
      ∀ a, (s'.ukmem p).Used a ↔ a ≠ ((s.proc p).toKernel hc).toNat ∧ (s.ukmem p).Used a := by
  rcases sysKmemCacheDestroy_cases done with ⟨_, without | null⟩ | ⟨_, _, k, destroy, rfl⟩
  · rw [holds.inited] at without
    cases without
  · obtain ⟨v, core, _⟩ := holds.sound.view
    rw [null] at used
    exact absurd rfl (core.pool.used_bounds used).1
  · obtain ⟨kmalloc, pool, usedIff⟩ :=
      holds.sound.destroy_used used notKmalloc noPartial noFull destroy
    rw [ukmem_setUkmem]
    exact ⟨holds.setUkmem (holds.sound.destroy used destroy) (by simp) (by simp), kmalloc,
      pool, usedIff⟩

end Arena

end Kernel

end Xv6Slab
