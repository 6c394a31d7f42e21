/-
**Isolation of the processes from each other and from the kernel.**

The system calls take handles and object addresses as raw 64-bit numbers and translate them by
wrapping arithmetic, so a process can name any descriptor of the machine. Only some of them are
checked.

* `Passes` — the address that a call hands to the allocator as a descriptor.
* `Allowed` — what a call has to satisfy: its descriptor is a used one of the process, it frees what
  is live, it takes no unpaired return, and an arena has at least five pages.
* `Isolated` — a call treats only used descriptors of its process as such, changes nothing outside
  the arena, and refuses any other handle.
* `step` and `Guard` — the processes, the rest of the kernel and the slots of the process table.
* `isolated_of_guarded` — **in every run of allowed calls, every allowed call of a process with an
  arena is isolated.**
-/

import Xv6Slab.Kernel.ArenaInit
import Xv6Slab.Kernel.Restore
import Xv6Slab.Spec.BuddyCalls
import Xv6Slab.Spec.Footprint

namespace Xv6Slab

open Bytes Machine

/-- The handle of a cache among the arguments of a call. -/
def Call.handle : Call → Option UInt64
  | cacheAlloc hc | cacheFree hc _ | cacheDestroy hc | cacheInfo hc => some hc
  | kmemInit .. | cacheCreate .. | kmalloc _ | kfree _ => none

/-- The bytes of the pages of an arena. -/
def Proc.arenaBytes (q : Proc) : Set Nat :=
  Set.Ico q.kheapwinBase.toNat (q.kheapwinBase.toNat + q.kheapwinPages.toNat * 4096)

namespace Kernel

/-! ### What a call hands to the allocator -/

/-- The address that a call hands to the allocator as a descriptor, when it does not return
before. -/
def Passes (s : Kernel) (p : Nat) : Call → Nat → Prop
  | .cacheAlloc hc, c => (s.proc p).ukmemInited = true ∧ ¬ NoWindow (s.proc p) ∧
      (s.proc p).toKernel hc ≠ 0 ∧ c = ((s.proc p).toKernel hc).toNat
  | .cacheFree hc uobj, c => (s.proc p).ukmemInited = true ∧ hc ≠ 0 ∧ uobj ≠ 0 ∧
      (s.proc p).InArena ((s.proc p).toKernel uobj) ∧ c = ((s.proc p).toKernel hc).toNat
  | .cacheDestroy hc, c | .cacheInfo hc, c => (s.proc p).ukmemInited = true ∧
      (s.proc p).toKernel hc ≠ 0 ∧ c = ((s.proc p).toKernel hc).toNat
  | .kmemInit .., _ | .cacheCreate .., _ | .kmalloc _, _ | .kfree _, _ => False

/-- A free that gets to the allocator is one that it rejects, or of something live. -/
def FreesLive (s : Kernel) (p : Nat) : Call → Prop
  | .cacheFree hc uobj => ∀ c, Passes s p (.cacheFree hc uobj) c →
      (s.ukmem p).Rejects c ((s.proc p).toKernel uobj).toNat ∨
        ((s.proc p).toKernel uobj).toNat ∈ (s.ukmem p).liveObjects c
  | .kfree u => (s.proc p).ukmemInited = true → u ≠ 0 → (s.proc p).InWindow u →
      (s.ukmem p).RejectsKFree ((s.proc p).toKernel u).toNat ∨
        (∃ c, ((s.proc p).toKernel u).toNat ∈ (s.ukmem p).liveObjects c) ∨
        ∃ order, (((s.proc p).toKernel u).toNat, order) ∈ (s.ukmem p).liveBlocks
  | .kmemInit .. | .cacheCreate .. | .cacheAlloc _ | .cacheDestroy _ | .cacheInfo _
  | .kmalloc _ => True

/-- An arena that is set up has room for its metadata. -/
def EnoughPages (s : Kernel) (p : Nat) : Call → Prop
  | .kmemInit _ pages => (s.proc p).ukmemInited = false → 0 < pages.toInt → 5 ≤ pages.toInt
  | .cacheCreate .. | .cacheAlloc _ | .cacheFree .. | .cacheDestroy _ | .cacheInfo _ | .kmalloc _
  | .kfree _ => True

/-- **What a call has to satisfy.** -/
structure Allowed (s : Kernel) (p : Nat) (call : Call) : Prop where
  descriptor : ∀ c, Passes s p call c → (s.ukmem p).Used c
  frees : FreesLive s p call
  paired : ¬ Unpaired s p call
  pages : EnoughPages s p call

/-- **A call stays inside its process.** -/
structure Isolated (s s' : Kernel) (p : Nat) (call : Call) (value : UInt64) : Prop where
  /-- Only a used descriptor of the process is treated as one. -/
  descriptor : ∀ c, Passes s p call c → (s.ukmem p).Used c
  /-- The free lists, page metadata and descriptors of its allocator lie in the arena. -/
  metadata : (s.ukmem p).metadataBytes (s.proc p).kheapwinPages ⊆ (s.proc p).arenaBytes
  /-- Memory and descriptors outside the arena are unchanged. -/
  memory : SameOutside (s.proc p).arenaBytes s.kmem.mem s'.kmem.mem
  descriptors : ∀ c ∉ (s.proc p).arenaBytes, s'.kmem.desc c = s.kmem.desc c
  /-- So are the allocator of the kernel, the other processes, and all of this process but its
  `ukmem` page. -/
  kernel : s'.kmem = { s.kmem with mem := s'.kmem.mem, desc := s'.kmem.desc }
  others : ∀ q ≠ p, s'.proc q = s.proc q
  window : (s'.proc p).window = (s.proc p).window
  active : s'.active = s.active
  /-- A handle that stands for no used descriptor of the process is refused, and changes nothing. -/
  rejected : ∀ hc, call.handle = some hc → ¬ (s.ukmem p).Used ((s.proc p).toKernel hc).toNat →
    s'.ukmem p = s.ukmem p ∧ value = call.failure

/-! ### The calls of a process with an arena -/

section Serve

variable {s s' : Kernel} {p : Nat}

theorem sysKmemCacheFree_inited (inited : (s.proc p).ukmemInited = true) (hc uobj : UInt64) :
    s.sysKmemCacheFree p hc uobj = if hc = 0 ∨ uobj = 0 then .ok (s, minusOne)
      else if (s.proc p).toKernel uobj < (s.proc p).kheapwinBase ∨
          (s.proc p).kheapwinBase + (s.proc p).windowBytes ≤ (s.proc p).toKernel uobj then .ok (s,
            minusOne)
      else do
        let k ← (s.ukmem p).kmemCacheFree ((s.proc p).toKernel hc).toNat
          ((s.proc p).toKernel uobj).toNat
        return (s.setUkmem p k, 0) := by
  unfold sysKmemCacheFree
  rw [inited]
  rfl

theorem sysKmemCacheDestroy_inited (inited : (s.proc p).ukmemInited = true) (hc : UInt64) :
    s.sysKmemCacheDestroy p hc = if (s.proc p).toKernel hc = 0 then .ok (s, minusOne)
      else do
        let k ← (s.ukmem p).kmemCacheDestroy ((s.proc p).toKernel hc).toNat
        return (s.setUkmem p k, 0) := by
  unfold sysKmemCacheDestroy
  rw [inited]
  rfl

theorem sysKmemCacheInfo_inited (inited : (s.proc p).ukmemInited = true) (hc : UInt64) :
    s.sysKmemCacheInfo p hc = if (s.proc p).toKernel hc = 0 then .ok (s, minusOne)
      else do
        let _ ← (s.ukmem p).kmemCacheInfo ((s.proc p).toKernel hc).toNat
        return (s, 0) := by
  unfold sysKmemCacheInfo
  rw [inited]
  rfl

theorem sysKfree_eq (u : UInt64) : s.sysKfree p u = if u = 0 then .ok (s, minusOne)
    else if u < (s.proc p).uheapwinBase ∨
      (s.proc p).uheapwinBase + (s.proc p).windowBytes ≤ u then .ok (s, minusOne)
    else do
      let k ← (s.ukmem p).kFree ((s.proc p).toKernel u).toNat
      return (s.setUkmem p k, 0) := rfl

theorem allocObject_paired (inited : (s.proc p).ukmemInited = true) {hc : UInt64}
    (window : ¬ NoWindow (s.proc p)) (nonnull : (s.proc p).toKernel hc ≠ 0) :
    s.allocObject p hc = do
      let (k, kobj) ← (s.ukmem p).kmemCacheAlloc ((s.proc p).toKernel hc).toNat
      return (s.setUkmem p k, kobj) := by
  unfold Kernel.allocObject
  rw [inited]
  exact (if_neg window).trans (if_neg nonnull)

theorem kmallocObject_inited (inited : (s.proc p).ukmemInited = true) (n : Int32) :
    s.kmallocObject p n = if n.toInt ≤ 0 then .ok (s, 0)
      else if NoWindow (s.proc p) then .ok (s, 0)
      else do
        let (k, kobj) ← (s.ukmem p).kmalloc n.toInt.toNat
        return (s.setUkmem p k, kobj) := by
  unfold kmallocObject
  rw [inited]
  rfl

/-- What a call of a process leaves: nothing has changed, or the allocator of the process has,
inside its arena. -/
def Serves (s s' : Kernel) (p arena : Nat) (pages : Int) : Prop :=
  s' = s ∨ ∃ k held, s' = s.setUkmem p k ∧ Kmem.Sound k held arena pages ∧
    Kmem.Footprint (s.ukmem p) k ∅

variable {arena : Nat} {pages : Int} {held : List Allocation}

/-- A call of the allocator of a process. -/
theorem Arena.serves (holds : Arena s p arena pages held) {k : Kmem} {held' : List Allocation}
    (call : Kmem.AllocatorCall (s.ukmem p) held k held') :
    Serves s (s.setUkmem p k) p arena pages :=
  .inr ⟨k, held', rfl, holds.sound.allocatorCall call,
    (holds.sound.footprint call).mono (Set.empty_subset _)⟩

/-- A free that the allocator rejects. -/
theorem Arena.serves_rejected (holds : Arena s p arena pages held) {k : Kmem} {c : Nat}
    (only : Kmem.OnlyError (s.ukmem p) k c)
    (desc : ∀ d, ¬ (s.ukmem p).InPool d → k.desc d = (s.ukmem p).desc d) :
    Serves s (s.setUkmem p k) p arena pages :=
  .inr ⟨k, held, rfl, holds.sound.of_onlyError only, only.footprint desc ∅⟩

/-- A call returns, stays inside the arena, and refuses a handle that stands for no used descriptor
of the process. -/
def Contained (s : Kernel) (p arena : Nat) (pages : Int) (call : Call) : Prop :=
  ∃ s' value, call.exec s p = .ok (s', value) ∧ Serves s s' p arena pages ∧
    ∀ hc, call.handle = some hc → ¬ (s.ukmem p).Used ((s.proc p).toKernel hc).toNat →
    s' = s ∧ value = call.failure

/-- A call that returns early with its failure. -/
theorem contained_early {call : Call} (done : call.exec s p = .ok (s, call.failure)) :
    Contained s p arena pages call :=
  ⟨s, call.failure, done, .inl rfl, fun _ _ _ => ⟨rfl, rfl⟩⟩

/-- A call with a handle of a used descriptor, or with none. -/
theorem contained_of_used {call : Call} {value : UInt64} (done : call.exec s p = .ok (s', value))
    (serves : Serves s s' p arena pages)
    (used : ∀ hc, call.handle = some hc → (s.ukmem p).Used ((s.proc p).toKernel hc).toNat) :
    Contained s p arena pages call :=
  ⟨s', value, done, serves, fun hc isHandle unused => absurd (used hc isHandle) unused⟩

theorem Arena.contained_cacheFree (holds : Arena s p arena pages held) {hc uobj : UInt64}
    (allowed : Allowed s p (.cacheFree hc uobj)) :
    Contained s p arena pages (.cacheFree hc uobj) := by
  have exec := sysKmemCacheFree_inited holds.inited hc uobj
  by_cases null : hc = 0 ∨ uobj = 0
  · exact contained_early (exec.trans (if_pos null))
  by_cases outside : (s.proc p).toKernel uobj < (s.proc p).kheapwinBase ∨
      (s.proc p).kheapwinBase + (s.proc p).windowBytes ≤ (s.proc p).toKernel uobj
  · exact contained_early (exec.trans ((if_neg null).trans (if_pos outside)))
  rw [if_neg null, if_neg outside] at exec
  rw [not_or, UInt64.not_lt, UInt64.not_le] at outside
  have passes : Passes s p (.cacheFree hc uobj) ((s.proc p).toKernel hc).toNat :=
    ⟨holds.inited, (not_or.mp null).1, (not_or.mp null).2, outside, rfl⟩
  have used := allowed.descriptor _ passes
  have usedHandle : ∀ h, (Call.cacheFree hc uobj).handle = some h →
      (s.ukmem p).Used ((s.proc p).toKernel h).toNat := by
    intro h isHandle
    cases isHandle
    exact used
  rcases allowed.frees _ passes with bad | isLive
  · obtain ⟨k, free, only, _⟩ := holds.sound.rejected used bad
    rw [free] at exec
    exact contained_of_used exec (holds.serves_rejected only
      (used.desc_outside fun _ ne => Kmem.kmemCacheFree_desc_of_ne ne free)) usedHandle
  · rw [holds.sound.liveObjects_eq] at isLive
    obtain ⟨k, free⟩ := holds.sound.returns.free _ _ _ isLive
    rw [free] at exec
    exact contained_of_used exec (holds.serves (.free isLive free)) usedHandle

theorem Arena.contained_kfree (holds : Arena s p arena pages held) {u : UInt64}
    (allowed : Allowed s p (.kfree u)) : Contained s p arena pages (.kfree u) := by
  have exec := sysKfree_eq (s := s) (p := p) u
  by_cases null : u = 0
  · exact contained_early (exec.trans (if_pos null))
  by_cases outside : u < (s.proc p).uheapwinBase ∨
      (s.proc p).uheapwinBase + (s.proc p).windowBytes ≤ u
  · exact contained_early (exec.trans ((if_neg null).trans (if_pos outside)))
  rw [if_neg null, if_neg outside] at exec
  rw [not_or, UInt64.not_lt, UInt64.not_le] at outside
  -- a live object or block is freed
  have freed : ∀ a ∈ held, a.base = ((s.proc p).toKernel u).toNat →
      Contained s p arena pages (.kfree u) := by
    intro a isHeld base
    obtain ⟨k, free⟩ := holds.sound.returns.kFree a isHeld
    have serves := holds.serves (.kFree isHeld free)
    rw [base] at free
    rw [free] at exec
    exact contained_of_used exec serves nofun
  rcases allowed.frees holds.inited null outside with bad | ⟨c, isLive⟩ | ⟨order, isLive⟩
  · obtain ⟨k, free, c, only, _⟩ := holds.sound.kFree_rejected bad
    obtain ⟨v, core, _⟩ := holds.sound.view
    rw [free] at exec
    exact contained_of_used exec (holds.serves_rejected only fun _ => core.kFree_desc free) nofun
  · rw [holds.sound.liveObjects_eq] at isLive
    exact freed _ isLive rfl
  · rw [holds.sound.liveBlocks_eq] at isLive
    exact freed _ isLive rfl

theorem Arena.contained_cacheDestroy (holds : Arena s p arena pages held) {hc : UInt64}
    (allowed : Allowed s p (.cacheDestroy hc)) : Contained s p arena pages (.cacheDestroy hc) := by
  have exec := sysKmemCacheDestroy_inited holds.inited hc
  by_cases null : (s.proc p).toKernel hc = 0
  · exact contained_early (exec.trans (if_pos null))
  rw [if_neg null] at exec
  have used := allowed.descriptor _ ⟨holds.inited, null, rfl⟩
  obtain ⟨k, destroy⟩ := holds.sound.returns.destroy _ used
  rw [destroy] at exec
  refine contained_of_used exec (holds.serves (.destroy used destroy)) fun h isHandle => ?_
  cases isHandle
  exact used

theorem Arena.contained_cacheInfo (holds : Arena s p arena pages held) {hc : UInt64}
    (allowed : Allowed s p (.cacheInfo hc)) : Contained s p arena pages (.cacheInfo hc) := by
  have exec := sysKmemCacheInfo_inited holds.inited hc
  by_cases null : (s.proc p).toKernel hc = 0
  · exact contained_early (exec.trans (if_pos null))
  rw [if_neg null] at exec
  have used := allowed.descriptor _ ⟨holds.inited, null, rfl⟩
  obtain ⟨counts, info⟩ := holds.sound.kmemCacheInfo_returns used
  rw [info] at exec
  refine contained_of_used exec (.inl rfl) fun h isHandle => ?_
  cases isHandle
  exact used

theorem Arena.contained_cacheAlloc (holds : Arena s p arena pages held) (global : s.active = none)
    {hc : UInt64} (allowed : Allowed s p (.cacheAlloc hc)) :
    Contained s p arena pages (.cacheAlloc hc) := by
  have other : s.active ≠ some p := by
    rw [global]
    nofun
  -- an early return would be an unpaired one
  have window : ¬ NoWindow (s.proc p) :=
    fun noWindow => allowed.paired ⟨other, holds.inited, .inl noWindow⟩
  have nonnull : (s.proc p).toKernel hc ≠ 0 :=
    fun null => allowed.paired ⟨other, holds.inited, .inr null⟩
  have used := allowed.descriptor _ ⟨holds.inited, window, nonnull, rfl⟩
  obtain ⟨⟨k, obj⟩, alloc⟩ := holds.sound.returns.alloc _ (.inr used)
  have object := allocObject_paired holds.inited window nonnull
  rw [alloc] at object
  have exec : (Call.cacheAlloc hc).exec s p = .ok (s.setUkmem p k, _) := congrArg (· >>= _) object
  refine contained_of_used exec (holds.serves (.alloc (.inr used) alloc)) fun h isHandle => ?_
  cases isHandle
  exact used

theorem Arena.contained_kmalloc (holds : Arena s p arena pages held) (n : Int32) :
    Contained s p arena pages (.kmalloc n) := by
  have object := kmallocObject_inited holds.inited n
  by_cases small : n.toInt ≤ 0
  · rw [if_pos small] at object
    exact contained_early (congrArg (· >>= _) object)
  rw [if_neg small] at object
  by_cases noWindow : NoWindow (s.proc p)
  · rw [if_pos noWindow] at object
    exact contained_early (congrArg (· >>= _) object)
  rw [if_neg noWindow] at object
  obtain ⟨⟨k, obj⟩, alloc⟩ := holds.sound.returns.kmalloc n.toInt.toNat
  rw [alloc] at object
  have exec : (Call.kmalloc n).exec s p = .ok (s.setUkmem p k, _) := congrArg (· >>= _) object
  exact contained_of_used exec (holds.serves (.kmalloc alloc)) nofun

/-- The page of the name, the name, and the cache. -/
theorem Arena.serves_create (holds : Arena s p arena pages held) {kname : Name} {size : Int32}
    {k k' : Kmem} {page c : Nat} (kalloc : (s.ukmem p).kalloc = .ok (k, page)) (nonnull : page ≠ 0)
    (create : (k.setMem (writeName k.mem page kname)).kmemCacheCreate size.toInt.toNat none =
      .ok (k', c)) :
    Serves s (s.setUkmem p k') p arena pages := by
  have first : Kmem.AllocatorCall (s.ukmem p) held k (Kmem.handOut page (.block page 0) held) :=
    .buddyAlloc Kmem.orderForPages_one kalloc
  have sound := holds.sound.allocatorCall first
  rw [Kmem.handOut_of_ne nonnull] at sound
  have inPage :
      SameOutside (Kmem.heldBytes (.block page 0 :: held)) k.mem (writeName k.mem page kname) := by
    intro x outside
    exact if_neg fun inside => outside ⟨_, List.mem_cons_self, inside⟩
  have named := sound.write inPage
  have small : size.toInt.toNat < 2 ^ 64 := by
    have bound := size.toInt_lt
    omega
  have last :
      Kmem.AllocatorCall (k.setMem (writeName k.mem page kname)) (.block page 0 :: held) k'
      (.block page 0 :: held) :=
    .create small (fun f isSome => by cases isSome) create
  refine .inr ⟨k', _, rfl, named.allocatorCall last, ?_⟩
  exact (((holds.sound.footprint first).mono (Set.empty_subset _)).trans
    (sound.footprint_write inPage)).trans ((named.footprint last).mono (Set.empty_subset _))

theorem Arena.contained_cacheCreate (holds : Arena s p arena pages held) (global : s.active = none)
    {uname : Option Name} {size : Int32} (allowed : Allowed s p (.cacheCreate uname size)) :
    Contained s p arena pages (.cacheCreate uname size) := by
  obtain ⟨⟨t, c⟩, create⟩ := holds.createCache_returns uname size
  have exec : ∃ value, (Call.cacheCreate uname size).exec s p = .ok (t, value) := by
    show ∃ value, s.createCache p uname size >>= _ = _
    rw [create]
    cases c <;> exact ⟨_, rfl⟩
  obtain ⟨value, exec⟩ := exec
  refine contained_of_used exec ?_ nofun
  have same : t.active = none := by
    rcases createCache_active create with ⟨unpaired, _⟩ | ⟨_, same⟩
    · exact absurd unpaired allowed.paired
    · exact same.trans global
  rcases createCache_cases create with ⟨rfl | rfl, _⟩ | ⟨_, _, kname, k, page, _, kalloc, rest⟩
  · exact .inl rfl
  · cases same
  rcases rest with ⟨_, _, rfl⟩ | ⟨k', d, nonnull, created, _, rfl⟩
  · cases same
  · exact holds.serves_create kalloc nonnull created

/-- **An allowed call of a process with an arena returns and stays inside the arena.** -/
theorem Arena.contained (holds : Arena s p arena pages held) (global : s.active = none)
    {call : Call} (allowed : Allowed s p call) : Contained s p arena pages call := by
  cases call with
  | kmemInit space count =>
    refine contained_early ?_
    show s.sysKmemInit p space count = _
    unfold sysKmemInit
    rw [if_pos holds.inited]
    exact ite_self _
  | cacheCreate uname size => exact holds.contained_cacheCreate global allowed
  | cacheAlloc hc => exact holds.contained_cacheAlloc global allowed
  | cacheFree hc uobj => exact holds.contained_cacheFree allowed
  | cacheDestroy hc => exact holds.contained_cacheDestroy allowed
  | cacheInfo hc => exact holds.contained_cacheInfo allowed
  | kmalloc n => exact holds.contained_kmalloc n
  | kfree u => exact holds.contained_kfree allowed

end Serve

end Kernel

/-! ### The rest of the kernel -/

namespace Kmem

variable {k : Kmem} {held held' : List Allocation} {space : Nat} {blockNum : Int}

/-- The live allocations of an allocator, by its own fields. -/
structure Lives (k : Kmem) (held : List Allocation) : Prop where
  nodup : held.Nodup
  objects : ∀ c base size, .object c base size ∈ held ↔ base ∈ k.liveObjects c ∧
      size = (k.desc c).objectSize
  blocks : ∀ base order, .block base order ∈ held ↔ (base, order) ∈ k.liveBlocks

/-- What clients hold is what is live. -/
theorem Sound.lives (sound : Sound k held space blockNum) : k.Lives held where
  nodup := sound.nodup
  objects c base size := by
    rw [sound.liveObjects_eq]
    constructor
    · intro isHeld
      obtain rfl := (sound.used_of_held isHeld).2
      exact ⟨isHeld, rfl⟩
    · rintro ⟨isHeld, rfl⟩
      exact isHeld
  blocks base order := by
    rw [sound.liveBlocks_eq]
    rfl

theorem Sound.mem_iff_of_lives (sound : Sound k held space blockNum) (lives : Lives k held')
    (a : Allocation) : a ∈ held' ↔ a ∈ held := by
  cases a with
  | object c base size => rw [lives.objects, sound.lives.objects]
  | block base order => rw [lives.blocks, sound.lives.blocks]

theorem Sound.of_lives (sound : Sound k held space blockNum) (lives : Lives k held') :
    Sound k held' space blockNum := by
  obtain ⟨v, core, same⟩ := sound.view
  refine ⟨⟨v, core, fun a => ?_⟩, lives.nodup, sound.idle, sound.kmalloc, sound.placement⟩
  rw [sound.mem_iff_of_lives lives, same]

/-- The descriptors of an allocator lie in nothing that it has handed out. -/
theorem Sound.pool_not_held (sound : Sound k held space blockNum) {c : Nat} (inPool : k.InPool c) :
    c ∉ heldBytes held := by
  rintro ⟨a, isHeld, inside⟩
  obtain ⟨v, core, same⟩ := sound.view
  have above := (core.slabs.bytes_sub ((same a).mp isHeld) inside).1
  have before := sound.placement.before
  have below := inPool.2
  omega

/-- A failed `buddy_alloc` changes nothing, and no free block is large enough. -/
theorem Sound.buddyAlloc_null {k' : Kmem} (sound : Sound k held space blockNum) {size : Nat}
    (positive : 1 ≤ size) (small : size ≤ 2 ^ 15) (run : k.buddyAlloc size = .ok (k', 0)) :
    k' = k ∧ ∀ b ∈ k.freeBlocks, 2 ^ b.order < size := by
  obtain ⟨v, core, _⟩ := sound.view
  obtain ⟨t, least⟩ := Buddy.exists_leastOrder size
  obtain ⟨⟨b, base⟩, alloc, done⟩ := bind_eq_ok run
  rcases core.slabs.rep.buddyAlloc_cases core.slabs.pool positive small least with
    ⟨failed, none⟩ | ⟨i, m, b', call, nonnull, _⟩
  · obtain ⟨rfl, _⟩ := Prod.mk.inj (Except.ok.inj (failed.symm.trans alloc))
    cases done
    exact ⟨rfl, fun d isFree => Nat.lt_of_not_le fun fits => Nat.not_le.mpr (none d isFree)
      (least.2 fits)⟩
  · obtain ⟨_, rfl⟩ := Prod.mk.inj (Except.ok.inj (call.symm.trans alloc))
    exact absurd (congrArg Prod.snd (Except.ok.inj done)) nonnull

/-- Without a free block that is large enough, `buddy_alloc` fails. -/
theorem Sound.buddyAlloc_of_small (sound : Sound k held space blockNum) {size : Nat}
    (positive : 1 ≤ size) (small : size ≤ 2 ^ 15) (none : ∀ b ∈ k.freeBlocks, 2 ^ b.order < size) :
    k.buddyAlloc size = .ok (k, 0) := by
  obtain ⟨v, core, _⟩ := sound.view
  obtain ⟨t, least⟩ := Buddy.exists_leastOrder size
  rcases core.slabs.rep.buddyAlloc_cases core.slabs.pool positive small least with
    ⟨failed, _⟩ | ⟨i, m, b', _, _, allocates⟩
  · unfold Kmem.buddyAlloc
    rw [failed]
    rfl
  · have large : 2 ^ t ≤ 2 ^ m := Nat.pow_le_pow_right (by decide) allocates.enough
    exact absurd (none _ allocates.chosen) (Nat.not_lt.mpr (least.1.trans large))

/-- Held allocations with one base are the same. -/
theorem Sound.eq_of_base (sound : Sound k held space blockNum) {a b : Allocation} (aHeld : a ∈ held)
    (bHeld : b ∈ held) (base : a.base = b.base) : a = b := by
  by_contra ne
  have inB := sound.base_mem bHeld
  rw [← base] at inB
  exact Set.disjoint_left.mp (sound.held_disjoint aHeld bHeld ne) (sound.base_mem aHeld) inB

end Kmem

namespace Kernel

/-- The bytes of all arenas in use. -/
def arenas (s : Kernel) : Set Nat :=
  {x | ∃ p, (s.proc p).ukmemInited = true ∧ x ∈ (s.proc p).arenaBytes}

/-- What the rest of the kernel does with its own allocator: calls with what is live, and writes to
what it holds or to memory outside the allocator. It does not give back an arena in use, and does
not write to one. -/
inductive KernelStep (s : Kernel) : Kmem → Prop
  | call {taken taken' : List Allocation} {k : Kmem} :
      s.kmem.Lives taken → Kmem.AllocatorCall s.kmem taken k taken' →
      (∀ p order, (s.proc p).ukmemInited = true →
        .block (s.proc p).kheapwinBase.toNat order ∈ taken →
        .block (s.proc p).kheapwinBase.toNat order ∈ taken') → KernelStep s k
  | write {taken : List Allocation} {mem : Mem} : s.kmem.Lives taken →
      (∀ x ∈ s.kmem.regionBytes, x ∉ Kmem.heldBytes taken → mem x = s.kmem.mem x) →
      (∀ x ∈ s.arenas, mem x = s.kmem.mem x) → KernelStep s (s.kmem.setMem mem)

/-- What happens in the system. `reuse` is `freeproc` of a slot and the `allocproc` of the next
process in it, which clears the `ukmem` page; between the two the slot makes no call. -/
inductive Event
  | call (p : Nat) (call : Call)
  | kernel (k : Kmem)
  | reuse (p : Nat)
  | kexec (p : Nat) (sz : UInt64)

/-- One event. -/
def step (s : Kernel) : Event → Option Kernel
  | .call p call => callStep s (p, call)
  | .kernel k => some { s with kmem := k }
  | .reuse p => some (s.modifyProc p fun q => { q with ukmemInited := false, ukmem := Kmem.zeroed })
  | .kexec p sz => some (s.modifyProc p fun q => { q with uheapwinBase := sz })

/-- **The condition on a run**: every call is allowed, and the rest of the kernel works as it
should. -/
def Guard (s : Kernel) : Event → Prop
  | .call p call => Allowed s p call
  | .kernel k => KernelStep s k
  | .reuse _ | .kexec .. => True

/-! ### The invariant -/

section System

variable {s s' : Kernel} {p q : Nat} {taken taken' : List Allocation} {space₀ : Nat}
  {blockNum₀ : Int}

/-- A process has an arena, in a block that the kernel has handed out. -/
structure Granted (s : Kernel) (taken : List Allocation) (p : Nat) : Prop where
  arena : ∃ held, Arena s p (s.proc p).kheapwinBase.toNat (s.proc p).kheapwinPages held
  block : ∃ order, .block (s.proc p).kheapwinBase.toNat order ∈ taken ∧
      (s.proc p).kheapwinPages.toNat ≤ 2 ^ order
  start :
      (s.ukmem p).managedStart ≤ (s.proc p).kheapwinBase.toNat + (s.proc p).kheapwinPages.toNat *
      4096

/-- Two states of a slot with the same arena. -/
structure SameArena (q q' : Proc) : Prop where
  inited : q'.ukmemInited = q.ukmemInited
  base : q'.kheapwinBase = q.kheapwinBase
  pages : q'.kheapwinPages = q.kheapwinPages
  ukmem : q'.ukmem = q.ukmem

theorem SameArena.of_eq {q q' : Proc} (same : q' = q) : SameArena q q' := by
  subst same
  exact ⟨rfl, rfl, rfl, rfl⟩

namespace Granted

/-- The region of the allocator of a process lies in the arena. -/
theorem region_sub (granted : Granted s taken p) :
    (s.ukmem p).regionBytes ⊆ (s.proc p).arenaBytes := by
  obtain ⟨held, holds⟩ := granted.arena
  exact holds.sound.placement.region_sub

/-- So does its metadata. -/
theorem metadata_sub (granted : Granted s taken p) :
    (s.ukmem p).metadataBytes (s.proc p).kheapwinPages ⊆ (s.proc p).arenaBytes := by
  obtain ⟨held, holds⟩ := granted.arena
  intro x inMeta
  obtain ⟨low, high⟩ := holds.sound.placement.metadata_before inMeta
  exact ⟨low, lt_of_lt_of_le high granted.start⟩

theorem pool_sub (granted : Granted s taken p) {c : Nat} (inPool : (s.ukmem p).InPool c) :
    c ∈ (s.proc p).arenaBytes :=
  granted.metadata_sub (.inr inPool)

/-- The arena lies in its block. -/
theorem arena_sub (granted : Granted s taken p) :
    ∃ order, .block (s.proc p).kheapwinBase.toNat order ∈ taken ∧
    (s.proc p).arenaBytes ⊆ (Allocation.block (s.proc p).kheapwinBase.toNat order).bytes := by
  obtain ⟨order, isTaken, fits⟩ := granted.block
  refine ⟨order, isTaken, Set.Ico_subset_Ico_right ?_⟩
  simp only [Allocation.base, Allocation.size]
  omega

theorem arena_held (granted : Granted s taken p) :
    (s.proc p).arenaBytes ⊆ Kmem.heldBytes taken := by
  obtain ⟨order, isTaken, inside⟩ := granted.arena_sub
  exact fun x inArena => ⟨_, isTaken, inside inArena⟩

/-- **An arena depends on nothing outside it.** -/
theorem elsewhere (granted : Granted s taken p) (same : SameArena (s.proc p) (s'.proc p))
    (mem : ∀ x ∈ (s.proc p).arenaBytes, s'.kmem.mem x = s.kmem.mem x)
    (desc : ∀ c ∈ (s.proc p).arenaBytes, s'.kmem.desc c = s.kmem.desc c)
    (block : ∀ order, .block (s.proc p).kheapwinBase.toNat order ∈ taken →
      .block (s.proc p).kheapwinBase.toNat order ∈ taken') : Granted s' taken' p := by
  obtain ⟨held, holds⟩ := granted.arena
  have ukmem : s'.ukmem p = { s.ukmem p with mem := s'.kmem.mem, desc := s'.kmem.desc } := by
    unfold Kernel.ukmem
    rw [same.ukmem]
  have sound :
      Kmem.Sound (s'.ukmem p) held (s.proc p).kheapwinBase.toNat (s.proc p).kheapwinPages := by
    rw [ukmem]
    exact holds.sound.elsewhere (fun x inRegion _ => mem x (granted.region_sub inRegion))
      fun c inPool => desc c (granted.pool_sub inPool)
  refine ⟨⟨held, ?_⟩, ?_, ?_⟩
  · rw [same.base, same.pages]
    exact ⟨same.inited.trans holds.inited, same.base.trans holds.base, same.pages,
      holds.given, sound⟩
  · obtain ⟨order, isTaken, fits⟩ := granted.block
    rw [same.base, same.pages]
    exact ⟨order, block order isTaken, fits⟩
  · rw [ukmem, same.base, same.pages]
    exact granted.start

end Granted

/-- A slot whose process has no arena: its `ukmem` page is as `allocproc` cleared it. -/
structure Cleared (q : Proc) : Prop extends WithoutArena q where
  blocks : q.ukmem.managedNumBlocks = 0

/-- **The kernel is on its own allocator, which is sound; every arena is sound and in a block of its
own.** -/
structure Inv (space₀ : Nat) (blockNum₀ : Int) (s : Kernel) (taken : List Allocation) : Prop where
  active : s.active = none
  kernel : Kmem.Sound s.kmem taken space₀ blockNum₀
  granted : ∀ p, (s.proc p).ukmemInited = true → Granted s taken p
  apart : ∀ p q, (s.proc p).ukmemInited = true → (s.proc q).ukmemInited = true → p ≠ q →
    (s.proc p).kheapwinBase ≠ (s.proc q).kheapwinBase
  cleared : ∀ p, (s.proc p).ukmemInited = false → Cleared (s.proc p)

namespace Inv

/-- Arenas do not overlap. -/
theorem arenas_disjoint (inv : Inv space₀ blockNum₀ s taken) (first : (s.proc p).ukmemInited = true)
    (second : (s.proc q).ukmemInited = true) (ne : p ≠ q) :
    Disjoint (s.proc p).arenaBytes (s.proc q).arenaBytes := by
  obtain ⟨order, isTaken, inside⟩ := (inv.granted p first).arena_sub
  obtain ⟨order', isTaken', inside'⟩ := (inv.granted q second).arena_sub
  refine Set.disjoint_of_subset inside inside' (inv.kernel.held_disjoint isTaken isTaken'
    fun same => ?_)
  rw [Allocation.block.injEq] at same
  exact inv.apart p q first second ne (UInt64.toNat_inj.mp same.1)

/-- A change of the slots only, each of which keeps its arena or is cleared. -/
theorem slots (inv : Inv space₀ blockNum₀ s taken) (kmem : s'.kmem = s.kmem)
    (active : s'.active = s.active)
    (each : ∀ p, SameArena (s.proc p) (s'.proc p) ∨ Cleared (s'.proc p)) :
    Inv space₀ blockNum₀ s' taken := by
  have kept : ∀ p, (s'.proc p).ukmemInited = true → SameArena (s.proc p) (s'.proc p) := by
    intro p inited
    refine (each p).resolve_right fun cleared => ?_
    rw [cleared.inited] at inited
    cases inited
  have before : ∀ p, (s'.proc p).ukmemInited = true → (s.proc p).ukmemInited = true :=
    fun p inited => (kept p inited).inited.symm.trans inited
  refine ⟨active.trans inv.active, by rw [kmem]; exact inv.kernel, ?_, ?_, ?_⟩
  · intro p inited
    exact (inv.granted p (before p inited)).elsewhere (kept p inited) (fun _ _ => by rw [kmem])
      (fun _ _ => by rw [kmem]) fun _ => id
  · intro p q first second ne
    rw [(kept p first).base, (kept q second).base]
    exact inv.apart p q (before p first) (before q second) ne
  · intro p without
    rcases each p with same | cleared
    · have old := inv.cleared p (same.inited.symm.trans without)
      exact ⟨⟨without, by rw [same.ukmem]; exact old.head, by rw [same.ukmem]; exact old.tail⟩,
        by rw [same.ukmem]; exact old.blocks⟩
    · exact cleared

/-- **A call that stays inside the arena of its process keeps the invariant.** -/
theorem serves (inv : Inv space₀ blockNum₀ s taken) (inited : (s.proc p).ukmemInited = true)
    (serves : Serves s s' p (s.proc p).kheapwinBase.toNat (s.proc p).kheapwinPages) :
    Inv space₀ blockNum₀ s' taken := by
  obtain rfl | ⟨k, held, rfl, sound, footprint⟩ := serves
  · exact inv
  have granted := inv.granted p inited
  have outside : ∀ x ∉ (s.proc p).arenaBytes, k.mem x = s.kmem.mem x :=
    fun x notIn => footprint.outside fun inRegion => notIn (granted.region_sub inRegion)
  have descs : ∀ c ∉ (s.proc p).arenaBytes, k.desc c = s.kmem.desc c :=
    fun c notIn => footprint.desc c fun inPool => notIn (granted.pool_sub inPool)
  have window : ∀ q, ((s.setUkmem p k).proc q).window = (s.proc q).window :=
    fun q => window_setUkmem k
  simp only [Proc.window, Prod.mk.injEq] at window
  refine ⟨inv.active, ?_, ?_, ?_, ?_⟩
  · refine inv.kernel.elsewhere (fun x _ notHeld => outside x fun inArena =>
      notHeld (granted.arena_held inArena))
      fun c inPool => descs c fun inArena => inv.kernel.pool_not_held inPool
      (granted.arena_held inArena)
  · intro q initedQ
    have before : (s.proc q).ukmemInited = true := (window q).2.2.2.symm.trans initedQ
    by_cases same : q = p
    · subst same
      obtain ⟨held', holds⟩ := granted.arena
      refine ⟨⟨held, ?_⟩, ?_, ?_⟩
      · rw [(window q).1, (window q).2.1]
        exact holds.setUkmem sound (ukmem_setUkmem k) (window_setUkmem k)
      · rw [(window q).1, (window q).2.1]
        exact granted.block
      · rw [(window q).1, (window q).2.1, ukmem_setUkmem, footprint.place.start]
        exact granted.start
    · have disjoint := inv.arenas_disjoint before inited same
      exact (inv.granted q before).elsewhere (.of_eq (setUkmem_of_ne k same))
        (fun x inQ => outside x (Set.disjoint_left.mp disjoint inQ))
        (fun c inQ => descs c (Set.disjoint_left.mp disjoint inQ)) fun _ => id
  · intro q r first second ne
    rw [(window q).1, (window r).1]
    exact inv.apart q r ((window q).2.2.2.symm.trans first) ((window r).2.2.2.symm.trans second) ne
  · intro q without
    have before : (s.proc q).ukmemInited = false := (window q).2.2.2.symm.trans without
    have other : q ≠ p := by
      rintro rfl
      rw [inited] at before
      cases before
    rw [setUkmem_of_ne k other]
    exact inv.cleared q before

/-- The rest of the kernel keeps the invariant. -/
theorem kernelStep (inv : Inv space₀ blockNum₀ s taken) {k : Kmem} (moves : KernelStep s k) :
    ∃ taken', Inv space₀ blockNum₀ { s with kmem := k } taken' := by
  cases moves with
  | @call held held' _ lives call stays =>
    have kernel := inv.kernel.of_lives lives
    have footprint := kernel.footprint call
    have isHeld : ∀ a, a ∈ held ↔ a ∈ taken := inv.kernel.mem_iff_of_lives lives
    refine ⟨held', inv.active, kernel.allocatorCall call, fun p inited => ?_, inv.apart,
      inv.cleared⟩
    have granted := inv.granted p inited
    obtain ⟨order, isTaken, inside⟩ := granted.arena_sub
    have isKept := stays p order inited ((isHeld _).mpr isTaken)
    refine granted.elsewhere (.of_eq rfl) (fun x inArena => ?_) (fun c inArena => ?_)
      fun order isTaken =>
      stays p order inited ((isHeld _).mpr isTaken)
    · exact footprint.kept_mem ⟨_, (isHeld _).mpr isTaken, isKept, inside inArena⟩
    · exact footprint.desc c fun inPool => inv.kernel.pool_not_held inPool
        (granted.arena_held inArena)
  | @write held mem lives outside arenas =>
    refine ⟨taken, inv.active, ?_, fun p inited => ?_, inv.apart, inv.cleared⟩
    · have written : ∀ x ∈ s.kmem.regionBytes, x ∉ Kmem.heldBytes taken → mem x = s.kmem.mem x := by
        refine fun x inRegion notHeld => outside x inRegion fun ⟨a, isHeld, inside⟩ =>
          notHeld ⟨a, ?_, inside⟩
        exact (inv.kernel.mem_iff_of_lives lives a).mp isHeld
      exact inv.kernel.elsewhere written fun _ _ => rfl
    · exact (inv.granted p inited).elsewhere (.of_eq rfl)
        (fun x inArena => arenas x ⟨p, inited, inArena⟩) (fun _ _ => rfl) fun _ => id

end Inv

section Initialised

variable {space : UInt64} {pages : Int} {k k' : Kmem} {arena order : Nat}

theorem Initialised.address (done : Initialised s s' p space pages k k' arena)
    (given : Space arena pages) : (s'.proc p).kheapwinBase.toNat = arena := by
  have fits := given.fits
  have positive := done.positive
  have base : (s'.proc p).kheapwinBase = UInt64.ofNat arena := congrArg Prod.fst done.window
  simp only [maxva] at fits
  rw [base, UInt64.toNat_ofNat']
  exact Nat.mod_eq_of_lt (by omega)

/-- The new arena lies in its block, with its metadata. -/
theorem Initialised.granted (done : Initialised s s' p space pages k k' arena)
    (kernel : Kmem.Sound s.kmem taken space₀ blockNum₀) (given : Space space₀ blockNum₀)
    (cleared : Cleared (s.proc p)) (enough : pages.toNat ≤ 2 ^ order)
    (blocks : 0 ≤ (s'.ukmem p).managedNumBlocks) : Granted s' (.block arena order :: taken) p := by
  obtain ⟨holds, _⟩ := done.arena kernel given cleared.head cleared.tail
  have address := done.address holds.given
  have count : (s'.proc p).kheapwinPages = pages := holds.count
  refine ⟨⟨[], ?_⟩, ⟨order, ?_, ?_⟩, ?_⟩
  · rw [address, count]
    exact holds
  · rw [address]
    exact List.mem_cons_self
  · rw [count]
    exact enough
  · obtain ⟨k₁, init, _, _, start⟩ := Kmem.kmemInit_user
      (k := { (s.proc p).ukmem with mem := k.mem, desc := k.desc }) holds.given cleared.head
      cleared.tail
    obtain rfl : k₁ = k' := Except.ok.inj (init.symm.trans done.init)
    rw [address, count, done.ukmem]
    exact start.mp (done.ukmem ▸ blocks)

/-- The kernel's allocator after the block has been set up. -/
theorem Initialised.kernel (done : Initialised s s' p space pages k k' arena)
    (handed : Kmem.Sound k (.block arena order :: taken) space₀ blockNum₀)
    (confined : Confined s s' p pages taken arena order) :
    Kmem.Sound s'.kmem (.block arena order :: taken) space₀ blockNum₀ := by
  obtain ⟨k₁, buddy, _, outside⟩ := confined.buddy
  obtain rfl : k₁ = k := congrArg Prod.fst (Except.ok.inj (buddy.symm.trans done.buddy))
  have memory : s'.kmem.mem = k'.mem := by rw [done.kmem]
  rw [done.kmem]
  refine handed.elsewhere (fun x _ notHeld => ?_) fun c inPool => ?_
  · rw [← memory]
    exact outside x fun inBlock => notHeld ⟨_, List.mem_cons_self, inBlock⟩
  · have same :=
      confined.caches c fun inBlock => handed.pool_not_held inPool ⟨_, List.mem_cons_self, inBlock⟩
    rw [done.kmem] at same
    rw [Kmem.buddyAlloc_desc buddy]
    exact same

/-- The other arenas after the block has been set up. -/
theorem Initialised.elsewhere (confined : Confined s s' p pages taken arena order)
    (handed : Kmem.Sound k (.block arena order :: taken) space₀ blockNum₀)
    (granted : Granted s taken q) (ne : q ≠ p) : Granted s' (.block arena order :: taken) q := by
  obtain ⟨order', isTaken, inside⟩ := granted.arena_sub
  have apart : .block (s.proc q).kheapwinBase.toNat order' ≠ Allocation.block arena order :=
    fun same => (List.nodup_cons.mp handed.nodup).1 (same ▸ isTaken)
  refine granted.elsewhere (.of_eq (confined.otherProcs q ne))
    (fun x inArena => confined.contents _ isTaken x (inside inArena))
    (fun c inArena => confined.caches c fun inBlock => ?_) fun _ => List.mem_cons_of_mem _
  exact Set.disjoint_left.mp
    (handed.held_disjoint (List.mem_cons_of_mem _ isTaken) List.mem_cons_self apart)
    (inside inArena) inBlock

end Initialised

namespace Inv

/-- **A new arena keeps the invariant**, when it has room for its metadata. -/
theorem initialised (inv : Inv space₀ blockNum₀ s taken) (given : Space space₀ blockNum₀)
    {space : UInt64} {pages : Int} {k k' : Kmem} {arena : Nat}
    (done : Initialised s s' p space pages k k' arena) (large : 5 ≤ pages) :
    ∃ taken', Inv space₀ blockNum₀ s' taken' := by
  have cleared := inv.cleared p done.without
  have few := done.few
  simp only [maxTestPages] at few
  obtain ⟨order, least⟩ := Buddy.exists_leastOrder pages.toNat
  have confined := (done.confined_iff inv.kernel given cleared.head cleared.tail least).mpr large
  have handed := inv.kernel.buddyAlloc (Buddy.orderForPages_of_isLeast (by omega) least) done.buddy
  rw [Kmem.handOut_of_ne done.nonnull] at handed
  have new := done.granted inv.kernel given cleared least.1 confined.blocks
  have inited : (s'.proc p).ukmemInited = true := new.arena.choose_spec.inited
  -- no arena has the base of the new block
  have newBase : ∀ q ≠ p, (s'.proc q).ukmemInited = true →
      (s'.proc q).kheapwinBase ≠ (s'.proc p).kheapwinBase := by
    intro q ne initedQ same
    rw [done.others q ne] at initedQ same
    obtain ⟨order', isTaken, _⟩ := (inv.granted q initedQ).block
    rw [same, done.address (done.arena inv.kernel given cleared.head cleared.tail).1.given]
      at isTaken
    have isNew := handed.eq_of_base (List.mem_cons_of_mem _ isTaken) List.mem_cons_self rfl
    exact (List.nodup_cons.mp handed.nodup).1 (isNew ▸ isTaken)
  refine ⟨.block arena order :: taken, done.active.trans inv.active, done.kernel handed confined,
    fun q initedQ => ?_, fun q r first second ne => ?_, fun q without => ?_⟩
  · by_cases isP : q = p
    · exact isP ▸ new
    · rw [done.others q isP] at initedQ
      exact Initialised.elsewhere confined handed (inv.granted q initedQ) isP
  · by_cases isP : q = p
    · exact isP ▸ (newBase r (isP ▸ ne.symm) second).symm
    by_cases isP' : r = p
    · exact isP' ▸ newBase q isP first
    rw [done.others q isP] at first ⊢
    rw [done.others r isP'] at second ⊢
    exact inv.apart q r first second ne
  · have isOther : q ≠ p := by
      rintro rfl
      rw [inited] at without
      cases without
    rw [done.others q isOther] at without ⊢
    exact inv.cleared q without

/-- A change to a slot that leaves it cleared. -/
theorem clear (inv : Inv space₀ blockNum₀ s taken) (kmem : s'.kmem = s.kmem)
    (active : s'.active = s.active) (others : ∀ q ≠ p, s'.proc q = s.proc q)
    (cleared : Cleared (s'.proc p)) : Inv space₀ blockNum₀ s' taken := by
  refine inv.slots kmem active fun q => ?_
  by_cases same : q = p
  · exact .inr (same ▸ cleared)
  · exact .inl (.of_eq (others q same))

end Inv

/-! ### The calls of a process without an arena -/

/-- `sys_kmem_init` gets to ask for an arena. -/
def AsksForArena (s : Kernel) (p : Nat) (pages : Int32) : Prop :=
  0 < pages.toInt ∧ pages.toInt ≤ maxTestPages ∧ (s.proc p).ukmemInited = false

/-- A failed `sys_kmem_init` has written the window fields, or nothing. -/
theorem sysKmemInit_failed (global : s.active = none) {space : UInt64} {pages : Int32}
    (done : s.sysKmemInit p space pages = .ok (s', minusOne)) :
    s' = s ∧ ¬ AsksForArena s p pages ∨ AsksForArena s p pages ∧
      ∃ k, s.kmem.buddyAlloc pages.toInt.toNat = .ok (k, 0) ∧
      s' = { s.modifyProc p (fun q => q.request space pages.toInt) with kmem := k } := by
  unfold sysKmemInit at done
  split at done
  next range =>
    cases done
    exact .inl ⟨rfl, fun ⟨positive, few, _⟩ => absurd range (by omega)⟩
  next range =>
  split at done
  next inited =>
    cases done
    refine .inl ⟨rfl, fun ⟨_, _, without⟩ => ?_⟩
    rw [without] at inited
    cases inited
  next without =>
  obtain ⟨⟨k, arena⟩, buddy, done⟩ := bind_eq_ok done
  dsimp only at done
  split at done
  next null =>
    cases done
    obtain ⟨kmem, proc, active⟩ := s
    cases global
    subst null
    exact .inr ⟨⟨by omega, by omega, by simpa using without⟩, k, buddy, rfl⟩
  · obtain ⟨k', _, done⟩ := bind_eq_ok done
    cases done

/-- `k_free` on a `ukmem` page that was never initialised does nothing. -/
theorem kFree_unmanaged {k k' : Kmem} (none : k.managedNumBlocks = 0) {x : Nat}
    (run : k.kFree x = .ok k') : k' = k := by
  have missing : ∀ y, k.addrToIndex y < 0 := by
    intro y
    have noIndex : ∀ index : Int, index < 0 ∨ k.managedNumBlocks ≤ index := by
      intro index
      omega
    unfold Buddy.addrToIndex
    dsimp only
    rw [if_pos (noIndex _)]
    split <;> simp
  unfold Kmem.kFree at run
  rw [if_pos (missing _)] at run
  exact (Except.ok.inj run).symm

/-- **Without an arena the calls other than `sys_kmem_init` change nothing.** -/
theorem exec_cleared (cleared : Cleared (s.proc p)) {call : Call} {value : UInt64}
    (notInit : ∀ space pages, call ≠ .kmemInit space pages)
    (done : call.exec s p = .ok (s', value)) : s' = s ∨ s' = s.setUkmem p (s.ukmem p) := by
  have none := cleared.inited
  cases call with
  | kmemInit space pages => exact absurd rfl (notInit space pages)
  | cacheCreate uname size =>
    rw [Call.exec, sysKmemCacheCreate, createCache_uninited none] at done
    cases done
    exact .inl rfl
  | cacheAlloc hc =>
    rw [Call.exec, sysKmemCacheAlloc, allocObject_uninited none] at done
    cases done
    exact .inl rfl
  | cacheFree hc uobj =>
    simp only [Call.exec, sysKmemCacheFree, none] at done
    cases done
    exact .inl rfl
  | cacheDestroy hc =>
    simp only [Call.exec, sysKmemCacheDestroy, none] at done
    cases done
    exact .inl rfl
  | cacheInfo hc => exact .inl (sysKmemCacheInfo_eq done)
  | kmalloc n =>
    rw [Call.exec, sysKmalloc, kmallocObject_uninited none] at done
    cases done
    exact .inl rfl
  | kfree u =>
    rcases sysKfree_cases done with rfl | ⟨_, _, k, free, rfl⟩
    · exact .inl rfl
    · rw [kFree_unmanaged (k := s.ukmem p) cleared.blocks free]
      exact .inr rfl

namespace Inv

/-- `sys_kmem_init` keeps the invariant. -/
theorem kmemInit (inv : Inv space₀ blockNum₀ s taken) (given : Space space₀ blockNum₀)
    (without : (s.proc p).ukmemInited = false) {space value : UInt64} {pages : Int32}
    (allowed : Allowed s p (.kmemInit space pages))
    (done : s.sysKmemInit p space pages = .ok (s', value)) :
    ∃ taken', Inv space₀ blockNum₀ s' taken' := by
  have cleared := inv.cleared p without
  obtain ⟨t, result, returned, values⟩ :=
    sysKmemInit_returns inv.kernel given inv.active cleared.head cleared.tail space pages
  obtain ⟨rfl, rfl⟩ := Prod.mk.inj (Except.ok.inj (returned.symm.trans done))
  rcases values with rfl | rfl
  · obtain ⟨k, k', arena, initialised⟩ := sysKmemInit_ok inv.active done
    exact inv.initialised given initialised (allowed.pages without initialised.positive)
  · rcases sysKmemInit_failed inv.active done with ⟨rfl, _⟩ | ⟨⟨positive, few, _⟩, k, buddy, rfl⟩
    · exact ⟨taken, inv⟩
    simp only [maxTestPages] at few
    obtain rfl := (inv.kernel.buddyAlloc_null (by omega) (by omega) buddy).1
    refine ⟨taken, inv.clear (p := p) rfl rfl (fun q ne => Function.update_of_ne ne ..) ?_⟩
    show Cleared ((s.modifyProc p fun q => q.request space pages.toInt).proc p)
    rw [modifyProc_self]
    exact ⟨⟨without, cleared.head, cleared.tail⟩, cleared.blocks⟩

/-- **Every allowed call keeps the invariant.** -/
theorem call (inv : Inv space₀ blockNum₀ s taken) (given : Space space₀ blockNum₀) {call : Call}
    {value : UInt64} (allowed : Allowed s p call) (done : call.exec s p = .ok (s', value)) :
    ∃ taken', Inv space₀ blockNum₀ s' taken' := by
  cases inited : (s.proc p).ukmemInited with
  | true =>
    obtain ⟨held, holds⟩ := (inv.granted p inited).arena
    obtain ⟨t, result, returned, serves, _⟩ := holds.contained inv.active allowed
    obtain ⟨rfl, _⟩ := Prod.mk.inj (Except.ok.inj (returned.symm.trans done))
    exact ⟨taken, inv.serves inited serves⟩
  | false =>
    by_cases isInit : ∃ space pages, call = .kmemInit space pages
    · obtain ⟨space, pages, rfl⟩ := isInit
      exact inv.kmemInit given inited allowed done
    have cleared := inv.cleared p inited
    rcases exec_cleared cleared (fun space pages eq => isInit ⟨space, pages, eq⟩) done with rfl |
      rfl
    · exact ⟨taken, inv⟩
    · refine ⟨taken, inv.clear rfl rfl (fun q ne => setUkmem_of_ne _ ne) ?_⟩
      simp only [setUkmem, modifyProc_self]
      exact ⟨⟨inited, cleared.head, cleared.tail⟩, cleared.blocks⟩

/-- **Every guarded event keeps the invariant.** -/
theorem step (inv : Inv space₀ blockNum₀ s taken) (given : Space space₀ blockNum₀) {e : Event}
    (guarded : Guard s e) (moves : Kernel.step s e = some s') :
    ∃ taken', Inv space₀ blockNum₀ s' taken' := by
  cases e with
  | call p call =>
    obtain ⟨value, done⟩ := exec_of_callStep moves
    exact inv.call given guarded done
  | kernel k =>
    cases moves
    exact inv.kernelStep guarded
  | reuse p =>
    cases moves
    refine ⟨taken, inv.clear (p := p) rfl rfl (fun q ne => modifyProc_of_ne _ ne) ?_⟩
    rw [modifyProc_self]
    exact ⟨⟨rfl, rfl, rfl⟩, rfl⟩
  | kexec p sz =>
    cases moves
    refine ⟨taken, inv.slots rfl rfl fun q => .inl ?_⟩
    by_cases same : q = p
    · subst same
      rw [modifyProc_self]
      exact ⟨rfl, rfl, rfl, rfl⟩
    · exact .of_eq (modifyProc_of_ne _ same)

/-- **A call that stays inside its arena is isolated.** -/
theorem isolated (inv : Inv space₀ blockNum₀ s taken) (inited : (s.proc p).ukmemInited = true)
    {call : Call} (allowed : Allowed s p call) :
    ∃ s' value, call.exec s p = .ok (s', value) ∧ Isolated s s' p call value := by
  have granted := inv.granted p inited
  obtain ⟨held, holds⟩ := granted.arena
  obtain ⟨s', value, done, serves, refused⟩ := holds.contained inv.active allowed
  refine ⟨s', value, done, ?_⟩
  have rejected : ∀ hc, call.handle = some hc → ¬ (s.ukmem p).Used ((s.proc p).toKernel hc).toNat →
      s'.ukmem p = s.ukmem p ∧ value = call.failure := by
    intro hc isHandle unused
    obtain ⟨rfl, failed⟩ := refused hc isHandle unused
    exact ⟨rfl, failed⟩
  obtain rfl | ⟨k, held', rfl, _, footprint⟩ := serves
  · exact ⟨allowed.descriptor, granted.metadata_sub, SameOutside.refl _ _, fun _ _ => rfl, rfl,
      fun _ _ => rfl, rfl, rfl, rejected⟩
  · refine ⟨allowed.descriptor, granted.metadata_sub, fun x notIn => ?_, fun c notIn => ?_, rfl,
      fun q ne => setUkmem_of_ne k ne, window_setUkmem k, rfl, rejected⟩
    · exact footprint.outside fun inRegion => notIn (granted.region_sub inRegion)
    · exact footprint.desc c fun inPool => notIn (granted.pool_sub inPool)

/-- The kernel after `kmem_init`, with an empty process table. -/
theorem boot (given : Space space₀ blockNum₀) {k₀ k : Kmem} {isKernel : Bool}
    (head : k₀.headOfCacheList = 0) (tail : k₀.tailOfCacheList = 0)
    (booted : k₀.kmemInit space₀ blockNum₀ isKernel = .ok k) :
    Inv space₀ blockNum₀ (Window.unusedSlot k).kernel [] where
  active := rfl
  kernel := (Kmem.Run.init booted).sound given head tail
  granted := fun _ inited => by cases inited
  apart := fun _ _ inited => by cases inited
  cleared := fun _ _ => ⟨⟨rfl, rfl, rfl⟩, rfl⟩

/-- The invariant holds in every state that a guarded run from the boot of the kernel reaches. -/
theorem reached (given : Space space₀ blockNum₀) {k₀ k : Kmem} {isKernel : Bool}
    (head : k₀.headOfCacheList = 0) (tail : k₀.tailOfCacheList = 0)
    (booted : k₀.kmemInit space₀ blockNum₀ isKernel = .ok k) {events : List Event}
    (guarded : Along Kernel.step Guard (Window.unusedSlot k).kernel events)
    (ran : run Kernel.step (Window.unusedSlot k).kernel events = some s) :
    ∃ taken, Inv space₀ blockNum₀ s taken := by
  have keeps : ∀ (s : Kernel) (e : Event) (s' : Kernel), (∃ taken, Inv space₀ blockNum₀ s taken) →
      Guard s e → Kernel.step s e = some s' → ∃ taken, Inv space₀ blockNum₀ s' taken :=
    fun _ _ _ ⟨_, inv⟩ guarded moves => inv.step given guarded moves
  exact inv_of_run keeps events ⟨[], boot given head tail booted⟩ guarded ran

end Inv

/-- **In every run of allowed calls from the boot of the kernel, every allowed call of a process
with an arena returns and is isolated.** -/
theorem isolated_of_guarded (given : Space space₀ blockNum₀) {k₀ k : Kmem} {isKernel : Bool}
    (head : k₀.headOfCacheList = 0) (tail : k₀.tailOfCacheList = 0)
    (booted : k₀.kmemInit space₀ blockNum₀ isKernel = .ok k) (events : List Event)
    (guarded : Along step Guard (Window.unusedSlot k).kernel events)
    (reached : run step (Window.unusedSlot k).kernel events = some s)
    (inited : (s.proc p).ukmemInited = true) (call : Call) (allowed : Allowed s p call) :
    ∃ s' value, call.exec s p = .ok (s', value) ∧ Isolated s s' p call value := by
  obtain ⟨taken, inv⟩ := Inv.reached given head tail booted guarded reached
  exact inv.isolated inited allowed

end System

/-- The first calls of a process with an arena of sixteen pages. -/
def setUp : List Event := [.call 3 (.kmemInit 0x4000 16)]

theorem guarded_setUp (k : Kmem) : Along step Guard (Window.unusedSlot k).kernel setUp :=
  ⟨⟨nofun, trivial, id, fun _ _ => by decide⟩, fun _ _ => trivial⟩

/-- Process 3 allocates from the first cache of its arena. -/
theorem isolated_of_guarded_ownCache :
    ∃ k s s' value, Kmem.zeroed.kmemInit 0x80030000 32720 true = .ok k ∧
    run step (Window.unusedSlot k).kernel setUp = some s ∧
    Along step Guard (Window.unusedSlot k).kernel setUp ∧
    Allowed s 3 (.cacheAlloc 16768) ∧ (Call.cacheAlloc 16768).exec s 3 = .ok (s', value) ∧
    Isolated s s' 3 (.cacheAlloc 16768) value := by
  obtain ⟨k, booted, observed⟩ := exists_ok (Kmem.zeroed.kmemInit 0x80030000 32720 true)
    (fun k => (run step (Window.unusedSlot k).kernel setUp).map fun s : Kernel =>
      decide ((s.proc 3).ukmemInited = true ∧ ¬ NoWindow (s.proc 3) ∧
        (s.proc 3).toKernel 16768 ≠ 0 ∧
        ((s.proc 3).toKernel 16768).toNat = (s.ukmem 3).slot 0 ∧
        ((s.ukmem 3).desc ((s.ukmem 3).slot 0)).isUsed = true))
    (some true) (by decide +kernel)
  obtain ⟨s, reached, values⟩ := Option.map_eq_some_iff.mp observed
  obtain ⟨inited, window, nonnull, isSlot, isUsed⟩ := of_decide_eq_true values
  have used : (s.ukmem 3).Used ((s.proc 3).toKernel 16768).toNat :=
    ⟨0, by decide, isSlot, isSlot ▸ isUsed⟩
  have allowed : Allowed s 3 (.cacheAlloc 16768) := by
    refine ⟨?_, trivial, ?_, trivial⟩
    · rintro c ⟨_, _, _, isDescriptor⟩
      rw [isDescriptor]
      exact used
    · rintro ⟨_, _, noWindow | null⟩
      · exact window noWindow
      · exact nonnull null
  have given : Space 0x80030000 32720 := ⟨by decide, by decide⟩
  obtain ⟨s', value, done, isolated⟩ :=
    isolated_of_guarded given rfl rfl booted setUp (guarded_setUp k) reached inited
      (.cacheAlloc 16768) allowed
  exact ⟨k, s, s', value, booted, reached, guarded_setUp k, allowed, done, isolated⟩

/-- Process 3 sets up an arena and passes a handle that stands for the first descriptor of the
kernel's own pool. It gets an object, and that descriptor now heads a list of slabs in the arena. -/
theorem foreign_descriptor : ∃ k s s' value, Kmem.zeroed.kmemInit 0x80030000 32720 true = .ok k ∧
    run step (Window.unusedSlot k).kernel setUp = some s ∧
    Along step Guard (Window.unusedSlot k).kernel setUp ∧ (s.proc 3).ukmemInited = true ∧
    (Call.cacheAlloc 18446744073672850816).exec s 3 = .ok (s', value) ∧ value = 78096 ∧
    Passes s 3 (.cacheAlloc 18446744073672850816) k.cachePool ∧
    k.cachePool ∉ (s.proc 3).arenaBytes ∧
    (s.kmem.desc k.cachePool).partialSlabs = 0 ∧ (s'.kmem.desc k.cachePool).partialSlabs =
    2184982528 ∧ ¬ Isolated s s' 3 (.cacheAlloc 18446744073672850816) value := by
  obtain ⟨⟨k, s, s', value⟩, done, observed⟩ := exists_ok (do
      let k ← Kmem.zeroed.kmemInit 0x80030000 32720 true
      let s ← ((run step (Window.unusedSlot k).kernel setUp).elim (.error .hang) .ok :
        Except Fault Kernel)
      let (s', value) ← (Call.cacheAlloc 18446744073672850816).exec s 3
      return (k, s, s', value))
    (fun (k, s, s', value) => decide ((s.proc 3).ukmemInited = true ∧ value = 78096 ∧
      ¬ NoWindow (s.proc 3) ∧
      (s.proc 3).toKernel 18446744073672850816 ≠ 0 ∧
      k.cachePool = ((s.proc 3).toKernel 18446744073672850816).toNat ∧
      k.cachePool < (s.proc 3).kheapwinBase.toNat ∧ (s.kmem.desc k.cachePool).partialSlabs = 0 ∧
      (s'.kmem.desc k.cachePool).partialSlabs = 2184982528))
    true (by decide +kernel)
  obtain ⟨inited, isValue, window, nonnull, isPool, below, before, after⟩ :=
    of_decide_eq_true observed
  obtain ⟨k₁, booted, done⟩ := bind_eq_ok done
  obtain ⟨s₁, ran, done⟩ := bind_eq_ok done
  obtain ⟨⟨s₂, value₂⟩, exec, done⟩ := bind_eq_ok done
  cases done
  have outside : k.cachePool ∉ (s.proc 3).arenaBytes :=
    fun inside => absurd inside.1 (Nat.not_le.mpr below)
  refine ⟨k, s, s', value, booted, some_of_elim ran, guarded_setUp k, inited, exec, isValue,
    ⟨inited, window, nonnull, isPool⟩, outside, before, after, fun isolated => ?_⟩
  have same := congrArg KmemCache.partialSlabs (isolated.descriptors _ outside)
  rw [before, after] at same
  cases same

end Kernel

end Xv6Slab
