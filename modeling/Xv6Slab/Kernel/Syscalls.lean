/-
**The allocator system calls of `kernel/sysproc.c`.**

A process has a `kmem_state` of its own on its `ukmem` page, and a window: the addresses the system
calls return lie from `uheapwin_base` on, and stand for the addresses from `kheapwin_base` on in the
arena. Every `kmem_state` works on the same memory, and descriptors are found by their address in
it.

* `Kernel` — the kernel's own `kmem_state` with all of memory, the process table, and `active_kmem`
  of the CPU.
* `Kernel.curr` — `curr_kmem`: what the allocator functions work on.
* `Call` and `Call.exec` — the eight system calls, each with any arguments.

`copyinstr` reads user memory: its result is an argument here.
-/

import Xv6Slab.Slab.Model

namespace Xv6Slab

open Bytes

/-- `MAX_TEST_PAGES`. -/
abbrev maxTestPages : Int := 1024

/-- What the allocator system calls use of `struct proc`. -/
structure Proc where
  kheapwinBase : UInt64
  kheapwinPages : Int
  uheapwinBase : UInt64
  ukmemInited : Bool
  ukmem : Kmem

namespace Proc

variable (p : Proc)

/-- The address of the window that stands for an address of the arena. -/
def toUser (k : UInt64) : UInt64 := p.uheapwinBase + (k - p.kheapwinBase)

/-- The address of the arena that an address of the window stands for. -/
def toKernel (u : UInt64) : UInt64 := p.kheapwinBase + (u - p.uheapwinBase)

/-- The bytes of the window, as an unsigned number. -/
def windowBytes : UInt64 := UInt64.ofNat (toUint64 p.kheapwinPages * 4096)

/-- The address is inside the arena, as `sys_k_kmem_cache_free` tests it. -/
def InArena (kobj : UInt64) : Prop := p.kheapwinBase ≤ kobj ∧ kobj < p.kheapwinBase + p.windowBytes

/-- The address is inside the window, as `sys_kfree` tests it. -/
def InWindow (u : UInt64) : Prop := p.uheapwinBase ≤ u ∧ u < p.uheapwinBase + p.windowBytes

/-- The window fields that `sys_kmem_init` writes first. -/
def request (space : UInt64) (pages : Int) : Proc :=
  { p with uheapwinBase := space, kheapwinPages := pages }

/-- The arena that `sys_kmem_init` found. -/
def back (arena : UInt64) : Proc := { p with kheapwinBase := arena }

/-- The flag of a successful `sys_kmem_init`. -/
def start : Proc := { p with ukmemInited := true }

@[simp] theorem toKernel_toUser (k : UInt64) : p.toKernel (p.toUser k) = k := by
  unfold toKernel toUser
  grind

@[simp] theorem toUser_toKernel (u : UInt64) : p.toUser (p.toKernel u) = u := by
  unfold toKernel toUser
  grind

end Proc

/-- The kernel, as a system call on one CPU sees it. A null `active_kmem` is `none`, otherwise it
points to the `ukmem` page of a process. -/
structure Kernel where
  kmem : Kmem
  proc : Nat → Proc
  active : Option Nat

namespace Kernel

variable (s : Kernel)

/-- A change to one `struct proc`. -/
def modifyProc (p : Nat) (change : Proc → Proc) : Kernel :=
  { s with proc := Function.update s.proc p (change (s.proc p)) }

/-- The allocator of a process: the `kmem_state` on its page, with the memory of the machine. -/
def ukmem (p : Nat) : Kmem := { (s.proc p).ukmem with mem := s.kmem.mem, desc := s.kmem.desc }

/-- The allocator of a process after an operation on it. -/
def setUkmem (p : Nat) (k : Kmem) : Kernel :=
  { s.modifyProc p (fun q => { q with ukmem := k }) with
    kmem := { s.kmem with mem := k.mem, desc := k.desc } }

/-- `curr_kmem`. -/
def curr : Kmem :=
  match s.active with
  | none => s.kmem
  | some p => s.ukmem p

/-- The selected allocator after an operation on it. -/
def setCurr (k : Kmem) : Kernel :=
  match s.active with
  | none => { s with kmem := k }
  | some p => s.setUkmem p k

/-- `kmem_push` of the `ukmem` page of a process. -/
def kmemPush (p : Nat) : Kernel × Option Nat := ({ s with active := some p }, s.active)

/-- `kmem_pop`. -/
def kmemPop (old : Option Nat) : Kernel := { s with active := old }

end Kernel

/-! ### What the calls use of the allocator besides `slab.c`'s own operations -/

namespace Kmem

/-- `get_num_slabs`. A list with more slabs than there are addresses never ends. -/
def getNumSlabs (k : Kmem) : Nat → Nat → Except Fault Nat
  | 0, _ => .error .hang
  | fuel + 1, s => if s = 0 then .ok 0 else do return (← k.getNumSlabs fuel (slabNext k.mem s)) + 1

/-- The loop of `get_objects_in_use` over the partial list. -/
def getPartialInUse (k : Kmem) : Nat → Nat → Except Fault Nat
  | 0, _ => .error .hang
  | fuel + 1, s =>
    if s = 0 then .ok 0 else do
      return (← k.getPartialInUse fuel (slabNext k.mem s)) + slabInuse k.mem s

/-- `kmem_cache_info`: the numbers of empty, partial and full slabs and of objects in use, which it
prints. -/
def kmemCacheInfo (k : Kmem) (c : Nat) : Except Fault (Nat × Nat × Nat × Nat) := do
  let empty ← k.getNumSlabs (2 ^ 64 + 1) (k.desc c).emptySlabs
  let partials ← k.getNumSlabs (2 ^ 64 + 1) (k.desc c).partialSlabs
  let full ← k.getNumSlabs (2 ^ 64 + 1) (k.desc c).fullSlabs
  let inUse ← k.getPartialInUse (2 ^ 64 + 1) (k.desc c).partialSlabs
  return (empty, partials, full, full * (k.desc c).objsPerSlab + inUse)

/-- `kalloc`, on a whole allocator. -/
def kalloc (k : Kmem) : Except Fault (Kmem × Nat) := k.buddyAlloc 1

end Kmem

/-- `kname`: what `copyinstr` copies, without the terminating zero. -/
abbrev Name := {name : List UInt8 // name.length < 64}

/-- The page of a name: `memset` to zero, then `safestrcpy`. -/
def writeName (mem : Mem) (page : Nat) (name : Name) : Mem := fun a =>
  if page ≤ a ∧ a < page + 4096 then name.1.getD (a - page) 0 else mem a

/-! ### The system calls -/

/-- A failed call that returns an `int`. -/
abbrev minusOne : UInt64 := -1

namespace Kernel

variable (s : Kernel) (p : Nat)

/-- `sys_kmem_init`. The window fields are written before the allocation that can fail. -/
def sysKmemInit (space : UInt64) (pages : Int32) : Except Fault (Kernel × UInt64) :=
  if pages.toInt ≤ 0 ∨ maxTestPages < pages.toInt then .ok (s, minusOne)
  else if (s.proc p).ukmemInited then .ok (s, minusOne)
  else do
    let s := s.modifyProc p fun q => q.request space pages.toInt
    let (k, arena) ← s.curr.buddyAlloc pages.toInt.toNat
    let s := s.setCurr k
    if arena = 0 then return (s, minusOne)
    let s := s.modifyProc p fun q => q.back (UInt64.ofNat arena)
    let (s, old) := s.kmemPush p
    let k ← s.curr.kmemInit arena pages.toInt false
    let s := (s.setCurr k).kmemPop old
    return (s.modifyProc p Proc.start, 0)

/-- `sys_k_kmem_cache_create` up to its `kmem_pop`: what `kmem_cache_create` returned. Two returns
before that leave out `kmem_pop`. -/
def createCache (uname : Option Name) (size : Int32) : Except Fault (Kernel × Option Nat) :=
  if size.toInt ≤ 0 then .ok (s, none)
  else if !(s.proc p).ukmemInited then .ok (s, none)
  else
    let (s, old) := s.kmemPush p
    match uname with
    | none => .ok (s, none)
    | some kname => do
      let (k, namecopy) ← s.curr.kalloc
      let s := s.setCurr k
      if namecopy = 0 then return (s, none)
      let s := s.setCurr (s.curr.setMem (writeName s.curr.mem namecopy kname))
      let (k, c) ← s.curr.kmemCacheCreate size.toInt.toNat none
      return ((s.setCurr k).kmemPop old, some c)

/-- `sys_k_kmem_cache_create`: a null descriptor is translated as well. -/
def sysKmemCacheCreate (uname : Option Name) (size : Int32) : Except Fault (Kernel × UInt64) := do
  let (s, c) ← s.createCache p uname size
  match c with
  | none => return (s, 0)
  | some c => return (s, (s.proc p).toUser (UInt64.ofNat c))

/-- There is no window: the test that `sys_k_kmem_cache_alloc` and `sys_kmalloc` make. -/
def NoWindow (q : Proc) : Prop := q.kheapwinBase = 0 ∨ q.uheapwinBase = 0 ∨ q.kheapwinPages ≤ 0

instance (q : Proc) : Decidable (NoWindow q) :=
  inferInstanceAs (Decidable (q.kheapwinBase = 0 ∨ q.uheapwinBase = 0 ∨ q.kheapwinPages ≤ 0))

/-- `sys_k_kmem_cache_alloc` up to its `kmem_pop`: an object or null. Two returns before that leave
out `kmem_pop`. -/
def allocObject (hc : UInt64) : Except Fault (Kernel × Nat) :=
  if !(s.proc p).ukmemInited then .ok (s, 0)
  else
    let (s, old) := s.kmemPush p
    if NoWindow (s.proc p) then .ok (s, 0)
    else
      let c := (s.proc p).toKernel hc
      if c = 0 then .ok (s, 0)
      else do
        let (k, kobj) ← s.curr.kmemCacheAlloc c.toNat
        return ((s.setCurr k).kmemPop old, kobj)

/-- `sys_k_kmem_cache_alloc`. -/
def sysKmemCacheAlloc (hc : UInt64) : Except Fault (Kernel × UInt64) := do
  let (s, kobj) ← s.allocObject p hc
  return (s, if kobj = 0 then 0 else (s.proc p).toUser (UInt64.ofNat kobj))

/-- `sys_k_kmem_cache_free`. -/
def sysKmemCacheFree (hc uobj : UInt64) : Except Fault (Kernel × UInt64) :=
  if !(s.proc p).ukmemInited then .ok (s, 0)
  else
    let (s, old) := s.kmemPush p
    if hc = 0 ∨ uobj = 0 then .ok (s.kmemPop old, minusOne)
    else
      let kobj := (s.proc p).toKernel uobj
      let c := (s.proc p).toKernel hc
      let lo := (s.proc p).kheapwinBase
      let hi := (s.proc p).kheapwinBase + (s.proc p).windowBytes
      if kobj < lo ∨ hi ≤ kobj then .ok (s.kmemPop old, minusOne)
      else do
        let k ← s.curr.kmemCacheFree c.toNat kobj.toNat
        return ((s.setCurr k).kmemPop old, 0)

/-- `sys_k_kmem_cache_destroy`. -/
def sysKmemCacheDestroy (hc : UInt64) : Except Fault (Kernel × UInt64) :=
  if !(s.proc p).ukmemInited then .ok (s, 0)
  else
    let (s, old) := s.kmemPush p
    let c := (s.proc p).toKernel hc
    if c = 0 then .ok (s.kmemPop old, minusOne)
    else do
      let k ← s.curr.kmemCacheDestroy c.toNat
      return ((s.setCurr k).kmemPop old, 0)

/-- `sys_kmem_cache_info`. -/
def sysKmemCacheInfo (hc : UInt64) : Except Fault (Kernel × UInt64) :=
  if !(s.proc p).ukmemInited then .ok (s, 0)
  else
    let (s, old) := s.kmemPush p
    let c := (s.proc p).toKernel hc
    if c = 0 then .ok (s.kmemPop old, minusOne)
    else do
      let _ ← s.curr.kmemCacheInfo c.toNat
      return (s.kmemPop old, 0)

/-- `sys_kmalloc` up to its `kmem_pop`: an object or null. -/
def kmallocObject (n : Int32) : Except Fault (Kernel × Nat) :=
  if n.toInt ≤ 0 then .ok (s, 0)
  else if !(s.proc p).ukmemInited then .ok (s, 0)
  else if NoWindow (s.proc p) then .ok (s, 0)
  else do
    let (s, old) := s.kmemPush p
    let (k, kobj) ← s.curr.kmalloc n.toInt.toNat
    return ((s.setCurr k).kmemPop old, kobj)

/-- `sys_kmalloc`. -/
def sysKmalloc (n : Int32) : Except Fault (Kernel × UInt64) := do
  let (s, kobj) ← s.kmallocObject p n
  return (s, if kobj = 0 then 0 else (s.proc p).toUser (UInt64.ofNat kobj))

/-- `sys_kfree`, which does not look at `ukmem_inited`. -/
def sysKfree (u : UInt64) : Except Fault (Kernel × UInt64) :=
  if u = 0 then .ok (s, minusOne)
  else
    let (s, old) := s.kmemPush p
    let lo := (s.proc p).uheapwinBase
    let hi := (s.proc p).uheapwinBase + (s.proc p).windowBytes
    if u < lo ∨ hi ≤ u then .ok (s.kmemPop old, minusOne)
    else do
      let k ← s.curr.kFree ((s.proc p).toKernel u).toNat
      return ((s.setCurr k).kmemPop old, 0)

end Kernel

/-- An allocator system call with its arguments. -/
inductive Call
  | kmemInit (space : UInt64) (pages : Int32)
  | cacheCreate (uname : Option Name) (size : Int32)
  | cacheAlloc (hc : UInt64)
  | cacheFree (hc uobj : UInt64)
  | cacheDestroy (hc : UInt64)
  | cacheInfo (hc : UInt64)
  | kmalloc (n : Int32)
  | kfree (u : UInt64)
  deriving DecidableEq

namespace Call

/-- A call made by a process. -/
def exec (s : Kernel) (p : Nat) : Call → Except Fault (Kernel × UInt64)
  | kmemInit space pages => s.sysKmemInit p space pages
  | cacheCreate uname size => s.sysKmemCacheCreate p uname size
  | cacheAlloc hc => s.sysKmemCacheAlloc p hc
  | cacheFree hc uobj => s.sysKmemCacheFree p hc uobj
  | cacheDestroy hc => s.sysKmemCacheDestroy p hc
  | cacheInfo hc => s.sysKmemCacheInfo p hc
  | kmalloc n => s.sysKmalloc p n
  | kfree u => s.sysKfree p u

/-- What a failed call returns: a null pointer, or `-1` from the calls whose result is an `int`. -/
def failure : Call → UInt64
  | cacheCreate .. | cacheAlloc _ | kmalloc _ => 0
  | kmemInit .. | cacheFree .. | cacheDestroy _ | cacheInfo _ | kfree _ => minusOne

/-- The arena, descriptor or object that a call obtains from the allocator, `0` for none. -/
def object (s : Kernel) (p : Nat) : Call → Except Fault Nat
  | kmemInit _ pages => (s.curr.buddyAlloc pages.toInt.toNat).map Prod.snd
  | cacheCreate uname size => (s.createCache p uname size).map fun r => r.2.getD 0
  | cacheAlloc hc => (s.allocObject p hc).map Prod.snd
  | kmalloc n => (s.kmallocObject p n).map Prod.snd
  | cacheFree .. | cacheDestroy _ | cacheInfo _ | kfree _ => .ok 0

end Call

/-! ### What a call does -/

namespace Kernel

variable {s s' : Kernel} {p q : Nat}

@[simp] theorem modifyProc_self (change : Proc → Proc) :
    (s.modifyProc p change).proc p = change (s.proc p) :=
  Function.update_self ..

theorem modifyProc_of_ne (change : Proc → Proc) (ne : q ≠ p) :
    (s.modifyProc p change).proc q = s.proc q :=
  Function.update_of_ne ne ..

theorem setUkmem_of_ne (k : Kmem) (ne : q ≠ p) : (s.setUkmem p k).proc q = s.proc q :=
  Function.update_of_ne ne ..

@[simp] theorem ukmem_setUkmem (k : Kmem) : (s.setUkmem p k).ukmem p = k := by
  simp only [ukmem, setUkmem, modifyProc_self]

@[simp] theorem setUkmem_setUkmem (k k' : Kmem) :
    (s.setUkmem p k).setUkmem p k' = s.setUkmem p k' := by
  simp only [setUkmem, modifyProc, Function.update_self, Function.update_idem]

@[simp] theorem ukmem_kmemPush : (s.kmemPush p).1.ukmem q = s.ukmem q := rfl

@[simp] theorem ukmem_kmemPop (old : Option Nat) : (s.kmemPop old).ukmem q = s.ukmem q := rfl

@[simp] theorem active_setUkmem (k : Kmem) : (s.setUkmem p k).active = s.active := rfl

theorem curr_of_none (global : s.active = none) : s.curr = s.kmem := by
  unfold curr
  rw [global]

theorem setCurr_of_none (global : s.active = none) (k : Kmem) :
    s.setCurr k = { s with kmem := k } := by
  unfold setCurr
  rw [global]

@[simp] theorem curr_setCurr (k : Kmem) : (s.setCurr k).curr = k := by
  cases select : s.active with
  | none => simp only [setCurr, select, curr]
  | some r =>
    simp only [setCurr, select, curr, active_setUkmem]
    exact ukmem_setUkmem k

@[simp] theorem setCurr_setCurr (k k' : Kmem) : (s.setCurr k).setCurr k' = s.setCurr k' := by
  cases select : s.active with
  | none => simp only [setCurr, select]
  | some r =>
    simp only [setCurr, select, active_setUkmem]
    exact setUkmem_setUkmem k k'

/-- **`sys_k_kmem_cache_create`**: it returns early, or runs out of memory for the name, or creates
a cache. -/
theorem createCache_cases {uname : Option Name} {size : Int32} {c : Option Nat}
    (call : s.createCache p uname size = .ok (s', c)) :
    (s' = s ∨ s' = (s.kmemPush p).1) ∧ c = none ∧
      ¬ ((s.proc p).ukmemInited = true ∧ 0 < size.toInt ∧ uname ≠ none) ∨
    (s.proc p).ukmemInited = true ∧ 0 < size.toInt ∧ ∃ kname k page, uname = some kname ∧
      (s.ukmem p).kalloc = .ok (k, page) ∧
      (page = 0 ∧ c = none ∧ s' = (s.kmemPush p).1.setUkmem p k ∨
        ∃ k' d, page ≠ 0 ∧
          (k.setMem (writeName k.mem page kname)).kmemCacheCreate size.toInt.toNat none =
          .ok (k', d) ∧ c = some d ∧ s' = s.setUkmem p k') := by
  unfold createCache at call
  split at call
  next small =>
    cases call
    exact .inl ⟨.inl rfl, rfl, fun ⟨_, large, _⟩ => absurd small (by omega)⟩
  next large =>
  split at call
  next without =>
    cases call
    refine .inl ⟨.inl rfl, rfl, fun ⟨inited, _⟩ => ?_⟩
    rw [inited] at without
    cases without
  next inited =>
  cases uname with
  | none =>
    cases call
    exact .inl ⟨.inr rfl, rfl, fun ⟨_, _, named⟩ => named rfl⟩
  | some kname =>
    refine .inr ⟨by simpa using inited, by omega, kname, ?_⟩
    obtain ⟨⟨k, page⟩, kalloc, call⟩ := bind_eq_ok call
    refine ⟨k, page, rfl, kalloc, ?_⟩
    dsimp only at call
    split at call
    next null =>
      cases call
      exact .inl ⟨null, rfl, rfl⟩
    next nonnull =>
      obtain ⟨⟨k', d⟩, create, call⟩ := bind_eq_ok call
      cases call
      refine .inr ⟨k', d, nonnull, ?_, rfl, ?_⟩
      · simpa only [curr_setCurr] using create
      · simp only [setCurr_setCurr]
        rfl

/-- **`sys_k_kmem_cache_alloc`**: it returns early, or takes an object. -/
theorem allocObject_cases {hc : UInt64} {kobj : Nat} (call : s.allocObject p hc = .ok (s', kobj)) :
    (s' = s ∨ s' = (s.kmemPush p).1) ∧ kobj = 0 ∨
    (s.proc p).ukmemInited = true ∧ ∃ k,
      (s.ukmem p).kmemCacheAlloc ((s.proc p).toKernel hc).toNat = .ok (k, kobj) ∧
      s' = s.setUkmem p k := by
  unfold allocObject at call
  split at call
  · cases call
    exact .inl ⟨.inl rfl, rfl⟩
  next inited =>
  dsimp only at call
  split at call
  · cases call
    exact .inl ⟨.inr rfl, rfl⟩
  split at call
  · cases call
    exact .inl ⟨.inr rfl, rfl⟩
  obtain ⟨⟨k, obj⟩, alloc, call⟩ := bind_eq_ok call
  cases call
  exact .inr ⟨by simpa using inited, k, alloc, rfl⟩

/-- `sys_kmalloc`: it returns early, or takes an object. -/
theorem kmallocObject_cases {n : Int32} {kobj : Nat} (call : s.kmallocObject p n = .ok (s', kobj)) :
    s' = s ∧ kobj = 0 ∨
    (s.proc p).ukmemInited = true ∧ ∃ k, (s.ukmem p).kmalloc n.toInt.toNat = .ok (k, kobj) ∧
    s' = s.setUkmem p k := by
  unfold kmallocObject at call
  split at call
  · cases call
    exact .inl ⟨rfl, rfl⟩
  split at call
  · cases call
    exact .inl ⟨rfl, rfl⟩
  next inited =>
  split at call
  · cases call
    exact .inl ⟨rfl, rfl⟩
  obtain ⟨⟨k, obj⟩, alloc, call⟩ := bind_eq_ok call
  cases call
  exact .inr ⟨by simpa using inited, k, alloc, rfl⟩

/-- `sys_k_kmem_cache_free`: it returns early, or frees an object of the arena. -/
theorem sysKmemCacheFree_cases {hc uobj value : UInt64}
    (done : s.sysKmemCacheFree p hc uobj = .ok (s', value)) :
    s' = s ∧ ((s.proc p).ukmemInited = false ∨ hc = 0 ∨ uobj = 0 ∨
      ¬ (s.proc p).InArena ((s.proc p).toKernel uobj)) ∨
    (s.proc p).ukmemInited = true ∧ (s.proc p).InArena ((s.proc p).toKernel uobj) ∧ value = 0 ∧ ∃ k,
      (s.ukmem p).kmemCacheFree ((s.proc p).toKernel hc).toNat ((s.proc p).toKernel uobj).toNat =
        .ok k ∧ s' = s.setUkmem p k := by
  unfold sysKmemCacheFree at done
  split at done
  next without =>
    cases done
    exact .inl ⟨rfl, .inl (by simpa using without)⟩
  next inited =>
  dsimp only at done
  split at done
  next null =>
    cases done
    exact .inl ⟨rfl, .inr (or_assoc.mp (.inl null))⟩
  split at done
  next outside =>
    cases done
    refine .inl ⟨rfl, .inr (.inr (.inr fun ⟨low, high⟩ => ?_))⟩
    rcases outside with below | above
    · exact UInt64.not_lt.mpr low below
    · exact UInt64.not_le.mpr high above
  next inside =>
  obtain ⟨k, free, done⟩ := bind_eq_ok done
  cases done
  rw [not_or, UInt64.not_lt, UInt64.not_le] at inside
  exact .inr ⟨by simpa using inited, inside, rfl, k, free, rfl⟩

/-- `sys_k_kmem_cache_destroy`: it returns early, or calls `kmem_cache_destroy`. -/
theorem sysKmemCacheDestroy_cases {hc value : UInt64}
    (done : s.sysKmemCacheDestroy p hc = .ok (s', value)) :
    s' = s ∧ ((s.proc p).ukmemInited = false ∨ (s.proc p).toKernel hc = 0) ∨
    (s.proc p).ukmemInited = true ∧ value = 0 ∧ ∃ k,
      (s.ukmem p).kmemCacheDestroy ((s.proc p).toKernel hc).toNat = .ok k ∧
      s' = s.setUkmem p k := by
  unfold sysKmemCacheDestroy at done
  split at done
  next without =>
    cases done
    exact .inl ⟨rfl, .inl (by simpa using without)⟩
  next inited =>
  dsimp only at done
  split at done
  next null =>
    cases done
    exact .inl ⟨rfl, .inr null⟩
  obtain ⟨k, destroy, done⟩ := bind_eq_ok done
  cases done
  exact .inr ⟨by simpa using inited, rfl, k, destroy, rfl⟩

/-- `sys_kmem_cache_info` changes nothing. -/
theorem sysKmemCacheInfo_eq {hc value : UInt64} (done : s.sysKmemCacheInfo p hc = .ok (s', value)) :
    s' = s := by
  unfold sysKmemCacheInfo at done
  split at done
  · cases done
    rfl
  dsimp only at done
  split at done
  · cases done
    rfl
  obtain ⟨_, _, done⟩ := bind_eq_ok done
  cases done
  rfl

/-- `sys_kfree`: it returns early, or frees an address of the window. -/
theorem sysKfree_cases {u value : UInt64} (done : s.sysKfree p u = .ok (s', value)) :
    s' = s ∨
    (s.proc p).InWindow u ∧ value = 0 ∧
      ∃ k, (s.ukmem p).kFree ((s.proc p).toKernel u).toNat = .ok k ∧ s' = s.setUkmem p k := by
  unfold sysKfree at done
  split at done
  · cases done
    exact .inl rfl
  dsimp only at done
  split at done
  · cases done
    exact .inl rfl
  next inside =>
  obtain ⟨k, free, done⟩ := bind_eq_ok done
  cases done
  rw [not_or, UInt64.not_lt, UInt64.not_le] at inside
  exact .inr ⟨inside, rfl, k, free, rfl⟩

/-- **A call other than `sys_kmem_init` works on the allocator of its process**, and may leave it
selected. -/
theorem exec_cases {call : Call} {value : UInt64}
    (notInit : ∀ space pages, call ≠ .kmemInit space pages)
    (done : call.exec s p = .ok (s', value)) :
    ∃ old, s' = s.kmemPop old ∨ ∃ k, s' = (s.setUkmem p k).kmemPop old := by
  cases call with
  | kmemInit space pages => exact absurd rfl (notInit space pages)
  | cacheCreate uname size =>
    obtain ⟨⟨t, c⟩, create, done⟩ := bind_eq_ok done
    have same : s' = t := by cases c <;> cases done <;> rfl
    subst same
    rcases createCache_cases create with
      ⟨rfl | rfl, _⟩ | ⟨_, _, _, k, _, _, _, ⟨_, _, rfl⟩ | ⟨k', _, _, _, _, rfl⟩⟩
    · exact ⟨_, .inl rfl⟩
    · exact ⟨_, .inl rfl⟩
    · exact ⟨_, .inr ⟨k, rfl⟩⟩
    · exact ⟨_, .inr ⟨k', rfl⟩⟩
  | cacheAlloc hc =>
    obtain ⟨⟨t, kobj⟩, alloc, done⟩ := bind_eq_ok done
    cases done
    rcases allocObject_cases alloc with ⟨rfl | rfl, _⟩ | ⟨_, k, _, rfl⟩
    · exact ⟨_, .inl rfl⟩
    · exact ⟨_, .inl rfl⟩
    · exact ⟨_, .inr ⟨k, rfl⟩⟩
  | cacheFree hc uobj =>
    rcases sysKmemCacheFree_cases done with ⟨rfl, _⟩ | ⟨_, _, _, k, _, rfl⟩
    · exact ⟨_, .inl rfl⟩
    · exact ⟨_, .inr ⟨k, rfl⟩⟩
  | cacheDestroy hc =>
    rcases sysKmemCacheDestroy_cases done with ⟨rfl, _⟩ | ⟨_, _, k, _, rfl⟩
    · exact ⟨_, .inl rfl⟩
    · exact ⟨_, .inr ⟨k, rfl⟩⟩
  | cacheInfo hc =>
    rw [sysKmemCacheInfo_eq done]
    exact ⟨_, .inl rfl⟩
  | kmalloc n =>
    obtain ⟨⟨t, kobj⟩, alloc, done⟩ := bind_eq_ok done
    cases done
    rcases kmallocObject_cases alloc with ⟨rfl, _⟩ | ⟨_, k, _, rfl⟩
    · exact ⟨_, .inl rfl⟩
    · exact ⟨_, .inr ⟨k, rfl⟩⟩
  | kfree u =>
    rcases sysKfree_cases done with rfl | ⟨_, _, k, _, rfl⟩
    · exact ⟨_, .inl rfl⟩
    · exact ⟨_, .inr ⟨k, rfl⟩⟩

end Kernel

/-! ### The window during a call -/

/-- The fields of the window, and whether there is an arena. -/
def Proc.window (q : Proc) : UInt64 × Int × UInt64 × Bool :=
  (q.kheapwinBase, q.kheapwinPages, q.uheapwinBase, q.ukmemInited)

theorem Proc.window_request (q : Proc) (space : UInt64) (pages : Int) :
    (q.request space pages).window = (q.kheapwinBase, pages, space, q.ukmemInited) := rfl

theorem Proc.window_back (q : Proc) (arena : UInt64) :
    (q.back arena).window = (arena, q.window.2) := rfl

theorem Proc.window_start (q : Proc) :
    q.start.window = (q.window.1, q.window.2.1, q.window.2.2.1, true) := rfl

namespace Kernel

variable {s s' : Kernel} {p q : Nat}

/-- The selected allocator does not depend on the window fields. -/
theorem curr_modifyProc (change : Proc → Proc) (same : ∀ r : Proc, (change r).ukmem = r.ukmem) :
    (s.modifyProc p change).curr = s.curr := by
  unfold curr
  cases select : s.active with
  | none => simp only [modifyProc, select]
  | some r =>
    simp only [modifyProc, select, ukmem]
    by_cases here : r = p
    · rw [here, Function.update_self, same]
    · rw [Function.update_of_ne here]

@[simp] theorem window_kmemPush : ((s.kmemPush p).1.proc q).window = (s.proc q).window := rfl

@[simp] theorem window_kmemPop (old : Option Nat) :
    ((s.kmemPop old).proc q).window = (s.proc q).window := rfl

@[simp] theorem window_setUkmem (k : Kmem) :
    ((s.setUkmem p k).proc q).window = (s.proc q).window := by
  by_cases same : q = p
  · subst same
    simp [setUkmem, modifyProc, Proc.window]
  · simp [setUkmem, modifyProc, Function.update_of_ne same]

@[simp] theorem window_setCurr (k : Kmem) : ((s.setCurr k).proc q).window = (s.proc q).window := by
  unfold setCurr
  cases s.active with
  | none => rfl
  | some _ => exact window_setUkmem k

/-- **No call but `sys_kmem_init` changes a window.** -/
theorem exec_window {call : Call} {value : UInt64}
    (notInit : ∀ space pages, call ≠ .kmemInit space pages)
    (done : call.exec s p = .ok (s', value)) : (s'.proc q).window = (s.proc q).window := by
  obtain ⟨old, rfl | ⟨k, rfl⟩⟩ := exec_cases notInit done
  · rfl
  · exact window_setUkmem k

/-- **What `sys_kmem_init` does to the window of its process**: nothing, or it fails after the
window fields were written, or it succeeds. -/
theorem sysKmemInit_window {space value : UInt64} {pages : Int32}
    (call : s.sysKmemInit p space pages = .ok (s', value)) :
    (s'.proc p).window = (s.proc p).window ∧ value = minusOne ∨
    (s.proc p).ukmemInited = false ∧
      ((s'.proc p).window = ((s.proc p).kheapwinBase, pages.toInt, space, false) ∧
        value = minusOne ∨ ∃ arena, (s.curr.buddyAlloc pages.toInt.toNat).map Prod.snd = .ok arena ∧
          (s'.proc p).window = (UInt64.ofNat arena, pages.toInt, space, true) ∧ value = 0) := by
  unfold sysKmemInit at call
  split at call
  · cases call
    exact .inl ⟨rfl, rfl⟩
  split at call
  · cases call
    exact .inl ⟨rfl, rfl⟩
  next inited =>
  have without : (s.proc p).ukmemInited = false := by simpa using inited
  refine .inr ⟨without, ?_⟩
  obtain ⟨⟨k, arena⟩, buddy, call⟩ := bind_eq_ok call
  rw [curr_modifyProc (fun q => q.request space pages.toInt) fun _ => rfl] at buddy
  dsimp only at call
  split at call
  · cases call
    refine .inl ⟨?_, rfl⟩
    rw [window_setCurr, modifyProc_self, Proc.window_request, without]
  · obtain ⟨k', _, call⟩ := bind_eq_ok call
    cases call
    refine .inr ⟨arena, ?_, ?_, rfl⟩
    · rw [buddy]
      rfl
    · rw [modifyProc_self, Proc.window_start, window_kmemPop, window_setCurr, window_kmemPush,
        modifyProc_self, Proc.window_back, window_setCurr, modifyProc_self, Proc.window_request]

/-! ### Without an arena -/

theorem createCache_uninited (without : (s.proc p).ukmemInited = false) (uname : Option Name)
    (size : Int32) : s.createCache p uname size = .ok (s, none) := by
  simp [createCache, without]

theorem allocObject_uninited (without : (s.proc p).ukmemInited = false) (hc : UInt64) :
    s.allocObject p hc = .ok (s, 0) := by
  simp [allocObject, without]

theorem kmallocObject_uninited (without : (s.proc p).ukmemInited = false) (n : Int32) :
    s.kmallocObject p n = .ok (s, 0) := by
  simp [kmallocObject, without]

/-- Only a process with an arena obtains a descriptor or an object. -/
theorem inited_of_object {call : Call} {object : Nat} (returns : call.failure = 0)
    (obtained : call.object s p = .ok object) (nonnull : object ≠ 0) :
    (s.proc p).ukmemInited = true := by
  by_contra inited
  have without : (s.proc p).ukmemInited = false := Bool.eq_false_of_not_eq_true inited
  have null : call.object s p = .ok 0 := by
    cases call with
    | cacheCreate uname size => simp [Call.object, createCache_uninited without, Except.map]
    | cacheAlloc hc => simp [Call.object, allocObject_uninited without, Except.map]
    | kmalloc n => simp [Call.object, kmallocObject_uninited without, Except.map]
    | kmemInit space pages => cases returns
    | cacheFree hc uobj => cases returns
    | cacheDestroy hc => cases returns
    | cacheInfo hc => cases returns
    | kfree u => cases returns
  rw [null] at obtained
  cases obtained
  exact nonnull rfl

/-- The calls that return an address: it stands for the descriptor or object the call obtained. -/
theorem exec_object {call : Call} {value : UInt64} {object : Nat}
    (done : call.exec s p = .ok (s', value)) (obtained : call.object s p = .ok object)
    (nonnull : object ≠ 0) (returns : call.failure = 0) :
    (s'.proc p).toKernel value = UInt64.ofNat object := by
  cases call with
  | cacheCreate uname size =>
    obtain ⟨⟨t, c⟩, create, done⟩ := bind_eq_ok done
    simp only [Call.object, create, Except.map, Except.ok.injEq] at obtained
    cases c with
    | none => exact absurd obtained.symm nonnull
    | some c =>
      cases done
      rw [← obtained]
      exact Proc.toKernel_toUser ..
  | cacheAlloc hc =>
    obtain ⟨⟨t, kobj⟩, alloc, done⟩ := bind_eq_ok done
    simp only [Call.object, alloc, Except.map, Except.ok.injEq] at obtained
    cases done
    rw [if_neg (obtained ▸ nonnull), Proc.toKernel_toUser, obtained]
  | kmalloc n =>
    obtain ⟨⟨t, kobj⟩, alloc, done⟩ := bind_eq_ok done
    simp only [Call.object, alloc, Except.map, Except.ok.injEq] at obtained
    cases done
    rw [if_neg (obtained ▸ nonnull), Proc.toKernel_toUser, obtained]
  | kmemInit space pages => cases returns
  | cacheFree hc uobj => cases returns
  | cacheDestroy hc => cases returns
  | cacheInfo hc => cases returns
  | kfree u => cases returns

end Kernel

end Xv6Slab
