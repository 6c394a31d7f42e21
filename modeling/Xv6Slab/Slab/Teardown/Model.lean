/-
**`kmem_cache_alloc`, `kmem_cache_destroy` and `kmem_cache_create` of several threads, section by
section.**

One step of a thread is one section under a lock, or one stretch of code between two of them.
`Phase` is the place of a thread, named after what it does next, with the local variables it still
needs; `advance` is that next step, and every field of a descriptor is read when the code reads it.

* The growth path of `kmem_cache_alloc` drops the lock of the cache: `growRead` to `growAttach`, and
  `growWithdraw`, `growFree` when it finds the cache being destroyed.
* `kmem_cache_destroy` gives its slot back (`release`) before it zeroes the fields (`clear`), and
  holds the lock of the cache across both steps. `initlock` of a `kmem_cache_create` resets that
  lock.
* `made` is history: what `kmem_cache_create` computed for a descriptor it returned, and the slabs
  linked since, until the descriptor is destroyed.
-/

import Xv6Slab.Slab.Caches
import Xv6Slab.Lib.Machine

namespace Xv6Slab

open Bytes

/-- How a cache lays out its slabs. -/
structure Shape where
  objectSize : Nat
  slabOrder : Nat
  objsPerSlab : Nat
  objOffset : Nat
  deriving DecidableEq

/-- The layout that a descriptor gives to its slabs. -/
def KmemCache.shape (d : KmemCache) : Shape :=
  ⟨d.objectSize, d.slabOrder, d.objsPerSlab, d.objOffset⟩

namespace Teardown

/-- What a thread does next. -/
inductive Phase
  | idle
  /-- `kmem_cache_alloc` has dropped the lock and reads `slab_order`. -/
  | growRead (c : Nat)
  /-- `buddy_alloc`, under the buddy lock. -/
  | growBlock (c order : Nat)
  /-- No block: `error_code`, under the lock of the cache. -/
  | growFailed (c : Nat)
  /-- The header of the new slab, under no lock. -/
  | growInit (c base : Nat)
  /-- `owner_slab` of its pages, under the buddy lock. -/
  | growPublish (c base : Nat)
  /-- The constructor calls, under no lock. -/
  | growConstruct (c base : Nat) (head : Int)
  /-- The lock of the cache again: `destroying`, and the lists. -/
  | growAttach (c base : Nat) (head : Int)
  /-- The cache is being destroyed: `owner_slab` of the pages, under the buddy lock. -/
  | growWithdraw (c base : Nat) (head : Int)
  /-- `buddy_free` of the new slab. -/
  | growFree (base : Nat)
  /-- `kmem_cache_destroy` takes the lock and sets `destroying`. -/
  | mark (c : Nat)
  /-- `kmem_cache_shrink` takes the lock and pops an empty slab. -/
  | shrink (c : Nat)
  /-- `owner_slab` of its pages, under the buddy lock. -/
  | shrinkClear (c slab : Nat)
  /-- `buddy_free` of the slab. -/
  | shrinkFree (c slab : Nat)
  /-- `remove_from_cache_list`, under its lock. -/
  | unlink (c : Nat)
  /-- The lock of the cache and the lock of the pool: `is_used = 0`. -/
  | release (c : Nat)
  /-- The other fields, still under the lock of the cache. -/
  | clear (c : Nat)
  /-- `kmem_cache_create` has claimed a slot and fills it in, under no lock. -/
  | createInit (c size : Nat) (ctor : Option (Mem → Nat → Mem))
  /-- No order is large enough: `is_used = 0`, under the lock of the pool. -/
  | createRefuse (c : Nat)
  /-- `add_to_cache_list`, under its lock. -/
  | createLink (c : Nat) (shape : Shape)

/-- What is known of a descriptor that `kmem_cache_create` has returned. -/
structure Made where
  shape : Shape
  slabs : List Nat

/-- The allocator and the threads in it. -/
structure State (n : Nat) where
  kmem : Kmem
  /-- The thread that keeps the lock of a descriptor from one step to the next. -/
  holder : Nat → Option (Fin n)
  phase : Fin n → Phase
  made : Nat → Option Made
  panicked : Bool

/-- A thread calls, or takes its next step. -/
inductive Event (n : Nat)
  | alloc (t : Fin n) (c : Nat)
  | destroy (t : Fin n) (c : Nat)
  | create (t : Fin n) (size : Nat) (ctor : Option (Mem → Nat → Mem))
  | next (t : Fin n)

/-! ### The sections -/

/-- The first section of `kmem_cache_alloc`: an object of a slab at hand, or the way to a new
slab. -/
def allocFirst (k : Kmem) (c : Nat) : Kmem × Phase :=
  if (k.desc c).destroying then (k, .idle)
  else if (k.desc c).partialSlabs ≠ 0 then ((k.takeObject c (k.desc c).partialSlabs).1, .idle)
  else if (k.desc c).emptySlabs ≠ 0 then
    let (k, s) := k.slabListPopFront c .empty
    (((k.slabListPushFront c .partials s).takeObject c s).1, .idle)
  else (k, .growRead c)

/-- The first stretch of `kmem_cache_destroy`: a cache of `kmalloc` is refused. -/
def destroyFirst (k : Kmem) (c : Nat) : Kmem × Phase :=
  if (List.range kmallocNumCaches).any fun i => k.kmallocCaches i == c then
    (k.modifyDesc c fun d => { d with errorCode := .destroyKmallocCache }, .idle)
  else (k, .mark c)

/-- The first section of `kmem_cache_create`: claim a slot. -/
def createFirst (k : Kmem) (size : Nat) (ctor : Option (Mem → Nat → Mem)) : Kmem × Phase :=
  match k.findFreeCacheSlot with
  | none => (k, .idle)
  | some index =>
    (k.modifyDesc (k.slot index) fun d => { d with isUsed := true, destroying := false },
      .createInit (k.slot index) size ctor)

/-- The next section of a thread. The lock of a null cache is no lock. -/
def advance (k : Kmem) : Phase → Except Fault (Kmem × Phase)
  | .idle => .ok (k, .idle)
  | .growRead c => .ok (k, .growBlock c (k.desc c).slabOrder)
  | .growBlock c order => do
    let (k, base) ← k.buddyAlloc (2 ^ order)
    return (k, if base = 0 then .growFailed c else .growInit c base)
  | .growFailed c => .ok (k.modifyDesc c fun d => { d with errorCode := .buddyOom }, .idle)
  | .growInit c base =>
    .ok (k.setMem (initHeader k.mem c (k.desc c).objsPerSlab base), .growPublish c base)
  | .growPublish c base => do
    let head := k.addrToIndex base
    let b ← k.toBuddy.setOwners head base (2 ^ (k.desc c).slabOrder)
    return (k.setBuddy b, .growConstruct c base head)
  | .growConstruct c base head =>
    .ok (match (k.desc c).ctor with
      | some ctor =>
        k.setMem (runCtors (k.desc c) ctor k.mem base ((k.desc c).objsPerSlab % 2 ^ 16))
      | none => k, .growAttach c base head)
  | .growAttach c base head =>
    if (k.desc c).destroying then .ok (k, .growWithdraw c base head)
    else .ok (((k.slabListPushFront c .partials base).takeObject c base).1, .idle)
  | .growWithdraw c base head => do
    let b ← k.toBuddy.setOwners head 0 (2 ^ (k.desc c).slabOrder)
    return (k.setBuddy b, .growFree base)
  | .growFree base => do
    let k ← k.buddyFree base
    return (k, .idle)
  | .mark c =>
    let k := k.modifyDesc c fun d => { d with destroying := true }
    if c = 0 then .error (.panic "kerneltrap")
    else if (k.desc c).partialSlabs ≠ 0 ∨ (k.desc c).fullSlabs ≠ 0 then
      .ok (k.modifyDesc c fun d => { d with errorCode := .destroyNotEmpty, destroying := false },
        .idle)
    else .ok (k, .shrink c)
  | .shrink c =>
    let (k, s) := k.removeFromSlabList c .empty
    .ok (k, if s = 0 then .unlink c else .shrinkClear c s)
  | .shrinkClear c s => do
    let b ← k.toBuddy.setOwners (k.addrToIndex s) 0 (2 ^ (k.desc c).slabOrder)
    return (k.setBuddy b, .shrinkFree c s)
  | .shrinkFree c s => do
    let k ← k.buddyFree s
    return (k, .shrink c)
  | .unlink c => do
    let k ← k.removeFromCacheList c
    return (k, .release c)
  | .release c => .ok (k.modifyDesc c fun d => { d with isUsed := false }, .clear c)
  | .clear c =>
    .ok (k.modifyDesc c fun d => { d with
      errorCode := .ok, objectSize := 0, objsPerSlab := 0, slabOrder := 0,
      partialSlabs := 0, fullSlabs := 0, emptySlabs := 0, ctor := none }, .idle)
  | .createInit c size ctor =>
    let obj := Kmem.objectSizeFor size
    let k := k.modifyDesc c fun d => { d with ctor := ctor, errorCode := .ok, objectSize := obj }
    if obj = 0 then .error .divByZero
    else
      match Kmem.layoutLoop obj (Kmem.minObjsFor obj) (maxSlabOrder + 1) 0 with
      | none => .ok (k.modifyDesc c fun d => { d with slabOrder := maxSlabOrder + 1 },
        .createRefuse c)
      | some (order, objs, offset) =>
        .ok (k.modifyDesc c fun d => { d with
          slabOrder := order, objsPerSlab := objs, objOffset := offset, next := 0, prev := 0,
          fullSlabs := 0, partialSlabs := 0, emptySlabs := 0 },
          .createLink c ⟨obj, order, objs, offset⟩)
  | .createRefuse c => .ok (k.modifyDesc c fun d => { d with isUsed := false }, .idle)
  | .createLink c _ => .ok (k.addToCacheList c, .idle)

/-! ### The threads -/

/-- The descriptor whose lock the next step takes. -/
def Phase.locks : Phase → Option Nat
  | .growFailed c | .growAttach c _ _ | .mark c | .shrink c | .release c => some c
  | _ => none

/-- The locks of the descriptors after a step that leads from one phase to another: `is_used = 0` is
written with the lock kept, the last section drops it, and `initlock` resets it. -/
def locksAfter {n : Nat} (t : Fin n) (holder : Nat → Option (Fin n)) : Phase → Nat → Option (Fin n)
  | .release c => Function.update holder c (some t)
  | .clear c | .createInit c _ _ => Function.update holder c none
  | _ => holder

/-- The history after a step that leads from one phase to another. -/
def madeAfter (made : Nat → Option Made) : Phase → Phase → Nat → Option Made
  | .growAttach c base _, .idle =>
    Function.update made c ((made c).map fun m => { m with slabs := base :: m.slabs })
  | .mark c, .shrink _ => Function.update made c none
  | .createLink c shape, _ => Function.update made c (some ⟨shape, []⟩)
  | _, _ => made

variable {n : Nat}

/-- A thread moves on. -/
def State.goto (s : State n) (t : Fin n) (result : Kmem × Phase) : State n :=
  { s with kmem := result.1, phase := Function.update s.phase t result.2 }

/-- The lock of a descriptor is free. -/
def State.Unlocked (s : State n) (c : Nat) : Prop := s.holder c = none

instance (s : State n) (c : Nat) : Decidable (s.Unlocked c) := inferInstanceAs (Decidable (_ = _))

/-- The next section of a thread. `release` panics when the thread does not hold the lock. -/
def State.next (s : State n) (t : Fin n) : Option (State n) :=
  if (s.phase t).locks.all fun c => decide (s.Unlocked c) then
    match advance s.kmem (s.phase t) with
    | .error _ => none
    | .ok result =>
      some { s.goto t result with
        holder := locksAfter t s.holder (s.phase t)
        made := madeAfter s.made (s.phase t) result.2
        panicked := match s.phase t with
          | .clear c => decide (s.holder c ≠ some t)
          | _ => false }
  else none

/-- A step of the threads. Only an idle thread calls, and a lock that is taken blocks. -/
def step (s : State n) (e : Event n) : Option (State n) :=
  if s.panicked then none
  else
    match e with
    | .alloc t c =>
      match s.phase t with
      | .idle =>
        if c = 0 then some s
        else if s.Unlocked c then some (s.goto t (allocFirst s.kmem c)) else none
      | _ => none
    | .destroy t c =>
      match s.phase t with
      | .idle => some (s.goto t (destroyFirst s.kmem c))
      | _ => none
    | .create t size ctor =>
      match s.phase t with
      | .idle => some (s.goto t (createFirst s.kmem size ctor))
      | _ => none
    | .next t => s.next t

/-- No operation is in flight. -/
def State.Quiescent (s : State n) : Prop := ∀ t, s.phase t = .idle

end Teardown

end Xv6Slab
