/-
**The slab allocator of `kernel/slab.c`.**

A `Kmem` is one `kmem_state` with the memory it works on. Slab headers, their index free lists and
the objects are bytes of that memory; the cache descriptors of `cache_pool` are records, found by
their address (`desc`). A record is apart from the memory: where a handle is any address, the
descriptor read there may share bytes with `block_meta` or `struct proc` in the code, but not here.
Functions are written for calls made one at a time, so the locks are left out; a constructor is a
function on memory that receives the address of its object.

* The header of a slab is `slab_t` (32 bytes) followed by `next[]`, one 16-bit index for each
  object.
* `slabListPopFront`, `slabListPushFront`, `slabListRemoveNode` work on one of the three lists of a
  cache.
* A division by the object size of a descriptor that has none is `Fault.divByZero`.

A descriptor's name and destructor are stored but never read by these functions, and are left out.
-/

import Xv6Slab.Buddy.Model

namespace Xv6Slab

open Bytes

/-- `NOFREE`. -/
abbrev nofree : Nat := 65535

/-- `MAX_NUM_CACHES`. -/
abbrev maxNumCaches : Nat := 128

/-- `KMALLOC_NUM_CACHES`. -/
abbrev kmallocNumCaches : Nat := 13

/-- `MAX_SLAB_ORDER`. -/
abbrev maxSlabOrder : Nat := 6

/-- `MIN_OBJS_PER_SLAB`. -/
abbrev minObjsPerSlab : Nat := 8

/-- `sizeof(slab_t)`. -/
abbrev slabHeaderSize : Nat := 32

/-- `sizeof(kmem_cache_t)`. -/
abbrev descSize : Nat := 128

/-- `enum Error`. -/
inductive KmemError
  | ok
  | nullCache
  | noSpaceInPool
  | badObjSize
  | buddyOom
  | invalidFreePtr
  | cacheMismatch
  | doubleFree
  | destroyNotEmpty
  | destroyKmallocCache
  | uninitializedObject
  deriving DecidableEq, Repr

/-- The three slab lists of a cache. -/
inductive SlabList
  | full
  | partials
  | empty
  deriving DecidableEq, Repr

/-- `kmem_cache_s`. -/
structure KmemCache where
  fullSlabs : Nat
  partialSlabs : Nat
  emptySlabs : Nat
  ctor : Option (Mem → Nat → Mem)
  slabOrder : Nat
  objectSize : Nat
  objsPerSlab : Nat
  objOffset : Nat
  errorCode : KmemError
  isUsed : Bool
  destroying : Bool
  next : Nat
  prev : Nat

namespace KmemCache

/-- A descriptor of zero bytes. -/
def zero : KmemCache := ⟨0, 0, 0, none, 0, 0, 0, 0, .ok, false, false, 0, 0⟩

/-- The head of one of the lists. -/
def head (d : KmemCache) : SlabList → Nat
  | .full => d.fullSlabs
  | .partials => d.partialSlabs
  | .empty => d.emptySlabs

/-- A new head for one of the lists. -/
def setHead (d : KmemCache) (list : SlabList) (slab : Nat) : KmemCache :=
  match list with
  | .full => { d with fullSlabs := slab }
  | .partials => { d with partialSlabs := slab }
  | .empty => { d with emptySlabs := slab }

end KmemCache

/-- `kmem_state`, with the memory it works on and the descriptors found there. -/
structure Kmem extends Buddy where
  freeAreaAt : Nat
  blockMetaAt : Nat
  cachePool : Nat
  headOfCacheList : Nat
  tailOfCacheList : Nat
  kmallocCaches : Nat → Nat
  desc : Nat → KmemCache

/-- `ALIGN_UP`, in 64-bit arithmetic. -/
def alignUp (addr align : Nat) : Nat :=
  if addr % align = 0 then addr else (addr + (align - addr % align)) % 2 ^ 64

/-- `page_align_down`. -/
def pageAlignDown (p : Nat) : Nat := p - p % 4096

/-! ### Slab headers -/

/-- `slab->cache`. -/
def slabCache (mem : Mem) (s : Nat) : Nat := load mem s 8

/-- `slab->first_free`. -/
def slabFirstFree (mem : Mem) (s : Nat) : Nat := load mem (s + 8) 2

/-- `slab->free_count`. -/
def slabFreeCount (mem : Mem) (s : Nat) : Nat := load mem (s + 10) 2

/-- `slab->inuse`. -/
def slabInuse (mem : Mem) (s : Nat) : Nat := load mem (s + 12) 4

/-- `slab->next`. -/
def slabNext (mem : Mem) (s : Nat) : Nat := load mem (s + 16) 8

/-- `slab->prev`. -/
def slabPrev (mem : Mem) (s : Nat) : Nat := load mem (s + 24) 8

/-- `slab_next_array(s)[idx]`. -/
def slabNextArray (mem : Mem) (s idx : Nat) : Nat := load mem (s + slabHeaderSize + 2 * idx) 2

/-- `slab_obj_ptr`. -/
def slabObjPtr (d : KmemCache) (s idx : Nat) : Nat :=
  (s + d.objOffset + idx * d.objectSize) % 2 ^ 64

/-- `slab_obj_index`: a 64-bit division, cut to 16 bits. -/
def slabObjIndex (d : KmemCache) (s obj : Nat) : Except Fault Nat :=
  if d.objectSize = 0 then .error .divByZero
  else .ok ((obj + 2 ^ 64 - (s + d.objOffset) % 2 ^ 64) % 2 ^ 64 / d.objectSize % 2 ^ 16)

/-- The loop over `next[]` when a slab is set up, its first `count` rounds. -/
def initNext (mem : Mem) (s : Nat) : Nat → Mem
  | 0 => mem
  | count + 1 => store (initNext mem s count) (s + slabHeaderSize + 2 * count) 2 (count + 1)

/-- The header that `kmem_cache_alloc` writes into a new slab. -/
def initHeader (mem : Mem) (cachep objsPerSlab s : Nat) : Mem :=
  let objs := objsPerSlab % 2 ^ 16
  let mem := store mem s 8 cachep
  let mem := store mem (s + 12) 4 0
  let mem := store mem (s + 24) 8 0
  let mem := store mem (s + 16) 8 0
  let mem := initNext mem s (objs - 1)
  let mem := store mem (s + slabHeaderSize + 2 * objs - 2) 2 nofree
  let mem := store mem (s + 8) 2 0
  store mem (s + 10) 2 objs

/-- The constructor calls for the first `count` objects of a new slab. -/
def runCtors (d : KmemCache) (ctor : Mem → Nat → Mem) (mem : Mem) (s : Nat) : Nat → Mem
  | 0 => mem
  | count + 1 => ctor (runCtors d ctor mem s count) (slabObjPtr d s count)

namespace Buddy

/-- `block_meta[head + i].owner_slab = owner` for `i` below a number of pages. -/
def setOwners (b : Buddy) (head : Int) (owner : Nat) : Nat → Except Fault Buddy
  | 0 => .ok b
  | pages + 1 => do
    let b ← b.setOwners head owner pages
    b.modifyMeta (head + pages) fun m => { m with ownerSlab := owner }

end Buddy

namespace Kmem

/-- A change to one descriptor. -/
def modifyDesc (k : Kmem) (c : Nat) (change : KmemCache → KmemCache) : Kmem :=
  { k with desc := Function.update k.desc c (change (k.desc c)) }

/-- A state with its memory exchanged. -/
def setMem (k : Kmem) (mem : Mem) : Kmem := { k with mem := mem }

/-- A state with its buddy part exchanged. -/
def setBuddy (k : Kmem) (b : Buddy) : Kmem := { k with toBuddy := b }

/-- `&cache_pool[i]`. -/
def slot (k : Kmem) (i : Nat) : Nat := k.cachePool + descSize * i

/-! ### Slab lists -/

/-- `slab_list_push_front`. -/
def slabListPushFront (k : Kmem) (c : Nat) (list : SlabList) (s : Nat) : Kmem :=
  let first := (k.desc c).head list
  let mem := store k.mem (s + 24) 8 0
  let mem := store mem (s + 16) 8 first
  let mem := if first ≠ 0 then store mem (first + 24) 8 s else mem
  (k.setMem mem).modifyDesc c fun d => d.setHead list s

/-- `slab_list_pop_front`. -/
def slabListPopFront (k : Kmem) (c : Nat) (list : SlabList) : Kmem × Nat :=
  let s := (k.desc c).head list
  if s = 0 then (k, 0)
  else
    let next := slabNext k.mem s
    let mem := if next ≠ 0 then store k.mem (next + 24) 8 0 else k.mem
    let mem := store mem (s + 24) 8 0
    let mem := store mem (s + 16) 8 0
    ((k.setMem mem).modifyDesc c fun d => d.setHead list next, s)

/-- `remove_from_slab_list`. -/
def removeFromSlabList (k : Kmem) (c : Nat) (list : SlabList) : Kmem × Nat :=
  k.slabListPopFront c list

/-- `slab_list_remove_node`. -/
def slabListRemoveNode (k : Kmem) (c : Nat) (list : SlabList) (s : Nat) : Kmem :=
  let prev := slabPrev k.mem s
  let next := slabNext k.mem s
  let k := if prev ≠ 0 then k.setMem (store k.mem (prev + 16) 8 next)
    else k.modifyDesc c fun d => d.setHead list next
  let mem := if next ≠ 0 then store k.mem (next + 24) 8 prev else k.mem
  let mem := store mem (s + 24) 8 0
  k.setMem (store mem (s + 16) 8 0)

/-! ### Objects -/

/-- `slab_alloc_obj`: the address of an object, or null. -/
def slabAllocObj (k : Kmem) (c s : Nat) : Kmem × Nat :=
  let idx := slabFirstFree k.mem s
  if idx = nofree then (k, 0)
  else
    let mem := store k.mem (s + 8) 2 (slabNextArray k.mem s idx)
    let mem := store mem (s + 10) 2 ((slabFreeCount mem s + 2 ^ 16 - 1) % 2 ^ 16)
    let mem := store mem (s + 12) 4 ((slabInuse mem s + 1) % 2 ^ 32)
    (k.setMem mem, slabObjPtr (k.desc c) s idx)

/-- `slab_free_obj`. -/
def slabFreeObj (k : Kmem) (c s obj : Nat) : Except Fault Kmem := do
  let idx ← slabObjIndex (k.desc c) s obj
  let mem := store k.mem (s + slabHeaderSize + 2 * idx) 2 (slabFirstFree k.mem s)
  let mem := store mem (s + 8) 2 idx
  let mem := store mem (s + 10) 2 ((slabFreeCount mem s + 1) % 2 ^ 16)
  let mem := store mem (s + 12) 4 ((slabInuse mem s + 2 ^ 32 - 1) % 2 ^ 32)
  return k.setMem mem

/-! ### The cache list -/

/-- `add_to_cache_list` of a descriptor. -/
def addToCacheList (k : Kmem) (c : Nat) : Kmem :=
  if k.headOfCacheList = 0 then { k with headOfCacheList := c, tailOfCacheList := c }
  else
    let k := k.modifyDesc k.headOfCacheList fun d => { d with prev := c }
    let k := k.modifyDesc c fun d => { d with next := k.headOfCacheList }
    { k with headOfCacheList := c }

/-- The search loop of `remove_from_cache_list`. A list that visits more descriptors than the pool
has never ends. -/
def findInCacheList (k : Kmem) (c : Nat) : Nat → Nat → Except Fault Nat
  | 0, _ => .error .hang
  | fuel + 1, cur =>
    if cur = 0 ∨ cur = c then .ok cur else k.findInCacheList c fuel (k.desc cur).next

/-- `remove_from_cache_list` of a descriptor. -/
def removeFromCacheList (k : Kmem) (c : Nat) : Except Fault Kmem := do
  let cur ← k.findInCacheList c (maxNumCaches + 1) k.headOfCacheList
  if cur = 0 then return k
  let prev := (k.desc cur).prev
  let next := (k.desc cur).next
  let k := if prev ≠ 0 then k.modifyDesc prev fun d => { d with next := next }
    else { k with headOfCacheList := next }
  let k := if next ≠ 0 then k.modifyDesc next fun d => { d with prev := prev }
    else { k with tailOfCacheList := prev }
  return k.modifyDesc cur fun d => { d with next := 0, prev := 0 }

/-! ### Creating a cache -/

/-- The loop of `kmem_cache_create` over slab orders: order, objects for each slab, object
offset. -/
def layoutLoop (obj minObjs : Nat) : Nat → Nat → Option (Nat × Nat × Nat)
  | 0, _ => none
  | fuel + 1, order =>
    if maxSlabOrder < order then none
    else
      let slabBytes := blockSize * 2 ^ order
      let usable0 := slabBytes - slabHeaderSize
      let n0 := usable0 / obj
      if n0 < minObjs then layoutLoop obj minObjs fuel (order + 1)
      else
        let header := alignUp (slabHeaderSize + n0 * 2) 8
        let usable := if header < slabBytes then slabBytes - header else 0
        let n := usable / obj
        if minObjs ≤ n then some (order, n, alignUp (slabHeaderSize + n * 2) 8)
        else layoutLoop obj minObjs fuel (order + 1)

/-- The object size of a request: at least a pointer, and a multiple of one. -/
def objectSizeFor (size : Nat) : Nat := alignUp (if size < 8 then 8 else size) 8

/-- `min_objs`: the least number of objects a slab must hold. -/
def minObjsFor (obj : Nat) : Nat := if 2048 < obj then 1 else minObjsPerSlab

/-- `find_free_cache_slot`. -/
def findFreeCacheSlot (k : Kmem) : Option Nat :=
  (List.range maxNumCaches).find? fun i => !(k.desc (k.slot i)).isUsed

/-- `kmem_cache_create`: the address of a descriptor, or null. -/
def kmemCacheCreate (k : Kmem) (size : Nat) (ctor : Option (Mem → Nat → Mem)) :
    Except Fault (Kmem × Nat) :=
  match k.findFreeCacheSlot with
  | none => .ok (k, 0)
  | some index =>
    let c := k.slot index
    let obj := objectSizeFor size
    let k := k.modifyDesc c fun d => { d with
      isUsed := true, destroying := false, ctor := ctor, errorCode := .ok, objectSize := obj }
    if obj = 0 then .error .divByZero
    else
      match layoutLoop obj (minObjsFor obj) (maxSlabOrder + 1) 0 with
      | none =>
        .ok (k.modifyDesc c fun d => { d with slabOrder := maxSlabOrder + 1, isUsed := false }, 0)
      | some (order, n, offset) =>
        let k := k.modifyDesc c fun d => { d with
          slabOrder := order, objsPerSlab := n, objOffset := offset, next := 0, prev := 0,
          fullSlabs := 0, partialSlabs := 0, emptySlabs := 0 }
        .ok (k.addToCacheList c, c)

/-! ### Allocating and freeing objects -/

/-- The end of both paths of `kmem_cache_alloc`: take an object of a slab on the partial list, and
move the slab to the full list when it was the last one. -/
def takeObject (k : Kmem) (c s : Nat) : Kmem × Nat :=
  let (k, obj) := k.slabAllocObj c s
  if obj = 0 then (k.modifyDesc c fun d => { d with errorCode := .uninitializedObject }, 0)
  else if slabInuse k.mem s = (k.desc c).objsPerSlab then
    let k := k.slabListRemoveNode c .partials s
    (k.slabListPushFront c .full s, obj)
  else (k, obj)

/-- The slow path of `kmem_cache_alloc`: a new slab from the buddy allocator. -/
def growCache (k : Kmem) (c : Nat) : Except Fault (Kmem × Nat) := do
  let d := k.desc c
  let (b, base) ← k.toBuddy.buddyAlloc (2 ^ d.slabOrder)
  let k := k.setBuddy b
  if base = 0 then return (k.modifyDesc c fun d => { d with errorCode := .buddyOom }, 0)
  let k := k.setMem (initHeader k.mem c d.objsPerSlab base)
  let head := k.addrToIndex base
  let b ← k.toBuddy.setOwners head base (2 ^ d.slabOrder)
  let k := k.setBuddy b
  let k := match d.ctor with
    | some ctor => k.setMem (runCtors d ctor k.mem base (d.objsPerSlab % 2 ^ 16))
    | none => k
  if (k.desc c).destroying then
    let b ← k.toBuddy.setOwners head 0 (2 ^ d.slabOrder)
    let b ← b.buddyFree base
    return (k.setBuddy b, 0)
  let k := k.slabListPushFront c .partials base
  return k.takeObject c base

/-- `kmem_cache_alloc`: the address of an object, or null. -/
def kmemCacheAlloc (k : Kmem) (c : Nat) : Except Fault (Kmem × Nat) :=
  if c = 0 then .ok (k, 0)
  else if (k.desc c).destroying then .ok (k, 0)
  else if (k.desc c).partialSlabs ≠ 0 then .ok (k.takeObject c (k.desc c).partialSlabs)
  else if (k.desc c).emptySlabs ≠ 0 then
    let (k, s) := k.slabListPopFront c .empty
    .ok ((k.slabListPushFront c .partials s).takeObject c s)
  else k.growCache c

/-- The slab that owns the page of an address, or null. -/
def ownerOf (k : Kmem) (p : Nat) : Nat :=
  let idx := k.addrToIndex (pageAlignDown p)
  if 0 ≤ idx then (k.blockMeta idx.toNat).ownerSlab else 0

/-- `kmem_cache_free`. -/
def kmemCacheFree (k : Kmem) (c objp : Nat) : Except Fault Kmem :=
  if c = 0 ∨ objp = 0 then .ok k
  else
    let s := k.ownerOf objp
    if s = 0 then .ok (k.modifyDesc c fun d => { d with errorCode := .cacheMismatch })
    else if (k.desc c).destroying then .ok k
    else if slabCache k.mem s ≠ c then
      .ok (k.modifyDesc c fun d => { d with errorCode := .cacheMismatch })
    else if slabInuse k.mem s = 0 then
      .ok (k.modifyDesc c fun d => { d with errorCode := .doubleFree })
    else do
      let wasFull := slabInuse k.mem s = (k.desc c).objsPerSlab
      let k ← k.slabFreeObj c s objp
      let k :=
        if wasFull then (k.slabListRemoveNode c .full s).slabListPushFront c .partials s else k
      let k := if slabInuse k.mem s = 0 then
          (k.slabListRemoveNode c .partials s).slabListPushFront c .empty s
        else k
      return k

/-- `kmalloc_index`. -/
def kmallocIndex (sz : Nat) : Option Nat :=
  (List.range kmallocNumCaches).find? fun j => sz ≤ 32 * 2 ^ j

/-- `kmalloc`. -/
def kmalloc (k : Kmem) (size : Nat) : Except Fault (Kmem × Nat) :=
  if size = 0 then .ok (k, 0)
  else
    match kmallocIndex (alignUp size 8) with
    | none => .ok (k, 0)
    | some idx =>
      if k.kmallocCaches idx = 0 then .ok (k, 0) else k.kmemCacheAlloc (k.kmallocCaches idx)

/-- `buddy_alloc`, on a whole allocator. -/
def buddyAlloc (k : Kmem) (sizeInPages : Nat) : Except Fault (Kmem × Nat) := do
  let (b, blk) ← k.toBuddy.buddyAlloc sizeInPages
  return (k.setBuddy b, blk)

/-- `buddy_free`, on a whole allocator. -/
def buddyFree (k : Kmem) (ptr : Nat) : Except Fault Kmem := do
  let b ← k.toBuddy.buddyFree ptr
  return k.setBuddy b

/-- `k_free`. -/
def kFree (k : Kmem) (objp : Nat) : Except Fault Kmem :=
  let page := pageAlignDown objp
  let idx := k.addrToIndex page
  if idx < 0 then .ok k
  else
    let s := (k.blockMeta idx.toNat).ownerSlab
    if s ≠ 0 then k.kmemCacheFree (slabCache k.mem s) objp
    else if page ≠ objp then .ok k
    else k.buddyFree objp

/-! ### Shrinking and destroying a cache -/

/-- The loop of `kmem_cache_shrink`. Every round gives back at least one page. -/
def shrinkLoop (c : Nat) : Nat → Kmem → Nat → Except Fault (Kmem × Nat)
  | 0, _, _ => .error .hang
  | fuel + 1, k, freed =>
    let (k, s) := k.removeFromSlabList c .empty
    if s = 0 then .ok (k, freed)
    else do
      let b ← k.toBuddy.setOwners (k.addrToIndex s) 0 (2 ^ (k.desc c).slabOrder)
      let b ← b.buddyFree s
      shrinkLoop c fuel (k.setBuddy b) (freed + 1)

/-- `kmem_cache_shrink`: the number of slabs given back. A null cache is dereferenced. -/
def kmemCacheShrink (k : Kmem) (c : Nat) : Except Fault (Kmem × Nat) :=
  if c = 0 then .error (.panic "kerneltrap")
  else shrinkLoop c (k.managedNumBlocks.toNat + 1) k 0

/-- `kmem_cache_destroy`. A null cache is dereferenced. -/
def kmemCacheDestroy (k : Kmem) (c : Nat) : Except Fault Kmem :=
  if c = 0 then .error (.panic "kerneltrap")
  else if (List.range kmallocNumCaches).any fun i => k.kmallocCaches i == c then
    .ok (k.modifyDesc c fun d => { d with errorCode := .destroyKmallocCache })
  else
    let k := k.modifyDesc c fun d => { d with destroying := true }
    if (k.desc c).partialSlabs ≠ 0 ∨ (k.desc c).fullSlabs ≠ 0 then
      .ok (k.modifyDesc c fun d => { d with errorCode := .destroyNotEmpty, destroying := false })
    else do
      let (k, _) ← k.kmemCacheShrink c
      let k ← k.removeFromCacheList c
      return k.modifyDesc c fun d => { d with
        isUsed := false, errorCode := .ok, objectSize := 0, objsPerSlab := 0, slabOrder := 0,
        partialSlabs := 0, fullSlabs := 0, emptySlabs := 0, ctor := none }

/-! ### Initialisation -/

/-- `MIN_KERNEL_HEAP_BYTES`. -/
abbrev minKernelHeapBytes : Nat := 32 * 1024 * 1024

/-- `KHEAPWIN_SIZE`. -/
abbrev kheapwinSize : Nat := 1024 * 4096

/-- The carve-out of the windows at the end of the kernel's own heap: `kheapwin_base0` and
`kheapwin_total`. -/
def carveWindows (allocLo allocHi : Nat) : Except Fault (Nat × Nat) :=
  let avail := (allocHi + 2 ^ 64 - allocLo) % 2 ^ 64
  if avail ≤ minKernelHeapBytes then .error (.panic "not enough memory for kernel heap")
  else
    let nwin := toInt32 ((avail - minKernelHeapBytes) / kheapwinSize)
    if nwin < 1 then .error (.panic "not enough space for windows")
    else
      let total := toUint64 nwin * kheapwinSize % 2 ^ 64
      let base0 := (allocHi + 2 ^ 64 - total) % 2 ^ 64
      let base0 := base0 - base0 % 4096
      if base0 ≤ allocLo then .error (.panic "window carve-out corrupted heap")
      else .ok (base0, total)

/-- The object sizes of the `kmalloc` caches, created in this order. -/
def createKmallocCaches (k : Kmem) : Nat → Except Fault Kmem
  | 0 => .ok k
  | count + 1 => do
    let k ← k.createKmallocCaches count
    let (k, c) ← k.kmemCacheCreate (32 * 2 ^ count) none
    return { k with kmallocCaches := Function.update k.kmallocCaches count c }

/-- The metadata that `kmem_init` places at the start of its space, all zero, and the address after
it, rounded up to a page. The length of a `memset` is a 32-bit number. -/
def placeMetadata (k : Kmem) (space : Nat) (blockNum : Int) : Kmem × Nat :=
  let blockMetaAt := (space + 128) % 2 ^ 64
  let cachePool := (blockMetaAt + toUint64 blockNum * 16) % 2 ^ 64
  let boot := (cachePool + maxNumCaches * descSize) % 2 ^ 64
  let metaBytes := toUint64 blockNum * 16 % 2 ^ 32
  let isSlot := fun c => cachePool ≤ c ∧ c < cachePool + maxNumCaches * descSize
  ({ k with
      freeAreaAt := space
      blockMetaAt := blockMetaAt
      cachePool := cachePool
      freeArea := fun o => if o ≤ maxOrder then 0 else k.freeArea o
      blockMeta := fun i => if i * 16 < metaBytes then ⟨0, false, 0, false, 0⟩ else k.blockMeta i
      desc := fun c => if isSlot c then KmemCache.zero else k.desc c
      mem := fill (fill (fill k.mem space 128 0) blockMetaAt metaBytes 0) cachePool
        (maxNumCaches * descSize) 0 },
    if boot % 4096 = 0 then boot else (boot + (4096 - boot % 4096)) % 2 ^ 64)

/-- `kmem_init`; `isKernel` tells whether the selected allocator is the kernel's own. -/
def kmemInit (k : Kmem) (space : Nat) (blockNum : Int) (isKernel : Bool) : Except Fault Kmem := do
  let regionEnd := (space + toUint64 blockNum * 4096) % 2 ^ 64
  let (k, allocLo) := k.placeMetadata space blockNum
  let allocHi ← if isKernel then (carveWindows allocLo regionEnd).map Prod.fst else .ok regionEnd
  let k := { k with
    managedStart := allocLo
    managedNumBlocks := toInt32 ((allocHi + 2 ^ 64 - allocLo) % 2 ^ 64 / 4096) }
  let k := k.setBuddy k.toBuddy.buddyInit
  k.createKmallocCaches kmallocNumCaches

end Kmem

end Xv6Slab
