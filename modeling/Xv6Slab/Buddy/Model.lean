/-
**The buddy allocator of `kernel/buddy.c`.**

One `Buddy` is what `buddy.c` reads and writes of a `kmem_state`: the managed region, the heads of
the free lists, the per-page metadata, and the memory itself, because a free block stores the link
to the next free block in its own first eight bytes. The spin locks are left out: every function
here is one critical section of `buddy_lock`.

* `addrToIndex` keeps the conversion of a 64-bit page offset to `int`.
* `orderForPages` keeps the `int` arithmetic of its running power of two.
* A metadata access outside `block_meta` is `Fault.badIndex`; a walk over a free list that does not
  end is `Fault.hang`.
* `mergeLoop` reports what left the loop, so that the exit for a buddy missing from its free list
  can be named.
-/

import Xv6Slab.Base
import Xv6Slab.Lib.Bytes

namespace Xv6Slab

open Bytes

/-- `block_meta_t`: the metadata of one page. -/
structure BlockMeta where
  freeOrder : Nat
  isHeadOfFreeBlock : Bool
  allocOrder : Nat
  isHeadOfAllocBlock : Bool
  ownerSlab : Nat
  deriving DecidableEq

/-- The part of a `kmem_state` that `buddy.c` uses, with the memory it manages. -/
structure Buddy where
  managedStart : Nat
  managedNumBlocks : Int
  freeArea : Nat → Nat
  blockMeta : Nat → BlockMeta
  mem : Mem

namespace Buddy

/-- `addr_to_index`: the page index of an address, or `-1`. -/
def addrToIndex (b : Buddy) (ptr : Nat) : Int :=
  if ptr < b.managedStart then -1
  else
    let off := ptr - b.managedStart
    if off % blockSize ≠ 0 then -1
    else
      let idx := toInt32 (off / blockSize)
      if idx < 0 ∨ b.managedNumBlocks ≤ idx then -1 else idx

/-- A write to `block_meta[idx]`. -/
def modifyMeta (b : Buddy) (idx : Int) (change : BlockMeta → BlockMeta) : Except Fault Buddy :=
  if 0 ≤ idx ∧ idx < b.managedNumBlocks then
    .ok { b with
      blockMeta := Function.update b.blockMeta idx.toNat (change (b.blockMeta idx.toNat)) }
  else .error .badIndex

/-! ### Free lists -/

/-- `push_free`. -/
def pushFree (b : Buddy) (order blk : Nat) : Buddy :=
  { b with
    mem := store b.mem blk 8 (b.freeArea order)
    freeArea := Function.update b.freeArea order blk }

/-- `pop_free`: the head of a free list, or null. -/
def popFree (b : Buddy) (order : Nat) : Except Fault (Buddy × Nat) :=
  let blk := b.freeArea order
  if blk = 0 then .ok (b, 0)
  else do
    let b := { b with freeArea := Function.update b.freeArea order (load b.mem blk 8) }
    let popIdx := b.addrToIndex blk
    if 0 ≤ popIdx then
      let b ← b.modifyMeta popIdx fun m => { m with isHeadOfFreeBlock := false }
      return (b, blk)
    else return (b, blk)

/-- `mark_free_head`. -/
def markFreeHead (b : Buddy) (addr order : Nat) : Except Fault Buddy :=
  b.modifyMeta (b.addrToIndex addr) fun m =>
    { m with isHeadOfFreeBlock := true, freeOrder := order }

/-- `mark_not_free_head`. -/
def markNotFreeHead (b : Buddy) (addr : Nat) : Except Fault Buddy :=
  b.modifyMeta (b.addrToIndex addr) fun m => { m with isHeadOfFreeBlock := false }

/-- The loop of `remove_from_freelist`. -/
def removeLoop (b : Buddy) (order blk : Nat) : Nat → Nat → Nat → Except Fault (Buddy × Bool)
  | 0, _, _ => .error .hang
  | fuel + 1, prev, cur =>
    if cur = 0 then .ok (b, false)
    else
      let next := load b.mem cur 8
      if cur = blk then
        if prev ≠ 0 then .ok ({ b with mem := store b.mem prev 8 next }, true)
        else .ok ({ b with freeArea := Function.update b.freeArea order next }, true)
      else removeLoop b order blk fuel cur next

/-- `remove_from_freelist`: unlink a block, and tell whether it was found. A list that visits more
blocks than there are pages never ends. -/
def removeFromFreelist (b : Buddy) (order blk : Nat) : Except Fault (Buddy × Bool) :=
  removeLoop b order blk (b.managedNumBlocks.toNat + 1) 0 (b.freeArea order)

/-! ### Initialisation -/

/-- The inner loop of `buddy_init`: the largest order that fits and is aligned at `curr`. -/
def pickOrder (curr remaining : Nat) : Nat → Nat
  | 0 => 0
  | order + 1 =>
    if 2 ^ (order + 1) ≤ remaining ∧ curr % 2 ^ (order + 1) = 0 then order + 1
    else pickOrder curr remaining order

/-- The carving loop of `buddy_init`. Every round takes at least one page. -/
def carveLoop : Nat → Buddy → Nat → Buddy
  | 0, b, _ => b
  | fuel + 1, b, curr =>
    if (curr : Int) < b.managedNumBlocks then
      let remaining := b.managedNumBlocks.toNat - curr
      let order := pickOrder curr remaining maxOrder
      let b := { b with
        blockMeta := Function.update b.blockMeta curr
          { b.blockMeta curr with isHeadOfFreeBlock := true, freeOrder := order } }
      let addr := (b.managedStart + curr * blockSize) % 2 ^ 64
      carveLoop fuel (b.pushFree order addr) (curr + 2 ^ order)
    else b

/-- `buddy_init`. -/
def buddyInit (b : Buddy) : Buddy :=
  let b := { b with
    freeArea := fun o => if o ≤ maxOrder then 0 else b.freeArea o
    blockMeta := fun i => if (i : Int) < b.managedNumBlocks then ⟨0, false, 0, false, 0⟩
      else b.blockMeta i }
  carveLoop b.managedNumBlocks.toNat b 0

/-! ### Allocation -/

/-- The loop of `order_for_pages`: `int` arithmetic, compared as `uint64`. After 33 rounds the power
of two is zero and stays so. -/
def orderLoop (size : Nat) : Nat → Nat → Int → Except Fault Nat
  | 0, _, _ => .error .hang
  | fuel + 1, order, pages =>
    if toUint64 pages < size then orderLoop size fuel (order + 1) ((pages * 2).bmod (2 ^ 32))
    else .ok order

/-- `order_for_pages`. -/
def orderForPages (size : Nat) : Except Fault Nat := orderLoop size 34 0 1

/-- The search loop of `buddy_alloc`: the first order from `k` on with a free block. -/
def findOrder (b : Buddy) : Nat → Nat → Nat
  | 0, k => k
  | fuel + 1, k => if k ≤ maxOrder ∧ b.freeArea k = 0 then findOrder b fuel (k + 1) else k

/-- The split loop of `buddy_alloc`. -/
def splitLoop (blk target : Nat) : Nat → Buddy → Except Fault Buddy
  | 0, b => .ok b
  | k + 1, b =>
    if target < k + 1 then do
      let buddy := (blk + blockSize * 2 ^ k) % 2 ^ 64
      let b ← b.markFreeHead buddy k
      splitLoop blk target k (b.pushFree k buddy)
    else .ok b

/-- `buddy_alloc`: the address of a block, or null. -/
def buddyAlloc (b : Buddy) (sizeInPages : Nat) : Except Fault (Buddy × Nat) :=
  if sizeInPages = 0 then .ok (b, 0)
  else do
    let target ← orderForPages sizeInPages
    if maxOrder < target then return (b, 0)
    let k := b.findOrder (maxOrder + 1) target
    if maxOrder < k then return (b, 0)
    let (b, blk) ← b.popFree k
    let b ← b.markNotFreeHead blk
    let b ← splitLoop blk target k b
    let b ← b.modifyMeta (b.addrToIndex blk) fun m =>
      { m with isHeadOfAllocBlock := true, allocOrder := target, isHeadOfFreeBlock := false }
    return (b, blk)

/-! ### Release -/

/-- What left the merge loop of `buddy_free_order`. -/
inductive MergeExit
  | rejected
  | atMaxOrder
  | outside
  | notFree
  | notFound
  deriving DecidableEq, Repr

/-- The merge loop of `buddy_free_order`. -/
def mergeLoop : Nat → Buddy → Nat → Nat → Except Fault (Buddy × Nat × Nat × MergeExit)
  | 0, _, _, _ => .error .hang
  | fuel + 1, b, addr, cur =>
    if cur < maxOrder then
      let buddy := addr ^^^ (blockSize * 2 ^ cur)
      let bidx := b.addrToIndex buddy
      if bidx < 0 then .ok (b, addr, cur, .outside)
      else
        let m := b.blockMeta bidx.toNat
        if m.isHeadOfFreeBlock && m.freeOrder == cur && m.ownerSlab == 0 &&
            !m.isHeadOfAllocBlock then do
          let (b, removed) ← b.removeFromFreelist cur buddy
          if removed then
            let b ← b.modifyMeta bidx fun m => { m with isHeadOfFreeBlock := false }
            mergeLoop fuel b (if buddy < addr then buddy else addr) (cur + 1)
          else return (b, addr, cur, .notFound)
        else .ok (b, addr, cur, .notFree)
    else .ok (b, addr, cur, .atMaxOrder)

/-- `buddy_free_order`, with what left its merge loop. -/
def buddyFreeOrder (b : Buddy) (ptr order : Nat) : Except Fault (Buddy × MergeExit) :=
  if ptr = 0 then .ok (b, .rejected)
  else if (ptr + 2 ^ 64 - b.managedStart) % 2 ^ 64 % blockSize ≠ 0 then .ok (b, .rejected)
  else do
    let (b, addr, cur, exit) ← mergeLoop (maxOrder + 1) b ptr order
    let b ← b.markFreeHead addr cur
    return (b.pushFree cur addr, exit)

/-- `buddy_free`, with what left the merge loop. -/
def buddyFreeExit (b : Buddy) (ptr : Nat) : Except Fault (Buddy × MergeExit) :=
  if ptr = 0 then .ok (b, .rejected)
  else
    let idx := b.addrToIndex ptr
    if idx < 0 then .ok (b, .rejected)
    else
      let m := b.blockMeta idx.toNat
      if !m.isHeadOfAllocBlock || m.ownerSlab != 0 then .ok (b, .rejected)
      else do
        let b ← b.modifyMeta idx fun m => { m with isHeadOfAllocBlock := false }
        b.buddyFreeOrder ptr m.allocOrder

/-- `buddy_free`. -/
def buddyFree (b : Buddy) (ptr : Nat) : Except Fault Buddy := do
  let (b, _) ← b.buddyFreeExit ptr
  return b

/-- `kalloc`. -/
def kalloc (b : Buddy) : Except Fault (Buddy × Nat) := b.buddyAlloc 1

/-- `kfree`. -/
def kfree (b : Buddy) (pa : Nat) : Except Fault Buddy := b.buddyFree pa

end Buddy

end Xv6Slab
