/-
**Page tables and the pages of a process.**

`vm.c` and the parts of `proc.c` that take and give back pages: `walk`, `mappages`, `uvmunmap`,
`uvmalloc`, `uvmdealloc`, `freewalk`, `uvmfree`, `uvmcopy`, `vmfault`, `proc_pagetable`,
`allocproc`, `freeproc`, `kfork`, `growproc` and `sys_sbrk`.

Page tables are in the memory of the machine, as the code has them: 512 words of eight bytes in a
page. Every function works on the allocator that `kalloc` takes its pages from. Process ids, names,
open files, the scheduler's context and locks are left out; nothing here reads them.
-/

import Xv6Slab.Kernel.Syscalls

namespace Xv6Slab

open Bytes

namespace Kmem

/-- `kfree`, on a whole allocator. -/
def kfree (k : Kmem) (pa : Nat) : Except Fault Kmem := k.buddyFree pa

end Kmem

namespace Vm

/-! ### Addresses and page table entries -/

/-- `TRAMPOLINE`. -/
abbrev trampoline : Nat := maxva - 4096

/-- `TRAPFRAME`. -/
abbrev trapframeVa : Nat := trampoline - 4096

/-- `PGROUNDUP`. -/
def pgRoundUp (sz : Nat) : Nat := (sz + 4095) / 4096 * 4096

/-- `PGROUNDDOWN`. -/
def pgRoundDown (va : Nat) : Nat := va / 4096 * 4096

/-- `PX`. -/
def px (level va : Nat) : Nat := va / 2 ^ (12 + 9 * level) % 512

/-- `PTE_R`, `PTE_W`, `PTE_X` and `PTE_U`. -/
abbrev pteR : Nat := 2
abbrev pteW : Nat := 4
abbrev pteX : Nat := 8
abbrev pteU : Nat := 16

/-- `pte & PTE_V`. -/
def Valid (pte : Nat) : Prop := pte % 2 = 1

instance (pte : Nat) : Decidable (Valid pte) := inferInstanceAs (Decidable (_ = _))

/-- `pte & (PTE_R|PTE_W|PTE_X)`. -/
def IsLeaf (pte : Nat) : Prop := pte / 2 % 8 ≠ 0

instance (pte : Nat) : Decidable (IsLeaf pte) := inferInstanceAs (Decidable (_ ≠ _))

/-- `PTE2PA`. -/
def pte2pa (pte : Nat) : Nat := pte / 1024 * 4096 % 2 ^ 64

/-- `PTE_FLAGS`. -/
def pteFlags (pte : Nat) : Nat := pte % 1024

/-- `PA2PTE(pa) | perm | PTE_V`. The flags are below `2 ^ 10`, where `PA2PTE` has no bits. -/
def mkPte (pa perm : Nat) : Nat := pa / 4096 * 1024 + (perm / 2 * 2 + 1)

/-! ### Memory -/

/-- The word at an address. -/
def word (k : Kmem) (addr : Nat) : Nat := load k.mem addr 8

/-- A write to the word at an address. -/
def setWord (k : Kmem) (addr value : Nat) : Kmem := k.setMem (store k.mem addr 8 value)

/-- `memset`. The page at address zero is not mapped in the kernel. -/
def memset (k : Kmem) (dst : Nat) (byte : UInt8) (n : Nat) : Except Fault Kmem :=
  if dst = 0 then .error (.panic "kerneltrap") else .ok (k.setMem (fill k.mem dst n byte))

/-- The memory after copying `n` bytes. -/
def copied (mem : Mem) (dst src n : Nat) : Mem := fun a =>
  if dst ≤ a ∧ a < dst + n then mem (src + (a - dst)) else mem a

/-- `memmove`. -/
def memmove (k : Kmem) (dst src n : Nat) : Except Fault Kmem :=
  if dst = 0 then .error (.panic "kerneltrap") else .ok (k.setMem (copied k.mem dst src n))

/-! ### Walking and mapping -/

/-- The loop of `walk` from a level down: the address of the entry, or null. -/
def walkFrom (va : Nat) (alloc : Bool) : Nat → Kmem → Nat → Except Fault (Kmem × Nat)
  | 0, k, table => .ok (k, table + 8 * px 0 va)
  | level + 1, k, table =>
    let pte := table + 8 * px (level + 1) va
    if Valid (word k pte) then walkFrom va alloc level k (pte2pa (word k pte))
    else if !alloc then .ok (k, 0)
    else do
      let (k, page) ← k.kalloc
      if page = 0 then return (k, 0)
      let k ← memset k page 0 4096
      walkFrom va alloc level (setWord k pte (mkPte page 0)) page

/-- `walk`. -/
def walk (k : Kmem) (pagetable va : Nat) (alloc : Bool) : Except Fault (Kmem × Nat) :=
  if maxva ≤ va then .error (.panic "walk") else walkFrom va alloc 2 k pagetable

/-- The loop of `mappages`, for a number of pages: whether every page was mapped. -/
def mapLoop (pagetable perm : Nat) : Nat → Kmem → Nat → Nat → Except Fault (Kmem × Bool)
  | 0, k, _, _ => .ok (k, true)
  | n + 1, k, a, pa => do
    let (k, pte) ← walk k pagetable a true
    if pte = 0 then return (k, false)
    else if Valid (word k pte) then throw (.panic "mappages: remap")
    else mapLoop pagetable perm n (setWord k pte (mkPte pa perm)) (a + 4096) (pa + 4096)

/-- `mappages`. -/
def mappages (k : Kmem) (pagetable va size pa perm : Nat) : Except Fault (Kmem × Bool) :=
  if va % 4096 ≠ 0 then .error (.panic "mappages: va not aligned")
  else if size % 4096 ≠ 0 then .error (.panic "mappages: size not aligned")
  else if size = 0 then .error (.panic "mappages: size")
  else mapLoop pagetable perm (size / 4096) k va pa

/-- `uvmcreate`. -/
def uvmcreate (k : Kmem) : Except Fault (Kmem × Nat) := do
  let (k, pagetable) ← k.kalloc
  if pagetable = 0 then return (k, 0)
  let k ← memset k pagetable 0 4096
  return (k, pagetable)

/-- What `uvmunmap` does with an entry. -/
def unmapEntry (k : Kmem) (pte : Nat) (doFree : Bool) : Except Fault Kmem :=
  if pte = 0 then .ok k
  else if ¬ Valid (word k pte) then .ok k
  else if doFree then do
    let k ← k.kfree (pte2pa (word k pte))
    return setWord k pte 0
  else .ok (setWord k pte 0)

/-- The loop of `uvmunmap`. -/
def unmapLoop (pagetable : Nat) (doFree : Bool) : Nat → Kmem → Nat → Except Fault Kmem
  | 0, k, _ => .ok k
  | n + 1, k, a => do
    let (k, pte) ← walk k pagetable a false
    let k ← unmapEntry k pte doFree
    unmapLoop pagetable doFree n k (a + 4096)

/-- `uvmunmap`. -/
def uvmunmap (k : Kmem) (pagetable va npages : Nat) (doFree : Bool) : Except Fault Kmem :=
  if va % 4096 ≠ 0 then .error (.panic "uvmunmap: not aligned") else unmapLoop pagetable
    doFree npages k va

/-! ### User memory -/

/-- `uvmdealloc`. -/
def uvmdealloc (k : Kmem) (pagetable oldsz newsz : Nat) : Except Fault (Kmem × Nat) :=
  if oldsz ≤ newsz then .ok (k, oldsz)
  else if pgRoundUp newsz < pgRoundUp oldsz then do
    let k ← uvmunmap k pagetable (pgRoundUp newsz) ((pgRoundUp oldsz - pgRoundUp newsz) / 4096) true
    return (k, newsz)
  else .ok (k, newsz)

/-- The loop of `uvmalloc`, for a number of pages from `a` on: whether it got all of them. -/
def allocLoop (pagetable oldsz perm : Nat) : Nat → Kmem → Nat → Except Fault (Kmem × Bool)
  | 0, k, _ => .ok (k, true)
  | n + 1, k, a => do
    let (k, mem) ← k.kalloc
    if mem = 0 then
      let (k, _) ← uvmdealloc k pagetable a oldsz
      return (k, false)
    else
      let k ← memset k mem 0 4096
      let (k, mapped) ← mappages k pagetable a 4096 mem perm
      if mapped then allocLoop pagetable oldsz perm n k (a + 4096)
      else
        let k ← k.kfree mem
        let (k, _) ← uvmdealloc k pagetable a oldsz
        return (k, false)

/-- `uvmalloc`. -/
def uvmalloc (k : Kmem) (pagetable oldsz newsz xperm : Nat) : Except Fault (Kmem × Nat) :=
  if newsz < oldsz then .ok (k, oldsz)
  else do
    let first := pgRoundUp oldsz
    let (k, done) ← allocLoop pagetable first (pteR + pteU + xperm)
      ((newsz - first + 4095) / 4096) k first
    return (k, if done then newsz else 0)

/-- What `freewalk` does with an entry, where `child` frees a lower table. -/
def freeEntry (child : Kmem → Nat → Except Fault Kmem) (pagetable : Nat) (k : Kmem) (i : Nat) :
    Except Fault Kmem :=
  let pte := word k (pagetable + 8 * i)
  if Valid pte ∧ ¬ IsLeaf pte then do
    let k ← child k (pte2pa pte)
    return setWord k (pagetable + 8 * i) 0
  else if Valid pte then .error (.panic "freewalk: leaf")
  else .ok k

/-- `freewalk`, to a depth. Tables that go deeper link to themselves. -/
def freewalk : Nat → Kmem → Nat → Except Fault Kmem
  | 0, _, _ => .error .hang
  | depth + 1, k, pagetable => do
    let k ← (List.range 512).foldlM (freeEntry (freewalk depth) pagetable) k
    k.kfree pagetable

/-- `uvmfree`. A page table has three levels. -/
def uvmfree (k : Kmem) (pagetable sz : Nat) : Except Fault Kmem :=
  if 0 < sz then do
    let k ← uvmunmap k pagetable 0 (pgRoundUp sz / 4096) true
    freewalk 3 k pagetable
  else freewalk 3 k pagetable

/-- The loop of `uvmcopy`, for a number of pages from `i` on: whether it copied all of them. -/
def copyLoop (old new : Nat) : Nat → Kmem → Nat → Except Fault (Kmem × Bool)
  | 0, k, _ => .ok (k, true)
  | n + 1, k, i => do
    let (k, pte) ← walk k old i false
    if pte = 0 ∨ ¬ Valid (word k pte) then copyLoop old new n k (i + 4096)
    else
      let pa := pte2pa (word k pte)
      let flags := pteFlags (word k pte)
      let (k, mem) ← k.kalloc
      if mem = 0 then
        let k ← uvmunmap k new 0 (i / 4096) true
        return (k, false)
      else
        let k ← memmove k mem pa 4096
        let (k, mapped) ← mappages k new i 4096 mem flags
        if mapped then copyLoop old new n k (i + 4096)
        else
          let k ← k.kfree mem
          let k ← uvmunmap k new 0 (i / 4096) true
          return (k, false)

/-- `uvmcopy`. -/
def uvmcopy (k : Kmem) (old new sz : Nat) : Except Fault (Kmem × Bool) :=
  copyLoop old new ((sz + 4095) / 4096) k 0

/-- `ismapped`. -/
def ismapped (k : Kmem) (pagetable va : Nat) : Except Fault Bool := do
  let (k, pte) ← walk k pagetable va false
  return pte ≠ 0 ∧ Valid (word k pte)

/-! ### Processes -/

/-- `enum procstate`. -/
inductive ProcState
  | unused | used | sleeping | runnable | running | zombie
  deriving DecidableEq

/-- What the functions here use of `struct proc`. -/
structure Slot where
  state : ProcState
  trapframe : Nat
  pagetable : Nat
  sz : Nat
  ukmem : Nat
  deriving DecidableEq

/-- What `freeproc` leaves. -/
def Slot.cleared : Slot := ⟨.unused, 0, 0, 0, 0⟩

/-- The page of `trampoline.S`, in the kernel's text. -/
abbrev TextPage := {pa : Nat // pa < phystop}

variable (text : TextPage)

/-- `proc_pagetable`. -/
def procPagetable (k : Kmem) (trapframe : Nat) : Except Fault (Kmem × Nat) := do
  let (k, pagetable) ← uvmcreate k
  if pagetable = 0 then return (k, 0)
  let (k, mapped) ← mappages k pagetable trampoline 4096 text.1 (pteR + pteX)
  if !mapped then return (← uvmfree k pagetable 0, 0)
  let (k, mapped) ← mappages k pagetable trapframeVa 4096 trapframe (pteR + pteW)
  if !mapped then
    let k ← uvmunmap k pagetable trampoline 1 false
    return (← uvmfree k pagetable 0, 0)
  return (k, pagetable)

/-- `proc_freepagetable`. -/
def procFreepagetable (k : Kmem) (pagetable sz : Nat) : Except Fault Kmem := do
  let k ← uvmunmap k pagetable trampoline 1 false
  let k ← uvmunmap k pagetable trapframeVa 1 false
  uvmfree k pagetable sz

/-- `if(pa) kfree(pa)`. -/
def kfreeNonnull (k : Kmem) (pa : Nat) : Except Fault Kmem := if pa = 0 then .ok k else k.kfree pa

/-- `freeproc`: the pages of a slot. The slot is `Slot.cleared` afterwards. -/
def freeproc (k : Kmem) (p : Slot) : Except Fault Kmem := do
  let k ← kfreeNonnull k p.trapframe
  let k ← k.kfree p.ukmem
  if p.pagetable = 0 then return k else procFreepagetable k p.pagetable p.sz

/-- `allocproc` after it has found a slot: the slot, or nothing when memory is short. -/
def setupproc (k : Kmem) (p : Slot) : Except Fault (Kmem × Option Slot) := do
  let (k, trapframe) ← k.kalloc
  let p := { p with state := .used, trapframe := trapframe }
  if trapframe = 0 then return (← freeproc k p, none)
  let (k, pagetable) ← procPagetable text k trapframe
  let p := { p with pagetable := pagetable }
  if pagetable = 0 then return (← freeproc k p, none)
  let (k, ukmem) ← k.kalloc
  let k ← memset k ukmem 0 4096
  return (k, some { p with ukmem := ukmem })

/-- `NPROC`. -/
abbrev nproc : Nat := 64

/-- The allocator and the process table. -/
structure Procs where
  kmem : Kmem
  slot : Nat → Slot

namespace Procs

/-- A write to one slot. -/
def setSlot (s : Procs) (k : Kmem) (i : Nat) (p : Slot) : Procs := ⟨k, Function.update s.slot i p⟩

/-- The first unused slot. -/
def findUnused (s : Procs) : Option Nat :=
  (List.range nproc).find? fun i => (s.slot i).state = .unused

/-- `allocproc`. -/
def allocproc (s : Procs) : Except Fault (Procs × Option Nat) :=
  match s.findUnused with
  | none => .ok (s, none)
  | some i => do
    let (k, p) ← setupproc text s.kmem (s.slot i)
    match p with
    | none => return (s.setSlot k i .cleared, none)
    | some p => return (s.setSlot k i p, some i)

/-- `kfork` of a process: the slot of the child. The copy of the trapframe has 36 words, with `a0`
at offset 112. -/
def kfork (s : Procs) (parent : Nat) : Except Fault (Procs × Option Nat) := do
  let (s, np) ← s.allocproc text
  match np with
  | none => return (s, none)
  | some i =>
    let p := s.slot parent
    let np := s.slot i
    let (k, done) ← uvmcopy s.kmem p.pagetable np.pagetable p.sz
    if !done then return (s.setSlot (← freeproc k np) i .cleared, none)
    let k ← memmove k np.trapframe p.trapframe 288
    let k := setWord k (np.trapframe + 112) 0
    return (s.setSlot k i { np with state := .runnable, sz := p.sz }, some i)

end Procs

/-! ### A process at work -/

/-- `growproc`: whether it succeeded. -/
def growproc (k : Kmem) (p : Slot) (n : Int) : Except Fault (Kmem × Slot × Bool) :=
  let newsz := toUint64 (p.sz + n)
  if 0 < n then
    if trapframeVa < newsz then .ok (k, p, false)
    else do
      let (k, sz) ← uvmalloc k p.pagetable p.sz newsz pteW
      return if sz = 0 then (k, p, false) else (k, { p with sz := sz }, true)
  else if n < 0 then do
    let (k, sz) ← uvmdealloc k p.pagetable p.sz newsz
    return (k, { p with sz := sz }, true)
  else .ok (k, p, true)

/-- `SBRK_EAGER`. -/
abbrev sbrkEager : Int := 1

/-- `sys_sbrk`: the old size, unless it fails. -/
def sysSbrk (k : Kmem) (p : Slot) (n t : Int32) : Except Fault (Kmem × Slot × Option Nat) :=
  if t.toInt = sbrkEager ∨ n.toInt < 0 then do
    let (k, p', done) ← growproc k p n.toInt
    return (k, p', if done then some p.sz else none)
  else
    let newsz := toUint64 (p.sz + n.toInt)
    if newsz < p.sz ∨ trapframeVa < newsz then .ok (k, p, none)
    else .ok (k, { p with sz := newsz }, some p.sz)

/-- `vmfault`: the physical address, or null. -/
def vmfault (k : Kmem) (p : Slot) (va : Nat) : Except Fault (Kmem × Nat) :=
  if p.sz ≤ va then .ok (k, 0)
  else do
    if ← ismapped k p.pagetable (pgRoundDown va) then return (k, 0)
    let (k, mem) ← k.kalloc
    if mem = 0 then return (k, 0)
    let k ← memset k mem 0 4096
    let (k, mapped) ← mappages k p.pagetable (pgRoundDown va) 4096 mem (pteW + pteU + pteR)
    if mapped then return (k, mem)
    else
      let k ← k.kfree mem
      return (k, 0)

end Vm

end Xv6Slab
