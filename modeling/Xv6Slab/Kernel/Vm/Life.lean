/-
**The pages of a process over its life.**

A process is made by `kfork`, works on its memory, makes allocator system calls, exits with `kexit`
and is reaped by `kwait`. It gets pages for its trapframe, its page table, its memory and its
`ukmem` page, and `freeproc` gives them all back. The arena of `sys_kmem_init` is the exception:
nobody frees it.

* `State`, `State.kfork`, `State.kexit`, `State.kwait` — the kernel with its process table and the
  open files.
* `Event`, `step` — what the process does, and what others do with files meanwhile.
* `Carries` — a step of others that leaves every owner of pages alone.
* `Running`, `Alive` — the invariant from `kfork` to `kwait`, and the process without an arena.
* `allocatedPages_of_guarded` — **when no `sys_kmem_init` of the process gets an arena, the
  allocated pages after the reap are those before the fork.**
* `allocatedPages_of_arena` — a process that gets an arena and exits leaves it behind.
-/

import Xv6Slab.Kernel.Pipe
import Xv6Slab.Kernel.Vm.Fork

namespace Xv6Slab

open Bytes Machine

namespace Vm

open Kmem Radix Files

/-! ### The model -/

/-- A store of a process, as the page table translates it. One that faults changes nothing. -/
def userStore (k : Kmem) (pagetable va : Nat) (byte : UInt8) : Except Fault Kmem :=
  if maxva ≤ va then .ok k
  else do
    let (k, pte) ← walk k pagetable va false
    if pte ≠ 0 ∧ Valid (word k pte) ∧ word k pte / pteW % 2 = 1 ∧ word k pte / pteU % 2 = 1 then
      return k.setMem (Function.update k.mem (pte2pa (word k pte) + va % 4096) byte)
    else return k

/-- The kernel, the process table, the file table and the open files of each process. -/
structure State where
  kernel : Kernel
  slot : Nat → Slot
  fileCache : Nat
  devsw : Nat
  nfiles : Int
  ofile : Nat → List Nat

namespace State

/-- The allocator that the functions work on. -/
def setCurr (s : State) (k : Kmem) : State := { s with kernel := s.kernel.setCurr k }

/-- A write to one slot. -/
def setSlot (s : State) (i : Nat) (p : Slot) : State :=
  { s with slot := Function.update s.slot i p }

/-- The file table. -/
def ftable (s : State) : Ftable := ⟨s.kernel.curr, s.fileCache, s.devsw, s.nfiles⟩

def setFtable (s : State) (t : Ftable) : State :=
  { s.setCurr t.kmem with fileCache := t.fileCache, devsw := t.devsw, nfiles := t.nfiles }

/-- The `ukmem` page of a new process is cleared. -/
def clearUkmem (s : State) (i : Nat) : State :=
  { s with kernel := s.kernel.modifyProc i fun q => { q with ukmem := Kmem.zeroed } }

/-- A new process gets the open files of its parent. -/
def inherit (s : State) (i parent : Nat) : Except Fault State := do
  let t ← (s.ofile parent).foldlM Ftable.filedup s.ftable
  return { s.setFtable t with ofile := Function.update s.ofile i (s.ofile parent) }

/-- `kfork`. -/
def kfork (s : State) (text : TextPage) (parent : Nat) : Except Fault (State × Option Nat) := do
  let (procs, np) ← (⟨s.kernel.curr, s.slot⟩ : Procs).kfork text parent
  let s := { s.setCurr procs.kmem with slot := procs.slot }
  match np with
  | none => return (s, none)
  | some i => return (← (s.clearUkmem i).inherit i parent, some i)

/-- `kexit`, with the local variable of `fileclose` at the address `ff`. -/
def kexit (s : State) (p ff : Nat) : Except Fault State := do
  let t ← (s.ofile p).foldlM (fun t f => t.fileclose f ff) s.ftable
  return { s.setFtable t with ofile := Function.update s.ofile p [] }.setSlot p
    { s.slot p with state := .zombie }

/-- `kwait` for one process: it waits until the process has exited, then calls `freeproc`. -/
def kwait (s : State) (p : Nat) : Except Fault State :=
  if (s.slot p).state ≠ .zombie then .error .hang
  else do
    let s := (s.setCurr (← freeproc s.kernel.curr (s.slot p))).setSlot p .cleared
    return { s with kernel := s.kernel.modifyProc p fun q => { q with ukmemInited := false } }

end State

/-- What happens during the life of a process. -/
inductive Event
  | sbrk (n t : Int32)
  | fault (va : Nat)
  | store (va : Nat) (byte : UInt8)
  | call (c : Call)
  /-- Any process closes one of its files. -/
  | close (q f ff : Nat)

/-- One event in the life of a process. -/
def step (p : Nat) (s : State) : Event → Option State
  | .sbrk n t => (sysSbrk s.kernel.curr (s.slot p) n t).toOption.map fun r =>
    (s.setCurr r.1).setSlot p r.2.1
  | .fault va => (vmfault s.kernel.curr (s.slot p) va).toOption.map fun r => s.setCurr r.1
  | .store va byte => (userStore s.kernel.curr (s.slot p).pagetable va byte).toOption.map s.setCurr
  | .call c => (c.exec s.kernel p).toOption.map fun r => { s with kernel := r.1 }
  | .close q f ff =>
    if f ∈ s.ofile q ∧ OnStack ff then
      (s.ftable.fileclose f ff).toOption.map fun t =>
        { s.setFtable t with ofile := Function.update s.ofile q ((s.ofile q).erase f) }
    else none

/-- **The condition on a run**: `sys_kmem_init` gets no arena. -/
def Guard (p : Nat) (s : State) : Event → Prop
  | .call (.kmemInit _ pages) => Kernel.AsksForArena s.kernel p pages →
      ∀ b ∈ s.kernel.kmem.freeBlocks, 2 ^ b.order < pages.toInt.toNat
  | _ => True

/-! ### What others do -/

section Others

/-- A step of others: every owner of pages keeps them, with their contents. -/
def Carries (w w' : Backdrop) (k k' : Kmem) : Prop :=
  ∀ owned, Owns w k owned → Owns w' k' owned ∧ ∀ p ∈ owned, ∀ x ∈ pageBytes p, k'.mem x = k.mem x

variable {text : TextPage} {w w' w'' : Backdrop} {k k' k'' : Kmem} {root lim : Nat}
  {extra : Set Nat} {fixed : Nat → Option Nat}

theorem Carries.refl (w : Backdrop) (k : Kmem) : Carries w w k k :=
  fun _ owns => ⟨owns, fun _ _ _ _ => rfl⟩

theorem Carries.trans (first : Carries w w' k k') (second : Carries w' w'' k' k'') :
    Carries w w'' k k'' := by
  intro owned owns
  obtain ⟨owns', same⟩ := first owned owns
  obtain ⟨owns'', same'⟩ := second owned owns'
  exact ⟨owns'',
    fun p isOwned x inside => (same' p isOwned x inside).trans (same p isOwned x inside)⟩

theorem Maps.carry (maps : Maps w k root extra lim fixed) (carries : Carries w w' k k') :
    Maps w' k' root extra lim fixed := by
  obtain ⟨sh, table, leaves⟩ := maps
  obtain ⟨owns, same⟩ := carries _ table.owns
  exact ⟨sh,
    table.frame owns (fun t isNode => same t (.inl (.inl isNode))) table.nodes_extra
    table.users_extra, leaves⟩

theorem Image.carry {p : Slot} (image : Image text w k p) (carries : Carries w w' k k') :
    Image text w' k' p :=
  ⟨image.maps.carry carries, image.nonnull, image.ne, image.size⟩

/-- **Others change what one of them holds.** -/
theorem Carries.of_sound {a : Allocation} (isOther : a ∈ w.others)
    (start : k'.managedStart = k.managedStart) (blocks : k'.managedNumBlocks = k.managedNumBlocks)
    (free : k'.freeBlocks = k.freeBlocks)
    (sound : ∀ held, Sound k held w.space w.blockNum → a ∈ held → Sound k' held w.space w.blockNum)
    (outside : SameOutside a.bytes k.mem k'.mem) : Carries w (w.withMem k'.mem) k k' := by
  intro owned owns
  have addrs : k'.freeAddrs = k.freeAddrs := by
    unfold freeAddrs Buddy.freePages
    rw [page_congr start, free]
  refine ⟨⟨?_, owns.apart, addrs.symm ▸ owns.pool, start.trans owns.start, blocks.trans owns.blocks,
    fun _ _ => rfl⟩, fun p isOwned x inside => outside x fun inside' => ?_⟩
  · obtain ⟨held, sound', same⟩ := owns.held
    exact ⟨held, sound held sound' ((same a).mpr (.inl isOther)), same⟩
  · exact Set.disjoint_left.mp (owns.disjoint_others isOwned) inside ⟨a, isOther, inside'⟩

/-- A write inside what others hold. -/
theorem Carries.write {a : Allocation} (isOther : a ∈ w.others) {mem : Mem}
    (outside : SameOutside a.bytes k.mem mem) : Carries w (w.withMem mem) k (k.setMem mem) := by
  have sound : ∀ held, Sound k held w.space w.blockNum → a ∈ held →
      Sound (k.setMem mem) held w.space w.blockNum :=
    fun _ sound isHeld => sound.writeObject isHeld outside
  refine .of_sound isOther ?_ ?_ ?_ sound outside
  all_goals rfl

variable {t t' : Ftable} {f ff : Nat}

theorem carries_filedup (isFile : fileObject t f ∈ w.others) (call : t.filedup f = .ok t') :
    t'.fileCache = t.fileCache ∧ Carries w (w.withMem t'.kmem.mem) t.kmem t'.kmem := by
  unfold Ftable.filedup at call
  simp only at call
  split_ifs at call
  cases call
  exact ⟨rfl, .write isFile (setRef_outside _ _)⟩

theorem carries_fileclose {owned : Set Nat} (owns : Owns w t.kmem owned)
    (below : w.space + w.blockNum.toNat * 4096 ≤ phystop) (onStack : OnStack ff)
    (isFile : fileObject t f ∈ w.others) (call : t.fileclose f ff = .ok t') :
    t'.fileCache = t.fileCache ∧ Carries w (w.withMem t'.kmem.mem) t.kmem t'.kmem := by
  by_cases last : fileRef t.kmem.mem f = 1
  · obtain ⟨held, sound, same⟩ := owns.held
    have close : ∀ held, Sound t.kmem held w.space w.blockNum → fileObject t f ∈ held → _ :=
      fun held sound isHeld =>
      fileclose_last sound isHeld last (ownerOf_onStack sound below onStack)
    obtain ⟨k, call', _, calm, free, outside⟩ := close held sound ((same _).mpr (.inl isFile))
    obtain rfl := Except.ok.inj (call'.symm.trans call)
    refine ⟨rfl,
      .of_sound isFile calm.start calm.blocks free (fun held' sound' isHeld => ?_) outside⟩
    obtain ⟨k', call'', sound'', _⟩ := close held' sound' isHeld
    obtain rfl : k = k' := congrArg Ftable.kmem (Except.ok.inj (call'.symm.trans call''))
    exact sound''
  · unfold Ftable.fileclose at call
    simp only at call
    by_cases open_ : fileRef t.kmem.mem f < 1
    · rw [if_pos open_] at call
      cases call
    · rw [if_neg open_, if_pos (by omega), Except.ok.injEq] at call
      subst call
      exact ⟨rfl, .write isFile (setRef_outside _ _)⟩

/-- **A loop over open files.** -/
theorem carries_files {body : Ftable → Nat → Except Fault Ftable} {owned : Set Nat}
    (each : ∀ {mem t f t'}, Owns (w.withMem mem) t.kmem owned → fileObject t f ∈ w.others →
      body t f = .ok t' →
      t'.fileCache = t.fileCache ∧ Carries (w.withMem mem) (w.withMem t'.kmem.mem) t.kmem t'.kmem) :
    ∀ {files : List Nat} {mem : Mem} {t t' : Ftable}, Owns (w.withMem mem) t.kmem owned →
      (∀ f ∈ files, fileObject t f ∈ w.others) →
      files.foldlM body t = .ok t' → t'.fileCache = t.fileCache ∧
      ∃ mem', Carries (w.withMem mem) (w.withMem mem') t.kmem t'.kmem
  | [], mem, t, t', _, _, run => by
    cases run
    exact ⟨rfl, mem, .refl _ t.kmem⟩
  | f :: files, mem, t, t', owns, isFile, run => by
    rw [List.foldlM_cons] at run
    obtain ⟨t₁, first, rest⟩ := bind_eq_ok run
    obtain ⟨cache, carries⟩ := each owns (isFile f List.mem_cons_self) first
    have isFile₁ : ∀ g ∈ files, fileObject t₁ g ∈ w.others := fun g member => by
      rw [fileObject_congr cache]
      exact isFile g (List.mem_cons_of_mem f member)
    obtain ⟨cache', mem', carries'⟩ := carries_files each (carries owned owns).1 isFile₁ rest
    exact ⟨cache'.trans cache, mem', carries.trans carries'⟩

end Others

/-! ### A store of the process -/

section Store

variable {text : TextPage} {w : Backdrop} {k : Kmem} {p : Slot}

/-- Nothing above user memory can be written by the process. -/
theorem fixedLeaves_no_user {trapframe v pte : Nat}
    (isLeaf : fixedLeaves text trapframe v = some pte) : pte / pteU % 2 = 0 := by
  unfold fixedLeaves at isLeaf
  split_ifs at isLeaf <;>
  · cases isLeaf
    simp only [mkPte, pteR, pteW, pteX, pteU]
    omega

/-- **A store of the process** goes to its own pages. -/
theorem Image.userStore (image : Image text w k p) (va : Nat) (byte : UInt8) :
    ∃ k', Vm.userStore k p.pagetable va byte = .ok k' ∧ Image text w k' p := by
  unfold Vm.userStore
  by_cases beyond : maxva ≤ va
  · exact ⟨k, if_pos beyond, image⟩
  obtain ⟨sh, table, blank, above⟩ := image.maps
  rw [if_neg beyond, table.mapping.walk (Nat.not_le.mp beyond)]
  simp only [bind, Except.bind]
  split_ifs with writable
  · obtain ⟨nonnull, valid, _, user⟩ := writable
    cases isTable : sh.node 0 (va / 4096 / 512) with
    | none => exact absurd (table.mapping.lookup_none isTable).1 nonnull
    | some t =>
      obtain ⟨_, _, word⟩ := table.mapping.word_lookup isTable
      cases isLeaf : sh.leaf (va / 4096) with
      | none =>
        rw [isLeaf] at word
        rw [word] at valid
        exact absurd valid not_valid_zero
      | some pte =>
        replace word : Vm.word k (lookup sh (va / 4096)) = pte := by rw [word, isLeaf]; rfl
        rw [word] at user ⊢
        have low : va / 4096 < userTop := by
          by_contra high
          rw [above _ (Nat.not_lt.mp high)] at isLeaf
          rw [fixedLeaves_no_user isLeaf] at user
          cases user
        have outside :
            SameOutside (pageBytes (pte2pa pte)) k.mem
            (Function.update k.mem (pte2pa pte + va % 4096) byte) := by
          intro x outside
          refine Function.update_of_ne ?_ ..
          rintro rfl
          exact outside ⟨Nat.le_add_right _ _, by omega⟩
        have table' := table.write (.inl ⟨_, low, pte, isLeaf, rfl⟩) outside
        exact ⟨_, rfl, ⟨sh, table', blank, above⟩, image.nonnull, image.ne, image.size⟩
  · exact ⟨k, rfl, image⟩

end Store

/-! ### The life of a process -/

section Life

variable {text : TextPage} {w : Backdrop} {s s' : State} {p parent : Nat} {held : List Allocation}
  {space : Nat} {blockNum : Int} {given : Space space blockNum}

/-- **The process between `kfork` and `kwait`**: its pages and the open files. -/
structure Running (text : TextPage) (w : Backdrop) (p : Nat) (s : State) : Prop where
  active : s.kernel.active = none
  image : ∃ mem, Image text (w.withMem mem) s.kernel.kmem (s.slot p)
  /-- The open files are objects that others hold. -/
  files : ∀ q, ∀ f ∈ s.ofile q, .object s.fileCache f fileSize ∈ w.others

/-- The process has no arena. -/
structure Alive (text : TextPage) (w : Backdrop) (p : Nat) (s : State) :
    Prop extends Running text w p s where
  cleared : Kernel.Cleared (s.kernel.proc p)

theorem Running.curr (running : Running text w p s) : s.kernel.curr = s.kernel.kmem :=
  s.kernel.curr_of_none running.active

/-- A step that changes the allocator, the slot of the process and the list of open files. -/
theorem Running.next (running : Running text w p s) {k : Kmem} {q : Slot} {mem : Mem}
    (image : Image text (w.withMem mem) k q) (kernel : s'.kernel = s.kernel.setCurr k)
    (slot : s'.slot p = q) (cache : s'.fileCache = s.fileCache)
    (files : ∀ q, ∀ f ∈ s'.ofile q, ∃ q', f ∈ s.ofile q') : Running text w p s' := by
  rw [s.kernel.setCurr_of_none running.active] at kernel
  refine ⟨?_, ⟨mem, ?_⟩, fun q f isOpen => ?_⟩
  · rw [kernel]
    exact running.active
  · rw [kernel, slot]
    exact image
  · rw [cache]
    obtain ⟨q', isOpen'⟩ := files q f isOpen
    exact running.files q' f isOpen'

theorem Alive.next (alive : Alive text w p s) {k : Kmem} {q : Slot} {mem : Mem}
    (image : Image text (w.withMem mem) k q) (kernel : s'.kernel = s.kernel.setCurr k)
    (slot : s'.slot p = q) (cache : s'.fileCache = s.fileCache)
    (files : ∀ q, ∀ f ∈ s'.ofile q, ∃ q', f ∈ s.ofile q') : Alive text w p s' := by
  refine ⟨alive.toRunning.next image kernel slot cache files, ?_⟩
  rw [kernel, s.kernel.setCurr_of_none alive.active]
  exact alive.cleared

/-- The allocator system calls of the process. -/
theorem Alive.exec (alive : Alive text w p s) {c : Call} (guarded : Guard p s (.call c))
    {kernel : Kernel} {value : UInt64} (done : c.exec s.kernel p = .ok (kernel, value)) :
    Alive text w p { s with kernel := kernel } := by
  obtain ⟨mem, image⟩ := alive.image
  obtain ⟨owned, owns⟩ := image.maps.owns
  obtain ⟨held, sound, _⟩ := owns.held
  have next : ∀ {kernel : Kernel}, kernel.kmem = s.kernel.kmem → kernel.active = s.kernel.active →
      Kernel.Cleared (kernel.proc p) →
      Alive text w p { s with kernel := kernel } := fun kmem active cleared =>
    ⟨⟨active.trans alive.active, ⟨mem, kmem.symm ▸ image⟩, alive.files⟩, cleared⟩
  by_cases isInit : ∃ start pages, c = .kmemInit start pages
  · obtain ⟨start, pages, rfl⟩ := isInit
    obtain ⟨kernel', value', returned, values⟩ :=
      Kernel.sysKmemInit_returns sound w.given alive.active alive.cleared.head alive.cleared.tail
        start pages
    obtain ⟨rfl, rfl⟩ := Prod.mk.inj (Except.ok.inj (returned.symm.trans done))
    rcases values with rfl | rfl
    · -- It cannot succeed: no free block is large enough.
      obtain ⟨k, k', arena, init⟩ := Kernel.sysKmemInit_ok alive.active done
      have few := init.few
      simp only [maxTestPages] at few
      have positive := init.positive
      have failed :=
        sound.buddyAlloc_of_small (by omega) (by omega)
          (guarded ⟨init.positive, init.few, init.without⟩)
      have null := congrArg Prod.snd (Except.ok.inj (failed.symm.trans init.buddy))
      exact absurd null.symm init.nonnull
    · rcases Kernel.sysKmemInit_failed alive.active done with ⟨rfl, _⟩ |
        ⟨⟨positive, few, _⟩, k, buddy, rfl⟩
      · exact alive
      · simp only [maxTestPages] at few
        obtain rfl := (sound.buddyAlloc_null (by omega) (by omega) buddy).1
        refine next rfl rfl ?_
        show Kernel.Cleared ((s.kernel.modifyProc p fun q => q.request start pages.toInt).proc p)
        rw [Kernel.modifyProc_self]
        exact ⟨⟨alive.cleared.inited, alive.cleared.head, alive.cleared.tail⟩, alive.cleared.blocks⟩
  · rcases Kernel.exec_cleared alive.cleared (fun start pages eq => isInit ⟨start, pages, eq⟩) done
      with rfl | rfl
    · exact alive
    · refine next rfl rfl ?_
      simp only [Kernel.setUkmem, Kernel.modifyProc_self]
      exact ⟨⟨alive.cleared.inited, alive.cleared.head, alive.cleared.tail⟩, alive.cleared.blocks⟩

/-- Where the open files come from after one list has changed. -/
theorem open_of_update {ofile : Nat → List Nat} {q q' f : Nat} {files : List Nat}
    (sub : ∀ g ∈ files, ∃ r, g ∈ ofile r) (isOpen : f ∈ Function.update ofile q files q') :
    ∃ r, f ∈ ofile r := by
  by_cases eq : q' = q
  · rw [eq, Function.update_self] at isOpen
    exact sub f isOpen
  · rw [Function.update_of_ne eq] at isOpen
    exact ⟨q', isOpen⟩

/-- **Every guarded event keeps the invariant.** -/
theorem Alive.step (alive : Alive text w p s) (below : w.space + w.blockNum.toNat * 4096 ≤ phystop)
    {e : Event} (guarded : Guard p s e) (taken : step p s e = some s') : Alive text w p s' := by
  obtain ⟨mem, image⟩ := alive.image
  cases e with
  | sbrk n t =>
    obtain ⟨k, q, result, call, image'⟩ := image.sysSbrk n t
    simp only [Vm.step, alive.curr, call] at taken
    cases taken
    exact alive.next image' rfl (Function.update_self ..) rfl fun q _ isOpen => ⟨q, isOpen⟩
  | fault va =>
    obtain ⟨k, pa, call, image'⟩ := image.vmfault va
    simp only [Vm.step, alive.curr, call] at taken
    cases taken
    exact alive.next image' rfl rfl rfl fun q _ isOpen => ⟨q, isOpen⟩
  | store va byte =>
    obtain ⟨k, call, image'⟩ := image.userStore va byte
    simp only [Vm.step, alive.curr, call] at taken
    cases taken
    exact alive.next image' rfl rfl rfl fun q _ isOpen => ⟨q, isOpen⟩
  | call c =>
    simp only [Vm.step, Option.map_eq_some_iff] at taken
    obtain ⟨⟨kernel, value⟩, done, rfl⟩ := taken
    exact alive.exec guarded (eq_ok_of_toOption done)
  | close q f ff =>
    simp only [Vm.step, Option.ite_none_right_eq_some, Option.map_eq_some_iff] at taken
    obtain ⟨⟨isOpen, onStack⟩, t, done, rfl⟩ := taken
    obtain ⟨owned, owns⟩ := image.maps.owns
    rw [← alive.curr] at image owns
    have isFile : fileObject s.ftable f ∈ (w.withMem mem).others := alive.files q f isOpen
    obtain ⟨cache, carries⟩ :=
      carries_fileclose (w := w.withMem mem) owns below onStack isFile (eq_ok_of_toOption done)
    exact alive.next (image.carry carries) rfl rfl cache fun _ _ => open_of_update fun _ isOpen' =>
      ⟨q, List.mem_of_mem_erase isOpen'⟩

/-- **`kexit`** closes the files. -/
theorem Running.kexit (running : Running text w p s)
    (below : w.space + w.blockNum.toNat * 4096 ≤ phystop) {ff : Nat} (onStack : OnStack ff)
    (done : s.kexit p ff = .ok s') : Running text w p s' := by
  obtain ⟨mem, image⟩ := running.image
  obtain ⟨owned, owns⟩ := image.maps.owns
  rw [← running.curr] at image owns
  obtain ⟨t, closes, done⟩ := bind_eq_ok done
  cases done
  obtain ⟨cache, mem', carries⟩ :=
    carries_files (w := w)
    (fun owns isFile => carries_fileclose (w := w.withMem _) owns below onStack isFile)
    owns (running.files p) closes
  have image' := image.carry carries
  have exited : Image text (w.withMem mem') t.kmem { s.slot p with state := .zombie } :=
    ⟨image'.maps, image'.nonnull, image'.ne, image'.size⟩
  exact running.next exited rfl (Function.update_self ..) cache
    fun _ _ => open_of_update fun _ none => absurd none List.not_mem_nil

theorem state_of_kexit {ff : Nat} (done : s.kexit p ff = .ok s') : (s'.slot p).state = .zombie := by
  obtain ⟨t, _, done⟩ := bind_eq_ok done
  cases done
  show (Function.update s.slot p { s.slot p with state := .zombie } p).state = .zombie
  rw [Function.update_self]

/-- **`kwait`** gives back all pages of the process. -/
theorem Running.kwait (running : Running text w p s) (exited : (s.slot p).state = .zombie) :
    ∃ s' mem, s.kwait p = .ok s' ∧ Owns (w.withMem mem) s'.kernel.kmem ∅ := by
  obtain ⟨mem, image⟩ := running.image
  obtain ⟨k, freed, owns⟩ := image.freeproc
  rw [← running.curr] at freed
  unfold State.kwait
  rw [if_neg (not_not.mpr exited), freed]
  refine ⟨_, mem, rfl, ?_⟩
  show Owns (w.withMem mem) (s.kernel.setCurr k).kmem ∅
  rw [s.kernel.setCurr_of_none running.active]
  exact owns

/-- The files of the parent. -/
theorem Alive.inherit (alive : Alive text w p s) (done : s.inherit p parent = .ok s') :
    Alive text w p s' := by
  obtain ⟨mem, image⟩ := alive.image
  obtain ⟨owned, owns⟩ := image.maps.owns
  rw [← alive.curr] at image owns
  obtain ⟨t, dups, done⟩ := bind_eq_ok done
  cases done
  obtain ⟨cache, mem', carries⟩ :=
    carries_files (w := w) (fun _ isFile => carries_filedup isFile) owns (alive.files parent) dups
  exact alive.next (image.carry carries) rfl rfl cache fun _ _ => open_of_update fun _ isOpen =>
    ⟨parent, isOpen⟩

/-- **A state of the kernel in which a process calls `fork`.** -/
structure State.WellFormed (s : State) (parent : Nat) (held : List Allocation) {space : Nat}
    {blockNum : Int} (given : Space space blockNum) : Prop where
  active : s.kernel.active = none
  procs : (⟨s.kernel.kmem, s.slot⟩ : Procs).WellFormed parent held given
  inited : ∀ i, (s.slot i).state = .unused → (s.kernel.proc i).ukmemInited = false
  /-- The open files are objects of `file_cache`. -/
  files : ∀ q, ∀ f ∈ s.ofile q, .object s.fileCache f fileSize ∈ held
  /-- The heap ends at `PHYSTOP`. -/
  below : space + blockNum.toNat * 4096 ≤ phystop

/-- **`kfork`** starts the life of a process. -/
theorem State.WellFormed.kfork (wellFormed : s.WellFormed parent held given)
    (done : s.kfork text parent = .ok (s', some p)) :
    Alive text (.of s.kernel.kmem held given) p s' := by
  have owns : Owns (.of s.kernel.kmem held given) s.kernel.kmem ∅ :=
    .of_sound wellFormed.procs.sound
  have makes :=
    Procs.makes_kfork text owns wellFormed.procs.readable wellFormed.procs.size
    wellFormed.procs.running wellFormed.procs.cleared
  unfold State.kfork at done
  rw [s.kernel.curr_of_none wellFormed.active] at done
  generalize (⟨s.kernel.kmem, s.slot⟩ : Procs).kfork text parent = call at done makes
  cases makes with
  | fails => cases done
  | faults => cases done
  | @makes k i q isUnused image new _ =>
    obtain ⟨s₁, inherits, isChild⟩ := bind_eq_ok (show
      (({ s.setCurr k with slot := Function.update s.slot i q }.clearUkmem i).inherit i parent >>=
        fun s => .ok (s, some i)) = .ok (s', some p) from done)
    cases isChild
    have kernel : (s.setCurr k).kernel = { s.kernel with kmem := k } :=
      s.kernel.setCurr_of_none wellFormed.active k
    refine Alive.inherit ⟨⟨?_, ⟨s.kernel.kmem.mem, ?_⟩, ?_⟩, ?_⟩ inherits
    · show (s.setCurr k).kernel.active = none
      rw [kernel]
      exact wellFormed.active
    · show Image text _ (s.setCurr k).kernel.kmem (Function.update s.slot p q p)
      rw [kernel, Function.update_self]
      exact image
    · exact wellFormed.files
    · show Kernel.Cleared
        (((s.setCurr k).kernel.modifyProc p fun q => { q with ukmem := Kmem.zeroed }).proc p)
      rw [kernel, Kernel.modifyProc_self]
      exact ⟨⟨wellFormed.inited p isUnused.2, rfl, rfl⟩, rfl⟩

/-- **An arena of `sys_kmem_init`** is a free block that the kernel hands out; the pages of the
process stay as they are. -/
theorem Alive.arena (alive : Alive text w p s) {start : UInt64} {pages : Int32}
    (five : 5 ≤ pages.toInt) {kernel : Kernel}
    (done : s.kernel.sysKmemInit p start pages = .ok (kernel, 0)) :
    ∃ arena order pool, arena ∈ s.kernel.kmem.freeAddrs ∧
      Running text { w with others := insert (.block arena order) w.others, pool := pool } p
      { s with kernel := kernel } := by
  obtain ⟨mem, image⟩ := alive.image
  obtain ⟨k, k', arena, init⟩ := Kernel.sysKmemInit_ok alive.active done
  have few := init.few
  simp only [maxTestPages] at few
  obtain ⟨order, least⟩ := Buddy.exists_leastOrder pages.toInt.toNat
  have isOrder := Buddy.orderForPages_of_isLeast (show pages.toInt.toNat ≤ 2 ^ 31 by omega) least
  -- What the kernel holds afterwards, for any list of what it held before.
  have taken : ∀ held, Sound s.kernel.kmem held w.space w.blockNum →
      Kernel.Confined s.kernel kernel p pages.toInt held arena order ∧
        Sound kernel.kmem (.block arena order :: held) w.space w.blockNum := by
    intro held sound
    have confined :=
      (init.confined_iff sound w.given alive.cleared.head alive.cleared.tail least).mpr five
    have handed := sound.buddyAlloc isOrder init.buddy
    rw [handOut_of_ne init.nonnull] at handed
    exact ⟨confined, init.kernel handed confined⟩
  have region : Buddy.SameRegion s.kernel.kmem.toBuddy kernel.kmem.toBuddy := by
    obtain ⟨⟨b, _⟩, buddy, isState⟩ := bind_eq_ok init.buddy
    cases isState
    rw [init.kmem]
    exact ⟨(Buddy.buddyAlloc_sameRegion buddy).start, (Buddy.buddyAlloc_sameRegion buddy).blocks,
      (Buddy.buddyAlloc_sameRegion buddy).owner⟩
  have freed :
      arena ∈ s.kernel.kmem.freeAddrs ∧ kernel.kmem.freeAddrs ⊆ s.kernel.kmem.freeAddrs := by
    obtain ⟨owned, owns⟩ := image.maps.owns
    obtain ⟨held, sound, _⟩ := owns.held
    obtain ⟨i, t, rfl, allocates⟩ := (taken held sound).1.removed
    refine ⟨⟨i, allocates.wasFree (⟨i, order⟩ : Tilings.Block).covers_index, rfl⟩, ?_⟩
    unfold freeAddrs
    rw [page_congr region.start, allocates.freed]
    exact Set.image_mono Set.sdiff_subset
  refine ⟨arena, order, w.pool \ (s.kernel.kmem.freeAddrs \ kernel.kmem.freeAddrs), freed.1,
    init.active.trans alive.active,
    ⟨kernel.kmem.mem, image.carry fun owned owns => ?_⟩,
    fun q f isOpen => .inr (alive.files q f isOpen)⟩
  obtain ⟨held, sound, same⟩ := owns.held
  obtain ⟨confined, sound'⟩ := taken held sound
  have fresh := (List.nodup_cons.mp sound'.nodup).1
  refine ⟨⟨⟨_, sound', fun a => ?_⟩, fun q isOwned => ?_, ?_, region.start.trans owns.start,
    region.blocks.trans owns.blocks,
    fun _ _ => rfl⟩,
    fun q isOwned x inside => confined.contents _ ((same _).mpr (.inr ⟨q, isOwned, rfl⟩)) x inside⟩
  · rw [List.mem_cons, same, ← or_assoc]
    rfl
  · rintro (eq | isOther)
    · exact fresh (eq ▸ (same _).mpr (.inr ⟨q, isOwned, rfl⟩))
    · exact owns.apart q isOwned isOther
  · show kernel.kmem.freeAddrs ∪ owned = (w.withMem mem).pool \ _
    rw [← owns.pool]
    ext q
    constructor
    · rintro (isFree | isOwned)
      · exact ⟨.inl (freed.2 isFree), fun gone => gone.2 isFree⟩
      · exact ⟨.inr isOwned, fun gone => (owns.page isOwned).2.2.2 gone.1⟩
    · rintro ⟨isFree | isOwned, notGone⟩
      · exact .inl (by_contra fun isTaken => notGone ⟨isFree, isTaken⟩)
      · exact .inr isOwned

variable {s₁ s₂ s₃ : State} {events : List Event} {ff : Nat}

/-- **When no `sys_kmem_init` of a process gets an arena, its life leaves the allocated pages as
they were.** -/
theorem allocatedPages_of_guarded (wellFormed : s.WellFormed parent held given)
    (fork : s.kfork text parent = .ok (s₁, some p)) (guarded : Along (step p) (Guard p) s₁ events)
    (ran : Machine.run (step p) s₁ events = some s₂) (onStack : OnStack ff)
    (exit : s₂.kexit p ff = .ok s₃) :
    ∃ s₄, s₃.kwait p = .ok s₄ ∧ s₄.kernel.kmem.allocatedPages = s.kernel.kmem.allocatedPages := by
  have born := wellFormed.kfork fork
  have ready : Alive text (.of s.kernel.kmem held given) p s₂ :=
    inv_of_run (fun _ _ _ alive guard taken => alive.step wellFormed.below guard taken) events
      born guarded ran
  obtain ⟨s₄, mem, done, owns⟩ :=
    (ready.kexit wellFormed.below onStack exit).kwait (state_of_kexit exit)
  exact ⟨s₄, done, owns.allocatedPages_eq⟩

/-- The kernel with a process table and no open files. -/
def ofProcs (r : Procs) : State :=
  ⟨⟨r.kmem, fun _ => ⟨0, 0, 0, false, Kmem.zeroed⟩, none⟩, r.slot, 0, 0, 0, fun _ => []⟩

/-- A process grows, shrinks and uses its memory; its allocator calls fail. -/
def someEvents : List Event :=
  [.sbrk 5000 1, .sbrk 5000 2, .fault 6000, .store 100 7, .call (.kmemInit 0x4000 2000),
    .call (.kmalloc 10), .sbrk (-4096) 1]

/-- More pages than `sys_kmem_init` accepts. -/
theorem guarded_someEvents (s : State) : Along (step 1) (Guard 1) s someEvents := by
  refine ⟨trivial,
    fun _ _ =>
    ⟨trivial,
      fun _ _ => ⟨trivial, fun _ _ => ⟨trivial, fun _ _ => ⟨?_, fun _ _ => ⟨trivial, fun _ _ =>
    ⟨trivial, fun _ _ => trivial⟩⟩⟩⟩⟩⟩⟩
  rintro ⟨_, few, _⟩
  exact absurd few (by decide)

/-- The first process can fork. -/
theorem wellFormed_ofProcs {k : Kmem} (booted : zeroed.kmemInit 0x80030000 32720 true = .ok k)
    {r : Procs} (alloc : (Procs.fresh k).allocproc Procs.kernelText = .ok (r, some 0)) :
    ∃ held, (ofProcs r).WellFormed 0 held space_kernelHeap := by
  have run : Kmem.Run zeroed 0x80030000 32720 true k [] := .init booted
  have owns : Owns (.of k [] space_kernelHeap) (Procs.fresh k).kmem ∅ :=
    .of_sound (run.sound space_kernelHeap rfl rfl)
  have makes := Procs.makes_allocproc Procs.kernelText owns fun _ _ => rfl
  rw [alloc] at makes
  generalize result : (Except.ok (r, some 0) : Except Fault (Procs × Option Nat)) = call at makes
  cases makes with
  | fails => cases result
  | faults => cases result
  | @makes k' i p isUnused image new enough =>
    cases result
    obtain ⟨held, wellFormed⟩ :=
      Procs.wellFormed_setSlot (s := Procs.fresh k) (i := 0) (fun _ _ => rfl) image
      (by rw [new.1]; nofun)
    exact ⟨held, rfl, wellFormed, fun _ _ => rfl,
      fun _ _ isOpen => absurd isOpen List.not_mem_nil, by decide⟩

theorem allocatedPages_of_guarded_someEvents :
    ∃ k r s₁ s₂ s₃ s₄, zeroed.kmemInit 0x80030000 32720 true = .ok k ∧
    (Procs.fresh k).allocproc Procs.kernelText = .ok (r, some 0) ∧
    (ofProcs r).kfork Procs.kernelText 0 = .ok (s₁, some 1) ∧
    Machine.run (step 1) s₁ someEvents = some s₂ ∧ s₂.kexit 1 (kstack 1 + 3000) = .ok s₃ ∧
    s₃.kwait 1 = .ok s₄ ∧
    s₄.kernel.kmem.allocatedPages = (ofProcs r).kernel.kmem.allocatedPages := by
  obtain ⟨⟨i, j⟩, call, observed⟩ := exists_ok
    (zeroed.kmemInit 0x80030000 32720 true >>= fun k =>
      (Procs.fresh k).allocproc Procs.kernelText >>= fun r =>
      (ofProcs r.1).kfork Procs.kernelText 0 >>= fun r₁ =>
        (Machine.run (step 1) r₁.1 someEvents).elim (.error .hang) .ok >>= fun s₂ =>
        s₂.kexit 1 (kstack 1 + 3000) >>= fun _ => .ok (r.2, r₁.2))
    (fun (r : Option Nat × Option Nat) => r) (some 0, some 1) (by decide +kernel)
  obtain ⟨rfl, rfl⟩ := Prod.mk.inj observed
  obtain ⟨k, booted, call⟩ := bind_eq_ok call
  obtain ⟨⟨r, i⟩, alloc, call⟩ := bind_eq_ok call
  obtain ⟨⟨s₁, j⟩, fork, call⟩ := bind_eq_ok call
  obtain ⟨s₂, ran, call⟩ := bind_eq_ok call
  obtain ⟨s₃, exit, isResult⟩ := bind_eq_ok call
  cases isResult
  obtain ⟨held, wellFormed⟩ := wellFormed_ofProcs booted alloc
  have ran' := some_of_elim ran
  obtain ⟨s₄, reaped, same⟩ :=
    allocatedPages_of_guarded wellFormed fork (guarded_someEvents s₁) ran'
    ⟨1, by decide, by decide⟩ exit
  exact ⟨k, r, s₁, s₂, s₃, s₄, booted, alloc, fork, ran', exit, reaped, same⟩

/-- **A process that gets an arena leaves it behind**, when it exits. -/
theorem allocatedPages_of_arena (wellFormed : s.WellFormed parent held given)
    (fork : s.kfork text parent = .ok (s₁, some p)) {start : UInt64} {pages : Int32}
    (five : 5 ≤ pages.toInt) {kernel : Kernel}
    (init : s₁.kernel.sysKmemInit p start pages = .ok (kernel, 0)) (onStack : OnStack ff)
    (exit : { s₁ with kernel := kernel }.kexit p ff = .ok s₃) :
    ∃ s₄, s₃.kwait p = .ok s₄ ∧ s₄.kernel.kmem.allocatedPages ≠ s.kernel.kmem.allocatedPages := by
  have born := wellFormed.kfork fork
  obtain ⟨arena, order, pool, wasFree, running⟩ := born.arena five init
  obtain ⟨s₄, mem, done, owns⟩ :=
    (running.kexit wellFormed.below onStack exit).kwait (state_of_kexit exit)
  refine ⟨s₄, done, fun same => ?_⟩
  -- The first page of the arena was free before the fork.
  obtain ⟨i, isFree, rfl⟩ : arena ∈ s.kernel.kmem.freeAddrs := by
    obtain ⟨mem, image⟩ := born.image
    obtain ⟨owned, owns⟩ := image.maps.owns
    have isPool : arena ∈ s₁.kernel.kmem.freeAddrs ∪ owned := .inl wasFree
    rw [owns.pool] at isPool
    exact isPool
  have notFree : s.kernel.kmem.page i ∉ s₄.kernel.kmem.freeAddrs := by
    obtain ⟨held', sound, isHeld⟩ := owns.held
    exact sound.notMem_freeAddrs ((isHeld (.block _ order)).mpr (.inl (.inl rfl)))
  have allocated : i ∈ s₄.kernel.kmem.allocatedPages := by
    refine ⟨?_, fun isFree' => notFree ⟨i, isFree', congrFun (page_congr owns.start) i⟩⟩
    obtain ⟨v, core, _⟩ := wellFormed.procs.sound.view
    have lt := ((Buddy.mem_freePages core.slabs.pool).mp isFree).1
    rwa [show s₄.kernel.kmem.num = s.kernel.kmem.num from congrArg Int.toNat owns.blocks]
  rw [same] at allocated
  exact allocated.2 isFree

/-- **The child of the first process gets an arena of sixteen pages and exits**: the arena stays
allocated. -/
theorem arena_leaks : ∃ k r s₁ s₂ s₃ s₄, zeroed.kmemInit 0x80030000 32720 true = .ok k ∧
    (Procs.fresh k).allocproc Procs.kernelText = .ok (r, some 0) ∧
    (ofProcs r).kfork Procs.kernelText 0 = .ok (s₁, some 1) ∧
    Machine.run (step 1) s₁ [.call (.kmemInit 0x4000 16)] = some s₂ ∧
    s₂.kexit 1 (kstack 1 + 3000) = .ok s₃ ∧
    s₃.kwait 1 = .ok s₄ ∧
    s₄.kernel.kmem.allocatedPages ≠ (ofProcs r).kernel.kmem.allocatedPages := by
  obtain ⟨⟨i, j, value⟩, call, observed⟩ := exists_ok
    (zeroed.kmemInit 0x80030000 32720 true >>= fun k =>
      (Procs.fresh k).allocproc Procs.kernelText >>= fun r =>
      (ofProcs r.1).kfork Procs.kernelText 0 >>= fun r₁ =>
        r₁.1.kernel.sysKmemInit 1 0x4000 16 >>= fun r₂ =>
        { r₁.1 with kernel := r₂.1 }.kexit 1 (kstack 1 + 3000) >>= fun _ => .ok (r.2, r₁.2, r₂.2))
    (fun (r : Option Nat × Option Nat × UInt64) => r) (some 0, some 1, 0) (by decide +kernel)
  simp only [Prod.mk.injEq] at observed
  obtain ⟨rfl, rfl, rfl⟩ := observed
  obtain ⟨k, booted, call⟩ := bind_eq_ok call
  obtain ⟨⟨r, i⟩, alloc, call⟩ := bind_eq_ok call
  obtain ⟨⟨s₁, j⟩, fork, call⟩ := bind_eq_ok call
  obtain ⟨⟨kernel, value⟩, init, call⟩ := bind_eq_ok call
  obtain ⟨s₃, exit, isResult⟩ := bind_eq_ok call
  cases isResult
  obtain ⟨held, wellFormed⟩ := wellFormed_ofProcs booted alloc
  obtain ⟨s₄, reaped, leaks⟩ :=
    allocatedPages_of_arena wellFormed fork (by decide) init ⟨1, by decide, by decide⟩ exit
  refine ⟨k, r, s₁, _, s₃, s₄, booted, alloc, fork, ?_, exit, reaped, leaks⟩
  have exec : (Call.kmemInit 0x4000 16).exec s₁.kernel 1 = .ok (kernel, 0) := init
  rw [run_cons, step, exec]
  rfl

end Life

end Vm

end Xv6Slab
