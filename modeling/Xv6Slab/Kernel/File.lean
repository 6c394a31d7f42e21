/-
**The file table.**

`struct file` objects come from `file_cache`; `ftable.nfiles` counts them and every object counts
its references. `filealloc`, `filedup`, `fileclose` and `pipealloc` run over the kernel's allocator,
with the objects in its memory. `fileclose` of the last reference copies the object to a local
variable `ff` and gives the address of `ff` to `kmem_cache_free`: the object stays allocated. No
code assigns `pipe_cache`.

* `Accounted` — the counter, the objects and the references agree.
* `accounted_of_noLastClose` — **they agree in every state reached without closing a last
  reference.**
* `Inv.fileclose_leaks` — every `fileclose` of a last reference breaks it.
-/

import Xv6Slab.Lib.Machine
import Xv6Slab.Spec.CacheCalls

namespace Xv6Slab

namespace Files

open Bytes Kmem Machine

/-! ### The code -/

/-- `NFILE`. -/
abbrev nfile : Int := 100

/-- `sizeof(struct file)`. -/
abbrev fileSize : Nat := 40

/-- The allocator, `file_cache`, `devsw` and `ftable.nfiles`. -/
structure Ftable where
  kmem : Kmem
  fileCache : Nat
  devsw : Nat
  nfiles : Int

/-- `pipe_cache`. -/
def pipeCache : Nat := 0

/-- `f->ref`. -/
def fileRef (mem : Mem) (f : Nat) : Int := toInt32 (load mem (f + 4) 4)

namespace Ftable

def setMem (t : Ftable) (mem : Mem) : Ftable := { t with kmem := t.kmem.setMem mem }

/-- A write to `f->ref`. -/
def setRef (t : Ftable) (f : Nat) (ref : Int) : Ftable :=
  t.setMem (store t.kmem.mem (f + 4) 4 (ref % 2 ^ 32).toNat)

/-- `fileinit`. The array `devsw` has `NDEV` entries of two pointers. -/
def fileinit (k : Kmem) : Except Fault Ftable := do
  let (k, c) ← k.kmemCacheCreate fileSize none
  let (k, devsw) ← k.kmalloc (16 * 10)
  return ⟨k, c, devsw, 0⟩

/-- `filealloc`. -/
def filealloc (t : Ftable) : Except Fault (Ftable × Nat) :=
  if nfile ≤ t.nfiles then .ok (t, 0)
  else do
    let nfiles := t.nfiles + 1
    let (k, f) ← t.kmem.kmemCacheAlloc t.fileCache
    if f = 0 then return ({ t with kmem := k, nfiles := nfiles - 1 }, 0)
    else
      let mem := fill k.mem f fileSize 0
      let mem := store mem (f + 4) 4 1
      return ({ t with kmem := k.setMem mem, nfiles := nfiles }, f)

/-- `filedup`. -/
def filedup (t : Ftable) (f : Nat) : Except Fault Ftable :=
  let ref := fileRef t.kmem.mem f
  if ref < 1 then .error (.panic "filedup")
  else if ref = 2 ^ 31 - 1 then .error .overflow
  else .ok (t.setRef f (ref + 1))

/-- `fileclose`, with its local variable at the address `ff`. Closing a pipe or an inode afterwards
does not touch the file table. -/
def fileclose (t : Ftable) (f ff : Nat) : Except Fault Ftable :=
  let ref := fileRef t.kmem.mem f
  if ref < 1 then .error (.panic "fileclose")
  else
    let t := t.setRef f (ref - 1)
    if 0 < ref - 1 then .ok t
    else do
      let t := t.setRef f 0
      let t := t.setMem (store t.kmem.mem f 4 0)
      let k ← t.kmem.kmemCacheFree t.fileCache ff
      return { t with kmem := k, nfiles := t.nfiles - 1 }

/-- The cleanup of `pipealloc`. -/
def pipeBad (t : Ftable) (pi f0 f1 ff : Nat) : Except Fault Ftable := do
  let k ← if pi ≠ 0 then t.kmem.kmemCacheFree pipeCache pi else .ok t.kmem
  let t := { t with kmem := k }
  let t ← if f0 ≠ 0 then t.fileclose f0 ff else .ok t
  if f1 ≠ 0 then t.fileclose f1 ff else return t

/-- The fields of one end of a pipe. -/
def pipeEnd (mem : Mem) (f readable writable pi : Nat) : Mem :=
  let mem := store mem f 4 1
  let mem := store mem (f + 8) 1 readable
  let mem := store mem (f + 9) 1 writable
  store mem (f + 16) 8 pi

/-- `pipealloc`: whether it succeeded, and the two files. The name of the pipe's lock is left
out. -/
def pipealloc (t : Ftable) (ff : Nat) : Except Fault (Ftable × Bool × Nat × Nat) := do
  let (t, f0) ← t.filealloc
  if f0 = 0 then return (← t.pipeBad 0 0 0 ff, false, 0, 0)
  let (t, f1) ← t.filealloc
  if f1 = 0 then return (← t.pipeBad 0 f0 0 ff, false, f0, 0)
  let (k, pi) ← t.kmem.kmemCacheAlloc pipeCache
  let t := { t with kmem := k }
  if pi = 0 then return (← t.pipeBad 0 f0 f1 ff, false, f0, f1)
  let mem := store t.kmem.mem (pi + 544) 4 1
  let mem := store mem (pi + 548) 4 1
  let mem := store mem (pi + 540) 4 0
  let mem := store mem (pi + 536) 4 0
  let mem := store mem pi 4 0
  let mem := store mem (pi + 16) 8 0
  let mem := pipeEnd mem f0 1 0 pi
  let mem := pipeEnd mem f1 0 1 pi
  return (t.setMem mem, true, f0, f1)

end Ftable

/-- `KSTACK(p)`. -/
def kstack (p : Nat) : Nat := maxva - 4096 - (p + 1) * 2 * 4096

/-- A local variable of type `struct file` lies on the kernel stack of one of the `NPROC`
processes. -/
def OnStack (ff : Nat) : Prop := ∃ p < 64, kstack p ≤ ff ∧ ff + fileSize ≤ kstack p + 4096

instance (ff : Nat) : Decidable (OnStack ff) := inferInstanceAs (Decidable (∃ p < 64, _))

/-! ### Runs -/

/-- The table, and the references that their holders have not closed. -/
structure State where
  table : Ftable
  refs : List Nat

/-- The calls, and a write to a field of an open file other than `ref`. -/
inductive Event
  | filealloc
  | filedup (f : Nat)
  | fileclose (f ff : Nat)
  | pipealloc (ff : Nat)
  | write (f offset : Nat) (byte : UInt8)

/-- One call. A reference that is duplicated, closed or written through is outstanding. -/
def step (s : State) : Event → Option State
  | .filealloc =>
    match s.table.filealloc with
    | .ok (t, f) => some ⟨t, if f = 0 then s.refs else f :: s.refs⟩
    | .error _ => none
  | .filedup f =>
    if f ∈ s.refs then
      match s.table.filedup f with
      | .ok t => some ⟨t, f :: s.refs⟩
      | .error _ => none
    else none
  | .fileclose f ff =>
    if f ∈ s.refs ∧ OnStack ff then
      match s.table.fileclose f ff with
      | .ok t => some ⟨t, s.refs.erase f⟩
      | .error _ => none
    else none
  | .pipealloc ff =>
    if OnStack ff then
      match s.table.pipealloc ff with
      | .ok (t, made, f0, f1) => some ⟨t, if made then f0 :: f1 :: s.refs else s.refs⟩
      | .error _ => none
    else none
  | .write f offset byte =>
    if f ∈ s.refs ∧ offset < fileSize ∧ (offset < 4 ∨ 8 ≤ offset) then
      some { s with table := s.table.setMem (Function.update s.table.kmem.mem (f + offset) byte) }
    else none

/-- `filealloc` has no file to give: `nfiles` is at its bound, there is no `file_cache`, or the
cache has no slab with a free object and no free block is large enough for a new slab. -/
def NoFile (t : Ftable) : Prop :=
  nfile ≤ t.nfiles ∨ t.fileCache = 0 ∨
    (t.kmem.desc t.fileCache).head .partials = 0 ∧ (t.kmem.desc t.fileCache).head .empty = 0 ∧
      ∀ i < t.kmem.num, (t.kmem.blockMeta i).isHeadOfFreeBlock = true →
        (t.kmem.blockMeta i).freeOrder < (t.kmem.desc t.fileCache).slabOrder

instance (t : Ftable) : Decidable (NoFile t) :=
  inferInstanceAs (Decidable (_ ∨ _ ∨ _ ∧ _ ∧ ∀ i < _, _))

/-- No last reference is closed: not by `fileclose`, and not by `pipealloc`, which closes what it
opened. -/
def NoLastClose (s : State) : Event → Prop
  | .fileclose f _ => fileRef s.table.kmem.mem f ≠ 1
  | .pipealloc _ => NoFile s.table
  | _ => True

instance (s : State) : ∀ e, Decidable (NoLastClose s e)
  | .fileclose f _ => inferInstanceAs (Decidable (fileRef s.table.kmem.mem f ≠ 1))
  | .pipealloc _ => inferInstanceAs (Decidable (NoFile s.table))
  | .filealloc | .filedup _ | .write _ _ _ => isTrue trivial

/-- The live objects of `file_cache`. -/
def State.files (s : State) : Set Nat := s.table.kmem.liveObjects s.table.fileCache

/-- The three counts agree. -/
structure Accounted (s : State) : Prop where
  /-- `nfiles` is the number of live objects, and of those with a reference. -/
  live : s.table.nfiles = s.files.ncard
  referenced : s.table.nfiles = {f ∈ s.files | 1 ≤ fileRef s.table.kmem.mem f}.ncard
  /-- `ref` is the number of outstanding references. -/
  refs : ∀ f ∈ s.files, 1 ≤ fileRef s.table.kmem.mem f → fileRef s.table.kmem.mem f = s.refs.count f
  outstanding : ∀ f ∈ s.refs, f ∈ s.files
  /-- At most `NFILE` are live, and none after all references are closed. -/
  bounded : s.files.Finite ∧ (s.files.ncard : Int) ≤ nfile
  closed : s.refs = [] → s.files = ∅

/-! ### The invariant -/

section Invariant

variable {s s' : State} {t t' : Ftable} {k : Kmem} {f ff space : Nat} {blockNum : Int} {e : Event}

/-- The allocation of a file. -/
def fileObject (t : Ftable) (f : Nat) : Allocation := .object t.fileCache f fileSize

theorem fileObject_congr {t t' : Ftable} (cache : t'.fileCache = t.fileCache) :
    fileObject t' = fileObject t := by
  unfold fileObject
  rw [cache]

/-- The invariant: the objects that the table holds are those with outstanding references. -/
structure Inv (s : State) (space : Nat) (blockNum : Int) : Prop where
  sound : ∃ held, Sound s.table.kmem held space blockNum ∧ ∀ f, fileObject s.table f ∈ held ↔
      f ∈ s.refs
  cache : s.table.fileCache = 0 ∨ s.table.kmem.Used s.table.fileCache ∧
    (s.table.kmem.desc s.table.fileCache).objectSize = fileSize
  counted : ∀ f ∈ s.refs, fileRef s.table.kmem.mem f = s.refs.count f
  counter : s.table.nfiles = s.refs.toFinset.card
  bounded : s.table.nfiles ≤ nfile

/-- The live files are those with outstanding references. -/
theorem Inv.files_eq (inv : Inv s space blockNum) : s.files = {f | f ∈ s.refs} := by
  obtain ⟨held, sound, same⟩ := inv.sound
  unfold State.files
  rw [sound.liveObjects_eq]
  ext f
  rw [Set.mem_ofPred_eq, Set.mem_ofPred_eq, ← same]
  rcases inv.cache with null | ⟨_, isSize⟩
  · -- Without a cache there are no objects: caches in use are not null.
    have notUsed : ∀ f size, .object s.table.fileCache f size ∉ held := by
      intro f size isHeld
      obtain ⟨v, core, _⟩ := sound.view
      exact (core.pool.used_bounds (sound.used_of_held isHeld).1).1 null
    exact ⟨fun isHeld => absurd isHeld (notUsed _ _), fun isHeld => absurd isHeld (notUsed _ _)⟩
  · rw [isSize]
    exact Iff.rfl

theorem Inv.accounted (inv : Inv s space blockNum) : Accounted s := by
  have files := inv.files_eq
  have isFinset : s.files = (s.refs.toFinset : Set Nat) := by
    rw [files]
    ext f
    rw [List.coe_toFinset]
  have referenced : {f ∈ s.files | 1 ≤ fileRef s.table.kmem.mem f} = s.files := by
    ext f
    rw [Set.mem_sep_iff, and_iff_left_iff_imp, files]
    intro isOpen
    rw [inv.counted f isOpen]
    exact_mod_cast List.count_pos_iff.mpr isOpen
  have card : s.table.nfiles = s.files.ncard := by
    rw [isFinset, Set.ncard_coe_finset, inv.counter]
  refine ⟨card, by rw [referenced]; exact card, ?_, ?_, ⟨?_, card ▸ inv.bounded⟩, ?_⟩
  · intro f isLive _
    rw [files] at isLive
    exact inv.counted f isLive
  · intro f isOpen
    rw [files]
    exact isOpen
  · rw [isFinset]
    exact Finset.finite_toSet _
  · intro none
    rw [isFinset, none, List.toFinset_nil, Finset.coe_empty]

/-- The reference count of a file is in its object. -/
theorem ref_bytes {addr : Nat} (low : f + 4 ≤ addr) (high : addr < f + 4 + 4) :
    addr ∈ (fileObject t f).bytes :=
  ⟨by show f ≤ addr; omega, by show addr < f + 40; omega⟩

/-- A write inside one file leaves the reference counts of the others. -/
theorem fileRef_other {held : List Allocation} (sound : Sound k held space blockNum) {g : Nat}
    (isFile : fileObject t f ∈ held) (other : fileObject t g ∈ held) (ne : g ≠ f) {mem : Mem}
    (outside : SameOutside (fileObject t f).bytes k.mem mem) : fileRef mem g = fileRef k.mem g := by
  unfold fileRef
  rw [outside.load]
  intro addr low high inside
  have apart :=
    sound.held_disjoint isFile other (fun eq => ne (by injection eq with _ same; exact same.symm))
  exact Set.disjoint_left.mp apart inside (ref_bytes low high)

/-- A stored reference count reads back. -/
theorem fileRef_store {mem : Mem} {ref : Int} (nonneg : 0 ≤ ref) (small : ref < 2 ^ 31) :
    fileRef (store mem (f + 4) 4 (ref % 2 ^ 32).toNat) f = ref := by
  have isNat : (ref % 2 ^ 32).toNat = ref.toNat := by omega
  have fits : ref.toNat < 256 ^ 4 := by omega
  unfold fileRef
  rw [isNat, load_store_same fits, toInt32_of_lt (by omega)]
  omega

theorem setRef_outside (mem : Mem) (ref : Nat) :
    SameOutside (fileObject t f).bytes mem (store mem (f + 4) 4 ref) :=
  (store_sameOutside mem (f + 4) 4 ref).mono fun _ inside => ref_bytes inside.1 inside.2

/-- A write inside an open file, with its references counted anew. -/
theorem Inv.writeFile (inv : Inv s space blockNum) (isOpen : f ∈ s.refs) {mem : Mem}
    {refs : List Nat} (outside : SameOutside (fileObject s.table f).bytes s.table.kmem.mem mem)
    (here : fileRef mem f = refs.count f) (others : ∀ g ≠ f, refs.count g = s.refs.count g)
    (members : ∀ g, g ∈ refs ↔ g ∈ s.refs) : Inv ⟨s.table.setMem mem, refs⟩ space blockNum := by
  obtain ⟨held, sound, same⟩ := inv.sound
  have isFile := (same f).mpr isOpen
  have sameSet : refs.toFinset = s.refs.toFinset := by
    ext g
    rw [List.mem_toFinset, List.mem_toFinset, members]
  refine ⟨⟨held, sound.writeObject isFile outside, fun g => ?_⟩, inv.cache, ?_, ?_, inv.bounded⟩
  · rw [members]
    exact same g
  · intro g isOpen'
    by_cases eq : g = f
    · rw [eq]
      exact here
    · have other := (same g).mpr ((members g).mp isOpen')
      show fileRef mem g = _
      rw [fileRef_other sound isFile other eq outside, others g eq]
      exact inv.counted g ((members g).mp isOpen')
  · rw [sameSet]
    exact inv.counter

/-- A reference count lies between one and the largest `int`. -/
theorem Inv.ref_pos (inv : Inv s space blockNum) (isOpen : f ∈ s.refs) :
    1 ≤ fileRef s.table.kmem.mem f := by
  rw [inv.counted f isOpen]
  exact_mod_cast List.count_pos_iff.mpr isOpen

theorem fileRef_lt (mem : Mem) (f : Nat) : fileRef mem f < 2 ^ 31 := by
  unfold fileRef toInt32
  exact lt_of_lt_of_eq (Int.bmod_lt (by norm_num)) (by norm_num)

/-- `filedup` of an open file. -/
theorem Inv.filedup (inv : Inv s space blockNum) (isOpen : f ∈ s.refs)
    (call : s.table.filedup f = .ok t) : Inv ⟨t, f :: s.refs⟩ space blockNum := by
  have pos := inv.ref_pos isOpen
  have lt := fileRef_lt s.table.kmem.mem f
  unfold Ftable.filedup at call
  simp only at call
  rw [if_neg (by omega)] at call
  by_cases full : fileRef s.table.kmem.mem f = 2 ^ 31 - 1
  · rw [if_pos full] at call
    cases call
  · rw [if_neg full, Except.ok.injEq] at call
    subst call
    refine inv.writeFile isOpen (setRef_outside _ _) ?_ ?_ ?_
    · rw [fileRef_store (by omega) (by omega), List.count_cons_self, inv.counted f isOpen]
      push_cast
      rfl
    · exact fun g ne => List.count_cons_of_ne (Ne.symm ne)
    · intro g
      rw [List.mem_cons, or_iff_right_iff_imp]
      rintro rfl
      exact isOpen

/-- `fileclose` of a reference that is not the last one. -/
theorem Inv.fileclose (inv : Inv s space blockNum) (isOpen : f ∈ s.refs)
    (notLast : fileRef s.table.kmem.mem f ≠ 1) (call : s.table.fileclose f ff = .ok t) :
    Inv ⟨t, s.refs.erase f⟩ space blockNum := by
  have pos := inv.ref_pos isOpen
  have lt := fileRef_lt s.table.kmem.mem f
  have counted := inv.counted f isOpen
  unfold Ftable.fileclose at call
  simp only at call
  rw [if_neg (by omega), if_pos (by omega), Except.ok.injEq] at call
  subst call
  refine inv.writeFile isOpen (setRef_outside _ _) ?_ ?_ ?_
  · rw [fileRef_store (by omega) (by omega), List.count_erase_self, counted]
    omega
  · exact fun g ne => List.count_erase_of_ne ne
  · intro g
    by_cases eq : g = f
    · rw [eq, ← List.count_pos_iff, List.count_erase_self]
      exact iff_of_true (by omega) isOpen
    · exact List.mem_erase_of_ne eq

/-- A call of the allocator that leaves the files alone. -/
theorem Inv.leaves (inv : Inv s space blockNum) {held : List Allocation}
    (leaves : Leaves s.table.kmem k held) (sound : Sound k held space blockNum)
    (same : ∀ f, fileObject s.table f ∈ held ↔ f ∈ s.refs) :
    Inv ⟨{ s.table with kmem := k }, s.refs⟩ space blockNum := by
  refine ⟨⟨held, sound, same⟩, ?_, ?_, inv.counter, inv.bounded⟩
  · rcases inv.cache with null | ⟨used, isSize⟩
    · exact Or.inl null
    · exact Or.inr ⟨(leaves.used _).mpr used, (leaves.objectSize _).trans isSize⟩
  · intro f isOpen
    show fileRef k.mem f = _
    rw [← inv.counted f isOpen]
    unfold fileRef
    rw [load_congr]
    exact fun addr low high => leaves.contents addr ⟨_, (same f).mpr isOpen, ref_bytes low high⟩

/-- The memory of a file that `filealloc` returns. -/
def fresh (mem : Mem) (f : Nat) : Mem := store (fill mem f fileSize 0) (f + 4) 4 1

theorem fresh_outside (mem : Mem) (f : Nat) :
    SameOutside (fileObject t f).bytes mem (fresh mem f) :=
  SameOutside.trans (fill_sameOutside mem f fileSize 0) (setRef_outside _ _)

theorem fileRef_fresh (mem : Mem) (f : Nat) : fileRef (fresh mem f) f = 1 := by
  unfold fileRef fresh
  rw [load_store_same (by norm_num)]
  exact toInt32_of_lt (by norm_num)

/-- `filealloc` after the call of the allocator. -/
theorem filealloc_eq (room : ¬ nfile ≤ t.nfiles)
    (alloc : t.kmem.kmemCacheAlloc t.fileCache = .ok (k, f)) :
    t.filealloc = .ok (if f = 0 then ({ t with kmem := k }, 0)
      else ({ t with kmem := k.setMem (fresh k.mem f), nfiles := t.nfiles + 1 }, f)) := by
  unfold Ftable.filealloc
  simp only [if_neg room, alloc, bind, Except.bind, pure, Except.pure, Int.add_sub_cancel]
  split_ifs <;> rfl

/-- A new file. -/
theorem Inv.gain (inv : Inv s space blockNum) {held : List Allocation}
    (leaves : Leaves s.table.kmem k held) (same : ∀ f, fileObject s.table f ∈ held ↔ f ∈ s.refs)
    (notHeld : fileObject s.table f ∉ held)
    (sound : Sound k (fileObject s.table f :: held) space blockNum)
    (room : ¬ nfile ≤ s.table.nfiles) :
    Inv ⟨{ s.table with kmem := k.setMem (fresh k.mem f), nfiles := s.table.nfiles + 1 },
      f :: s.refs⟩
      space blockNum := by
  have notOpen : f ∉ s.refs := fun isOpen => notHeld ((same f).mpr isOpen)
  refine ⟨⟨fileObject s.table f :: held,
    sound.writeObject List.mem_cons_self (fresh_outside k.mem f), ?_⟩, ?_, ?_, ?_,
    by show s.table.nfiles + 1 ≤ nfile; omega⟩
  · intro g
    rw [List.mem_cons, List.mem_cons, ← same]
    refine or_congr ⟨fun eq => ?_, fun eq => congrArg _ eq⟩ Iff.rfl
    injection eq
  · rcases inv.cache with null | ⟨used, isSize⟩
    · exact Or.inl null
    · exact Or.inr ⟨(leaves.used _).mpr used, (leaves.objectSize _).trans isSize⟩
  · intro g isOpen
    by_cases eq : g = f
    · rw [eq, List.count_cons_self, List.count_eq_zero_of_not_mem notOpen]
      exact fileRef_fresh k.mem f
    · have before := (List.mem_cons.mp isOpen).resolve_left eq
      have isHeld := (same g).mpr before
      show fileRef (fresh k.mem f) g = _
      rw [fileRef_other sound List.mem_cons_self (List.mem_cons_of_mem _ isHeld) eq
        (fresh_outside k.mem f), List.count_cons_of_ne (Ne.symm eq), ← inv.counted g before]
      unfold fileRef
      rw [load_congr]
      exact fun addr low high => leaves.contents addr ⟨_, isHeld, ref_bytes low high⟩
  · rw [List.toFinset_cons, Finset.card_insert_of_notMem (by rwa [List.mem_toFinset])]
    show s.table.nfiles + 1 = _
    rw [inv.counter]
    push_cast
    rfl

/-- `filealloc` fails exactly when it has no file to give. -/
theorem filealloc_null_iff {held : List Allocation} (sound : Sound t.kmem held space blockNum)
    (cache : t.fileCache = 0 ∨ t.kmem.Used t.fileCache) (call : t.filealloc = .ok (t', f)) :
    f = 0 ↔ NoFile t := by
  by_cases full : nfile ≤ t.nfiles
  · rw [Ftable.filealloc, if_pos full, Except.ok.injEq, Prod.mk.injEq] at call
    exact iff_of_true call.2.symm (Or.inl full)
  have result : ∀ {k obj}, t.kmem.kmemCacheAlloc t.fileCache = .ok (k, obj) → f = obj := by
    intro k obj alloc
    rw [filealloc_eq full alloc, Except.ok.injEq] at call
    split_ifs at call with null
    · exact (Prod.mk.inj call).2.symm.trans null.symm
    · exact (Prod.mk.inj call).2.symm
  rcases cache with null | used
  · refine iff_of_true (result (k := t.kmem) ?_) (Or.inr (Or.inl null))
    rw [null]
    rfl
  · obtain ⟨k, obj, alloc, null, _⟩ := sound.kmemCacheAlloc used
    obtain ⟨v, core, _⟩ := sound.view
    rw [result alloc, null, sound.idle _ used, sound.exhausted_iff used]
    unfold NoFile
    rw [or_iff_right full, or_iff_right (core.pool.used_bounds used).1,
      or_iff_right Bool.false_ne_true]

/-- **What `filealloc` does**: no file and no change to the table, or a new file with one
reference. -/
theorem Inv.filealloc (inv : Inv s space blockNum) (call : s.table.filealloc = .ok (t, f)) :
    Inv ⟨t, if f = 0 then s.refs else f :: s.refs⟩ space blockNum := by
  obtain ⟨held, sound, same⟩ := inv.sound
  by_cases full : nfile ≤ s.table.nfiles
  · rw [Ftable.filealloc, if_pos full, Except.ok.injEq, Prod.mk.injEq] at call
    obtain ⟨rfl, rfl⟩ := call
    exact inv
  · rcases inv.cache with null | ⟨used, isSize⟩
    · have none : s.table.kmem.kmemCacheAlloc s.table.fileCache = .ok (s.table.kmem, 0) := by
        rw [null]
        rfl
      rw [filealloc_eq full none, if_pos rfl, Except.ok.injEq, Prod.mk.injEq] at call
      obtain ⟨rfl, rfl⟩ := call
      exact inv
    · obtain ⟨k, obj, alloc, leaves, ⟨rfl, sound'⟩ | ⟨nonzero, notHeld, sound'⟩⟩ :=
        sound.alloc_cases used
      · rw [filealloc_eq full alloc, if_pos rfl, Except.ok.injEq, Prod.mk.injEq] at call
        obtain ⟨rfl, rfl⟩ := call
        exact inv.leaves leaves sound' same
      · rw [filealloc_eq full alloc, if_neg nonzero, Except.ok.injEq, Prod.mk.injEq] at call
        obtain ⟨rfl, rfl⟩ := call
        rw [isSize] at notHeld sound'
        rw [if_neg nonzero]
        exact inv.gain leaves same notHeld sound' full

/-- A `pipealloc` without a file to give. -/
theorem Inv.pipealloc (inv : Inv s space blockNum) {made : Bool} {f0 f1 : Nat}
    (none : NoFile s.table) (call : s.table.pipealloc ff = .ok (t, made, f0, f1)) :
    made = false ∧ Inv ⟨t, s.refs⟩ space blockNum := by
  obtain ⟨held, sound, _⟩ := inv.sound
  unfold Ftable.pipealloc at call
  obtain ⟨⟨t', f⟩, first, call⟩ := bind_eq_ok call
  obtain rfl := (filealloc_null_iff sound (inv.cache.imp_right And.left) first).mpr none
  have after := inv.filealloc first
  rw [if_pos rfl] at after
  have nothing : t'.pipeBad 0 0 0 ff = .ok t' := rfl
  simp only [if_true, nothing, bind, Except.bind, pure, Except.pure, Except.ok.injEq, Prod.mk.injEq]
    at call
  obtain ⟨rfl, rfl, _⟩ := call
  exact ⟨rfl, after⟩

/-- A write to another field of an open file. -/
theorem Inv.writeField (inv : Inv s space blockNum) (isOpen : f ∈ s.refs) {offset : Nat}
    (byte : UInt8) (inside : offset < fileSize) (notRef : offset < 4 ∨ 8 ≤ offset) :
    Inv ⟨s.table.setMem (Function.update s.table.kmem.mem (f + offset) byte),
      s.refs⟩ space blockNum := by
  refine inv.writeFile isOpen ?_ ?_ (fun _ _ => rfl) fun _ => Iff.rfl
  · intro addr outside
    refine Function.update_of_ne ?_ ..
    rintro rfl
    exact outside ⟨Nat.le_add_right f offset, Nat.add_lt_add_left inside f⟩
  · rw [← inv.counted f isOpen]
    unfold fileRef
    rw [load_congr]
    intro addr low high
    exact Function.update_of_ne (by omega) ..

/-- **One call keeps the invariant, unless it closes a last reference.** -/
theorem Inv.step (inv : Inv s space blockNum) (guard : NoLastClose s e)
    (taken : step s e = some s') :
    Inv s' space blockNum := by
  cases e with
  | filealloc =>
    simp only [Files.step] at taken
    split at taken
    · next t f call =>
      rw [Option.some.injEq] at taken
      subst taken
      exact inv.filealloc call
    · cases taken
  | filedup f =>
    simp only [Files.step] at taken
    rw [Option.ite_none_right_eq_some] at taken
    obtain ⟨isOpen, taken⟩ := taken
    split at taken
    · next t call =>
      rw [Option.some.injEq] at taken
      subst taken
      exact inv.filedup isOpen call
    · cases taken
  | fileclose f ff =>
    simp only [Files.step] at taken
    rw [Option.ite_none_right_eq_some] at taken
    obtain ⟨⟨isOpen, _⟩, taken⟩ := taken
    split at taken
    · next t call =>
      rw [Option.some.injEq] at taken
      subst taken
      exact inv.fileclose isOpen guard call
    · cases taken
  | pipealloc ff =>
    simp only [Files.step] at taken
    rw [Option.ite_none_right_eq_some] at taken
    obtain ⟨_, taken⟩ := taken
    split at taken
    · next t made f0 f1 call =>
      obtain ⟨rfl, after⟩ := inv.pipealloc guard call
      rw [Option.some.injEq] at taken
      subst taken
      exact after
    · cases taken
  | write f offset byte =>
    simp only [Files.step] at taken
    rw [Option.ite_none_right_eq_some, Option.some.injEq] at taken
    obtain ⟨⟨isOpen, inside, notRef⟩, rfl⟩ := taken
    exact inv.writeField isOpen byte inside notRef

/-- `fileclose` of a last reference: its local variable is on no page of a slab, so
`kmem_cache_free` rejects it and the file stays allocated. -/
theorem fileclose_last {held : List Allocation} (sound : Sound t.kmem held space blockNum)
    (isFile : fileObject t f ∈ held) (last : fileRef t.kmem.mem f = 1)
    (noSlab : t.kmem.ownerOf ff = 0) :
    ∃ k, t.fileclose f ff = .ok { t with kmem := k, nfiles := t.nfiles - 1 } ∧
      Sound k held space blockNum ∧
      Calm t.kmem k ∧ k.freeBlocks = t.kmem.freeBlocks ∧
      SameOutside (fileObject t f).bytes t.kmem.mem k.mem := by
  have cleared : ∃ mem, SameOutside (fileObject t f).bytes t.kmem.mem mem ∧
      t.fileclose f ff = ((t.kmem.setMem mem).kmemCacheFree t.fileCache ff).map
        fun k => { t with kmem := k, nfiles := t.nfiles - 1 } := by
    refine ⟨store (store (store t.kmem.mem (f + 4) 4 ((0 : Int) % 2 ^ 32).toNat) (f + 4) 4
      ((0 : Int) % 2 ^ 32).toNat) f 4 0, ?_, ?_⟩
    · have type : ∀ mem : Mem, SameOutside (fileObject t f).bytes mem (store mem f 4 0) :=
        fun mem =>
        (store_sameOutside mem f 4 0).mono fun addr inside =>
          ⟨inside.1, lt_of_lt_of_le inside.2 (show f + 4 ≤ f + 40 by omega)⟩
      exact ((setRef_outside _ ((0 : Int) % 2 ^ 32).toNat).trans
        (setRef_outside _ ((0 : Int) % 2 ^ 32).toNat)).trans (type _)
    · unfold Ftable.fileclose
      simp only [last, Int.sub_self, lt_irrefl, if_false]
      rfl
  obtain ⟨mem, outside, call⟩ := cleared
  have written := sound.writeObject isFile outside
  have calm : Calm t.kmem (t.kmem.setMem mem) := ⟨rfl, rfl, fun _ => rfl, rfl⟩
  by_cases null : t.fileCache = 0 ∨ ff = 0
  · have free : (t.kmem.setMem mem).kmemCacheFree t.fileCache ff = .ok (t.kmem.setMem mem) :=
      if_pos null
    rw [free] at call
    exact ⟨_, call, written, calm, rfl, outside⟩
  · have free : (t.kmem.setMem mem).kmemCacheFree t.fileCache ff =
        .ok ((t.kmem.setMem mem).modifyDesc t.fileCache fun d =>
          { d with errorCode := .cacheMismatch }) := by
      unfold kmemCacheFree
      rw [if_neg null]
      simp only
      rw [if_pos (show (t.kmem.setMem mem).ownerOf ff = 0 from noSlab)]
    obtain ⟨v, core, view⟩ := written.view
    have keeps := core.setError t.fileCache .cacheMismatch
    rw [free] at call
    exact ⟨_, call, written.keeps view keeps, calm.trans keeps.calm, rfl, outside⟩

/-- **Every `fileclose` of a last reference leaks the file.** -/
theorem Inv.fileclose_leaks (inv : Inv s space blockNum) (isOpen : f ∈ s.refs)
    (last : fileRef s.table.kmem.mem f = 1) (noSlab : s.table.kmem.ownerOf ff = 0) :
    ∃ t, s.table.fileclose f ff = .ok t ∧ State.files ⟨t, s.refs.erase f⟩ = s.files ∧
      t.nfiles = s.table.nfiles - 1 := by
  obtain ⟨held, sound, same⟩ := inv.sound
  obtain ⟨k, call, after, calm, _⟩ := fileclose_last sound ((same f).mpr isOpen) last noSlab
  refine ⟨_, call, ?_, rfl⟩
  show k.liveObjects s.table.fileCache = s.table.kmem.liveObjects s.table.fileCache
  rw [after.liveObjects_eq, sound.liveObjects_eq,
    (KmemCache.SameShape.of_layout (calm.layout _)).objectSize]

/-- **After `fileinit`** no file is open. -/
theorem inv_fileinit {held : List Allocation} (sound : Sound k held space blockNum)
    (call : Ftable.fileinit k = .ok t) : Inv ⟨t, []⟩ space blockNum := by
  obtain ⟨⟨k₁, c⟩, create, call⟩ := bind_eq_ok call
  have sound₁ := sound.create (by norm_num) (fun _ isCtor => by cases isCtor) create
  obtain ⟨k₂, d, kmalloc, leaves, sound₂⟩ := sound₁.kmalloc_cases (16 * 10)
  simp only [kmalloc, bind, Except.bind, pure, Except.pure, Except.ok.injEq] at call
  subst call
  have cache : c = 0 ∨ ¬ k.Used c ∧ k₁.Used c ∧ (k₁.desc c).objectSize = fileSize ∧
      k₁.kmallocCaches = k.kmallocCaches := by
    obtain ⟨v, core, _⟩ := sound.view
    rcases core.kmemCacheCreate_spec none (show fileSize < 2 ^ 64 by norm_num) (by decide)
      (fun _ isCtor => by cases isCtor) with ⟨k', run, _⟩ |
      ⟨k', c', run, _, fresh, used, isSize, recast⟩
    · rw [run, Except.ok.injEq, Prod.mk.injEq] at create
      exact Or.inl create.2.symm
    · rw [run, Except.ok.injEq, Prod.mk.injEq] at create
      obtain ⟨rfl, rfl⟩ := create
      exact Or.inr ⟨fresh, used, isSize, recast.kmalloc⟩
  -- The cache is new, so neither earlier objects nor the one for `devsw` belong to it.
  have notHeld : ∀ f, .object c f fileSize ∉ held := by
    intro f isHeld
    obtain ⟨used, _⟩ := sound.used_of_held isHeld
    rcases cache with rfl | ⟨fresh, _⟩
    · obtain ⟨v, core, _⟩ := sound.view
      exact (core.pool.used_bounds used).1 rfl
    · exact fresh used
  refine ⟨?_, ?_, fun f isOpen => absurd isOpen List.not_mem_nil, rfl,
    show (0 : Int) ≤ 100 by norm_num⟩
  · rcases sound₂ with ⟨_, sound₂⟩ | ⟨_, j, lt, _, _, sound₂⟩
    · exact ⟨held, sound₂, fun f => iff_of_false (notHeld f) List.not_mem_nil⟩
    · refine ⟨_, sound₂, fun f => iff_of_false ?_ List.not_mem_nil⟩
      rw [List.mem_cons, not_or]
      refine ⟨fun eq => ?_, notHeld f⟩
      injection eq with same
      rcases cache with rfl | ⟨fresh, _, _, kmallocCaches⟩
      · obtain ⟨v, core, _⟩ := sound₁.view
        exact (core.pool.used_bounds (sound₁.kmalloc j lt).1).1 same.symm
      · rw [kmallocCaches] at same
        have same' : c = k.kmallocCaches j := same
        exact fresh (same' ▸ (sound.kmalloc j lt).1)
  · rcases cache with null | ⟨_, used, isSize, _⟩
    · exact Or.inl null
    · exact Or.inr ⟨(leaves.used _).mpr used, (leaves.objectSize _).trans isSize⟩

end Invariant

/-! ### Every state reached -/

section Runs

variable {k₀ k : Kmem} {held : List Allocation} {space : Nat} {blockNum : Int} {isKernel : Bool}
  {t : Ftable} {s : State} {events : List Event}

/-- **The three counts agree in every state reached from `fileinit` without closing a last
reference.** -/
theorem accounted_of_noLastClose (given : Space space blockNum) (head : k₀.headOfCacheList = 0)
    (tail : k₀.tailOfCacheList = 0) (run : Kmem.Run k₀ space blockNum isKernel k held)
    (init : Ftable.fileinit k = .ok t) (guarded : Along step NoLastClose ⟨t, []⟩ events)
    (reached : Machine.run step ⟨t, []⟩ events = some s) : Accounted s := by
  have start : Inv ⟨t, []⟩ space blockNum := inv_fileinit (run.sound given head tail) init
  exact (inv_of_run (fun _ _ _ inv guard taken => Inv.step inv guard taken) events start guarded
    reached).accounted

/-- A file is opened, its reference duplicated and one of the two closed. -/
def dupClose : List Event :=
  [.filealloc, .filedup 2185220320, .write 2185220320 0 2, .fileclose 2185220320 (kstack 0 + 3000)]

theorem accounted_of_noLastClose_dupClose : ∃ k t s, Kmem.Run zeroed 0x80030000 32720 true k [] ∧
    Ftable.fileinit k = .ok t ∧ run step ⟨t, []⟩ dupClose = some s ∧ Accounted s := by
  obtain ⟨t, call, observed⟩ :=
    exists_ok ((zeroed.kmemInit 0x80030000 32720 true) >>= Ftable.fileinit)
    (fun t => (decide (Along step NoLastClose ⟨t, []⟩ dupClose),
      (run step ⟨t, []⟩ dupClose).isSome))
    (true, true) (by decide +kernel)
  obtain ⟨k, kmemInit, init⟩ := bind_eq_ok call
  rw [Prod.mk.injEq, decide_eq_true_eq, Option.isSome_iff_exists] at observed
  obtain ⟨guarded, s, reached⟩ := observed
  exact ⟨k, t, s, .init kmemInit, init, reached,
    accounted_of_noLastClose space_kernelHeap rfl rfl (.init kmemInit) init guarded reached⟩

theorem step_fileclose {f ff : Nat} (isOpen : f ∈ s.refs) (onStack : OnStack ff)
    (call : s.table.fileclose f ff = .ok t) :
    step s (.fileclose f ff) = some ⟨t, s.refs.erase f⟩ := by
  simp only [step, if_pos (And.intro isOpen onStack), call]

/-- A file is opened and closed. -/
def openClose : List Event := [.filealloc, .fileclose 2185220320 (kstack 0 + 3000)]

/-- After `openClose` no reference is outstanding and `nfiles` is zero, but the object is still
live. -/
theorem openClose_leaks : ∃ k t s, Kmem.Run zeroed 0x80030000 32720 true k [] ∧
    Ftable.fileinit k = .ok t ∧ run step ⟨t, []⟩ openClose = some s ∧ s.refs = [] ∧
      s.table.nfiles = 0 ∧ s.files = {2185220320} ∧ ¬ Accounted s := by
  obtain ⟨t, call, observed⟩ :=
    exists_ok ((zeroed.kmemInit 0x80030000 32720 true) >>= Ftable.fileinit)
    (fun t =>
      (t.filealloc.map fun r => (r.2, r.1.nfiles, r.1.kmem.ownerOf (kstack 0 + 3000))).toOption)
    (some (2185220320, 1, 0)) (by decide +kernel)
  obtain ⟨k, kmemInit, init⟩ := bind_eq_ok call
  obtain ⟨⟨t₁, f⟩, alloc, observed⟩ := exists_ok t.filealloc _ _ observed
  simp only [Prod.mk.injEq] at observed
  obtain ⟨isFile, one, noSlab⟩ := observed
  have nonzero : f ≠ 0 := by omega
  have erased : [f].erase f = [] := List.erase_cons_head ..
  have inv : Inv ⟨t₁, [f]⟩ 0x80030000 32720 := by
    have after :=
      (inv_fileinit ((Kmem.Run.init kmemInit).sound space_kernelHeap rfl rfl) init).filealloc alloc
    rw [if_neg nonzero] at after
    exact after
  have isOpen : f ∈ [f] := List.mem_singleton_self f
  have last : fileRef t₁.kmem.mem f = 1 := by
    have counted := inv.counted f isOpen
    rw [List.count_singleton_self] at counted
    exact counted
  obtain ⟨t₂, close, files, less⟩ := inv.fileclose_leaks isOpen last noSlab
  have live : State.files ⟨t₂, []⟩ = {f} := by
    rw [erased] at files
    refine files.trans (inv.files_eq.trans ?_)
    ext g
    exact List.mem_singleton
  have zero : t₂.nfiles = 0 := by
    rw [less]
    show t₁.nfiles - 1 = 0
    rw [one]
    rfl
  refine ⟨k, t, ⟨t₂, []⟩, .init kmemInit, init, ?_, rfl, zero, ?_, fun accounted => ?_⟩
  · have onStack : OnStack (kstack 0 + 3000) :=
      ⟨0, by norm_num, by omega, show kstack 0 + 3000 + 40 ≤ kstack 0 + 4096 by omega⟩
    have first : step ⟨t, []⟩ .filealloc = some ⟨t₁, [f]⟩ := by
      simp only [step, alloc]
      rw [if_neg nonzero]
    have second : step ⟨t₁, [f]⟩ (.fileclose f (kstack 0 + 3000)) = some ⟨t₂, []⟩ := by
      rw [step_fileclose isOpen onStack close, erased]
    rw [openClose, ← isFile, run_cons, first, Option.bind_some, run_cons, second]
    rfl
  · rw [live]
    exact congrArg (fun g => ({g} : Set Nat)) isFile
  · have none := accounted.closed rfl
    rw [live] at none
    exact Set.singleton_ne_empty _ none

end Runs

end Files

end Xv6Slab
