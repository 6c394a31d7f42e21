/-
**What the boot code leaves in memory that it got from `kmalloc`.**

`devsw`, the process table and `struct log` used to be static and zero; now they come from
`kmalloc`, which does not clear memory. `fileinit`, `consoleinit`, `procinit` and `initlog` write
some of their fields.

* `boot` — `main` with the four functions; it keeps what memory `kmalloc` had returned as history.
* `Elsewhere` — what the rest of the kernel does between them.
* `Null` — the fields that later code reads before it writes them are null.
* `null_iff_given` — **they are null after the boot code exactly when they were in the memory that
  `kmalloc` returned.**
-/

import Xv6Slab.Kernel.File
import Xv6Slab.Kernel.Isolation
import Xv6Slab.Kernel.Log.Model

namespace Xv6Slab

namespace Boot

open Bytes Kmem Files

/-! ### The code -/

/-- Addresses in the kernel image. -/
structure Image where
  consoleread : Nat
  consolewrite : Nat
  procName : Nat
  logName : Nat

/-- `NPROC`. -/
abbrev nproc : Nat := 64

/-- `NDEV`. -/
abbrev ndev : Nat := 10

/-- `CONSOLE`. -/
abbrev console : Nat := 1

/-- `sizeof(struct proc)`. -/
abbrev procSize : Nat := 400

/-- `sizeof(struct log)`. -/
abbrev logSize : Nat := 168

/-- `initlock`. -/
def initlock (mem : Mem) (lk name : Nat) : Mem :=
  let mem := store mem (lk + 8) 8 name
  let mem := store mem lk 4 0
  store mem (lk + 16) 8 0

/-- `consoleinit`: the allocator and `cons.buf`. A null `devsw` is dereferenced. -/
def consoleinit (image : Image) (t : Ftable) : Except Fault (Kmem × Nat) := do
  let (k, buf) ← t.kmem.kmalloc 128
  if buf = 0 then .error (.panic "error: consoleinit")
  else if t.devsw = 0 then .error (.panic "kerneltrap")
  else
    let mem := store k.mem (t.devsw + 16 * console) 8 image.consoleread
    let mem := store mem (t.devsw + 16 * console + 8) 8 image.consolewrite
    return (k.setMem mem, buf)

/-- One round of the loop of `procinit`. -/
def initSlot (image : Image) (proc : Nat) (mem : Mem) (i : Nat) : Mem :=
  let p := proc + procSize * i
  let mem := initlock mem p image.procName
  let mem := store mem (p + 24) 4 0
  store mem (p + 64) 8 (kstack i)

/-- `procinit`: the allocator, `proc`, and the memory as `kmalloc` returned it. A null `proc` is
dereferenced. -/
def procinit (image : Image) (k : Kmem) : Except Fault (Kmem × Nat × Mem) := do
  let (k, proc) ← k.kmalloc (nproc * procSize)
  if proc = 0 then .error (.panic "kerneltrap")
  else return (k.setMem ((List.range nproc).foldl (initSlot image proc) k.mem), proc, k.mem)

/-- The log header on disk: at most `LOGBLOCKS` block numbers. -/
abbrev Header := {blocks : List Nat // blocks.length ≤ Log.logblocks}

/-- What `read_head` and `recover_from_log` write to `log->lh`. -/
def recoverHeader (mem : Mem) (log : Nat) (header : Header) : Mem :=
  let mem := store mem (log + 40) 4 header.1.length
  let mem :=
    header.1.zipIdx.foldl (fun mem entry => store mem (log + 44 + 4 * entry.2) 4 entry.1) mem
  store mem (log + 40) 4 0

/-- `initlog`: the allocator, `log`, and the memory as `kmalloc` returned it. A null `log` is
dereferenced. -/
def initlog (image : Image) (dev logstart : Nat) (header : Header) (k : Kmem) :
    Except Fault (Kmem × Nat × Mem) := do
  let (k, log) ← k.kmalloc logSize
  if log = 0 then .error (.panic "kerneltrap")
  else
    let mem := initlock k.mem log image.logName
    let mem := store mem (log + 24) 4 logstart
    let mem := store mem (log + 36) 4 dev
    return (k.setMem (recoverHeader mem log header), log, k.mem)

/-- The tables after the boot code. As history, the memory that each `kmalloc` had returned, and the
states before and after what the kernel does between `consoleinit` and `procinit`, and between
`procinit` and `initlog`. -/
structure Tables where
  kmem : Kmem
  devsw : Nat
  proc : Nat
  log : Nat
  devswGiven : Mem
  procGiven : Mem
  logGiven : Mem
  early : Kmem × Kmem
  late : Kmem × Kmem

/-- `main` from `fileinit`, and `initlog`, which the first process calls. In between, `early` is
`kvminit` and what `main` does with it, and `late` is `binit`, `iinit`, `virtio_disk_init`,
`userinit` and the start of the first process. -/
def boot (image : Image) (dev logstart : Nat) (header : Header)
    (early late : Kmem → Except Fault Kmem) (k : Kmem) :
    Except Fault Tables := do
  let t ← Ftable.fileinit k
  let (k₁, _) ← consoleinit image t
  let k₂ ← early k₁
  let (k₃, proc, procGiven) ← procinit image k₂
  let k₄ ← late k₃
  let (k₅, log, logGiven) ← initlog image dev logstart header k₄
  return ⟨k₅, t.devsw, proc, log, t.kmem.mem, procGiven, logGiven, (k₁, k₂), (k₃, k₄)⟩

/-! ### The fields -/

/-- The offset and width of `killed`, `sz`, `pagetable`, `trapframe`, `cwd`, `kheapwin_pages`,
`ukmem`, `ukmem_inited` and the entries of `ofile` in `struct proc`. -/
def procFields : List (Nat × Nat) :=
  [(40, 4), (72, 8), (80, 8), (88, 8), (336, 8), (368, 4), (384, 8), (392, 4)] ++
    (List.range 16).map fun i => (208 + 8 * i, 8)

/-- The fields that later code reads before it writes them are null, with each table in its memory.
Slots of the process table that are `allotted` have a process, whose fields are set. -/
structure Null (allotted : Set Nat) (devsw proc log : Nat) (devswMem procMem logMem : Mem) :
    Prop where
  /-- `devsw[m].read` and `devsw[m].write`. -/
  devices : ∀ m < ndev, m ≠ console →
    load devswMem (devsw + 16 * m) 8 = 0 ∧ load devswMem (devsw + 16 * m + 8) 8 = 0
  slots : ∀ i < nproc, i ∉ allotted → ∀ field ∈ procFields,
    load procMem (proc + procSize * i + field.1) field.2 = 0
  /-- `log->outstanding` and `log->committing`. -/
  log : load logMem (log + 28) 4 = 0 ∧ load logMem (log + 32) 4 = 0

/-- The bytes of the entries of `devsw` other than the console's. -/
def deviceBytes (devsw : Nat) : Set Nat :=
  {x | ∃ m < ndev, m ≠ console ∧ devsw + 16 * m ≤ x ∧ x < devsw + 16 * m + 16}

/-- The bytes of the fields in the slots of the process table that are not allotted. -/
def fieldBytes (allotted : Set Nat) (proc : Nat) : Set Nat :=
  {x | ∃ i < nproc, i ∉ allotted ∧ ∃ field ∈ procFields,
    proc + procSize * i + field.1 ≤ x ∧ x < proc + procSize * i + field.1 + field.2}

/-- A step of the rest of the kernel: a call of the allocator with what is live, or a write to what
is handed out or outside the heap. It frees nothing that has a byte in `kept`, and writes none of
these bytes. -/
inductive Elsewhere (kept : Set Nat) (k : Kmem) : Kmem → Prop
  | call {taken taken' : List Allocation} {k' : Kmem} :
      k.Lives taken → AllocatorCall k taken k' taken' →
      (∀ a ∈ taken, ∀ x ∈ a.bytes, x ∈ kept → a ∈ taken') → Elsewhere kept k k'
  | write {taken : List Allocation} {mem : Mem} : k.Lives taken →
      (∀ x ∈ k.regionBytes, x ∉ heldBytes taken → mem x = k.mem x) → (∀ x ∈ kept, mem x = k.mem x) →
      Elsewhere kept k (k.setMem mem)

namespace Tables

/-- The rest of the kernel leaves the fields alone. -/
structure Undisturbed (allotted : Set Nat) (b : Tables) : Prop where
  early : Relation.ReflTransGen (Elsewhere (deviceBytes b.devsw)) b.early.1 b.early.2
  late :
      Relation.ReflTransGen (Elsewhere (deviceBytes b.devsw ∪ fieldBytes allotted b.proc))
      b.late.1 b.late.2

/-- The fields are null after the boot code. -/
def Clean (allotted : Set Nat) (b : Tables) : Prop :=
  Null allotted b.devsw b.proc b.log b.kmem.mem b.kmem.mem b.kmem.mem

/-- The fields were null in the memory that `kmalloc` returned. -/
def Given (allotted : Set Nat) (b : Tables) : Prop :=
  Null allotted b.devsw b.proc b.log b.devswGiven b.procGiven b.logGiven

end Tables

/-! ### What the code writes -/

section Writes

variable {proc log lk : Nat}

theorem initlock_outside (mem : Mem) (lk name : Nat) :
    SameOutside (Set.Ico lk (lk + 24)) mem (initlock mem lk name) := by
  have inside : ∀ offset width value, offset + width ≤ 24 → ∀ mem : Mem,
      SameOutside (Set.Ico lk (lk + 24)) mem (store mem (lk + offset) width value) := by
    intro offset width value fits mem
    exact (store_sameOutside mem (lk + offset) width value).mono fun a ⟨low, high⟩ =>
      ⟨by omega, by omega⟩
  exact ((inside 8 8 name (by omega) mem).trans (inside 0 4 0 (by omega) _)).trans
    (inside 16 8 0 (by omega) _)

/-- The bytes of `lock`, `state` and `kstack` in the process table. -/
def slotBytes (proc : Nat) : Set Nat :=
  {a | ∃ i < nproc, proc + procSize * i ≤ a ∧ a < proc + procSize * i + 28 ∨
    proc + procSize * i + 64 ≤ a ∧ a < proc + procSize * i + 72}

theorem initSlots_outside (image : Image) (proc : Nat) (mem : Mem) :
    SameOutside (slotBytes proc) mem ((List.range nproc).foldl (initSlot image proc) mem) := by
  refine SameOutside.foldl (fun i member mem => ?_) mem
  have lt := List.mem_range.mp member
  have lock :
      SameOutside (slotBytes proc) mem (initlock mem (proc + procSize * i) image.procName) :=
    (initlock_outside mem _ _).mono fun a inside =>
      ⟨i, lt, Or.inl ⟨inside.1, by have := inside.2; omega⟩⟩
  have state :
      ∀ mem : Mem, SameOutside (slotBytes proc) mem (store mem (proc + procSize * i + 24) 4 0) :=
    fun mem =>
    (store_sameOutside mem _ 4 0).mono fun a ⟨low, high⟩ => ⟨i, lt, Or.inl ⟨by omega, by omega⟩⟩
  have stack :
      ∀ mem :
      Mem, SameOutside (slotBytes proc) mem (store mem (proc + procSize * i + 64) 8 (kstack i)) :=
    fun mem => (store_sameOutside mem _ 8 _).mono fun a ⟨low, high⟩ =>
      ⟨i, lt, Or.inr ⟨low, by omega⟩⟩
  exact (lock.trans (state _)).trans (stack _)

/-- The fields of a slot that are read before they are written are none of those that `procinit`
writes. -/
theorem procFields_apart : ∀ field ∈ procFields, 28 ≤ field.1 ∧ field.1 + field.2 ≤ procSize ∧
    (field.1 + field.2 ≤ 64 ∨ 72 ≤ field.1) := by
  decide

theorem procField_notMem {i a : Nat} {field : Nat × Nat} (isField : field ∈ procFields)
    (low : proc + procSize * i + field.1 ≤ a) (high : a < proc + procSize * i + field.1 + field.2) :
    a ∉ slotBytes proc := by
  obtain ⟨above, below, gap⟩ := procFields_apart field isField
  rintro ⟨j, _, ⟨low', high'⟩ | ⟨low', high'⟩⟩ <;>
  · simp only [procSize] at *
    have same : i = j := by omega
    subst same
    omega

/-- The bytes of `struct log` that `initlog` writes: all but `outstanding` and `committing`. -/
def logBytes (log : Nat) : Set Nat := Set.Ico log (log + 28) ∪ Set.Ico (log + 36) (log + logSize)

theorem recoverHeader_outside (mem : Mem) (log : Nat) (header : Header) :
    SameOutside (logBytes log) mem (recoverHeader mem log header) := by
  have count : ∀ (mem : Mem) value, SameOutside (logBytes log) mem (store mem (log + 40) 4 value) :=
    fun mem value =>
    (store_sameOutside mem _ 4 value).mono fun a ⟨low, high⟩ =>
      Or.inr ⟨by omega, by simp only [logSize]; omega⟩
  have blocks : ∀ mem : Mem, SameOutside (logBytes log) mem (header.1.zipIdx.foldl
      (fun mem entry => store mem (log + 44 + 4 * entry.2) 4 entry.1) mem) := by
    refine fun mem => SameOutside.foldl (fun entry member mem => ?_) mem
    have lt : entry.2 < 30 := by
      obtain ⟨b, i⟩ := entry
      have inside := (List.mem_zipIdx member).2.1
      have few : header.1.length ≤ 30 := header.2
      simp only at *
      omega
    exact (store_sameOutside mem _ 4 entry.1).mono fun a ⟨low, high⟩ =>
      Or.inr ⟨by omega, by simp only [logSize]; omega⟩
  exact ((count mem _).trans (blocks _)).trans (count _ _)

theorem initlog_outside (image : Image) (dev logstart : Nat) (header : Header) (mem : Mem)
    (log : Nat) : SameOutside (logBytes log) mem (recoverHeader
      (store (store (initlock mem log image.logName) (log + 24) 4 logstart) (log + 36) 4 dev) log
      header) := by
  have lock : SameOutside (logBytes log) mem (initlock mem log image.logName) :=
    (initlock_outside mem _ _).mono fun a inside => Or.inl ⟨inside.1, by have := inside.2; omega⟩
  have start : ∀ mem : Mem, SameOutside (logBytes log) mem (store mem (log + 24) 4 logstart) :=
    fun mem =>
    (store_sameOutside mem _ 4 _).mono fun a ⟨low, high⟩ => Or.inl ⟨by omega, by omega⟩
  have device : ∀ mem : Mem, SameOutside (logBytes log) mem (store mem (log + 36) 4 dev) :=
    fun mem =>
    (store_sameOutside mem _ 4 _).mono fun a ⟨low, high⟩ =>
      Or.inr ⟨low, by simp only [logSize]; omega⟩
  exact ((lock.trans (start _)).trans (device _)).trans (recoverHeader_outside _ log header)

end Writes

/-! ### The three tables -/

section Tables

variable {k k' : Kmem} {held held' : List Allocation} {kept : Set Nat} {space : Nat}
  {blockNum : Int} {image : Image} {dev logstart : Nat} {header : Header}
  {early late : Kmem → Except Fault Kmem} {allotted : Set Nat} {b : Tables} {t : Ftable}

/-- A later state of the allocator: what clients held with bytes in `kept` is still held, and these
bytes are unchanged. -/
structure Later (kept : Set Nat) (k : Kmem) (held : List Allocation) (k' : Kmem)
    (held' : List Allocation) (space : Nat) (blockNum : Int) : Prop where
  sound : Sound k' held' space blockNum
  keeps : ∀ a ∈ held, ∀ x ∈ a.bytes, x ∈ kept → a ∈ held'
  contents : ∀ x ∈ heldBytes held, x ∈ kept → k'.mem x = k.mem x

theorem Later.trans {k'' : Kmem} {held'' : List Allocation}
    (first : Later kept k held k' held' space blockNum)
    (second : Later kept k' held' k'' held'' space blockNum) :
    Later kept k held k'' held'' space blockNum where
  sound := second.sound
  keeps := fun a isHeld x inside isKept =>
    second.keeps a (first.keeps a isHeld x inside isKept) x inside isKept
  contents := by
    rintro x ⟨a, isHeld, inside⟩ isKept
    rw [second.contents x ⟨a, first.keeps a isHeld x inside isKept, inside⟩ isKept]
    exact first.contents x ⟨a, isHeld, inside⟩ isKept

theorem Later.mono {kept' : Set Nat} (later : Later kept k held k' held' space blockNum)
    (sub : kept' ⊆ kept) : Later kept' k held k' held' space blockNum :=
  ⟨later.sound, fun a isHeld x inside isKept => later.keeps a isHeld x inside (sub isKept),
    fun x isHeld isKept => later.contents x isHeld (sub isKept)⟩

/-- A cell of an allocation is unchanged later. -/
theorem Later.load (later : Later kept k held k' held' space blockNum) {a : Allocation}
    (isHeld : a ∈ held) {addr width : Nat} (inside : Set.Ico addr (addr + width) ⊆ a.bytes)
    (isKept : Set.Ico addr (addr + width) ⊆ kept) :
    load k'.mem addr width = load k.mem addr width :=
  load_congr fun x low high => later.contents x ⟨a, isHeld, inside ⟨low, high⟩⟩ (isKept ⟨low, high⟩)

/-- A step of the rest of the kernel. -/
theorem Later.of_elsewhere (sound : Sound k held space blockNum) (moves : Elsewhere kept k k') :
    ∃ held', Later kept k held k' held' space blockNum := by
  cases moves with
  | @call taken taken' _ lives call stays =>
    have isTaken : ∀ a ∈ held, a ∈ taken := fun a => (sound.mem_iff_of_lives lives a).mpr
    have sound' := sound.of_lives lives
    refine ⟨taken', sound'.allocatorCall call, fun a isHeld => stays a (isTaken a isHeld), ?_⟩
    rintro x ⟨a, isHeld, inside⟩ isKept
    have isTaken' := isTaken a isHeld
    exact (sound'.footprint call).kept_mem ⟨a, isTaken', stays a isTaken' x inside isKept, inside⟩
  | @write taken mem lives outside same =>
    refine ⟨held, sound.elsewhere (fun x inRegion notHeld => outside x inRegion ?_) fun _ _ => rfl,
      fun a isHeld _ _ _ => isHeld, fun x _ => same x⟩
    rintro ⟨a, isTaken, inside⟩
    exact notHeld ⟨a, (sound.mem_iff_of_lives lives a).mp isTaken, inside⟩

/-- **What the rest of the kernel does**, step by step. -/
theorem Later.of_rest (sound : Sound k held space blockNum)
    (rest : Relation.ReflTransGen (Elsewhere kept) k k') :
    ∃ held', Later kept k held k' held' space blockNum := by
  induction rest with
  | refl => exact ⟨held, sound, fun a isHeld _ _ _ => isHeld, fun _ _ _ => rfl⟩
  | tail _ moves ih =>
    obtain ⟨held₁, first⟩ := ih
    obtain ⟨held₂, second⟩ := Later.of_elsewhere first.sound moves
    exact ⟨held₂, first.trans second⟩

/-- **A table from `kmalloc` that is then written**: an object that nobody held and that is large
enough. -/
theorem kmalloc_table (kept : Set Nat) (sound : Sound k held space blockNum) {size obj : Nat}
    (call : k.kmalloc size = .ok (k', obj)) (nonnull : obj ≠ 0) (fits : size ≤ alignUp size 8)
    {written : Set Nat} {mem : Mem} (outside : SameOutside written k'.mem mem)
    (inside : written ⊆ Set.Ico obj (obj + size)) :
    ∃ a, Set.Ico obj (obj + size) ⊆ a.bytes ∧
    Later kept k held (k'.setMem mem) (a :: held) space blockNum := by
  obtain ⟨k₁, obj₁, run, leaves, ⟨null, _⟩ | ⟨_, j, _, large, notHeld, sound'⟩⟩ :=
    sound.kmalloc_cases size
  · rw [run, Except.ok.injEq, Prod.mk.injEq] at call
    exact absurd (call.2.symm.trans null) nonnull
  · rw [run, Except.ok.injEq, Prod.mk.injEq] at call
    obtain ⟨rfl, rfl⟩ := call
    have sub :
        Set.Ico obj₁ (obj₁ + size) ⊆
        (Allocation.object (k.kmallocCaches j) obj₁ (32 * 2 ^ j)).bytes :=
      fun p ⟨low, high⟩ => ⟨low, lt_of_lt_of_le high (Nat.add_le_add_left (fits.trans large) obj₁)⟩
    have outside' := outside.mono (inside.trans sub)
    refine ⟨_, sub, sound'.writeObject List.mem_cons_self outside',
      fun a isHeld _ _ _ => List.mem_cons_of_mem _ isHeld, ?_⟩
    rintro p ⟨b, bHeld, inB⟩ _
    rw [← leaves.contents p ⟨b, bHeld, inB⟩]
    refine outside' p fun inA => ?_
    have ne : b ≠ .object (k.kmallocCaches j) obj₁ (32 * 2 ^ j) := fun eq => notHeld (eq ▸ bHeld)
    exact Set.disjoint_left.mp
      (sound'.held_disjoint (List.mem_cons_of_mem _ bHeld) List.mem_cons_self ne) inB inA

/-- `fileinit` leaves `devsw` as `kmalloc` returned it. -/
theorem fileinit_later (sound : Sound k held space blockNum) (call : Ftable.fileinit k = .ok t)
    (nonnull : t.devsw ≠ 0) : ∃ a, Set.Ico t.devsw (t.devsw + 160) ⊆ a.bytes ∧
      Sound t.kmem (a :: held) space blockNum := by
  obtain ⟨⟨k₁, c⟩, create, call⟩ := bind_eq_ok call
  obtain ⟨⟨k₂, devsw⟩, kmalloc, call⟩ := bind_eq_ok call
  have sound₁ := sound.create (by norm_num) (fun _ isCtor => by cases isCtor) create
  cases call
  obtain ⟨a, sub, later⟩ :=
    kmalloc_table ∅ sound₁ kmalloc nonnull (by decide) (SameOutside.refl ∅ _) (Set.empty_subset _)
  exact ⟨a, sub, later.sound⟩

theorem devsw_nonnull {buf : Nat} (call : consoleinit image t = .ok (k', buf)) : t.devsw ≠ 0 := by
  obtain ⟨⟨k₁, buf₁⟩, _, call⟩ := bind_eq_ok call
  simp only at call
  split_ifs at call with _ nullTable
  exact nullTable

/-- `consoleinit` writes the entry of the console only. -/
theorem consoleinit_later (sound : Sound t.kmem held space blockNum) {buf : Nat} {a : Allocation}
    (isHeld : a ∈ held) (table : Set.Ico t.devsw (t.devsw + 160) ⊆ a.bytes)
    (call : consoleinit image t = .ok (k', buf)) :
    ∃ held', Later (deviceBytes t.devsw) t.kmem held k' held' space blockNum := by
  obtain ⟨⟨k₁, buf₁⟩, kmalloc, call⟩ := bind_eq_ok call
  simp only at call
  split_ifs at call with null nullTable
  cases call
  obtain ⟨b, _, later⟩ :=
    kmalloc_table Set.univ sound kmalloc null (by decide) (SameOutside.refl ∅ k₁.mem)
    (Set.empty_subset _)
  have isKept : ∀ c ∈ held, c ∈ b :: held := fun c => List.mem_cons_of_mem b
  have outside : SameOutside (Set.Ico (t.devsw + 16) (t.devsw + 32)) k₁.mem
      (store (store k₁.mem (t.devsw + 16 * console) 8 image.consoleread)
        (t.devsw + 16 * console + 8) 8 image.consolewrite) := by
    refine ((store_sameOutside _ _ 8 _).mono ?_).trans ((store_sameOutside _ _ 8 _).mono ?_) <;>
    · intro p ⟨low, high⟩
      simp only [console] at *
      exact ⟨by omega, by omega⟩
  have inside : Set.Ico (t.devsw + 16) (t.devsw + 32) ⊆ a.bytes :=
    fun p ⟨low, high⟩ => table ⟨by omega, by omega⟩
  refine ⟨_, later.sound.writeObject (isKept a isHeld) (outside.mono inside),
    fun c cHeld _ _ _ => isKept c cHeld, ?_⟩
  rintro p inHeld ⟨m, _, other, low, high⟩
  refine (outside p fun ⟨low', high'⟩ => ?_).trans (later.contents p inHeld trivial)
  simp only [console] at other
  omega

/-- `procinit`. -/
theorem procinit_later (kept : Set Nat) (sound : Sound k held space blockNum) {proc : Nat}
    {given : Mem} (call : procinit image k = .ok (k', proc, given)) :
    ∃ a, Set.Ico proc (proc + nproc * procSize) ⊆ a.bytes ∧
      Later kept k held k' (a :: held) space blockNum ∧
      SameOutside (slotBytes proc) given k'.mem := by
  obtain ⟨⟨k₁, proc₁⟩, kmalloc, call⟩ := bind_eq_ok call
  simp only at call
  split_ifs at call with null
  cases call
  have outside := initSlots_outside image proc k₁.mem
  have inside : slotBytes proc ⊆ Set.Ico proc (proc + nproc * procSize) := by
    rintro p ⟨i, lt, ⟨low, high⟩ | ⟨low, high⟩⟩ <;>
    · simp only [procSize, nproc] at *
      exact ⟨by omega, by omega⟩
  obtain ⟨a, sub, later⟩ := kmalloc_table kept sound kmalloc null (by decide) outside inside
  exact ⟨a, sub, later, outside⟩

/-- `initlog`. -/
theorem initlog_later (kept : Set Nat) (sound : Sound k held space blockNum) {log : Nat}
    {given : Mem} (call : initlog image dev logstart header k = .ok (k', log, given)) :
    ∃ a, Later kept k held k' (a :: held) space blockNum ∧
    SameOutside (logBytes log) given k'.mem := by
  obtain ⟨⟨k₁, log₁⟩, kmalloc, call⟩ := bind_eq_ok call
  simp only at call
  split_ifs at call with null
  cases call
  have outside := initlog_outside image dev logstart header k₁.mem log
  have inside : logBytes log ⊆ Set.Ico log (log + logSize) := by
    rintro p (⟨low, high⟩ | ⟨low, high⟩) <;>
    · simp only [logSize] at *
      exact ⟨by omega, by omega⟩
  obtain ⟨a, _, later⟩ := kmalloc_table kept sound kmalloc null (by decide) outside inside
  exact ⟨a, later, outside⟩

/-- Tables whose fields have the same values are null together. -/
theorem Null.congr {devsw proc log : Nat} {m₁ m₂ m₃ n₁ n₂ n₃ : Mem}
    (null : Null allotted devsw proc log m₁ m₂ m₃)
    (devices : ∀ m < ndev, m ≠ console → load n₁ (devsw + 16 * m) 8 = load m₁ (devsw + 16 * m) 8 ∧
      load n₁ (devsw + 16 * m + 8) 8 = load m₁ (devsw + 16 * m + 8) 8)
    (slots : ∀ i < nproc, i ∉ allotted →
      ∀ field ∈ procFields, load n₂ (proc + procSize * i + field.1) field.2 =
      load m₂ (proc + procSize * i + field.1) field.2)
    (fields : load n₃ (log + 28) 4 = load m₃ (log + 28) 4 ∧
      load n₃ (log + 32) 4 = load m₃ (log + 32) 4) :
    Null allotted devsw proc log n₁ n₂ n₃ where
  devices := fun m lt other => by
    rw [(devices m lt other).1, (devices m lt other).2]
    exact null.devices m lt other
  slots := fun i lt free field isField => by
    rw [slots i lt free field isField]
    exact null.slots i lt free field isField
  log := by
    rw [fields.1, fields.2]
    exact null.log

/-- **The boot code changes none of the fields**: each is as `kmalloc` returned it. -/
theorem boot_fields (sound : Sound k held space blockNum)
    (call : boot image dev logstart header early late k = .ok b) (rest : b.Undisturbed allotted) :
    (∀ m < ndev, m ≠ console →
      load b.kmem.mem (b.devsw + 16 * m) 8 = load b.devswGiven (b.devsw + 16 * m) 8 ∧
      load b.kmem.mem (b.devsw + 16 * m + 8) 8 = load b.devswGiven (b.devsw + 16 * m + 8) 8) ∧
    (∀ i < nproc, i ∉ allotted →
      ∀ field ∈ procFields, load b.kmem.mem (b.proc + procSize * i + field.1) field.2 =
      load b.procGiven (b.proc + procSize * i + field.1) field.2) ∧
    load b.kmem.mem (b.log + 28) 4 = load b.logGiven (b.log + 28) 4 ∧
      load b.kmem.mem (b.log + 32) 4 = load b.logGiven (b.log + 32) 4 := by
  obtain ⟨t, fileinit, call⟩ := bind_eq_ok call
  obtain ⟨⟨k₁, buf⟩, console', call⟩ := bind_eq_ok call
  obtain ⟨k₂, _, call⟩ := bind_eq_ok call
  obtain ⟨⟨k₃, proc, procGiven⟩, procCall, call⟩ := bind_eq_ok call
  obtain ⟨k₄, _, call⟩ := bind_eq_ok call
  obtain ⟨⟨k₅, log, logGiven⟩, logCall, call⟩ := bind_eq_ok call
  cases call
  obtain ⟨a, devswBytes, sound₀⟩ := fileinit_later sound fileinit (devsw_nonnull console')
  obtain ⟨held₁, later₁⟩ := consoleinit_later sound₀ List.mem_cons_self devswBytes console'
  obtain ⟨held₂, later₂⟩ := Later.of_rest later₁.sound rest.early
  obtain ⟨c, procBytes, later₃, procKept⟩ := procinit_later Set.univ later₂.sound procCall
  obtain ⟨held₄, later₄⟩ := Later.of_rest later₃.sound rest.late
  obtain ⟨d, later₅, logKept⟩ := initlog_later Set.univ later₄.sound logCall
  have tail := later₄.trans (later₅.mono (Set.subset_univ _))
  refine ⟨?_, ?_, ?_⟩
  · have devices := (later₁.trans later₂).trans
      ((later₃.mono (Set.subset_univ _)).trans (tail.mono Set.subset_union_left))
    intro m lt other
    have cell : ∀ offset, offset + 8 ≤ 16 →
        load k₅.mem (t.devsw + 16 * m + offset) 8 =
        load t.kmem.mem (t.devsw + 16 * m + offset) 8 := by
      intro offset fits
      refine devices.load List.mem_cons_self (fun p ⟨low, high⟩ => devswBytes ?_)
        fun p ⟨low, high⟩ => ?_
      · simp only [ndev] at lt
        exact ⟨by omega, by omega⟩
      · exact ⟨m, lt, other, by omega, by omega⟩
    exact ⟨cell 0 (by omega), cell 8 (by omega)⟩
  · intro i lt free field isField
    refine (tail.load List.mem_cons_self ?_ ?_).trans (procKept.load fun p low high =>
      procField_notMem isField low high)
    · have fits := (procFields_apart field isField).2.1
      intro p ⟨low, high⟩
      simp only [procSize, nproc] at *
      exact procBytes ⟨by omega, by omega⟩
    · exact fun p inside => Or.inr ⟨i, lt, free, field, isField, inside⟩
  · have cell : ∀ offset, 28 ≤ offset → offset + 4 ≤ 36 →
        load k₅.mem (log + offset) 4 = load logGiven (log + offset) 4 := by
      intro offset above below
      refine logKept.load fun p low high inside => ?_
      rcases inside with ⟨low', high'⟩ | ⟨low', high'⟩ <;> omega
    exact ⟨cell 28 le_rfl (by omega), cell 32 (by omega) (by omega)⟩

end Tables

/-! ### Every boot -/

section Runs

variable {k₀ k : Kmem} {held : List Allocation} {space : Nat} {blockNum : Int} {isKernel : Bool}
  {b : Tables} {early late : Kmem → Except Fault Kmem} {allotted : Set Nat}

/-- **After the boot code the fields are null exactly when they were in the memory that `kmalloc`
returned**, in every state of the allocator, for every contents of its memory and whatever else the
kernel does in between. -/
theorem null_iff_given (given : Space space blockNum) (head : k₀.headOfCacheList = 0)
    (tail : k₀.tailOfCacheList = 0) (run : Kmem.Run k₀ space blockNum isKernel k held)
    (image : Image) (dev logstart : Nat) (header : Header)
    (call : boot image dev logstart header early late k = .ok b) (rest : b.Undisturbed allotted) :
    b.Clean allotted ↔ b.Given allotted := by
  obtain ⟨devices, slots, fields⟩ := boot_fields (run.sound given head tail) call rest
  constructor
  · intro clean
    refine clean.congr (fun m lt other => ?_) (fun i lt free field isField => ?_) ?_
    · exact ⟨(devices m lt other).1.symm, (devices m lt other).2.symm⟩
    · exact (slots i lt free field isField).symm
    · exact ⟨fields.1.symm, fields.2.symm⟩
  · exact fun zero => zero.congr devices slots fields

/-- An image, for examples. -/
def someImage : Image := ⟨0x80001000, 0x80001100, 0x80008000, 0x80008008⟩

/-- A page is allocated, as `kvminit` and `userinit` do. -/
def takePage (k : Kmem) : Except Fault Kmem := do
  let (k, _) ← k.kalloc
  return k

theorem elsewhere_takePage {kept : Set Nat} {k' : Kmem} (sound : Sound k held space blockNum)
    (call : takePage k = .ok k') : Elsewhere kept k k' := by
  obtain ⟨⟨k₁, page⟩, kalloc, call⟩ := bind_eq_ok call
  cases call
  refine .call sound.lives (.buddyAlloc orderForPages_one kalloc) fun a isHeld _ _ _ => ?_
  exact mem_handOut_of_mem isHeld

/-- The boot code takes a page before and after `procinit`. -/
theorem null_iff_given_kernelHeap : ∃ k b, Kmem.Run zeroed 0x80030000 32720 true k [] ∧
    boot someImage 1 2 ⟨[], by decide⟩ takePage takePage k = .ok b ∧ (b.Clean ∅ ↔ b.Given ∅) := by
  obtain ⟨b, call, _⟩ := exists_ok ((zeroed.kmemInit 0x80030000 32720 true) >>=
    boot someImage 1 2 ⟨[], by decide⟩ takePage takePage) (fun _ => ()) () (by decide +kernel)
  obtain ⟨k, init, booted⟩ := bind_eq_ok call
  have rest : b.Undisturbed ∅ := by
    obtain ⟨t, fileinit, call⟩ := bind_eq_ok booted
    obtain ⟨⟨k₁, buf⟩, console', call⟩ := bind_eq_ok call
    obtain ⟨k₂, early, call⟩ := bind_eq_ok call
    obtain ⟨⟨k₃, proc, procGiven⟩, procCall, call⟩ := bind_eq_ok call
    obtain ⟨k₄, late, call⟩ := bind_eq_ok call
    obtain ⟨⟨k₅, log, logGiven⟩, logCall, call⟩ := bind_eq_ok call
    cases call
    obtain ⟨a, table, sound⟩ :=
      fileinit_later ((Kmem.Run.init init).sound space_kernelHeap rfl rfl) fileinit
      (devsw_nonnull console')
    obtain ⟨held₁, later₁⟩ := consoleinit_later sound List.mem_cons_self table console'
    have first : Relation.ReflTransGen (Elsewhere (deviceBytes t.devsw)) k₁ k₂ :=
      .single (elsewhere_takePage later₁.sound early)
    obtain ⟨held₂, later₂⟩ := Later.of_rest later₁.sound first
    obtain ⟨c, _, later₃, _⟩ := procinit_later Set.univ later₂.sound procCall
    exact ⟨first, .single (elsewhere_takePage later₃.sound late)⟩
  exact ⟨k, b, .init init, booted,
    null_iff_given space_kernelHeap rfl rfl (.init init) someImage 1 2 ⟨[], by decide⟩ booted rest⟩

/-- A heap whose memory holds ones at power-on. -/
def dirty : Kmem := { zeroed with mem := fun _ => 1 }

/-- On a heap full of ones `log->outstanding` is not zero after the four functions, on a heap of
zeros it is. -/
theorem dirty_outstanding : ∃ k b k' b', Kmem.Run zeroed 0x80030000 32720 true k [] ∧
    boot someImage 1 2 ⟨[], by decide⟩ .ok .ok k = .ok b ∧
    Kmem.Run dirty 0x80030000 32720 true k' [] ∧
    boot someImage 1 2 ⟨[], by decide⟩ .ok .ok k' = .ok b' ∧ b'.log = b.log ∧
    load b.kmem.mem (b.log + 28) 4 = 0 ∧
    load b'.kmem.mem (b.log + 28) 4 = 0x01010101 ∧ ¬ b'.Clean ∅ := by
  obtain ⟨b, call, observed⟩ := exists_ok ((zeroed.kmemInit 0x80030000 32720 true) >>=
    boot someImage 1 2 ⟨[], by decide⟩ .ok .ok) (fun b => (b.log, load b.kmem.mem (b.log + 28) 4))
    (2185216320, 0) (by decide +kernel)
  obtain ⟨b', call', observed'⟩ := exists_ok ((dirty.kmemInit 0x80030000 32720 true) >>=
    boot someImage 1 2 ⟨[], by decide⟩ .ok .ok) (fun b => (b.log, load b.kmem.mem (b.log + 28) 4))
    (2185216320, 0x01010101) (by decide +kernel)
  obtain ⟨k, init, booted⟩ := bind_eq_ok call
  obtain ⟨k', init', booted'⟩ := bind_eq_ok call'
  rw [Prod.mk.injEq] at observed observed'
  have same : b'.log = b.log := observed'.1.trans observed.1.symm
  refine ⟨k, b, k', b', .init init, booted, .init init', booted', same, observed.2, ?_,
    fun clean => ?_⟩
  · rw [← same]
    exact observed'.2
  · have zero := clean.log.1
    rw [observed'.2] at zero
    cases zero

end Runs

end Boot

end Xv6Slab
