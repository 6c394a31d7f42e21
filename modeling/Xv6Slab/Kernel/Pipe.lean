/-
**Pipes.**

`pipealloc` takes its pipe from `pipe_cache`. `pipeinit` is the only function that could set it: it
drops the result of `kmem_cache_create`, and `main` does not call it. So the cache is null,
`kmem_cache_alloc` of it is null, and every `pipealloc` takes its error path, where `fileclose`
keeps the two files allocated.

* `Makes` and `CleansUp` — what `pipealloc` is for: two ends of one new pipe, which closing both
  gives back; and after an error nothing remains allocated.
* `step` and `Guard` — the calls on files, and the rest of the kernel.
* `pipealloc_leaks` — **in every reachable state `pipealloc` makes no pipe; it leaves nothing
  allocated exactly when `filealloc` has no file to give, and with room for two files it leaves two
  allocated.**
-/

import Xv6Slab.Kernel.File
import Xv6Slab.Kernel.Isolation

namespace Xv6Slab

namespace Files

open Bytes Kmem Machine

/-! ### Closing the ends of a pipe -/

/-- `pipeclose`. Waking up the other end does not touch the pipe. -/
def Ftable.pipeclose (t : Ftable) (pi : Nat) (writable : Bool) : Except Fault Ftable :=
  let t :=
    t.setMem (if writable then store t.kmem.mem (pi + 548) 4 0 else store t.kmem.mem (pi + 544) 4 0)
  if load t.kmem.mem (pi + 544) 4 = 0 ∧ load t.kmem.mem (pi + 548) 4 = 0 then do
    let k ← t.kmem.kmemCacheFree pipeCache pi
    return { t with kmem := k }
  else .ok t

/-- `fileclose` of an end of a pipe, with what follows the last reference. -/
def Ftable.closeEnd (t : Ftable) (f ff : Nat) : Except Fault Ftable := do
  let last := fileRef t.kmem.mem f = 1
  let isPipe := load t.kmem.mem f 4 = 1
  let writable := load t.kmem.mem (f + 9) 1 ≠ 0
  let pi := load t.kmem.mem (f + 16) 8
  let t ← t.fileclose f ff
  if last ∧ isPipe then t.pipeclose pi writable else return t

/-- The two files are the ends of a new pipe. -/
structure NewPipe (t t' : Ftable) (f0 f1 pi : Nat) : Prop where
  distinct : f0 ≠ f1
  fresh : f0 ∉ t.kmem.liveObjects t.fileCache ∧ f1 ∉ t.kmem.liveObjects t.fileCache
  files : t'.kmem.liveObjects t.fileCache = insert f1 (insert f0 (t.kmem.liveObjects t.fileCache))
  refs : fileRef t'.kmem.mem f0 = 1 ∧ fileRef t'.kmem.mem f1 = 1
  /-- One end is readable only and the other writable only. -/
  reader : load t'.kmem.mem (f0 + 8) 1 = 1 ∧ load t'.kmem.mem (f0 + 9) 1 = 0
  writer : load t'.kmem.mem (f1 + 8) 1 = 0 ∧ load t'.kmem.mem (f1 + 9) 1 = 1
  /-- Both share the pipe, which is new, open and empty. -/
  shared : load t'.kmem.mem (f0 + 16) 8 = pi ∧ load t'.kmem.mem (f1 + 16) 8 = pi
  pipe :
      pi ∉ t.kmem.liveObjects pipeCache ∧
      t'.kmem.liveObjects pipeCache = insert pi (t.kmem.liveObjects pipeCache)
  isOpen : load t'.kmem.mem (pi + 544) 4 = 1 ∧ load t'.kmem.mem (pi + 548) 4 = 1
  empty : load t'.kmem.mem (pi + 536) 4 = 0 ∧ load t'.kmem.mem (pi + 540) 4 = 0

/-- Closing the two ends frees the pipe with the second. -/
def ClosesPipe (t : Ftable) (first second ff pi : Nat) : Prop :=
  ∃ t₁ t₂, t.closeEnd first ff = .ok t₁ ∧ t₁.closeEnd second ff = .ok t₂ ∧
    pi ∈ t₁.kmem.liveObjects pipeCache ∧
    t₂.kmem.liveObjects pipeCache = t₁.kmem.liveObjects pipeCache \ {pi}

/-- **`pipealloc` makes a pipe.** -/
def Makes (t : Ftable) (ff : Nat) : Prop :=
  ∃ t' f0 f1 pi, t.pipealloc ff = .ok (t', true, f0, f1) ∧ NewPipe t t' f0 f1 pi ∧
    ClosesPipe t' f0 f1 ff pi ∧ ClosesPipe t' f1 f0 ff pi

/-- **A `pipealloc` that fails leaves nothing allocated.** -/
def CleansUp (t : Ftable) (ff : Nat) : Prop :=
  ∀ t' f0 f1, t.pipealloc ff = .ok (t', false, f0, f1) →
    t'.kmem.liveObjects t.fileCache = t.kmem.liveObjects t.fileCache ∧
    t'.kmem.liveObjects pipeCache = t.kmem.liveObjects pipeCache

/-! ### What the table holds -/

section Table

variable {t t' : Ftable} {k : Kmem} {held : List Allocation} {f ff space : Nat} {blockNum : Int}

/-- `file_cache` as `fileinit` creates it. -/
structure FileCache (k : Kmem) (c : Nat) : Prop where
  used : k.Used c
  size : (k.desc c).objectSize = fileSize
  order : (k.desc c).slabOrder = 0

theorem FileCache.of_shape {k' : Kmem} {c : Nat} (cache : FileCache k c) (used : k'.Used c)
    (same : KmemCache.SameShape (k.desc c) (k'.desc c)) : FileCache k' c :=
  ⟨used, same.objectSize.trans cache.size, same.slabOrder.trans cache.order⟩

theorem FileCache.calm {k' : Kmem} {c : Nat} (cache : FileCache k c) (calm : Calm k k') :
    FileCache k' c :=
  cache.of_shape ((calm.used_iff c).mpr cache.used) (.of_layout (calm.layout c))

/-- The allocator is sound, with its file cache. -/
structure Holds (t : Ftable) (held : List Allocation) (space : Nat) (blockNum : Int) : Prop where
  sound : Sound t.kmem held space blockNum
  cache : t.fileCache ≠ 0 → FileCache t.kmem t.fileCache

theorem Holds.write (holds : Holds t held space blockNum) (isFile : fileObject t f ∈ held)
    {mem : Mem} (outside : SameOutside (fileObject t f).bytes t.kmem.mem mem) :
    Holds (t.setMem mem) held space blockNum :=
  ⟨holds.sound.writeObject isFile outside, fun created => (holds.cache created).calm ⟨rfl, rfl,
    fun _ => rfl, rfl⟩⟩

/-- The live files. -/
theorem Holds.files (holds : Holds t held space blockNum) (created : t.fileCache ≠ 0) :
    t.kmem.liveObjects t.fileCache = {f | fileObject t f ∈ held} := by
  rw [holds.sound.liveObjects_eq, (holds.cache created).size]
  rfl

/-- The kernel stacks lie above the heap, so no page of theirs belongs to a slab. -/
theorem ownerOf_onStack (sound : Sound k held space blockNum)
    (below : space + blockNum.toNat * 4096 ≤ phystop) (onStack : OnStack ff) :
    k.ownerOf ff = 0 := by
  obtain ⟨p, lt, low, high⟩ := onStack
  have stack : kstack p = 2 ^ 38 - 4096 - (p + 1) * 2 * 4096 := rfl
  have aligned : pageAlignDown ff = ff - ff % 4096 := rfl
  have heap : space + blockNum.toNat * 4096 ≤ 0x88000000 := below
  have near : ff - ff % 4096 < 2 ^ 38 := by omega
  have above : 0x88000000 + 4096 ≤ ff - ff % 4096 := by omega
  unfold ownerOf
  simp only
  refine if_neg fun found => ?_
  rw [aligned] at found
  obtain ⟨i, inside, isPage, _⟩ := Buddy.addrToIndex_near (by omega) found
  rw [Buddy.page] at isPage
  rcases sound.placement.inside with none | region
  · omega
  · omega

/-! ### The calls -/

/-- What `filealloc` does. -/
structure Opens (t t' : Ftable) (held : List Allocation) (f space : Nat) (blockNum : Int) :
    Prop where
  holds : Holds t' (handOut f (fileObject t f) held) space blockNum
  cache : t'.fileCache = t.fileCache
  ref : f ≠ 0 → fileRef t'.kmem.mem f = 1
  contents : ∀ p ∈ heldBytes held, t'.kmem.mem p = t.kmem.mem p
  null : f = 0 ↔ NoFile t
  /-- It takes at most one page. -/
  counter : t'.nfiles ≤ t.nfiles + 1
  pages : t.kmem.freePages.Nontrivial → t'.kmem.freePages.Nonempty

/-- With room in the table, and a page for a new slab, there is a file to give. -/
theorem Holds.not_noFile (holds : Holds t held space blockNum) (created : t.fileCache ≠ 0)
    (room : t.nfiles < nfile) (memory : t.kmem.freePages.Nonempty) : ¬ NoFile t := by
  rintro (full | null | ⟨_, _, small⟩)
  · exact absurd full (not_le.mpr room)
  · exact created null
  · obtain ⟨p, b, ⟨inside, isHead, _⟩, _⟩ := memory
    have less := small b.index inside isHead
    rw [(holds.cache created).order] at less
    exact Nat.not_lt_zero _ less

/-- A cache with slabs of one page takes at most one. -/
theorem FileCache.alloc (sound : Sound k held space blockNum) {c : Nat} (cache : FileCache k c)
    {k' : Kmem} (call : k.kmemCacheAlloc c = .ok (k', f)) (many : k.freePages.Nontrivial) :
    k'.freePages.Nonempty := by
  obtain ⟨k₁, f₁, call₁, _, refused, given⟩ := sound.kmemCacheAlloc cache.used
  obtain ⟨rfl, rfl⟩ := Prod.mk.inj (Except.ok.inj (call₁.symm.trans call))
  by_cases isNull : f₁ = 0
  · obtain ⟨error, rfl⟩ := refused isNull
    exact many.nonempty
  · rcases (given isNull).1.pages with same | ⟨_, i, _, taken⟩
    · rw [same]
      exact many.nonempty
    · obtain ⟨p, isFree, other⟩ := many.exists_ne i
      refine ⟨p, ?_⟩
      rw [taken, cache.order]
      exact ⟨isFree, fun covers => other (le_antisymm (Nat.le_of_lt_succ covers.2) covers.1)⟩

/-- **`filealloc`.** -/
theorem Holds.filealloc (holds : Holds t held space blockNum) :
    ∃ t' f, t.filealloc = .ok (t', f) ∧ Opens t t' held f space blockNum := by
  by_cases full : nfile ≤ t.nfiles
  · exact ⟨t, 0, if_pos full, holds, rfl, fun ne => absurd rfl ne, fun _ _ => rfl,
      iff_of_true rfl (Or.inl full), by omega, Set.Nontrivial.nonempty⟩
  by_cases null : t.fileCache = 0
  · have none : t.kmem.kmemCacheAlloc t.fileCache = .ok (t.kmem, 0) := by
      rw [null]
      rfl
    exact ⟨t, 0, (filealloc_eq full none).trans (by rw [if_pos rfl]), holds, rfl,
      fun ne => absurd rfl ne,
      fun _ _ => rfl, iff_of_true rfl (Or.inr (Or.inl null)), by omega, Set.Nontrivial.nonempty⟩
  have cache := holds.cache null
  obtain ⟨k, f, alloc, leaves, result⟩ := holds.sound.alloc_cases cache.used
  have pages := cache.alloc holds.sound alloc
  have cache' := cache.calm (holds.sound.alloc_calm cache.used alloc)
  rcases result with ⟨rfl, sound⟩ | ⟨nonzero, notHeld, sound⟩
  · have call : t.filealloc = .ok (⟨k, t.fileCache, t.devsw, t.nfiles⟩, 0) := by
      rw [filealloc_eq full alloc, if_pos rfl]
    exact ⟨_, 0, call, ⟨sound, fun _ => cache'⟩, rfl, fun ne => absurd rfl ne, leaves.contents,
      filealloc_null_iff holds.sound (Or.inr cache.used) call, by show t.nfiles ≤ _; omega, pages⟩
  · rw [cache.size] at sound notHeld
    have written :
        Holds ⟨k.setMem (fresh k.mem f), t.fileCache, t.devsw, t.nfiles + 1⟩
        (fileObject t f :: held) space blockNum :=
      ⟨sound.writeObject List.mem_cons_self (fresh_outside k.mem f),
        fun _ => cache'.calm ⟨rfl, rfl, fun _ => rfl, rfl⟩⟩
    have call :
        t.filealloc = .ok (⟨k.setMem (fresh k.mem f), t.fileCache, t.devsw, t.nfiles + 1⟩, f) := by
      rw [filealloc_eq full alloc, if_neg nonzero]
    refine ⟨_, f, call, ?_, rfl, fun _ => fileRef_fresh k.mem f, ?_,
      filealloc_null_iff holds.sound (Or.inr cache.used) call, le_rfl, pages⟩
    · unfold handOut
      rw [if_neg nonzero]
      exact written
    · rintro p ⟨a, isHeld, inside⟩
      have apart := sound.held_disjoint (List.mem_cons_of_mem _ isHeld) List.mem_cons_self
        (fun same => notHeld (same ▸ isHeld))
      exact (fresh_outside k.mem f p (Set.disjoint_left.mp apart inside)).trans
        (leaves.contents p ⟨a, isHeld, inside⟩)

/-- `fileclose` of a last reference keeps the file allocated. -/
theorem Holds.fileclose_last (holds : Holds t held space blockNum) (isFile : fileObject t f ∈ held)
    (last : fileRef t.kmem.mem f = 1) (below : space + blockNum.toNat * 4096 ≤ phystop)
    (onStack : OnStack ff) :
    ∃ t', t.fileclose f ff = .ok t' ∧ Holds t' held space blockNum ∧ t'.fileCache = t.fileCache ∧
      SameOutside (fileObject t f).bytes t.kmem.mem t'.kmem.mem := by
  obtain ⟨k, call, sound, calm, _, outside⟩ :=
    Files.fileclose_last holds.sound isFile last (ownerOf_onStack holds.sound below onStack)
  exact ⟨_, call, ⟨sound, fun created => (holds.cache created).calm calm⟩, rfl, outside⟩

/-- **`fileclose` keeps the file allocated**, whichever reference it closes. -/
theorem Holds.fileclose (holds : Holds t held space blockNum) (isFile : fileObject t f ∈ held)
    (below : space + blockNum.toNat * 4096 ≤ phystop) (onStack : OnStack ff)
    (call : t.fileclose f ff = .ok t') :
    Holds t' held space blockNum ∧ t'.fileCache = t.fileCache := by
  by_cases last : fileRef t.kmem.mem f = 1
  · obtain ⟨t₁, call₁, after, cache, _⟩ := holds.fileclose_last isFile last below onStack
    obtain rfl := Except.ok.inj (call₁.symm.trans call)
    exact ⟨after, cache⟩
  · unfold Ftable.fileclose at call
    simp only at call
    by_cases open_ : fileRef t.kmem.mem f < 1
    · rw [if_pos open_] at call
      cases call
    · rw [if_neg open_, if_pos (by omega), Except.ok.injEq] at call
      subst call
      exact ⟨holds.write isFile (setRef_outside _ _), rfl⟩

/-- The cleanup of `pipealloc` without a pipe, after the first file is closed. -/
theorem pipeBad_eq {f0 f1 : Nat} (first : (if f0 ≠ 0 then t.fileclose f0 ff else .ok t) = .ok t') :
    t.pipeBad 0 f0 f1 ff = if f1 ≠ 0 then t'.fileclose f1 ff else .ok t' := by
  unfold Ftable.pipeBad
  rw [if_neg (not_not.mpr rfl)]
  show (if f0 ≠ 0 then _ else _) = _
  by_cases nonnull : f0 ≠ 0
  · rw [if_pos nonnull] at first ⊢
    rw [first]
    rfl
  · rw [if_neg nonnull] at first ⊢
    obtain rfl := Except.ok.inj first
    rfl

/-- The cleanup of `pipealloc` keeps its files allocated. -/
theorem Holds.pipeBad (holds : Holds t held space blockNum) {f0 f1 : Nat}
    (below : space + blockNum.toNat * 4096 ≤ phystop) (onStack : OnStack ff)
    (first : f0 ≠ 0 → fileObject t f0 ∈ held ∧ fileRef t.kmem.mem f0 = 1)
    (second : f1 ≠ 0 → fileObject t f1 ∈ held ∧ fileRef t.kmem.mem f1 = 1)
    (distinct : f1 ≠ 0 → f1 ≠ f0) :
    ∃ t', t.pipeBad 0 f0 f1 ff = .ok t' ∧ Holds t' held space blockNum ∧
    t'.fileCache = t.fileCache := by
  have close : ∃ t₁, (if f0 ≠ 0 then t.fileclose f0 ff else .ok t) = .ok t₁ ∧
      Holds t₁ held space blockNum ∧
      t₁.fileCache = t.fileCache ∧ SameOutside (fileObject t f0).bytes t.kmem.mem t₁.kmem.mem := by
    by_cases null : f0 = 0
    · exact ⟨t, if_neg (not_not.mpr null), holds, rfl, SameOutside.refl _ _⟩
    · rw [if_pos null]
      exact holds.fileclose_last (first null).1 (first null).2 below onStack
  obtain ⟨t₁, call₁, holds₁, cache₁, outside⟩ := close
  rw [pipeBad_eq call₁]
  by_cases null : f1 = 0
  · exact ⟨t₁, if_neg (not_not.mpr null), holds₁, cache₁⟩
  · rw [if_pos null]
    obtain ⟨isFile, last⟩ := second null
    have same := congrFun (fileObject_congr cache₁) f1
    have last₁ : fileRef t₁.kmem.mem f1 = 1 := by
      by_cases null0 : f0 = 0
      · rw [if_neg (not_not.mpr null0)] at call₁
        obtain rfl := Except.ok.inj call₁
        exact last
      · rw [fileRef_other holds.sound (first null0).1 isFile (distinct null) outside]
        exact last
    obtain ⟨t₂, call₂, holds₂, cache₂, _⟩ :=
      holds₁.fileclose_last (same ▸ isFile) last₁ below onStack
    exact ⟨t₂, call₂, holds₂, cache₂.trans cache₁⟩

/-- **`pipealloc` fails, and keeps every file that it took.** -/
theorem Holds.pipealloc (holds : Holds t held space blockNum)
    (below : space + blockNum.toNat * 4096 ≤ phystop) (onStack : OnStack ff) :
    ∃ t' f0 f1, t.pipealloc ff = .ok (t', false, f0, f1) ∧ t'.fileCache = t.fileCache ∧
      Holds t' (handOut f1 (fileObject t f1) (handOut f0 (fileObject t f0) held)) space blockNum ∧
      (f0 = 0 ↔ NoFile t) ∧ (f0 = 0 → f1 = 0) ∧
      (t.fileCache ≠ 0 → t.nfiles + 2 ≤ nfile → t.kmem.freePages.Nontrivial → f0 ≠ 0 ∧ f1 ≠ 0) := by
  obtain ⟨t₁, f0, call₁, opens₁⟩ := holds.filealloc
  by_cases null0 : f0 = 0
  · subst null0
    refine ⟨t₁, 0, 0, ?_, opens₁.cache, opens₁.holds, opens₁.null, fun _ => rfl,
      fun created room memory => ?_⟩
    · unfold Ftable.pipealloc
      rw [call₁]
      rfl
    · exact absurd (opens₁.null.mp rfl) (holds.not_noFile created (by omega) memory.nonempty)
  obtain ⟨t₂, f1, call₂, opens₂⟩ := opens₁.holds.filealloc
  have sameObject := fileObject_congr opens₁.cache
  have sameObject₂ := (fileObject_congr opens₂.cache).trans sameObject
  have isFirst : fileObject t f0 ∈ handOut f0 (fileObject t f0) held := mem_handOut_self null0
  have first : fileRef t₂.kmem.mem f0 = 1 := by
    rw [← opens₁.ref null0]
    unfold fileRef
    rw [load_congr]
    exact fun addr low high => opens₂.contents addr ⟨_, isFirst, ref_bytes low high⟩
  have holds₂ := opens₂.holds
  rw [sameObject] at holds₂
  have distinct : f1 ≠ 0 → f1 ≠ f0 := by
    rintro null1 rfl
    have nodup := holds₂.sound.nodup
    rw [handOut, if_neg null1] at nodup
    exact (List.nodup_cons.mp nodup).1 isFirst
  obtain ⟨t₃, call₃, holds₃, cache₃⟩ := holds₂.pipeBad below onStack
    (fun _ => ⟨by rw [sameObject₂]; exact mem_handOut_of_mem isFirst, first⟩)
    (fun null1 => ⟨by rw [sameObject₂]; exact mem_handOut_self null1, opens₂.ref null1⟩) distinct
  refine ⟨t₃, f0, f1, ?_, cache₃.trans (opens₂.cache.trans opens₁.cache), holds₃, opens₁.null,
    fun null => absurd null null0, fun created room memory => ⟨null0, fun null1 => ?_⟩⟩
  · unfold Ftable.pipealloc
    have noPipe : t₂.kmem.kmemCacheAlloc pipeCache = .ok (t₂.kmem, 0) := rfl
    by_cases null1 : f1 = 0
    · subst null1
      simp only [call₁, call₂, bind, Except.bind, if_neg null0, if_true, call₃, pure, Except.pure]
    · simp only [call₁, call₂, bind, Except.bind, if_neg null0, if_neg null1, noPipe, if_true,
        call₃, pure, Except.pure]
  · have counter := opens₁.counter
    exact opens₁.holds.not_noFile (by rw [opens₁.cache]; exact created) (by omega)
      (opens₁.pages memory) (opens₂.null.mp null1)

end Table

/-! ### Reachable states -/

namespace Pipes

/-- What the rest of the kernel does: calls of the allocator with what is live, and writes to what
is handed out or outside the heap. It frees no open file and does not destroy `file_cache`. -/
inductive Elsewhere (s : State) : Kmem → Prop
  | call {taken taken' : List Allocation} {k : Kmem} : s.table.kmem.Lives taken →
      AllocatorCall s.table.kmem taken k taken' →
      (∀ f ∈ s.refs, fileObject s.table f ∈ taken → fileObject s.table f ∈ taken') →
      (s.table.kmem.Used s.table.fileCache → k.Used s.table.fileCache) → Elsewhere s k
  | write {taken : List Allocation} {mem : Mem} : s.table.kmem.Lives taken →
      (∀ x ∈ s.table.kmem.regionBytes, x ∉ heldBytes taken → mem x = s.table.kmem.mem x) →
      Elsewhere s (s.table.kmem.setMem mem)

/-- A call on files, or a step of the rest of the kernel. -/
inductive Event
  | file (e : Files.Event)
  | kernel (k : Kmem)

def step (s : State) : Event → Option State
  | .file e => Files.step s e
  | .kernel k => some { s with table := { s.table with kmem := k } }

def Guard (s : State) : Event → Prop
  | .file _ => True
  | .kernel k => Elsewhere s k

/-- The invariant: every reference is to an allocated file. -/
def Ready (space : Nat) (blockNum : Int) (s : State) : Prop :=
  ∃ held, Holds s.table held space blockNum ∧ ∀ f ∈ s.refs, fileObject s.table f ∈ held

variable {s s' : State} {t : Ftable} {k₀ k : Kmem} {held : List Allocation} {ff space : Nat}
  {blockNum : Int} {isKernel : Bool} {events : List Event}

/-- The rest of the kernel keeps the invariant. -/
theorem Ready.elsewhere (ready : Ready space blockNum s) (moves : Elsewhere s k) :
    Ready space blockNum { s with table := { s.table with kmem := k } } := by
  obtain ⟨held, holds, isHeld⟩ := ready
  cases moves with
  | @call taken taken' _ lives call stays keeps =>
    have sound := holds.sound.of_lives lives
    refine ⟨taken', ⟨sound.allocatorCall call, fun created => ?_⟩, fun f isOpen => ?_⟩
    · have cache := holds.cache created
      exact cache.of_shape (keeps cache.used) (sound.sameShape call cache.used (keeps cache.used))
    · exact stays f isOpen ((holds.sound.mem_iff_of_lives lives _).mpr (isHeld f isOpen))
  | @write taken mem lives same =>
    refine ⟨held, ⟨?_, fun created => (holds.cache created).calm ⟨rfl, rfl, fun _ => rfl, rfl⟩⟩,
      isHeld⟩
    refine holds.sound.elsewhere (fun x inRegion notHeld => same x inRegion
      fun ⟨a, isTaken, inside⟩ => ?_) fun _ _ => rfl
    exact notHeld ⟨a, (holds.sound.mem_iff_of_lives lives a).mp isTaken, inside⟩

/-- **Every step keeps the invariant.** -/
theorem Ready.step (below : space + blockNum.toNat * 4096 ≤ phystop) {e : Event}
    (ready : Ready space blockNum s) (guard : Guard s e) (taken : step s e = some s') :
    Ready space blockNum s' := by
  cases e with
  | kernel k =>
    obtain rfl := Option.some.inj taken
    exact ready.elsewhere guard
  | file e =>
    obtain ⟨held, holds, isHeld⟩ := ready
    replace taken : Files.step s e = some s' := taken
    cases e with
    | filealloc =>
      obtain ⟨t', f, call, opens⟩ := holds.filealloc
      simp only [Files.step, call, Option.some.injEq] at taken
      subst taken
      refine ⟨_, opens.holds, fun g isOpen => ?_⟩
      show Allocation.object t'.fileCache g fileSize ∈ _
      rw [opens.cache]
      by_cases null : f = 0
      · simp only [if_pos null] at isOpen
        exact mem_handOut_of_mem (isHeld g isOpen)
      · simp only [if_neg null, List.mem_cons] at isOpen
        rcases isOpen with rfl | isOpen
        · exact mem_handOut_self null
        · exact mem_handOut_of_mem (isHeld g isOpen)
    | filedup f =>
      simp only [Files.step] at taken
      rw [Option.ite_none_right_eq_some] at taken
      obtain ⟨isOpen, taken⟩ := taken
      split at taken
      · next t' call =>
        obtain rfl := Option.some.inj taken
        unfold Ftable.filedup at call
        simp only at call
        split_ifs at call
        obtain rfl := Except.ok.inj call
        refine ⟨held, holds.write (isHeld f isOpen) (setRef_outside _ _), fun g member => ?_⟩
        rcases List.mem_cons.mp member with rfl | member
        · exact isHeld _ isOpen
        · exact isHeld g member
      · cases taken
    | fileclose f ff =>
      simp only [Files.step] at taken
      rw [Option.ite_none_right_eq_some] at taken
      obtain ⟨⟨isOpen, onStack⟩, taken⟩ := taken
      split at taken
      · next t' call =>
        obtain rfl := Option.some.inj taken
        obtain ⟨after, cache⟩ := holds.fileclose (isHeld f isOpen) below onStack call
        refine ⟨held, after, fun g member => ?_⟩
        show .object t'.fileCache g fileSize ∈ held
        rw [cache]
        exact isHeld g (List.mem_of_mem_erase member)
      · cases taken
    | pipealloc ff =>
      simp only [Files.step] at taken
      rw [Option.ite_none_right_eq_some] at taken
      obtain ⟨onStack, taken⟩ := taken
      obtain ⟨t', f0, f1, call, cache, after, _⟩ := holds.pipealloc below onStack
      rw [call] at taken
      obtain rfl := Option.some.inj taken
      refine ⟨_, after, fun g member => ?_⟩
      show Allocation.object t'.fileCache g fileSize ∈ _
      rw [cache]
      exact mem_handOut_of_mem (mem_handOut_of_mem (isHeld g member))
    | write f offset byte =>
      simp only [Files.step] at taken
      rw [Option.ite_none_right_eq_some, Option.some.injEq] at taken
      obtain ⟨⟨isOpen, inside, _⟩, rfl⟩ := taken
      refine ⟨held, holds.write (isHeld f isOpen) fun addr outside => Function.update_of_ne ?_ ..,
        isHeld⟩
      rintro rfl
      exact outside ⟨Nat.le_add_right f offset, Nat.add_lt_add_left inside f⟩

/-- `fileinit` creates the cache with slabs of one page. -/
theorem fileinit_order (sound : Sound k held space blockNum) (call : Ftable.fileinit k = .ok t)
    (created : t.fileCache ≠ 0) : (t.kmem.desc t.fileCache).slabOrder = 0 := by
  obtain ⟨⟨k₁, c⟩, create, call⟩ := bind_eq_ok call
  obtain ⟨⟨k₂, d⟩, kmalloc, call⟩ := bind_eq_ok call
  obtain rfl := Except.ok.inj call
  have order : (k₁.desc c).slabOrder = 0 := by
    rcases kmemCacheCreate_cases create with ⟨null, _⟩ | ⟨_, order, n, offset, _, _, layout, rfl⟩
    · exact absurd null created
    · rw [((addToCacheList_relinked _ _).sameShape c).slabOrder, modifyDesc_self]
      have first :
        layoutLoop (objectSizeFor fileSize) (minObjsFor (objectSizeFor fileSize))
        (maxSlabOrder + 1) 0 = some (0, 96, 224) := by decide
      rw [first, Option.some.injEq, Prod.mk.injEq] at layout
      exact layout.1.symm
  have sound₁ := sound.create (by norm_num) (fun _ isCtor => by cases isCtor) create
  obtain ⟨v, core, _⟩ := sound₁.view
  have calm : Calm k₁ k₂ := by
    rcases core.kmalloc_spec sound₁.idle sound₁.kmalloc (16 * 10) with ⟨k', run, keeps⟩ |
      ⟨k', v', obj, run, _, gains⟩
    all_goals obtain ⟨rfl, _⟩ := Prod.mk.inj (Except.ok.inj (run.symm.trans kmalloc))
    · exact keeps.calm
    · exact gains.calm
  exact (KmemCache.SameShape.of_layout (calm.layout c)).slabOrder.trans order

/-- After `fileinit` there is no reference. -/
theorem ready_fileinit (sound : Sound k held space blockNum) (call : Ftable.fileinit k = .ok t) :
    Ready space blockNum ⟨t, []⟩ := by
  have inv := inv_fileinit sound call
  obtain ⟨held', sound', _⟩ := inv.sound
  refine ⟨held', ⟨sound', fun created => ?_⟩, fun f isOpen => absurd isOpen List.not_mem_nil⟩
  obtain ⟨used, size⟩ := inv.cache.resolve_left created
  exact ⟨used, size, fileinit_order sound call created⟩

theorem ready_of_reached (given : Space space blockNum) (head : k₀.headOfCacheList = 0)
    (tail : k₀.tailOfCacheList = 0) (run : Kmem.Run k₀ space blockNum isKernel k held)
    (init : Ftable.fileinit k = .ok t) (below : space + blockNum.toNat * 4096 ≤ phystop)
    (guarded : Along step Guard ⟨t, []⟩ events)
    (reached : Machine.run step ⟨t, []⟩ events = some s) : Ready space blockNum s :=
  inv_of_run (fun _ _ _ ready guard taken => Ready.step below ready guard taken) events
    (ready_fileinit (run.sound given head tail) init) guarded reached

/-- Without a cache there are no files. -/
theorem Sound.liveObjects_null (sound : Sound k held space blockNum) : k.liveObjects 0 = ∅ := by
  obtain ⟨v, core, _⟩ := sound.view
  rw [sound.liveObjects_eq, Set.eq_empty_iff_forall_notMem]
  intro f isHeld
  exact (core.pool.used_bounds (sound.used_of_held isHeld).1).1 rfl

/-- **`pipealloc` fails, and leaves allocated what it opened**: nothing when there is no file to
give, and two files when there is room for them. -/
theorem Ready.pipealloc (ready : Ready space blockNum s)
    (below : space + blockNum.toNat * 4096 ≤ phystop) (onStack : OnStack ff) :
    ∃ t' f0 f1, s.table.pipealloc ff = .ok (t', false, f0, f1) ∧
      (f0 = 0 ↔ NoFile s.table) ∧
      (f0 ≠ 0 → f0 ∉ s.files ∧ f0 ∈ t'.kmem.liveObjects s.table.fileCache) ∧
      (f0 = 0 → t'.kmem.liveObjects s.table.fileCache = s.files ∧
        t'.kmem.liveObjects pipeCache = s.table.kmem.liveObjects pipeCache) ∧
      (s.table.fileCache ≠ 0 → s.table.nfiles + 2 ≤ nfile → s.table.kmem.freePages.Nontrivial →
        f0 ≠ f1 ∧ f0 ∉ s.files ∧ f1 ∉ s.files ∧
          t'.kmem.liveObjects s.table.fileCache = insert f1 (insert f0 s.files)) := by
  obtain ⟨held, holds, _⟩ := ready
  obtain ⟨t', f0, f1, call, cache, after, null, nullBoth, nonnull⟩ := holds.pipealloc below onStack
  have created_of_first : f0 ≠ 0 → s.table.fileCache ≠ 0 :=
    fun ne noCache => ne (null.mpr (Or.inr (Or.inl noCache)))
  have sameObject := fileObject_congr cache
  have files' : s.table.fileCache ≠ 0 → t'.kmem.liveObjects s.table.fileCache =
      {f | fileObject s.table f ∈ handOut f1 (fileObject s.table f1)
        (handOut f0 (fileObject s.table f0) held)} := by
    intro created
    have live := after.files (by rw [cache]; exact created)
    rw [cache, sameObject] at live
    exact live
  refine ⟨t', f0, f1, call, null, fun ne => ⟨?_, ?_⟩, fun null0 => ⟨?_, ?_⟩,
    fun created room memory => ?_⟩
  · show f0 ∉ s.table.kmem.liveObjects s.table.fileCache
    rw [holds.files (created_of_first ne)]
    have nodup := nodup_of_handOut after.sound.nodup
    rw [handOut, if_neg ne] at nodup
    exact (List.nodup_cons.mp nodup).1
  · rw [files' (created_of_first ne)]
    exact mem_handOut_of_mem (mem_handOut_self ne)
  · show _ = s.table.kmem.liveObjects s.table.fileCache
    by_cases noCache : s.table.fileCache = 0
    · rw [noCache, Sound.liveObjects_null after.sound, Sound.liveObjects_null holds.sound]
    · rw [files' noCache, holds.files noCache, nullBoth null0, null0]
      rfl
  · exact (Sound.liveObjects_null after.sound).trans (Sound.liveObjects_null holds.sound).symm
  obtain ⟨null0, null1⟩ := nonnull created room memory
  have files : s.files = {f | fileObject s.table f ∈ held} := holds.files created
  have nodup := after.sound.nodup
  have injective : ∀ f g, fileObject s.table f = fileObject s.table g ↔ f = g := by
    intro f g
    unfold fileObject
    rw [Allocation.object.injEq, and_iff_left rfl, and_iff_right rfl]
  simp only [handOut, if_neg null0, if_neg null1, List.nodup_cons, List.mem_cons, not_or, injective]
    at nodup
  refine ⟨fun same => nodup.1.1 same.symm, ?_, ?_, ?_⟩
  · rw [files]
    exact nodup.2.1
  · rw [files]
    exact nodup.1.2
  · rw [files' created, files]
    ext f
    simp only [handOut, if_neg null0, if_neg null1, Set.mem_ofPred_eq, List.mem_cons, injective,
      Set.mem_insert_iff]

/-- **No reachable state lets `pipealloc` do what it is for**: it makes no pipe, it leaves nothing
allocated exactly when there is no file to give, and with room for two files it leaves both
allocated. -/
theorem pipealloc_leaks (given : Space space blockNum) (head : k₀.headOfCacheList = 0)
    (tail : k₀.tailOfCacheList = 0) (run : Kmem.Run k₀ space blockNum isKernel k held)
    (init : Ftable.fileinit k = .ok t) (below : space + blockNum.toNat * 4096 ≤ phystop)
    (guarded : Along step Guard ⟨t, []⟩ events) (reached : Machine.run step ⟨t, []⟩ events = some s)
    (onStack : OnStack ff) : ¬ Makes s.table ff ∧ (CleansUp s.table ff ↔ NoFile s.table) ∧
      (s.table.nfiles + 2 ≤ nfile → s.table.kmem.freePages.Nontrivial → s.table.fileCache ≠ 0 →
        ¬ CleansUp s.table ff ∧
          ∃ t' f0 f1, s.table.pipealloc ff = .ok (t', false, f0, f1) ∧ f0 ≠ f1 ∧ f0 ∉ s.files ∧
            f1 ∉ s.files ∧
            t'.kmem.liveObjects s.table.fileCache = insert f1 (insert f0 s.files)) := by
  obtain ⟨t', f0, f1, call, null, opened, kept, both⟩ :=
    (ready_of_reached given head tail run init below guarded reached).pipealloc below onStack
  have cleans_iff : CleansUp s.table ff ↔ NoFile s.table := by
    constructor
    · intro cleans
      by_contra isFile
      obtain ⟨fresh, live⟩ := opened fun null0 => isFile (null.mp null0)
      rw [(cleans t' f0 f1 call).1] at live
      exact fresh live
    · intro none t₁ g0 g1 call₁
      rw [call, Except.ok.injEq, Prod.mk.injEq] at call₁
      rw [← call₁.1]
      exact kept (null.mpr none)
  refine ⟨?_, cleans_iff, fun room memory created => ⟨fun cleans => ?_, t', f0, f1, call,
    both created room memory⟩⟩
  · rintro ⟨t₁, g0, g1, pi, made, _⟩
    rw [call] at made
    cases made
  · obtain ⟨_, _, fresh1, files⟩ := both created room memory
    have same : insert f1 (insert f0 s.files) = s.files := files.symm.trans (cleans t' f0 f1 call).1
    exact fresh1 (same ▸ Set.mem_insert f1 _)

/-- Two free blocks. -/
theorem freePages_nontrivial {b : Buddy} {i j : Nat}
    (first : i < b.num ∧ (b.blockMeta i).isHeadOfFreeBlock = true)
    (second : j < b.num ∧ (b.blockMeta j).isHeadOfFreeBlock = true) (ne : i ≠ j) :
    b.freePages.Nontrivial :=
  ⟨i, Buddy.mem_freePages_of_head first.1 first.2, j, Buddy.mem_freePages_of_head second.1 second.2,
    ne⟩

theorem onStack_first : OnStack (kstack 0 + 3000) :=
  ⟨0, by norm_num, Nat.le_add_right _ _, show kstack 0 + 3000 + 40 ≤ kstack 0 + 4096 by omega⟩

theorem pipealloc_leaks_oneFile : ∃ k t s, Kmem.Run zeroed 0x80030000 32720 true k [] ∧
    Ftable.fileinit k = .ok t ∧
    Machine.run step ⟨t, []⟩ [.file .filealloc] = some s ∧ ¬ Makes s.table (kstack 0 + 3000) ∧
      ¬ CleansUp s.table (kstack 0 + 3000) := by
  obtain ⟨t, call, observed⟩ :=
    exists_ok ((zeroed.kmemInit 0x80030000 32720 true) >>= Ftable.fileinit)
    (fun t => (Machine.run step ⟨t, []⟩ [.file .filealloc]).map fun (s : State) =>
      (decide (s.table.fileCache = 0), s.table.nfiles,
      decide ((0 < s.table.kmem.num ∧ (s.table.kmem.blockMeta 0).isHeadOfFreeBlock = true) ∧
        8192 < s.table.kmem.num ∧ (s.table.kmem.blockMeta 8192).isHeadOfFreeBlock = true)))
    (some (false, 1, true)) (by decide +kernel)
  obtain ⟨k, kmemInit, init⟩ := bind_eq_ok call
  rw [Option.map_eq_some_iff] at observed
  obtain ⟨s, reached, observed⟩ := observed
  simp only [Prod.mk.injEq, decide_eq_true_eq, decide_eq_false_iff_not] at observed
  obtain ⟨created, one, first, second⟩ := observed
  have guarded : Along step Guard ⟨t, []⟩ [.file .filealloc] := ⟨trivial, fun _ _ => trivial⟩
  obtain ⟨notMade, _, leaks⟩ :=
    pipealloc_leaks space_kernelHeap rfl rfl (.init kmemInit) init (by decide) guarded
    reached onStack_first
  have leak := leaks (by rw [one]; norm_num) (freePages_nontrivial first second (by decide)) created
  exact ⟨k, t, s, .init kmemInit, init, reached, notMade, leak.1⟩

/-- **The first `pipealloc` after boot** fails; both files stay allocated. -/
theorem firstPipe_leaks : ∃ k t t', Kmem.Run zeroed 0x80030000 32720 true k [] ∧
    Ftable.fileinit k = .ok t ∧
    t.nfiles = 0 ∧ t.kmem.freePages.Nontrivial ∧
      t.pipealloc (kstack 0 + 3000) = .ok (t', false, 2185220320, 2185220360) ∧
      t.kmem.liveObjects t.fileCache = ∅ ∧
      t'.kmem.liveObjects t.fileCache = {2185220360, 2185220320} ∧
      ¬ Makes t (kstack 0 + 3000) ∧ ¬ CleansUp t (kstack 0 + 3000) := by
  obtain ⟨t, call, observed⟩ :=
    exists_ok ((zeroed.kmemInit 0x80030000 32720 true) >>= Ftable.fileinit)
    (fun t => (decide (t.fileCache = 0), t.nfiles,
        decide ((0 < t.kmem.num ∧ (t.kmem.blockMeta 0).isHeadOfFreeBlock = true) ∧
        8192 < t.kmem.num ∧ (t.kmem.blockMeta 8192).isHeadOfFreeBlock = true),
      ((t.pipealloc (kstack 0 + 3000)).map fun r => r.2.2).toOption))
    (false, 0, true, some (2185220320, 2185220360)) (by decide +kernel)
  obtain ⟨k, kmemInit, init⟩ := bind_eq_ok call
  simp only [Prod.mk.injEq, decide_eq_true_eq, decide_eq_false_iff_not] at observed
  obtain ⟨created, none, ⟨first, second⟩, addresses⟩ := observed
  have memory := freePages_nontrivial first second (by decide)
  have sound := (Kmem.Run.init kmemInit).sound space_kernelHeap rfl rfl
  have noFiles : t.kmem.liveObjects t.fileCache = ∅ :=
    (inv_fileinit sound init).files_eq.trans (by simp)
  obtain ⟨t', f0, f1, pipe, _, _, _, leak⟩ :=
    (ready_fileinit sound init).pipealloc (by decide) onStack_first
  obtain ⟨_, _, fresh, files⟩ := leak created (by show t.nfiles + 2 ≤ 100; omega) memory
  have made : t.pipealloc (kstack 0 + 3000) = .ok (t', false, f0, f1) := pipe
  rw [made] at addresses
  obtain ⟨rfl, rfl⟩ := Prod.mk.inj (Option.some.inj addresses)
  have live : t'.kmem.liveObjects t.fileCache = {2185220360, 2185220320} := by
    refine files.trans ?_
    rw [show State.files ⟨t, []⟩ = ∅ from noFiles, insert_empty_eq]
  refine ⟨k, t, t', .init kmemInit, init, none, memory, made, noFiles, live, ?_, fun cleans => ?_⟩
  · rintro ⟨t₁, g0, g1, pi, other, _⟩
    rw [made] at other
    cases other
  · have same := (cleans t' _ _ made).1
    rw [live, noFiles] at same
    exact (Set.insert_nonempty _ _).ne_empty same

end Pipes

end Files

end Xv6Slab
