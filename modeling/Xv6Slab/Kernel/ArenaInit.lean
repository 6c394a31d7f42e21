/-
**Which memory `sys_kmem_init` writes.**

`kmem_init` places 128 bytes of free-list heads, 16 bytes for each page and the descriptors (16384
bytes) at the start of its space, before it looks at how much space there is. `sys_kmem_init` gives
it a buddy block of the next power of two of the requested pages.

* `Buddy.linkWords`, `Kmem.initBytes` — the bytes that `kmem_init` writes; `kmemInit_frame` — memory
  is unchanged elsewhere.
* `Confined` — what `sys_kmem_init` should leave alone.
* `sysKmemInit_confined_iff` — **the arena is set up inside its block exactly when at least five
  pages are requested.**
-/

import Xv6Slab.Kernel.Arena
import Xv6Slab.Kernel.Window
import Xv6Slab.Slab.Frames
import Xv6Slab.Spec.BuddyCalls

namespace Xv6Slab

open Bytes Tilings

/-! ### The bytes `buddy_init` writes -/

namespace Buddy

variable {b : Buddy}

/-- The link words of the free blocks. -/
def linkWords (b : Buddy) : Set Nat :=
  {a | ∃ c ∈ b.freeBlocks, b.page c.index ≤ a ∧ a < b.page c.index + 8}

/-- The carving loop keeps the region, and the metadata of the pages before `curr`. -/
theorem carveLoop_keeps : ∀ (fuel : Nat) (b : Buddy) (curr : Nat),
    (carveLoop fuel b curr).managedStart = b.managedStart ∧
      (carveLoop fuel b curr).managedNumBlocks = b.managedNumBlocks ∧
      ∀ i < curr, (carveLoop fuel b curr).blockMeta i = b.blockMeta i := by
  intro fuel
  induction fuel with
  | zero => exact fun b curr => ⟨rfl, rfl, fun _ _ => rfl⟩
  | succ fuel ih =>
    intro b curr
    rw [carveLoop]
    split
    · obtain ⟨start, blocks, metas⟩ := ih _ _
      refine ⟨start, blocks, fun i lt => ?_⟩
      rw [metas i (Nat.lt_add_right _ lt)]
      exact Function.update_of_ne lt.ne ..
    · exact ⟨rfl, rfl, fun _ _ => rfl⟩

/-- The carving loop writes the link words of the blocks it leaves free. -/
theorem carveLoop_writes : ∀ (fuel : Nat) {b : Buddy} {curr : Nat}, b.Region →
    SameOutside (carveLoop fuel b curr).linkWords b.mem (carveLoop fuel b curr).mem := by
  intro fuel
  induction fuel with
  | zero => exact fun _ => SameOutside.refl _ _
  | succ fuel ih =>
    intro b curr region
    have keeps := carveLoop_keeps fuel
    rw [carveLoop]
    by_cases more : (curr : Int) < b.managedNumBlocks
    · rw [if_pos more]
      dsimp only
      have lt : curr < b.num := by
        rw [num]
        omega
      have address : (b.managedStart + curr * blockSize) % 2 ^ 64 = b.page curr := by
        have below := region.page_lt lt
        rw [page] at below ⊢
        show (b.managedStart + curr * 4096) % 2 ^ 64 = _
        exact Nat.mod_eq_of_lt (by omega)
      rw [address]
      generalize order : pickOrder curr (b.managedNumBlocks.toNat - curr) maxOrder = k
      generalize marked : Function.update b.blockMeta curr
        { b.blockMeta curr with isHeadOfFreeBlock := true, freeOrder := k } = metas
      generalize pushed : pushFree { b with blockMeta := metas } k (b.page curr) = b₁
      have region₁ : b₁.Region := by
        rw [← pushed]
        exact ⟨region.aligned, region.pos, region.fits, region.small⟩
      refine SameOutside.trans ?_ (ih region₁)
      obtain ⟨start, blocks, below⟩ := keeps b₁ (curr + 2 ^ k)
      have metaAt : (carveLoop fuel b₁ (curr + 2 ^ k)).blockMeta curr =
          { b.blockMeta curr with isHeadOfFreeBlock := true, freeOrder := k } := by
        rw [below curr (Nat.lt_add_of_pos_right (Nat.two_pow_pos k)), ← pushed, ← marked]
        exact Function.update_self ..
      -- the block pushed here is free when the loop ends
      have isFree : (⟨curr, k⟩ : Block) ∈ (carveLoop fuel b₁ (curr + 2 ^ k)).freeBlocks := by
        refine ⟨?_, by rw [metaAt], by rw [metaAt]⟩
        have same : (carveLoop fuel b₁ (curr + 2 ^ k)).num = b.num := by
          rw [num, blocks, ← pushed]
          rfl
        rw [same]
        exact lt
      have page : (carveLoop fuel b₁ (curr + 2 ^ k)).page curr = b.page curr := by
        rw [Buddy.page, start, ← pushed]
        rfl
      have stored : SameOutside (Set.Ico (b.page curr) (b.page curr + 8)) b.mem b₁.mem := by
        rw [← pushed]
        exact store_sameOutside b.mem (b.page curr) 8 (b.freeArea k)
      refine stored.mono fun a inside => ⟨_, isFree, ?_⟩
      rw [page]
      exact inside
    · rw [if_neg more]
      exact SameOutside.refl _ _

theorem buddyInit_writes (region : b.Region) :
    SameOutside b.buddyInit.linkWords b.mem b.buddyInit.mem := by
  unfold buddyInit
  exact carveLoop_writes _ ⟨region.aligned, region.pos, region.fits, region.small⟩

end Buddy

/-! ### The bytes `kmem_init` writes -/

namespace Kmem

variable {k k' : Kmem} {space : Nat} {blockNum : Int}

/-- The metadata of an allocator with `block_meta` for so many pages. -/
def metadataBytes (k : Kmem) (blockNum : Int) : Set Nat :=
  Set.Ico k.freeAreaAt (k.freeAreaAt + 8 * (maxOrder + 1)) ∪
    Set.Ico k.blockMetaAt (k.blockMetaAt + 16 * blockNum.toNat) ∪
    Set.Ico k.cachePool (k.cachePool + maxNumCaches * descSize)

/-- **The bytes `kmem_init` writes**, seen from the state it leaves. -/
def initBytes (k : Kmem) (blockNum : Int) : Set Nat :=
  k.metadataBytes blockNum ∪ k.toBuddy.linkWords

theorem createKmallocCaches_pooled (head : k.headOfCacheList = 0 ∨ k.InPool k.headOfCacheList) :
    ∀ (count : Nat) {k' : Kmem}, k.createKmallocCaches count = .ok k' → Pooled k k' := by
  intro count
  induction count with
  | zero =>
    intro k' run
    cases run
    exact .refl head
  | succ count ih =>
    intro k' run
    obtain ⟨k₁, before, run⟩ := bind_eq_ok run
    obtain ⟨⟨k₂, c⟩, create, run⟩ := bind_eq_ok run
    cases run
    have first := ih before
    have both := first.trans (kmemCacheCreate_pooled first.head create)
    exact ⟨both.buddy, both.freeAreaAt, both.blockMetaAt, both.cachePool, both.head, both.desc⟩

theorem manage_head (k : Kmem) (low high : Nat) :
    (k.manage low high).headOfCacheList = k.headOfCacheList := rfl

theorem manage_start (k : Kmem) (low high : Nat) : (k.manage low high).managedStart = low := rfl

theorem manage_cachePool (k : Kmem) (low high : Nat) :
    (k.manage low high).cachePool = k.cachePool := rfl

theorem manage_metadataBytes (k : Kmem) (low high : Nat) (blockNum : Int) :
    (k.manage low high).metadataBytes blockNum = k.metadataBytes blockNum := rfl

/-- The three `memset`s write in the metadata. -/
theorem placeMetadata_writes (given : Space space blockNum) (k : Kmem) :
    SameOutside ((k.placeMetadata space blockNum).1.metadataBytes blockNum) k.mem
    (k.placeMetadata space blockNum).1.mem := by
  have nonneg := given.nonneg
  have fits := given.fits
  simp only [maxva] at fits
  have count : toUint64 blockNum = blockNum.toNat := toUint64_of_nonneg nonneg (by omega)
  have bytes : toUint64 blockNum * 16 % 2 ^ 32 ≤ 16 * blockNum.toNat := by
    rw [count, Nat.mul_comm 16]
    exact Nat.mod_le _ _
  have heads := (fill_sameOutside k.mem space 128 0).mono
    (show _ ⊆ (k.placeMetadata space blockNum).1.metadataBytes blockNum from fun a inside =>
      .inl (.inl inside))
  have metas :=
    (fill_sameOutside (fill k.mem space 128 0) ((space + 128) % 2 ^ 64)
      (toUint64 blockNum * 16 % 2 ^ 32) 0).mono
    (show _ ⊆ (k.placeMetadata space blockNum).1.metadataBytes blockNum from fun a inside =>
      .inl (.inr ⟨inside.1, lt_of_lt_of_le inside.2 (Nat.add_le_add_left bytes _)⟩))
  refine (heads.trans metas).trans ((fill_sameOutside _ _ (maxNumCaches * descSize) 0).mono
    fun a inside => .inr inside)

/-- `buddy_init` and the caches of `kmalloc` write link words and descriptors. -/
theorem createKmallocCaches_frame {blockNum : Int} (region : k.toBuddy.Region)
    (head : k.headOfCacheList = 0)
    (created : (k.setBuddy k.toBuddy.buddyInit).createKmallocCaches kmallocNumCaches = .ok k') :
    SameOutside k'.toBuddy.linkWords k.mem k'.mem ∧
      k'.metadataBytes blockNum = k.metadataBytes blockNum ∧
      k'.cachePool = k.cachePool ∧ ∀ c, ¬ k.InPool c → k'.desc c = k.desc c := by
  have writes := Buddy.buddyInit_writes region
  generalize k.toBuddy.buddyInit = b at *
  have pooled := createKmallocCaches_pooled (k := k.setBuddy b) (.inl head) kmallocNumCaches created
  have buddy : k'.toBuddy = b := pooled.buddy
  refine ⟨by rw [buddy]; exact writes, ?_, pooled.cachePool, pooled.desc⟩
  unfold metadataBytes
  rw [pooled.freeAreaAt, pooled.blockMetaAt, pooled.cachePool]
  rfl

/-- **`kmem_init` writes nothing but `initBytes`**, and no descriptor outside its pool. -/
theorem kmemInit_frame {isKernel : Bool} (given : Space space blockNum)
    (head : k.headOfCacheList = 0) (run : k.kmemInit space blockNum isKernel = .ok k') :
    SameOutside (k'.initBytes blockNum) k.mem k'.mem ∧ ∀ c, ¬ k'.InPool c →
    k'.desc c = k.desc c := by
  obtain ⟨high, highLe, near, created⟩ := kmemInit_cases given run
  have region := (manage_placement given k highLe near).region given
  have headAt : (k.placeMetadata space blockNum).1.headOfCacheList = 0 := head
  have cleared : ∀ c, ¬ (k.placeMetadata space blockNum).1.InPool c →
      (k.placeMetadata space blockNum).1.desc c = k.desc c := by
    intro c outside
    unfold InPool at outside
    exact if_neg outside
  rw [← manage_head _ (k.placeMetadata space blockNum).2 high] at headAt
  obtain ⟨writes, metadata, pool, descs⟩ := createKmallocCaches_frame region headAt created
  refine ⟨SameOutside.trans ((placeMetadata_writes given k).mono ?_)
    (writes.mono Set.subset_union_right), ?_⟩
  · unfold initBytes
    rw [metadata, manage_metadataBytes]
    exact Set.subset_union_left
  · intro c outside
    unfold InPool at outside
    rw [pool] at outside
    exact (descs c outside).trans (cleared c outside)

/-- `kmem_init` for a process returns, and manages the pages from the end of its metadata to the end
of its space. -/
theorem kmemInit_user (given : Space space blockNum) (head : k.headOfCacheList = 0)
    (tail : k.tailOfCacheList = 0) :
    ∃ k', k.kmemInit space blockNum false = .ok k' ∧ Placement k' space blockNum ∧
      k'.managedStart < k'.cachePool + maxNumCaches * descSize + 4096 ∧
      (0 ≤ k'.managedNumBlocks ↔ k'.managedStart ≤ space + blockNum.toNat * 4096) := by
  obtain ⟨_, _, pool, _, lowGe, lowLt⟩ := placeMetadata_spec given k
  have nonneg := given.nonneg
  have fits := given.fits
  simp only [maxva] at fits
  have near : (k.placeMetadata space blockNum).2 ≤ space + blockNum.toNat * 4096 + 2 ^ 20 := by
    omega
  have count : toUint64 blockNum = blockNum.toNat := toUint64_of_nonneg nonneg (by omega)
  have regionEnd : (space + toUint64 blockNum * 4096) % 2 ^ 64 = space + blockNum.toNat * 4096 := by
    rw [count]
    omega
  obtain ⟨k', v, run, _, _, _, _, place, _⟩ := createKmallocCaches_fresh given head tail le_rfl near
  refine ⟨k', ?_, (manage_placement given k le_rfl near).of_samePlace place, ?_, ?_⟩
  · unfold kmemInit
    simp only [regionEnd]
    exact run
  · rw [place.start, place.cachePool, manage_start, manage_cachePool, pool]
    exact lowLt
  · rw [place.blocks, place.start, manage_blocks, manage_start]
    rcases pages_cases (show (k.placeMetadata space blockNum).2 ≤ 2 ^ 39 by omega)
      (show space + blockNum.toNat * 4096 ≤ 2 ^ 39 by omega) near with ⟨order, value⟩ |
      ⟨order, negative⟩
    · rw [value]
      exact iff_of_true (Int.natCast_nonneg _) order
    · exact iff_of_false (Int.not_le.mpr negative) (Nat.not_le.mpr order)

end Kmem

/-! ### The metadata and the space -/

namespace Kmem

variable {k : Kmem} {space : Nat} {blockNum : Int}

/-- The metadata lies between the start of the space and the managed region. -/
theorem Placement.metadata_before (placement : Placement k space blockNum) {a : Nat}
    (inMeta : a ∈ k.metadataBytes blockNum) : space ≤ a ∧ a < k.managedStart := by
  have heads := placement.freeAreaAt
  have metas := placement.blockMetaAt
  have pool := placement.cachePool
  have before := placement.before
  rcases inMeta with (⟨low, high⟩ | ⟨low, high⟩) | ⟨low, high⟩
  · simp only [maxOrder] at high
    omega
  · omega
  · omega

/-- The managed region lies in the space. -/
theorem Placement.region_sub (placement : Placement k space blockNum) :
    k.regionBytes ⊆ Set.Ico space (space + blockNum.toNat * 4096) := by
  have pool := placement.cachePool
  have before := placement.before
  rintro a ⟨low, high⟩
  rcases placement.inside with none | inside
  · rw [none] at high
    exact absurd high (by omega)
  · exact ⟨by omega, by omega⟩

/-- If the metadata ends in the space, `kmem_init` writes only there. -/
theorem Placement.initBytes_sub (placement : Placement k space blockNum)
    (start : k.managedStart ≤ space + blockNum.toNat * 4096) :
    k.initBytes blockNum ⊆ Set.Ico space (space + blockNum.toNat * 4096) := by
  rintro a (inMeta | ⟨c, isFree, low, high⟩)
  · obtain ⟨above, below⟩ := placement.metadata_before inMeta
    exact ⟨above, lt_of_lt_of_le below start⟩
  · refine placement.region_sub ⟨?_, ?_⟩
    · exact (Nat.le_add_right _ _).trans low
    · have index := isFree.1
      unfold Buddy.page at high
      omega

/-- The metadata of an aligned space takes five pages, or more when it describes more than 248. -/
theorem Placement.five_iff (placement : Placement k space blockNum) (aligned : space % 4096 = 0)
    (positive : 0 < blockNum)
    (near : k.managedStart < k.cachePool + maxNumCaches * descSize + 4096) :
    k.managedStart ≤ space + blockNum.toNat * 4096 ↔ 5 ≤ blockNum := by
  have pool := placement.cachePool
  have before := placement.before
  have startAligned := placement.aligned
  simp only [maxNumCaches, descSize] at before near
  omega

end Kmem

/-! ### The system call -/

namespace Buddy

/-- What allocating a block says is kept when only the block itself is written. -/
theorem Allocates.write {b b' : Buddy} {t i k : Nat} (allocates : Allocates b b' t i k) {mem : Mem}
    (same : SameOutside (Set.Ico (b.page i) (b.page i + 4096 * 2 ^ t)) b'.mem mem) :
    Allocates b { b' with mem := mem } t i k where
  chosen := allocates.chosen
  enough := allocates.enough
  least := allocates.least
  wasFree := allocates.wasFree
  alloc := allocates.alloc
  freed := allocates.freed
  others := allocates.others
  owners := allocates.owners
  region := allocates.region
  new := allocates.new
  mem := by
    have grows :=
      Nat.mul_le_mul_left 4096 (Nat.pow_le_pow_right (show 0 < 2 by omega) allocates.enough)
    exact allocates.mem.trans (same.mono (Set.Ico_subset_Ico_right (Nat.add_le_add_left grows _)))

end Buddy

namespace Kernel

variable {s s' : Kernel} {p : Nat} {held : List Allocation}

/-- **What `sys_kmem_init` should leave alone** when it gets the block at `arena`. -/
structure Confined (s s' : Kernel) (p : Nat) (pages : Int) (held : List Allocation)
    (arena order : Nat) : Prop where
  /-- Every byte that `kmem_init` wrote lies in the block; its `kmem_state` is the process's own. -/
  written : (s'.ukmem p).initBytes pages ⊆ (Allocation.block arena order).bytes
  otherProcs : ∀ q ≠ p, s'.proc q = s.proc q
  /-- The managed region lies in the block, after the metadata. -/
  blocks : 0 ≤ (s'.ukmem p).managedNumBlocks
  region : (s'.ukmem p).regionBytes ⊆ (Allocation.block arena order).bytes
  after : ∀ a ∈ (s'.ukmem p).metadataBytes pages, a < (s'.ukmem p).managedStart
  /-- Every other live allocation keeps its contents. -/
  contents : ∀ a ∈ held, ∀ x ∈ a.bytes, s'.kmem.mem x = s.kmem.mem x
  /-- The kernel's free lists and metadata are those that `buddy_alloc` left, and this took the
  block out. -/
  buddy : ∃ k, s.kmem.buddyAlloc pages.toNat = .ok (k, arena) ∧
    s'.kmem.toBuddy = { k.toBuddy with mem := s'.kmem.mem } ∧
    SameOutside (Allocation.block arena order).bytes k.mem s'.kmem.mem
  removed : ∃ i k, arena = s.kmem.page i ∧ Buddy.Allocates s.kmem.toBuddy s'.kmem.toBuddy order i k
  /-- Its caches are as they were. -/
  own : s'.kmem = { s.kmem with toBuddy := s'.kmem.toBuddy, desc := s'.kmem.desc }
  caches : ∀ c, c ∉ (Allocation.block arena order).bytes → s'.kmem.desc c = s.kmem.desc c

/-- `sys_kmem_init` returns. -/
theorem sysKmemInit_returns {space₀ : Nat} {blockNum₀ : Int}
    (kernel : Kmem.Sound s.kmem held space₀ blockNum₀) (given : Space space₀ blockNum₀)
    (global : s.active = none) (head : (s.proc p).ukmem.headOfCacheList = 0)
    (tail : (s.proc p).ukmem.tailOfCacheList = 0) (space : UInt64) (pages : Int32) :
    ∃ s' value, s.sysKmemInit p space pages = .ok (s', value) ∧ (value = 0 ∨ value = minusOne) := by
  unfold sysKmemInit
  split
  · exact ⟨_, _, rfl, .inr rfl⟩
  next range =>
  simp only [maxTestPages] at range
  split
  · exact ⟨_, _, rfl, .inr rfl⟩
  have few : pages.toInt.toNat ≤ 2 ^ 31 := by omega
  obtain ⟨⟨k, arena⟩, buddy⟩ := kernel.returns.buddyAlloc pages.toInt.toNat few
  obtain ⟨kmem, proc, active⟩ := s
  cases global
  have buddy' :
      (modifyProc ⟨kmem, proc, none⟩ p fun q => q.request space pages.toInt).curr.buddyAlloc
      pages.toInt.toNat = .ok (k, arena) := buddy
  simp only [buddy']
  by_cases null : arena = 0
  · exact ⟨_, _, if_pos null, .inr rfl⟩
  obtain ⟨order, isOrder, _, enough, _⟩ := Buddy.orderForPages_least few
  have handed := kernel.buddyAlloc isOrder buddy
  rw [Kmem.handOut_of_ne null] at handed
  have arenaSpace :=
    handed.arenaSpace given List.mem_cons_self (show 0 < pages.toInt by omega) enough
  obtain ⟨k', init, _⟩ :=
    Kmem.kmemInit_user (k := { (proc p).ukmem with mem := k.mem, desc := k.desc }) arenaSpace head
    tail
  have init' :
      ((((modifyProc ⟨kmem, proc, none⟩ p fun q => q.request space pages.toInt).setCurr
        k).modifyProc p fun q =>
      q.back (UInt64.ofNat arena)).kmemPush p).1.curr.kmemInit arena pages.toInt false =
        .ok k' := by
    rw [← init]
    simp [curr, ukmem, kmemPush, setCurr, modifyProc, Proc.back, Proc.request]
  exact ⟨_, _, (if_neg null).trans (congrArg (· >>= _) init'), .inl rfl⟩

/-- `buddy_alloc` takes a block that nobody held, and leaves what is held alone. -/
theorem taken_apart {space₀ : Nat} {blockNum₀ : Int} {k : Kmem} {arena order size : Nat}
    (kernel : Kmem.Sound s.kmem held space₀ blockNum₀) (positive : size ≠ 0)
    (isOrder : Buddy.orderForPages size = .ok order)
    (taken : s.kmem.buddyAlloc size = .ok (k, arena)) (nonnull : arena ≠ 0) :
    ∀ a ∈ held, ∀ x ∈ a.bytes, x ∉ (Allocation.block arena order).bytes ∧
    k.mem x = s.kmem.mem x := by
  obtain ⟨v, core, same⟩ := kernel.view
  rcases core.buddyAlloc_spec positive isOrder with failed | ⟨k₁, base, run, _, gains⟩
  · rw [failed] at taken
    cases taken
    exact absurd rfl nonnull
  rw [run] at taken
  cases taken
  have leaves := gains.leaves core same
  have handed := kernel.buddyAlloc isOrder run
  rw [Kmem.handOut_of_ne nonnull] at handed
  intro a isHeld x inside
  refine ⟨fun inBlock => ?_, leaves.contents x ⟨a, isHeld, inside⟩⟩
  have other : a ≠ .block arena order := by
    rintro rfl
    exact gains.fresh ((same _).mp isHeld)
  exact Set.disjoint_left.mp
    (handed.held_disjoint (List.mem_cons_of_mem _ isHeld) List.mem_cons_self other) inside inBlock

/-- **A successful `sys_kmem_init` stays inside its block exactly when at least five pages are
requested.** -/
theorem Initialised.confined_iff {space₀ : Nat} {blockNum₀ : Int} {space : UInt64} {pages : Int}
    {k k' : Kmem} {arena order : Nat} (done : Initialised s s' p space pages k k' arena)
    (kernel : Kmem.Sound s.kmem held space₀ blockNum₀) (given : Space space₀ blockNum₀)
    (head : (s.proc p).ukmem.headOfCacheList = 0) (tail : (s.proc p).ukmem.tailOfCacheList = 0)
    (least : IsLeast {t | pages.toNat ≤ 2 ^ t} order) :
    Confined s s' p pages held arena order ↔ 5 ≤ pages := by
  have positive := done.positive
  have few := done.few
  simp only [maxTestPages] at few
  have isOrder := Buddy.orderForPages_of_isLeast (show pages.toNat ≤ 2 ^ 31 by omega) least
  have enough : pages.toNat ≤ 2 ^ order := least.1
  have handed := kernel.buddyAlloc isOrder done.buddy
  rw [Kmem.handOut_of_ne done.nonnull] at handed
  have arenaSpace := handed.arenaSpace given List.mem_cons_self positive enough
  obtain ⟨k₁, init, placement, near, blocks⟩ := Kmem.kmemInit_user
    (k := { (s.proc p).ukmem with mem := k.mem, desc := k.desc }) arenaSpace head tail
  obtain rfl : k₁ = k' := by
    rw [done.init] at init
    exact (Except.ok.inj init).symm
  obtain ⟨frame, descs⟩ := Kmem.kmemInit_frame
    (k := { (s.proc p).ukmem with mem := k.mem, desc := k.desc }) arenaSpace head done.init
  -- the block is one of the kernel's pages
  obtain ⟨v, core, _⟩ := kernel.view
  have size : 1 ≤ pages.toNat := by omega
  obtain ⟨⟨b, blk⟩, taken, isK⟩ := bind_eq_ok done.buddy
  cases isK
  rcases core.slabs.rep.buddyAlloc_cases core.slabs.pool size (by omega) least with
    ⟨failed, _⟩ | ⟨i, chosen, b', run, _, allocates⟩
  · rw [failed] at taken
    cases taken
    exact absurd rfl done.nonnull
  rw [run] at taken
  cases taken
  have aligned := core.slabs.rep.region.aligned
  have five := placement.five_iff (by unfold Buddy.page; omega) positive near
  have memory : s'.kmem.mem = k₁.mem := by rw [done.kmem]
  refine ⟨fun confined => five.mp (blocks.mp (done.ukmem ▸ confined.blocks)), fun large => ?_⟩
  have start := five.mpr large
  have granted : Set.Ico (s.kmem.page i) (s.kmem.page i + pages.toNat * 4096) ⊆
      (Allocation.block (s.kmem.page i) order).bytes := by
    refine Set.Ico_subset_Ico_right ?_
    simp only [Allocation.base, Allocation.size]
    omega
  have written := (placement.initBytes_sub start).trans granted
  have outside := frame.mono written
  have apart := taken_apart kernel (by omega) isOrder done.buddy done.nonnull
  refine
    { written := by rw [done.ukmem]; exact written
      otherProcs := done.others
      blocks := by rw [done.ukmem]; exact blocks.mpr start
      region := by rw [done.ukmem]; exact (placement.region_sub).trans granted
      after := by rw [done.ukmem]; exact fun a inMeta => (placement.metadata_before inMeta).2
      contents := ?_
      buddy := ⟨_, done.buddy, by rw [done.kmem], by rw [memory]; exact outside⟩
      removed := ⟨i, chosen, rfl, ?_⟩
      own := by rw [done.kmem]; rfl
      caches := ?_ }
  · intro a isHeld x inA
    obtain ⟨notIn, same⟩ := apart a isHeld x inA
    rw [memory, outside x notIn]
    exact same
  · rw [done.kmem]
    exact allocates.write outside
  · intro c notIn
    rw [done.kmem]
    refine descs c fun inPool => notIn (written (.inl (.inr inPool)))

/-- A process without an arena: its `ukmem` page is as `allocproc` cleared it. -/
structure WithoutArena (q : Proc) : Prop where
  inited : q.ukmemInited = false
  head : q.ukmem.headOfCacheList = 0
  tail : q.ukmem.tailOfCacheList = 0

/-- **`sys_kmem_init` in every reachable state of the kernel's allocator**: it returns, and when it
succeeds it stays inside the block it got exactly when at least five pages were requested. -/
theorem sysKmemInit_confined_iff {k₀ : Kmem} {space₀ : Nat} {blockNum₀ : Int} {isKernel : Bool}
    (given : Space space₀ blockNum₀) (head : k₀.headOfCacheList = 0) (tail : k₀.tailOfCacheList = 0)
    (reached : Kmem.Run k₀ space₀ blockNum₀ isKernel s.kmem held) (global : s.active = none)
    (without : WithoutArena (s.proc p)) (space : UInt64) (pages : Int32) :
    ∃ s' value, s.sysKmemInit p space pages = .ok (s', value) ∧ (value = 0 ∨ value = minusOne) ∧
      (value = 0 → ∀ order, IsLeast {t | pages.toInt.toNat ≤ 2 ^ t} order →
        (Confined s s' p pages.toInt held (s'.proc p).kheapwinBase.toNat order ↔
          5 ≤ pages.toInt)) := by
  have kernel := reached.sound given head tail
  obtain ⟨s', value, done, values⟩ :=
    sysKmemInit_returns kernel given global without.head without.tail space pages
  refine ⟨s', value, done, values, fun zero order least => ?_⟩
  subst zero
  obtain ⟨k, k', arena, init⟩ := sysKmemInit_ok global done
  have fits := (init.arena kernel given without.head without.tail).1.given.fits
  simp only [maxva] at fits
  have window := init.window
  simp only [Proc.window, Prod.mk.injEq] at window
  have base : (s'.proc p).kheapwinBase.toNat = arena := by
    rw [window.1, UInt64.toNat_ofNat']
    exact Nat.mod_eq_of_lt (by omega)
  rw [base]
  exact init.confined_iff kernel given without.head without.tail least

/-- Process 3 asks for sixteen pages. -/
theorem sysKmemInit_confined_iff_sixteenPages :
    ∃ k s', Kmem.Run Kmem.zeroed 0x80030000 32720 true k [] ∧
    (Window.unusedSlot k).kernel.sysKmemInit 3 0x4000 16 = .ok (s', 0) ∧
    Confined (Window.unusedSlot k).kernel s' 3 16 [] (s'.proc 3).kheapwinBase.toNat 4 := by
  obtain ⟨k, init, observed⟩ := exists_ok (Kmem.zeroed.kmemInit 0x80030000 32720 true)
    (fun k => ((Window.unusedSlot k).kernel.sysKmemInit 3 0x4000 16).toOption.map Prod.snd) (some 0)
    (by decide +kernel)
  have given : Space 0x80030000 32720 := ⟨by decide, by decide⟩
  obtain ⟨s', value, done, _, confined⟩ :=
    sysKmemInit_confined_iff (s := (Window.unusedSlot k).kernel) (p := 3) given rfl rfl
    (.init init) rfl ⟨rfl, rfl, rfl⟩ 0x4000 16
  rw [done] at observed
  obtain rfl : value = 0 := Option.some.inj observed
  have least : IsLeast {t | (16 : Int32).toInt.toNat ≤ 2 ^ t} 4 := by
    refine ⟨by decide, fun t enough => ?_⟩
    by_contra small
    have below : 2 ^ t ≤ 2 ^ 3 := Nat.pow_le_pow_right (by decide) (by omega)
    have sixteen : 16 ≤ 2 ^ t := enough
    omega
  exact ⟨k, s', .init init, done, (confined rfl 4 least).mpr (by decide)⟩

/-- The kernel takes two blocks of four pages and writes into the first. -/
def neighbour : Except Fault (Kmem × Nat × Nat) := do
  let k ← Kmem.zeroed.kmemInit 0x80030000 32720 true
  let (k, first) ← k.buddyAlloc 4
  let (k, second) ← k.buddyAlloc 4
  return (k.setMem (fill k.mem first 1 7), first, second)

/-- Process 3 asks for four pages and gets the block before the first one. The descriptors of its
arena end in that one: its contents are lost, and the arena has a negative number of pages. -/
theorem sysKmemInit_overruns : ∃ k first second s', neighbour = .ok (k, first, second) ∧
    Kmem.Run Kmem.zeroed 0x80030000 32720 true k [.block second 2, .block first 2] ∧
    k.mem first = 7 ∧ (Window.unusedSlot k).kernel.sysKmemInit 3 0x4000 4 = .ok (s', 0) ∧
    (s'.proc 3).kheapwinBase.toNat + 4096 * 4 = first ∧ s'.kmem.mem first = 0 ∧
    (s'.ukmem 3).managedNumBlocks = -1 := by
  obtain ⟨⟨k, first, second⟩, done, observed⟩ := exists_ok neighbour
    (fun (k, first, second) => (decide (first ≠ 0 ∧ second ≠ 0 ∧ k.mem first = 7),
      ((Window.unusedSlot k).kernel.sysKmemInit 3 0x4000 4).toOption.map fun (s', value) =>
        decide (value = 0 ∧ (s'.proc 3).kheapwinBase.toNat + 4096 * 4 = first ∧
          s'.kmem.mem first = 0 ∧ (s'.ukmem 3).managedNumBlocks = -1)))
    (true, some true) (by decide +kernel)
  simp only [Prod.mk.injEq, decide_eq_true_eq] at observed
  obtain ⟨⟨firstNonnull, secondNonnull, contents⟩, observed⟩ := observed
  cases init : (Window.unusedSlot k).kernel.sysKmemInit 3 0x4000 4 with
  | error fault =>
    rw [init] at observed
    cases observed
  | ok result =>
    obtain ⟨s', value⟩ := result
    rw [init] at observed
    obtain ⟨rfl, base, lost, negative⟩ := of_decide_eq_true (Option.some.inj observed)
    obtain ⟨k₁, boot, steps⟩ := bind_eq_ok done
    obtain ⟨⟨k₂, a⟩, allocFirst, steps⟩ := bind_eq_ok steps
    obtain ⟨⟨k₃, b⟩, allocSecond, steps⟩ := bind_eq_ok steps
    cases steps
    have order : Buddy.orderForPages 4 = .ok 2 := by decide
    have taken := Kmem.Run.call (.init boot) (.allocator (.buddyAlloc order allocFirst))
    rw [Kmem.handOut_of_ne firstNonnull] at taken
    have both := taken.call (.allocator (.buddyAlloc order allocSecond))
    rw [Kmem.handOut_of_ne secondNonnull] at both
    have inFirst :
        Set.Ico first (first + 1) ⊆ Kmem.heldBytes [.block second 2, .block first 2] := by
      intro x inside
      refine ⟨.block first 2, List.mem_cons_of_mem _ List.mem_cons_self, inside.1,
        lt_of_lt_of_le inside.2 ?_⟩
      simp only [Allocation.base, Allocation.size]
      omega
    have written := both.call (.write ((fill_sameOutside k₃.mem first 1 7).mono inFirst))
    exact ⟨_, first, second, s', done, written, contents, init, base, lost, negative⟩

end Kernel

end Xv6Slab
