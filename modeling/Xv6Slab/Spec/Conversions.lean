/-
**Sizes and addresses that are converted to `int`.**

Three functions narrow a 64-bit quantity to a 32-bit `int` before they test it.

* `order_for_pages` keeps its power of two in an `int`. From `2 ^ 30` it goes to `-2 ^ 31`, which is
  `2 ^ 64 - 2 ^ 31` in the comparison, and then to zero for ever. `orderForPages_exact_iff` — **it
  is right up to `2 ^ 31` pages and no further.**
* `addr_to_index` narrows the page offset of an address. `addrToIndex_exact_iff` — **an address far
  above the region can get the index of one of its pages, and this is the only way to go wrong.**
* `kmem_init` narrows the number of windows at the end of the kernel's heap, after a subtraction
  that wraps when the metadata does not fit. `kmemInit_carves` — **here the conversion makes the
  wrapped number negative, and `kmem_init` panics exactly when the space is too small.**
-/

import Xv6Slab.Spec.BuddyCalls

namespace Xv6Slab

open Bytes

namespace Buddy

/-! ### `order_for_pages` -/

/-- The least order whose blocks hold `size` pages, and no block from `buddy_alloc` when that is
beyond `MAX_ORDER`. -/
structure ExactOrder (size : Nat) : Prop where
  returns : ∃ order, orderForPages size = .ok order ∧ IsLeast {order | size ≤ 2 ^ order} order
  refuses : 2 ^ maxOrder < size → ∀ b : Buddy, b.buddyAlloc size = .ok (b, 0)

/-- Once the power of two is zero the loop does not end, however long it runs. -/
theorem orderLoop_zero {size : Nat} (positive : 1 ≤ size) :
    ∀ fuel order, orderLoop size fuel order 0 = .error .hang := by
  intro fuel
  induction fuel with
  | zero => exact fun _ => rfl
  | succ fuel ih =>
    intro order
    have again : toUint64 0 < size := positive
    rw [orderLoop, if_pos again]
    exact ih (order + 1)

/-- The first rounds of the loop, while the power of two is positive. -/
theorem orderLoop_rounds {size fuel : Nat} (large : 2 ^ 30 < size) :
    ∀ rounds ≤ 31, orderLoop size (fuel + rounds) 0 1 = orderLoop size fuel rounds
    (runningPages rounds) := by
  intro rounds
  induction rounds generalizing fuel with
  | zero => exact fun _ => rfl
  | succ rounds ih =>
    intro le
    have less : 2 ^ rounds < size :=
      lt_of_le_of_lt (Nat.pow_le_pow_right (by decide) (by omega)) large
    rw [show fuel + (rounds + 1) = fuel + 1 + rounds by omega, ih (by omega), orderLoop,
      toUint64_runningPages (by omega), if_pos less, runningPages_succ (by omega)]

/-- Above `2 ^ 31` pages the loop leaves with the negative power of two. -/
theorem orderForPages_negative {size : Nat} (large : 2 ^ 30 < size)
    (below : size ≤ 2 ^ 64 - 2 ^ 31) : orderForPages size = .ok 31 := by
  have leaves : ¬ toUint64 (runningPages 31) < size := by
    have value : toUint64 (runningPages 31) = 2 ^ 64 - 2 ^ 31 := by decide
    omega
  rw [orderForPages, orderLoop_rounds large 31 le_rfl, orderLoop, if_neg leaves]

/-- Above `2 ^ 64 - 2 ^ 31` pages the loop does not end, however long it runs. -/
theorem orderLoop_endless {size : Nat} (above : 2 ^ 64 - 2 ^ 31 < size) (fuel : Nat) :
    orderLoop size (fuel + 31) 0 1 = .error .hang := by
  have goesOn : toUint64 (runningPages 31) < size := by
    have value : toUint64 (runningPages 31) = 2 ^ 64 - 2 ^ 31 := by decide
    omega
  have zero : (runningPages 31 * 2).bmod (2 ^ 32) = 0 := by decide
  rw [orderLoop_rounds (by omega) 31 le_rfl]
  cases fuel with
  | zero => rfl
  | succ fuel => rw [orderLoop, if_pos goesOn, zero, orderLoop_zero (by omega)]

/-- A request whose order is beyond `MAX_ORDER` gets nothing and changes nothing. -/
theorem buddyAlloc_beyond {size order : Nat} (isOrder : orderForPages size = .ok order)
    (beyond : maxOrder < order) (b : Buddy) : b.buddyAlloc size = .ok (b, 0) := by
  unfold buddyAlloc
  split
  · rfl
  · rw [isOrder]
    exact if_pos beyond

/-- **`order_for_pages` is right for sizes up to `2 ^ 31` only.** Above, it returns 31, and above
`2 ^ 64 - 2 ^ 31` it does not return. -/
theorem orderForPages_exact_iff (size : Nat) : ExactOrder size ↔ size ≤ 2 ^ 31 := by
  constructor
  · rintro ⟨⟨order, isOrder, enough, _⟩, _⟩
    by_contra large
    rcases Nat.lt_or_ge (2 ^ 64 - 2 ^ 31) size with above | below
    · rw [orderForPages, orderLoop_endless above 3] at isOrder
      cases isOrder
    · rw [orderForPages_negative (by omega) below] at isOrder
      cases isOrder
      exact large enough
  · intro small
    obtain ⟨order, isOrder, _, enough, least⟩ := orderForPages_least small
    refine ⟨⟨order, isOrder, enough, ?_⟩, ?_⟩
    · intro other enough'
      by_contra lt
      exact absurd (least other (by omega)) (Nat.not_lt.mpr enough')
    · intro large b
      refine buddyAlloc_beyond isOrder ?_ b
      by_contra within
      have bound : 2 ^ order ≤ 2 ^ maxOrder := Nat.pow_le_pow_right (by decide) (by omega)
      omega

/-- One page more than `2 ^ 31` gets order 31, and with `2 ^ 64 - 1` pages the loop is still running
after any number of rounds. -/
theorem orderForPages_wrong : orderForPages (2 ^ 31 + 1) = .ok 31 ∧ ¬ ExactOrder (2 ^ 31 + 1) ∧
    (∀ fuel, orderLoop (2 ^ 64 - 1) (fuel + 31) 0 1 = .error .hang) ∧
    ∀ b : Buddy, b.buddyAlloc (2 ^ 64 - 1) = .error .hang := by
  have endless : ∀ fuel, orderLoop (2 ^ 64 - 1) (fuel + 31) 0 1 = .error .hang :=
    orderLoop_endless (by decide)
  refine ⟨orderForPages_negative (by decide) (by decide), ?_, endless, fun b => ?_⟩
  · rintro ⟨⟨order, isOrder, enough, _⟩, _⟩
    rw [orderForPages_negative (by decide) (by decide)] at isOrder
    cases isOrder
    exact absurd enough (by decide)
  · have hangs : orderForPages (2 ^ 64 - 1) = .error .hang := endless 3
    unfold buddyAlloc
    rw [if_neg (by decide), hangs]
    rfl

/-! ### `addr_to_index` -/

/-- The index of an address is that of the page it is the start of, and `-1` for an address that
starts no managed page. -/
structure ExactIndex (b : Buddy) (ptr : Nat) : Prop where
  page : ∀ i : Nat, b.addrToIndex ptr = i ↔ ptr = b.managedStart + 4096 * i ∧
      (i : Int) < b.managedNumBlocks
  other : (∀ i : Nat, (i : Int) < b.managedNumBlocks → ptr ≠ b.managedStart + 4096 * i) →
      b.addrToIndex ptr = -1

/-- A page-aligned address so far above the region that its page offset, cut to 32 bits, is the
index of a managed page. -/
def Aliased (b : Buddy) (ptr : Nat) : Prop :=
  b.managedStart ≤ ptr ∧ (ptr - b.managedStart) % 4096 = 0 ∧
    2 ^ 32 ≤ (ptr - b.managedStart) / 4096 ∧
    (((ptr - b.managedStart) / 4096 % 2 ^ 32 : Nat) : Int) < b.managedNumBlocks

instance (b : Buddy) (ptr : Nat) : Decidable (b.Aliased ptr) :=
  inferInstanceAs (Decidable (_ ∧ _ ∧ _ ∧ _))

variable {b : Buddy} {ptr : Nat}

/-- An address that is not recognised gets `-1`. -/
theorem addrToIndex_missing (missing : b.addrToIndex ptr < 0) : b.addrToIndex ptr = -1 := by
  unfold addrToIndex at missing ⊢
  dsimp only at missing ⊢
  split_ifs at missing ⊢ with below off range
  · rfl
  · rfl
  · rfl
  · exact absurd (Or.inl missing) range

/-- The index of an address with a page offset, cut to 32 bits. -/
theorem addrToIndex_cut (above : b.managedStart ≤ ptr) (aligned : (ptr - b.managedStart) % 4096 = 0)
    (small : (ptr - b.managedStart) / 4096 % 2 ^ 32 < 2 ^ 31)
    (within : (((ptr - b.managedStart) / 4096 % 2 ^ 32 : Nat) : Int) < b.managedNumBlocks) :
    b.addrToIndex ptr = ((ptr - b.managedStart) / 4096 % 2 ^ 32 : Nat) := by
  have narrowed :
      toInt32 ((ptr - b.managedStart) / 4096) = ((ptr - b.managedStart) / 4096 % 2 ^ 32 : Nat) := by
    rw [← toInt32_mod, toInt32_of_lt small]
  unfold addrToIndex
  dsimp only [blockSize]
  rw [if_neg (Nat.not_lt.mpr above), if_neg (not_not.mpr aligned), narrowed, if_neg (by omega)]

/-- What `addr_to_index` accepts, and with which index. -/
theorem addrToIndex_eq_iff (blocks : b.managedNumBlocks < 2 ^ 31) (i : Nat) :
    b.addrToIndex ptr = i ↔
    b.managedStart ≤ ptr ∧ (ptr - b.managedStart) % 4096 = 0 ∧
      (ptr - b.managedStart) / 4096 % 2 ^ 32 = i ∧ (i : Int) < b.managedNumBlocks := by
  constructor
  · intro isIndex
    have found : 0 ≤ b.addrToIndex ptr := by omega
    obtain ⟨above, aligned, value, within⟩ := addrToIndex_found found
    rw [isIndex] at value within
    have cut : (ptr - b.managedStart) / 4096 % 2 ^ 32 < 2 ^ 31 := by
      by_contra large
      have negative := toInt32_neg (Nat.not_lt.mp large) (Nat.mod_lt _ (by decide))
      rw [toInt32_mod] at negative
      omega
    rw [← toInt32_mod, toInt32_of_lt cut] at value
    exact ⟨above, aligned, by omega, within⟩
  · rintro ⟨above, aligned, rfl, within⟩
    exact addrToIndex_cut above aligned (by omega) within

/-- **`addr_to_index` is exact except at an aliased address.** -/
theorem addrToIndex_exact_iff (nonneg : 0 ≤ b.managedNumBlocks)
    (blocks : b.managedNumBlocks < 2 ^ 31) : ExactIndex b ptr ↔ ¬ b.Aliased ptr := by
  constructor
  · rintro ⟨page, _⟩ ⟨above, aligned, far, within⟩
    have found :=
      (addrToIndex_eq_iff blocks ((ptr - b.managedStart) / 4096 % 2 ^ 32)).mpr ⟨above, aligned,
        rfl, within⟩
    obtain ⟨isPage, _⟩ := (page _).mp found
    omega
  · intro notAliased
    have near : ∀ i : Nat, b.managedStart ≤ ptr → (ptr - b.managedStart) % 4096 = 0 →
        (ptr - b.managedStart) / 4096 % 2 ^ 32 = i → (i : Int) < b.managedNumBlocks →
        (ptr - b.managedStart) / 4096 = i := by
      intro i above aligned cut within
      by_contra far
      exact notAliased ⟨above, aligned, by omega, by rw [cut]; exact within⟩
    have page : ∀ i : Nat, b.addrToIndex ptr = i ↔ ptr = b.managedStart + 4096 * i ∧
        (i : Int) < b.managedNumBlocks := by
      intro i
      rw [addrToIndex_eq_iff blocks]
      constructor
      · rintro ⟨above, aligned, cut, within⟩
        have quotient := near i above aligned cut within
        exact ⟨by omega, within⟩
      · rintro ⟨rfl, within⟩
        exact ⟨by omega, by omega, by omega, within⟩
    refine ⟨page, fun none => addrToIndex_missing ?_⟩
    by_contra found
    obtain ⟨i, isIndex⟩ := Int.eq_ofNat_of_zero_le (Int.not_lt.mp found)
    obtain ⟨isPage, within⟩ := (page i).mp isIndex
    exact none i within isPage

theorem addrToIndex_exact_iff_secondPage : ExactIndex threePages 8192 ∧ ¬ threePages.Aliased 8192 :=
  have notAliased : ¬ threePages.Aliased 8192 := by decide
  ⟨(addrToIndex_exact_iff (b := threePages) (by decide) (by decide)).mpr notAliased, notAliased⟩

/-- An address `2 ^ 44` bytes above the first of three pages gets the index of that page. -/
theorem addrToIndex_wrong :
    threePages.addrToIndex (4096 + 2 ^ 44) = 0 ∧ threePages.Aliased (4096 + 2 ^ 44) ∧
    ¬ ExactIndex threePages (4096 + 2 ^ 44) := by
  have found : threePages.addrToIndex (4096 + 2 ^ 44) = (0 : Nat) := by decide
  refine ⟨found, by decide, fun exact_ => ?_⟩
  obtain ⟨isPage, _⟩ := (exact_.page 0).mp found
  exact absurd isPage (by decide)

end Buddy

/-! ### The windows of the kernel's heap -/

namespace Kmem

variable {k k' : Kmem} {space : Nat} {blockNum : Int}

/-- The first page after the metadata: `free_area`, `block_meta` and `cache_pool`. -/
def metadataEnd (space : Nat) (blockNum : Int) : Nat :=
  (space + 128 + blockNum.toNat * 16 + maxNumCaches * descSize + 4095) / 4096 * 4096

/-- `kheapwin_base0` and `kheapwin_total`, as `kmem_init` computes them for the kernel's own
allocator. -/
def kheapwin (k : Kmem) (space : Nat) (blockNum : Int) : Except Fault (Nat × Nat) :=
  carveWindows (k.placeMetadata space blockNum).2 ((space + toUint64 blockNum * 4096) % 2 ^ 64)

/-- What `kmem_init` leaves of its space, with the windows from `base` on. -/
structure CarvedOut (k : Kmem) (space : Nat) (blockNum : Int) (base total : Nat) : Prop where
  /-- The managed region starts at a page after the metadata. -/
  start : k.managedStart % 4096 = 0
  freeArea : k.freeAreaAt + 128 ≤ k.managedStart
  blockMeta : k.blockMetaAt + blockNum.toNat * 16 ≤ k.managedStart
  cachePool : k.cachePool + maxNumCaches * descSize ≤ k.managedStart
  /-- The windows start at a page, after 32 MiB for the kernel, and end within the space. -/
  page : base % 4096 = 0
  heap : k.managedStart + minKernelHeapBytes ≤ base
  windows : base + total ≤ space + blockNum.toNat * 4096
  /-- The managed pages are those before the windows, and `block_meta` has an entry for each. -/
  blocks : k.managedNumBlocks = ((base - k.managedStart) / 4096 : Nat)
  positive : 0 < k.managedNumBlocks
  metas : ∀ i : Nat, (i : Int) < k.managedNumBlocks → k.blockMetaAt + (i + 1) * 16 ≤ k.cachePool

/-- `carve_windows` panics for want of space, and only then; otherwise 32 MiB and less than a window
more are left. -/
theorem carveWindows_cases {low high : Nat} (aligned : low % 4096 = 0) (highLe : high ≤ 2 ^ 49)
    (near : low ≤ high + 2 ^ 20) :
    (high < low + 36 * 2 ^ 20 ∧ ∃ message, carveWindows low high = .error (.panic message) ∧
        message ≠ "window carve-out corrupted heap") ∨
      (low + 36 * 2 ^ 20 ≤ high ∧ ∃ base total, carveWindows low high = .ok (base, total) ∧
        base % 4096 = 0 ∧
        low + minKernelHeapBytes ≤ base ∧ base + total ≤ high ∧ base < low + 36 * 2 ^ 20) := by
  rcases Nat.lt_or_ge high low with wrapped | order
  · left
    have wrap : (high + 2 ^ 64 - low) % 2 ^ 64 = 2 ^ 64 - (low - high) := by omega
    have negative : toInt32 ((2 ^ 64 - (low - high) - 32 * 1024 * 1024) / (1024 * 4096)) < 0 :=
      toInt32_wrapped (by omega)
    refine ⟨by omega, "not enough space for windows", ?_, by decide⟩
    unfold carveWindows
    simp only [minKernelHeapBytes, kheapwinSize, wrap]
    rw [if_neg (by omega), if_pos (by omega)]
  · have wrap : (high + 2 ^ 64 - low) % 2 ^ 64 = high - low := by omega
    have count : (high - low - 32 * 1024 * 1024) / (1024 * 4096) < 2 ^ 31 := by omega
    have total : toUint64 (((high - low - 32 * 1024 * 1024) / (1024 * 4096) : Nat) : Int) =
        (high - low - 32 * 1024 * 1024) / (1024 * 4096) := by
      rw [toUint64_of_nonneg (by omega) (by omega), Int.toNat_natCast]
    unfold carveWindows
    simp only [minKernelHeapBytes, kheapwinSize, wrap, toInt32_of_lt count, total]
    rcases Nat.lt_or_ge high (low + 36 * 2 ^ 20) with little | enough
    · left
      refine ⟨little, ?_⟩
      split
      · exact ⟨_, rfl, by decide⟩
      · rw [if_pos (by omega)]
        exact ⟨_, rfl, by decide⟩
    · right
      refine ⟨enough, ?_⟩
      rw [if_neg (by omega), if_neg (by omega), if_neg (by omega)]
      exact ⟨_, _, rfl, by omega, by omega, by omega, by omega⟩

/-- Where the metadata and the first page after it are, in any space below `2 ^ 48`. -/
theorem placeMetadata_end (k : Kmem) (low : space < 2 ^ 48) (nonneg : 0 ≤ blockNum)
    (blocks : blockNum < 2 ^ 31) : (k.placeMetadata space blockNum).2 = metadataEnd space blockNum ∧
      (k.placeMetadata space blockNum).1.freeAreaAt = space ∧
      (k.placeMetadata space blockNum).1.blockMetaAt = space + 128 ∧
      (k.placeMetadata space blockNum).1.cachePool = space + 128 + blockNum.toNat * 16 := by
  have count : toUint64 blockNum = blockNum.toNat := toUint64_of_nonneg nonneg (by omega)
  unfold placeMetadata metadataEnd
  simp only [count, maxNumCaches, descSize]
  refine ⟨?_, trivial, ?_, ?_⟩
  · split_ifs <;> omega
  · omega
  · omega

/-- `kmem_cache_create` of a size that does not overflow returns, and moves nothing. -/
theorem kmemCacheCreate_returns (k : Kmem) {size : Nat} (ctor : Option (Mem → Nat → Mem))
    (nonzero : objectSizeFor size ≠ 0) :
    ∃ k' c, k.kmemCacheCreate size ctor = .ok (k', c) ∧ SamePlace k k' := by
  unfold kmemCacheCreate
  cases k.findFreeCacheSlot with
  | none => exact ⟨k, 0, rfl, rfl, rfl, rfl, rfl, rfl⟩
  | some index =>
    simp only [if_neg nonzero]
    split
    · exact ⟨_, _, rfl, rfl, rfl, rfl, rfl, rfl⟩
    · refine ⟨_, _, rfl, ?_⟩
      unfold addToCacheList
      split <;> exact ⟨rfl, rfl, rfl, rfl, rfl⟩

theorem createKmallocCaches_returns : ∀ (count : Nat), count ≤ kmallocNumCaches → ∀ k : Kmem,
    ∃ k', k.createKmallocCaches count = .ok k' ∧ SamePlace k k' := by
  intro count
  induction count with
  | zero => exact fun _ k => ⟨k, rfl, rfl, rfl, rfl, rfl, rfl⟩
  | succ count ih =>
    intro le k
    have nonzero : objectSizeFor (32 * 2 ^ count) ≠ 0 := by
      rw [(kmallocSizes count (by omega)).1]
      positivity
    obtain ⟨k₁, created, place⟩ := ih (by omega) k
    obtain ⟨k₂, c, last, place'⟩ := k₁.kmemCacheCreate_returns none nonzero
    refine ⟨{ k₂ with kmallocCaches := Function.update k₂.kmallocCaches count c }, ?_, ?_⟩
    · rw [createKmallocCaches, created]
      show (k₁.kmemCacheCreate (32 * 2 ^ count) none >>= _) = _
      rw [last]
      rfl
    · exact (place.trans place').trans ⟨rfl, rfl, rfl, rfl, rfl⟩

/-- `kmem_init` on the kernel's own allocator stops where the carve-out does, and otherwise manages
the pages before the windows. -/
theorem kmemInit_of_kheapwin (k : Kmem) (space : Nat) (blockNum : Int) :
    (∀ fault, k.kheapwin space blockNum = .error fault →
      k.kmemInit space blockNum true = .error fault) ∧
    ∀ base total, k.kheapwin space blockNum = .ok (base, total) →
      k.kmemInit space blockNum true =
        (((k.placeMetadata space blockNum).1.manage (k.placeMetadata space blockNum).2
          base).setBuddy
          ((k.placeMetadata space blockNum).1.manage (k.placeMetadata space blockNum).2
            base).toBuddy.buddyInit).createKmallocCaches kmallocNumCaches := by
  unfold kheapwin kmemInit
  refine ⟨fun fault failed => ?_, fun base total carved => ?_⟩
  · simp only [if_true, failed]
    rfl
  · simp only [if_true, carved]
    rfl

/-- A carve-out that leaves room for the kernel's heap gives the managed region. -/
theorem manage_carvedOut (low : space < 2 ^ 48) (nonneg : 0 ≤ blockNum) (blocks : blockNum < 2 ^ 31)
    {base total : Nat} (page : base % 4096 = 0)
    (heap : metadataEnd space blockNum + minKernelHeapBytes ≤ base)
    (windows : base + total ≤ space + blockNum.toNat * 4096)
    (little : base < metadataEnd space blockNum + 36 * 2 ^ 20) :
    CarvedOut ((k.placeMetadata space blockNum).1.manage (k.placeMetadata space blockNum).2 base)
      space blockNum base total ∧
      ((k.placeMetadata space blockNum).1.manage (k.placeMetadata space blockNum).2
        base).toBuddy.Region := by
  obtain ⟨start, freeAreaAt, blockMetaAt, cachePool⟩ := k.placeMetadata_end low nonneg blocks
  rw [start]
  clear start
  generalize (k.placeMetadata space blockNum).1 = placed at *
  have aligned : metadataEnd space blockNum % 4096 = 0 := Nat.mul_mod_left _ _
  have after : space + 128 + blockNum.toNat * 16 + 16384 ≤ metadataEnd space blockNum := by
    unfold metadataEnd
    simp only [maxNumCaches, descSize]
    omega
  generalize metadataEnd space blockNum = start' at *
  have room : start' + 32 * 1024 * 1024 ≤ base := heap
  have ends : base ≤ space + blockNum.toNat * 4096 := le_trans (Nat.le_add_right _ _) windows
  clear heap
  have some : 0 < (base - start') / 4096 := Nat.div_pos (by omega) (by decide)
  have few : (base - start') / 4096 ≤ blockNum.toNat := Nat.div_le_of_le_mul (by omega)
  have fits : start' + (base - start') / 4096 * 4096 ≤ 2 ^ 64 := by
    refine le_trans (Nat.add_le_add_left (Nat.div_mul_le_self _ _) _) ?_
    rw [Nat.add_sub_cancel' (by omega)]
    omega
  have pages : (placed.manage start' base).managedNumBlocks = ((base - start') / 4096 : Nat) := by
    have wrap : (base + 2 ^ 64 - start') % 2 ^ 64 = base - start' := by omega
    rw [manage_blocks, wrap]
    exact toInt32_of_lt (by omega)
  refine ⟨⟨aligned, ?_, ?_, ?_, page, room, windows, pages, ?_, ?_⟩, aligned, ?_, ?_, ?_⟩
  · show placed.freeAreaAt + 128 ≤ start'
    omega
  · show placed.blockMetaAt + blockNum.toNat * 16 ≤ start'
    omega
  · show placed.cachePool + maxNumCaches * descSize ≤ start'
    simp only [maxNumCaches, descSize]
    omega
  · rw [pages]
    exact Int.natCast_pos.mpr some
  · intro i lt
    rw [pages] at lt
    show placed.blockMetaAt + (i + 1) * 16 ≤ placed.cachePool
    have below : i + 1 ≤ blockNum.toNat := (Int.ofNat_lt.mp lt).trans_le few
    clear lt some few fits pages
    omega
  · show 0 < start'
    omega
  · have count : (placed.manage start' base).num = (base - start') / 4096 := by
      rw [Buddy.num, pages, Int.toNat_natCast]
    show start' + (placed.manage start' base).num * 4096 ≤ 2 ^ 64
    rw [count]
    exact fits
  · rw [pages]
    exact lt_of_le_of_lt (Int.ofNat_le.mpr few) (by omega)

theorem CarvedOut.of_samePlace {base total : Nat} (carved : CarvedOut k space blockNum base total)
    (same : SamePlace k k') :
    CarvedOut k' space blockNum base total := by
  obtain ⟨start, blocks, freeAreaAt, blockMetaAt, cachePool⟩ := same
  refine ⟨?_, ?_, ?_, ?_, carved.page, ?_, carved.windows, ?_, ?_, ?_⟩
  · rw [start]
    exact carved.start
  · rw [start, freeAreaAt]
    exact carved.freeArea
  · rw [start, blockMetaAt]
    exact carved.blockMeta
  · rw [start, cachePool]
    exact carved.cachePool
  · rw [start]
    exact carved.heap
  · rw [start, blocks]
    exact carved.blocks
  · rw [blocks]
    exact carved.positive
  · rw [blocks, blockMetaAt, cachePool]
    exact carved.metas

/-- **`kmem_init` on the kernel's own allocator** either panics, exactly when less than 36 MiB
follow the metadata, or returns with the windows carved out; it never panics because of the
carve-out itself. -/
theorem kmemInit_carves (k : Kmem) (low : space < 2 ^ 48) (nonneg : 0 ≤ blockNum)
    (blocks : blockNum < 2 ^ 31) :
    ((∃ message, k.kmemInit space blockNum true = .error (.panic message)) ∨
      ∃ k' base total, k.kmemInit space blockNum true = .ok k' ∧
        k.kheapwin space blockNum = .ok (base, total) ∧ CarvedOut k' space blockNum base total) ∧
    ((∃ message, k.kmemInit space blockNum true = .error (.panic message)) ↔
      space + blockNum.toNat * 4096 < metadataEnd space blockNum + 36 * 2 ^ 20) ∧
    k.kmemInit space blockNum true ≠ .error (.panic "window carve-out corrupted heap") := by
  obtain ⟨start, _⟩ := k.placeMetadata_end low nonneg blocks
  have aligned : metadataEnd space blockNum % 4096 = 0 := Nat.mul_mod_left _ _
  have near : metadataEnd space blockNum ≤ space + blockNum.toNat * 4096 + 2 ^ 20 := by
    unfold metadataEnd
    simp only [maxNumCaches, descSize]
    omega
  have windows :
      k.kheapwin space blockNum = carveWindows (metadataEnd space blockNum)
      (space + blockNum.toNat * 4096) := by
    have count : toUint64 blockNum = blockNum.toNat := toUint64_of_nonneg nonneg (by omega)
    have regionEnd : (space + blockNum.toNat * 4096) % 2 ^ 64 = space + blockNum.toNat * 4096 := by
      omega
    rw [kheapwin, start, count, regionEnd]
  obtain ⟨stops, goesOn⟩ := k.kmemInit_of_kheapwin space blockNum
  rcases carveWindows_cases aligned (by omega) near with
    ⟨little, message, failed, other⟩ | ⟨enough, base, total, carved, page, heap, inside, close⟩
  · have panics := stops _ (windows.trans failed)
    refine ⟨.inl ⟨message, panics⟩, ⟨fun _ => little, fun _ => ⟨message, panics⟩⟩, ?_⟩
    rw [panics]
    intro same
    cases same
    exact other rfl
  · have found := windows.trans carved
    obtain ⟨managed, region⟩ := manage_carvedOut (k := k) low nonneg blocks page heap inside close
    have run := goesOn base total found
    generalize (k.placeMetadata space blockNum).1.manage (k.placeMetadata space blockNum).2 base =
      placed at managed region run
    obtain ⟨_, _, _, _, _, startKept, blocksKept, _⟩ := Buddy.buddyInit_spec region
    have initialised : SamePlace placed (placed.setBuddy placed.toBuddy.buddyInit) :=
      ⟨startKept, blocksKept, rfl, rfl, rfl⟩
    obtain ⟨k', created, place⟩ :=
      createKmallocCaches_returns kmallocNumCaches le_rfl (placed.setBuddy placed.toBuddy.buddyInit)
    have returned : k.kmemInit space blockNum true = .ok k' := run.trans created
    refine ⟨.inr ⟨k', base, total, returned, found, ?_⟩,
      ⟨?_, fun little => absurd little (Nat.not_lt.mpr enough)⟩, ?_⟩
    · exact managed.of_samePlace (initialised.trans place)
    · rintro ⟨message, panics⟩
      rw [returned] at panics
      cases panics
    · rw [returned]
      nofun

theorem kmemInit_carves_boot :
    ∃ k' base total, Kmem.zeroed.kmemInit 0x80030000 32720 true = .ok k' ∧
    Kmem.zeroed.kheapwin 0x80030000 32720 = .ok (base, total) ∧
    CarvedOut k' 0x80030000 32720 base total := by
  have nonneg : (0 : Int) ≤ 32720 := by decide
  obtain ⟨either, iff_, _⟩ :=
    kmemInit_carves Kmem.zeroed (show 0x80030000 < 2 ^ 48 by decide) nonneg (by decide)
  exact either.resolve_left ((not_congr iff_).mpr (by decide +kernel))

end Kmem

end Xv6Slab
