/-
**The slab layout that `kmem_cache_create` chooses.**

The number of objects is found in two passes: first without the index array, then with the array
that the first number needs. The second number may be smaller, but a layout is never missed:

* `fits_iff` — **an order is accepted exactly when header, index array and the least number of
  objects fit.** When the first pass counts more objects than needed, the objects left out make room
  for the longer array.
* `layoutLoop_least` — the loop over orders finds the least order that fits, or there is none.
* `kmemCacheCreate_geometry` — **the cache that is created, for every object size below `2^31`.**
-/

import Xv6Slab.Slab.Invariant

namespace Xv6Slab

open Bytes

namespace Kmem

/-! ### One order -/

/-- The least multiple of eight that is not below a number. -/
def roundUp8 (x : Nat) : Nat := (x + 7) / 8 * 8

/-- A slab of an order has room for the header, an index array and the objects it is for. -/
def Fits (obj m order : Nat) : Prop :=
  roundUp8 (slabHeaderSize + 2 * m) + m * obj ≤ blockSize * 2 ^ order

/-- The least number of objects for an object size. -/
def minObjs (obj : Nat) : Nat := if 2048 < obj then 1 else 8

/-- The first pass: the number of objects when there is no index array. -/
def firstCount (obj order : Nat) : Nat := (blockSize * 2 ^ order - slabHeaderSize) / obj

/-- The second pass: the number of objects when the array has an entry for each object of the
first. -/
def secondCount (obj order : Nat) : Nat :=
  (if alignUp (slabHeaderSize + firstCount obj order * 2) 8 < blockSize * 2 ^ order then
    blockSize * 2 ^ order - alignUp (slabHeaderSize + firstCount obj order * 2) 8 else 0) / obj

theorem layoutLoop_succ (obj m fuel order : Nat) : layoutLoop obj m (fuel + 1) order =
    if maxSlabOrder < order then none
    else if firstCount obj order < m then layoutLoop obj m fuel (order + 1)
    else if m ≤ secondCount obj order then
      some (order, secondCount obj order, alignUp (slabHeaderSize + secondCount obj order * 2) 8)
    else layoutLoop obj m fuel (order + 1) := rfl

theorem bytes_bounds {order : Nat} (le : order ≤ maxSlabOrder) :
    4096 ≤ blockSize * 2 ^ order ∧ blockSize * 2 ^ order ≤ 262144 := by
  have low : 2 ^ 0 ≤ 2 ^ order := Nat.pow_le_pow_right (by decide) (Nat.zero_le _)
  have high : 2 ^ order ≤ 2 ^ 6 := Nat.pow_le_pow_right (by decide) le
  simp only [blockSize]
  omega

theorem firstCount_le {obj order : Nat} (objGe : 8 ≤ obj) (le : order ≤ maxSlabOrder) :
    firstCount obj order ≤ 32764 := by
  have bounds := bytes_bounds le
  have few : firstCount obj order ≤ (blockSize * 2 ^ order - slabHeaderSize) / 8 :=
    Nat.div_le_div_left objGe (by decide)
  simp only [slabHeaderSize] at few
  omega

/-- The header with its array, as the code aligns it. -/
theorem header_eq {n : Nat} (few : n ≤ 262144) :
    alignUp (slabHeaderSize + n * 2) 8 = roundUp8 (slabHeaderSize + 2 * n) := by
  rw [Nat.mul_comm n 2, alignUp_eight (by simp only [slabHeaderSize]; omega)]
  rfl

theorem secondCount_le {obj order : Nat} (le : order ≤ maxSlabOrder) :
    secondCount obj order ≤ 262144 := by
  have bounds := bytes_bounds le
  refine (Nat.div_le_self _ _).trans ?_
  split_ifs <;> omega

theorem minObjs_pos (obj : Nat) : 1 ≤ minObjs obj := by
  unfold minObjs
  split_ifs <;> decide

/-- The array of the first pass, with the least number of objects, still fits: either that number is
the first count, or the objects left out are larger than the rest of the array. -/
theorem fits_first {obj n : Nat} (objGe : 8 ≤ obj) (bytes : Nat) (large : 4096 ≤ bytes)
    (small : bytes ≤ 262144) (isFirst : n = (bytes - 32) / obj)
    (fits : roundUp8 (32 + 2 * minObjs obj) + minObjs obj * obj ≤ bytes) :
    minObjs obj ≤ n ∧ roundUp8 (32 + 2 * n) + minObjs obj * obj ≤ bytes := by
  have enough : minObjs obj ≤ n := by
    rw [isFirst, Nat.le_div_iff_mul_le (by omega)]
    unfold roundUp8 at fits
    omega
  refine ⟨enough, ?_⟩
  rcases enough.eq_or_lt with eq | more
  · rw [← eq]
    exact fits
  · have whole : n * obj ≤ bytes - 32 := by
      rw [isFirst]
      exact Nat.div_mul_le_self _ _
    have next : bytes - 32 < (n + 1) * obj := by
      rw [isFirst, Nat.mul_comm]
      exact Nat.lt_mul_div_succ _ (by omega)
    obtain ⟨extra, isExtra⟩ := Nat.exists_eq_add_of_lt more
    -- the objects left out pay for the entries of the array
    have pays : 2 * n + 6 ≤ (extra + 1) * obj := by
      unfold minObjs at isExtra
      split_ifs at isExtra with big
      · have few : n * 2049 ≤ n * obj := Nat.mul_le_mul_left n (by omega)
        have one : 1 * obj ≤ (extra + 1) * obj := Nat.mul_le_mul_right obj (by omega)
        omega
      · by_cases many : 12 ≤ n
        · have eight : (extra + 1) * 8 ≤ (extra + 1) * obj := Nat.mul_le_mul_left _ objGe
          omega
        · have one : 1 * obj ≤ (extra + 1) * obj := Nat.mul_le_mul_right obj (by omega)
          have twelve : (n + 1) * obj ≤ 12 * obj := Nat.mul_le_mul_right obj (by omega)
          omega
    have split : n * obj = minObjs obj * obj + (extra + 1) * obj := by
      rw [isExtra]
      ring
    unfold roundUp8
    omega

/-- **An order is accepted exactly when the least number of objects fits.** -/
theorem fits_iff {obj order : Nat} (objGe : 8 ≤ obj) (le : order ≤ maxSlabOrder) :
    minObjs obj ≤ firstCount obj order ∧ minObjs obj ≤ secondCount obj order ↔
      Fits obj (minObjs obj) order := by
  obtain ⟨large, small⟩ := bytes_bounds le
  have few := firstCount_le objGe le
  have pos := minObjs_pos obj
  constructor
  · rintro ⟨_, second⟩
    obtain ⟨_, _, fits⟩ := layout_fits objGe small rfl rfl rfl (pos.trans second)
    have objects : minObjs obj * obj ≤ secondCount obj order * obj :=
      Nat.mul_le_mul_right obj second
    change alignUp (slabHeaderSize + secondCount obj order * 2) 8 + secondCount obj order * obj ≤ _
      at fits
    rw [header_eq (secondCount_le le)] at fits
    unfold Fits
    unfold roundUp8 at fits ⊢
    simp only [slabHeaderSize] at fits ⊢
    omega
  · intro fits
    obtain ⟨first, room⟩ := fits_first objGe _ large small (n := firstCount obj order) rfl fits
    refine ⟨first, ?_⟩
    have objPos : 1 * 8 ≤ minObjs obj * obj := Nat.mul_le_mul pos objGe
    unfold secondCount
    simp only [header_eq (few.trans (by decide)), slabHeaderSize]
    rw [if_pos (by omega), Nat.le_div_iff_mul_le (by omega)]
    omega

/-! ### The loop over orders -/

/-- **The loop finds the least order that fits**, with as many objects as the second pass counts, or
there is none. -/
theorem layoutLoop_least {obj : Nat} (objGe : 8 ≤ obj) : ∀ fuel start, maxSlabOrder < start + fuel →
    (∃ order, start ≤ order ∧ order ≤ maxSlabOrder ∧ Fits obj (minObjs obj) order ∧
      (∀ o, start ≤ o → o < order → ¬ Fits obj (minObjs obj) o) ∧
      layoutLoop obj (minObjs obj) fuel start = some (order, secondCount obj order,
        roundUp8 (slabHeaderSize + 2 * secondCount obj order))) ∨
    (∀ o, start ≤ o → o ≤ maxSlabOrder → ¬ Fits obj (minObjs obj) o) ∧
      layoutLoop obj (minObjs obj) fuel start = none := by
  intro fuel
  induction fuel with
  | zero =>
    intro start past
    exact Or.inr ⟨fun o ge le => absurd (ge.trans le) (by omega), rfl⟩
  | succ fuel ih =>
    intro start past
    rw [layoutLoop_succ]
    by_cases high : maxSlabOrder < start
    · rw [if_pos high]
      exact Or.inr ⟨fun o ge le => absurd (ge.trans le) (by omega), rfl⟩
    have le : start ≤ maxSlabOrder := Nat.not_lt.mp high
    rw [if_neg high]
    by_cases fits : Fits obj (minObjs obj) start
    · obtain ⟨first, second⟩ := (fits_iff objGe le).mpr fits
      rw [if_neg (Nat.not_lt.mpr first), if_pos second, header_eq (secondCount_le le)]
      exact Or.inl ⟨start, le_rfl, le, fits, fun o ge lt => absurd (ge.trans_lt lt) (lt_irrefl _),
        rfl⟩
    · -- the order is refused in the first or in the second pass
      have refused :
          (if firstCount obj start < minObjs obj then layoutLoop obj (minObjs obj) fuel (start + 1)
          else if minObjs obj ≤ secondCount obj start then
            some (start, secondCount obj start,
              alignUp (slabHeaderSize + secondCount obj start * 2) 8)
          else layoutLoop obj (minObjs obj) fuel (start + 1)) = layoutLoop obj (minObjs obj) fuel
            (start + 1) := by
        split_ifs with first second
        · rfl
        · exact absurd ((fits_iff objGe le).mp ⟨Nat.not_lt.mp first, second⟩) fits
        · rfl
      have skip : ∀ o, start ≤ o → Fits obj (minObjs obj) o → start + 1 ≤ o := by
        intro o ge isFit
        rcases ge.eq_or_lt with rfl | lt
        · exact absurd isFit fits
        · exact lt
      rw [refused]
      rcases ih (start + 1) (by omega) with ⟨order, ge, bound, isFit, least, run⟩ | ⟨none_, run⟩
      · refine Or.inl ⟨order, by omega, bound, isFit, fun o from_ lt isFit' => ?_, run⟩
        exact least o (skip o from_ isFit') lt isFit'
      · exact Or.inr ⟨fun o from_ bound isFit => none_ o (skip o from_ isFit) bound isFit, run⟩

/-! ### The cache -/

/-- The geometry of a cache for objects of a size, in slabs of an order. -/
structure WellLaid (d : KmemCache) (obj order : Nat) : Prop where
  slabOrder : d.slabOrder = order
  objectSize : d.objectSize = obj
  enough : minObjs obj ≤ d.objsPerSlab
  few : d.objsPerSlab < nofree
  truncated : d.objsPerSlab % 2 ^ 16 = d.objsPerSlab
  aligned : d.objOffset % 8 = 0
  header : slabHeaderSize + 2 * d.objsPerSlab ≤ d.objOffset
  objects : d.objOffset + d.objsPerSlab * obj ≤ blockSize * 2 ^ order

theorem WellLaid.congr {d d' : KmemCache} {obj order : Nat} (laid : WellLaid d obj order)
    (shape : KmemCache.SameShape d d') : WellLaid d' obj order where
  slabOrder := shape.slabOrder.trans laid.slabOrder
  objectSize := shape.objectSize.trans laid.objectSize
  enough := shape.objsPerSlab.symm ▸ laid.enough
  few := shape.objsPerSlab.symm ▸ laid.few
  truncated := shape.objsPerSlab.symm ▸ laid.truncated
  aligned := shape.objOffset.symm ▸ laid.aligned
  header := by
    rw [shape.objsPerSlab, shape.objOffset]
    exact laid.header
  objects := by
    rw [shape.objsPerSlab, shape.objOffset]
    exact laid.objects

/-- What the loop finds is laid out well. -/
theorem wellLaid_created (ctor : Option (Mem → Nat → Mem)) {obj order n fuel start : Nat}
    (objGe : 8 ≤ obj) (run : layoutLoop obj (minObjs obj) fuel start =
      some (order, n, roundUp8 (slabHeaderSize + 2 * n))) :
    WellLaid (created ctor obj order n (roundUp8 (slabHeaderSize + 2 * n))) obj order := by
  obtain ⟨_, enough, few, header, inside⟩ := layoutLoop_spec objGe (minObjs_pos _) _ _ run
  exact ⟨rfl, rfl, enough, few, Nat.mod_eq_of_lt (few.trans (by decide)), Nat.mul_mod_left _ _,
    header, inside⟩

/-- The parts of a slab. -/
inductive Part where
  | header
  | nextArray
  | object (idx : Nat)

namespace Part

/-- The part is there in the slabs of a cache. -/
def Of (d : KmemCache) : Part → Prop
  | header => True
  | nextArray => True
  | object idx => idx < d.objsPerSlab

/-- Where a part of a slab starts. -/
def start (d : KmemCache) (s : Nat) : Part → Nat
  | header => s
  | nextArray => s + slabHeaderSize
  | object idx => slabObjPtr d s idx

def size (d : KmemCache) : Part → Nat
  | header => slabHeaderSize
  | nextArray => 2 * d.objsPerSlab
  | object _ => d.objectSize

/-- The bytes of a part. -/
def bytes (d : KmemCache) (s : Nat) (part : Part) : Set Nat :=
  Set.Ico (part.start d s) (part.start d s + part.size d)

end Part

section Parts

variable {d : KmemCache} {obj order s : Nat}

theorem WellLaid.objPtr (laid : WellLaid d obj order) (room : s + blockSize * 2 ^ order ≤ 2 ^ 64)
    {i : Nat} (lt : i < d.objsPerSlab) (objPos : 0 < obj) :
    slabObjPtr d s i = s + d.objOffset + i * obj := by
  have last : (i + 1) * obj ≤ d.objsPerSlab * obj := Nat.mul_le_mul_right obj lt
  have objects := laid.objects
  unfold slabObjPtr
  rw [laid.objectSize, Nat.mod_eq_of_lt]
  rw [Nat.succ_mul] at last
  omega

/-- The end of a part, and the start of those behind it. -/
theorem WellLaid.parts (laid : WellLaid d obj order) (objPos : 0 < obj) (multiple : obj % 8 = 0)
    (base : s % 8 = 0) (room : s + blockSize * 2 ^ order ≤ 2 ^ 64) :
    (∀ part, Part.Of d part → part.start d s % 8 = 0 ∧
      part.bytes d s ⊆ Set.Ico s (s + blockSize * 2 ^ order)) ∧
    ∀ part other, Part.Of d part → Part.Of d other → part ≠ other →
      Disjoint (part.bytes d s) (other.bytes d s) := by
  have header := laid.header
  have objects := laid.objects
  have aligned := laid.aligned
  have isSize := laid.objectSize
  have ends : ∀ i < d.objsPerSlab, i * obj + obj ≤ d.objsPerSlab * obj := by
    intro i lt
    have last : (i + 1) * obj ≤ d.objsPerSlab * obj := Nat.mul_le_mul_right obj lt
    rwa [Nat.succ_mul] at last
  simp only [slabHeaderSize] at header
  refine ⟨?_, ?_⟩
  · rintro (_ | _ | i) isPart
    · refine ⟨base, fun a inside => ?_⟩
      simp only [Part.bytes, Part.start, Part.size, slabHeaderSize, Set.mem_Ico] at inside ⊢
      omega
    · refine ⟨?_, fun a inside => ?_⟩
      · simp only [Part.start, slabHeaderSize]
        omega
      · simp only [Part.bytes, Part.start, Part.size, slabHeaderSize, Set.mem_Ico] at inside ⊢
        omega
    · have ptr := laid.objPtr room isPart objPos
      have last := ends i isPart
      have scaled : i * obj % 8 = 0 := by
        rw [Nat.mul_mod, multiple, Nat.mul_zero, Nat.zero_mod]
      refine ⟨?_, fun a inside => ?_⟩
      · simp only [Part.start]
        rw [ptr]
        omega
      · simp only [Part.bytes, Part.start, Part.size, ptr, isSize, Set.mem_Ico] at inside ⊢
        omega
  · have low : ∀ i < d.objsPerSlab, s + 32 + 2 * d.objsPerSlab ≤ slabObjPtr d s i := by
      intro i lt
      rw [laid.objPtr room lt objPos]
      omega
    have apart : ∀ i j, i < j → j < d.objsPerSlab →
        slabObjPtr d s i + d.objectSize ≤ slabObjPtr d s j := by
      intro i j lt bound
      have step : (i + 1) * obj ≤ j * obj := Nat.mul_le_mul_right obj lt
      rw [Nat.succ_mul] at step
      rw [laid.objPtr room (lt.trans bound) objPos, laid.objPtr room bound objPos, isSize]
      omega
    rintro (_ | _ | i) (_ | _ | j) isPart isOther ne <;> rw [Set.disjoint_left] <;>
      intro a inPart inOther <;>
      simp only [Part.bytes, Part.start, Part.size, slabHeaderSize, Set.mem_Ico] at inPart inOther
    · exact ne rfl
    · omega
    · have := low j isOther
      omega
    · omega
    · exact ne rfl
    · have := low j isOther
      omega
    · have := low i isPart
      omega
    · have := low i isPart
      omega
    · rcases Nat.lt_trichotomy i j with lt | eq | gt
      · have := apart i j lt isOther
        omega
      · exact ne (congrArg Part.object eq)
      · have := apart j i gt isPart
        omega

end Parts

/-- The object size of a request below `2^31`. -/
theorem objectSizeFor_eq {size : Nat} (pos : 1 ≤ size) (small : size < 2 ^ 31) :
    objectSizeFor size = roundUp8 size := by
  unfold objectSizeFor
  split_ifs with tiny
  · show 8 = (size + 7) / 8 * 8
    omega
  · rw [alignUp_eight (by omega)]
    rfl

theorem exists_findFreeCacheSlot {k : Kmem}
    (free : ∃ i < maxNumCaches, (k.desc (k.slot i)).isUsed = false) :
    ∃ index, k.findFreeCacheSlot = some index := by
  obtain ⟨i, lt, unused⟩ := free
  refine Option.isSome_iff_exists.mp (List.find?_isSome.mpr ⟨i, List.mem_range.mpr lt, ?_⟩)
  rw [unused]
  rfl

/-- **The geometry that `kmem_cache_create` chooses**, for every object size that the system call
admits, when the pool has a free slot. -/
theorem kmemCacheCreate_geometry (k : Kmem) (ctor : Option (Mem → Nat → Mem)) {size : Nat}
    (pos : 1 ≤ size) (small : size < 2 ^ 31)
    (free : ∃ i < maxNumCaches, (k.desc (k.slot i)).isUsed = false) :
    ∃ k' c, k.kmemCacheCreate size ctor = .ok (k', c) ∧
      ((∃ order,
          IsLeast {o | o ≤ maxSlabOrder ∧ Fits (roundUp8 size) (minObjs (roundUp8 size)) o} order ∧
          (∃ i < maxNumCaches, c = k.slot i ∧ (k.desc c).isUsed = false) ∧
          (k'.desc c).isUsed = true ∧ WellLaid (k'.desc c) (roundUp8 size) order ∧
          ∀ s, s % blockSize = 0 → s + blockSize * 2 ^ order ≤ 2 ^ 64 →
            (∀ part, Part.Of (k'.desc c) part → part.start (k'.desc c) s % 8 = 0 ∧
              part.bytes (k'.desc c) s ⊆ Set.Ico s (s + blockSize * 2 ^ order)) ∧
            ∀ part other, Part.Of (k'.desc c) part → Part.Of (k'.desc c) other → part ≠ other →
              Disjoint (part.bytes (k'.desc c) s) (other.bytes (k'.desc c) s)) ∨
        (¬ ∃ o ≤ maxSlabOrder, Fits (roundUp8 size) (minObjs (roundUp8 size)) o) ∧ c = 0 ∧
          ∀ i < maxNumCaches, (k.desc (k.slot i)).isUsed = false →
          (k'.desc (k.slot i)).isUsed = false) ∧
      (0 < k.cachePool →
        (c ≠ 0 ↔ ∃ o ≤ maxSlabOrder, Fits (roundUp8 size) (minObjs (roundUp8 size)) o)) := by
  obtain ⟨index, found⟩ := exists_findFreeCacheSlot free
  obtain ⟨lt, unused⟩ := findFreeCacheSlot_spec found
  have isObj := objectSizeFor_eq pos small
  have objGe : 8 ≤ roundUp8 size := by
    unfold roundUp8
    omega
  have multiple : roundUp8 size % 8 = 0 := Nat.mul_mod_left _ _
  have isMin : minObjsFor (roundUp8 size) = minObjs (roundUp8 size) := rfl
  unfold kmemCacheCreate
  rw [found]
  simp only [isObj, isMin]
  rw [if_neg (by omega)]
  rcases layoutLoop_least objGe (maxSlabOrder + 1) 0 (by omega) with
    ⟨order, _, le, fits, least, run⟩ | ⟨none_, run⟩
  · simp only [run, modifyDesc_modifyDesc]
    have relinked := (k.modifyDesc (k.slot index) fun _ => created ctor (roundUp8 size) order
      (secondCount (roundUp8 size) order)
      (roundUp8 (slabHeaderSize + 2 * secondCount (roundUp8 size) order))).addToCacheList_relinked
      (k.slot index)
    have shape := relinked.sameShape (k.slot index)
    have isUsed := relinked.field (·.isUsed) (k.slot index)
    rw [modifyDesc_self] at shape isUsed
    have laid := (wellLaid_created ctor objGe run).congr shape
    refine ⟨_, _, rfl, Or.inl ⟨order, ⟨⟨le, fits⟩, fun o member => ?_⟩, ⟨index, lt, rfl, unused⟩,
      isUsed, laid, ?_⟩, ?_⟩
    · by_contra below
      exact least o (Nat.zero_le _) (Nat.not_le.mp below) member.2
    · intro s base room
      simp only [blockSize] at base
      exact laid.parts (by omega) multiple (by omega) room
    · intro placed
      refine iff_of_true ?_ ⟨order, le, fits⟩
      unfold slot
      omega
  · simp only [run, modifyDesc_modifyDesc]
    have noFit : ¬ ∃ o ≤ maxSlabOrder, Fits (roundUp8 size) (minObjs (roundUp8 size)) o := by
      rintro ⟨o, le, fits⟩
      exact none_ o (Nat.zero_le _) le fits
    refine ⟨_, _, rfl, Or.inr ⟨noFit, rfl, fun i _ notUsed => ?_⟩,
      fun _ => iff_of_false (fun ne => ne rfl) noFit⟩
    by_cases eq : k.slot i = k.slot index
    · rw [eq, modifyDesc_self]
    · rw [modifyDesc_of_ne _ _ eq]
      exact notUsed

/-- Objects of a thousand bytes: the first slot of a zeroed pool is free. -/
theorem kmemCacheCreate_geometry_zeroed :
    ∃ k' c order, zeroed.kmemCacheCreate 1000 none = .ok (k', c) ∧
    IsLeast {o | o ≤ maxSlabOrder ∧ Fits (roundUp8 1000) (minObjs (roundUp8 1000)) o} order ∧
    (k'.desc c).isUsed = true ∧ WellLaid (k'.desc c) (roundUp8 1000) order := by
  obtain ⟨k', c, call, cases_, _⟩ :=
    kmemCacheCreate_geometry zeroed none (by decide : 1 ≤ 1000) (by decide) ⟨0, by decide, rfl⟩
  obtain ⟨order, least, _, isUsed, laid, _⟩ := cases_.resolve_right fun failed =>
    failed.1 ⟨2, by decide, by unfold Fits; decide⟩
  exact ⟨k', c, order, call, least, isUsed, laid⟩

end Kmem

end Xv6Slab
