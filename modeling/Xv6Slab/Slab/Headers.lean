/-
**Slab headers and their index free lists.**

* `Geometry` — what `kmem_cache_create` guarantees of the layout of a slab.
* `Header` — the header of a slab agrees with what is known of it (`SlabView`): its cache, and its
  free indices in the order of its index free list.
* `Header.alloc`, `Header.release` — **the two object operations on a header**, as the writes of the
  code perform them.
-/

import Xv6Slab.Slab.Lists

namespace Xv6Slab

open Bytes Chains Tilings

namespace KmemCache

/-- The bytes of one slab. -/
def slabBytes (d : KmemCache) : Nat := 4096 * 2 ^ d.slabOrder

/-- The address of an object of a slab. -/
def objAt (d : KmemCache) (s idx : Nat) : Nat := s + d.objOffset + idx * d.objectSize

/-- What `kmem_cache_create` guarantees: header, index array and objects fit into a slab one after
the other, and a constructor writes into its object only. -/
structure Geometry (d : KmemCache) : Prop where
  objectSize_ge : 8 ≤ d.objectSize
  slabOrder_le : d.slabOrder ≤ maxSlabOrder
  objs_pos : 1 ≤ d.objsPerSlab
  objs_lt : d.objsPerSlab < nofree
  header : 32 + 2 * d.objsPerSlab ≤ d.objOffset
  objects : d.objOffset + d.objsPerSlab * d.objectSize ≤ d.slabBytes
  ctorLocal : ∀ ctor, d.ctor = some ctor → ∀ mem obj,
    SameOutside (Set.Ico obj (obj + d.objectSize)) mem (ctor mem obj)

/-- Two descriptors that lay out slabs in the same way. -/
structure SameShape (d d' : KmemCache) : Prop where
  slabOrder : d'.slabOrder = d.slabOrder
  objectSize : d'.objectSize = d.objectSize
  objsPerSlab : d'.objsPerSlab = d.objsPerSlab
  objOffset : d'.objOffset = d.objOffset
  ctor : d'.ctor = d.ctor

namespace SameShape

variable {d d' d'' : KmemCache}

theorem refl (d : KmemCache) : SameShape d d := ⟨rfl, rfl, rfl, rfl, rfl⟩

theorem trans (first : SameShape d d') (second : SameShape d' d'') : SameShape d d'' :=
  ⟨second.slabOrder.trans first.slabOrder, second.objectSize.trans first.objectSize,
    second.objsPerSlab.trans first.objsPerSlab, second.objOffset.trans first.objOffset,
    second.ctor.trans first.ctor⟩

theorem of_layout (same : d'.layout = d.layout) : SameShape d d' := by
  have shared : SameShape d d.layout := ⟨rfl, rfl, rfl, rfl, rfl⟩
  rw [← same] at shared
  exact ⟨shared.slabOrder, shared.objectSize, shared.objsPerSlab, shared.objOffset, shared.ctor⟩

theorem slabBytes (same : SameShape d d') : d'.slabBytes = d.slabBytes := by
  unfold KmemCache.slabBytes
  rw [same.slabOrder]

theorem objAt (same : SameShape d d') (s x : Nat) : d'.objAt s x = d.objAt s x := by
  unfold KmemCache.objAt
  rw [same.objOffset, same.objectSize]

theorem geometry (same : SameShape d d') (geometry : d.Geometry) : d'.Geometry where
  objectSize_ge := by rw [same.objectSize]; exact geometry.objectSize_ge
  slabOrder_le := by rw [same.slabOrder]; exact geometry.slabOrder_le
  objs_pos := by rw [same.objsPerSlab]; exact geometry.objs_pos
  objs_lt := by rw [same.objsPerSlab]; exact geometry.objs_lt
  header := by rw [same.objsPerSlab, same.objOffset]; exact geometry.header
  objects := by
    rw [same.objOffset, same.objsPerSlab, same.objectSize, same.slabBytes]
    exact geometry.objects
  ctorLocal := by rw [same.ctor, same.objectSize]; exact geometry.ctorLocal

end SameShape

theorem Geometry.objAt_le {d : KmemCache} (geometry : d.Geometry) (s : Nat) {idx : Nat}
    (lt : idx < d.objsPerSlab) : d.objAt s idx + d.objectSize ≤ s + d.slabBytes := by
  have fits := geometry.objects
  have upTo : (idx + 1) * d.objectSize ≤ d.objsPerSlab * d.objectSize :=
    Nat.mul_le_mul_right _ lt
  rw [Nat.succ_mul] at upTo
  unfold objAt
  omega

theorem Geometry.header_lt {d : KmemCache} (geometry : d.Geometry) :
    32 + 2 * d.objsPerSlab ≤ d.slabBytes :=
  geometry.header.trans ((Nat.le_add_right _ _).trans geometry.objects)

/-- Two objects of a slab do not overlap. -/
theorem objAt_apart (d : KmemCache) (s : Nat) {idx idx' : Nat} (ne : idx ≠ idx') :
    d.objAt s idx + d.objectSize ≤ d.objAt s idx' ∨
    d.objAt s idx' + d.objectSize ≤ d.objAt s idx := by
  unfold objAt
  rcases Nat.lt_or_gt_of_ne ne with lt | gt
  · left
    have upTo : (idx + 1) * d.objectSize ≤ idx' * d.objectSize := Nat.mul_le_mul_right _ lt
    rw [Nat.succ_mul] at upTo
    omega
  · right
    have upTo : (idx' + 1) * d.objectSize ≤ idx * d.objectSize := Nat.mul_le_mul_right _ gt
    rw [Nat.succ_mul] at upTo
    omega

theorem objAt_injective {d : KmemCache} (pos : 8 ≤ d.objectSize) {s idx idx' : Nat}
    (same : d.objAt s idx = d.objAt s idx') : idx = idx' := by
  by_contra ne
  rcases d.objAt_apart s ne with apart | apart <;> omega

end KmemCache

theorem Kmem.Quiet.slabBytes {k k' : Kmem} {touched : Set Nat} (quiet : Kmem.Quiet k k' touched)
    (c : Nat) : (k'.desc c).slabBytes = (k.desc c).slabBytes := by
  unfold KmemCache.slabBytes
  rw [quiet.slabOrder]

/-! ### Headers -/

/-- What is known of a slab: its cache, and its free indices in list order. -/
structure SlabView where
  cache : Nat
  free : List Nat

/-- The header of a slab with `n` objects agrees with its view. -/
structure Header (mem : Mem) (s : Nat) (v : SlabView) (n : Nat) : Prop where
  cache : slabCache mem s = v.cache
  chain : Chain (slabNextArray mem s) nofree (slabFirstFree mem s) v.free
  bounded : ∀ x ∈ v.free, x < n
  freeCount : slabFreeCount mem s = v.free.length
  inuse : slabInuse mem s + v.free.length = n

/-- The bytes of a header without its link words. -/
def infoBytes (s n : Nat) : Set Nat := Set.Ico s (s + 16) ∪ Set.Ico (s + 32) (s + 32 + 2 * n)

namespace Header

variable {mem mem' : Mem} {s n : Nat} {v : SlabView}

theorem frame (header : Header mem s v n) {touched : Set Nat} (same : SameOutside touched mem mem')
    (apart : ∀ a ∈ touched, a ∉ infoBytes s n) : Header mem' s v n := by
  have front : ∀ {a width : Nat}, s ≤ a → a + width ≤ s + 16 →
      load mem' a width = load mem a width := by
    intro a width low high
    apply same.load
    intro x xLow xHigh inTouched
    exact apart x inTouched (Or.inl ⟨by omega, by omega⟩)
  refine ⟨?_, ?_, header.bounded, ?_, ?_⟩
  · exact (front le_rfl (by omega)).trans header.cache
  · have first : slabFirstFree mem' s = slabFirstFree mem s := front (by omega) (by omega)
    rw [first]
    apply header.chain.congr
    intro x member
    have bound := header.bounded x member
    apply same.load
    intro a low high inTouched
    simp only [slabHeaderSize] at low high
    exact apart a inTouched (Or.inr ⟨by omega, by omega⟩)
  · exact (front (by omega) (by omega)).trans header.freeCount
  · have count : slabInuse mem' s = slabInuse mem s := front (by omega) (by omega)
    rw [count]
    exact header.inuse

theorem nodup (header : Header mem s v n) : v.free.Nodup := header.chain.nodup

/-- A slab in which some index is not free has fewer free indices than objects. -/
theorem length_lt (header : Header mem s v n) {x : Nat} (lt : x < n) (live : x ∉ v.free) :
    v.free.length < n := by
  have sub : v.free.toFinset ⊆ (Finset.range n).erase x := by
    intro y member
    rw [List.mem_toFinset] at member
    rw [Finset.mem_erase, Finset.mem_range]
    exact ⟨fun eq => live (eq ▸ member), header.bounded y member⟩
  have card := Finset.card_le_card sub
  rw [List.toFinset_card_of_nodup header.nodup, Finset.card_erase_of_mem (Finset.mem_range.mpr lt),
    Finset.card_range] at card
  omega

/-- As many free indices as objects: every index is free. -/
theorem all_free (header : Header mem s v n) (length : v.free.length = n) :
    ∀ x < n, x ∈ v.free := by
  intro x lt
  by_contra notFree
  have fewer := header.length_lt lt notFree
  omega

/-- **Taking the first free index**, as `slab_alloc_obj` does. -/
theorem alloc {c x : Nat} {l : List Nat} (header : Header mem s ⟨c, x :: l⟩ n) (small : n < nofree)
    {mem₁ mem₂ mem₃ : Mem} (first : mem₁ = store mem (s + 8) 2 (slabNextArray mem s x))
    (second : mem₂ = store mem₁ (s + 10) 2 ((slabFreeCount mem₁ s + 2 ^ 16 - 1) % 2 ^ 16))
    (third : mem₃ = store mem₂ (s + 12) 4 ((slabInuse mem₂ s + 1) % 2 ^ 32)) :
    Header mem₃ s ⟨c, l⟩ n ∧ slabInuse mem₃ s + l.length = n ∧
      SameOutside (Set.Ico (s + 8) (s + 16)) mem mem₃ := by
  have small' : n < 65535 := small
  have count := header.freeCount
  have inuse := header.inuse
  simp only [List.length_cons] at count inuse
  have count₁ : slabFreeCount mem₁ s = l.length + 1 := by
    rw [← count, first]
    exact load_store_apart (by omega)
  have inuse₂ : slabInuse mem₂ s = slabInuse mem s := by
    rw [second, first]
    exact (load_store_apart (by omega)).trans (load_store_apart (by omega))
  have inuse₃ : slabInuse mem₃ s = slabInuse mem s + 1 := by
    rw [third, inuse₂]
    unfold slabInuse at *
    rw [load_store_mod]
    omega
  have count₃ : slabFreeCount mem₃ s = l.length := by
    have kept : slabFreeCount mem₃ s = slabFreeCount mem₂ s := by
      rw [third]
      exact load_store_apart (by omega)
    rw [kept, second, count₁]
    unfold slabFreeCount
    rw [load_store_mod]
    omega
  have first₃ : slabFirstFree mem₃ s = slabNextArray mem s x := by
    have kept : slabFirstFree mem₃ s = slabFirstFree mem₁ s := by
      rw [third, second]
      exact (load_store_apart (by omega)).trans (load_store_apart (by omega))
    rw [kept, first]
    exact load_store_same (load_lt _ _ _)
  have outside : ∀ {a width : Nat}, (a + width ≤ s + 8 ∨ s + 16 ≤ a) →
      load mem₃ a width = load mem a width := by
    intro a width range
    rw [third, second, first]
    exact ((load_store_apart (by omega)).trans (load_store_apart (by omega))).trans
      (load_store_apart (by omega))
  refine ⟨⟨?_, ?_, ?_, count₃, by simp only; omega⟩, by omega, ?_⟩
  · exact (outside (Or.inl le_rfl)).trans header.cache
  · rw [first₃]
    obtain ⟨_, rest⟩ := header.chain.tail
    apply rest.congr
    intro y _
    exact outside (Or.inr (by simp only [slabHeaderSize]; omega))
  · intro y member
    exact header.bounded y (List.mem_cons_of_mem _ member)
  · intro a notInside
    rw [third, second, first]
    have range : ¬ (s + 8 ≤ a ∧ a < s + 16) := notInside
    unfold store
    rw [if_neg (by omega), if_neg (by omega), if_neg (by omega)]

/-- **Returning an index**, as `slab_free_obj` does. -/
theorem release {c x : Nat} {l : List Nat} (header : Header mem s ⟨c, l⟩ n) (small : n < nofree)
    (lt : x < n) (live : x ∉ l) {mem₁ mem₂ mem₃ mem₄ : Mem}
    (first : mem₁ = store mem (s + slabHeaderSize + 2 * x) 2 (slabFirstFree mem s))
    (second : mem₂ = store mem₁ (s + 8) 2 x)
    (third : mem₃ = store mem₂ (s + 10) 2 ((slabFreeCount mem₂ s + 1) % 2 ^ 16))
    (fourth : mem₄ = store mem₃ (s + 12) 4 ((slabInuse mem₃ s + 2 ^ 32 - 1) % 2 ^ 32)) :
    Header mem₄ s ⟨c, x :: l⟩ n ∧ slabInuse mem₄ s + l.length + 1 = n ∧
      SameOutside (infoBytes s n) mem mem₄ := by
  have small' : n < 65535 := small
  have count := header.freeCount
  have inuse := header.inuse
  have fewer := header.length_lt lt live
  simp only [slabHeaderSize] at *
  have count₂ : slabFreeCount mem₂ s = l.length := by
    rw [← count, second, first]
    exact (load_store_apart (by omega)).trans (load_store_apart (by omega))
  have inuse₃ : slabInuse mem₃ s = slabInuse mem s := by
    rw [third, second, first]
    exact ((load_store_apart (by omega)).trans (load_store_apart (by omega))).trans
      (load_store_apart (by omega))
  have inuse₄ : slabInuse mem₄ s = slabInuse mem s - 1 := by
    have bound : slabInuse mem s < 2 ^ 32 := load_lt mem (s + 12) 4
    rw [fourth, inuse₃]
    unfold slabInuse at *
    rw [load_store_mod]
    omega
  have count₄ : slabFreeCount mem₄ s = l.length + 1 := by
    have kept : slabFreeCount mem₄ s = slabFreeCount mem₃ s := by
      rw [fourth]
      exact load_store_apart (by omega)
    rw [kept, third, count₂]
    unfold slabFreeCount
    rw [load_store_mod]
    omega
  have first₄ : slabFirstFree mem₄ s = x := by
    have kept : slabFirstFree mem₄ s = slabFirstFree mem₂ s := by
      rw [fourth, third]
      exact (load_store_apart (by omega)).trans (load_store_apart (by omega))
    rw [kept, second]
    exact load_store_same (by omega)
  have outside : ∀ {a width : Nat}, (a + width ≤ s + 8 ∨ s + 16 ≤ a) →
      load mem₄ a width = load mem₁ a width := by
    intro a width range
    rw [fourth, third, second]
    exact ((load_store_apart (by omega)).trans (load_store_apart (by omega))).trans
      (load_store_apart (by omega))
  refine ⟨⟨?_, ?_, ?_, count₄, by simp only [List.length_cons]; omega⟩, by omega, ?_⟩
  · refine (outside (Or.inl le_rfl)).trans (Eq.trans ?_ header.cache)
    rw [first]
    exact load_store_apart (by omega)
  · rw [first₄]
    have linkHere : slabNextArray mem₄ s x = slabFirstFree mem s := by
      refine (outside (Or.inr (by simp only [slabHeaderSize]; omega))).trans ?_
      rw [first]
      exact load_store_same (load_lt _ _ _)
    refine header.chain.push (by omega) linkHere ?_
    intro y member
    have ne : y ≠ x := fun eq => live (eq ▸ member)
    refine (outside (Or.inr (by simp only [slabHeaderSize]; omega))).trans ?_
    rw [first]
    exact load_store_apart (by simp only [slabHeaderSize]; omega)
  · intro y member
    rcases List.mem_cons.mp member with rfl | later
    · exact lt
    · exact header.bounded y later
  · intro a notInside
    have range : ¬ ((s ≤ a ∧ a < s + 16) ∨ (s + 32 ≤ a ∧ a < s + 32 + 2 * n)) := notInside
    rw [fourth, third, second, first]
    unfold store
    rw [if_neg (by omega), if_neg (by omega), if_neg (by omega), if_neg (by omega)]

end Header

end Xv6Slab
