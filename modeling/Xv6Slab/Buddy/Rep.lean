/-
**What a buddy state represents, by its per-page flags.**

A state represents two sets of blocks, `freeBlocks` and `allocBlocks`: the pages flagged as heads,
with their orders. `Region` says where the managed pages lie.

* `addrToIndex_page`, `addrToIndex_found`, `addrToIndex_near` — pages and their addresses.
* `setMeta_freeBlocks_insert`, `setMeta_allocBlocks_insert` and their companions — what one write to
  the metadata of a page does to the two sets.
* `SameRegion` — a step leaves the region and the owner table alone.
-/

import Xv6Slab.Buddy.Model
import Xv6Slab.Lib.Chain
import Xv6Slab.Lib.Pool

namespace Xv6Slab

open Bytes Chains Tilings

namespace Buddy

/-! ### The region -/

/-- The number of managed pages. -/
def num (b : Buddy) : Nat := b.managedNumBlocks.toNat

/-- The address of a page. -/
def page (b : Buddy) (i : Nat) : Nat := b.managedStart + i * 4096

/-- The link word of a free block. -/
def link (b : Buddy) (addr : Nat) : Nat := load b.mem addr 8

/-- The managed region is a run of pages of the address space, without the null page. -/
structure Region (b : Buddy) : Prop where
  aligned : b.managedStart % 4096 = 0
  pos : 0 < b.managedStart
  fits : b.managedStart + b.num * 4096 ≤ 2 ^ 64
  small : b.managedNumBlocks < 2 ^ 31

/-- Two states that manage the same region and record the same page owners. -/
structure SameRegion (b b' : Buddy) : Prop where
  start : b'.managedStart = b.managedStart
  blocks : b'.managedNumBlocks = b.managedNumBlocks
  owner : ∀ i, (b'.blockMeta i).ownerSlab = (b.blockMeta i).ownerSlab

namespace SameRegion

variable {b b' b'' : Buddy}

theorem refl (b : Buddy) : SameRegion b b := ⟨rfl, rfl, fun _ => rfl⟩

theorem trans (first : SameRegion b b') (second : SameRegion b' b'') : SameRegion b b'' :=
  ⟨second.start.trans first.start, second.blocks.trans first.blocks,
    fun i => (second.owner i).trans (first.owner i)⟩

theorem num (same : SameRegion b b') : b'.num = b.num := by
  rw [Buddy.num, same.blocks, Buddy.num]

theorem page (same : SameRegion b b') (i : Nat) : b'.page i = b.page i := by
  rw [Buddy.page, same.start, Buddy.page]

theorem region (same : SameRegion b b') (region : b.Region) : b'.Region where
  aligned := by rw [same.start]; exact region.aligned
  pos := by rw [same.start]; exact region.pos
  fits := by rw [same.start, same.num]; exact region.fits
  small := by rw [same.blocks]; exact region.small

end SameRegion

namespace Region

variable {b : Buddy} {i j : Nat}

theorem num_lt (region : b.Region) : b.num < 2 ^ 31 := by
  have := region.small
  rw [num]
  omega

theorem page_pos (region : b.Region) : 0 < b.page i :=
  lt_of_lt_of_le region.pos (Nat.le_add_right _ _)

theorem page_lt (region : b.Region) (lt : i < b.num) : b.page i + 4096 ≤ 2 ^ 64 := by
  have := region.fits
  rw [page]
  omega

end Region

theorem page_injective (b : Buddy) {i j : Nat} (same : b.page i = b.page j) : i = j := by
  simp only [page] at same
  omega

/-- Different pages do not overlap. -/
theorem page_apart (b : Buddy) {i j : Nat} (ne : i ≠ j) :
    b.page i + 4096 ≤ b.page j ∨ b.page j + 4096 ≤ b.page i := by
  simp only [page]
  omega

theorem page_add (b : Buddy) (i j : Nat) : b.page (i + j) = b.page i + j * 4096 := by
  simp only [page]
  omega

/-- `addr_to_index` recognises the pages of the region. -/
theorem addrToIndex_page {b : Buddy} (region : b.Region) {i : Nat} (lt : i < b.num) :
    b.addrToIndex (b.page i) = i := by
  have small := region.num_lt
  have off : b.page i - b.managedStart = i * 4096 := by simp [page]
  have quotient : i * 4096 / 4096 = i := Nat.mul_div_cancel _ (by decide)
  have inRange : ¬ ((i : Int) < 0 ∨ b.managedNumBlocks ≤ i) := by
    rw [num] at lt
    omega
  rw [addrToIndex, if_neg (by simp [page])]
  simp only [off, blockSize, quotient]
  rw [if_neg (by simp), toInt32_of_lt (by omega), if_neg inRange]

/-- What `addr_to_index` has checked when it returns an index. -/
theorem addrToIndex_found {b : Buddy} {ptr : Nat} (found : 0 ≤ b.addrToIndex ptr) :
    b.managedStart ≤ ptr ∧ (ptr - b.managedStart) % 4096 = 0 ∧
      b.addrToIndex ptr = toInt32 ((ptr - b.managedStart) / 4096) ∧
      b.addrToIndex ptr < b.managedNumBlocks := by
  by_cases below : ptr < b.managedStart
  · rw [addrToIndex, if_pos below] at found
    omega
  · by_cases off : (ptr - b.managedStart) % 4096 = 0
    · by_cases range : toInt32 ((ptr - b.managedStart) / 4096) < 0 ∨
          b.managedNumBlocks ≤ toInt32 ((ptr - b.managedStart) / 4096)
      · rw [addrToIndex, if_neg below] at found
        simp only [blockSize, off, ne_eq, not_true_eq_false, if_false, if_pos range] at found
        omega
      · rw [addrToIndex, if_neg below]
        simp only [blockSize, off, ne_eq, not_true_eq_false, if_false, if_neg range]
        exact ⟨by omega, trivial, trivial, by omega⟩
    · rw [addrToIndex, if_neg below] at found
      simp only [blockSize, off, ne_eq, not_false_eq_true, if_true] at found
      omega

/-- Near the region, `addr_to_index` accepts nothing but the pages of the region. -/
theorem addrToIndex_near {b : Buddy} {ptr : Nat} (near : ptr < b.managedStart + 2 ^ 44)
    (found : 0 ≤ b.addrToIndex ptr) :
    ∃ i, i < b.num ∧ ptr = b.page i ∧ b.addrToIndex ptr = i := by
  obtain ⟨above, off, value, bound⟩ := addrToIndex_found found
  have small : (ptr - b.managedStart) / 4096 < 2 ^ 31 := by
    by_contra large
    have negative : toInt32 ((ptr - b.managedStart) / 4096) < 0 := toInt32_neg (by omega) (by omega)
    omega
  rw [toInt32_of_lt small] at value
  refine ⟨(ptr - b.managedStart) / 4096, ?_, ?_, value⟩
  · rw [num]
    omega
  · rw [page]
    omega

theorem addrToIndex_lt {b : Buddy} {ptr : Nat} (found : 0 ≤ b.addrToIndex ptr) :
    (b.addrToIndex ptr).toNat < b.num := by
  obtain ⟨_, _, _, bound⟩ := addrToIndex_found found
  rw [num]
  omega

/-! ### Blocks read off the flags -/

/-- The free blocks: the pages flagged as free heads, with their order. -/
def freeBlocks (b : Buddy) : Set Block :=
  {c | c.index < b.num ∧ (b.blockMeta c.index).isHeadOfFreeBlock = true ∧
    (b.blockMeta c.index).freeOrder = c.order}

/-- The allocated blocks: the pages flagged as allocated heads, with their order. -/
def allocBlocks (b : Buddy) : Set Block :=
  {c | c.index < b.num ∧ (b.blockMeta c.index).isHeadOfAllocBlock = true ∧
    (b.blockMeta c.index).allocOrder = c.order}

theorem mem_freeBlocks {b : Buddy} {i k : Nat} : (⟨i, k⟩ : Block) ∈ b.freeBlocks ↔
    i < b.num ∧ (b.blockMeta i).isHeadOfFreeBlock = true ∧ (b.blockMeta i).freeOrder = k := Iff.rfl

theorem mem_allocBlocks {b : Buddy} {i k : Nat} : (⟨i, k⟩ : Block) ∈ b.allocBlocks ↔
    i < b.num ∧ (b.blockMeta i).isHeadOfAllocBlock = true ∧ (b.blockMeta i).allocOrder = k :=
    Iff.rfl

/-- A state with one page's metadata exchanged. -/
def setMeta (b : Buddy) (i : Nat) (m : BlockMeta) : Buddy :=
  { b with blockMeta := Function.update b.blockMeta i m }

@[simp] theorem setMeta_num (b : Buddy) (i : Nat) (m : BlockMeta) : (b.setMeta i m).num = b.num :=
  rfl

@[simp] theorem setMeta_page (b : Buddy) (i : Nat) (m : BlockMeta) (j : Nat) :
    (b.setMeta i m).page j = b.page j := rfl

@[simp] theorem setMeta_mem (b : Buddy) (i : Nat) (m : BlockMeta) : (b.setMeta i m).mem = b.mem :=
  rfl

@[simp] theorem setMeta_freeArea (b : Buddy) (i : Nat) (m : BlockMeta) :
    (b.setMeta i m).freeArea = b.freeArea := rfl

@[simp] theorem setMeta_self (b : Buddy) (i : Nat) (m : BlockMeta) :
    (b.setMeta i m).blockMeta i = m := Function.update_self ..

@[simp] theorem setMeta_of_ne (b : Buddy) {i j : Nat} (m : BlockMeta) (ne : j ≠ i) :
    (b.setMeta i m).blockMeta j = b.blockMeta j := Function.update_of_ne ne ..

/-- A write to the metadata of a managed page. -/
theorem modifyMeta_ok {b : Buddy} {i : Nat} (change : BlockMeta → BlockMeta) (lt : i < b.num) :
    b.modifyMeta i change = .ok (b.setMeta i (change (b.blockMeta i))) := by
  have inRange : 0 ≤ (i : Int) ∧ (i : Int) < b.managedNumBlocks := by
    rw [num] at lt
    omega
  rw [modifyMeta, if_pos inRange]
  rfl

theorem setMeta_sameRegion (b : Buddy) (i : Nat) (m : BlockMeta)
    (owner : m.ownerSlab = (b.blockMeta i).ownerSlab) : SameRegion b (b.setMeta i m) := by
  refine ⟨rfl, rfl, fun j => ?_⟩
  by_cases eq : j = i
  · subst eq
    rw [setMeta_self, owner]
  · rw [setMeta_of_ne _ _ eq]

/-- Flagging a page as the head of a free block. -/
theorem setMeta_freeBlocks_insert {b : Buddy} {i k : Nat} {m : BlockMeta} (lt : i < b.num)
    (flag : m.isHeadOfFreeBlock = true) (order : m.freeOrder = k)
    (fresh : ∀ l, ⟨i, l⟩ ∉ b.freeBlocks) :
    (b.setMeta i m).freeBlocks = insert ⟨i, k⟩ b.freeBlocks := by
  ext ⟨j, l⟩
  by_cases eq : j = i
  · subst eq
    have absent : (⟨j, l⟩ : Block) ∉ b.freeBlocks := fresh l
    rw [Set.mem_insert_iff, or_iff_left absent, mem_freeBlocks, Block.mk.injEq,
      setMeta_self, flag, order]
    exact ⟨fun member => ⟨rfl, member.2.2.symm⟩, fun same => ⟨lt, rfl, same.2.symm⟩⟩
  · simp [mem_freeBlocks, eq]

/-- Clearing the flag of a free head. -/
theorem setMeta_freeBlocks_erase {b : Buddy} {i k : Nat} {m : BlockMeta}
    (flag : m.isHeadOfFreeBlock = false) (order : ∀ l, ⟨i, l⟩ ∈ b.freeBlocks → l = k) :
    (b.setMeta i m).freeBlocks = b.freeBlocks \ {⟨i, k⟩} := by
  ext ⟨j, l⟩
  by_cases eq : j = i
  · subst eq
    have gone : (⟨j, l⟩ : Block) ∈ b.freeBlocks → l = k := order l
    simpa [mem_freeBlocks, flag] using gone
  · simp [mem_freeBlocks, eq]

/-- A metadata change that keeps the free flag and order of the page. -/
theorem setMeta_freeBlocks_same {b : Buddy} {i : Nat} {m : BlockMeta}
    (flag : m.isHeadOfFreeBlock = (b.blockMeta i).isHeadOfFreeBlock)
    (order : m.freeOrder = (b.blockMeta i).freeOrder) :
    (b.setMeta i m).freeBlocks = b.freeBlocks := by
  ext ⟨j, l⟩
  by_cases eq : j = i
  · subst eq
    simp [mem_freeBlocks, flag, order]
  · simp [mem_freeBlocks, eq]

/-- Flagging a page as the head of an allocated block. -/
theorem setMeta_allocBlocks_insert {b : Buddy} {i k : Nat} {m : BlockMeta} (lt : i < b.num)
    (flag : m.isHeadOfAllocBlock = true) (order : m.allocOrder = k)
    (fresh : ∀ l, ⟨i, l⟩ ∉ b.allocBlocks) :
    (b.setMeta i m).allocBlocks = insert ⟨i, k⟩ b.allocBlocks := by
  ext ⟨j, l⟩
  by_cases eq : j = i
  · subst eq
    have absent : (⟨j, l⟩ : Block) ∉ b.allocBlocks := fresh l
    rw [Set.mem_insert_iff, or_iff_left absent, mem_allocBlocks, Block.mk.injEq,
      setMeta_self, flag, order]
    exact ⟨fun member => ⟨rfl, member.2.2.symm⟩, fun same => ⟨lt, rfl, same.2.symm⟩⟩
  · simp [mem_allocBlocks, eq]

/-- Clearing the flag of an allocated head. -/
theorem setMeta_allocBlocks_erase {b : Buddy} {i k : Nat} {m : BlockMeta}
    (flag : m.isHeadOfAllocBlock = false) (order : ∀ l, ⟨i, l⟩ ∈ b.allocBlocks → l = k) :
    (b.setMeta i m).allocBlocks = b.allocBlocks \ {⟨i, k⟩} := by
  ext ⟨j, l⟩
  by_cases eq : j = i
  · subst eq
    have gone : (⟨j, l⟩ : Block) ∈ b.allocBlocks → l = k := order l
    simpa [mem_allocBlocks, flag] using gone
  · simp [mem_allocBlocks, eq]

/-- A metadata change that keeps the allocation flag and order of the page. -/
theorem setMeta_allocBlocks_same {b : Buddy} {i : Nat} {m : BlockMeta}
    (flag : m.isHeadOfAllocBlock = (b.blockMeta i).isHeadOfAllocBlock)
    (order : m.allocOrder = (b.blockMeta i).allocOrder) :
    (b.setMeta i m).allocBlocks = b.allocBlocks := by
  ext ⟨j, l⟩
  by_cases eq : j = i
  · subst eq
    simp [mem_allocBlocks, flag, order]
  · simp [mem_allocBlocks, eq]

end Buddy

end Xv6Slab
