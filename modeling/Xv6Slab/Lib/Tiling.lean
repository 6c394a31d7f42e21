/-
**Tilings of an interval by power-of-two blocks.**

A block is a start index and an order; it covers `2 ^ order` consecutive indices. A set of blocks
tiles `[0, n)` when every block lies inside and every index is covered by exactly one block.

* `Tiling.replace` — exchanging some blocks for others that cover the same indices keeps a tiling;
  splitting a block (`Tiling.split`) and merging two neighbours (`Tiling.merge`) are instances.
* `Block.nested` — of two aligned blocks that meet, the one of smaller order lies in the other.
* `Tiling.coalesced_unique` — **a tiling by aligned blocks of order at most `top`, in which no two
  siblings below `top` both occur, is unique.** The blocks are then exactly the maximal aligned
  blocks of the interval.
-/

import Mathlib.Data.Nat.Bitwise
import Mathlib.Data.Set.Basic
import Mathlib.Tactic
import Mathlib.Order.CompletePartialOrder

namespace Tilings

/-- A run of `2 ^ order` indices. -/
structure Block where
  index : Nat
  order : Nat
  deriving DecidableEq

namespace Block

/-- The index `p` lies in the block. -/
def Covers (b : Block) (p : Nat) : Prop := b.index ≤ p ∧ p < b.index + 2 ^ b.order

theorem covers_index (b : Block) : b.Covers b.index :=
  ⟨le_rfl, Nat.lt_add_of_pos_right (Nat.two_pow_pos _)⟩

theorem covers_halves (i k p : Nat) :
    (⟨i, k + 1⟩ : Block).Covers p ↔
      (⟨i, k⟩ : Block).Covers p ∨ (⟨i + 2 ^ k, k⟩ : Block).Covers p := by
  simp only [Covers, pow_succ]
  omega

end Block

/-- Every block lies in `[0, n)`, and every index of `[0, n)` is covered exactly once. -/
structure Tiling (n : Nat) (blocks : Set Block) : Prop where
  inside : ∀ b ∈ blocks, b.index + 2 ^ b.order ≤ n
  once : ∀ b ∈ blocks, ∀ c ∈ blocks, ∀ p, b.Covers p → c.Covers p → b = c
  cover : ∀ p < n, ∃ b ∈ blocks, b.Covers p

namespace Tiling

variable {n : Nat} {blocks : Set Block} {b c : Block}

theorem index_lt (tiling : Tiling n blocks) (member : b ∈ blocks) : b.index < n :=
  lt_of_lt_of_le b.covers_index.2 (tiling.inside b member)

theorem lt_of_covers (tiling : Tiling n blocks) (member : b ∈ blocks) {p : Nat}
    (covers : b.Covers p) : p < n :=
  lt_of_lt_of_le covers.2 (tiling.inside b member)

theorem eq_of_index (tiling : Tiling n blocks) (first : b ∈ blocks) (second : c ∈ blocks)
    (same : b.index = c.index) : b = c :=
  tiling.once b first c second b.index b.covers_index (by rw [same]; exact c.covers_index)

/-- **Exchanging blocks.** Blocks may be exchanged for others that cover the same indices, each
once. -/
theorem replace (tiling : Tiling n blocks) {out into : Set Block} (sub : out ⊆ blocks)
    (same : ∀ p, (∃ b ∈ out, b.Covers p) ↔ ∃ b ∈ into, b.Covers p)
    (once : ∀ b ∈ into, ∀ c ∈ into, ∀ p, b.Covers p → c.Covers p → b = c) :
    Tiling n (blocks \ out ∪ into) where
  inside := by
    rintro b (⟨member, _⟩ | member)
    · exact tiling.inside b member
    · have last : b.Covers (b.index + 2 ^ b.order - 1) := by
        have := Nat.two_pow_pos b.order
        exact ⟨by omega, by omega⟩
      obtain ⟨c, cOut, covers⟩ := (same _).mpr ⟨b, member, last⟩
      have := tiling.lt_of_covers (sub cOut) covers
      omega
  once := by
    -- an index covered by a kept and a new block would have been covered by a kept and an old one
    have mixed : ∀ b ∈ blocks \ out, ∀ c ∈ into, ∀ p, b.Covers p → ¬ c.Covers p := by
      intro b kept c new p bCovers cCovers
      obtain ⟨d, dOut, dCovers⟩ := (same p).mpr ⟨c, new, cCovers⟩
      have := tiling.once b kept.1 d (sub dOut) p bCovers dCovers
      exact kept.2 (this ▸ dOut)
    rintro b (bKept | bNew) c (cKept | cNew) p bCovers cCovers
    · exact tiling.once b bKept.1 c cKept.1 p bCovers cCovers
    · exact absurd cCovers (mixed b bKept c cNew p bCovers)
    · exact absurd bCovers (mixed c cKept b bNew p cCovers)
    · exact once b bNew c cNew p bCovers cCovers
  cover := by
    intro p lt
    obtain ⟨b, member, covers⟩ := tiling.cover p lt
    by_cases inOut : b ∈ out
    · obtain ⟨c, new, cCovers⟩ := (same p).mp ⟨b, inOut, covers⟩
      exact ⟨c, Or.inr new, cCovers⟩
    · exact ⟨b, Or.inl ⟨member, inOut⟩, covers⟩

/-- Splitting a block into its two halves. -/
theorem split (tiling : Tiling n blocks) {i k : Nat} (member : ⟨i, k + 1⟩ ∈ blocks) :
    Tiling n (blocks \ {⟨i, k + 1⟩} ∪ {⟨i, k⟩, ⟨i + 2 ^ k, k⟩}) := by
  refine tiling.replace (by simpa using member) (fun p => ?_) ?_
  · simp only [Set.mem_singleton_iff, exists_eq_left, Set.mem_insert_iff, exists_eq_or_imp]
    exact Block.covers_halves i k p
  · simp only [Set.mem_insert_iff, Set.mem_singleton_iff]
    rintro b (rfl | rfl) c (rfl | rfl) p bCovers cCovers
    · rfl
    · exact absurd cCovers.1 (not_le.mpr bCovers.2)
    · exact absurd bCovers.1 (not_le.mpr cCovers.2)
    · rfl

/-- Merging two neighbours of equal order. -/
theorem merge (tiling : Tiling n blocks) {i k : Nat} (left : ⟨i, k⟩ ∈ blocks)
    (right : ⟨i + 2 ^ k, k⟩ ∈ blocks) :
    Tiling n (blocks \ {⟨i, k⟩, ⟨i + 2 ^ k, k⟩} ∪ {⟨i, k + 1⟩}) := by
  refine tiling.replace (Set.insert_subset left (by simpa using right)) (fun p => ?_) ?_
  · simp only [Set.mem_singleton_iff, exists_eq_left, Set.mem_insert_iff, exists_eq_or_imp]
    exact (Block.covers_halves i k p).symm
  · rintro b rfl c rfl p _ _
    rfl

/-- The empty tiling. -/
theorem empty : Tiling 0 ∅ where
  inside := fun _ member => absurd member (Set.notMem_empty _)
  once := fun _ member => absurd member (Set.notMem_empty _)
  cover := fun _ lt => absurd lt (Nat.not_lt_zero _)

/-- One more block at the end of the interval. -/
theorem extend (tiling : Tiling n blocks) (k : Nat) :
    Tiling (n + 2 ^ k) (insert ⟨n, k⟩ blocks) where
  inside := by
    rintro b (rfl | member)
    · exact le_rfl
    · exact (tiling.inside b member).trans (Nat.le_add_right _ _)
  once := by
    have old : ∀ b ∈ blocks, ∀ p, b.Covers p → ¬ (⟨n, k⟩ : Block).Covers p :=
      fun b member p covers last => absurd last.1 (not_le.mpr (tiling.lt_of_covers member covers))
    rintro b (rfl | bMember) c (rfl | cMember) p bCovers cCovers
    · rfl
    · exact absurd bCovers (old c cMember p cCovers)
    · exact absurd cCovers (old b bMember p bCovers)
    · exact tiling.once b bMember c cMember p bCovers cCovers
  cover := by
    intro p lt
    rcases lt_or_ge p n with before | after
    · obtain ⟨b, member, covers⟩ := tiling.cover p before
      exact ⟨b, Set.mem_insert_of_mem _ member, covers⟩
    · exact ⟨⟨n, k⟩, Set.mem_insert _ _, after, lt⟩

end Tiling

/-! ### Aligned blocks -/

namespace Block

/-- The block starts at a multiple of its size. -/
def Aligned (b : Block) : Prop := 2 ^ b.order ∣ b.index

/-- The other half of the block of the next order that contains an aligned block. -/
def sibling (b : Block) : Block :=
  ⟨if b.index / 2 ^ b.order % 2 = 0 then b.index + 2 ^ b.order else b.index - 2 ^ b.order, b.order⟩

/-- The aligned block of the next order that contains an aligned block. -/
def parent (b : Block) : Block := ⟨b.index / 2 ^ (b.order + 1) * 2 ^ (b.order + 1), b.order + 1⟩

theorem Aligned.index_eq {b : Block} (aligned : b.Aligned) {p : Nat} (covers : b.Covers p) :
    b.index = p / 2 ^ b.order * 2 ^ b.order := by
  obtain ⟨quotient, split⟩ := aligned
  have pos := Nat.two_pow_pos b.order
  have : p / 2 ^ b.order = quotient := by
    rw [Nat.div_eq_iff pos]
    have := covers.1
    have := covers.2
    rw [split] at *
    rw [Nat.mul_comm quotient]
    omega
  rw [this, split, Nat.mul_comm]

/-- **Of two aligned blocks that meet, the one of smaller order lies in the other.** -/
theorem nested {b c : Block} (bAligned : b.Aligned) (cAligned : c.Aligned) (le : b.order ≤ c.order)
    {p : Nat} (bCovers : b.Covers p) (cCovers : c.Covers p) :
    c.index ≤ b.index ∧ b.index + 2 ^ b.order ≤ c.index + 2 ^ c.order := by
  obtain ⟨gap, gapEq⟩ := Nat.exists_eq_add_of_le le
  obtain ⟨x, xEq⟩ := bAligned
  obtain ⟨y, yEq⟩ := cAligned
  have pos := Nat.two_pow_pos b.order
  have size : 2 ^ c.order = 2 ^ b.order * 2 ^ gap := by rw [gapEq, pow_add]
  have low : 2 ^ gap * y < x + 1 := by
    have : 2 ^ b.order * (2 ^ gap * y) < 2 ^ b.order * (x + 1) := by
      have := cCovers.1
      have := bCovers.2
      rw [Nat.mul_add, ← Nat.mul_assoc, ← size, ← yEq, ← xEq, Nat.mul_one]
      omega
    exact Nat.lt_of_mul_lt_mul_left this
  have high : x < 2 ^ gap * (y + 1) := by
    have : 2 ^ b.order * x < 2 ^ b.order * (2 ^ gap * (y + 1)) := by
      have := bCovers.1
      have := cCovers.2
      rw [← Nat.mul_assoc, ← size, Nat.mul_add, ← yEq, ← xEq, Nat.mul_one]
      omega
    exact Nat.lt_of_mul_lt_mul_left this
  constructor
  · rw [yEq, xEq, size, Nat.mul_assoc]
    exact Nat.mul_le_mul_left _ (by omega)
  · calc b.index + 2 ^ b.order = 2 ^ b.order * (x + 1) := by rw [xEq, Nat.mul_add, Nat.mul_one]
      _ ≤ 2 ^ b.order * (2 ^ gap * (y + 1)) := Nat.mul_le_mul_left _ high
      _ = c.index + 2 ^ c.order := by
        rw [yEq, ← Nat.mul_assoc, ← size, Nat.mul_add, Nat.mul_one]

/-- An aligned block is one half of its parent. -/
theorem parent_halves {b : Block} (aligned : b.Aligned) :
    (b.index = b.parent.index ∧ b.sibling.index = b.parent.index + 2 ^ b.order) ∨
      (b.index = b.parent.index + 2 ^ b.order ∧ b.sibling.index = b.parent.index) := by
  obtain ⟨x, xEq⟩ := aligned
  have pos := Nat.two_pow_pos b.order
  have quotient : b.index / 2 ^ b.order = x := by rw [xEq, Nat.mul_div_cancel_left _ pos]
  have half : b.index / 2 ^ (b.order + 1) = x / 2 := by
    rw [pow_succ, ← Nat.div_div_eq_div_mul, quotient]
  have parentEq : b.parent.index = 2 ^ b.order * (2 * (x / 2)) := by
    rw [parent, half, pow_succ]
    ring
  rcases Nat.mod_two_eq_zero_or_one x with even | odd
  · left
    have whole : 2 * (x / 2) = x := by omega
    refine ⟨by rw [parentEq, whole, xEq], ?_⟩
    rw [sibling, quotient, if_pos even, parentEq, whole, ← xEq]
  · right
    have whole : 2 * (x / 2) + 1 = x := by omega
    have indexEq : b.index = 2 ^ b.order * (2 * (x / 2)) + 2 ^ b.order := by
      calc b.index = 2 ^ b.order * (2 * (x / 2) + 1) := by rw [whole, xEq]
        _ = _ := by ring
    refine ⟨by rw [parentEq, indexEq], ?_⟩
    rw [sibling, quotient, if_neg (by omega), parentEq, indexEq, Nat.add_sub_cancel]

theorem parent_aligned (b : Block) : b.parent.Aligned := Dvd.intro_left _ rfl

theorem sibling_aligned {b : Block} (aligned : b.Aligned) : b.sibling.Aligned := by
  have step : 2 ^ b.order ∣ b.parent.index :=
    (Nat.pow_dvd_pow 2 (Nat.le_succ _)).trans b.parent_aligned
  rcases parent_halves aligned with ⟨_, same⟩ | ⟨_, same⟩
  · show 2 ^ b.order ∣ b.sibling.index
    rw [same]
    exact step.add (dvd_refl _)
  · show 2 ^ b.order ∣ b.sibling.index
    rw [same]
    exact step

end Block

namespace Tiling

/-- No two siblings below the top order both occur. -/
def Coalesced (top : Nat) (blocks : Set Block) : Prop :=
  ∀ b ∈ blocks, b.order < top → b.sibling ∉ blocks

variable {n top : Nat} {blocks blocks' : Set Block}

/-- In a coalesced tiling by aligned blocks, the parent of a block below the top order does not fit
into the interval. -/
theorem parent_outside (tiling : Tiling n blocks) (aligned : ∀ b ∈ blocks, b.Aligned)
    (coalesced : Coalesced top blocks) :
    ∀ k b, b ∈ blocks → b.order = k → k < top → ¬ b.parent.index + 2 ^ b.parent.order ≤ n := by
  intro k
  -- strong induction on the order: the sibling's first index lies in a block of smaller order,
  -- whose parent lies in the sibling
  induction k using Nat.strong_induction_on with
  | _ k ih =>
    intro b member order below fits
    have bAligned := aligned b member
    have size : 2 ^ b.parent.order = 2 ^ b.order + 2 ^ b.order := by
      show 2 ^ (b.order + 1) = _
      rw [pow_succ]
      omega
    have pos := Nat.two_pow_pos b.order
    have siblingInside : b.sibling.index + 2 ^ b.order ≤ n := by
      rcases Block.parent_halves bAligned with ⟨_, same⟩ | ⟨_, same⟩ <;> omega
    obtain ⟨d, dMember, dCovers⟩ := tiling.cover b.sibling.index (by omega)
    have siblingCovers : b.sibling.Covers b.sibling.index := b.sibling.covers_index
    have dAligned := aligned d dMember
    have siblingAligned := Block.sibling_aligned bAligned
    rcases lt_trichotomy d.order b.order with less | equal | more
    · refine ih d.order (by omega) d dMember rfl (by omega) ?_
      have dParent : d.parent.Covers d.index := by
        have := Block.parent_halves dAligned
        have pow : 2 ^ d.parent.order = 2 ^ d.order + 2 ^ d.order := by
          show 2 ^ (d.order + 1) = _
          rw [pow_succ]
          omega
        have := Nat.two_pow_pos d.order
        constructor <;> omega
      have dInSibling := Block.nested dAligned siblingAligned (le_of_lt less) dCovers siblingCovers
      have within :=
        Block.nested d.parent_aligned siblingAligned (show d.order + 1 ≤ b.order from less)
        dParent ⟨dInSibling.1, lt_of_lt_of_le d.covers_index.2 dInSibling.2⟩
      exact within.2.trans siblingInside
    · have whole := Block.nested dAligned siblingAligned (le_of_eq equal) dCovers siblingCovers
      have same : d = b.sibling := by
        have indexEq : d.index = b.sibling.index := le_antisymm dCovers.1 whole.1
        cases d
        exact Block.mk.injEq .. ▸ ⟨indexEq, equal⟩
      exact coalesced b member (by omega) (same ▸ dMember)
    · have parentCovers : b.parent.Covers b.sibling.index := by
        have := Block.parent_halves bAligned
        constructor <;> omega
      have within := Block.nested b.parent_aligned dAligned (show b.order + 1 ≤ d.order from more)
        parentCovers dCovers
      have dCoversB : d.Covers b.index := by
        have := Block.parent_halves bAligned
        have := within.1
        have := within.2
        constructor <;> omega
      have same := tiling.once b member d dMember b.index b.covers_index dCoversB
      rw [same] at more
      exact lt_irrefl _ more

/-- A block that no larger aligned block of order at most `top` could replace where it starts. -/
def Greedy (top n : Nat) (b : Block) : Prop :=
  ∀ k, b.order < k → k ≤ top → 2 ^ k ∣ b.index → n < b.index + 2 ^ k

/-- **A tiling by greedily chosen blocks is coalesced.** -/
theorem coalesced_of_greedy (tiling : Tiling n blocks) (aligned : ∀ b ∈ blocks, b.Aligned)
    (greedy : ∀ b ∈ blocks, Greedy top n b) : Coalesced top blocks := by
  intro b member below inBlocks
  have parentAligned : 2 ^ (b.order + 1) ∣ b.parent.index := b.parent_aligned
  have size : 2 ^ (b.order + 1) = 2 ^ b.order + 2 ^ b.order := by
    rw [pow_succ]
    omega
  -- the lower of the two starts where their parent does, and their parent fits
  have fits : ∀ l ∈ blocks, l.order = b.order → l.index = b.parent.index →
      ¬ b.parent.index + 2 ^ (b.order + 1) ≤ n := by
    intro l lMember orderEq indexEq
    have tooLarge := greedy l lMember (b.order + 1) (by omega) below (by rwa [indexEq])
    omega
  rcases Block.parent_halves (aligned b member) with ⟨low, high⟩ | ⟨high, low⟩
  · have inside : b.sibling.index + 2 ^ b.order ≤ n := tiling.inside _ inBlocks
    exact fits b member rfl low (by omega)
  · have inside := tiling.inside b member
    exact fits b.sibling inBlocks rfl low (by omega)

/-- **Coalesced tilings by aligned blocks are unique.** -/
theorem coalesced_unique (tiling : Tiling n blocks) (tiling' : Tiling n blocks')
    (aligned : ∀ b ∈ blocks, b.Aligned) (aligned' : ∀ b ∈ blocks', b.Aligned)
    (bound : ∀ b ∈ blocks, b.order ≤ top) (bound' : ∀ b ∈ blocks', b.order ≤ top)
    (coalesced : Coalesced top blocks) (coalesced' : Coalesced top blocks') :
    blocks = blocks' := by
  have subset : ∀ {S T : Set Block}, Tiling n S → Tiling n T → (∀ b ∈ S, b.Aligned) →
      (∀ b ∈ T, b.Aligned) → (∀ b ∈ S, b.order ≤ top) → (∀ b ∈ T, b.order ≤ top) →
      Coalesced top S → Coalesced top T → S ⊆ T := by
    intro S T tilingS tilingT alignedS alignedT boundS boundT coalescedS coalescedT b member
    obtain ⟨c, cMember, cCovers⟩ := tilingT.cover b.index (tilingS.index_lt member)
    -- a parent inside the larger of two nested blocks would fit into the interval
    have small : ∀ {x y : Block}, x.Aligned → y.Aligned → x.order < y.order →
        x.Covers b.index → y.Covers b.index → y.index + 2 ^ y.order ≤ n →
        x.parent.index + 2 ^ x.parent.order ≤ n := by
      intro x y xAligned yAligned less xCovers yCovers inside
      have covers : x.parent.Covers b.index := by
        have := Block.parent_halves xAligned
        have pow : 2 ^ x.parent.order = 2 ^ x.order + 2 ^ x.order := by
          show 2 ^ (x.order + 1) = _
          rw [pow_succ]
          omega
        have := xCovers.1
        have := xCovers.2
        constructor <;> omega
      exact (Block.nested x.parent_aligned yAligned less covers yCovers).2.trans inside
    rcases lt_trichotomy b.order c.order with less | equal | more
    · exact absurd (small (alignedS b member) (alignedT c cMember) less b.covers_index cCovers
        (tilingT.inside c cMember))
        (tilingS.parent_outside alignedS coalescedS b.order b member rfl
          (lt_of_lt_of_le less (boundT c cMember)))
    · have one := Block.nested (alignedS b member) (alignedT c cMember) (le_of_eq equal)
        b.covers_index cCovers
      have two := Block.nested (alignedT c cMember) (alignedS b member) (le_of_eq equal.symm)
        cCovers b.covers_index
      have same : b = c := by
        cases b
        cases c
        exact Block.mk.injEq .. ▸ ⟨le_antisymm two.1 one.1, equal⟩
      rw [same]
      exact cMember
    · exact absurd (small (alignedT c cMember) (alignedS b member) more cCovers b.covers_index
        (tilingS.inside b member))
        (tilingT.parent_outside alignedT coalescedT c.order c cMember rfl
          (lt_of_lt_of_le more (boundS b member)))
  exact Set.Subset.antisymm
    (subset tiling tiling' aligned aligned' bound bound' coalesced coalesced')
    (subset tiling' tiling aligned' aligned bound' bound coalesced' coalesced)

end Tiling

/-! ### Flipping one bit -/

/-- Flipping bit `k` adds or subtracts `2 ^ k`. -/
theorem xor_two_pow (x k : Nat) :
    x ^^^ 2 ^ k = if x / 2 ^ k % 2 = 0 then x + 2 ^ k else x - 2 ^ k := by
  induction k generalizing x with
  | zero =>
    have quotient : (x ^^^ 1) / 2 = x / 2 := by
      rw [Nat.xor_div_two]; simp
    have parity : (x ^^^ 1) % 2 = (x + 1) % 2 := by
      rw [Nat.xor_mod_two_eq]
    rw [pow_zero, Nat.div_one]
    split_ifs with even <;> omega
  | succ k ih =>
    have quotient : (x ^^^ 2 ^ (k + 1)) / 2 = x / 2 ^^^ 2 ^ k := by
      rw [Nat.xor_div_two, pow_succ, Nat.mul_div_cancel _ (by decide)]
    have parity : (x ^^^ 2 ^ (k + 1)) % 2 = x % 2 := by
      rw [Nat.xor_mod_two_eq, pow_succ]
      omega
    have bit : x / 2 / 2 ^ k = x / 2 ^ (k + 1) := by
      rw [Nat.div_div_eq_div_mul, pow_succ, Nat.mul_comm]
    have large : x / 2 ^ (k + 1) % 2 ≠ 0 → 2 ^ (k + 1) ≤ x := by
      intro odd
      by_contra small
      rw [Nat.div_eq_of_lt (by omega)] at odd
      exact odd rfl
    have shift : 2 ^ (k + 1) = 2 * 2 ^ k := by rw [pow_succ, Nat.mul_comm]
    rw [ih, bit] at quotient
    split_ifs at quotient ⊢ with even <;> omega

end Tilings
