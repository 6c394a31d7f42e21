/-
**Buddy systems in the abstract.**

A pool is a tiling of `[0, n)` whose blocks are free or taken. Between two states of a pool one
block may be in hand, neither free nor taken (`InHand`). The moves of a buddy system are:

* taking a free or a taken block in hand, and putting the block in hand back as free or taken;
* splitting the block in hand and freeing its upper half (`InHand.split`);
* merging the block in hand with a free neighbour of its order (`InHand.merge`).

`Cascade` is the merging a release performs: as long as the block in hand has a free partner of its
order, the two are merged. `InHand.cascade` carries a pool through it, whatever the partner function
is, provided partners are neighbours.

When the partner of an aligned block is its sibling, a release keeps the free blocks coalesced
(`Cascade.coalesced`); so a pool in which nothing is taken has exactly the blocks of any other such
pool (`Pool.free_unique`).
-/

import Xv6Slab.Lib.Tiling

namespace Tilings

/-- A tiling whose blocks are free or taken, of order at most `top`. -/
structure Pool (top n : Nat) (free taken : Set Block) : Prop where
  tiling : Tiling n (free ∪ taken)
  disjoint : ∀ b ∈ free, b ∉ taken
  order_le : ∀ b ∈ free ∪ taken, b.order ≤ top

/-- A pool with one block in hand. -/
structure InHand (top n : Nat) (free taken : Set Block) (hand : Block) : Prop where
  tiling : Tiling n (insert hand (free ∪ taken))
  disjoint : ∀ b ∈ free, b ∉ taken
  notFree : hand ∉ free
  notTaken : hand ∉ taken
  order_le : ∀ b ∈ insert hand (free ∪ taken), b.order ≤ top

namespace Pool

variable {top n : Nat} {free taken : Set Block} {b : Block}

/-- A free block is taken in hand. -/
theorem take (pool : Pool top n free taken) (member : b ∈ free) :
    InHand top n (free \ {b}) taken b := by
  have same : insert b (free \ {b} ∪ taken) = free ∪ taken := by
    ext c
    by_cases eq : c = b <;> simp [eq, member]
  exact
    { tiling := by rw [same]; exact pool.tiling
      disjoint := fun c inFree => pool.disjoint c inFree.1
      notFree := fun inFree => inFree.2 rfl
      notTaken := pool.disjoint b member
      order_le := by rw [same]; exact pool.order_le }

/-- A taken block is taken in hand. -/
theorem release (pool : Pool top n free taken) (member : b ∈ taken) :
    InHand top n free (taken \ {b}) b := by
  have same : insert b (free ∪ taken \ {b}) = free ∪ taken := by
    ext c
    by_cases eq : c = b <;> simp [eq, member]
  exact
    { tiling := by rw [same]; exact pool.tiling
      disjoint := fun c inFree inTaken => pool.disjoint c inFree inTaken.1
      notFree := fun inFree => pool.disjoint b inFree member
      notTaken := fun inTaken => inTaken.2 rfl
      order_le := by rw [same]; exact pool.order_le }

theorem index_lt_of_free (pool : Pool top n free taken) (member : b ∈ free) : b.index < n :=
  pool.tiling.index_lt (Or.inl member)

theorem index_lt_of_taken (pool : Pool top n free taken) (member : b ∈ taken) : b.index < n :=
  pool.tiling.index_lt (Or.inr member)

end Pool

namespace InHand

variable {top n : Nat} {free taken : Set Block} {hand : Block}

theorem index_lt (held : InHand top n free taken hand) : hand.index < n :=
  held.tiling.index_lt (Set.mem_insert _ _)

/-- No free block starts inside the block in hand. -/
theorem not_free_inside (held : InHand top n free taken hand) {b : Block} (member : b ∈ free) :
    ¬ hand.Covers b.index := fun covers =>
  held.notFree (held.tiling.once b (by simp [member]) hand (by simp) b.index b.covers_index covers
    ▸ member)

/-- No taken block starts inside the block in hand. -/
theorem not_taken_inside (held : InHand top n free taken hand) {b : Block} (member : b ∈ taken) :
    ¬ hand.Covers b.index := fun covers =>
  held.notTaken (held.tiling.once b (by simp [member]) hand (by simp) b.index b.covers_index covers
    ▸ member)

/-- The block in hand becomes free. -/
theorem putFree (held : InHand top n free taken hand) :
    Pool top n (insert hand free) taken where
  tiling := by rw [Set.insert_union]; exact held.tiling
  disjoint := by
    rintro b (rfl | inFree)
    · exact held.notTaken
    · exact held.disjoint b inFree
  order_le := by rw [Set.insert_union]; exact held.order_le

/-- The block in hand becomes taken. -/
theorem putTaken (held : InHand top n free taken hand) :
    Pool top n free (insert hand taken) where
  tiling := by rw [Set.union_insert]; exact held.tiling
  disjoint := by
    rintro b inFree (rfl | inTaken)
    · exact held.notFree inFree
    · exact held.disjoint b inFree inTaken
  order_le := by rw [Set.union_insert]; exact held.order_le

/-- **Splitting**: the upper half of the block in hand becomes free. -/
theorem split {i k : Nat} (held : InHand top n free taken ⟨i, k + 1⟩) :
    InHand top n (insert ⟨i + 2 ^ k, k⟩ free) taken ⟨i, k⟩ := by
  have pos := Nat.two_pow_pos k
  have upper : (⟨i, k + 1⟩ : Block).Covers (i + 2 ^ k) := by
    simp only [Block.Covers, pow_succ]
    omega
  have same : insert (⟨i, k⟩ : Block) (insert ⟨i + 2 ^ k, k⟩ free ∪ taken) =
      insert ⟨i, k + 1⟩ (free ∪ taken) \ {⟨i, k + 1⟩} ∪ {⟨i, k⟩, ⟨i + 2 ^ k, k⟩} := by
    ext b
    by_cases eq : b = ⟨i, k + 1⟩
    · subst eq
      simp [held.notFree, held.notTaken]
    · simp only [Set.mem_insert_iff, Set.mem_union, Set.mem_sdiff, Set.mem_singleton_iff, eq,
        false_or, not_false_eq_true, and_true]
      tauto
  refine
    { tiling := by rw [same]; exact held.tiling.split (Set.mem_insert _ _)
      disjoint := ?_
      notFree := ?_
      notTaken := fun inTaken => held.not_taken_inside inTaken (Block.covers_index _)
      order_le := ?_ }
  · rintro b (rfl | inFree) inTaken
    · exact held.not_taken_inside inTaken upper
    · exact held.disjoint b inFree inTaken
  · rintro (eq | inFree)
    · have := congrArg Block.index eq
      simp only at this
      omega
    · exact held.not_free_inside inFree (Block.covers_index _)
  · intro b member
    have whole : k + 1 ≤ top := held.order_le ⟨i, k + 1⟩ (Set.mem_insert _ _)
    rw [same] at member
    rcases member with ⟨kept, _⟩ | (rfl | rfl)
    · exact held.order_le b kept
    · exact (Nat.le_succ k).trans whole
    · exact (Nat.le_succ k).trans whole

/-- **Merging** with a free neighbour of the same order. -/
theorem merge {i j k : Nat} (held : InHand top n free taken ⟨i, k⟩) (below : k < top)
    (member : ⟨j, k⟩ ∈ free) (neighbour : j = i + 2 ^ k ∨ i = j + 2 ^ k) :
    InHand top n (free \ {⟨j, k⟩}) taken ⟨min i j, k + 1⟩ := by
  have pos := Nat.two_pow_pos k
  have ne : (⟨j, k⟩ : Block) ≠ ⟨i, k⟩ := fun eq => held.notFree (eq ▸ member)
  have jTaken : (⟨j, k⟩ : Block) ∉ taken := held.disjoint _ member
  have joined :
      Tiling n (insert ⟨i, k⟩ (free ∪ taken) \ {⟨i, k⟩, ⟨j, k⟩} ∪ {⟨min i j, k + 1⟩}) := by
    rcases neighbour with rfl | rfl
    · rw [min_eq_left (by omega)]
      exact held.tiling.merge (Set.mem_insert _ _) (by simp [member])
    · rw [min_eq_right (by omega), Set.pair_comm]
      exact held.tiling.merge (by simp [member]) (Set.mem_insert _ _)
  -- the merged block starts where one of the two parts did, with another order
  have fresh : ∀ b ∈ free ∪ taken, b ≠ ⟨min i j, k + 1⟩ := by
    rintro b inPool rfl
    have inPool' : (⟨min i j, k + 1⟩ : Block) ∈ insert ⟨i, k⟩ (free ∪ taken) :=
      Set.mem_insert_of_mem _ inPool
    rcases min_choice i j with eq | eq
    · have := held.tiling.eq_of_index inPool' (Set.mem_insert _ _) (by simpa using eq)
      simp at this
    · have := held.tiling.eq_of_index inPool'
        (Set.mem_insert_of_mem _ (Or.inl member)) (by simpa using eq)
      simp at this
  have same : insert (⟨min i j, k + 1⟩ : Block) (free \ {⟨j, k⟩} ∪ taken) =
      insert ⟨i, k⟩ (free ∪ taken) \ {⟨i, k⟩, ⟨j, k⟩} ∪ {⟨min i j, k + 1⟩} := by
    ext b
    by_cases eq₁ : b = ⟨i, k⟩
    · subst eq₁
      simp [held.notFree, held.notTaken]
    · by_cases eq₂ : b = ⟨j, k⟩
      · subst eq₂
        simp [ne, jTaken]
      · simp [eq₁, eq₂, or_comm]
  refine
    { tiling := by rw [same]; exact joined
      disjoint := fun b inFree => held.disjoint b inFree.1
      notFree := fun inFree => fresh _ (Or.inl inFree.1) rfl
      notTaken := fun inTaken => fresh _ (Or.inr inTaken) rfl
      order_le := ?_ }
  rintro b (rfl | inFree | inTaken)
  · exact below
  · exact held.order_le b (by simp [inFree.1])
  · exact held.order_le b (by simp [inTaken])

end InHand

/-! ### The cascade of a release -/

/-- Merging the block in hand with its free partner for as long as there is one. -/
inductive Cascade (partner : Block → Option Block) (top : Nat) :
    Set Block → Block → Set Block → Block → Prop
  | stop {free : Set Block} {hand : Block} :
      (hand.order < top → ∀ c, partner hand = some c → c ∉ free) →
      Cascade partner top free hand free hand
  | merge {free free' : Set Block} {hand c hand' : Block} :
      hand.order < top → partner hand = some c → c ∈ free →
      Cascade partner top (free \ {c}) ⟨min hand.index c.index, hand.order + 1⟩ free' hand' →
      Cascade partner top free hand free' hand'

/-- Partners of blocks that start in `[0, n)` have the same order and lie side by side. -/
def Neighbours (partner : Block → Option Block) (top n : Nat) : Prop :=
  ∀ b c, b.index < n → b.order < top → partner b = some c →
    c.order = b.order ∧ (c.index = b.index + 2 ^ b.order ∨ b.index = c.index + 2 ^ b.order)

/-- **A cascade keeps a pool with a block in hand.** -/
theorem InHand.cascade {partner : Block → Option Block} {top n : Nat}
    {free taken free' : Set Block} {hand hand' : Block} (neighbours : Neighbours partner top n)
    (run : Cascade partner top free hand free' hand') (held : InHand top n free taken hand) :
    InHand top n free' taken hand' := by
  induction run with
  | stop _ => exact held
  | @merge free free' hand c hand' below isPartner member _ ih =>
    obtain ⟨order, side⟩ := neighbours hand c held.index_lt below isPartner
    obtain ⟨j, l⟩ := c
    subst order
    exact ih (held.merge below member side)

/-! ### Siblings as partners -/

variable {top n : Nat}

theorem Block.parent_merge {b : Block} (aligned : b.Aligned) :
    (⟨min b.index b.sibling.index, b.order + 1⟩ : Block) = b.parent := by
  have pos := Nat.two_pow_pos b.order
  have indexEq : min b.index b.sibling.index = b.parent.index := by
    rcases Block.parent_halves aligned with ⟨_, _⟩ | ⟨_, _⟩ <;> omega
  rw [indexEq]
  rfl

theorem Block.sibling_sibling {b : Block} (aligned : b.Aligned) : b.sibling.sibling = b := by
  have size : 2 ^ (b.order + 1) = 2 ^ b.order + 2 ^ b.order := by
    rw [pow_succ]
    omega
  have pos := Nat.two_pow_pos b.order
  have parentEq : b.sibling.parent.index = b.parent.index := by
    have covers : b.parent.Covers b.sibling.index := by
      show b.parent.index ≤ _ ∧ _ < b.parent.index + 2 ^ (b.order + 1)
      rcases Block.parent_halves aligned with ⟨_, _⟩ | ⟨_, _⟩ <;> omega
    exact (b.parent_aligned.index_eq covers).symm
  have indexEq : b.sibling.sibling.index = b.index := by
    have one := Block.parent_halves aligned
    have two := Block.parent_halves (Block.sibling_aligned aligned)
    rw [parentEq] at two
    change (_ ∧ b.sibling.sibling.index = _ + 2 ^ b.order) ∨ (_ = _ + 2 ^ b.order ∧ _) at two
    omega
  have orderEq : b.sibling.sibling.order = b.order := rfl
  exact Block.mk.injEq .. ▸ ⟨indexEq, orderEq⟩

/-- **A cascade along siblings ends with the free blocks coalesced.** -/
theorem Cascade.coalesced {partner : Block → Option Block} {free taken free' : Set Block}
    {hand hand' : Block} (run : Cascade partner top free hand free' hand')
    (held : InHand top n free taken hand)
    (aligned : ∀ b ∈ insert hand (free ∪ taken), b.Aligned)
    (siblings : ∀ b c : Block, b.Aligned → b.index + 2 ^ b.order ≤ n → b.order < top →
      c.index + 2 ^ c.order ≤ n → c.Aligned → (partner b = some c ↔ c = b.sibling))
    (coalesced : Tiling.Coalesced top free) :
    Tiling.Coalesced top (insert hand' free') ∧
      ∀ b ∈ insert hand' (free' ∪ taken), b.Aligned := by
  induction run with
  | @stop free hand done =>
    refine ⟨?_, aligned⟩
    have handAligned := aligned hand (Set.mem_insert _ _)
    have handInside := held.tiling.inside hand (Set.mem_insert _ _)
    -- the block put back has no free sibling, since the cascade stopped there
    have noSibling : hand.order < top → hand.sibling ∉ free := by
      intro below inFree
      have inside := held.tiling.inside hand.sibling (by simp [inFree])
      exact done below hand.sibling
        ((siblings hand hand.sibling handAligned handInside below inside
          (Block.sibling_aligned handAligned)).mpr rfl) inFree
    rintro b (rfl | inFree) below (eq | inFree')
    · have := congrArg Block.index eq
      have pos := Nat.two_pow_pos b.order
      rcases Block.parent_halves handAligned with ⟨_, _⟩ | ⟨_, _⟩ <;> omega
    · exact noSibling below inFree'
    · have bAligned := aligned b (by simp [inFree])
      have back : hand.sibling = b := by rw [← eq, Block.sibling_sibling bAligned]
      have orderEq : hand.order = b.order := by rw [← eq]; rfl
      exact noSibling (by omega) (back ▸ inFree)
    · exact coalesced b inFree below inFree'
  | @merge free free' hand c hand' below isPartner member _ ih =>
    have handAligned := aligned hand (Set.mem_insert _ _)
    have inside := held.tiling.inside
    have cEq : c = hand.sibling :=
      (siblings hand c handAligned (inside hand (Set.mem_insert _ _)) below
        (inside c (by simp [member])) (aligned c (by simp [member]))).mp isPartner
    subst cEq
    have side : hand.sibling.index = hand.index + 2 ^ hand.order ∨
        hand.index = hand.sibling.index + 2 ^ hand.order := by
      rcases Block.parent_halves handAligned with ⟨_, _⟩ | ⟨_, _⟩ <;> omega
    refine ih (held.merge below member side) ?_ ?_
    · rintro b (rfl | inFree | inTaken)
      · rw [Block.parent_merge handAligned]
        exact hand.parent_aligned
      · exact aligned b (by simp [inFree.1])
      · exact aligned b (by simp [inTaken])
    · intro b inFree below' inFree'
      exact coalesced b inFree.1 below' inFree'.1

/-- **Two pools with everything free and coalesced have the same blocks.** -/
theorem Pool.free_unique {free free' : Set Block} (pool : Pool top n free ∅)
    (pool' : Pool top n free' ∅) (aligned : ∀ b ∈ free, b.Aligned)
    (aligned' : ∀ b ∈ free', b.Aligned) (coalesced : Tiling.Coalesced top free)
    (coalesced' : Tiling.Coalesced top free') : free = free' := by
  have tiling := pool.tiling
  have tiling' := pool'.tiling
  rw [Set.union_empty] at tiling tiling'
  exact tiling.coalesced_unique tiling' aligned aligned'
    (fun b member => pool.order_le b (Or.inl member))
    (fun b member => pool'.order_le b (Or.inl member)) coalesced coalesced'

end Tilings
