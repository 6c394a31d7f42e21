/-
**When freeing everything restores the initial free blocks.**

`buddy_init` and the split loop place blocks relative to `managed_start`, while the merge loop takes
the buddy of an absolute address. The two agree at every order of the region exactly when the base
is aligned to its largest block (`BaseAligned`).

* `partner_sibling` — on an aligned base, the partner of a block is its sibling.
* `Run.neat` — then every run keeps its blocks aligned and its free blocks coalesced, and nothing
  else is needed to get the initial free blocks back.
* `low_cascade` — on any other base, a block that starts the region and was once split below the
  alignment of the base is never merged again; allocating until the region is used up and freeing
  everything leads there (`fragmented`).
* `restored_iff_baseAligned` — **the exact condition.**
-/

import Xv6Slab.Buddy.Invariant

namespace Xv6Slab

open Bytes Chains Tilings

namespace Buddy

/-! ### The alignment of the base -/

/-- The page number of the start of the region. -/
def basePage (b : Buddy) : Nat := b.managedStart / 4096

/-- The order of the largest block that the region has room for. -/
def topOrder (b : Buddy) : Nat := min maxOrder b.num.log2

/-- The region starts at a multiple of its largest block. -/
def BaseAligned (b : Buddy) : Prop := 2 ^ b.topOrder ∣ b.basePage

theorem page_div {b : Buddy} (region : b.Region) (i k : Nat) :
    b.page i / 2 ^ (12 + k) = (b.basePage + i) / 2 ^ k := by
  have split : b.page i = 2 ^ 12 * (b.basePage + i) := by
    have := region.aligned
    rw [page, basePage]
    omega
  rw [split, pow_add, Nat.mul_div_mul_left _ _ (by decide)]

/-- The bit that the merge loop flips, at an order up to which the base is aligned. -/
theorem page_bit {b : Buddy} (region : b.Region) {i k q : Nat} (base : b.basePage = 2 ^ k * q) :
    b.page i / 2 ^ (12 + k) % 2 = (q + i / 2 ^ k) % 2 := by
  rw [page_div region, base, Nat.mul_add_div (Nat.two_pow_pos k)]

/-- **On an aligned base, the partner of an aligned block is its sibling.** -/
theorem partner_sibling {b : Buddy} (region : b.Region) (base : b.BaseAligned) (c d : Block)
    (cAligned : c.Aligned) (cInside : c.index + 2 ^ c.order ≤ b.num) (below : c.order < maxOrder)
    (dInside : d.index + 2 ^ d.order ≤ b.num) (dAligned : d.Aligned) :
    b.partner c = some d ↔ d = c.sibling := by
  obtain ⟨i, k⟩ := c
  obtain ⟨j, l⟩ := d
  simp only at cInside below dInside
  have kPos := Nat.two_pow_pos k
  have lPos := Nat.two_pow_pos l
  rcases Nat.lt_or_ge k b.topOrder with small | top
  · -- the base is a multiple of twice the size of the block
    obtain ⟨q, baseEq⟩ := (pow_dvd_pow 2 small).trans base
    have bit : b.page i / 2 ^ (12 + k) % 2 = i / 2 ^ k % 2 := by
      rw [page_bit region (q := 2 * q) (by rw [baseEq, pow_succ, Nat.mul_assoc])]
      omega
    have siblingEq : (⟨i, k⟩ : Block).sibling =
        ⟨if i / 2 ^ k % 2 = 0 then i + 2 ^ k else i - 2 ^ k, k⟩ := rfl
    have upper : i / 2 ^ k % 2 ≠ 0 → 2 ^ k ≤ i := by
      intro odd
      by_contra short
      rw [Nat.div_eq_of_lt (by omega)] at odd
      exact odd rfl
    rw [siblingEq, Block.mk.injEq]
    constructor
    · intro found
      obtain ⟨rfl, _, address, _⟩ := partner_eq_some region (by omega) below found
      refine ⟨?_, rfl⟩
      rw [xor_page, bit] at address
      simp only [page] at address
      split_ifs at address ⊢ with even
      · omega
      · have := upper even
        omega
    · rintro ⟨index, rfl⟩
      refine partner_of_xor region (by omega) ?_
      rw [xor_page, bit]
      simp only [page]
      split_ifs at index ⊢ with even
      · omega
      · have := upper even
        omega
  · -- a block of the top order is the only one that fits
    have fits : b.num < 2 ^ (k + 1) := by
      by_contra room
      have tooSmall : k + 1 ≤ b.num.log2 := (Nat.le_log2 (by omega)).mpr (by omega)
      simp only [topOrder] at top
      omega
    rw [pow_succ] at fits
    have first : i = 0 := by
      obtain ⟨q, index⟩ := (show 2 ^ k ∣ i from cAligned)
      by_contra nonzero
      have : 2 ^ k * 1 ≤ 2 ^ k * q := by
        refine Nat.mul_le_mul_left _ (Nat.one_le_iff_ne_zero.mpr fun zero => nonzero ?_)
        rw [index, zero, Nat.mul_zero]
      omega
    subst first
    have even : 0 / 2 ^ k % 2 = 0 := by simp
    constructor
    · intro found
      obtain ⟨order, side⟩ :=
        partner_neighbours region ⟨0, k⟩ ⟨j, l⟩ (by simp only; omega) below found
      simp only at order side
      subst order
      omega
    · intro same
      rw [Block.sibling, Block.mk.injEq] at same
      obtain ⟨index, rfl⟩ := same
      simp only [even, if_true] at index
      omega

/-! ### Runs on an aligned base -/

/-- All blocks are aligned, and no two siblings are free. -/
structure Neat (free alloc : Set Block) : Prop where
  aligned : ∀ c ∈ free ∪ alloc, c.Aligned
  coalesced : Tiling.Coalesced maxOrder free

/-- Taking a block and freeing the halves that are not needed. -/
theorem Neat.alloc {free alloc : Set Block} {n i k target : Nat} (neat : Neat free alloc)
    (member : ⟨i, k⟩ ∈ free) (le : target ≤ k)
    (pool : Pool maxOrder n (free \ {⟨i, k⟩} ∪ halves i target k) (insert ⟨i, target⟩ alloc)) :
    Neat (free \ {⟨i, k⟩} ∪ halves i target k) (insert ⟨i, target⟩ alloc) := by
  have divides : 2 ^ k ∣ i := neat.aligned _ (Or.inl member)
  -- no free block starts where the allocated one does
  have fresh : ∀ l, ⟨i, l⟩ ∉ free \ {⟨i, k⟩} ∪ halves i target k := by
    intro l inFree
    have same := pool.tiling.eq_of_index (Or.inl inFree) (Or.inr (Set.mem_insert _ _)) rfl
    exact pool.disjoint _ inFree (same ▸ Set.mem_insert _ _)
  have halfAligned : ∀ c ∈ halves i target k, c.Aligned := by
    rintro c ⟨_, below, index⟩
    rw [Block.Aligned, index]
    exact ((pow_dvd_pow 2 below.le).trans divides).add (dvd_refl _)
  -- the sibling of a half starts where the allocated block does
  have halfSibling : ∀ c ∈ halves i target k, c.sibling = ⟨i, c.order⟩ := by
    rintro ⟨x, l⟩ ⟨_, below, index⟩
    simp only at below index
    subst index
    obtain ⟨q, rfl⟩ := (pow_dvd_pow 2 below).trans divides
    have odd : (2 ^ (l + 1) * q + 2 ^ l) / 2 ^ l % 2 = 1 := by
      rw [pow_succ, Nat.mul_assoc, Nat.mul_add_div (Nat.two_pow_pos l),
        Nat.div_self (Nat.two_pow_pos l)]
      omega
    simp only [Block.sibling, odd, Block.mk.injEq, and_true, one_ne_zero, if_false]
    exact Nat.add_sub_cancel _ _
  refine ⟨?_, ?_⟩
  · rintro c ((old | half) | (rfl | taken))
    · exact neat.aligned c (Or.inl old.1)
    · exact halfAligned c half
    · exact (pow_dvd_pow 2 le).trans divides
    · exact neat.aligned c (Or.inr taken)
  · rintro c cFree below dFree
    rcases cFree with cOld | cHalf
    · rcases dFree with dOld | dHalf
      · exact neat.coalesced c cOld.1 below dOld.1
      · have back := halfSibling _ dHalf
        rw [Block.sibling_sibling (neat.aligned c (Or.inl cOld.1))] at back
        exact fresh _ (Or.inl (back ▸ cOld))
    · exact fresh _ (halfSibling c cHalf ▸ dFree)

/-- **On an aligned base every run stays neat.** -/
theorem Run.neat {b₀ b : Buddy} {held : Set (Nat × Nat)} (region : b₀.Region)
    (base : b₀.BaseAligned) (run : Run b₀ b held) : Neat b.freeBlocks b.allocBlocks := by
  induction run with
  | init =>
    obtain ⟨free, rep, _, aligned, coalesced, _⟩ := buddyInit_spec region
    rw [rep.freeEq, rep.allocEq]
    exact ⟨by rwa [Set.union_empty], coalesced⟩
  | @call b _ _ _ before call ih =>
    cases call with
    | allocNull small call =>
      rcases (before.sound region).1.alloc_cases small with same | ⟨_, i, _, _, _, _, _, other, _⟩
      · rw [same, Except.ok.injEq, Prod.mk.injEq] at call
        exact call.1 ▸ ih
      · rw [other, Except.ok.injEq, Prod.mk.injEq] at call
        exact absurd call.2 (before.sound region).1.rep.region.page_pos.ne'
    | alloc small _ call found =>
      rcases (before.sound region).1.alloc_cases small with
        same | ⟨_, i, k, b', _, member, le, other, effect, pool⟩
      · rw [same, Except.ok.injEq, Prod.mk.injEq] at call
        exact absurd call.2.symm found
      · rw [other, Except.ok.injEq, Prod.mk.injEq] at call
        obtain ⟨rfl, _⟩ := call
        rw [effect.rep.freeEq, effect.rep.allocEq]
        exact ih.alloc member le pool
    | free inReach call =>
      obtain ⟨sound, start, blocks⟩ := before.sound region
      rcases sound.free_cases inReach with
        ⟨same, _⟩ | ⟨i, k, b', free', hand, _, _, member, other, _, cascade, effect, _⟩
      · rw [buddyFree_eq same, Except.ok.injEq] at call
        exact call ▸ ih
      · rw [buddyFree_eq other, Except.ok.injEq] at call
        subst call
        rw [effect.rep.freeEq, effect.rep.allocEq]
        have baseHere : b.BaseAligned := by
          rwa [BaseAligned, topOrder, basePage, num, ← start, ← blocks] at base
        have held := sound.pool.release member
        obtain ⟨coalesced, aligned⟩ := cascade.coalesced held
          (by
            rintro c (rfl | inFree | inAlloc)
            · exact ih.aligned _ (Or.inr member)
            · exact ih.aligned c (Or.inl inFree)
            · exact ih.aligned c (Or.inr inAlloc.1))
          (partner_sibling sound.rep.region baseHere) ih.coalesced
        rw [← Set.insert_union] at aligned
        exact ⟨aligned, coalesced⟩
    | write _ => exact ih

/-! ### Runs on any other base -/

section Fragmentation

variable {b₀ b : Buddy} {held : Set (Nat × Nat)} {j q : Nat}

/-- The region starts with a block of order at most `j`. -/
def Low (j : Nat) (blocks : Set Block) : Prop := ∃ k ≤ j, ⟨0, k⟩ ∈ blocks

/-- **Where the base is not aligned, the first block is not merged beyond the alignment of the
base.** -/
theorem low_cascade (region : b.Region) (base : b.basePage = 2 ^ j * q) (odd : q % 2 = 1)
    {free alloc free' : Set Block} {hand hand' : Block}
    (cascade : Cascade b.partner maxOrder free hand free' hand')
    (inHand : InHand maxOrder b.num free alloc hand) (low : Low j (insert hand (free ∪ alloc))) :
    Low j (insert hand' (free' ∪ alloc)) := by
  induction cascade with
  | stop _ => exact low
  | @merge free free' hand c hand' below isPartner member _ ih =>
    obtain ⟨i, k⟩ := hand
    obtain ⟨x, l⟩ := c
    obtain ⟨rfl, xLt, address, _⟩ :=
      partner_eq_some (i := i) (k := k) region inHand.index_lt below isPartner
    have side := (partner_neighbours region _ _ inHand.index_lt below isPartner).2
    simp only at below side xLt
    have pos := Nat.two_pow_pos l
    refine ih (inHand.merge below member side) ?_
    rw [xor_page] at address
    obtain ⟨m, le, same | inFree | inAlloc⟩ := low
    · -- the block in hand starts the region, and its partner would lie before it
      rw [Block.mk.injEq] at same
      obtain ⟨rfl, rfl⟩ := same
      have notTop : m ≠ j := by
        rintro rfl
        have bit := page_bit region (i := 0) base
        rw [Nat.zero_div, Nat.add_zero, odd] at bit
        rw [if_neg (by rw [bit]; exact one_ne_zero)] at address
        simp only [page] at address
        omega
      exact ⟨m + 1, by omega, Or.inl (by rw [Block.mk.injEq]; exact ⟨by simp, rfl⟩)⟩
    · by_cases same : (⟨0, m⟩ : Block) = ⟨x, l⟩
      · -- the partner starts the region, and the block in hand has its partner on the other side
        rw [Block.mk.injEq] at same
        obtain ⟨rfl, rfl⟩ := same
        have index : i = 2 ^ m := by omega
        have notTop : m ≠ j := by
          rintro rfl
          have bit := page_bit region (i := i) base
          rw [index, Nat.div_self pos] at bit
          rw [index, if_pos (by rw [bit]; omega)] at address
          simp only [page] at address
          omega
        exact ⟨m + 1, by omega, Or.inl (by rw [Block.mk.injEq]; exact ⟨by simp, rfl⟩)⟩
      · exact ⟨m, le, Or.inr (Or.inl ⟨inFree, same⟩)⟩
    · exact ⟨m, le, Or.inr (Or.inr inAlloc)⟩

/-- The pages that head an allocated block. -/
def allocHeads (b : Buddy) : Set Nat := {i | ∃ k, ⟨i, k⟩ ∈ b.allocBlocks}

theorem allocHeads_finite (b : Buddy) : b.allocHeads.Finite :=
  (Set.finite_Iio b.num).subset fun _ ⟨_, member⟩ => member.1

/-- Allocating blocks of order `j` until none is left splits the first block down to that order. -/
theorem exhaust (region : b₀.Region) (le : j ≤ maxOrder) (pos : 0 < b₀.num) :
    ∀ (d : Nat) {b : Buddy} {held : Set (Nat × Nat)}, Run b₀ b held →
      (∀ c ∈ b.allocBlocks, c.order ≤ j) → b₀.num ≤ b.allocHeads.ncard + d →
      ∃ b' held', Run b₀ b' held' ∧ Low j (b'.freeBlocks ∪ b'.allocBlocks) := by
  have small : 2 ^ j < 2 ^ 31 := Nat.pow_lt_pow_right (by decide) (lt_of_le_of_lt le (by decide))
  intro d
  induction d with
  | zero =>
    intro b held run orders full
    obtain ⟨sound, _, blocks⟩ := run.sound region
    have numEq : b.num = b₀.num := by rw [num, blocks, Buddy.num]
    -- every page heads an allocated block
    have all : b.allocHeads = Set.Iio b.num := by
      have inRange : b.allocHeads ⊆ Set.Iio b.num := by
        rintro x ⟨_, member⟩
        exact member.1
      refine Set.eq_of_subset_of_ncard_le inRange ?_ (Set.finite_Iio _)
      rw [← Finset.coe_Iio, Set.ncard_coe_finset, Nat.card_Iio]
      omega
    obtain ⟨k, member⟩ : 0 ∈ b.allocHeads := by
      rw [all, numEq]
      exact pos
    exact ⟨b, held, run, k, orders _ member, Or.inr member⟩
  | succ d ih =>
    intro b held run orders room
    obtain ⟨sound, _, blocks⟩ := run.sound region
    have numEq : b.num = b₀.num := by rw [num, blocks, Buddy.num]
    rcases sound.alloc_cases small with same |
      ⟨order, i, k, b', isOrder, member, _, call, effect, _⟩
    · -- nothing of order `j` is free, so the first block is smaller, or allocated
      obtain ⟨c, member, covers⟩ := sound.pool.tiling.cover 0 (by omega)
      have index : c.index = 0 := Nat.le_zero.mp covers.1
      refine ⟨b, held, run, c.order, ?_, ?_⟩
      · rcases member with inFree | inAlloc
        · by_contra large
          obtain ⟨b', blk, call, found⟩ :=
            (buddyAlloc_succeeds_iff sound.rep sound.pool (2 ^ j)).mpr
            ⟨(Nat.two_pow_pos j).ne', j, orderForPages_two_pow le, c, inFree, by omega⟩
          rw [same, Except.ok.injEq, Prod.mk.injEq] at call
          exact found call.2.symm
        · exact orders c inAlloc
      · rw [← index]
        exact member
    · rw [orderForPages_two_pow le, Except.ok.injEq] at isOrder
      subst isOrder
      refine ih
        (run.call (.alloc small (orderForPages_two_pow le) call sound.rep.region.page_pos.ne')) ?_
        ?_
      · rw [effect.rep.allocEq]
        rintro c (rfl | inAlloc)
        · exact le_rfl
        · exact orders c inAlloc
      · have heads : b'.allocHeads = insert i b.allocHeads := by
          ext x
          simp only [allocHeads, effect.rep.allocEq, Set.mem_ofPred_eq, Set.mem_insert_iff,
            Block.mk.injEq]
          constructor
          · rintro ⟨l, ⟨rfl, _⟩ | inAlloc⟩
            · exact Or.inl rfl
            · exact Or.inr ⟨l, inAlloc⟩
          · rintro (rfl | ⟨l, inAlloc⟩)
            · exact ⟨_, Or.inl ⟨rfl, rfl⟩⟩
            · exact ⟨l, Or.inr inAlloc⟩
        have fresh : i ∉ b.allocHeads := by
          rintro ⟨l, inAlloc⟩
          have same := sound.pool.tiling.eq_of_index (Or.inl member) (Or.inr inAlloc) rfl
          exact sound.pool.disjoint _ member (same ▸ inAlloc)
        rw [heads, Set.ncard_insert_of_notMem fresh b.allocHeads_finite]
        omega

/-- Everything that is held can be freed, and the first block stays small. -/
theorem freeAll (region : b₀.Region) (base : b₀.basePage = 2 ^ j * q) (odd : q % 2 = 1) :
    ∀ (d : Nat) {b : Buddy} {held : Set (Nat × Nat)}, Run b₀ b held →
      Low j (b.freeBlocks ∪ b.allocBlocks) → b.allocHeads.ncard ≤ d →
      ∃ b', Run b₀ b' ∅ ∧ Low j (b'.freeBlocks ∪ b'.allocBlocks) := by
  intro d
  induction d with
  | zero =>
    intro b held run low none
    obtain ⟨sound, _, _⟩ := run.sound region
    have empty : b.allocHeads = ∅ :=
      (Set.ncard_eq_zero b.allocHeads_finite).mp (Nat.le_zero.mp none)
    have heldEmpty : held = ∅ := by
      refine Set.eq_empty_of_forall_notMem fun ⟨addr, k⟩ isHeld => ?_
      obtain ⟨i, member, _⟩ := (sound.held_iff addr k).mp isHeld
      have : i ∈ b.allocHeads := ⟨k, member⟩
      rw [empty] at this
      exact this
    exact ⟨b, heldEmpty ▸ run, low⟩
  | succ d ih =>
    intro b held run low count
    obtain ⟨sound, start, blocks⟩ := run.sound region
    rcases Set.eq_empty_or_nonempty b.allocHeads with empty | ⟨i, k, member⟩
    · exact ih run low (by rw [empty, Set.ncard_empty]; exact Nat.zero_le _)
    · have lt : i < b.num := sound.pool.index_lt_of_taken member
      have inReach : b.InReach (b.page i) := Or.inr (by simp only [page]; omega)
      rcases sound.free_cases inReach with
        ⟨_, notHeld⟩ | ⟨i', k', b', free', hand, exit, address, member', call, _, cascade, effect,
          _⟩
      · exact absurd ((sound.held_iff _ _).mpr ⟨i, member, rfl⟩) (notHeld k)
      · have indexEq := b.page_injective address
        subst indexEq
        refine ih (run.call (.free inReach (buddyFree_eq call))) ?_ ?_
        · have baseHere : b.basePage = 2 ^ j * q := by
            rw [basePage, start]
            exact base
          rw [effect.rep.freeEq, effect.rep.allocEq, Set.insert_union]
          refine low_cascade sound.rep.region baseHere odd cascade (sound.pool.release member') ?_
          obtain ⟨m, le, inFree | inAlloc⟩ := low
          · exact ⟨m, le, Or.inr (Or.inl inFree)⟩
          · by_cases same : (⟨0, m⟩ : Block) = ⟨i, k'⟩
            · exact ⟨m, le, Or.inl same⟩
            · exact ⟨m, le, Or.inr (Or.inr ⟨inAlloc, same⟩)⟩
        · have heads : b'.allocHeads ⊆ b.allocHeads \ {i} := by
            rintro x ⟨l, inAlloc⟩
            rw [effect.rep.allocEq] at inAlloc
            refine ⟨⟨l, inAlloc.1⟩, ?_⟩
            rintro rfl
            exact inAlloc.2 (by rw [sound.rep.functionalAlloc _ _ _ inAlloc.1 member']; rfl)
          have fewer := Set.ncard_le_ncard heads (b.allocHeads_finite.subset Set.sdiff_subset)
          have isHead : i ∈ b.allocHeads := ⟨k, member⟩
          have gone := Set.ncard_sdiff_singleton_lt_of_mem isHead b.allocHeads_finite
          omega

end Fragmentation

/-! ### The exact condition -/

/-- Whenever every block handed out has been freed, the free blocks are those after `buddy_init`,
and the same requests succeed as then. -/
def Restored (b₀ : Buddy) : Prop :=
  ∀ b, Run b₀ b ∅ → b.freeBlocks = b₀.buddyInit.freeBlocks ∧
    ∀ size, (∃ b' blk, b.buddyAlloc size = .ok (b', blk) ∧ blk ≠ 0) ↔
      ∃ b' blk, b₀.buddyInit.buddyAlloc size = .ok (b', blk) ∧ blk ≠ 0

theorem restored_of_baseAligned {b₀ : Buddy} (region : b₀.Region) (base : b₀.BaseAligned) :
    Restored b₀ := by
  intro b run
  obtain ⟨sound, _, blocks⟩ := run.sound region
  obtain ⟨soundInit, _, blocksInit⟩ := (@Run.init b₀).sound region
  have neat := run.neat region base
  have neatInit := (@Run.init b₀).neat region base
  have numEq : b.num = b₀.buddyInit.num := by rw [num, blocks, num, blocksInit]
  have allFree : ∀ {b : Buddy}, b.Sound ∅ → b.allocBlocks = ∅ := by
    intro b sound
    refine Set.eq_empty_of_forall_notMem fun c member => ?_
    exact (sound.held_iff (b.page c.index) c.order).mpr ⟨c.index, member, rfl⟩
  have pool := sound.pool
  have poolInit := soundInit.pool
  rw [allFree sound, numEq] at pool
  rw [allFree soundInit] at poolInit
  have freeEq : b.freeBlocks = b₀.buddyInit.freeBlocks :=
    pool.free_unique poolInit (fun c member => neat.aligned c (Or.inl member))
      (fun c member => neatInit.aligned c (Or.inl member)) neat.coalesced neatInit.coalesced
  refine ⟨freeEq, fun size => ?_⟩
  rw [buddyAlloc_succeeds_iff sound.rep sound.pool, freeEq,
    buddyAlloc_succeeds_iff soundInit.rep soundInit.pool]

/-- **On a base that is not aligned to its largest block, some run loses blocks for good.** -/
theorem fragmented {b₀ : Buddy} (region : b₀.Region) (base : ¬ b₀.BaseAligned) : ¬ Restored b₀ := by
  intro restored
  -- the largest power of two that divides the base, and its odd cofactor
  have nonzero : b₀.basePage ≠ 0 := by
    intro zero
    rw [BaseAligned, zero] at base
    exact base (dvd_zero _)
  obtain ⟨j, q, odd, baseEq⟩ := Nat.exists_eq_two_pow_mul_odd nonzero
  have below : j < b₀.topOrder := by
    by_contra large
    refine base ((pow_dvd_pow 2 (not_lt.mp large)).trans ?_)
    rw [baseEq]
    exact Nat.dvd_mul_right _ _
  have jLt : j < maxOrder := lt_of_lt_of_le below (min_le_left _ _)
  have fits : 2 ^ (j + 1) ≤ b₀.num := by
    have room : j + 1 ≤ b₀.num.log2 := le_trans below (min_le_right _ _)
    have pos : b₀.num ≠ 0 := by
      intro zero
      rw [zero] at room
      simp at room
    exact (Nat.le_log2 pos).mp room
  have pos : 0 < b₀.num := lt_of_lt_of_le (Nat.two_pow_pos _) fits
  obtain ⟨free, rep, pool, aligned, coalesced, _⟩ := buddyInit_spec region
  obtain ⟨b₁, held, run₁, low₁⟩ := exhaust region jLt.le pos b₀.num (@Run.init b₀)
    (by rw [rep.allocEq]; exact fun c member => absurd member (Set.notMem_empty _))
    (Nat.le_add_left _ _)
  obtain ⟨b, run, k, le, member⟩ :=
    freeAll region baseEq (Nat.odd_iff.mp odd) b₁.allocHeads.ncard run₁ low₁ le_rfl
  obtain ⟨sound, _, _⟩ := run.sound region
  have inFree : ⟨0, k⟩ ∈ free := by
    rcases member with inFree | inAlloc
    · rw [(restored b run).1, rep.freeEq] at inFree
      exact inFree
    · exact absurd ((sound.held_iff _ _).mpr ⟨0, inAlloc, rfl⟩) (Set.notMem_empty _)
  have tiling := pool.tiling
  rw [Set.union_empty] at tiling
  -- the carving would have made the first block larger
  refine tiling.parent_outside aligned coalesced k ⟨0, k⟩ inFree rfl (by omega) ?_
  have larger : 2 ^ (k + 1) ≤ 2 ^ (j + 1) := Nat.pow_le_pow_right (by decide) (by omega)
  simp only [Block.parent, Nat.zero_div, Nat.zero_mul]
  omega

/-- **Freeing everything restores the initial free blocks if and only if the region starts at a
multiple of its largest block.** -/
theorem restored_iff_baseAligned {b₀ : Buddy} (region : b₀.Region) :
    Restored b₀ ↔ b₀.BaseAligned :=
  ⟨fun restored => by_contra fun base => fragmented region base restored,
    restored_of_baseAligned region⟩

/-- A region of two pages at `0x1000`, which is not a multiple of two pages. -/
def twoPages : Buddy where
  managedStart := 4096
  managedNumBlocks := 2
  freeArea := fun _ => 0
  blockMeta := fun _ => ⟨0, false, 0, false, 0⟩
  mem := fun _ => 0

theorem twoPages_region : twoPages.Region :=
  ⟨by decide, by decide, by decide, by decide⟩

theorem restored_iff_baseAligned_twoPages : Restored twoPages ↔ twoPages.BaseAligned :=
  restored_iff_baseAligned twoPages_region

/-- One page is allocated and freed: the block of two pages that `buddy_init` made is gone. -/
theorem twoPages_not_restored : ¬ Restored twoPages := by
  intro restored
  obtain ⟨⟨b, blk⟩, alloc, observed⟩ := exists_ok (twoPages.buddyInit.buddyAlloc 1)
    (fun r => (r.2, ((r.1.buddyFree 4096).map fun b =>
      ((b.blockMeta 0).isHeadOfFreeBlock, (b.blockMeta 0).freeOrder)).toOption))
    (4096, some (true, 0)) (by decide +kernel)
  rw [Prod.mk.injEq] at observed
  obtain ⟨rfl, afterFree⟩ := observed
  obtain ⟨b', free, flags⟩ := exists_ok _ _ _ afterFree
  rw [Prod.mk.injEq] at flags
  have taken : Run twoPages b {(4096, 0)} := by
    simpa using Run.init.call (.alloc (by decide) (orderForPages_two_pow (Nat.zero_le _)) alloc
      (by decide))
  have run : Run twoPages b' ∅ := by
    have none : {h ∈ ({(4096, 0)} : Set (Nat × Nat)) | h.1 ≠ 4096} = ∅ := by
      refine Set.eq_empty_of_forall_notMem ?_
      rintro h ⟨rfl, ne⟩
      exact ne rfl
    exact none ▸ taken.call (.free (Or.inl (by decide)) free)
  have num : b'.num = 2 := by
    rw [num, (run.sound twoPages_region).2.2]
    rfl
  have split : (⟨0, 0⟩ : Block) ∈ b'.freeBlocks := ⟨by rw [num]; decide, flags⟩
  rw [(restored b' run).1] at split
  exact absurd split.2.2 (by decide +kernel)

end Buddy

end Xv6Slab
