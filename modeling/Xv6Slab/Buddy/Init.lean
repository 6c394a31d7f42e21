/-
**`buddy_init` sets up a represented pool.**

* `pickOrder_spec` — the inner loop picks the largest order that fits and is aligned.
* `carveLoop_spec` — the carving loop tiles the region from the left with such blocks.
* `buddyInit_spec` — **after `buddy_init` every page is free**, in aligned blocks of which no two
  siblings are both free, whatever the memory and the metadata held before.
-/

import Xv6Slab.Buddy.Moves

namespace Xv6Slab

open Bytes Chains Tilings

namespace Buddy

theorem pickOrder_spec (curr : Nat) {remaining : Nat} (pos : 0 < remaining) :
    ∀ top, pickOrder curr remaining top ≤ top ∧ 2 ^ pickOrder curr remaining top ≤ remaining ∧
      2 ^ pickOrder curr remaining top ∣ curr ∧
      ∀ k, pickOrder curr remaining top < k → k ≤ top → 2 ^ k ∣ curr → remaining < 2 ^ k := by
  intro top
  induction top with
  | zero =>
    refine ⟨le_rfl, pos, one_dvd _, fun k low high => ?_⟩
    rw [pickOrder] at low
    omega
  | succ top ih =>
    obtain ⟨le, fits, aligned, greedy⟩ := ih
    rw [pickOrder]
    by_cases taken : 2 ^ (top + 1) ≤ remaining ∧ curr % 2 ^ (top + 1) = 0
    · rw [if_pos taken]
      exact ⟨le_rfl, taken.1, Nat.dvd_of_mod_eq_zero taken.2, fun k low high => by omega⟩
    · rw [if_neg taken]
      refine ⟨by omega, fits, aligned, fun k low high divides => ?_⟩
      rcases Nat.lt_succ_iff_lt_or_eq.mp (Nat.lt_succ_of_le high) with below | rfl
      · exact greedy k low (by omega) divides
      · by_contra enough
        exact taken ⟨by omega, Nat.mod_eq_zero_of_dvd divides⟩

/-- What the carving loop has built when it arrives at `curr`. -/
structure Carved (b : Buddy) (curr : Nat) (free : Set Block) : Prop where
  rep : b.Rep free ∅
  tiling : Tiling curr free
  order_le : ∀ c ∈ free, c.order ≤ maxOrder
  aligned : ∀ c ∈ free, c.Aligned
  greedy : ∀ c ∈ free, Tiling.Greedy maxOrder b.num c

/-- **The carving loop.** -/
theorem carveLoop_spec :
    ∀ (fuel : Nat) {b : Buddy} {curr : Nat} {free : Set Block}, Carved b curr free →
      curr ≤ b.num → b.num ≤ fuel + curr →
      ∃ free', Carved (carveLoop fuel b curr) b.num free' ∧ SameRegion b (carveLoop fuel b curr) ∧
        SameOutside (Set.Ico (b.page curr) (b.page b.num)) b.mem (carveLoop fuel b curr).mem := by
  intro fuel
  induction fuel with
  | zero =>
    intro b curr free carved le enough
    have done : curr = b.num := by omega
    subst done
    exact ⟨free, carved, SameRegion.refl b, SameOutside.refl _ _⟩
  | succ fuel ih =>
    intro b curr free carved le enough
    rw [carveLoop]
    by_cases more : (curr : Int) < b.managedNumBlocks
    · rw [if_pos more]
      have lt : curr < b.num := by
        rw [num]
        omega
      have remaining : b.managedNumBlocks.toNat - curr = b.num - curr := rfl
      have pos : 0 < b.num - curr := by omega
      obtain ⟨orderLe, fits, divides, greedy⟩ := pickOrder_spec curr pos maxOrder
      simp only [remaining]
      generalize pickOrder curr (b.num - curr) maxOrder = k at *
      have sizePos := Nat.two_pow_pos k
      have fresh : ∀ l, ⟨curr, l⟩ ∉ free := fun l member =>
        absurd (carved.tiling.index_lt member) (lt_irrefl _)
      obtain ⟨b₁, marked, pushed⟩ := carved.rep.insertFree lt orderLe fresh
      -- the loop writes the flag without `mark_free_head`
      have direct : b₁ = b.setMeta curr
          { b.blockMeta curr with isHeadOfFreeBlock := true, freeOrder := k } := by
        rw [markFreeHead, addrToIndex_page carved.rep.region lt, modifyMeta_ok _ lt] at marked
        exact (Except.ok.inj marked).symm
      have address : (b.managedStart + curr * blockSize) % 2 ^ 64 = b.page curr := by
        have := carved.rep.region.page_lt lt
        rw [page] at this ⊢
        show (b.managedStart + curr * 4096) % 2 ^ 64 = _
        exact Nat.mod_eq_of_lt (by omega)
      subst direct
      rw [address]
      have carved₂ : Carved _ (curr + 2 ^ k) (insert ⟨curr, k⟩ free) :=
        { rep := pushed.rep
          tiling := carved.tiling.extend k
          order_le := by
            rintro c (rfl | member)
            · exact orderLe
            · exact carved.order_le c member
          aligned := by
            rintro c (rfl | member)
            · exact divides
            · exact carved.aligned c member
          greedy := by
            rw [pushed.same.num]
            rintro c (rfl | member)
            · intro l low high aligned
              have := greedy l low high aligned
              simp only
              omega
            · exact carved.greedy c member }
      obtain ⟨free', done, same, mem⟩ := ih carved₂ (by rw [pushed.same.num]; omega)
        (by rw [pushed.same.num]; omega)
      rw [pushed.same.num] at done
      rw [pushed.same.num, pushed.same.page, pushed.same.page] at mem
      refine ⟨free', done, pushed.same.trans same, (pushed.mem.mono ?_).trans (mem.mono ?_)⟩
      · intro a inside
        refine ⟨inside.1, lt_of_lt_of_le inside.2 ?_⟩
        simp only [page]
        omega
      · intro a inside
        refine ⟨le_trans ?_ inside.1, inside.2⟩
        simp only [page]
        omega
    · rw [if_neg more]
      have done : curr = b.num := by
        rw [num] at *
        omega
      subst done
      exact ⟨free, carved, SameRegion.refl b, SameOutside.refl _ _⟩

/-- **`buddy_init`.** -/
theorem buddyInit_spec {b : Buddy} (region : b.Region) :
    ∃ free, b.buddyInit.Rep free ∅ ∧ Pool maxOrder b.num free ∅ ∧ (∀ c ∈ free, c.Aligned) ∧
      Tiling.Coalesced maxOrder free ∧ b.buddyInit.managedStart = b.managedStart ∧
      b.buddyInit.managedNumBlocks = b.managedNumBlocks ∧
      (∀ i < b.num, (b.buddyInit.blockMeta i).ownerSlab = 0) ∧
      SameOutside (Set.Ico b.managedStart (b.managedStart + b.num * 4096))
        b.mem b.buddyInit.mem := by
  rw [buddyInit]
  generalize cleared : ({ b with
    freeArea := fun o => if o ≤ maxOrder then 0 else b.freeArea o
    blockMeta := fun i => if (i : Int) < b.managedNumBlocks then ⟨0, false, 0, false, 0⟩
      else b.blockMeta i } : Buddy) = b₀
  have start : b₀.managedStart = b.managedStart := by rw [← cleared]
  have blocks : b₀.managedNumBlocks = b.managedNumBlocks := by rw [← cleared]
  have num : b₀.num = b.num := by rw [Buddy.num, blocks, Buddy.num]
  have metas : ∀ i < b.num, b₀.blockMeta i = ⟨0, false, 0, false, 0⟩ := by
    intro i lt
    rw [← cleared]
    exact if_pos (by rw [Buddy.num] at lt; omega)
  have carved : Carved b₀ 0 ∅ :=
    { rep :=
        { region :=
            { aligned := by rw [start]; exact region.aligned
              pos := by rw [start]; exact region.pos
              fits := by rw [start, num]; exact region.fits
              small := by rw [blocks]; exact region.small }
          freeEq := by
            refine Set.eq_empty_of_forall_notMem fun c member => ?_
            have flagged := member.2.1
            rw [metas _ (num ▸ member.1)] at flagged
            exact Bool.false_ne_true flagged
          allocEq := by
            refine Set.eq_empty_of_forall_notMem fun c member => ?_
            have flagged := member.2.1
            rw [metas _ (num ▸ member.1)] at flagged
            exact Bool.false_ne_true flagged
          lists := by
            intro k le
            have head : b₀.freeArea k = 0 := by
              rw [← cleared]
              exact if_pos le
            rw [head]
            exact ⟨[], .nil, fun a => by simp⟩ }
      tiling := Tiling.empty
      order_le := fun _ member => absurd member (Set.notMem_empty _)
      aligned := fun _ member => absurd member (Set.notMem_empty _)
      greedy := fun _ member => absurd member (Set.notMem_empty _) }
  obtain ⟨free, done, same, mem⟩ :=
    carveLoop_spec b₀.managedNumBlocks.toNat carved (Nat.zero_le _) (Nat.le_add_right _ _)
  have tiling := done.tiling
  rw [num] at tiling
  refine ⟨free, done.rep, ⟨by rwa [Set.union_empty], fun c _ => Set.notMem_empty _, ?_⟩,
    done.aligned, tiling.coalesced_of_greedy done.aligned ?_, same.start.trans start,
    same.blocks.trans blocks, ?_, ?_⟩
  · rw [Set.union_empty]
    exact done.order_le
  · have greedy := done.greedy
    rwa [same.num, num] at greedy
  · intro i lt
    rw [same.owner, metas i lt]
  · have range : Set.Ico (b₀.page 0) (b₀.page b₀.num) =
        Set.Ico b.managedStart (b.managedStart + b.num * 4096) := by
      simp only [page, start, num, Nat.zero_mul, Nat.add_zero]
    rw [← range]
    have memEq : b.mem = b₀.mem := by rw [← cleared]
    rw [memEq]
    exact mem

end Buddy

end Xv6Slab
