/-
**The allocator without what threads are in the middle of.**

`hide transit secret k` is the state `k` in which the descriptors `transit` are not used and the
pages owned by a slab of `secret` have no owner: a slot that is being claimed or given back, and a
block that is a slab already but on no list yet, or not any more. The invariant of the sequential
allocator holds of the hidden state; the operations on the rest of the allocator do not see the
difference.

* `hideOwners_buddyAlloc`, `hideOwners_buddyFree` — the buddy allocator.
* `hide_modifyDesc`, `hide_slabListPushFront`, `hide_slabListPopFront`, `hide_takeObject` — lists
  and objects.
* `hideOwners_publish`, `hideOwners_withdraw` — what becomes of the pages of a block as its owners
  are written.
-/

import Xv6Slab.Slab.Caches

namespace Xv6Slab

open Bytes

namespace Buddy

/-- A change to the metadata of a page that leaves its owner alone. -/
def KeepsOwner (change : BlockMeta → BlockMeta) : Prop :=
  ∀ m owner, change { m with ownerSlab := owner } = { change m with ownerSlab := owner }

theorem KeepsOwner.owner {change : BlockMeta → BlockMeta} (keeps : KeepsOwner change)
    (m : BlockMeta) : (change m).ownerSlab = m.ownerSlab := by
  have same := congrArg BlockMeta.ownerSlab (keeps m m.ownerSlab)
  exact same

open Classical in
/-- The metadata of a page without an owner among `secret`. -/
noncomputable def hideOwner (secret : Set Nat) (m : BlockMeta) : BlockMeta :=
  if m.ownerSlab ∈ secret then { m with ownerSlab := 0 } else m

theorem hideOwner_change {secret : Set Nat} {change : BlockMeta → BlockMeta}
    (keeps : KeepsOwner change) (m : BlockMeta) :
    hideOwner secret (change m) = change (hideOwner secret m) := by
  unfold hideOwner
  by_cases isSecret : m.ownerSlab ∈ secret
  · rw [if_pos isSecret, if_pos (keeps.owner m ▸ isSecret)]
    exact (keeps m 0).symm
  · rw [if_neg isSecret, if_neg (keeps.owner m ▸ isSecret)]

/-- The buddy part of a state, with the slabs `secret` owning no page. -/
noncomputable def hideOwners (secret : Set Nat) (b : Buddy) : Buddy :=
  { b with
    blockMeta := fun i => if i < b.num then hideOwner secret (b.blockMeta i) else b.blockMeta i }

section HideOwners

variable {secret : Set Nat} {b b' : Buddy} {i : Nat}

theorem hideOwners_owner (notSecret : (b.blockMeta i).ownerSlab ∉ secret) :
    (b.hideOwners secret).blockMeta i = b.blockMeta i := by
  unfold hideOwners
  simp only
  split_ifs
  · exact if_neg notSecret
  · rfl

theorem hideOwners_secret (lt : i < b.num) (isSecret : (b.blockMeta i).ownerSlab ∈ secret) :
    (b.hideOwners secret).blockMeta i = { b.blockMeta i with ownerSlab := 0 } :=
  (if_pos lt).trans (if_pos isSecret)

theorem hideOwners_empty (b : Buddy) : b.hideOwners ∅ = b := by
  have metas : (b.hideOwners ∅).blockMeta = b.blockMeta := by
    funext i
    exact hideOwners_owner (Set.notMem_empty _)
  exact congrArg (fun f => { b with blockMeta := f }) metas

theorem hideOwners_flags (secret : Set Nat) (b : Buddy) (i : Nat) :
    { (b.hideOwners secret).blockMeta i with ownerSlab := 0 } =
    { b.blockMeta i with ownerSlab := 0 } := by
  unfold hideOwners hideOwner
  simp only
  split_ifs <;> rfl

theorem hideOwners_addrToIndex (secret : Set Nat) (b : Buddy) (p : Nat) :
    (b.hideOwners secret).addrToIndex p = b.addrToIndex p := rfl

/-- A write to the metadata that leaves owners alone. -/
theorem hideOwners_modifyMeta (secret : Set Nat) {idx : Int} {change : BlockMeta → BlockMeta}
    (keeps : KeepsOwner change) (run : b.modifyMeta idx change = .ok b') :
    (b.hideOwners secret).modifyMeta idx change = .ok (b'.hideOwners secret) := by
  unfold modifyMeta at run ⊢
  by_cases inside : 0 ≤ idx ∧ idx < b.managedNumBlocks
  · rw [if_pos inside] at run
    obtain rfl := Except.ok.inj run
    have inside' : 0 ≤ idx ∧ idx < (b.hideOwners secret).managedNumBlocks := inside
    rw [if_pos inside']
    have metas : Function.update (b.hideOwners secret).blockMeta idx.toNat
        (change ((b.hideOwners secret).blockMeta idx.toNat)) =
          ((b.setMeta idx.toNat (change (b.blockMeta idx.toNat))).hideOwners secret).blockMeta := by
      funext i
      unfold hideOwners setMeta
      simp only
      by_cases eq : i = idx.toNat
      · subst eq
        rw [Function.update_self, Function.update_self, hideOwner_change keeps]
        exact (apply_ite change _ _ _)
      · rw [Function.update_of_ne eq, Function.update_of_ne eq]
        rfl
    exact congrArg (fun f => Except.ok { b with blockMeta := f }) metas
  · rw [if_neg inside] at run
    cases run

theorem hideOwners_markFreeHead {addr order : Nat} (run : b.markFreeHead addr order = .ok b') :
    (b.hideOwners secret).markFreeHead addr order = .ok (b'.hideOwners secret) :=
  hideOwners_modifyMeta secret (fun _ _ => rfl) run

theorem hideOwners_popFree {order blk : Nat} (run : b.popFree order = .ok (b', blk)) :
    (b.hideOwners secret).popFree order = .ok (b'.hideOwners secret, blk) := by
  unfold popFree at run ⊢
  by_cases isZero : b.freeArea order = 0
  · rw [if_pos isZero] at run
    obtain ⟨rfl, rfl⟩ := Prod.mk.inj (Except.ok.inj run)
    exact if_pos isZero
  · have isZero' : ¬ (b.hideOwners secret).freeArea order = 0 := isZero
    rw [if_neg isZero] at run
    rw [if_neg isZero']
    simp only at run ⊢
    by_cases found : 0 ≤ b.addrToIndex (b.freeArea order)
    · obtain ⟨b₁, marked, rest⟩ := bind_eq_ok ((if_pos found).symm.trans run)
      obtain ⟨rfl, rfl⟩ := Prod.mk.inj (Except.ok.inj rest)
      have hidden := hideOwners_modifyMeta secret (fun _ _ => rfl) marked
      exact (if_pos found).trans
        (congrArg (· >>= fun c : Buddy => pure (c, b.freeArea order)) hidden)
    · obtain ⟨rfl, rfl⟩ := Prod.mk.inj (Except.ok.inj ((if_neg found).symm.trans run))
      exact if_neg found

theorem hideOwners_splitLoop {blk target : Nat} : ∀ (k : Nat) {b b' : Buddy},
    splitLoop blk target k b = .ok b' →
      splitLoop blk target k (b.hideOwners secret) = .ok (b'.hideOwners secret) := by
  intro k
  induction k with
  | zero =>
    intro b b' run
    obtain rfl := Except.ok.inj run
    rfl
  | succ k ih =>
    intro b b' run
    unfold splitLoop at run ⊢
    by_cases more : target < k + 1
    · rw [if_pos more] at run ⊢
      obtain ⟨b₁, marked, rest⟩ := bind_eq_ok run
      simp only
      rw [hideOwners_markFreeHead marked]
      exact ih rest
    · rw [if_neg more] at run ⊢
      obtain rfl := Except.ok.inj run
      rfl

theorem hideOwners_findOrder (secret : Set Nat) (b : Buddy) : ∀ fuel k,
    (b.hideOwners secret).findOrder fuel k = b.findOrder fuel k := by
  intro fuel
  induction fuel with
  | zero => exact fun _ => rfl
  | succ fuel ih =>
    intro k
    unfold findOrder
    rw [ih]
    rfl

/-- **`buddy_alloc` does not see owners.** -/
theorem hideOwners_buddyAlloc {pages blk : Nat} (run : b.buddyAlloc pages = .ok (b', blk)) :
    (b.hideOwners secret).buddyAlloc pages = .ok (b'.hideOwners secret, blk) := by
  unfold buddyAlloc at run ⊢
  by_cases none : pages = 0
  · rw [if_pos none] at run ⊢
    obtain ⟨rfl, rfl⟩ := Prod.mk.inj (Except.ok.inj run)
    rfl
  · rw [if_neg none] at run ⊢
    obtain ⟨target, order, run⟩ := bind_eq_ok run
    rw [order]
    simp only [hideOwners_findOrder]
    by_cases large : maxOrder < target
    · rw [if_pos large] at run
      obtain ⟨rfl, rfl⟩ := Prod.mk.inj (Except.ok.inj run)
      exact if_pos large
    · rw [if_neg large] at run
      refine (if_neg large).trans ?_
      simp only at run ⊢
      by_cases noBlock : maxOrder < b.findOrder (maxOrder + 1) target
      · rw [if_pos noBlock] at run ⊢
        obtain ⟨rfl, rfl⟩ := Prod.mk.inj (Except.ok.inj run)
        rfl
      · rw [if_neg noBlock] at run ⊢
        obtain ⟨⟨b₁, p⟩, popped, run⟩ := bind_eq_ok run
        obtain ⟨b₂, marked, run⟩ := bind_eq_ok run
        obtain ⟨b₃, split, run⟩ := bind_eq_ok run
        obtain ⟨b₄, taken, run⟩ := bind_eq_ok run
        obtain ⟨rfl, rfl⟩ := Prod.mk.inj (Except.ok.inj run)
        rw [hideOwners_popFree popped]
        show ((b₁.hideOwners secret).markNotFreeHead p >>= _) = _
        have marked' : (b₁.hideOwners secret).markNotFreeHead p = .ok (b₂.hideOwners secret) :=
          hideOwners_modifyMeta secret (fun _ _ => rfl) marked
        rw [marked']
        show (splitLoop p target _ (b₂.hideOwners secret) >>= _) = _
        rw [hideOwners_splitLoop _ split]
        show ((b₃.hideOwners secret).modifyMeta _ _ >>= _) = _
        have taken' := hideOwners_modifyMeta secret (fun _ _ => rfl) taken
        rw [hideOwners_addrToIndex, taken']
        rfl

theorem hideOwners_removeLoop {order blk : Nat} {found : Bool} : ∀ (fuel prev cur : Nat),
    b.removeLoop order blk fuel prev cur = .ok (b', found) →
      (b.hideOwners secret).removeLoop order blk fuel prev cur = .ok (b'.hideOwners secret,
        found) := by
  intro fuel
  induction fuel with
  | zero =>
    intro prev cur run
    cases run
  | succ fuel ih =>
    intro prev cur run
    unfold removeLoop at run ⊢
    by_cases stop : cur = 0
    · rw [if_pos stop] at run ⊢
      obtain ⟨rfl, rfl⟩ := Prod.mk.inj (Except.ok.inj run)
      rfl
    · rw [if_neg stop] at run ⊢
      simp only at run ⊢
      by_cases here : cur = blk
      · rw [if_pos here] at run ⊢
        by_cases first : prev ≠ 0
        · rw [if_pos first] at run ⊢
          obtain ⟨rfl, rfl⟩ := Prod.mk.inj (Except.ok.inj run)
          rfl
        · rw [if_neg first] at run ⊢
          obtain ⟨rfl, rfl⟩ := Prod.mk.inj (Except.ok.inj run)
          rfl
      · rw [if_neg here] at run ⊢
        exact ih _ _ run

/-- What `remove_from_freelist` leaves alone. -/
theorem removeLoop_same {order blk : Nat} {found : Bool} : ∀ (fuel prev cur : Nat),
    b.removeLoop order blk fuel prev cur = .ok (b', found) →
      b'.blockMeta = b.blockMeta ∧ b'.managedNumBlocks = b.managedNumBlocks := by
  intro fuel
  induction fuel with
  | zero =>
    intro prev cur run
    cases run
  | succ fuel ih =>
    intro prev cur run
    unfold removeLoop at run
    simp only at run
    split_ifs at run
    · obtain ⟨rfl, rfl⟩ := Prod.mk.inj (Except.ok.inj run)
      exact ⟨rfl, rfl⟩
    · obtain ⟨rfl, rfl⟩ := Prod.mk.inj (Except.ok.inj run)
      exact ⟨rfl, rfl⟩
    · obtain ⟨rfl, rfl⟩ := Prod.mk.inj (Except.ok.inj run)
      exact ⟨rfl, rfl⟩
    · exact ih _ _ run

/-- No page of a slab of `secret` is the head of a free block. -/
def Occupied (secret : Set Nat) (b : Buddy) : Prop :=
  ∀ i < b.num, (b.blockMeta i).ownerSlab ∈ secret → (b.blockMeta i).isHeadOfFreeBlock = false

/-- A write to the metadata that makes no page a free head. -/
theorem Occupied.modifyMeta {idx : Int} {change : BlockMeta → BlockMeta}
    (occupied : b.Occupied secret) (keeps : KeepsOwner change)
    (flag : ∀ m, m.isHeadOfFreeBlock = false →
      (change m).isHeadOfFreeBlock = false) (run : b.modifyMeta idx change = .ok b') :
    b'.Occupied secret := by
  unfold Buddy.modifyMeta at run
  split_ifs at run
  obtain rfl := Except.ok.inj run
  intro i lt isSecret
  simp only at isSecret ⊢
  by_cases eq : i = idx.toNat
  · subst eq
    rw [Function.update_self] at isSecret ⊢
    rw [keeps.owner] at isSecret
    exact flag _ (occupied _ lt isSecret)
  · rw [Function.update_of_ne eq] at isSecret ⊢
    exact occupied i lt isSecret

theorem hideOwners_mergeLoop {addr' cur' : Nat} {exit : MergeExit} : ∀ (fuel : Nat) {b b' : Buddy}
    (addr cur : Nat), b.Occupied secret → mergeLoop fuel b addr cur = .ok (b', addr', cur', exit) →
      mergeLoop fuel (b.hideOwners secret) addr cur = .ok (b'.hideOwners secret, addr',
        cur', exit) := by
  intro fuel
  induction fuel with
  | zero =>
    intro b b' addr cur _ run
    cases run
  | succ fuel ih =>
    intro b b' addr cur occupied run
    unfold mergeLoop at run ⊢
    by_cases more : cur < maxOrder
    · rw [if_pos more] at run ⊢
      simp only at run ⊢
      rw [hideOwners_addrToIndex]
      by_cases outside : b.addrToIndex (addr ^^^ (blockSize * 2 ^ cur)) < 0
      · rw [if_pos outside] at run ⊢
        simp only [Except.ok.injEq, Prod.mk.injEq] at run ⊢
        obtain ⟨rfl, rest⟩ := run
        exact ⟨rfl, rest⟩
      · rw [if_neg outside] at run ⊢
        have lt := addrToIndex_lt (Int.not_lt.mp outside)
        -- a page of a secret slab is no free head, so its owner is not asked for
        have test : ∀ i < b.num,
            (((b.hideOwners secret).blockMeta i).isHeadOfFreeBlock &&
              ((b.hideOwners secret).blockMeta i).freeOrder == cur &&
              ((b.hideOwners secret).blockMeta i).ownerSlab == 0 &&
              !((b.hideOwners secret).blockMeta i).isHeadOfAllocBlock) =
            ((b.blockMeta i).isHeadOfFreeBlock && (b.blockMeta i).freeOrder == cur &&
              (b.blockMeta i).ownerSlab == 0 && !(b.blockMeta i).isHeadOfAllocBlock) := by
          intro i iLt
          by_cases isSecret : (b.blockMeta i).ownerSlab ∈ secret
          · rw [hideOwners_secret iLt isSecret]
            simp only [occupied i iLt isSecret, Bool.false_and]
          · rw [hideOwners_owner isSecret]
        rw [test _ lt]
        by_cases free :
            ((b.blockMeta (b.addrToIndex (addr ^^^ (blockSize * 2 ^ cur))).toNat).isHeadOfFreeBlock
              &&
            (b.blockMeta (b.addrToIndex (addr ^^^ (blockSize * 2 ^ cur))).toNat).freeOrder == cur &&
            (b.blockMeta (b.addrToIndex (addr ^^^ (blockSize * 2 ^ cur))).toNat).ownerSlab == 0 &&
            !(b.blockMeta
              (b.addrToIndex (addr ^^^ (blockSize * 2 ^ cur))).toNat).isHeadOfAllocBlock) = true
        · rw [if_pos free] at run ⊢
          obtain ⟨⟨b₁, removed⟩, unlinked, run⟩ := bind_eq_ok run
          have unlinked' :
              (b.hideOwners secret).removeFromFreelist cur (addr ^^^ (blockSize * 2 ^ cur)) =
              .ok (b₁.hideOwners secret, removed) := hideOwners_removeLoop _ _ _ unlinked
          rw [unlinked']
          obtain ⟨metas, blocks⟩ := removeLoop_same _ _ _ unlinked
          have occupied₁ : b₁.Occupied secret := by
            intro i iLt isSecret
            unfold num at iLt
            rw [blocks] at iLt
            rw [metas] at isSecret ⊢
            exact occupied i iLt isSecret
          cases removed with
          | false =>
            simp only [Bool.false_eq_true, if_false] at run
            obtain ⟨rfl, rest⟩ := Prod.mk.inj (Except.ok.inj run)
            simp only [Prod.mk.injEq] at rest
            obtain ⟨rfl, rfl, rfl⟩ := rest
            rfl
          | true =>
            simp only [if_true] at run
            obtain ⟨b₂, marked, run⟩ := bind_eq_ok run
            have marked' := hideOwners_modifyMeta secret (fun _ _ => rfl) marked
            show ((b₁.hideOwners secret).modifyMeta _ _ >>= _) = _
            rw [marked']
            exact ih _ _ (occupied₁.modifyMeta (fun _ _ => rfl) (fun _ _ => rfl) marked) run
        · rw [if_neg free] at run ⊢
          simp only [Except.ok.injEq, Prod.mk.injEq] at run ⊢
          obtain ⟨rfl, rest⟩ := run
          exact ⟨rfl, rest⟩
    · rw [if_neg more] at run ⊢
      simp only [Except.ok.injEq, Prod.mk.injEq] at run ⊢
      obtain ⟨rfl, rest⟩ := run
      exact ⟨rfl, rest⟩

/-- **`buddy_free` of a block without owners does not see the owners of other blocks.** -/
theorem hideOwners_buddyFree {p : Nat} (occupied : b.Occupied secret)
    (unowned : ∀ i < b.num, b.addrToIndex p = i → (b.blockMeta i).ownerSlab = 0)
    (notSecret : 0 ∉ secret) (run : b.buddyFree p = .ok b') :
    (b.hideOwners secret).buddyFree p = .ok (b'.hideOwners secret) := by
  unfold buddyFree at run ⊢
  obtain ⟨⟨b₁, exit⟩, freed, run⟩ := bind_eq_ok run
  obtain rfl := Except.ok.inj run
  suffices hidden : (b.hideOwners secret).buddyFreeExit p = .ok (b₁.hideOwners secret, exit) by
    rw [hidden]
    rfl
  unfold buddyFreeExit at freed ⊢
  by_cases null : p = 0
  · rw [if_pos null] at freed ⊢
    obtain ⟨rfl, rfl⟩ := Prod.mk.inj (Except.ok.inj freed)
    rfl
  rw [if_neg null] at freed ⊢
  simp only at freed ⊢
  rw [hideOwners_addrToIndex]
  by_cases outside : b.addrToIndex p < 0
  · rw [if_pos outside] at freed ⊢
    obtain ⟨rfl, rfl⟩ := Prod.mk.inj (Except.ok.inj freed)
    rfl
  rw [if_neg outside] at freed ⊢
  have lt := addrToIndex_lt (Int.not_lt.mp outside)
  have none := unowned _ lt (by omega)
  have same : (b.hideOwners secret).blockMeta (b.addrToIndex p).toNat =
      b.blockMeta (b.addrToIndex p).toNat := by
    apply hideOwners_owner
    rw [none]
    exact notSecret
  rw [same]
  split_ifs at freed ⊢ with refused
  · obtain ⟨rfl, rfl⟩ := Prod.mk.inj (Except.ok.inj freed)
    rfl
  · obtain ⟨b₂, marked, freed⟩ := bind_eq_ok freed
    have marked' := hideOwners_modifyMeta secret (fun _ _ => rfl) marked
    have occupied₂ := occupied.modifyMeta (fun _ _ => rfl) (fun _ _ => by assumption) marked
    rw [marked']
    show (b₂.hideOwners secret).buddyFreeOrder p _ = _
    unfold buddyFreeOrder at freed ⊢
    rw [if_neg null] at freed ⊢
    by_cases unaligned : (p + 2 ^ 64 - b₂.managedStart) % 2 ^ 64 % blockSize ≠ 0
    · have unaligned' :
          (p + 2 ^ 64 - (b₂.hideOwners secret).managedStart) % 2 ^ 64 % blockSize ≠ 0 :=
        unaligned
      rw [if_pos unaligned] at freed
      rw [if_pos unaligned']
      obtain ⟨rfl, rfl⟩ := Prod.mk.inj (Except.ok.inj freed)
      rfl
    · have unaligned' :
          ¬ (p + 2 ^ 64 - (b₂.hideOwners secret).managedStart) % 2 ^ 64 % blockSize ≠ 0 :=
        unaligned
      rw [if_neg unaligned] at freed
      rw [if_neg unaligned']
      obtain ⟨⟨b₃, addr, cur, exit'⟩, merged, freed⟩ := bind_eq_ok freed
      obtain ⟨b₄, head, freed⟩ := bind_eq_ok freed
      obtain ⟨rfl, rfl⟩ := Prod.mk.inj (Except.ok.inj freed)
      rw [hideOwners_mergeLoop _ _ _ occupied₂ merged]
      show ((b₃.hideOwners secret).markFreeHead addr cur >>= _) = _
      rw [hideOwners_markFreeHead head]
      rfl

/-! #### The pages of one block -/

/-- Two states that differ at most in owners are told apart by an owner. -/
theorem eq_of_owners (flags : ∀ j, { b'.blockMeta j with ownerSlab := 0 } =
      { b.blockMeta j with ownerSlab := 0 })
    (owners : ∀ j, (b'.blockMeta j).ownerSlab = (b.blockMeta j).ownerSlab)
    (rest : b' = { b with blockMeta := b'.blockMeta }) : b' = b := by
  have metas : b'.blockMeta = b.blockMeta := by
    funext j
    have flag := flags j
    have owner := owners j
    rcases isLeft : b'.blockMeta j with ⟨_, _, _, _, _⟩
    rcases isRight : b.blockMeta j with ⟨_, _, _, _, _⟩
    rw [isLeft, isRight] at flag owner
    simp only [BlockMeta.mk.injEq, and_true] at flag owner
    simp only [BlockMeta.mk.injEq]
    exact ⟨flag.1, flag.2.1, flag.2.2.1, flag.2.2.2, owner⟩
  rw [rest, metas]

open Classical in
theorem hideOwners_ownerSlab (secret : Set Nat) (b : Buddy) (j : Nat) :
    ((b.hideOwners secret).blockMeta j).ownerSlab =
      if j < b.num ∧ (b.blockMeta j).ownerSlab ∈ secret then 0 else (b.blockMeta j).ownerSlab := by
  unfold hideOwners hideOwner
  simp only
  split_ifs <;> tauto

theorem withOwner_erased (b : Buddy) (i count owner j : Nat) :
    { (b.withOwner i count owner).blockMeta j with ownerSlab := 0 } =
      { b.blockMeta j with ownerSlab := 0 } := by
  unfold withOwner
  simp only
  split_ifs <;> rfl

theorem withOwner_ownerSlab (b : Buddy) (i count owner j : Nat) :
    ((b.withOwner i count owner).blockMeta j).ownerSlab =
      if i ≤ j ∧ j < i + count then owner else (b.blockMeta j).ownerSlab := by
  unfold withOwner
  simp only
  split_ifs <;> rfl

/-- A page that two states hide in the same way. -/
theorem hideOwners_owner_congr {secret' : Set Nat} {j : Nat} (num : b'.num = b.num)
    (same : (b'.blockMeta j).ownerSlab = (b.blockMeta j).ownerSlab)
    (secrets : j < b.num →
      ((b.blockMeta j).ownerSlab ∈ secret' ↔ (b.blockMeta j).ownerSlab ∈ secret)) :
    ((b'.hideOwners secret').blockMeta j).ownerSlab =
    ((b.hideOwners secret).blockMeta j).ownerSlab := by
  rw [hideOwners_ownerSlab, hideOwners_ownerSlab, num, same]
  by_cases hidden : j < b.num ∧ (b.blockMeta j).ownerSlab ∈ secret
  · rw [if_pos hidden, if_pos ⟨hidden.1, (secrets hidden.1).mpr hidden.2⟩]
  · rw [if_neg hidden, if_neg fun both => hidden ⟨both.1, (secrets both.1).mp both.2⟩]

section Block

variable {s count : Nat} (fits : i + count ≤ b.num)

include fits

/-- **Owners that are published in secret do not show.** -/
theorem hideOwners_publish
    (unowned : ∀ j, i ≤ j → j < i + count → ((b.hideOwners secret).blockMeta j).ownerSlab = 0)
    (fresh : ∀ j < b.num, ¬ (i ≤ j ∧ j < i + count) → (b.blockMeta j).ownerSlab ≠ s) :
    (b.withOwner i count s).hideOwners (insert s secret) = b.hideOwners secret := by
  refine eq_of_owners ?_ ?_ rfl
  · intro j
    rw [hideOwners_flags, hideOwners_flags, withOwner_erased]
  · intro j
    by_cases range : i ≤ j ∧ j < i + count
    · have lt : j < b.num := by omega
      rw [unowned j range.1 range.2, hideOwners_ownerSlab, withOwner_ownerSlab, if_pos range]
      exact if_pos ⟨lt, Set.mem_insert _ _⟩
    · refine hideOwners_owner_congr rfl ?_ fun lt => or_iff_right (fresh j lt range)
      rw [withOwner_ownerSlab, if_neg range]

variable (owns : ∀ j < b.num, (b.blockMeta j).ownerSlab = s ↔ i ≤ j ∧ j < i + count)

include owns

/-- **Owners that are cleared in secret do not show.** -/
theorem hideOwners_withdraw (isSecret : s ∈ secret) :
    (b.withOwner i count 0).hideOwners (secret \ {s}) = b.hideOwners secret := by
  refine eq_of_owners ?_ ?_ rfl
  · intro j
    rw [hideOwners_flags, hideOwners_flags, withOwner_erased]
  · intro j
    by_cases range : i ≤ j ∧ j < i + count
    · have lt : j < b.num := by omega
      have owner := (owns j lt).mpr range
      rw [hideOwners_secret lt (owner ▸ isSecret), hideOwners_ownerSlab, withOwner_ownerSlab,
        if_pos range, ite_self]
    · refine hideOwners_owner_congr rfl ?_ fun lt => and_iff_left fun eq =>
        range ((owns j lt).mp eq)
      rw [withOwner_ownerSlab, if_neg range]

/-- **A slab that is no secret any more owns its pages.** -/
theorem hideOwners_reveal :
    b.hideOwners (secret \ {s}) = (b.hideOwners secret).withOwner i count s := by
  refine eq_of_owners ?_ ?_ rfl
  · intro j
    rw [hideOwners_flags, withOwner_erased, hideOwners_flags]
  · intro j
    rw [withOwner_ownerSlab]
    by_cases range : i ≤ j ∧ j < i + count
    · have owner := (owns j (by omega)).mpr range
      rw [if_pos range, hideOwners_owner fun member => member.2 owner, owner]
    · rw [if_neg range]
      exact hideOwners_owner_congr rfl rfl fun lt => and_iff_left fun eq =>
        range ((owns j lt).mp eq)

/-- **A slab that becomes a secret owns no page any more.** -/
theorem hideOwners_conceal :
    b.hideOwners (insert s secret) = (b.hideOwners secret).withOwner i count 0 := by
  refine eq_of_owners ?_ ?_ rfl
  · intro j
    rw [hideOwners_flags, withOwner_erased, hideOwners_flags]
  · intro j
    rw [withOwner_ownerSlab]
    by_cases range : i ≤ j ∧ j < i + count
    · have lt : j < b.num := by omega
      rw [if_pos range, hideOwners_secret lt ((owns j lt).mpr range ▸ Set.mem_insert _ _)]
    · rw [if_neg range]
      exact hideOwners_owner_congr rfl rfl fun lt => or_iff_right fun eq =>
        range ((owns j lt).mp eq)

end Block

end HideOwners

end Buddy

namespace Kmem

open Classical in
/-- The allocator, with the descriptors `transit` not used and the slabs `secret` owning no page. -/
noncomputable def hide (transit secret : Set Nat) (k : Kmem) : Kmem :=
  { k with
    toBuddy := k.toBuddy.hideOwners secret
    desc := fun c => if c ∈ transit then { k.desc c with isUsed := false } else k.desc c }

/-- A change to a descriptor that leaves alone whether it is used. -/
def KeepsFlag (change : KmemCache → KmemCache) : Prop :=
  ∀ d flag, change { d with isUsed := flag } = { change d with isUsed := flag }

section Hide

variable {transit secret : Set Nat} {k : Kmem} {c : Nat}

@[simp] theorem hide_mem : (k.hide transit secret).mem = k.mem := rfl

theorem hide_desc_of_notMem (settled : c ∉ transit) : (k.hide transit secret).desc c = k.desc c :=
  if_neg settled

theorem hide_desc_of_mem (moving : c ∈ transit) :
    (k.hide transit secret).desc c = { k.desc c with isUsed := false } := if_pos moving

/-- Everything but the flag of a descriptor shows. -/
theorem hide_field {β : Type} (f : KmemCache → β)
    (blind : ∀ d flag, f { d with isUsed := flag } = f d) (c : Nat) :
    f ((k.hide transit secret).desc c) = f (k.desc c) := by
  by_cases moving : c ∈ transit
  · rw [hide_desc_of_mem moving]
    exact blind _ _
  · rw [hide_desc_of_notMem moving]

@[simp] theorem hide_head (c : Nat) (list : SlabList) :
    ((k.hide transit secret).desc c).head list = (k.desc c).head list :=
  hide_field (fun d => d.head list) (fun _ _ => by cases list <;> rfl) c

@[simp] theorem hide_slabOrder (c : Nat) :
    ((k.hide transit secret).desc c).slabOrder = (k.desc c).slabOrder :=
  hide_field KmemCache.slabOrder (fun _ _ => rfl) c

@[simp] theorem hide_objsPerSlab (c : Nat) :
    ((k.hide transit secret).desc c).objsPerSlab = (k.desc c).objsPerSlab :=
  hide_field KmemCache.objsPerSlab (fun _ _ => rfl) c

@[simp] theorem hide_slabBytes (c : Nat) :
    ((k.hide transit secret).desc c).slabBytes = (k.desc c).slabBytes :=
  hide_field KmemCache.slabBytes (fun _ _ => rfl) c

theorem hide_used : (k.hide transit secret).Used c ↔ c ∉ transit ∧ k.Used c := by
  by_cases moving : c ∈ transit
  · unfold Used
    rw [hide_desc_of_mem moving]
    simp [moving]
  · unfold Used
    rw [hide_desc_of_notMem moving]
    simp only [moving, not_false_eq_true, true_and]
    exact Iff.rfl

theorem hide_empty (k : Kmem) : k.hide ∅ ∅ = k := by
  have descs : (k.hide ∅ ∅).desc = k.desc := by
    funext c
    exact hide_desc_of_notMem (Set.notMem_empty _)
  have buddy : (k.hide ∅ ∅).toBuddy = k.toBuddy := Buddy.hideOwners_empty _
  calc k.hide ∅ ∅ = { k with toBuddy := (k.hide ∅ ∅).toBuddy, desc := (k.hide ∅ ∅).desc } := rfl
    _ = k := by rw [descs, buddy]

theorem hide_setMem (mem : Mem) :
    (k.setMem mem).hide transit secret = (k.hide transit secret).setMem mem :=
  rfl

theorem hide_setBuddy (b : Buddy) :
    (k.setBuddy b).hide transit secret = (k.hide transit secret).setBuddy (b.hideOwners secret) :=
    rfl

/-- Other secrets, when they show in the owners of a block only. -/
theorem hide_withOwner {secret' : Set Nat} {i count owner : Nat}
    (owners : k.toBuddy.hideOwners secret' =
      (k.toBuddy.hideOwners secret).withOwner i count owner) :
    k.hide transit secret' = (k.hide transit secret).setBuddy
      ((k.hide transit secret).toBuddy.withOwner i count owner) :=
  congrArg (k.hide transit secret).setBuddy owners

theorem hide_modifyDesc {change : KmemCache → KmemCache} (keeps : KeepsFlag change) (c : Nat) :
    (k.modifyDesc c change).hide transit secret = (k.hide transit secret).modifyDesc c change := by
  have descs : ((k.modifyDesc c change).hide transit secret).desc =
      ((k.hide transit secret).modifyDesc c change).desc := by
    funext a
    by_cases eq : a = c
    · subst eq
      rw [modifyDesc_self]
      by_cases moving : a ∈ transit
      · rw [hide_desc_of_mem moving, hide_desc_of_mem moving, modifyDesc_self]
        exact (keeps _ _).symm
      · rw [hide_desc_of_notMem moving, hide_desc_of_notMem moving, modifyDesc_self]
    · rw [modifyDesc_of_ne _ _ eq]
      by_cases moving : a ∈ transit
      · rw [hide_desc_of_mem moving, hide_desc_of_mem moving, modifyDesc_of_ne _ _ eq]
      · rw [hide_desc_of_notMem moving, hide_desc_of_notMem moving, modifyDesc_of_ne _ _ eq]
  calc (k.modifyDesc c change).hide transit secret
      = { k.hide transit secret with desc := ((k.modifyDesc c change).hide transit secret).desc } :=
      rfl
    _ = (k.hide transit secret).modifyDesc c change := by rw [descs]; rfl

/-- A descriptor goes into transit. -/
theorem hide_insert (transit secret : Set Nat) (k : Kmem) (c : Nat) :
    k.hide (insert c transit) secret =
    (k.hide transit secret).modifyDesc c fun d => { d with isUsed := false } := by
  have descs : (k.hide (insert c transit) secret).desc =
      ((k.hide transit secret).modifyDesc c fun d => { d with isUsed := false }).desc := by
    funext a
    by_cases eq : a = c
    · subst eq
      rw [hide_desc_of_mem (Set.mem_insert _ _), modifyDesc_self]
      exact (hide_field (fun d => ({ d with isUsed := false } : KmemCache)) (fun _ _ => rfl) a).symm
    · rw [modifyDesc_of_ne _ _ eq]
      by_cases moving : a ∈ transit
      · rw [hide_desc_of_mem moving, hide_desc_of_mem (Set.mem_insert_of_mem _ moving)]
      · rw [hide_desc_of_notMem moving,
          hide_desc_of_notMem fun member => moving (member.resolve_left eq)]
  calc k.hide (insert c transit) secret
      = { k.hide transit secret with desc := (k.hide (insert c transit) secret).desc } := rfl
    _ = (k.hide transit secret).modifyDesc c fun d => { d with isUsed := false } := by
      rw [descs]; rfl

/-- A descriptor comes out of transit. -/
theorem hide_sdiff (transit secret : Set Nat) (k : Kmem) (c : Nat) : k.hide (transit \ {c}) secret =
    (k.hide transit secret).modifyDesc c fun _ => k.desc c := by
  have descs : (k.hide (transit \ {c}) secret).desc =
      ((k.hide transit secret).modifyDesc c fun _ => k.desc c).desc := by
    funext a
    by_cases eq : a = c
    · subst eq
      rw [hide_desc_of_notMem fun member => member.2 rfl, modifyDesc_self]
    · rw [modifyDesc_of_ne _ _ eq]
      by_cases moving : a ∈ transit
      · have stays : a ∈ transit \ {c} := ⟨moving, eq⟩
        rw [hide_desc_of_mem moving, hide_desc_of_mem stays]
      · rw [hide_desc_of_notMem moving, hide_desc_of_notMem fun member => moving member.1]
  calc k.hide (transit \ {c}) secret
      = { k.hide transit secret with desc := (k.hide (transit \ {c}) secret).desc } := rfl
    _ = (k.hide transit secret).modifyDesc c fun _ => k.desc c := by rw [descs]; rfl

/-- A quiet step is quiet without what is hidden. -/
theorem Quiet.hide {k' : Kmem} {touched : Set Nat} (quiet : Quiet k k' touched)
    (transit secret : Set Nat) :
    Quiet (k.hide transit secret) (k'.hide transit secret) touched where
  mem := quiet.mem
  layout := by
    intro c
    by_cases moving : c ∈ transit
    · rw [hide_desc_of_mem moving, hide_desc_of_mem moving]
      exact congrArg (fun d : KmemCache => { d with isUsed := false }) (quiet.layout c)
    · rw [hide_desc_of_notMem moving, hide_desc_of_notMem moving]
      exact quiet.layout c
  rest := by
    have buddy :
        k'.toBuddy.hideOwners secret = { k.toBuddy.hideOwners secret with mem := k'.mem } := by
      rw [quiet.toBuddy]
      rfl
    calc k'.hide transit secret
        = { k' with toBuddy := k'.toBuddy.hideOwners secret, desc := (k'.hide transit secret).desc }
        := rfl
      _ = { k.hide transit secret with
            mem := k'.mem, desc := (k'.hide transit secret).desc } := by
          rw [buddy, quiet.rest]
          rfl

theorem keepsFlag_setHead (list : SlabList) (s : Nat) : KeepsFlag fun d => d.setHead list s := by
  intro d flag
  cases list <;> rfl

/-! #### Lists and objects -/

theorem hide_slabListPushFront (c : Nat) (list : SlabList) (s : Nat) :
    (k.hide transit secret).slabListPushFront c list s =
      (k.slabListPushFront c list s).hide transit secret := by
  unfold slabListPushFront
  simp only [hide_head]
  rw [hide_modifyDesc (keepsFlag_setHead list s), hide_setMem]
  rfl

theorem hide_slabListPopFront (c : Nat) (list : SlabList) :
    (k.hide transit secret).slabListPopFront c list =
      ((k.slabListPopFront c list).1.hide transit secret, (k.slabListPopFront c list).2) := by
  unfold slabListPopFront
  simp only [hide_head]
  by_cases null : (k.desc c).head list = 0
  · rw [if_pos null, if_pos null]
  · rw [if_neg null, if_neg null]
    simp only
    rw [hide_modifyDesc (keepsFlag_setHead list _), hide_setMem]
    rfl

theorem hide_slabListRemoveNode (c : Nat) (list : SlabList) (s : Nat) :
    (k.hide transit secret).slabListRemoveNode c list s =
      (k.slabListRemoveNode c list s).hide transit secret := by
  unfold slabListRemoveNode
  simp only
  rw [hide_mem]
  by_cases first : slabPrev k.mem s ≠ 0
  · rw [if_pos first, if_pos first, hide_setMem, hide_setMem]
    rfl
  · rw [if_neg first, if_neg first, hide_setMem, hide_modifyDesc (keepsFlag_setHead list _)]
    rfl

theorem hide_slabAllocObj (c s : Nat) : (k.hide transit secret).slabAllocObj c s =
    ((k.slabAllocObj c s).1.hide transit secret, (k.slabAllocObj c s).2) := by
  have pointer : ∀ x, slabObjPtr ((k.hide transit secret).desc c) s x = slabObjPtr (k.desc c) s x :=
    fun x => hide_field (fun d => slabObjPtr d s x) (fun _ _ => rfl) c
  unfold slabAllocObj
  simp only [hide_mem, pointer]
  split_ifs <;> rfl

/-- **Taking an object does not see what is hidden.** -/
theorem hide_takeObject (c s : Nat) : (k.hide transit secret).takeObject c s =
    ((k.takeObject c s).1.hide transit secret, (k.takeObject c s).2) := by
  unfold takeObject
  rw [hide_slabAllocObj]
  simp only [hide_mem, hide_objsPerSlab]
  split_ifs
  · rw [hide_modifyDesc fun _ _ => rfl]
  · rw [hide_slabListRemoveNode, hide_slabListPushFront]
  · rfl

/-! #### The cache list -/

theorem hide_addToCacheList (c : Nat) : (k.hide transit secret).addToCacheList c =
    (k.addToCacheList c).hide transit secret := by
  unfold addToCacheList
  by_cases empty : k.headOfCacheList = 0
  · rw [if_pos empty]
    exact if_pos empty
  · rw [if_neg empty]
    refine (if_neg empty).trans ?_
    have first :
        (k.modifyDesc k.headOfCacheList fun d => { d with prev := c }).hide transit secret =
        (k.hide transit secret).modifyDesc k.headOfCacheList fun d => { d with prev := c } :=
      hide_modifyDesc (fun _ _ => rfl) k.headOfCacheList
    have second :
        ((k.modifyDesc k.headOfCacheList fun d => { d with prev := c }).modifyDesc c fun d =>
          { d with next := k.headOfCacheList }).hide transit secret =
        ((k.modifyDesc k.headOfCacheList fun d => { d with prev := c }).hide transit
          secret).modifyDesc c fun d =>
          { d with next := k.headOfCacheList } :=
      hide_modifyDesc (fun _ _ => rfl) c
    rw [first] at second
    exact congrArg (fun k' : Kmem => { k' with headOfCacheList := c }) second.symm

theorem hide_unlink (c : Nat) :
    (k.hide transit secret).unlink c = (k.unlink c).hide transit secret := by
  have next : ((k.hide transit secret).desc c).next = (k.desc c).next :=
    hide_field KmemCache.next (fun _ _ => rfl) c
  have prev : ((k.hide transit secret).desc c).prev = (k.desc c).prev :=
    hide_field KmemCache.prev (fun _ _ => rfl) c
  have redirectNext :
      ∀ k' : Kmem, (k'.hide transit secret).redirectNext (k.desc c).prev (k.desc c).next =
      (k'.redirectNext (k.desc c).prev (k.desc c).next).hide transit secret := by
    intro k'
    unfold Kmem.redirectNext
    split_ifs
    · exact (hide_modifyDesc (fun _ _ => rfl) _).symm
    · rfl
  have redirectPrev :
      ∀ k' : Kmem, (k'.hide transit secret).redirectPrev (k.desc c).prev (k.desc c).next =
      (k'.redirectPrev (k.desc c).prev (k.desc c).next).hide transit secret := by
    intro k'
    unfold Kmem.redirectPrev
    split_ifs
    · exact (hide_modifyDesc (fun _ _ => rfl) _).symm
    · rfl
  unfold unlink
  rw [next, prev, redirectNext, redirectPrev, hide_modifyDesc fun _ _ => rfl]

theorem hide_findInCacheList (c : Nat) : ∀ fuel start,
    (k.hide transit secret).findInCacheList c fuel start = k.findInCacheList c fuel start := by
  intro fuel
  induction fuel with
  | zero => exact fun _ => rfl
  | succ fuel ih =>
    intro start
    unfold findInCacheList
    rw [ih, hide_field KmemCache.next (fun _ _ => rfl) start]

end Hide

end Kmem

end Xv6Slab
