/-
**`buddy_alloc` on a represented pool.**

* `orderForPages_least` — for sizes up to `2 ^ 31`, `order_for_pages` returns the least order whose
  blocks are large enough.
* `splitLoop_spec` — the split loop frees the upper half at every order it passes, and keeps the
  lower half in hand.
* `buddyAlloc_spec` — **either no free block is large enough and nothing changes, or a free block of
  the least sufficient order is taken**, its unused halves become free, and its first `2 ^ target`
  pages become an allocated block. Only bytes of the taken block are written.
-/

import Xv6Slab.Buddy.Moves

namespace Xv6Slab

open Bytes Chains Tilings

namespace Buddy

/-! ### The order of a request -/

/-- The running power of two of `order_for_pages`, as an `int`. -/
def runningPages (order : Nat) : Int := if order ≤ 30 then 2 ^ order else -2 ^ 31

theorem runningPages_succ {order : Nat} (le : order ≤ 30) :
    (runningPages order * 2).bmod (2 ^ 32) = runningPages (order + 1) := by
  interval_cases order <;> decide

theorem toUint64_runningPages {order : Nat} (le : order ≤ 30) :
    toUint64 (runningPages order) = 2 ^ order := by
  interval_cases order <;> decide

theorem orderLoop_least {size : Nat} (bound : size ≤ 2 ^ 31) :
    ∀ fuel order, order ≤ 31 → 32 ≤ fuel + order → (∀ j < order, 2 ^ j < size) →
      ∃ t, orderLoop size fuel order (runningPages order) = .ok t ∧ t ≤ 31 ∧ size ≤ 2 ^ t ∧
        ∀ j < t, 2 ^ j < size := by
  intro fuel
  induction fuel with
  | zero => intro order le enough _; omega
  | succ fuel ih =>
    intro order le enough small
    rw [orderLoop]
    rcases Nat.lt_or_ge 30 order with top | notTop
    · have atTop : order = 31 := by omega
      subst atTop
      have large : ¬ toUint64 (runningPages 31) < size := by
        have : toUint64 (runningPages 31) = 2 ^ 64 - 2 ^ 31 := by decide
        omega
      rw [if_neg large]
      exact ⟨31, rfl, le_rfl, bound, small⟩
    · rw [toUint64_runningPages notTop]
      by_cases more : 2 ^ order < size
      · rw [if_pos more, runningPages_succ notTop]
        refine ih (order + 1) (by omega) (by omega) fun j lt => ?_
        rcases Nat.lt_succ_iff_lt_or_eq.mp lt with before | rfl
        · exact small j before
        · exact more
      · rw [if_neg more]
        exact ⟨order, rfl, le, by omega, small⟩

/-- **`order_for_pages` returns the least sufficient order**, for every size up to `2 ^ 31`. -/
theorem orderForPages_least {size : Nat} (bound : size ≤ 2 ^ 31) :
    ∃ t, orderForPages size = .ok t ∧ t ≤ 31 ∧ size ≤ 2 ^ t ∧ ∀ j < t, 2 ^ j < size :=
  orderLoop_least bound 34 0 (by omega) (by omega) fun _ lt => absurd lt (Nat.not_lt_zero _)

theorem orderForPages_two_pow {j : Nat} (le : j ≤ maxOrder) : orderForPages (2 ^ j) = .ok j := by
  have bound : 2 ^ j ≤ 2 ^ 15 := Nat.pow_le_pow_right (by decide) le
  obtain ⟨t, isOrder, _, enough, least⟩ := orderForPages_least
    (show 2 ^ j ≤ 2 ^ 31 by omega)
  have large : j ≤ t := (Nat.pow_le_pow_iff_right (by decide)).mp enough
  have small : ¬ j < t := fun lt => lt_irrefl _ (least j lt)
  rw [isOrder, show t = j by omega]

/-! ### The first order with a free block -/

theorem findOrder_spec (b : Buddy) :
    ∀ fuel k, maxOrder + 1 ≤ fuel + k →
      k ≤ b.findOrder fuel k ∧ (∀ j, k ≤ j → j < b.findOrder fuel k → b.freeArea j = 0) ∧
        (b.findOrder fuel k ≤ maxOrder → b.freeArea (b.findOrder fuel k) ≠ 0) := by
  intro fuel
  induction fuel with
  | zero =>
    intro k enough
    refine ⟨le_rfl, fun j low high => absurd low (not_le.mpr high), fun le => ?_⟩
    simp only [findOrder, maxOrder] at *
    omega
  | succ fuel ih =>
    intro k enough
    rw [findOrder]
    split_ifs with more
    · obtain ⟨le, empty, found⟩ := ih (k + 1) (by omega)
      refine ⟨by omega, fun j low high => ?_, found⟩
      rcases Nat.eq_or_lt_of_le low with rfl | above
      · exact more.2
      · exact empty j above high
    · refine ⟨le_rfl, fun j low high => absurd low (not_le.mpr high), fun le empty => ?_⟩
      exact more ⟨le, empty⟩

/-! ### Splitting -/

/-- The upper halves that splitting a block of order `k` down to `target` sets free. -/
def halves (i target k : Nat) : Set Block :=
  {c | target ≤ c.order ∧ c.order < k ∧ c.index = i + 2 ^ c.order}

theorem halves_succ {i target k : Nat} (lt : target < k + 1) :
    halves i target (k + 1) = insert ⟨i + 2 ^ k, k⟩ (halves i target k) := by
  ext ⟨j, l⟩
  simp only [halves, Set.mem_insert_iff, Set.mem_ofPred_eq, Block.mk.injEq]
  constructor
  · rintro ⟨low, high, index⟩
    rcases Nat.lt_succ_iff_lt_or_eq.mp high with before | rfl
    · exact Or.inr ⟨low, before, index⟩
    · exact Or.inl ⟨index, rfl⟩
  · rintro (⟨index, rfl⟩ | ⟨low, high, index⟩)
    · exact ⟨by omega, Nat.lt_succ_self _, index⟩
    · exact ⟨low, by omega, index⟩

theorem halves_self (i target k : Nat) (le : k ≤ target) : halves i target k = ∅ := by
  ext c
  simp only [halves, Set.mem_ofPred_eq, Set.mem_empty_iff_false, iff_false]
  omega

/-- **The split loop.** -/
theorem splitLoop_spec {i target : Nat} :
    ∀ (k : Nat) {b : Buddy} {free alloc : Set Block}, b.Rep free alloc →
      InHand maxOrder b.num free alloc ⟨i, k⟩ → target ≤ k →
      ∃ b', splitLoop (b.page i) target k b = .ok b' ∧
        Effect b b' (free ∪ halves i target k) alloc (b.span {⟨i, k⟩}) ∧
        InHand maxOrder b.num (free ∪ halves i target k) alloc ⟨i, target⟩ := by
  intro k
  induction k with
  | zero =>
    intro b free alloc rep held le
    have atZero : target = 0 := by omega
    subst atZero
    rw [halves_self _ _ _ le_rfl, Set.union_empty]
    exact ⟨b, rfl, rep.refl _, held⟩
  | succ k ih =>
    intro b free alloc rep held le
    rcases Nat.eq_or_lt_of_le le with rfl | lt
    · rw [halves_self _ _ _ le_rfl, Set.union_empty]
      exact ⟨b, by rw [splitLoop, if_neg (lt_irrefl _)], rep.refl _, held⟩
    · have upper : (⟨i, k + 1⟩ : Block).Covers (i + 2 ^ k) :=
        (Block.covers_halves i k _).mpr (Or.inr (Block.covers_index _))
      have upperLt : i + 2 ^ k < b.num := held.tiling.lt_of_covers (Set.mem_insert _ _) upper
      have address : (b.page i + blockSize * 2 ^ k) % 2 ^ 64 = b.page (i + 2 ^ k) := by
        have bound := rep.region.page_lt upperLt
        rw [b.page_add] at bound ⊢
        show (b.page i + 4096 * 2 ^ k) % 2 ^ 64 = _
        rw [Nat.mul_comm 4096]
        exact Nat.mod_eq_of_lt (by omega)
      have fresh : ∀ l, ⟨i + 2 ^ k, l⟩ ∉ free := fun l inFree => held.not_free_inside inFree upper
      have orderLe : k ≤ maxOrder := (Nat.le_succ k).trans (held.order_le _ (Set.mem_insert _ _))
      obtain ⟨b₁, marked, freed⟩ := rep.insertFree upperLt orderLe fresh
      have held' := held.split
      rw [← freed.same.num] at held'
      obtain ⟨b', run, effect, rest⟩ := ih freed.rep held' (by omega)
      rw [freed.same.page] at run
      have sets : insert ⟨i + 2 ^ k, k⟩ free ∪ halves i target k =
          free ∪ halves i target (k + 1) := by
        rw [halves_succ lt, Set.union_insert, Set.insert_union]
      rw [sets, freed.same.span] at effect
      rw [sets, freed.same.num] at rest
      refine ⟨b', ?_, ?_, rest⟩
      · rw [splitLoop, if_pos lt]
        simp only [address]
        rw [marked]
        exact run
      · refine Effect.trans (freed.mono ?_) (effect.mono (span_mono ?_))
        · refine (link_mem_span (c := ⟨i + 2 ^ k, k⟩) (Set.mem_singleton _)).trans (span_mono ?_)
          rintro c rfl p covers
          exact ⟨_, rfl, (Block.covers_halves i k p).mpr (Or.inr covers)⟩
        · rintro c rfl p covers
          exact ⟨_, rfl, (Block.covers_halves i k p).mpr (Or.inl covers)⟩

/-! ### The whole call -/

/-- **`buddy_alloc`.** -/
theorem buddyAlloc_spec {b : Buddy} {free alloc : Set Block} (rep : b.Rep free alloc)
    (pool : Pool maxOrder b.num free alloc) {size target : Nat} (pos : size ≠ 0)
    (order : orderForPages size = .ok target) :
    (b.buddyAlloc size = .ok (b, 0) ∧ ∀ c ∈ free, c.order < target) ∨
    ∃ i k b', ⟨i, k⟩ ∈ free ∧ target ≤ k ∧ (∀ c ∈ free, target ≤ c.order → k ≤ c.order) ∧
      b.buddyAlloc size = .ok (b', b.page i) ∧
      Effect b b' (free \ {⟨i, k⟩} ∪ halves i target k) (insert ⟨i, target⟩ alloc)
        (b.span {⟨i, k⟩}) ∧
      Pool maxOrder b.num (free \ {⟨i, k⟩} ∪ halves i target k) (insert ⟨i, target⟩ alloc) := by
  have unfolded : b.buddyAlloc size = (do
      if maxOrder < target then return (b, 0)
      let k := b.findOrder (maxOrder + 1) target
      if maxOrder < k then return (b, 0)
      let popped ← b.popFree k
      let b ← popped.1.markNotFreeHead popped.2
      let b ← splitLoop popped.2 target k b
      let b ← b.modifyMeta (b.addrToIndex popped.2) fun m =>
        { m with isHeadOfAllocBlock := true, allocOrder := target, isHeadOfFreeBlock := false }
      return (b, popped.2)) := by
    rw [buddyAlloc, if_neg pos, order]
    rfl
  rw [unfolded]
  by_cases tooLarge : maxOrder < target
  · left
    rw [if_pos tooLarge]
    exact ⟨rfl, fun c member => lt_of_le_of_lt (pool.order_le c (Or.inl member)) tooLarge⟩
  · rw [if_neg tooLarge]
    obtain ⟨le, empty, found⟩ := b.findOrder_spec (maxOrder + 1) target (by omega)
    generalize b.findOrder (maxOrder + 1) target = k at *
    -- a free block of an order below the one found would head a list that the search saw empty
    have least : ∀ c ∈ free, target ≤ c.order → k ≤ c.order := by
      intro c member low
      by_contra high
      have none := empty c.order low (by omega)
      rcases rep.lists.head_cases (k := c.order) (pool.order_le c (Or.inl member)) with
        ⟨_, absent⟩ | ⟨i, _, same⟩
      · exact absent c.index member
      · rw [none] at same
        exact rep.region.page_pos.ne same
    by_cases exhausted : maxOrder < k
    · left
      show (if maxOrder < k then _ else _) = _ ∧ _
      rw [if_pos exhausted]
      refine ⟨rfl, fun c member => ?_⟩
      by_contra high
      have := least c member (by omega)
      exact absurd (pool.order_le c (Or.inl member)) (by omega)
    · right
      have kLe : k ≤ maxOrder := by omega
      obtain ⟨i, b₁, member, popped, taken⟩ := rep.pop kLe (found kLe)
      have held := pool.take member
      have lt : i < b.num := held.index_lt
      have freshFree : ∀ l, ⟨i, l⟩ ∉ free \ {⟨i, k⟩} := fun l inFree =>
        held.not_free_inside inFree (Block.covers_index _)
      obtain ⟨b₂, marked, cleared⟩ :=
        taken.rep.markNotFreeHead (i := i) (by rw [taken.same.num]; exact lt) freshFree
      rw [taken.same.page] at marked
      have same₂ := taken.same.trans cleared.same
      have held₂ : InHand maxOrder b₂.num (free \ {⟨i, k⟩}) alloc ⟨i, k⟩ := by
        rw [same₂.num]
        exact held
      obtain ⟨b₃, run, split, held₃⟩ := splitLoop_spec k cleared.rep held₂ le
      rw [same₂.page] at run
      rw [same₂.span] at split
      rw [same₂.num] at held₃
      have same₃ := same₂.trans split.same
      obtain ⟨b₄, done, final⟩ := split.rep.insertAlloc (i := i) (k := target)
        (by rw [same₃.num]; exact lt)
        (fun l inFree => held₃.not_free_inside inFree (Block.covers_index _))
        (fun l inAlloc => held₃.not_taken_inside inAlloc (Block.covers_index _))
      rw [same₃.page] at done
      refine ⟨i, k, b₄, member, le, least, ?_, ?_, held₃.putTaken⟩
      · show (if maxOrder < k then _ else _) = _
        rw [if_neg exhausted, popped]
        show (b₁.markNotFreeHead (b.page i) >>= _) = _
        rw [marked]
        show (splitLoop (b.page i) target k b₂ >>= _) = _
        rw [run]
        show (b₃.modifyMeta (b₃.addrToIndex (b.page i)) _ >>= _) = _
        rw [done]
        rfl
      · exact (((taken.mono (Set.empty_subset _)).trans (cleared.mono (Set.empty_subset _))).trans
          split).trans (final.mono (Set.empty_subset _))

/-- **When `buddy_alloc` succeeds** only depends on the orders of the free blocks. -/
theorem buddyAlloc_succeeds_iff {b : Buddy} {free alloc : Set Block} (rep : b.Rep free alloc)
    (pool : Pool maxOrder b.num free alloc) (size : Nat) :
    (∃ b' blk, b.buddyAlloc size = .ok (b', blk) ∧ blk ≠ 0) ↔
      size ≠ 0 ∧ ∃ target, orderForPages size = .ok target ∧ ∃ c ∈ free, target ≤ c.order := by
  by_cases zero : size = 0
  · rw [buddyAlloc, if_pos zero]
    simp [zero]
  · cases isOrder : orderForPages size with
    | error fault =>
      have failed : b.buddyAlloc size = .error fault := by
        rw [buddyAlloc, if_neg zero, isOrder]
        rfl
      simp [failed]
    | ok target =>
      simp only [ne_eq, zero, not_false_eq_true, true_and, Except.ok.injEq, exists_eq_left']
      rcases buddyAlloc_spec rep pool zero isOrder with
        ⟨run, small⟩ | ⟨i, k, b', member, le, _, run, _, _⟩
      · constructor
        · rintro ⟨b', blk, call, found⟩
          rw [run, Except.ok.injEq, Prod.mk.injEq] at call
          exact absurd call.2.symm found
        · rintro ⟨c, member, large⟩
          exact absurd (small c member) (not_lt.mpr large)
      · exact ⟨fun _ => ⟨_, member, le⟩, fun _ => ⟨b', _, run, rep.region.page_pos.ne'⟩⟩

end Buddy

end Xv6Slab
