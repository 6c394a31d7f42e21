/-
**Releases of a buddy system commute.**

A release takes a taken block in hand, merges it along its cascade and puts the result among the
free blocks. Partners are mutual (`Mutual`), so a free block is consumed by at most one of two
cascades, and two cascades only meet when their results are partners of each other.

* `Cascade.functional`, `exists_cascade` — a cascade is a function of the free blocks and the block
  in hand.
* `Cascade.resume` — a cascade takes the same way in other free blocks, as long as these hold the
  partners it needs.
* `Release.diamond` — **two releases in either order leave the same free blocks**, and
  `Releases.perm`: so do the releases of any number of blocks in any order.
-/

import Xv6Slab.Lib.Pool

namespace Tilings

variable {partner : Block → Option Block} {top n : Nat} {free free' free₂ taken : Set Block}
  {hand hand' x y : Block} {q : Nat}

/-- Partners are mutual. -/
def Mutual (partner : Block → Option Block) (top n : Nat) : Prop :=
  ∀ b c, b.index < n → b.order < top → partner b = some c → c.index < n ∧ partner c = some b

/-! ### A cascade as a function -/

theorem Cascade.functional {free₁ free₂ : Set Block} {hand₁ hand₂ : Block}
    (first : Cascade partner top free hand free₁ hand₁)
    (second : Cascade partner top free hand free₂ hand₂) : free₁ = free₂ ∧ hand₁ = hand₂ := by
  induction first with
  | stop done =>
    cases second with
    | stop _ => exact ⟨rfl, rfl⟩
    | merge below isPartner member _ => exact absurd member (done below _ isPartner)
  | merge below isPartner member _ ih =>
    cases second with
    | stop done => exact absurd member (done below _ isPartner)
    | merge _ isPartner' _ rest =>
      rw [isPartner, Option.some.injEq] at isPartner'
      subst isPartner'
      exact ih rest

theorem exists_cascade (partner : Block → Option Block) (top : Nat) : ∀ (d : Nat) (free : Set Block)
    (hand : Block), top ≤ hand.order + d →
    ∃ free' hand', Cascade partner top free hand free' hand' := by
  intro d
  induction d with
  | zero =>
    intro free hand high
    exact ⟨free, hand, .stop fun below => absurd below (Nat.not_lt.mpr high)⟩
  | succ d ih =>
    intro free hand high
    by_cases more : hand.order < top ∧ ∃ c, partner hand = some c ∧ c ∈ free
    · obtain ⟨below, c, isPartner, member⟩ := more
      obtain ⟨free', hand', rest⟩ := ih (free \ {c}) ⟨min hand.index c.index, hand.order + 1⟩
        (by simp only; omega)
      exact ⟨free', hand', .merge below isPartner member rest⟩
    · exact ⟨free, hand, .stop fun below c isPartner member => more ⟨below, c, isPartner, member⟩⟩

/-- Where a cascade ends, no partner is free. -/
theorem Cascade.stopped (run : Cascade partner top free hand free' hand') :
    hand'.order < top → ∀ c, partner hand' = some c → c ∉ free' := by
  induction run with
  | stop done => exact done
  | merge _ _ _ _ ih => exact ih

/-- A cascade only consumes free blocks. -/
theorem Cascade.subset (run : Cascade partner top free hand free' hand') : free' ⊆ free := by
  induction run with
  | stop _ => exact Set.Subset.rfl
  | merge _ _ _ _ ih => exact ih.trans Set.sdiff_subset

/-! ### The way of a cascade -/

/-- A merged block covers what its part in hand covered. -/
theorem covers_merge {c : Block} (side : c.index = hand.index + 2 ^ hand.order ∨
    hand.index = c.index + 2 ^ hand.order) (covers : hand.Covers q) :
    (⟨min hand.index c.index, hand.order + 1⟩ : Block).Covers q := by
  obtain ⟨low, high⟩ := covers
  refine ⟨le_trans (min_le_left _ _) low, ?_⟩
  simp only [pow_succ]
  omega

/-- The block in hand at the end covers what it covered at the start. -/
theorem Cascade.covers (neighbours : Neighbours partner top n)
    (run : Cascade partner top free hand free' hand') (held : InHand top n free taken hand)
    (covers : hand.Covers q) : hand'.Covers q := by
  induction run with
  | stop _ => exact covers
  | @merge free free' hand c hand' below isPartner member _ ih =>
    obtain ⟨order, side⟩ := neighbours hand c held.index_lt below isPartner
    obtain ⟨j, l⟩ := c
    subst order
    exact ih (held.merge below member side) (covers_merge side covers)

/-- A block that a cascade consumes was the partner of the block in hand, which covers no taken
block. -/
theorem Cascade.consumed (neighbours : Neighbours partner top n)
    (run : Cascade partner top free hand free' hand') (held : InHand top n free taken hand)
    {c : Block} (member : c ∈ free) (gone : c ∉ free') :
    ∃ h : Block, h.index < n ∧ h.order < top ∧ partner h = some c ∧
    ∀ d ∈ taken, ¬ h.Covers d.index := by
  induction run with
  | stop _ => exact absurd member gone
  | @merge free free' hand d hand' below isPartner inFree _ ih =>
    by_cases eq : c = d
    · subst eq
      exact ⟨hand, held.index_lt, below, isPartner, fun d inTaken => held.not_taken_inside inTaken⟩
    · obtain ⟨order, side⟩ := neighbours hand d held.index_lt below isPartner
      obtain ⟨j, l⟩ := d
      subst order
      exact ih (held.merge below inFree side) ⟨member, eq⟩ gone

/-- **A cascade takes the same way in other free blocks** that hold the partners it meets, and goes
on from where it ended. -/
theorem Cascade.resume (neighbours : Neighbours partner top n)
    (run : Cascade partner top free hand free' hand') (held : InHand top n free taken hand)
    (covers : hand.Covers q)
    (agree : ∀ h c : Block, h.index < n → h.order < top → h.Covers q → partner h = some c →
      c ∈ free → c ∈ free₂)
    {final : Set Block} {last : Block}
    (rest : Cascade partner top (free₂ \ (free \ free')) hand' final last) :
    Cascade partner top free₂ hand final last := by
  induction run generalizing free₂ with
  | stop _ =>
    rw [Set.sdiff_self, Set.sdiff_empty] at rest
    exact rest
  | @merge free free' hand c hand' below isPartner member run ih =>
    obtain ⟨order, side⟩ := neighbours hand c held.index_lt below isPartner
    obtain ⟨j, l⟩ := c
    subst order
    have there := agree hand _ held.index_lt below covers isPartner member
    refine .merge below isPartner there
      (ih (held.merge below member side) (covers_merge side covers) ?_ ?_)
    · intro h d lt low covers' isPartner' inFree
      exact ⟨agree h d lt low covers' isPartner' inFree.1, inFree.2⟩
    · -- the partner is consumed, so leaving it out first makes no difference
      have consumed : (⟨j, hand.order⟩ : Block) ∉ free' := fun inFree => (run.subset inFree).2 rfl
      have same : (free₂ \ {⟨j, hand.order⟩}) \ ((free \ {⟨j, hand.order⟩}) \ free') =
          free₂ \ (free \ free') := by
        ext d
        by_cases eq : d = ⟨j, hand.order⟩
        · subst eq
          simp [member, consumed]
        · simp [eq]
      rw [same]
      exact rest

/-! ### Two releases -/

/-- A taken block is released. -/
def Release (partner : Block → Option Block) (top : Nat) (free : Set Block) (x : Block)
    (free' : Set Block) : Prop :=
  ∃ rest hand, Cascade partner top free x rest hand ∧ free' = insert hand rest

theorem Release.functional {free₁ free₂ : Set Block} (first : Release partner top free x free₁)
    (second : Release partner top free x free₂) : free₁ = free₂ := by
  obtain ⟨rest₁, hand₁, run₁, rfl⟩ := first
  obtain ⟨rest₂, hand₂, run₂, rfl⟩ := second
  obtain ⟨rfl, rfl⟩ := run₁.functional run₂
  rfl

theorem exists_release (partner : Block → Option Block) (top : Nat) (free : Set Block) (x : Block) :
    ∃ free', Release partner top free x free' := by
  obtain ⟨rest, hand, run⟩ := exists_cascade partner top top free x (Nat.le_add_left _ _)
  exact ⟨_, rest, hand, run, rfl⟩

theorem Release.pool (neighbours : Neighbours partner top n) (pool : Pool top n free taken)
    (member : x ∈ taken) (release : Release partner top free x free') :
    Pool top n free' (taken \ {x}) := by
  obtain ⟨rest, hand, run, rfl⟩ := release
  exact ((pool.release member).cascade neighbours run).putFree

section Diamond

variable {free₁ free₂ rest₁ rest₂ : Set Block} {hand₁ hand₂ : Block}

/-- The result of a release was not free before. -/
theorem Cascade.result_fresh (neighbours : Neighbours partner top n) (pool : Pool top n free taken)
    (member : x ∈ taken) (run : Cascade partner top free x free' hand) : hand ∉ free := by
  intro inFree
  have covers := run.covers neighbours (pool.release member) x.covers_index
  have same := pool.tiling.once hand (Or.inl inFree) x (Or.inr member) x.index covers x.covers_index
  exact pool.disjoint x (same ▸ inFree) member

/-- The blocks on the way of one release are not consumed by the other. -/
theorem Cascade.keeps_partners (neighbours : Neighbours partner top n)
    (mutual_ : Mutual partner top n) (pool : Pool top n free taken) (xTaken : x ∈ taken)
    (yTaken : y ∈ taken) (ne : x ≠ y) (run : Cascade partner top free x rest₁ hand₁) {h c : Block}
    (lt : h.index < n) (below : h.order < top) (covers : h.Covers y.index)
    (isPartner : partner h = some c) (inFree : c ∈ free) : c ∈ rest₁ := by
  by_contra gone
  obtain ⟨h', lt', below', isPartner', apart⟩ :=
    run.consumed neighbours (pool.release xTaken) inFree gone
  -- the partner of `c` is both the block in hand of the first cascade and that of the second
  have back := (mutual_ h c lt below isPartner).2
  have back' := (mutual_ h' c lt' below' isPartner').2
  rw [back, Option.some.injEq] at back'
  subst back'
  exact apart y ⟨yTaken, Ne.symm ne⟩ covers

/-- The second of two releases, whose results are not partners of each other. -/
theorem Cascade.after_apart (neighbours : Neighbours partner top n) (mutual_ : Mutual partner top n)
    (pool : Pool top n free taken) (xTaken : x ∈ taken) (yTaken : y ∈ taken) (ne : x ≠ y)
    (first : Cascade partner top free x rest₁ hand₁)
    (second : Cascade partner top free y rest₂ hand₂)
    (apart : ¬ (hand₂.order < top ∧ partner hand₂ = some hand₁)) :
    Release partner top (insert hand₁ rest₁) y (insert hand₁ (insert hand₂ (rest₁ ∩ rest₂))) := by
  have fresh := first.result_fresh neighbours pool xTaken
  have left : insert hand₁ rest₁ \ (free \ rest₂) = insert hand₁ (rest₁ ∩ rest₂) := by
    ext d
    have known : d ∈ rest₁ → d ∈ free := fun inRest => first.subset inRest
    by_cases eq : d = hand₁
    · subst eq
      simp [fresh]
    · simp only [Set.mem_sdiff, Set.mem_insert_iff, eq, false_or, Set.mem_inter_iff,
        not_and, not_not]
      exact ⟨fun both => ⟨both.1, both.2 (known both.1)⟩, fun both => ⟨both.1, fun _ => both.2⟩⟩
  refine ⟨insert hand₁ (rest₁ ∩ rest₂), hand₂, ?_, Set.insert_comm _ _ _⟩
  refine second.resume neighbours (pool.release yTaken) y.covers_index ?_ ?_
  · intro h c lt below covers isPartner inFree
    exact Or.inr
      (first.keeps_partners neighbours mutual_ pool xTaken yTaken ne lt below covers isPartner
      inFree)
  · rw [left]
    refine .stop fun below c isPartner member => ?_
    rcases member with rfl | both
    · exact apart ⟨below, isPartner⟩
    · exact second.stopped below c isPartner both.2

/-- The second of two releases, whose results are partners of each other: they are merged. -/
theorem Cascade.after_meeting (neighbours : Neighbours partner top n)
    (mutual_ : Mutual partner top n) (pool : Pool top n free taken) (xTaken : x ∈ taken)
    (yTaken : y ∈ taken) (ne : x ≠ y) (first : Cascade partner top free x rest₁ hand₁)
    (second : Cascade partner top free y rest₂ hand₂) (below : hand₂.order < top)
    (meet : partner hand₂ = some hand₁) {final : Set Block} {last : Block}
    (rest : Cascade partner top (rest₁ ∩ rest₂)
      ⟨min hand₂.index hand₁.index, hand₂.order + 1⟩ final last) :
    Release partner top (insert hand₁ rest₁) y (insert last final) := by
  have fresh := first.result_fresh neighbours pool xTaken
  have left : (insert hand₁ rest₁ \ (free \ rest₂)) \ {hand₁} = rest₁ ∩ rest₂ := by
    ext d
    have known : d ∈ rest₁ → d ∈ free := fun inRest => first.subset inRest
    by_cases eq : d = hand₁
    · subst eq
      have absent : d ∉ rest₁ := fun inRest => fresh (known inRest)
      simp [absent]
    · simp only [Set.mem_sdiff, Set.mem_insert_iff, eq, false_or, Set.mem_inter_iff,
        not_and, not_not, Set.mem_singleton_iff, not_false_eq_true, and_true]
      exact ⟨fun both => ⟨both.1, both.2 (known both.1)⟩, fun both => ⟨both.1, fun _ => both.2⟩⟩
  refine ⟨final, last, ?_, rfl⟩
  refine second.resume neighbours (pool.release yTaken) y.covers_index ?_ ?_
  · intro h c lt low covers isPartner inFree
    exact Or.inr
      (first.keeps_partners neighbours mutual_ pool xTaken yTaken ne lt low covers isPartner inFree)
  · have there : hand₁ ∈ insert hand₁ rest₁ \ (free \ rest₂) :=
      ⟨Set.mem_insert _ _, fun gone => fresh gone.1⟩
    refine .merge below meet there ?_
    rw [left]
    exact rest

/-- **Two releases in either order leave the same free blocks.** -/
theorem Release.diamond (neighbours : Neighbours partner top n) (mutual_ : Mutual partner top n)
    (pool : Pool top n free taken) (xTaken : x ∈ taken) (yTaken : y ∈ taken) (ne : x ≠ y)
    (first : Release partner top free x free₁) (second : Release partner top free y free₂) :
    ∃ both, Release partner top free₁ y both ∧ Release partner top free₂ x both := by
  obtain ⟨rest₁, hand₁, run₁, rfl⟩ := first
  obtain ⟨rest₂, hand₂, run₂, rfl⟩ := second
  by_cases meet : hand₂.order < top ∧ partner hand₂ = some hand₁
  · obtain ⟨below, isPartner⟩ := meet
    have lt := ((pool.release yTaken).cascade neighbours run₂).index_lt
    obtain ⟨order, _⟩ := neighbours hand₂ hand₁ lt below isPartner
    have back := (mutual_ hand₂ hand₁ lt below isPartner).2
    obtain ⟨final, last, rest⟩ := exists_cascade partner top top (rest₁ ∩ rest₂)
      ⟨min hand₂.index hand₁.index, hand₂.order + 1⟩ (Nat.le_add_left _ _)
    refine ⟨insert last final,
      run₁.after_meeting neighbours mutual_ pool xTaken yTaken ne run₂ below isPartner rest,
      run₂.after_meeting neighbours mutual_ pool yTaken xTaken (Ne.symm ne) run₁
      (order ▸ below) back ?_⟩
    rw [Set.inter_comm, min_comm, order]
    exact rest
  · have apart : ¬ (hand₁.order < top ∧ partner hand₁ = some hand₂) := by
      rintro ⟨below, isPartner⟩
      have lt := ((pool.release xTaken).cascade neighbours run₁).index_lt
      obtain ⟨order, _⟩ := neighbours hand₁ hand₂ lt below isPartner
      exact meet ⟨order ▸ below, (mutual_ hand₁ hand₂ lt below isPartner).2⟩
    refine ⟨_, run₁.after_apart neighbours mutual_ pool xTaken yTaken ne run₂ meet, ?_⟩
    have other := run₂.after_apart neighbours mutual_ pool yTaken xTaken (Ne.symm ne) run₁ apart
    rw [Set.inter_comm, Set.insert_comm] at other
    exact other

end Diamond

/-! ### Any number of releases -/

/-- The blocks of a list are released one after the other. -/
inductive Releases (partner : Block → Option Block) (top : Nat) :
    Set Block → List Block → Set Block → Prop
  | nil {free : Set Block} : Releases partner top free [] free
  | cons {free free₁ free' : Set Block} {x : Block} {l : List Block} :
      Release partner top free x free₁ →
      Releases partner top free₁ l free' → Releases partner top free (x :: l) free'

theorem Releases.functional {l : List Block} {free₁ free₂ : Set Block}
    (first : Releases partner top free l free₁) (second : Releases partner top free l free₂) :
    free₁ = free₂ := by
  induction first with
  | nil =>
    cases second
    rfl
  | cons release _ ih =>
    cases second with
    | cons release' rest =>
      rw [release'.functional release] at rest
      exact ih rest

/-- **Releases in any two orders leave the same free blocks.** -/
theorem Releases.perm (neighbours : Neighbours partner top n) (mutual_ : Mutual partner top n)
    {l l' : List Block} (perm : l.Perm l') (pool : Pool top n free taken) (nodup : l.Nodup)
    (areTaken : ∀ x ∈ l, x ∈ taken) (run : Releases partner top free l free') :
    Releases partner top free l' free' := by
  induction perm generalizing free taken with
  | nil => exact run
  | @cons x l l' _ ih =>
    cases run with
    | cons release rest =>
      obtain ⟨fresh, nodup⟩ := List.nodup_cons.mp nodup
      have xTaken := areTaken x List.mem_cons_self
      refine .cons release (ih (release.pool neighbours pool xTaken) nodup ?_ rest)
      intro z member
      exact ⟨areTaken z (List.mem_cons_of_mem _ member), fun eq => fresh (eq ▸ member)⟩
  | @swap y x l =>
    cases run with
    | @cons _ free₁ _ _ _ first rest =>
      cases rest with
      | @cons _ free₁₂ _ _ _ second rest =>
        have ne : x ≠ y := by
          intro eq
          exact (List.nodup_cons.mp nodup).1 (eq ▸ List.mem_cons_self)
        obtain ⟨free₂, other⟩ := exists_release partner top free y
        obtain ⟨both, one, two⟩ :=
          first.diamond neighbours mutual_ pool (areTaken x List.mem_cons_self)
          (areTaken y (List.mem_cons_of_mem _ List.mem_cons_self)) ne other
        rw [one.functional second] at two
        exact .cons other (.cons two rest)
  | @trans l₁ l₂ l₃ perm₁ _ ih₁ ih₂ =>
    refine ih₂ pool (perm₁.nodup nodup) ?_ (ih₁ pool nodup areTaken run)
    exact fun x member => areTaken x (perm₁.mem_iff.mpr member)

end Tilings
