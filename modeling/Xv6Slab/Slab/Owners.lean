/-
**The page-owner table, and slabs coming and going.**

* `setOwners_ok` — the loops over `owner_slab` write one owner into the pages of a block.
* `SlabsInv.buddy` — what the buddy allocator does to other blocks leaves the slabs alone.
* `SlabsInv.addSlab` — **an allocated block becomes a slab**, once its header is written and its
  pages have it as owner.
* `SlabsInv.dropSlab` — **a slab becomes an allocated block again**, once its pages have no owner.
-/

import Xv6Slab.Slab.Slabs

namespace Xv6Slab

open Bytes Chains Tilings

namespace Buddy

/-! ### Writing owners -/

/-- The pages `i, …, i + count - 1` get an owner. -/
def withOwner (b : Buddy) (i count owner : Nat) : Buddy :=
  { b with blockMeta := fun j =>
      if i ≤ j ∧ j < i + count then { b.blockMeta j with ownerSlab := owner } else b.blockMeta j }

variable {b : Buddy} {i count owner : Nat}

theorem withOwner_inside {j : Nat} (low : i ≤ j) (high : j < i + count) :
    ((b.withOwner i count owner).blockMeta j).ownerSlab = owner := by
  unfold withOwner
  simp only
  rw [if_pos ⟨low, high⟩]

theorem withOwner_outside {j : Nat} (outside : ¬ (i ≤ j ∧ j < i + count)) :
    (b.withOwner i count owner).blockMeta j = b.blockMeta j := if_neg outside

theorem withOwner_flags (b : Buddy) (i count owner j : Nat) :
    ((b.withOwner i count owner).blockMeta j).isHeadOfFreeBlock =
      (b.blockMeta j).isHeadOfFreeBlock ∧ ((b.withOwner i count owner).blockMeta j).freeOrder =
      (b.blockMeta j).freeOrder ∧ ((b.withOwner i count owner).blockMeta j).isHeadOfAllocBlock =
        (b.blockMeta j).isHeadOfAllocBlock ∧
      ((b.withOwner i count owner).blockMeta j).allocOrder = (b.blockMeta j).allocOrder := by
  unfold withOwner
  simp only
  split_ifs <;> exact ⟨rfl, rfl, rfl, rfl⟩

theorem withOwner_freeBlocks (b : Buddy) (i count owner : Nat) :
    (b.withOwner i count owner).freeBlocks = b.freeBlocks := by
  ext ⟨j, l⟩
  obtain ⟨flag, order, _, _⟩ := b.withOwner_flags i count owner j
  simp only [mem_freeBlocks, flag, order]
  rfl

theorem withOwner_allocBlocks (b : Buddy) (i count owner : Nat) :
    (b.withOwner i count owner).allocBlocks = b.allocBlocks := by
  ext ⟨j, l⟩
  obtain ⟨_, _, flag, order⟩ := b.withOwner_flags i count owner j
  simp only [mem_allocBlocks, flag, order]
  rfl

theorem withOwner_succ (b : Buddy) (i count owner : Nat) :
    (b.withOwner i count owner).setMeta (i + count)
        { (b.withOwner i count owner).blockMeta (i + count) with ownerSlab := owner } =
      b.withOwner i (count + 1) owner := by
  have metas : Function.update (b.withOwner i count owner).blockMeta (i + count)
      { (b.withOwner i count owner).blockMeta (i + count) with ownerSlab := owner } =
        (b.withOwner i (count + 1) owner).blockMeta := by
    funext j
    by_cases eq : j = i + count
    · subst eq
      rw [Function.update_self, withOwner_outside (by omega)]
      unfold withOwner
      simp only
      rw [if_pos (by omega)]
    · rw [Function.update_of_ne eq]
      unfold withOwner
      simp only
      by_cases inside : i ≤ j ∧ j < i + count
      · rw [if_pos inside, if_pos (by omega)]
      · rw [if_neg inside, if_neg (by omega)]
  unfold setMeta
  rw [metas]
  rfl

/-- **The loop over `owner_slab`.** -/
theorem setOwners_ok (b : Buddy) (i owner : Nat) :
    ∀ count, i + count ≤ b.num → b.setOwners i owner count = .ok (b.withOwner i count owner) := by
  intro count
  induction count with
  | zero =>
    intro _
    have same : b.withOwner i 0 owner = b := by
      have metas : (b.withOwner i 0 owner).blockMeta = b.blockMeta := by
        funext j
        exact withOwner_outside (by omega)
      show { b with blockMeta := (b.withOwner i 0 owner).blockMeta } = b
      rw [metas]
    rw [setOwners, same]
  | succ count ih =>
    intro fits
    have lt : i + count < (b.withOwner i count owner).num := by
      show i + count < b.num
      omega
    have last : ((b.withOwner i count owner).modifyMeta ((i : Int) + (count : Int)) fun m =>
        { m with ownerSlab := owner }) = .ok (b.withOwner i (count + 1) owner) := by
      rw [← Int.natCast_add, modifyMeta_ok _ lt, withOwner_succ]
    rw [setOwners, ih (by omega)]
    exact last

theorem Rep.withOwner {free alloc : Set Block} (rep : b.Rep free alloc) (i count owner : Nat) :
    (b.withOwner i count owner).Rep free alloc where
  region := ⟨rep.region.aligned, rep.region.pos, rep.region.fits, rep.region.small⟩
  freeEq := (b.withOwner_freeBlocks i count owner).trans rep.freeEq
  allocEq := (b.withOwner_allocBlocks i count owner).trans rep.allocEq
  lists := rep.lists.frame (fun _ => rfl) (fun _ _ => rfl) fun _ _ => rfl

end Buddy

namespace Kmem

namespace SlabsInv

variable {k : Kmem} {slabs : Nat → Option SlabView} {s : Nat} {v : SlabView}

/-! ### Other blocks -/

/-- A block of the buddy allocator that is not one of the slabs. -/
def NotSlab (k : Kmem) (c : Block) : Prop := (k.blockMeta c.index).ownerSlab = 0

/-- A page of a block that holds no slab has no owner. -/
theorem owner_of_notSlab (inv : SlabsInv k slabs) {c : Block} (member : c ∈ k.allocBlocks)
    (notSlab : NotSlab k c) {p : Nat} (covers : c.Covers p) : (k.blockMeta p).ownerSlab = 0 := by
  have pLt : p < k.num := inv.pool.tiling.lt_of_covers (Or.inr member) covers
  have cLt : c.index < k.num := inv.pool.index_lt_of_taken member
  by_contra owned
  obtain ⟨v, isSlab, range⟩ := (inv.owner p pLt _ owned).mp rfl
  obtain ⟨i, _, slabMember, bytes⟩ := inv.slabBytes_eq isSlab
  have inSlab : k.page p ∈ k.span {⟨i, (k.desc v.cache).slabOrder⟩} := by
    rw [← bytes]
    exact range
  have inBlock : k.page p ∈ k.span {c} := ⟨p, ⟨c, rfl, covers⟩, le_rfl, by omega⟩
  obtain ⟨d, dEq, e, eEq, q, dCovers, eCovers⟩ := Buddy.span_common inSlab inBlock
  have same := inv.pool.tiling.once d (Or.inr (Set.mem_singleton_iff.mp dEq ▸ slabMember)) e
    (Or.inr (Set.mem_singleton_iff.mp eEq ▸ member)) q dCovers eCovers
  have blockEq : c = ⟨i, (k.desc v.cache).slabOrder⟩ :=
    (Set.mem_singleton_iff.mp eEq).symm.trans (same.symm.trans (Set.mem_singleton_iff.mp dEq))
  have headIn : k.page c.index ∈ Set.Ico (k.blockMeta p).ownerSlab
      ((k.blockMeta p).ownerSlab + (k.desc v.cache).slabBytes) := by
    rw [bytes]
    exact ⟨c.index, ⟨c, blockEq, c.covers_index⟩, le_rfl, by omega⟩
  have headOwner := (inv.owner c.index cLt _ owned).mpr ⟨v, isSlab, headIn⟩
  unfold NotSlab at notSlab
  rw [notSlab] at headOwner
  exact owned headOwner.symm

/-- A free page has no owner. -/
theorem owner_of_free (inv : SlabsInv k slabs) {c : Block} (member : c ∈ k.freeBlocks) {p : Nat}
    (covers : c.Covers p) : (k.blockMeta p).ownerSlab = 0 := by
  have pLt : p < k.num := inv.pool.tiling.lt_of_covers (Or.inl member) covers
  by_contra owned
  obtain ⟨v, isSlab, range⟩ := (inv.owner p pLt _ owned).mp rfl
  exact inv.not_free isSlab range ⟨p, ⟨c, member, covers⟩, le_rfl, by omega⟩

/-- The block of a slab is owned by it. -/
theorem owner_of_slab (inv : SlabsInv k slabs) (isSlab : slabs s = some v) {i : Nat}
    (address : s = k.page i) (member : ⟨i, (k.desc v.cache).slabOrder⟩ ∈ k.allocBlocks) :
    (k.blockMeta i).ownerSlab = s := by
  refine (inv.owner i (inv.pool.index_lt_of_taken member) s (inv.nonzero isSlab)).mpr
    ⟨v, isSlab, ?_, ?_⟩
  · exact address.le
  · have pos := Nat.two_pow_pos (k.desc v.cache).slabOrder
    unfold KmemCache.slabBytes
    omega

/-- A block that holds no slab overlaps none. -/
theorem notSlab_apart (inv : SlabsInv k slabs) {c : Block} (member : c ∈ k.allocBlocks)
    (notSlab : NotSlab k c) (isSlab : slabs s = some v) {a : Nat} (inside : a ∈ k.span {c}) :
    a ∉ Set.Ico s (s + (k.desc v.cache).slabBytes) := by
  intro inSlab
  obtain ⟨j, address, slabMember, bytes⟩ := inv.slabBytes_eq isSlab
  rw [bytes] at inSlab
  refine Buddy.span_apart inv.pool.tiling ?_ ?_ ?_ inside inSlab
  · exact Set.singleton_subset_iff.mpr (Or.inr member)
  · exact Set.singleton_subset_iff.mpr (Or.inr slabMember)
  · intro d eq eq'
    have same : c = ⟨j, (k.desc v.cache).slabOrder⟩ :=
      (Set.mem_singleton_iff.mp eq).symm.trans (Set.mem_singleton_iff.mp eq')
    have owned := inv.owner_of_slab isSlab address slabMember
    unfold NotSlab at notSlab
    rw [same] at notSlab
    exact inv.nonzero isSlab (owned.symm.trans notSlab)

/-- A block that holds no slab does not start at one. -/
theorem notSlab_fresh (inv : SlabsInv k slabs) {c : Block} (member : c ∈ k.allocBlocks)
    (notSlab : NotSlab k c) : slabs (k.page c.index) = none := by
  cases isSlab : slabs (k.page c.index) with
  | none => rfl
  | some w =>
    have inside : k.page c.index ∈ k.span {c} :=
      ⟨c.index, ⟨c, rfl, c.covers_index⟩, le_rfl, by omega⟩
    have pos := Nat.two_pow_pos (k.desc w.cache).slabOrder
    refine absurd ⟨le_rfl, ?_⟩ (inv.notSlab_apart member notSlab isSlab inside)
    unfold KmemCache.slabBytes
    omega

/-- **A step of the buddy allocator that keeps the blocks of the slabs** and writes into no
header. -/
theorem buddy (inv : SlabsInv k slabs) {b : Buddy} {free alloc : Set Block} {touched : Set Nat}
    (effect : Buddy.Effect k.toBuddy b free alloc touched) (pool : Pool maxOrder k.num free alloc)
    (keeps : ∀ c ∈ k.allocBlocks, ¬ NotSlab k c → c ∈ alloc)
    (notSlab : ∀ s v, slabs s = some v → ∀ a ∈ touched,
      a ∉ Set.Ico s (s + (k.desc v.cache).slabBytes)) :
    SlabsInv (k.setBuddy b) slabs where
  rep := by
    show b.Rep b.freeBlocks b.allocBlocks
    rw [effect.rep.freeEq, effect.rep.allocEq]
    exact effect.rep
  pool := by
    show Pool maxOrder b.num b.freeBlocks b.allocBlocks
    rw [effect.rep.freeEq, effect.rep.allocEq, effect.same.num]
    exact pool
  geometry := inv.geometry
  used := inv.used
  header := by
    intro s v isSlab
    apply (inv.header s v isSlab).frame effect.mem
    intro a inTouched inInfo
    exact notSlab s v isSlab a inTouched (inv.infoBytes_sub isSlab inInfo)
  placed := by
    intro s v isSlab
    obtain ⟨i, address, member⟩ := inv.placed s v isSlab
    refine ⟨i, by rw [address]; exact (effect.same.page i).symm, ?_⟩
    show _ ∈ b.allocBlocks
    rw [effect.rep.allocEq]
    apply keeps _ member
    intro unowned
    have owned := inv.owner_of_slab isSlab address member
    unfold NotSlab at unowned
    rw [unowned] at owned
    exact inv.nonzero isSlab owned.symm
  owner := by
    intro i lt s nonzero
    have lt' : i < k.num := effect.same.num ▸ lt
    show (b.blockMeta i).ownerSlab = s ↔ ∃ v, slabs s = some v ∧
      b.page i ∈ Set.Ico s (s + (k.desc v.cache).slabBytes)
    rw [effect.same.owner, effect.same.page]
    exact inv.owner i lt' s nonzero

/-! ### Slabs coming and going -/

/-- **An allocated block becomes a slab.** -/
theorem addSlab (inv : SlabsInv k slabs) {c i : Nat} {l : List Nat} {mem : Mem} (used : k.Used c)
    (member : ⟨i, (k.desc c).slabOrder⟩ ∈ k.allocBlocks)
    (notSlab : NotSlab k ⟨i, (k.desc c).slabOrder⟩)
    (same : SameOutside (k.span {⟨i, (k.desc c).slabOrder⟩}) k.mem mem)
    (header : Header mem (k.page i) ⟨c, l⟩ (k.desc c).objsPerSlab) :
    SlabsInv ((k.setBuddy (k.toBuddy.withOwner i (2 ^ (k.desc c).slabOrder) (k.page i))).setMem mem)
      (Function.update slabs (k.page i) (some ⟨c, l⟩)) := by
  have pagePos : k.page i ≠ 0 := inv.rep.region.page_pos.ne'
  have unowned : ∀ p, (⟨i, (k.desc c).slabOrder⟩ : Block).Covers p →
      (k.blockMeta p).ownerSlab = 0 := fun p covers => inv.owner_of_notSlab member notSlab covers
  have fresh := inv.notSlab_fresh member notSlab
  simp only at fresh
  have rep := (inv.rep.withOwner i (2 ^ (k.desc c).slabOrder) (k.page i)).withMem same (by
    intro a inside
    refine Buddy.span_apart inv.pool.tiling ?_ Set.subset_union_left ?_ inside
    · exact Set.singleton_subset_iff.mpr (Or.inr member)
    · intro d eq inFree
      exact inv.pool.disjoint d inFree (Set.mem_singleton_iff.mp eq ▸ member))
  have freeEq := Buddy.withOwner_freeBlocks k.toBuddy i (2 ^ (k.desc c).slabOrder) (k.page i)
  have allocEq := Buddy.withOwner_allocBlocks k.toBuddy i (2 ^ (k.desc c).slabOrder) (k.page i)
  have cases_update : ∀ t w, Function.update slabs (k.page i) (some ⟨c, l⟩) t = some w →
      (t = k.page i ∧ w = ⟨c, l⟩) ∨ (t ≠ k.page i ∧ slabs t = some w) := by
    intro t w isSlab
    by_cases eq : t = k.page i
    · rw [eq, Function.update_self, Option.some.injEq] at isSlab
      exact Or.inl ⟨eq, isSlab.symm⟩
    · rw [Function.update_of_ne eq] at isSlab
      exact Or.inr ⟨eq, isSlab⟩
  refine ⟨?_, ?_, inv.geometry, ?_, ?_, ?_, ?_⟩
  · have freeEq' := rep.freeEq
    have allocEq' := rep.allocEq
    show Buddy.Rep _ (Buddy.freeBlocks _) (Buddy.allocBlocks _)
    erw [freeEq', allocEq']
    exact rep
  · show Pool maxOrder k.num (Buddy.freeBlocks _) (Buddy.allocBlocks _)
    erw [rep.freeEq, rep.allocEq]
    exact inv.pool
  · intro t w isSlab
    rcases cases_update t w isSlab with ⟨_, rfl⟩ | ⟨_, old⟩
    · exact used
    · exact inv.used t w old
  · intro t w isSlab
    rcases cases_update t w isSlab with ⟨rfl, rfl⟩ | ⟨_, old⟩
    · exact header
    · apply (inv.header t w old).frame same
      intro a inside inInfo
      exact inv.notSlab_apart member notSlab old inside (inv.infoBytes_sub old inInfo)
  · intro t w isSlab
    show ∃ j, t = k.page j ∧ _ ∈ Buddy.allocBlocks _
    erw [rep.allocEq]
    rcases cases_update t w isSlab with ⟨rfl, rfl⟩ | ⟨_, old⟩
    · exact ⟨i, rfl, member⟩
    · exact inv.placed t w old
  · intro p lt t nonzero
    show ((k.toBuddy.withOwner i (2 ^ (k.desc c).slabOrder) (k.page i)).blockMeta p).ownerSlab = t ↔
      ∃ w, Function.update slabs (k.page i) (some ⟨c, l⟩) t = some w ∧
        k.page p ∈ Set.Ico t (t + (k.desc w.cache).slabBytes)
    by_cases inBlock : i ≤ p ∧ p < i + 2 ^ (k.desc c).slabOrder
    · rw [Buddy.withOwner_inside inBlock.1 inBlock.2]
      constructor
      · intro same
        subst same
        refine ⟨⟨c, l⟩, Function.update_self .., ?_, ?_⟩
        · unfold Buddy.page
          omega
        · unfold Buddy.page KmemCache.slabBytes
          simp only
          omega
      · intro owned
        obtain ⟨w, isSlab, range⟩ := owned
        rcases cases_update t w isSlab with ⟨rfl, _⟩ | ⟨_, old⟩
        · rfl
        · have owner := (inv.owner p lt t nonzero).mpr ⟨w, old, range⟩
          rw [unowned p inBlock] at owner
          exact absurd owner.symm nonzero
    · rw [Buddy.withOwner_outside inBlock, inv.owner p lt t nonzero]
      constructor
      · intro owned
        obtain ⟨w, isSlab, range⟩ := owned
        have ne : t ≠ k.page i := by
          intro eq
          rw [eq, fresh] at isSlab
          cases isSlab
        exact ⟨w, by rw [Function.update_of_ne ne]; exact isSlab, range⟩
      · intro owned
        obtain ⟨w, isSlab, range⟩ := owned
        rcases cases_update t w isSlab with ⟨rfl, rfl⟩ | ⟨_, old⟩
        · have low := range.1
          have high := range.2
          unfold Buddy.page KmemCache.slabBytes at *
          simp only at high
          omega
        · exact ⟨w, old, range⟩

/-- **A slab becomes an allocated block again.** -/
theorem dropSlab (inv : SlabsInv k slabs) (isSlab : slabs s = some v) {i : Nat}
    (address : s = k.page i) :
    SlabsInv (k.setBuddy (k.toBuddy.withOwner i (2 ^ (k.desc v.cache).slabOrder) 0))
      (Function.update slabs s none) := by
  have rep := inv.rep.withOwner i (2 ^ (k.desc v.cache).slabOrder) 0
  have cases_update : ∀ t w, Function.update slabs s none t = some w →
      t ≠ s ∧ slabs t = some w := by
    intro t w isSlab'
    by_cases eq : t = s
    · rw [eq, Function.update_self] at isSlab'
      cases isSlab'
    · rw [Function.update_of_ne eq] at isSlab'
      exact ⟨eq, isSlab'⟩
  refine ⟨?_, ?_, inv.geometry, ?_, ?_, ?_, ?_⟩
  · show Buddy.Rep _ (Buddy.freeBlocks _) (Buddy.allocBlocks _)
    erw [rep.freeEq, rep.allocEq]
    exact rep
  · show Pool maxOrder k.num (Buddy.freeBlocks _) (Buddy.allocBlocks _)
    erw [rep.freeEq, rep.allocEq]
    exact inv.pool
  · exact fun t w isSlab' => inv.used t w (cases_update t w isSlab').2
  · exact fun t w isSlab' => inv.header t w (cases_update t w isSlab').2
  · intro t w isSlab'
    show ∃ j, t = k.page j ∧ _ ∈ Buddy.allocBlocks _
    erw [rep.allocEq]
    exact inv.placed t w (cases_update t w isSlab').2
  · intro p lt t nonzero
    show ((k.toBuddy.withOwner i (2 ^ (k.desc v.cache).slabOrder) 0).blockMeta p).ownerSlab = t ↔
      ∃ w, Function.update slabs s none t = some w ∧
        k.page p ∈ Set.Ico t (t + (k.desc w.cache).slabBytes)
    have inRange : (i ≤ p ∧ p < i + 2 ^ (k.desc v.cache).slabOrder) →
        k.page p ∈ Set.Ico s (s + (k.desc v.cache).slabBytes) := by
      intro inBlock
      rw [address]
      unfold Buddy.page KmemCache.slabBytes
      exact ⟨by omega, by omega⟩
    by_cases inBlock : i ≤ p ∧ p < i + 2 ^ (k.desc v.cache).slabOrder
    · rw [Buddy.withOwner_inside inBlock.1 inBlock.2]
      constructor
      · exact fun zero => absurd zero.symm nonzero
      · intro owned
        obtain ⟨w, isSlab', range⟩ := owned
        obtain ⟨ne, old⟩ := cases_update t w isSlab'
        exact absurd range (inv.apart isSlab old (Ne.symm ne) (inRange inBlock))
    · rw [Buddy.withOwner_outside inBlock, inv.owner p lt t nonzero]
      constructor
      · intro owned
        obtain ⟨w, isSlab', range⟩ := owned
        refine ⟨w, ?_, range⟩
        rw [Function.update_of_ne]
        · exact isSlab'
        · intro eq
          subst eq
          rw [isSlab, Option.some.injEq] at isSlab'
          subst isSlab'
          have low := range.1
          have high := range.2
          rw [address] at low high
          unfold Buddy.page KmemCache.slabBytes at *
          omega
      · intro owned
        obtain ⟨w, isSlab', range⟩ := owned
        exact ⟨w, (cases_update t w isSlab').2, range⟩

end SlabsInv

end Kmem

end Xv6Slab
