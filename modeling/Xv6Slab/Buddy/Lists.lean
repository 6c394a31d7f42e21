/-
**The free lists of a buddy state.**

`ListsRep b free` says that, for every order up to `MAX_ORDER`, the list that starts at `free_area`
and runs through the link words of the blocks is finite and holds exactly the heads of the blocks of
that order in `free`.

* `ListsRep.push` — `push_free` of a page that heads no block of the set.
* `ListsRep.pop` — taking the head of a non-empty list.
* `ListsRep.remove` — `remove_from_freelist` of a listed block **finds it**, and unlinks it.
* `ListsRep.frame` — the lists only depend on their heads and on the link words of free blocks.
-/

import Xv6Slab.Buddy.Rep

namespace Xv6Slab

open Bytes Chains Tilings

namespace Buddy

/-- The free lists hold exactly the blocks of `free`. -/
def ListsRep (b : Buddy) (free : Set Block) : Prop :=
  ∀ k ≤ maxOrder, ∃ l, Chain b.link 0 (b.freeArea k) l ∧
    ∀ a, a ∈ l ↔ ∃ i, ⟨i, k⟩ ∈ free ∧ a = b.page i

/-- The bytes of the pages that a set of blocks covers. -/
def span (b : Buddy) (blocks : Set Block) : Set Nat :=
  {a | ∃ i, (∃ c ∈ blocks, c.Covers i) ∧ b.page i ≤ a ∧ a < b.page i + 4096}

/-- The bytes of the managed region. -/
def regionBytes (b : Buddy) : Set Nat :=
  Set.Ico b.managedStart (b.managedStart + b.num * 4096)

theorem span_mono {b : Buddy} {blocks blocks' : Set Block}
    (sub : ∀ c ∈ blocks, ∀ p, c.Covers p → ∃ d ∈ blocks', d.Covers p) :
    b.span blocks ⊆ b.span blocks' := by
  rintro a ⟨i, ⟨c, member, covers⟩, range⟩
  exact ⟨i, sub c member i covers, range⟩

/-- The bytes of one block. -/
theorem span_singleton (b : Buddy) (i k : Nat) :
    b.span {⟨i, k⟩} = Set.Ico (b.page i) (b.page i + 4096 * 2 ^ k) := by
  ext a
  constructor
  · intro inside
    obtain ⟨p, ⟨c, rfl, low, high⟩, pLow, pHigh⟩ := inside
    simp only [page, Set.mem_Ico] at *
    omega
  · intro inside
    refine ⟨(a - b.managedStart) / 4096, ⟨_, rfl, ?_, ?_⟩, ?_, ?_⟩ <;>
      simp only [page, Set.mem_Ico] at * <;> omega

/-- A byte that two sets of blocks span lies on a page that both cover. -/
theorem span_common {b : Buddy} {blocks blocks' : Set Block} {a : Nat} (first : a ∈ b.span blocks)
    (second : a ∈ b.span blocks') :
    ∃ c ∈ blocks, ∃ d ∈ blocks', ∃ p, c.Covers p ∧ d.Covers p := by
  obtain ⟨p, ⟨c, cMember, cCovers⟩, pLow, pHigh⟩ := first
  obtain ⟨q, ⟨d, dMember, dCovers⟩, qLow, qHigh⟩ := second
  have same : q = p := by
    simp only [page] at *
    omega
  subst same
  exact ⟨c, cMember, d, dMember, q, cCovers, dCovers⟩

/-- The spans of disjoint parts of a tiling are disjoint. -/
theorem span_apart {b : Buddy} {n : Nat} {all blocks blocks' : Set Block} (tiling : Tiling n all)
    (sub : blocks ⊆ all) (sub' : blocks' ⊆ all) (disjoint : ∀ c ∈ blocks, c ∉ blocks') {a : Nat}
    (inside : a ∈ b.span blocks) : a ∉ b.span blocks' := by
  intro inside'
  obtain ⟨c, cMember, d, dMember, p, cCovers, dCovers⟩ := span_common inside inside'
  have same := tiling.once c (sub cMember) d (sub' dMember) p cCovers dCovers
  exact disjoint c cMember (same ▸ dMember)

/-- The link word of a block lies in its span. -/
theorem link_mem_span {b : Buddy} {blocks : Set Block} {c : Block} (member : c ∈ blocks) :
    Set.Ico (b.page c.index) (b.page c.index + 8) ⊆ b.span blocks := fun _ inside =>
  ⟨c.index, ⟨c, member, c.covers_index⟩, inside.1, lt_of_lt_of_le inside.2 (by omega)⟩

theorem SameRegion.span {b b' : Buddy} (same : SameRegion b b') (blocks : Set Block) :
    b'.span blocks = b.span blocks := by
  simp only [Buddy.span, same.page]

namespace ListsRep

variable {b b' : Buddy} {free : Set Block} {i k : Nat}

/-- The lists only depend on their heads and on the link words of free blocks. -/
theorem frame (lists : b.ListsRep free) (pages : ∀ i, b'.page i = b.page i)
    (heads : ∀ k ≤ maxOrder, b'.freeArea k = b.freeArea k)
    (links : ∀ c ∈ free, b'.link (b.page c.index) = b.link (b.page c.index)) :
    b'.ListsRep free := by
  intro k le
  obtain ⟨l, chain, members⟩ := lists k le
  refine ⟨l, ?_, ?_⟩
  · rw [heads k le]
    refine chain.congr fun a member => ?_
    obtain ⟨i, inFree, rfl⟩ := (members a).mp member
    exact links ⟨i, k⟩ inFree
  · intro a
    simp only [pages]
    exact members a

/-- The head of a list is null or a page. -/
theorem head_cases (lists : b.ListsRep free) (le : k ≤ maxOrder) :
    (b.freeArea k = 0 ∧ ∀ i, ⟨i, k⟩ ∉ free) ∨ ∃ i, ⟨i, k⟩ ∈ free ∧ b.freeArea k = b.page i := by
  obtain ⟨l, chain, members⟩ := lists k le
  by_cases empty : b.freeArea k = 0
  · left
    rw [empty] at chain
    refine ⟨empty, fun i inFree => ?_⟩
    have := (members (b.page i)).mpr ⟨i, inFree, rfl⟩
    rw [chain.eq_nil_of_stop] at this
    cases this
  · obtain ⟨rest, rfl, _⟩ := chain.eq_cons_of_ne empty
    exact Or.inr ((members _).mp List.mem_cons_self)

theorem head_lt (lists : b.ListsRep free) (region : b.Region)
    (inside : ∀ c ∈ free, c.index < b.num) (le : k ≤ maxOrder) : b.freeArea k < 256 ^ 8 := by
  rcases lists.head_cases le with ⟨empty, _⟩ | ⟨i, inFree, same⟩
  · rw [empty]
    decide
  · have bound : b.page i + 4096 ≤ 2 ^ 64 := region.page_lt (inside ⟨i, k⟩ inFree)
    rw [same]
    omega

/-- **Pushing a page.** -/
theorem push (lists : b.ListsRep free) (region : b.Region)
    (inside : ∀ c ∈ free, c.index < b.num) (le : k ≤ maxOrder)
    (fresh : ∀ l, ⟨i, l⟩ ∉ free) :
    (b.pushFree k (b.page i)).ListsRep (insert ⟨i, k⟩ free) := by
  have apart : ∀ j l, ⟨j, l⟩ ∈ free →
      (b.pushFree k (b.page i)).link (b.page j) = b.link (b.page j) := by
    intro j l inFree
    have ne : i ≠ j := fun eq => fresh l (eq ▸ inFree)
    refine load_store_apart ?_
    rcases b.page_apart ne with before | after <;> omega
  intro o leO
  obtain ⟨l, chain, members⟩ := lists o leO
  have agree : ∀ a ∈ l, (b.pushFree k (b.page i)).link a = b.link a := by
    intro a member
    obtain ⟨j, inFree, rfl⟩ := (members a).mp member
    exact apart j o inFree
  by_cases eq : o = k
  · subst eq
    refine ⟨b.page i :: l, ?_, fun a => ?_⟩
    · have head : (b.pushFree o (b.page i)).freeArea o = b.page i := Function.update_self ..
      rw [head]
      refine chain.push region.page_pos.ne' ?_ agree
      exact load_store_same (lists.head_lt region inside leO)
    · rw [List.mem_cons, members a]
      constructor
      · rintro (rfl | ⟨j, inFree, rfl⟩)
        · exact ⟨i, Set.mem_insert _ _, rfl⟩
        · exact ⟨j, Set.mem_insert_of_mem _ inFree, rfl⟩
      · rintro ⟨j, same | inFree, rfl⟩
        · rw [Block.mk.injEq] at same
          exact Or.inl (by rw [same.1]; rfl)
        · exact Or.inr ⟨j, inFree, rfl⟩
  · refine ⟨l, ?_, fun a => ?_⟩
    · have head : (b.pushFree k (b.page i)).freeArea o = b.freeArea o := Function.update_of_ne eq ..
      rw [head]
      exact chain.congr agree
    · rw [members a]
      constructor
      · rintro ⟨j, inFree, rfl⟩
        exact ⟨j, Set.mem_insert_of_mem _ inFree, rfl⟩
      · rintro ⟨j, same | inFree, rfl⟩
        · rw [Block.mk.injEq] at same
          exact absurd same.2 eq
        · exact ⟨j, inFree, rfl⟩

/-- One list changed, the others kept. -/
theorem of_lists (lists : b.ListsRep free) (gone : ⟨i, k⟩ ∈ free)
    (others : ∀ o ≤ maxOrder, o ≠ k → ∀ l, Chain b.link 0 (b.freeArea o) l →
      (∀ a ∈ l, ∃ j, ⟨j, o⟩ ∈ free ∧ a = b.page j) → Chain b'.link 0 (b'.freeArea o) l)
    (this : ∀ l, Chain b.link 0 (b.freeArea k) l → b.page i ∈ l →
      (∀ a ∈ l, ∃ j, ⟨j, k⟩ ∈ free ∧ a = b.page j) →
      Chain b'.link 0 (b'.freeArea k) (l.erase (b.page i)))
    (pages : ∀ i, b'.page i = b.page i) : b'.ListsRep (free \ {⟨i, k⟩}) := by
  intro o le
  obtain ⟨l, chain, members⟩ := lists o le
  have inFree : ∀ a ∈ l, ∃ j, ⟨j, o⟩ ∈ free ∧ a = b.page j := fun a => (members a).mp
  simp only [pages]
  by_cases eq : o = k
  · subst eq
    refine ⟨l.erase (b.page i), this l chain ((members _).mpr ⟨i, gone, rfl⟩) inFree, fun a => ?_⟩
    rw [chain.nodup.mem_erase_iff, members a]
    constructor
    · rintro ⟨ne, j, member, rfl⟩
      refine ⟨j, ⟨member, fun same => ?_⟩, rfl⟩
      rw [Set.mem_singleton_iff, Block.mk.injEq] at same
      exact ne (by rw [same.1])
    · rintro ⟨j, ⟨member, ne⟩, rfl⟩
      refine ⟨fun same => ne ?_, j, member, rfl⟩
      rw [b.page_injective same]
      rfl
  · refine ⟨l, others o le eq l chain inFree, fun a => ?_⟩
    rw [members a]
    refine exists_congr fun j => and_congr_left fun _ => ?_
    have : (⟨j, o⟩ : Block) ≠ ⟨i, k⟩ := fun same => eq (Block.mk.injEq .. ▸ same).2
    simp [this]

/-- The unlinking of one block changes the links of its own list only. -/
theorem other_list (functional : ∀ i k l, ⟨i, k⟩ ∈ free → ⟨i, l⟩ ∈ free → k = l)
    {j o value : Nat} (member : ⟨j, k⟩ ∈ free) (ne : o ≠ k) {l : List Nat}
    (chain : Chain b.link 0 (b.freeArea o) l)
    (pages : ∀ a ∈ l, ∃ i, ⟨i, o⟩ ∈ free ∧ a = b.page i) :
    Chain (fun a => load (store b.mem (b.page j) 8 value) a 8) 0 (b.freeArea o) l := by
  refine chain.congr fun a inList => ?_
  obtain ⟨m, inFree, rfl⟩ := pages a inList
  have apart : m ≠ j := fun eq => ne (functional j o k (eq ▸ inFree) member)
  refine load_store_apart ?_
  rcases b.page_apart apart with before | after <;> omega

/-- **Popping** a non-empty list takes its head out of the lists. -/
theorem pop (lists : b.ListsRep free) (member : ⟨i, k⟩ ∈ free)
    (head : b.freeArea k = b.page i) :
    ListsRep { b with freeArea := Function.update b.freeArea k (b.link (b.page i)) }
      (free \ {⟨i, k⟩}) := by
  refine lists.of_lists member (fun o _ ne l chain _ => ?_) (fun l chain inList _ => ?_)
    fun _ => rfl
  · show Chain b.link 0 (Function.update b.freeArea k _ o) l
    rw [Function.update_of_ne ne]
    exact chain
  · show Chain b.link 0 (Function.update b.freeArea k _ k) _
    rw [Function.update_self]
    rw [head] at chain
    have nonempty : b.page i ≠ 0 := chain.ne_stop inList
    obtain ⟨rest, rfl, tail⟩ := chain.eq_cons_of_ne nonempty
    rw [List.erase_cons_head]
    exact tail

end ListsRep

/-! ### Unlinking from the middle -/

/-- The walk of `remove_from_freelist` stops at the block, and knows its predecessor. -/
theorem removeLoop_found {b : Buddy} {k blk : Nat} :
    ∀ (fuel : Nat) (rest : List Nat) (prev cur : Nat), Chain b.link 0 cur rest → blk ∈ rest →
      rest.length ≤ fuel →
      (∃ back, rest = blk :: back ∧ b.removeLoop k blk fuel prev cur =
        if prev ≠ 0 then .ok ({ b with mem := store b.mem prev 8 (b.link blk) }, true)
        else .ok ({ b with freeArea := Function.update b.freeArea k (b.link blk) }, true)) ∨
      ∃ front before back, rest = front ++ before :: blk :: back ∧
        b.removeLoop k blk fuel prev cur =
          .ok ({ b with mem := store b.mem before 8 (b.link blk) }, true) := by
  intro fuel
  induction fuel with
  | zero =>
    intro rest prev cur _ member short
    rw [List.length_eq_zero_iff.mp (Nat.le_zero.mp short)] at member
    cases member
  | succ fuel ih =>
    intro rest prev cur chain member short
    cases chain with
    | nil => cases member
    | @cons _ rest fresh tail =>
      by_cases here : cur = blk
      · subst here
        refine Or.inl ⟨rest, rfl, ?_⟩
        rw [removeLoop, if_neg fresh]
        simp only [if_true]
        rfl
      · have later : blk ∈ rest := by
          rcases List.mem_cons.mp member with eq | later
          · exact absurd eq.symm here
          · exact later
        have shorter : rest.length ≤ fuel := by simpa using short
        have step : b.removeLoop k blk (fuel + 1) prev cur =
            b.removeLoop k blk fuel cur (b.link cur) := by
          rw [removeLoop, if_neg fresh]
          simp only [if_neg here]
          rfl
        rw [step]
        rcases ih rest cur (b.link cur) tail later shorter with ⟨back, rfl, run⟩ | found
        · refine Or.inr ⟨[], cur, back, rfl, ?_⟩
          rw [run, if_pos fresh]
        · obtain ⟨front, before, back, rfl, run⟩ := found
          exact Or.inr ⟨cur :: front, before, back, rfl, run⟩

/-- A free list is no longer than the number of pages. -/
theorem length_le_num {b : Buddy} {l : List Nat} (distinct : l.Nodup)
    (pages : ∀ a ∈ l, ∃ i < b.num, a = b.page i) : l.length ≤ b.num := by
  have sub : l ⊆ (List.range b.num).map b.page := by
    intro a member
    obtain ⟨i, lt, rfl⟩ := pages a member
    exact List.mem_map_of_mem (List.mem_range.mpr lt)
  simpa using (distinct.subperm sub).length_le

/-- **A listed block is always found, and unlinked.** -/
theorem ListsRep.remove {b : Buddy} {free : Set Block} {i k : Nat} (lists : b.ListsRep free)
    (inside : ∀ c ∈ free, c.index < b.num)
    (functional : ∀ i k l, ⟨i, k⟩ ∈ free → ⟨i, l⟩ ∈ free → k = l)
    (le : k ≤ maxOrder) (member : ⟨i, k⟩ ∈ free) :
    ∃ mem freeArea, b.removeFromFreelist k (b.page i) =
        .ok ({ b with mem := mem, freeArea := freeArea }, true) ∧
      ListsRep { b with mem := mem, freeArea := freeArea } (free \ {⟨i, k⟩}) ∧
      SameOutside (b.span free) b.mem mem := by
  obtain ⟨l, chain, members⟩ := lists k le
  have inList : b.page i ∈ l := (members _).mpr ⟨i, member, rfl⟩
  have fuel : l.length ≤ b.num + 1 := by
    refine (length_le_num chain.nodup fun a inL => ?_).trans (Nat.le_succ _)
    obtain ⟨j, inFree, rfl⟩ := (members a).mp inL
    exact ⟨j, inside _ inFree, rfl⟩
  have linkLt : b.link (b.page i) < 256 ^ 8 := load_lt ..
  rcases removeLoop_found (b := b) (k := k) (b.num + 1) l 0 _ chain inList fuel with
    ⟨back, rfl, run⟩ | ⟨front, before, back, rfl, run⟩
  · have head : b.freeArea k = b.page i := (chain.tail).1
    rw [if_neg (by simp)] at run
    exact ⟨b.mem, _, run, lists.pop member head, SameOutside.refl _ _⟩
  · obtain ⟨j, jFree, rfl⟩ := (members before).mp (by simp)
    refine ⟨_, b.freeArea, run, ?_, ?_⟩
    · refine lists.of_lists member (fun o _ ne l chain pages => ?_) (fun l' chain' _ _ => ?_)
        fun _ => rfl
      · exact ListsRep.other_list functional jFree ne chain pages
      · rw [chain'.unique chain]
        have distinct := chain.nodup
        have erased : (front ++ b.page j :: b.page i :: back).erase (b.page i) =
            front ++ b.page j :: back := by
          have notFront : b.page i ∉ front := by
            intro inFront
            rw [List.nodup_append] at distinct
            exact distinct.2.2 _ inFront _ (by simp) rfl
          have ne : b.page j ≠ b.page i := by
            intro eq
            rw [eq, List.nodup_append] at distinct
            simp at distinct
          rw [List.erase_append_right _ notFront, List.erase_cons_tail (by simpa using ne),
            List.erase_cons_head]
        rw [erased]
        refine chain.drop (load_store_same linkLt) fun a inL ne => ?_
        obtain ⟨m, inFree, rfl⟩ := (members a).mp inL
        have apart : m ≠ j := fun eq => ne (by rw [eq])
        refine load_store_apart ?_
        rcases b.page_apart apart with first | second <;> omega
    · exact (store_sameOutside _ _ _ _).mono (link_mem_span (c := ⟨j, k⟩) jFree)

end Buddy

end Xv6Slab
