/-
**The cache list.**

* `Relinked` — a step that changes the links of the cache list and nothing else.
* `unlink` — `remove_from_cache_list` after its search, and the links it leaves.
* `PoolInv.add`, `PoolInv.remove` — **`add_to_cache_list` of a descriptor that just became used, and
  `remove_from_cache_list` of a used one.** The search ends because the list visits a descriptor of
  the pool at most once.
-/

import Xv6Slab.Slab.Inv

namespace Xv6Slab

open Bytes Chains Tilings

namespace Kmem

variable {k k' : Kmem} {c : Nat}

theorem modifyDesc_modifyDesc (k : Kmem) (c : Nat) (f g : KmemCache → KmemCache) :
    (k.modifyDesc c f).modifyDesc c g = k.modifyDesc c fun d => g (f d) := by
  unfold modifyDesc
  simp only [Function.update_self, Function.update_idem]

theorem used_modifyDesc {i : Nat} (lt : i < maxNumCaches) (isSlot : c = k.slot i)
    (change : KmemCache → KmemCache) (c' : Nat) :
    (k.modifyDesc c change).Used c' ↔
      (c' = c ∧ (change (k.desc c)).isUsed = true) ∨ (c' ≠ c ∧ k.Used c') := by
  by_cases eq : c' = c
  · subst eq
    constructor
    · intro used
      obtain ⟨_, _, _, on⟩ := used
      rw [modifyDesc_self] at on
      exact Or.inl ⟨rfl, on⟩
    · intro cases_
      rcases cases_ with ⟨_, on⟩ | ⟨ne, _⟩
      · refine ⟨i, lt, isSlot, ?_⟩
        rw [modifyDesc_self]
        exact on
      · exact absurd rfl ne
  · have same := k.modifyDesc_of_ne change eq
    unfold Used
    rw [same]
    simp only [eq, false_and, ne_eq, not_false_eq_true, true_and, false_or]
    exact Iff.rfl

theorem used_modifyDesc_off {change : KmemCache → KmemCache}
    (off : (change (k.desc c)).isUsed = false) (c' : Nat) :
    (k.modifyDesc c change).Used c' ↔ c' ≠ c ∧ k.Used c' := by
  by_cases eq : c' = c
  · subst eq
    simp only [ne_eq, not_true_eq_false, false_and, iff_false]
    intro used
    obtain ⟨_, _, _, on⟩ := used
    rw [modifyDesc_self, off] at on
    cases on
  · have same := k.modifyDesc_of_ne change eq
    unfold Used
    rw [same]
    simp only [eq, ne_eq, not_false_eq_true, true_and]
    exact Iff.rfl

theorem used_modifyDesc_same (change : KmemCache → KmemCache)
    (same : ∀ d, (change d).isUsed = d.isUsed) (c c' : Nat) :
    (k.modifyDesc c change).Used c' ↔ k.Used c' := by
  have flag : ((k.modifyDesc c change).desc c').isUsed = (k.desc c').isUsed := by
    by_cases eq : c' = c
    · rw [eq, modifyDesc_self, same]
    · rw [modifyDesc_of_ne _ _ eq]
  unfold Used
  rw [flag]
  exact Iff.rfl

/-- A step that changes the links of the cache list and nothing else. -/
structure Relinked (k k' : Kmem) : Prop where
  desc : ∀ c, { k'.desc c with next := 0, prev := 0 } = { k.desc c with next := 0, prev := 0 }
  rest : k' = { k with
    headOfCacheList := k'.headOfCacheList, tailOfCacheList := k'.tailOfCacheList, desc := k'.desc }

namespace Relinked

theorem refl (k : Kmem) : Relinked k k := ⟨fun _ => rfl, rfl⟩

theorem field {β : Type} (relinked : Relinked k k') (f : KmemCache → β) (c : Nat) :
    f { k'.desc c with next := 0, prev := 0 } = f { k.desc c with next := 0, prev := 0 } :=
  congrArg f (relinked.desc c)

theorem trans {k'' : Kmem} (first : Relinked k k') (second : Relinked k' k'') : Relinked k k'' where
  desc := fun c => (second.desc c).trans (first.desc c)
  rest := by
    rw [second.rest, first.rest]

theorem modifyDesc (k : Kmem) (c : Nat) (change : KmemCache → KmemCache)
    (links : ∀ d, { change d with next := 0, prev := 0 } = { d with next := 0, prev := 0 }) :
    Relinked k (k.modifyDesc c change) where
  desc := by
    intro c'
    by_cases eq : c' = c
    · subst eq
      rw [modifyDesc_self]
      exact links _
    · rw [modifyDesc_of_ne _ _ eq]
  rest := rfl

theorem isUsed (relinked : Relinked k k') (c : Nat) : (k'.desc c).isUsed = (k.desc c).isUsed :=
  relinked.field KmemCache.isUsed c

theorem used_iff (relinked : Relinked k k') (c : Nat) : k'.Used c ↔ k.Used c := by
  have slots : ∀ i, k'.slot i = k.slot i := by
    intro i
    unfold slot
    rw [relinked.rest]
  unfold Used
  simp only [relinked.isUsed, slots]

theorem toBuddy (relinked : Relinked k k') : k'.toBuddy = k.toBuddy := by rw [relinked.rest]

theorem sameShape (relinked : Relinked k k') (c : Nat) :
    KmemCache.SameShape (k.desc c) (k'.desc c) :=
  ⟨relinked.field KmemCache.slabOrder c, relinked.field KmemCache.objectSize c,
    relinked.field KmemCache.objsPerSlab c, relinked.field KmemCache.objOffset c,
    relinked.field KmemCache.ctor c⟩

theorem head (relinked : Relinked k k') (c : Nat) (list : SlabList) :
    (k'.desc c).head list = (k.desc c).head list := by
  cases list with
  | full => exact relinked.field KmemCache.fullSlabs c
  | partials => exact relinked.field KmemCache.partialSlabs c
  | empty => exact relinked.field KmemCache.emptySlabs c

end Relinked

theorem addToCacheList_relinked (k : Kmem) (c : Nat) : Relinked k (k.addToCacheList c) := by
  unfold addToCacheList
  by_cases empty : k.headOfCacheList = 0
  · rw [if_pos empty]
    exact ⟨fun _ => rfl, rfl⟩
  · rw [if_neg empty]
    have first :=
      Relinked.modifyDesc k k.headOfCacheList (fun d => { d with prev := c }) fun _ => rfl
    have second :=
      Relinked.modifyDesc (k.modifyDesc k.headOfCacheList fun d => { d with prev := c }) c
      (fun d => { d with next := k.headOfCacheList }) fun _ => rfl
    exact (first.trans second).trans ⟨fun _ => rfl, rfl⟩

/-- The links after `add_to_cache_list` on a list that is not empty. -/
theorem addToCacheList_links (k : Kmem) (more : k.headOfCacheList ≠ 0)
    (ne : c ≠ k.headOfCacheList) : (k.addToCacheList c).headOfCacheList = c ∧
      (k.addToCacheList c).tailOfCacheList = k.tailOfCacheList ∧
      ((k.addToCacheList c).desc c).next = k.headOfCacheList ∧
      ((k.addToCacheList c).desc c).prev = (k.desc c).prev ∧
      ((k.addToCacheList c).desc k.headOfCacheList).prev = c ∧
      ∀ b ≠ c, ((k.addToCacheList c).desc b).next = (k.desc b).next ∧
        (b ≠ k.headOfCacheList → ((k.addToCacheList c).desc b).prev = (k.desc b).prev) := by
  unfold addToCacheList
  rw [if_neg more]
  simp only [modifyDesc, Function.update_apply, ne, Ne.symm ne, if_true, if_false]
  refine ⟨trivial, trivial, trivial, trivial, trivial, ?_⟩
  intro b other
  by_cases first : b = k.headOfCacheList
  · simp only [first, if_true, if_false, Ne.symm ne]
    exact ⟨trivial, fun ne => absurd rfl ne⟩
  · simp only [other, first, if_false]
    exact ⟨trivial, fun _ => trivial⟩

/-- The predecessor, or the head of the cache list, is redirected to the successor. -/
def redirectNext (k : Kmem) (prev next : Nat) : Kmem :=
  if prev ≠ 0 then k.modifyDesc prev fun d => { d with next := next }
  else { k with headOfCacheList := next }

/-- The successor, or the tail of the cache list, is redirected to the predecessor. -/
def redirectPrev (k : Kmem) (prev next : Nat) : Kmem :=
  if next ≠ 0 then k.modifyDesc next fun d => { d with prev := prev }
  else { k with tailOfCacheList := prev }

/-- The end of `remove_from_cache_list`, when the search has found the descriptor. -/
def unlink (k : Kmem) (c : Nat) : Kmem :=
  ((k.redirectNext (k.desc c).prev (k.desc c).next).redirectPrev (k.desc c).prev
    (k.desc c).next).modifyDesc c fun d => { d with next := 0, prev := 0 }

section Unlink

variable {b prev next : Nat}

theorem redirectNext_relinked (k : Kmem) (prev next : Nat) :
    Relinked k (k.redirectNext prev next) := by
  unfold redirectNext
  split_ifs
  · exact Relinked.modifyDesc k _ _ fun _ => rfl
  · exact ⟨fun _ => rfl, rfl⟩

theorem redirectPrev_relinked (k : Kmem) (prev next : Nat) :
    Relinked k (k.redirectPrev prev next) := by
  unfold redirectPrev
  split_ifs
  · exact Relinked.modifyDesc k _ _ fun _ => rfl
  · exact ⟨fun _ => rfl, rfl⟩

theorem unlink_relinked (k : Kmem) (c : Nat) : Relinked k (k.unlink c) :=
  ((redirectNext_relinked k _ _).trans (redirectPrev_relinked _ _ _)).trans
    (Relinked.modifyDesc _ c _ fun _ => rfl)

theorem redirectNext_links (k : Kmem) (nonzero : b ≠ 0) :
    ((k.redirectNext prev next).desc b).next = (if b = prev then next else (k.desc b).next) ∧
      ((k.redirectNext prev next).desc b).prev = (k.desc b).prev := by
  unfold redirectNext
  by_cases isZero : prev = 0
  · rw [if_neg (not_not.mpr isZero), if_neg fun eq => nonzero (eq.trans isZero)]
    exact ⟨rfl, rfl⟩
  · rw [if_pos isZero]
    by_cases eq : b = prev
    · rw [if_pos eq, eq, modifyDesc_self]
      exact ⟨rfl, rfl⟩
    · rw [if_neg eq, modifyDesc_of_ne _ _ eq]
      exact ⟨rfl, rfl⟩

theorem redirectPrev_links (k : Kmem) (nonzero : b ≠ 0) :
    ((k.redirectPrev prev next).desc b).prev = (if b = next then prev else (k.desc b).prev) ∧
      ((k.redirectPrev prev next).desc b).next = (k.desc b).next := by
  unfold redirectPrev
  by_cases isZero : next = 0
  · rw [if_neg (not_not.mpr isZero), if_neg fun eq => nonzero (eq.trans isZero)]
    exact ⟨rfl, rfl⟩
  · rw [if_pos isZero]
    by_cases eq : b = next
    · rw [if_pos eq, eq, modifyDesc_self]
      exact ⟨rfl, rfl⟩
    · rw [if_neg eq, modifyDesc_of_ne _ _ eq]
      exact ⟨rfl, rfl⟩

theorem unlink_head (k : Kmem) (c : Nat) : (k.unlink c).headOfCacheList =
    if (k.desc c).prev ≠ 0 then k.headOfCacheList else (k.desc c).next := by
  unfold unlink redirectPrev redirectNext
  split_ifs <;> rfl

theorem unlink_tail (k : Kmem) (c : Nat) : (k.unlink c).tailOfCacheList =
    if (k.desc c).next ≠ 0 then k.tailOfCacheList else (k.desc c).prev := by
  unfold unlink redirectPrev redirectNext
  split_ifs <;> rfl

theorem unlink_links (k : Kmem) (ne : b ≠ c) (nonzero : b ≠ 0) :
    ((k.unlink c).desc b).next =
        (if b = (k.desc c).prev then (k.desc c).next else (k.desc b).next) ∧
      ((k.unlink c).desc b).prev =
        (if b = (k.desc c).next then (k.desc c).prev else (k.desc b).prev) := by
  unfold unlink
  rw [modifyDesc_of_ne _ _ ne, (redirectPrev_links _ nonzero).1, (redirectPrev_links _ nonzero).2,
    (redirectNext_links k nonzero).1, (redirectNext_links k nonzero).2]
  exact ⟨rfl, rfl⟩

/-- Only the neighbours of the removed descriptor change. -/
theorem unlink_desc_of_ne (k : Kmem) (ne : b ≠ c) (notPrev : b = (k.desc c).prev → b = 0)
    (notNext : b = (k.desc c).next → b = 0) : (k.unlink c).desc b = k.desc b := by
  have first : (k.redirectNext (k.desc c).prev (k.desc c).next).desc b = k.desc b := by
    unfold redirectNext
    by_cases isZero : (k.desc c).prev = 0
    · rw [if_neg (not_not.mpr isZero)]
    · rw [if_pos isZero, modifyDesc_of_ne]
      intro eq
      exact isZero (eq ▸ notPrev eq)
  unfold unlink
  rw [modifyDesc_of_ne _ _ ne]
  unfold redirectPrev
  by_cases isZero : (k.desc c).next = 0
  · rw [if_neg (not_not.mpr isZero)]
    exact first
  · rw [if_pos isZero, modifyDesc_of_ne]
    · exact first
    · intro eq
      exact isZero (eq ▸ notNext eq)

end Unlink

/-- Only the head of the list and the new descriptor change. -/
theorem addToCacheList_desc_of_ne (k : Kmem) {b : Nat} (ne : b ≠ c)
    (notHead : b = k.headOfCacheList → b = 0) : (k.addToCacheList c).desc b = k.desc b := by
  unfold addToCacheList
  by_cases empty : k.headOfCacheList = 0
  · rw [if_pos empty]
  · rw [if_neg empty]
    have notHead' : b ≠ k.headOfCacheList := fun eq => empty (eq ▸ notHead eq)
    show ((k.modifyDesc k.headOfCacheList fun d => { d with prev := c }).modifyDesc c
      fun d => { d with next := k.headOfCacheList }).desc b = _
    rw [modifyDesc_of_ne _ _ ne, modifyDesc_of_ne _ _ notHead']

/-- The search of `remove_from_cache_list` finds a descriptor that is on the list. -/
theorem findInCacheList_spec {l : List Nat} {start : Nat}
    (chain : Chain (fun c => (k.desc c).next) 0 start l) (member : c ∈ l) :
    ∀ fuel, l.length < fuel → k.findInCacheList c fuel start = .ok c := by
  induction chain with
  | nil => cases member
  | @cons a l fresh rest ih =>
    intro fuel enough
    obtain ⟨fuel, rfl⟩ := Nat.exists_eq_succ_of_ne_zero (Nat.ne_zero_of_lt enough)
    rw [List.length_cons] at enough
    unfold findInCacheList
    by_cases eq : a = c
    · rw [if_pos (Or.inr eq), eq]
    · rw [if_neg (not_or.mpr ⟨fresh, eq⟩)]
      exact ih ((List.mem_cons.mp member).resolve_left (Ne.symm eq)) fuel (by omega)

namespace PoolInv

variable {caches : List Nat}

theorem congr (inv : PoolInv k caches) (place : k'.cachePool = k.cachePool)
    (head : k'.headOfCacheList = k.headOfCacheList) (tail : k'.tailOfCacheList = k.tailOfCacheList)
    (used : ∀ c, k'.Used c ↔ k.Used c) (links : ∀ c ∈ caches,
      (k'.desc c).next = (k.desc c).next ∧ (k'.desc c).prev = (k.desc c).prev) :
      PoolInv k' caches where
  pos := by rw [place]; exact inv.pos
  fits := by rw [place]; exact inv.fits
  linked := by
    rw [head]
    exact inv.linked.congr (fun c member => (links c member).1) fun c member => (links c member).2
  members := fun c => (inv.members c).trans (used c).symm
  tail := tail.trans inv.tail

theorem length_le (inv : PoolInv k caches) : caches.length ≤ maxNumCaches := by
  have sub : caches.toFinset ⊆ (Finset.range maxNumCaches).image k.slot := by
    intro c member
    rw [List.mem_toFinset, inv.members] at member
    obtain ⟨i, lt, isSlot, _⟩ := member
    rw [Finset.mem_image]
    exact ⟨i, Finset.mem_range.mpr lt, isSlot.symm⟩
  calc caches.length = caches.toFinset.card := (List.toFinset_card_of_nodup inv.linked.nodup).symm
    _ ≤ ((Finset.range maxNumCaches).image k.slot).card := Finset.card_le_card sub
    _ ≤ (Finset.range maxNumCaches).card := Finset.card_image_le
    _ = maxNumCaches := Finset.card_range _

/-- The neighbours of a listed descriptor are listed. -/
theorem neighbours_listed (inv : PoolInv k caches) (member : c ∈ caches) :
    ((k.desc c).prev = 0 ∨ (k.desc c).prev ∈ caches) ∧
    ((k.desc c).next = 0 ∨ (k.desc c).next ∈ caches) := by
  have linked := inv.linked
  obtain ⟨front, back, rfl⟩ := List.append_of_mem member
  constructor
  · rcases linked.prev_of_split with ⟨_, first, _⟩ | inFront
    · exact Or.inl first
    · exact Or.inr (List.mem_append_left _ inFront)
  · by_cases last : (k.desc c).next = 0
    · exact Or.inl last
    · obtain ⟨rest, isBack, _⟩ := linked.next_of_split.eq_cons_of_ne last
      refine Or.inr (List.mem_append_right _ (List.mem_cons_of_mem _ ?_))
      rw [isBack]
      exact List.mem_cons_self

/-- **`remove_from_cache_list` of a used cache.** -/
theorem remove (inv : PoolInv k caches) (member : c ∈ caches) :
    k.removeFromCacheList c = .ok (k.unlink c) ∧
      Linked (fun a => ((k.unlink c).desc a).next) (fun a => ((k.unlink c).desc a).prev) 0 0
        (k.unlink c).headOfCacheList (caches.erase c) ∧
      (k.unlink c).tailOfCacheList = (caches.erase c).getLast?.getD 0 := by
  have nonzero : c ≠ 0 := inv.linked.ne_stop member
  have distinct := inv.linked.nodup
  have linked := inv.linked
  obtain ⟨front, back, split⟩ := List.append_of_mem member
  have notFront : c ∉ front := by
    rw [split] at distinct
    intro inside
    exact (List.nodup_append.mp distinct).2.2 c inside c List.mem_cons_self rfl
  have erased : caches.erase c = front ++ back := by
    rw [split, List.erase_append_right _ notFront, List.erase_cons_head]
  have others : ∀ b ∈ front ++ back, b ≠ c ∧ b ≠ 0 := by
    intro b inside
    rw [← erased, distinct.mem_erase_iff] at inside
    exact ⟨inside.1, inv.linked.ne_stop inside.2⟩
  have found := findInCacheList_spec inv.linked.chain member (maxNumCaches + 1)
    (Nat.lt_succ_of_le inv.length_le)
  rw [split] at linked
  have last := linked.prev_eq_last
  have onward := linked.next_of_split
  have tail := inv.tail
  rw [split] at tail
  rw [erased]
  refine ⟨?_, ?_, ?_⟩
  · unfold removeFromCacheList
    rw [found]
    show (if c = 0 then _ else _) = _
    rw [if_neg nonzero]
    rfl
  · refine linked.drop ?_ ?_ ?_ ?_ ?_ ?_ ?_
    · exact fun inside => linked.ne_stop inside rfl
    · intro isNil
      have isFirst : (k.desc c).prev = 0 := by
        rw [isNil] at last
        exact last
      rw [unlink_head, if_neg (not_not.mpr isFirst)]
    · intro more
      rcases linked.prev_of_split with ⟨isNil, _⟩ | inFront
      · exact absurd isNil more
      · rw [unlink_head, if_pos (others _ (List.mem_append_left _ inFront)).2]
    · intro inFront
      obtain ⟨ne, nonzero'⟩ := others _ (List.mem_append_left _ inFront)
      rw [(k.unlink_links ne nonzero').1, if_pos rfl]
    · intro b inside ne
      obtain ⟨other, nonzero'⟩ := others b inside
      rw [(k.unlink_links other nonzero').1, if_neg ne]
    · intro more
      obtain ⟨rest, isBack, _⟩ := onward.eq_cons_of_ne more
      have inBack : (k.desc c).next ∈ back := by
        rw [isBack]
        exact List.mem_cons_self
      obtain ⟨ne, nonzero'⟩ := others _ (List.mem_append_right _ inBack)
      rw [(k.unlink_links ne nonzero').2, if_pos rfl]
    · intro b inside ne
      obtain ⟨other, nonzero'⟩ := others b inside
      rw [(k.unlink_links other nonzero').2, if_neg ne]
  · rw [unlink_tail]
    by_cases more : (k.desc c).next ≠ 0
    · obtain ⟨rest, isBack, _⟩ := onward.eq_cons_of_ne more
      rw [if_pos more, tail, isBack]
      simp [List.getLast?_append, List.getLast?_cons]
    · rw [not_not.mp more] at onward
      rw [if_neg more, onward.eq_nil_of_stop, List.append_nil]
      exact last

/-- **`add_to_cache_list` of a descriptor that just became used.** -/
theorem add (inv : PoolInv k caches) {i : Nat} (lt : i < maxNumCaches) (isSlot : c = k.slot i)
    (unused : ¬ k.Used c) (change : KmemCache → KmemCache)
    (on : (change (k.desc c)).isUsed = true) (noNext : (change (k.desc c)).next = 0)
    (noPrev : (change (k.desc c)).prev = 0) :
    PoolInv ((k.modifyDesc c change).addToCacheList c) (c :: caches) := by
  have relinked := (k.modifyDesc c change).addToCacheList_relinked c
  have nonzero : c ≠ 0 := by
    have pos := inv.pos
    rw [isSlot, slot]
    omega
  have absent : c ∉ caches := fun member => unused ((inv.members c).mp member)
  have place : ((k.modifyDesc c change).addToCacheList c).cachePool = k.cachePool := by
    rw [relinked.rest]
    rfl
  have members : ∀ a, a ∈ c :: caches ↔ ((k.modifyDesc c change).addToCacheList c).Used a := by
    intro a
    rw [relinked.used_iff, used_modifyDesc lt isSlot, List.mem_cons, inv.members]
    by_cases eq : a = c
    · simp only [eq, true_or, on, and_self]
    · simp only [eq, false_or, false_and, ne_eq, not_false_eq_true, true_and]
  have links : Linked (fun a => (((k.modifyDesc c change).addToCacheList c).desc a).next)
      (fun a => (((k.modifyDesc c change).addToCacheList c).desc a).prev) 0 0
        ((k.modifyDesc c change).addToCacheList c).headOfCacheList (c :: caches) ∧
      ((k.modifyDesc c change).addToCacheList c).tailOfCacheList =
      (c :: caches).getLast?.getD 0 := by
    have linked := inv.linked
    have tail := inv.tail
    have here : (k.modifyDesc c change).desc c = change (k.desc c) := modifyDesc_self ..
    by_cases empty : k.headOfCacheList = 0
    · have isNil : caches = [] := by
        rw [empty] at linked
        exact linked.eq_nil_of_stop
      have added : (k.modifyDesc c change).addToCacheList c =
          { k.modifyDesc c change with headOfCacheList := c, tailOfCacheList := c } := if_pos empty
      rw [added, isNil]
      refine ⟨.cons nonzero ?_ ?_, rfl⟩
      · show ((k.modifyDesc c change).desc c).prev = 0
        rw [here, noPrev]
      · show Linked _ _ 0 c ((k.modifyDesc c change).desc c).next []
        rw [here, noNext]
        exact .nil c
    · obtain ⟨rest, isList, _⟩ := linked.eq_cons_of_ne empty
      have first : k.headOfCacheList ∈ caches := by
        rw [isList]
        exact List.mem_cons_self
      have ne : c ≠ k.headOfCacheList := fun eq => absent (eq ▸ first)
      obtain ⟨head', tail', next', prev', back', others⟩ :=
        (k.modifyDesc c change).addToCacheList_links empty ne
      have old : ∀ b ∈ caches, b ≠ c ∧ (k.modifyDesc c change).desc b = k.desc b := by
        intro b member
        have other : b ≠ c := fun eq => absent (eq ▸ member)
        exact ⟨other, modifyDesc_of_ne _ _ other⟩
      rw [head', tail']
      refine ⟨linked.push nonzero next' (prev'.trans ?_) ?_ (fun _ => back') ?_, ?_⟩
      · rw [here]
        exact noPrev
      · intro b member
        obtain ⟨other, same⟩ := old b member
        exact (others b other).1.trans (congrArg KmemCache.next same)
      · intro b member notFirst
        obtain ⟨other, same⟩ := old b member
        exact ((others b other).2 notFirst).trans (congrArg KmemCache.prev same)
      · show k.tailOfCacheList = _
        rw [tail, isList]
        simp [List.getLast?_cons]
  exact ⟨by rw [place]; exact inv.pos, by rw [place]; exact inv.fits, links.1, members, links.2⟩

end PoolInv

end Kmem

end Xv6Slab
