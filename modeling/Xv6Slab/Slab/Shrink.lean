/-
**`kmem_cache_shrink` gives every empty slab back.**

* `Loose.drop` — a slab on no list stops being one when its page owners are cleared.
* `Shrunk` — what the call changes: the empty list and the blocks of its slabs.
* `Core.shrinkRound_spec` — one round of the loop.
* `Core.kmemCacheShrink_spec` — **the call returns the number of slabs that were empty, and no live
  allocation changes.** The empty slabs are distinct blocks, so the loop ends.
-/

import Xv6Slab.Slab.Free

namespace Xv6Slab

open Bytes Chains Tilings

namespace Kmem

variable {k k' k'' : Kmem} {v v' v'' : View} {s c : Nat}

theorem setList_setList (lists : Nat → SlabList → List Nat) (c : Nat) (list : SlabList)
    (l l' : List Nat) : setList (setList lists c list l) c list l' = setList lists c list l' := by
  funext c' list'
  by_cases here : c' = c ∧ list' = list
  · obtain ⟨rfl, rfl⟩ := here
    rw [setList_self, setList_self]
  · rw [setList_of_ne here, setList_of_ne here, setList_of_ne here]

theorem buddyFree_ok {p : Nat} (run : k.buddyFree p = .ok k') :
    ∃ b, k.toBuddy.buddyFree p = .ok b ∧ k' = k.setBuddy b := by
  unfold buddyFree at run
  cases call : k.toBuddy.buddyFree p with
  | error fault =>
    rw [call] at run
    cases run
  | ok b =>
    rw [call] at run
    exact ⟨b, rfl, (Except.ok.inj run).symm⟩

/-- **Clearing the owners of a slab on no list** leaves an allocated block that is no slab. -/
theorem Loose.drop (loose : Loose k v s) {l : List Nat} (isSlab : v.slabs s = some ⟨c, l⟩) {i : Nat}
    (address : s = k.page i) :
    Core (k.setBuddy (k.toBuddy.withOwner i (2 ^ (k.desc c).slabOrder) 0))
      { v with slabs := Function.update v.slabs s none } where
  lists := loose.lists.frame (SameOutside.refl ∅ _) (fun _ => Iff.rfl) (fun _ _ => rfl)
    fun _ inside => absurd inside (Set.notMem_empty _)
  slabs := loose.slabs.dropSlab isSlab address
  pool := loose.pool.setBuddy _
  listed := by
    intro t c'
    by_cases eq : t = s
    · subst eq
      simp only [Function.update_self, reduceCtorEq, exists_false, false_iff, not_exists]
      exact loose.unlisted c'
    · simp only [Function.update_of_ne eq]
      exact loose.listed t c' eq
  category := by
    intro c' list t l' inList isSlab'
    have ne : t ≠ s := fun eq => loose.unlisted c' list (eq ▸ inList)
    simp only [Function.update_of_ne ne] at isSlab'
    exact loose.category c' list t l' inList isSlab'

/-- **Giving a slab on no list back to the buddy allocator**, when every object of it is free. -/
theorem Loose.giveBack (loose : Loose k v s) {l : List Nat} (isSlab : v.slabs s = some ⟨c, l⟩)
    (length : l.length = (k.desc c).objsPerSlab) :
    ∃ b₁ b, k.toBuddy.setOwners (k.addrToIndex s) 0 (2 ^ (k.desc c).slabOrder) = .ok b₁ ∧
      b₁.buddyFree s = .ok b ∧
      Core (k.setBuddy b) { v with slabs := Function.update v.slabs s none } ∧
      live (k.setBuddy b) (Function.update v.slabs s none) = live k v.slabs ∧
      Calm k (k.setBuddy b) ∧
      SameOutside (spare k v.slabs ∪ Set.Ico s (s + (k.desc c).slabBytes)) k.mem b.mem := by
  obtain ⟨i, address, inAlloc⟩ := loose.slabs.placed s _ isSlab
  have lt := loose.slabs.pool.index_lt_of_taken inAlloc
  have inside : i + 2 ^ (k.desc c).slabOrder ≤ k.num :=
    loose.slabs.pool.tiling.inside _ (Or.inr inAlloc)
  have index : k.addrToIndex s = i := by
    rw [address]
    exact Buddy.addrToIndex_page loose.slabs.rep.region lt
  have dropped := loose.drop isSlab address
  have all := (loose.slabs.header s _ isSlab).all_free length
  have isSlab' : v.slabs (k.page i) = some ⟨c, l⟩ := address ▸ isSlab
  have added := loose.slabs.live_dropSlab isSlab' all rfl inAlloc
  rw [← address] at added
  have isBlock : .block s (k.desc c).slabOrder ∈
      live (k.setBuddy (k.toBuddy.withOwner i (2 ^ (k.desc c).slabOrder) 0))
        (Function.update v.slabs s none) := by
    rw [added]
    exact Set.mem_insert _ _
  have absent : .block s (k.desc c).slabOrder ∉ live k v.slabs := by
    intro isLive
    obtain ⟨j, _, unowned, same⟩ := isLive
    rw [address] at same
    have owner := loose.slabs.owner_of_slab isSlab address inAlloc
    rw [Buddy.page_injective _ same, unowned] at owner
    exact loose.slabs.nonzero isSlab owner.symm
  obtain ⟨k₁, call, loses⟩ := dropped.buddyFree_spec isBlock
  obtain ⟨b, run, rfl⟩ := buddyFree_ok call
  refine ⟨_, b, ?_, run, loses.core, ?_, ?_, ?_⟩
  · rw [index]
    exact Buddy.setOwners_ok _ _ _ _ inside
  · have gone := loses.live
    simp only at gone
    rw [added, Set.insert_sdiff_self_of_notMem absent] at gone
    exact gone
  · have calm : Calm k (k.setBuddy (k.toBuddy.withOwner i (2 ^ (k.desc c).slabOrder) 0)) :=
      ⟨rfl, rfl, fun _ => rfl, rfl⟩
    exact calm.trans loses.calm
  · refine loses.mem.mono ?_
    rintro a ((⟨t, c', l', isSlab', range⟩ | inFree) | inBlock)
    · by_cases eq : t = s
      · subst eq
        simp only [Function.update_self, reduceCtorEq] at isSlab'
      · simp only [Function.update_of_ne eq] at isSlab'
        exact Or.inl (Or.inl ⟨t, c', l', isSlab', range⟩)
    · exact Or.inl (Or.inr (Buddy.withOwner_freeBlocks .. ▸ inFree))
    · exact Or.inr inBlock

/-! ### The call -/

/-- The bytes of some slabs of a cache. -/
def slabArea (k : Kmem) (c : Nat) (gone : Set Nat) : Set Nat :=
  {a | ∃ s ∈ gone, a ∈ Set.Ico s (s + (k.desc c).slabBytes)}

/-- A step that gives back slabs of the empty list of a cache, down to the slabs `rest`. -/
structure Shrunk (c : Nat) (rest : List Nat) (k : Kmem) (v : View) (k' : Kmem) (v' : View) :
    Prop where
  core : Core k' v'
  lists : v'.lists = setList v.lists c .empty rest
  slabs : ∀ t, v'.slabs t = if t ∈ v.lists c .empty ∧ t ∉ rest then none else v.slabs t
  caches : v'.caches = v.caches
  live : live k' v'.slabs = live k v.slabs
  calm : Calm k k'
  mem :
      SameOutside (spare k v.slabs ∪ slabArea k c {t | t ∈ v.lists c .empty ∧ t ∉ rest})
      k.mem k'.mem

/-- The first slab of the empty list, popped and given back. -/
theorem Core.shrinkRound_spec (core : Core k v) (used : k.Used c) {rest : List Nat}
    (isList : v.lists c .empty = s :: rest) :
    ∃ k₁ b₁ b v', k.removeFromSlabList c .empty = (k₁, s) ∧
      k₁.toBuddy.setOwners (k₁.addrToIndex s) 0 (2 ^ (k₁.desc c).slabOrder) = .ok b₁ ∧
      b₁.buddyFree s = .ok b ∧ Shrunk c rest k v (k₁.setBuddy b) v' := by
  have head : (k.desc c).head .empty = s := by
    have linked := core.lists.linked c used .empty
    rw [isList] at linked
    exact linked.chain.tail.1
  have member : s ∈ v.lists c .empty := by
    rw [isList]
    exact List.mem_cons_self
  obtain ⟨l, isSlab⟩ := core.isSlab member
  have nonempty : (k.desc c).head .empty ≠ 0 := by
    rw [head]
    exact core.slabs.nonzero isSlab
  have length : l.length = (k.desc c).objsPerSlab := core.category c .empty s l member isSlab
  obtain ⟨_, _, popped⟩ := core.lists.pop used nonempty
  rw [head] at popped
  obtain ⟨loose, quiet⟩ := (core.toOpen s).remove member
  rw [isList, List.erase_cons_head] at loose
  have length' : l.length = ((k.slabListRemoveNode c .empty s).desc c).objsPerSlab := by
    rw [quiet.objsPerSlab]
    exact length
  obtain ⟨b₁, b, owners, freed, core', sameLive, calm, same⟩ := loose.giveBack isSlab length'
  have notRest : s ∉ rest := by
    have distinct := (core.lists.linked c used .empty).nodup
    rw [isList] at distinct
    exact (List.nodup_cons.mp distinct).1
  refine ⟨_, b₁, b, _, popped, owners, freed, core', rfl, ?_, rfl, sameLive.trans (quiet.live _),
    quiet.calm.trans calm, ?_⟩
  · intro t
    by_cases eq : t = s
    · subst eq
      rw [if_pos ⟨member, notRest⟩]
      exact Function.update_self ..
    · have kept : ¬ (t ∈ v.lists c .empty ∧ t ∉ rest) := by
        intro given
        rw [isList, List.mem_cons] at given
        exact given.2 (given.1.resolve_left eq)
      rw [if_neg kept]
      exact Function.update_of_ne eq ..
  · rw [quiet.spare, quiet.slabBytes] at same
    refine (quiet.mem.mono fun a inside => Or.inl (Or.inl ((core.toOpen s).links_sub inside))).trans
      (same.mono (Set.union_subset_union_right _ ?_))
    exact fun a inside => ⟨s, ⟨member, notRest⟩, inside⟩

/-- The slabs that are left were there before. -/
theorem Shrunk.slab_before {rest : List Nat} (shrunk : Shrunk c rest k v k' v') {t : Nat}
    {w : SlabView} (isSlab : v'.slabs t = some w) : v.slabs t = some w := by
  rw [shrunk.slabs] at isSlab
  split_ifs at isSlab
  exact isSlab

/-- Only the slabs given back become spare. -/
theorem Shrunk.spare_sub {rest : List Nat} (shrunk : Shrunk c rest k v k' v') (core : Core k v) :
    spare k' v'.slabs ⊆ spare k v.slabs ∪ slabArea k c {t | t ∈ v.lists c .empty ∧ t ∉ rest} := by
  have shape := fun a => KmemCache.SameShape.of_layout (shrunk.calm.layout a)
  rintro a (⟨t, c', l, isSlab, low, high⟩ | inFree)
  · rw [(shape c').objsPerSlab] at high
    exact Or.inl (Or.inl ⟨t, c', l, shrunk.slab_before isSlab, low, high⟩)
  · obtain ⟨inRegion, noSlab, noBlock⟩ := shrunk.core.slabs.mem_span_free.mp inFree
    by_cases given : a ∈ slabArea k c {t | t ∈ v.lists c .empty ∧ t ∉ rest}
    · exact Or.inr given
    refine Or.inl
      (Or.inr (core.slabs.mem_span_free.mpr ⟨shrunk.calm.regionBytes ▸ inRegion, ?_, ?_⟩))
    · intro t w isSlab inSlab
      by_cases gone : t ∈ v.lists c .empty ∧ t ∉ rest
      · obtain ⟨l, isSlab'⟩ := core.isSlab gone.1
        rw [isSlab, Option.some.injEq] at isSlab'
        rw [isSlab'] at inSlab
        exact given ⟨t, gone, inSlab⟩
      · refine noSlab t w ?_ ?_
        · rw [shrunk.slabs, if_neg gone]
          exact isSlab
        · rw [(shape w.cache).slabBytes]
          exact inSlab
    · intro base order isLive
      rw [← shrunk.live] at isLive
      exact noBlock base order isLive

theorem Shrunk.trans {rest : List Nat} (core : Core k v) (first : Shrunk c rest k v k' v')
    (second : Shrunk c [] k' v' k'' v'') (sub : ∀ t ∈ rest, t ∈ v.lists c .empty) :
    Shrunk c [] k v k'' v'' where
  core := second.core
  lists := by
    rw [second.lists, first.lists, setList_setList]
  slabs := by
    intro t
    have left : v'.lists c .empty = rest := by
      rw [first.lists, setList_self]
    rw [second.slabs t, first.slabs t, left]
    have known := sub t
    by_cases inRest : t ∈ rest
    · rw [if_pos ⟨inRest, List.not_mem_nil⟩, if_pos ⟨known inRest, List.not_mem_nil⟩]
    · rw [if_neg fun both => inRest both.1]
      simp only [inRest, List.not_mem_nil, not_false_eq_true, and_true]
  caches := second.caches.trans first.caches
  live := second.live.trans first.live
  calm := first.calm.trans second.calm
  mem := by
    have left : v'.lists c .empty = rest := by
      rw [first.lists, setList_self]
    have bytes := (KmemCache.SameShape.of_layout (first.calm.layout c)).slabBytes
    have wider : slabArea k c {t | t ∈ v.lists c .empty ∧ t ∉ rest} ⊆
        slabArea k c {t | t ∈ v.lists c .empty ∧ t ∉ []} :=
      fun a ⟨t, gone, inside⟩ => ⟨t, ⟨gone.1, List.not_mem_nil⟩, inside⟩
    refine (first.mem.mono (Set.union_subset_union_right _ wider)).trans (second.mem.mono ?_)
    rintro a (inSpare | ⟨t, ⟨inRest, _⟩, inside⟩)
    · exact Set.union_subset_union_right _ wider (first.spare_sub core inSpare)
    · rw [left] at inRest
      rw [bytes] at inside
      exact Or.inr ⟨t, ⟨sub t inRest, List.not_mem_nil⟩, inside⟩

/-- The region holds all that is written. -/
theorem Shrunk.mem_region {rest : List Nat} (shrunk : Shrunk c rest k v k' v') (core : Core k v) :
    SameOutside k.regionBytes k.mem k'.mem := by
  refine shrunk.mem.mono (Set.union_subset core.slabs.spare_sub ?_)
  rintro a ⟨t, ⟨member, _⟩, low, high⟩
  obtain ⟨l, isSlab⟩ := core.isSlab member
  obtain ⟨i, address, _⟩ := core.slabs.placed t _ isSlab
  have fits := core.slabs.fits isSlab
  simp only [Buddy.page] at address fits
  exact ⟨by omega, by omega⟩

theorem Core.shrunk_refl (core : Core k v) (isNil : v.lists c .empty = []) :
    Shrunk c [] k v k v where
  core := core
  lists := by
    funext c' list'
    by_cases here : c' = c ∧ list' = .empty
    · obtain ⟨rfl, rfl⟩ := here
      rw [setList_self, isNil]
    · rw [setList_of_ne here]
  slabs := by
    intro t
    rw [isNil, if_neg fun both => List.not_mem_nil both.1]
  caches := rfl
  live := rfl
  calm := Calm.refl k
  mem := SameOutside.refl _ _

/-- **The loop of `kmem_cache_shrink`**, by induction on the empty slabs that are left. -/
theorem Core.shrinkLoop_spec : ∀ (l : List Nat) {k : Kmem} {v : View} (fuel freed : Nat), Core k v →
    k.Used c → v.lists c .empty = l → l.length < fuel →
    ∃ k' v', shrinkLoop c fuel k freed = .ok (k', freed + l.length) ∧ Shrunk c [] k v k' v' := by
  intro l
  induction l with
  | nil =>
    intro k v fuel freed core used isList enough
    obtain ⟨fuel, rfl⟩ := Nat.exists_eq_succ_of_ne_zero (Nat.ne_of_gt enough)
    have head : (k.desc c).head .empty = 0 := by
      have linked := core.lists.linked c used .empty
      rw [isList] at linked
      exact linked.stop_of_nil
    refine ⟨k, v, ?_, core.shrunk_refl isList⟩
    have popped : k.removeFromSlabList c .empty = (k, 0) := ListsInv.pop_empty head
    unfold shrinkLoop
    rw [popped]
    rfl
  | cons s rest ih =>
    intro k v fuel freed core used isList enough
    obtain ⟨fuel, rfl⟩ := Nat.exists_eq_succ_of_ne_zero (Nat.ne_zero_of_lt enough)
    rw [List.length_cons] at enough ⊢
    obtain ⟨k₁, b₁, b, v₁, popped, owners, given, round⟩ := core.shrinkRound_spec used isList
    have isList₁ : v₁.lists c .empty = rest := by
      rw [round.lists, setList_self]
    obtain ⟨k', v', run, shrunk⟩ := ih fuel (freed + 1) round.core
      ((round.calm.used_iff c).mpr used) isList₁ (by omega)
    refine ⟨k', v', ?_, Shrunk.trans core round shrunk ?_⟩
    · have nonzero : s ≠ 0 := by
        obtain ⟨l, isSlab⟩ := core.isSlab (isList ▸ List.mem_cons_self)
        exact core.slabs.nonzero isSlab
      unfold shrinkLoop
      rw [popped]
      show (if s = 0 then _ else _) = _
      rw [if_neg nonzero, owners]
      show (b₁.buddyFree s >>= _) = _
      rw [given]
      show shrinkLoop c fuel (k₁.setBuddy b) (freed + 1) = _
      rw [run, Nat.add_assoc, Nat.add_comm 1]
    · intro t inRest
      rw [isList]
      exact List.mem_cons_of_mem _ inRest

/-- A cache has no more empty slabs than there are pages. -/
theorem Core.empty_length_le (core : Core k v) (used : k.Used c) :
    (v.lists c .empty).length ≤ k.num := by
  have distinct := (core.lists.linked c used .empty).nodup
  have sub : (v.lists c .empty).toFinset ⊆ (Finset.range k.num).image k.page := by
    intro s member
    rw [List.mem_toFinset] at member
    obtain ⟨l, isSlab⟩ := core.isSlab member
    obtain ⟨i, address, inAlloc⟩ := core.slabs.placed s _ isSlab
    rw [Finset.mem_image]
    exact ⟨i, Finset.mem_range.mpr (core.slabs.pool.index_lt_of_taken inAlloc), address.symm⟩
  calc (v.lists c .empty).length = (v.lists c .empty).toFinset.card :=
        (List.toFinset_card_of_nodup distinct).symm
    _ ≤ ((Finset.range k.num).image k.page).card := Finset.card_le_card sub
    _ ≤ (Finset.range k.num).card := Finset.card_image_le
    _ = k.num := Finset.card_range _

/-- **`kmem_cache_shrink` gives back exactly the empty slabs of the cache.** -/
theorem Core.kmemCacheShrink_spec (core : Core k v) (used : k.Used c) :
    ∃ k' v', k.kmemCacheShrink c = .ok (k', (v.lists c .empty).length) ∧ Shrunk c [] k v k' v' := by
  have enough := core.empty_length_le used
  obtain ⟨k', v', run, shrunk⟩ :=
    Core.shrinkLoop_spec (v.lists c .empty) (k.managedNumBlocks.toNat + 1)
    0 core used rfl (Nat.lt_succ_of_le enough)
  refine ⟨k', v', ?_, shrunk⟩
  unfold kmemCacheShrink
  rw [if_neg (core.pool.used_bounds used).1, run, Nat.zero_add]

end Kmem

end Xv6Slab
