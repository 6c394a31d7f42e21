/-
**The invariant of the slab allocator.**

A `View` names the slabs on every list, the free indices of every slab, and the used caches in the
order of the cache list. `Core k v` ties a state to a view:

* `ListsInv`, `SlabsInv`, `PoolInv` — the slab lists, the slabs and the cache pool;
* `listed` — a slab stands on a list of its cache, and only slabs do;
* `category` — the list of a slab is given by its number of free objects.

Between the writes of one call the category of the slab at hand may be wrong: `Open k v s` is the
invariant with that exception. `Open.take` and `Open.give` move one object of the slab, `Open.close`
ends the exception. `Loose k v s` is the invariant while the slab is on no list; `Open.remove` and
`Loose.push` lead from one to the other, and `Open.move` is both in a row.
-/

import Xv6Slab.Slab.Live

namespace Xv6Slab

open Bytes Chains Tilings

/-- The list a slab belongs on, by its number of objects and of free objects. -/
def InCategory (n free : Nat) : SlabList → Prop
  | .full => free = 0
  | .partials => 0 < free ∧ free < n
  | .empty => free = n

/-- What the lists, the slabs and the cache list hold. -/
structure View where
  lists : Nat → SlabList → List Nat
  slabs : Nat → Option SlabView
  caches : List Nat

namespace Kmem

/-! ### The cache pool -/

/-- The cache list holds exactly the used descriptors of the pool. -/
structure PoolInv (k : Kmem) (caches : List Nat) : Prop where
  pos : 0 < k.cachePool
  fits : k.cachePool + maxNumCaches * descSize ≤ 2 ^ 64
  linked : Linked (fun c => (k.desc c).next) (fun c => (k.desc c).prev) 0 0 k.headOfCacheList caches
  members : ∀ c, c ∈ caches ↔ k.Used c
  tail : k.tailOfCacheList = caches.getLast?.getD 0

/-- No used descriptor is being destroyed. -/
def Idle (k : Kmem) : Prop := ∀ c, k.Used c → (k.desc c).destroying = false

namespace PoolInv

variable {k k' : Kmem} {caches : List Nat} {c : Nat}

theorem quiet {touched : Set Nat} (inv : PoolInv k caches) (quiet : Quiet k k' touched) :
    PoolInv k' caches where
  pos := by rw [quiet.rest]; exact inv.pos
  fits := by rw [quiet.rest]; exact inv.fits
  linked := by
    have head : k'.headOfCacheList = k.headOfCacheList := by rw [quiet.rest]
    rw [head]
    exact inv.linked.congr (fun c _ => quiet.field KmemCache.next c)
      fun c _ => quiet.field KmemCache.prev c
  members := fun c => (inv.members c).trans (quiet.used_iff c).symm
  tail := by
    have tail : k'.tailOfCacheList = k.tailOfCacheList := by rw [quiet.rest]
    rw [tail]
    exact inv.tail

theorem setBuddy (inv : PoolInv k caches) (b : Buddy) : PoolInv (k.setBuddy b) caches :=
  ⟨inv.pos, inv.fits, inv.linked, inv.members, inv.tail⟩

theorem slot_bounds (inv : PoolInv k caches) {i : Nat} (lt : i < maxNumCaches) :
    k.slot i ≠ 0 ∧ k.slot i < 2 ^ 64 := by
  have pos := inv.pos
  have fits := inv.fits
  unfold slot
  simp only [maxNumCaches, descSize] at *
  exact ⟨by omega, by omega⟩

theorem used_bounds (inv : PoolInv k caches) (used : k.Used c) : c ≠ 0 ∧ c < 2 ^ 64 := by
  obtain ⟨i, lt, rfl, _⟩ := used
  exact inv.slot_bounds lt

end PoolInv

/-! ### The invariant -/

/-- The invariant of the slab allocator. -/
structure Core (k : Kmem) (v : View) : Prop where
  lists : ListsInv k v.lists
  slabs : SlabsInv k v.slabs
  pool : PoolInv k v.caches
  listed : ∀ s c, (∃ l, v.slabs s = some ⟨c, l⟩) ↔ ∃ list, s ∈ v.lists c list
  category : ∀ c list s l, s ∈ v.lists c list → v.slabs s = some ⟨c, l⟩ →
    InCategory (k.desc c).objsPerSlab l.length list

/-- The invariant, except that the slab `s` may stand on a wrong list of its cache. -/
structure Open (k : Kmem) (v : View) (s : Nat) : Prop where
  lists : ListsInv k v.lists
  slabs : SlabsInv k v.slabs
  pool : PoolInv k v.caches
  listed : ∀ s c, (∃ l, v.slabs s = some ⟨c, l⟩) ↔ ∃ list, s ∈ v.lists c list
  category : ∀ c list t l, t ≠ s → t ∈ v.lists c list → v.slabs t = some ⟨c, l⟩ →
    InCategory (k.desc c).objsPerSlab l.length list

/-- The invariant, except that the page `s` is on no list, whether or not it is a slab. -/
structure Loose (k : Kmem) (v : View) (s : Nat) : Prop where
  lists : ListsInv k v.lists
  slabs : SlabsInv k v.slabs
  pool : PoolInv k v.caches
  unlisted : ∀ c list, s ∉ v.lists c list
  listed : ∀ t c, t ≠ s → ((∃ l, v.slabs t = some ⟨c, l⟩) ↔ ∃ list, t ∈ v.lists c list)
  category : ∀ c list t l, t ∈ v.lists c list → v.slabs t = some ⟨c, l⟩ →
    InCategory (k.desc c).objsPerSlab l.length list

namespace Core

variable {k k' : Kmem} {v : View} {s c : Nat}

theorem toOpen (core : Core k v) (s : Nat) : Open k v s :=
  ⟨core.lists, core.slabs, core.pool, core.listed,
    fun c list t l _ member isSlab => core.category c list t l member isSlab⟩

/-- A slab that stands on a list. -/
theorem isSlab (core : Core k v) {list : SlabList} (member : s ∈ v.lists c list) :
    ∃ l, v.slabs s = some ⟨c, l⟩ := (core.listed s c).mpr ⟨list, member⟩

/-- A quiet step that touches neither headers nor link words nor free blocks, and no head. -/
theorem frame (core : Core k v) {touched : Set Nat} (quiet : Quiet k k' touched)
    (heads : ∀ c list, (k'.desc c).head list = (k.desc c).head list)
    (notFree : ∀ a ∈ touched, a ∉ k.span k.freeBlocks)
    (notHeader : ∀ s c l, v.slabs s = some ⟨c, l⟩ → ∀ a ∈ touched,
      a ∉ Set.Ico s (s + 32 + 2 * (k.desc c).objsPerSlab)) : Core k' v where
  lists := by
    refine core.lists.frame quiet.mem quiet.used_iff heads ?_
    intro a inTouched inLinks
    obtain ⟨s, ⟨c, list, member⟩, low, high⟩ := inLinks
    obtain ⟨l, isSlab⟩ := core.isSlab member
    exact notHeader s c l isSlab a inTouched ⟨by omega, by omega⟩
  slabs := by
    refine core.slabs.frame quiet notFree ?_
    intro s w isSlab a inTouched inInfo
    refine notHeader s w.cache w.free isSlab a inTouched ?_
    rcases inInfo with ⟨low, high⟩ | ⟨low, high⟩
    · exact ⟨low, by omega⟩
    · exact ⟨by omega, high⟩
  pool := core.pool.quiet quiet
  listed := core.listed
  category := by
    intro c list s l member isSlab
    rw [quiet.objsPerSlab]
    exact core.category c list s l member isSlab

end Core

namespace Open

variable {k k' : Kmem} {v : View} {s c : Nat}

theorem close (mid : Open k v s) {list : SlabList} {l : List Nat} (member : s ∈ v.lists c list)
    (isSlab : v.slabs s = some ⟨c, l⟩) (right : InCategory (k.desc c).objsPerSlab l.length list) :
    Core k v where
  lists := mid.lists
  slabs := mid.slabs
  pool := mid.pool
  listed := mid.listed
  category := by
    intro c' list' t l' inList isSlab'
    by_cases eq : t = s
    · subst eq
      obtain ⟨rfl, rfl⟩ := mid.lists.apart _ _ _ _ t inList member
      rw [isSlab, Option.some.injEq, SlabView.mk.injEq] at isSlab'
      rw [← isSlab'.2]
      exact right
    · exact mid.category c' list' t l' eq inList isSlab'

theorem listed_slabs (mid : Open k v s) :
    ∀ t ∈ ListsInv.listed v.lists, ∃ w, v.slabs t = some w := by
  intro t isListed
  obtain ⟨c, list, member⟩ := isListed
  obtain ⟨l, isSlab⟩ := (mid.listed t c).mpr ⟨list, member⟩
  exact ⟨_, isSlab⟩

/-- **Taking the slab at hand off its list.** -/
theorem remove (mid : Open k v s) {list : SlabList} (member : s ∈ v.lists c list) :
    Loose (k.slabListRemoveNode c list s)
        { v with lists := setList v.lists c list ((v.lists c list).erase s) } s ∧
      Quiet k (k.slabListRemoveNode c list s) (linkBytes (ListsInv.listed v.lists)) := by
  have used := mid.lists.used c list s member
  have nodup := (mid.lists.linked c used list).nodup
  obtain ⟨front, back, split⟩ := List.append_of_mem member
  have notFront : s ∉ front := by
    rw [split] at nodup
    intro inside
    exact (List.nodup_append.mp nodup).2.2 s inside s List.mem_cons_self rfl
  have erased : (v.lists c list).erase s = front ++ back := by
    rw [split, List.erase_append_right _ notFront, List.erase_cons_head]
  obtain ⟨removed, quiet⟩ := mid.lists.remove split
  rw [← erased] at removed
  have stays : ∀ t c' list', t ∈ setList v.lists c list ((v.lists c list).erase s) c' list' ↔
      t ≠ s ∧ t ∈ v.lists c' list' := by
    intro t c' list'
    by_cases here : c' = c ∧ list' = list
    · obtain ⟨rfl, rfl⟩ := here
      rw [setList_self, nodup.mem_erase_iff]
    · rw [setList_of_ne here]
      refine ⟨fun inList => ⟨?_, inList⟩, And.right⟩
      intro eq
      subst eq
      exact here (mid.lists.apart _ _ _ _ t inList member)
  refine ⟨⟨removed, mid.slabs.frame_links quiet mid.listed_slabs, mid.pool.quiet quiet, ?_, ?_, ?_⟩,
    quiet⟩
  · intro c' list' inList
    exact ((stays s c' list').mp inList).1 rfl
  · intro t c' other
    refine (mid.listed t c').trans ⟨?_, ?_⟩
    · exact fun ⟨list', inList⟩ => ⟨list', (stays t c' list').mpr ⟨other, inList⟩⟩
    · exact fun ⟨list', inList⟩ => ⟨list', ((stays t c' list').mp inList).2⟩
  · intro c' list' t l inList isSlab
    obtain ⟨other, before⟩ := (stays t c' list').mp inList
    rw [quiet.objsPerSlab]
    exact mid.category c' list' t l other before isSlab

end Open

/-- **Putting a loose slab on a list.** -/
theorem Loose.push {k : Kmem} {v : View} {s c : Nat} {l : List Nat} (loose : Loose k v s)
    (isSlab : v.slabs s = some ⟨c, l⟩) (list : SlabList) :
    Open (k.slabListPushFront c list s)
        { v with lists := setList v.lists c list (s :: v.lists c list) } s ∧
      Quiet k (k.slabListPushFront c list s) (linkBytes (insert s (ListsInv.listed v.lists))) := by
  have used : k.Used c := loose.slabs.used s _ isSlab
  have small : s < 2 ^ 64 := by
    have fits : s + (k.desc c).slabBytes ≤ 2 ^ 64 := loose.slabs.small isSlab
    have room := (loose.slabs.geometry c used).header_lt
    omega
  obtain ⟨pushed, quiet⟩ := loose.lists.push used list loose.unlisted
    (loose.slabs.nonzero isSlab) (loose.slabs.paged isSlab) small
  have areSlabs : ∀ t ∈ insert s (ListsInv.listed v.lists), ∃ w, v.slabs t = some w := by
    intro t member
    by_cases eq : t = s
    · subst eq
      exact ⟨_, isSlab⟩
    · obtain ⟨c', list', inList⟩ := Set.mem_of_mem_insert_of_ne member eq
      obtain ⟨l', isSlab'⟩ := (loose.listed t c' eq).mpr ⟨list', inList⟩
      exact ⟨_, isSlab'⟩
  have stays : ∀ t c' list', t ∈ setList v.lists c list (s :: v.lists c list) c' list' ↔
      (t ≠ s ∧ t ∈ v.lists c' list') ∨ (t = s ∧ c' = c ∧ list' = list) := by
    intro t c' list'
    have other : t ∈ v.lists c' list' → t ≠ s := by
      intro inList eq
      subst eq
      exact loose.unlisted c' list' inList
    by_cases here : c' = c ∧ list' = list
    · obtain ⟨rfl, rfl⟩ := here
      rw [setList_self, List.mem_cons]
      tauto
    · rw [setList_of_ne here]
      tauto
  refine ⟨⟨pushed, loose.slabs.frame_links quiet areSlabs, loose.pool.quiet quiet, ?_, ?_⟩, quiet⟩
  · intro t c'
    simp only [stays]
    by_cases eq : t = s
    · subst eq
      constructor
      · intro known
        obtain ⟨l', isSlab'⟩ := known
        rw [isSlab, Option.some.injEq, SlabView.mk.injEq] at isSlab'
        exact ⟨list, Or.inr ⟨rfl, isSlab'.1.symm, rfl⟩⟩
      · intro isListed
        obtain ⟨list', ⟨ne, _⟩ | ⟨_, rfl, _⟩⟩ := isListed
        · exact absurd rfl ne
        · exact ⟨l, isSlab⟩
    · simp only [loose.listed t c' eq, ne_eq, eq, not_false_eq_true, true_and, false_and, or_false]
  · intro c' list' t l' other inList isSlab'
    rw [quiet.objsPerSlab]
    rcases (stays t c' list').mp inList with ⟨_, before⟩ | ⟨eq, _⟩
    · exact loose.category c' list' t l' before isSlab'
    · exact absurd eq other

namespace Open

variable {k k' : Kmem} {v : View} {s c : Nat}

/-- The lists after the slab at hand has moved. -/
def moveLists (lists : Nat → SlabList → List Nat) (c s : Nat) (source target : SlabList) :
    Nat → SlabList → List Nat :=
  setList (setList lists c source ((lists c source).erase s)) c target
    (s :: setList lists c source ((lists c source).erase s) c target)

theorem mem_moveLists (lists : Nat → SlabList → List Nat) (c s : Nat) (source target : SlabList) :
    s ∈ moveLists lists c s source target c target := by
  unfold moveLists
  rw [setList_self]
  exact List.mem_cons_self

/-- **Moving the slab at hand to another list**: `slab_list_remove_node`, then
`slab_list_push_front`. -/
theorem move (mid : Open k v s) {source : SlabList} (member : s ∈ v.lists c source)
    (target : SlabList) :
    Open ((k.slabListRemoveNode c source s).slabListPushFront c target s)
        { v with lists := moveLists v.lists c s source target } s ∧
      Quiet k ((k.slabListRemoveNode c source s).slabListPushFront c target s)
        (linkBytes (ListsInv.listed v.lists)) := by
  obtain ⟨l, isSlab⟩ := (mid.listed s c).mpr ⟨source, member⟩
  obtain ⟨loose, quiet₁⟩ := mid.remove member
  obtain ⟨moved, quiet₂⟩ := loose.push isSlab target
  refine ⟨moved, quiet₁.trans (quiet₂.mono (linkBytes_mono ?_))⟩
  intro t isListed
  rcases isListed with rfl | ⟨c', list', inList⟩
  · exact ⟨c, source, member⟩
  · simp only at inList
    by_cases here : c' = c ∧ list' = source
    · obtain ⟨rfl, rfl⟩ := here
      rw [setList_self] at inList
      exact ⟨c', list', List.mem_of_mem_erase inList⟩
    · rw [setList_of_ne here] at inList
      exact ⟨c', list', inList⟩

/-- A step inside the slab at hand that leaves its link words alone and gives it another view. -/
theorem update (mid : Open k v s) {l l' : List Nat} {mem : Mem} {touched : Set Nat}
    (isSlab : v.slabs s = some ⟨c, l⟩) (same : SameOutside touched k.mem mem)
    (noLink : ∀ a ∈ touched, a ∈ Set.Ico s (s + (k.desc c).slabBytes) ∧ ¬ (s + 16 ≤ a ∧ a < s + 32))
    (slabs : SlabsInv (k.setMem mem) (Function.update v.slabs s (some ⟨c, l'⟩))) :
    Open (k.setMem mem) { v with slabs := Function.update v.slabs s (some ⟨c, l'⟩) } s := by
  have quiet := k.setMem_quiet same
  refine ⟨mid.lists.frame same quiet.used_iff (fun _ _ => rfl) ?_, slabs, mid.pool.quiet quiet, ?_,
    ?_⟩
  · intro a inTouched inLinks
    obtain ⟨t, isListed, low, high⟩ := inLinks
    obtain ⟨inSlab, notLink⟩ := noLink a inTouched
    obtain ⟨w, isSlab'⟩ := mid.listed_slabs t isListed
    by_cases eq : t = s
    · subst eq
      exact notLink ⟨low, high⟩
    · have room := (mid.slabs.geometry _ (mid.slabs.used t w isSlab')).header_lt
      exact mid.slabs.apart isSlab isSlab' (Ne.symm eq) inSlab ⟨by omega, by omega⟩
  · intro t c'
    rw [← mid.listed t c']
    simp only
    by_cases eq : t = s
    · subst eq
      rw [Function.update_self, isSlab]
      simp
    · rw [Function.update_of_ne eq]
  · intro c' list t m other inList isSlab'
    simp only at isSlab'
    rw [Function.update_of_ne other] at isSlab'
    exact mid.category c' list t m other inList isSlab'

/-- **`slab_alloc_obj` from the slab at hand.** -/
theorem take (mid : Open k v s) {x : Nat} {l : List Nat} (isSlab : v.slabs s = some ⟨c, x :: l⟩) :
    ∃ mem, k.slabAllocObj c s = (k.setMem mem, (k.desc c).objAt s x) ∧
      slabInuse mem s + l.length = (k.desc c).objsPerSlab ∧
      SameOutside (Set.Ico (s + 8) (s + 16)) k.mem mem ∧
      Open (k.setMem mem) { v with slabs := Function.update v.slabs s (some ⟨c, l⟩) } s := by
  obtain ⟨mem, call, same, inuse, slabs⟩ := mid.slabs.allocObj isSlab
  refine ⟨mem, call, inuse, same, mid.update isSlab same ?_ slabs⟩
  have room : 32 + 2 * (k.desc c).objsPerSlab ≤ (k.desc c).slabBytes :=
    (mid.slabs.geometry _ (mid.slabs.used s _ isSlab)).header_lt
  intro a inside
  have low := inside.1
  have high := inside.2
  exact ⟨⟨by omega, by omega⟩, by omega⟩

/-- **`slab_free_obj` to the slab at hand.** -/
theorem give (mid : Open k v s) {x : Nat} {l : List Nat} (isSlab : v.slabs s = some ⟨c, l⟩)
    (lt : x < (k.desc c).objsPerSlab) (notFree : x ∉ l) :
    ∃ mem, k.slabFreeObj c s ((k.desc c).objAt s x) = .ok (k.setMem mem) ∧
      slabInuse mem s + l.length + 1 = (k.desc c).objsPerSlab ∧
      SameOutside (infoBytes s (k.desc c).objsPerSlab) k.mem mem ∧
      Open (k.setMem mem) { v with slabs := Function.update v.slabs s (some ⟨c, x :: l⟩) } s := by
  obtain ⟨mem, call, same, inuse, slabs⟩ := mid.slabs.freeObj isSlab lt notFree
  refine ⟨mem, call, inuse, same, mid.update isSlab same ?_ slabs⟩
  intro a inside
  refine ⟨mid.slabs.infoBytes_sub isSlab inside, ?_⟩
  rcases inside with ⟨_, high⟩ | ⟨low, _⟩ <;> omega

end Open

end Kmem

end Xv6Slab
