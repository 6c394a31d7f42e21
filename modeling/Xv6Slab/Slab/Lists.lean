/-
**The three slab lists of every cache.**

`ListsInv k lists` says that the doubly linked list at each head of each used cache holds exactly
the slabs that `lists` names, with `prev` inverse to `next`, and that no slab stands on two lists.

* `Quiet` — what the list operations leave alone: everything but link words of slabs, the heads of
  the lists and the error codes.
* `ListsInv.push`, `ListsInv.remove`, `ListsInv.pop` — the list operations of the code.
* `ListsInv.frame` — the lists only depend on the heads and on the link words of listed slabs.
-/

import Xv6Slab.Slab.Model
import Xv6Slab.Buddy.Moves

namespace Xv6Slab

open Bytes Chains

/-! ### Link words -/

section Links

variable {mem : Mem} {s t value : Nat}

theorem slabNext_store_prev (sPaged : s % 4096 = 0) (tPaged : t % 4096 = 0) :
    slabNext (store mem (s + 24) 8 value) t = slabNext mem t :=
  load_store_apart (by omega)

theorem slabPrev_store_next (sPaged : s % 4096 = 0) (tPaged : t % 4096 = 0) :
    slabPrev (store mem (s + 16) 8 value) t = slabPrev mem t :=
  load_store_apart (by omega)

theorem slabNext_store_next_of_ne (sPaged : s % 4096 = 0) (tPaged : t % 4096 = 0) (ne : t ≠ s) :
    slabNext (store mem (s + 16) 8 value) t = slabNext mem t :=
  load_store_apart (by omega)

theorem slabPrev_store_prev_of_ne (sPaged : s % 4096 = 0) (tPaged : t % 4096 = 0) (ne : t ≠ s) :
    slabPrev (store mem (s + 24) 8 value) t = slabPrev mem t :=
  load_store_apart (by omega)

theorem slabNext_store_next_self (fits : value < 2 ^ 64) :
    slabNext (store mem (s + 16) 8 value) s = value :=
  load_store_same (by simpa using fits)

theorem slabPrev_store_prev_self (fits : value < 2 ^ 64) :
    slabPrev (store mem (s + 24) 8 value) s = value :=
  load_store_same (by simpa using fits)

end Links

/-- The link words of a set of slabs. -/
def linkBytes (slabs : Set Nat) : Set Nat := {a | ∃ s ∈ slabs, s + 16 ≤ a ∧ a < s + 32}

theorem linkBytes_mono {slabs slabs' : Set Nat} (sub : slabs ⊆ slabs') :
    linkBytes slabs ⊆ linkBytes slabs' := by
  intro a inside
  obtain ⟨s, member, range⟩ := inside
  exact ⟨s, sub member, range⟩

theorem store_next_sameOutside {slabs : Set Nat} {s : Nat} (mem : Mem) (value : Nat)
    (member : s ∈ slabs) : SameOutside (linkBytes slabs) mem (store mem (s + 16) 8 value) := by
  apply (store_sameOutside mem (s + 16) 8 value).mono
  intro a inside
  exact ⟨s, member, inside.1, lt_of_lt_of_le inside.2 (by omega)⟩

theorem store_prev_sameOutside {slabs : Set Nat} {s : Nat} (mem : Mem) (value : Nat)
    (member : s ∈ slabs) : SameOutside (linkBytes slabs) mem (store mem (s + 24) 8 value) := by
  apply (store_sameOutside mem (s + 24) 8 value).mono
  intro a inside
  exact ⟨s, member, le_trans (by omega) inside.1, lt_of_lt_of_le inside.2 (by omega)⟩

/-! ### Quiet steps -/

namespace KmemCache

/-- The part of a descriptor that only `kmem_cache_create` and `kmem_cache_destroy` change. -/
def layout (d : KmemCache) : KmemCache :=
  { d with fullSlabs := 0, partialSlabs := 0, emptySlabs := 0, errorCode := .ok }

@[simp] theorem layout_setHead (d : KmemCache) (list : SlabList) (s : Nat) :
    (d.setHead list s).layout = d.layout := by
  cases list <;> rfl

@[simp] theorem head_setHead_self (d : KmemCache) (list : SlabList) (s : Nat) :
    (d.setHead list s).head list = s := by
  cases list <;> rfl

theorem head_setHead_of_ne (d : KmemCache) {list list' : SlabList} (s : Nat) (ne : list' ≠ list) :
    (d.setHead list s).head list' = d.head list' := by
  cases list <;> cases list' <;> first | rfl | exact absurd rfl ne

end KmemCache

namespace Kmem

/-- The descriptor of a slot of the pool that is in use. -/
def Used (k : Kmem) (c : Nat) : Prop :=
  ∃ i < maxNumCaches, c = k.slot i ∧ (k.desc c).isUsed = true

/-- A step that changes list heads, error codes and memory in `touched`, and nothing else. -/
structure Quiet (k k' : Kmem) (touched : Set Nat) : Prop where
  mem : SameOutside touched k.mem k'.mem
  layout : ∀ c, (k'.desc c).layout = (k.desc c).layout
  rest : k' = { k with mem := k'.mem, desc := k'.desc }

namespace Quiet

variable {k k' k'' : Kmem} {touched touched' : Set Nat}

theorem refl (k : Kmem) (touched : Set Nat) : Quiet k k touched :=
  ⟨SameOutside.refl _ _, fun _ => rfl, rfl⟩

theorem trans (first : Quiet k k' touched) (second : Quiet k' k'' touched) :
    Quiet k k'' touched where
  mem := first.mem.trans second.mem
  layout := fun c => (second.layout c).trans (first.layout c)
  rest := by
    rw [second.rest, first.rest]

theorem mono (quiet : Quiet k k' touched) (sub : touched ⊆ touched') : Quiet k k' touched' :=
  ⟨quiet.mem.mono sub, quiet.layout, quiet.rest⟩

theorem toBuddy (quiet : Quiet k k' touched) : k'.toBuddy = { k.toBuddy with mem := k'.mem } := by
  rw [quiet.rest]

theorem num (quiet : Quiet k k' touched) : k'.num = k.num := by rw [quiet.rest]; rfl

theorem page (quiet : Quiet k k' touched) (i : Nat) : k'.page i = k.page i := by
  rw [quiet.rest]
  rfl

theorem freeBlocks (quiet : Quiet k k' touched) : k'.freeBlocks = k.freeBlocks := by
  rw [quiet.rest]
  rfl

theorem allocBlocks (quiet : Quiet k k' touched) : k'.allocBlocks = k.allocBlocks := by
  rw [quiet.rest]
  rfl

theorem span (quiet : Quiet k k' touched) (blocks : Set Tilings.Block) :
    k'.span blocks = k.span blocks := by
  unfold Buddy.span
  simp only [quiet.page]

theorem blockMeta (quiet : Quiet k k' touched) : k'.blockMeta = k.blockMeta := by rw [quiet.rest]

/-- A quiet step outside free blocks keeps what the buddy allocator represents. -/
theorem rep (quiet : Quiet k k' touched) {free alloc : Set Tilings.Block}
    (before : k.toBuddy.Rep free alloc) (apart : ∀ a ∈ touched, a ∉ k.span free) :
    k'.toBuddy.Rep free alloc := by
  rw [quiet.toBuddy]
  exact before.withMem quiet.mem apart

theorem slot (quiet : Quiet k k' touched) (i : Nat) : k'.slot i = k.slot i := by
  unfold Kmem.slot
  rw [quiet.rest]

/-- A field that belongs to the layout is unchanged. -/
theorem field {β : Type} (quiet : Quiet k k' touched) (f : KmemCache → β) (c : Nat) :
    f (k'.desc c).layout = f (k.desc c).layout := congrArg f (quiet.layout c)

theorem objsPerSlab (quiet : Quiet k k' touched) (c : Nat) :
    (k'.desc c).objsPerSlab = (k.desc c).objsPerSlab := quiet.field KmemCache.objsPerSlab c

theorem slabOrder (quiet : Quiet k k' touched) (c : Nat) :
    (k'.desc c).slabOrder = (k.desc c).slabOrder := quiet.field KmemCache.slabOrder c

theorem objectSize (quiet : Quiet k k' touched) (c : Nat) :
    (k'.desc c).objectSize = (k.desc c).objectSize := quiet.field KmemCache.objectSize c

theorem objOffset (quiet : Quiet k k' touched) (c : Nat) :
    (k'.desc c).objOffset = (k.desc c).objOffset := quiet.field KmemCache.objOffset c

theorem used_iff (quiet : Quiet k k' touched) (c : Nat) : k'.Used c ↔ k.Used c := by
  have same : (k'.desc c).isUsed = (k.desc c).isUsed := quiet.field KmemCache.isUsed c
  unfold Used
  simp only [quiet.slot, same]

end Quiet

@[simp] theorem setMem_mem (k : Kmem) (mem : Mem) : (k.setMem mem).mem = mem := rfl

@[simp] theorem setMem_desc (k : Kmem) (mem : Mem) : (k.setMem mem).desc = k.desc := rfl

@[simp] theorem modifyDesc_mem (k : Kmem) (c : Nat) (change : KmemCache → KmemCache) :
    (k.modifyDesc c change).mem = k.mem := rfl

@[simp] theorem modifyDesc_toBuddy (k : Kmem) (c : Nat) (change : KmemCache → KmemCache) :
    (k.modifyDesc c change).toBuddy = k.toBuddy := rfl

@[simp] theorem modifyDesc_self (k : Kmem) (c : Nat) (change : KmemCache → KmemCache) :
    (k.modifyDesc c change).desc c = change (k.desc c) := Function.update_self ..

theorem modifyDesc_of_ne (k : Kmem) {c c' : Nat} (change : KmemCache → KmemCache) (ne : c' ≠ c) :
    (k.modifyDesc c change).desc c' = k.desc c' := Function.update_of_ne ne ..

theorem setMem_quiet (k : Kmem) {mem : Mem} {touched : Set Nat}
    (same : SameOutside touched k.mem mem) : Quiet k (k.setMem mem) touched :=
  ⟨same, fun _ => rfl, rfl⟩

theorem modifyDesc_quiet (k : Kmem) (c : Nat) {change : KmemCache → KmemCache} (touched : Set Nat)
    (layout : ∀ d, (change d).layout = d.layout) : Quiet k (k.modifyDesc c change) touched where
  mem := SameOutside.refl _ _
  layout := by
    intro c'
    by_cases eq : c' = c
    · subst eq
      rw [modifyDesc_self]
      exact layout _
    · rw [modifyDesc_of_ne _ _ eq]
  rest := rfl

/-! ### The invariant -/

/-- One list of one cache exchanged. -/
def setList (lists : Nat → SlabList → List Nat) (c : Nat) (list : SlabList) (l : List Nat) :
    Nat → SlabList → List Nat :=
  fun c' list' => if c' = c ∧ list' = list then l else lists c' list'

@[simp] theorem setList_self (lists : Nat → SlabList → List Nat) (c : Nat) (list : SlabList)
    (l : List Nat) : setList lists c list l c list = l := if_pos ⟨rfl, rfl⟩

theorem setList_of_ne {lists : Nat → SlabList → List Nat} {c c' : Nat} {list list' : SlabList}
    {l : List Nat} (ne : ¬ (c' = c ∧ list' = list)) :
    setList lists c list l c' list' = lists c' list' := if_neg ne

/-- Every head of every used cache starts the doubly linked list that `lists` names, and no slab
stands on two lists. -/
structure ListsInv (k : Kmem) (lists : Nat → SlabList → List Nat) : Prop where
  linked : ∀ c, k.Used c → ∀ list, Linked (slabNext k.mem) (slabPrev k.mem) 0 0
    ((k.desc c).head list) (lists c list)
  used : ∀ c list s, s ∈ lists c list → k.Used c
  apart : ∀ c list c' list' s, s ∈ lists c list → s ∈ lists c' list' → c = c' ∧ list = list'
  paged : ∀ c list s, s ∈ lists c list → s % 4096 = 0
  small : ∀ c list s, s ∈ lists c list → s < 2 ^ 64

namespace ListsInv

variable {k k' : Kmem} {lists : Nat → SlabList → List Nat} {c s : Nat} {list : SlabList}

/-- All listed slabs. -/
def listed (lists : Nat → SlabList → List Nat) : Set Nat := {s | ∃ c list, s ∈ lists c list}

theorem head_small (inv : ListsInv k lists) (used : k.Used c) (list : SlabList) :
    (k.desc c).head list < 2 ^ 64 := by
  by_cases empty : (k.desc c).head list = 0
  · rw [empty]
    exact Nat.two_pow_pos 64
  · obtain ⟨rest, eq, _⟩ := (inv.linked c used list).eq_cons_of_ne empty
    apply inv.small c list
    rw [eq]
    exact List.mem_cons_self

theorem head_mem (inv : ListsInv k lists) (used : k.Used c) (list : SlabList)
    (nonempty : (k.desc c).head list ≠ 0) : (k.desc c).head list ∈ lists c list := by
  obtain ⟨rest, eq, _⟩ := (inv.linked c used list).eq_cons_of_ne nonempty
  rw [eq]
  exact List.mem_cons_self

theorem head_paged (inv : ListsInv k lists) (used : k.Used c) (list : SlabList) :
    (k.desc c).head list % 4096 = 0 := by
  by_cases empty : (k.desc c).head list = 0
  · rw [empty]
  · exact inv.paged c list _ (inv.head_mem used list empty)

/-- The lists only depend on the heads and on the link words of listed slabs. -/
theorem frame (inv : ListsInv k lists) {touched : Set Nat}
    (same : SameOutside touched k.mem k'.mem) (usedIff : ∀ c, k'.Used c ↔ k.Used c)
    (heads : ∀ c list, (k'.desc c).head list = (k.desc c).head list)
    (apart : ∀ a ∈ touched, a ∉ linkBytes (listed lists)) : ListsInv k' lists where
  linked := by
    intro c used list
    rw [usedIff] at used
    rw [heads]
    apply (inv.linked c used list).congr
    · intro s member
      apply same.load
      intro a low high inTouched
      exact apart a inTouched ⟨s, ⟨c, list, member⟩, low, by omega⟩
    · intro s member
      apply same.load
      intro a low high inTouched
      exact apart a inTouched ⟨s, ⟨c, list, member⟩, by omega, by omega⟩
  used := fun c list s member => (usedIff c).mpr (inv.used c list s member)
  apart := inv.apart
  paged := inv.paged
  small := inv.small

/-- A step that relinks one list and leaves the links of all other listed slabs alone. -/
theorem relink (inv : ListsInv k lists) {touched : Set Nat} (quiet : Quiet k k' touched)
    {l : List Nat}
    (heads : ∀ c' list', ¬ (c' = c ∧ list' = list) →
      (k'.desc c').head list' = (k.desc c').head list')
    (others : ∀ c' list' t, ¬ (c' = c ∧ list' = list) → t ∈ lists c' list' →
      slabNext k'.mem t = slabNext k.mem t ∧ slabPrev k'.mem t = slabPrev k.mem t)
    (used : k.Used c)
    (linked : Linked (slabNext k'.mem) (slabPrev k'.mem) 0 0 ((k'.desc c).head list) l)
    (origin : ∀ t ∈ l, t ∈ lists c list ∨
      (∀ c' list', t ∉ lists c' list') ∧ t % 4096 = 0 ∧ t < 2 ^ 64) :
    ListsInv k' (setList lists c list l) := by
  have member_cases : ∀ c' list' t, t ∈ setList lists c list l c' list' →
      (c' = c ∧ list' = list ∧ t ∈ l) ∨ (¬ (c' = c ∧ list' = list) ∧ t ∈ lists c' list') := by
    intro c' list' t member
    by_cases eq : c' = c ∧ list' = list
    · obtain ⟨rfl, rfl⟩ := eq
      rw [setList_self] at member
      exact Or.inl ⟨rfl, rfl, member⟩
    · rw [setList_of_ne eq] at member
      exact Or.inr ⟨eq, member⟩
  have mixed : ∀ c' list' t, t ∈ l → t ∈ lists c' list' → c' = c ∧ list' = list := by
    intro c' list' t inNew inOld
    rcases origin t inNew with before | ⟨fresh, _⟩
    · exact inv.apart c' list' c list t inOld before
    · exact absurd inOld (fresh c' list')
  refine ⟨?_, ?_, ?_, ?_, ?_⟩
  · intro c' used' list'
    rw [quiet.used_iff] at used'
    by_cases eq : c' = c ∧ list' = list
    · obtain ⟨rfl, rfl⟩ := eq
      rw [setList_self]
      exact linked
    · rw [setList_of_ne eq, heads c' list' eq]
      exact (inv.linked c' used' list').congr
        (fun t member => (others c' list' t eq member).1)
        (fun t member => (others c' list' t eq member).2)
  · intro c' list' t member
    rw [quiet.used_iff]
    rcases member_cases c' list' t member with ⟨rfl, _, _⟩ | ⟨_, inOld⟩
    · exact used
    · exact inv.used c' list' t inOld
  · intro c₁ list₁ c₂ list₂ t first second
    rcases member_cases c₁ list₁ t first with ⟨rfl, rfl, inNew₁⟩ | ⟨ne₁, inOld₁⟩
    · rcases member_cases c₂ list₂ t second with ⟨rfl, rfl, _⟩ | ⟨ne₂, inOld₂⟩
      · exact ⟨rfl, rfl⟩
      · exact absurd (mixed c₂ list₂ t inNew₁ inOld₂) ne₂
    · rcases member_cases c₂ list₂ t second with ⟨rfl, rfl, inNew₂⟩ | ⟨_, inOld₂⟩
      · exact absurd (mixed c₁ list₁ t inNew₂ inOld₁) ne₁
      · exact inv.apart c₁ list₁ c₂ list₂ t inOld₁ inOld₂
  · intro c' list' t member
    rcases member_cases c' list' t member with ⟨rfl, rfl, inNew⟩ | ⟨_, inOld⟩
    · rcases origin t inNew with before | ⟨_, paged, _⟩
      · exact inv.paged _ _ t before
      · exact paged
    · exact inv.paged c' list' t inOld
  · intro c' list' t member
    rcases member_cases c' list' t member with ⟨rfl, rfl, inNew⟩ | ⟨_, inOld⟩
    · rcases origin t inNew with before | ⟨_, _, small⟩
      · exact inv.small _ _ t before
      · exact small
    · exact inv.small c' list' t inOld

/-- **`slab_list_push_front`** of a slab that stands on no list. -/
theorem push (inv : ListsInv k lists) (used : k.Used c) (list : SlabList)
    (fresh : ∀ c' list', s ∉ lists c' list') (nonzero : s ≠ 0) (paged : s % 4096 = 0)
    (small : s < 2 ^ 64) :
    ListsInv (k.slabListPushFront c list s) (setList lists c list (s :: lists c list)) ∧
      Quiet k (k.slabListPushFront c list s) (linkBytes (insert s (listed lists))) := by
  have firstPaged := inv.head_paged used list
  have firstSmall := inv.head_small used list
  have firstMem := inv.head_mem used list
  have linked := inv.linked c used list
  unfold slabListPushFront
  simp only
  generalize (k.desc c).head list = first at *
  have firstNe : first ≠ 0 → first ≠ s := by
    intro nonempty eq
    exact fresh c list (eq ▸ firstMem nonempty)
  generalize memEq : (if first ≠ 0 then
    store (store (store k.mem (s + 24) 8 0) (s + 16) 8 first) (first + 24) 8 s
    else store (store k.mem (s + 24) 8 0) (s + 16) 8 first) = mem
  have nextSelf : slabNext mem s = first := by
    rw [← memEq]
    split_ifs with nonempty
    · rw [slabNext_store_prev firstPaged paged, slabNext_store_next_self firstSmall]
    · rw [slabNext_store_next_self firstSmall]
  have prevSelf : slabPrev mem s = 0 := by
    rw [← memEq]
    split_ifs with nonempty
    · rw [slabPrev_store_prev_of_ne firstPaged paged (firstNe nonempty).symm,
        slabPrev_store_next paged paged, slabPrev_store_prev_self (Nat.two_pow_pos 64)]
    · rw [slabPrev_store_next paged paged, slabPrev_store_prev_self (Nat.two_pow_pos 64)]
  have nextOther : ∀ t, t % 4096 = 0 → t ≠ s → slabNext mem t = slabNext k.mem t := by
    intro t tPaged ne
    rw [← memEq]
    split_ifs with nonempty
    · rw [slabNext_store_prev firstPaged tPaged, slabNext_store_next_of_ne paged tPaged ne,
        slabNext_store_prev paged tPaged]
    · rw [slabNext_store_next_of_ne paged tPaged ne, slabNext_store_prev paged tPaged]
  have prevOther : ∀ t, t % 4096 = 0 → t ≠ s → t ≠ first → slabPrev mem t = slabPrev k.mem t := by
    intro t tPaged ne neFirst
    rw [← memEq]
    split_ifs with nonempty
    · rw [slabPrev_store_prev_of_ne firstPaged tPaged neFirst, slabPrev_store_next paged tPaged,
        slabPrev_store_prev_of_ne paged tPaged ne]
    · rw [slabPrev_store_next paged tPaged, slabPrev_store_prev_of_ne paged tPaged ne]
  have prevFirst : first ≠ 0 → slabPrev mem first = s := by
    intro nonempty
    rw [← memEq, if_pos nonempty, slabPrev_store_prev_self small]
  have same : SameOutside (linkBytes (insert s (listed lists))) k.mem mem := by
    rw [← memEq]
    have inner := (store_prev_sameOutside k.mem 0 (Set.mem_insert s (listed lists))).trans
      (store_next_sameOutside (store k.mem (s + 24) 8 0) first (Set.mem_insert s (listed lists)))
    split_ifs with nonempty
    · exact inner.trans (store_prev_sameOutside _ s
        (Set.mem_insert_of_mem s ⟨c, list, firstMem nonempty⟩))
    · exact inner
  have quiet := (k.setMem_quiet same).trans ((k.setMem mem).modifyDesc_quiet c
    (linkBytes (insert s (listed lists))) fun d => d.layout_setHead list s)
  refine ⟨inv.relink quiet ?_ ?_ used ?_ ?_, quiet⟩
  · intro c' list' ne
    by_cases eq : c' = c
    · subst eq
      rw [modifyDesc_self]
      exact KmemCache.head_setHead_of_ne _ _ fun sameList => ne ⟨rfl, sameList⟩
    · rw [modifyDesc_of_ne _ _ eq]
      rfl
  · intro c' list' t ne member
    have tPaged := inv.paged c' list' t member
    have neSelf : t ≠ s := fun eq => fresh c' list' (eq ▸ member)
    refine ⟨nextOther t tPaged neSelf, prevOther t tPaged neSelf fun eq => ?_⟩
    have inList : t ∈ lists c list := by
      rw [eq]
      apply firstMem
      rw [← eq]
      exact (inv.linked c' (inv.used c' list' t member) list').ne_stop member
    exact ne (inv.apart c' list' c list t member inList)
  · rw [modifyDesc_self, KmemCache.head_setHead_self]
    refine linked.push nonzero nextSelf prevSelf ?_ prevFirst ?_
    · intro t member
      exact nextOther t (inv.paged c list t member) fun eq => fresh c list (eq ▸ member)
    · intro t member ne
      exact prevOther t (inv.paged c list t member) (fun eq => fresh c list (eq ▸ member)) ne
  · intro t member
    rcases List.mem_cons.mp member with rfl | inList
    · exact Or.inr ⟨fresh, paged, small⟩
    · exact Or.inl inList

/-- The neighbours of a listed slab are null or listed. -/
theorem neighbours (inv : ListsInv k lists) {front back : List Nat}
    (split : lists c list = front ++ s :: back) :
    ((front = [] ∧ slabPrev k.mem s = 0 ∧ (k.desc c).head list = s) ∨ slabPrev k.mem s ∈ front) ∧
      (slabNext k.mem s = 0 ∨ slabNext k.mem s ∈ back) := by
  have member : s ∈ lists c list := by
    rw [split]
    exact List.mem_append_right _ List.mem_cons_self
  have linked := inv.linked c (inv.used c list s member) list
  rw [split] at linked
  refine ⟨linked.prev_of_split, ?_⟩
  by_cases last : slabNext k.mem s = 0
  · exact Or.inl last
  · obtain ⟨rest, eq, _⟩ := linked.next_of_split.eq_cons_of_ne last
    right
    rw [eq]
    exact List.mem_cons_self

/-- **`slab_list_remove_node`** of a listed slab. -/
theorem remove (inv : ListsInv k lists) {front back : List Nat}
    (split : lists c list = front ++ s :: back) :
    ListsInv (k.slabListRemoveNode c list s) (setList lists c list (front ++ back)) ∧
      Quiet k (k.slabListRemoveNode c list s) (linkBytes (listed lists)) := by
  have member : s ∈ lists c list := by
    rw [split]
    exact List.mem_append_right _ List.mem_cons_self
  have used := inv.used c list s member
  have linked := inv.linked c used list
  obtain ⟨prevCases, nextCases⟩ := inv.neighbours split
  rw [split] at linked
  have distinct := linked.nodup
  have zeroOutside : 0 ∉ front ++ s :: back := fun inside => linked.ne_stop inside rfl
  have inFront : ∀ t ∈ front, t ∈ lists c list := fun t inside => by
    rw [split]
    exact List.mem_append_left _ inside
  have inBack : ∀ t ∈ back, t ∈ lists c list := fun t inside => by
    rw [split]
    exact List.mem_append_right _ (List.mem_cons_of_mem _ inside)
  have sNotFront : s ∉ front := fun inside =>
    (List.nodup_append.mp distinct).2.2 s inside s List.mem_cons_self rfl
  have sNotBack : s ∉ back := (List.nodup_cons.mp (List.nodup_append.mp distinct).2.1).1
  have paged := inv.paged c list s member
  unfold slabListRemoveNode
  simp only
  generalize prevEq : slabPrev k.mem s = prev at *
  generalize nextEq : slabNext k.mem s = next at *
  have prevMem : prev ≠ 0 → prev ∈ front := fun nonzero =>
    prevCases.resolve_left fun first => nonzero first.2.1
  have nextMem : next ≠ 0 → next ∈ back := fun nonzero => nextCases.resolve_left nonzero
  have prevPaged : prev % 4096 = 0 := by
    by_cases zero : prev = 0
    · rw [zero]
    · exact inv.paged c list prev (inFront prev (prevMem zero))
  have nextPaged : next % 4096 = 0 := by
    by_cases zero : next = 0
    · rw [zero]
    · exact inv.paged c list next (inBack next (nextMem zero))
  have nextSmall : next < 2 ^ 64 := by
    by_cases zero : next = 0
    · rw [zero]
      exact Nat.two_pow_pos 64
    · exact inv.small c list next (inBack next (nextMem zero))
  have prevSmall : prev < 2 ^ 64 := by
    by_cases zero : prev = 0
    · rw [zero]
      exact Nat.two_pow_pos 64
    · exact inv.small c list prev (inFront prev (prevMem zero))
  have listedMem : ∀ t, t ∈ lists c list → t ∈ listed lists := fun t inside => ⟨c, list, inside⟩
  generalize k₁Eq : (if prev ≠ 0 then k.setMem (store k.mem (prev + 16) 8 next)
    else k.modifyDesc c fun d => d.setHead list next) = k₁
  have quiet₁ : Quiet k k₁ (linkBytes (listed lists)) := by
    rw [← k₁Eq]
    split_ifs with nonzero
    · exact k.setMem_quiet (store_next_sameOutside _ _
        (listedMem prev (inFront prev (prevMem nonzero))))
    · exact k.modifyDesc_quiet c _ fun d => d.layout_setHead list next
  have next₁ : ∀ t, t % 4096 = 0 → t ≠ prev → slabNext k₁.mem t = slabNext k.mem t := by
    intro t tPaged ne
    rw [← k₁Eq]
    split_ifs with nonzero
    · exact slabNext_store_next_of_ne prevPaged tPaged ne
    · rfl
  have nextPrev₁ : prev ≠ 0 → slabNext k₁.mem prev = next := by
    intro nonzero
    rw [← k₁Eq, if_pos nonzero]
    exact slabNext_store_next_self nextSmall
  have prev₁ : ∀ t, t % 4096 = 0 → slabPrev k₁.mem t = slabPrev k.mem t := by
    intro t tPaged
    rw [← k₁Eq]
    split_ifs with nonzero
    · exact slabPrev_store_next prevPaged tPaged
    · rfl
  generalize memEq : (if next ≠ 0 then store k₁.mem (next + 24) 8 prev else k₁.mem) = mem
  have nextMid : ∀ t, t % 4096 = 0 → slabNext mem t = slabNext k₁.mem t := by
    intro t tPaged
    rw [← memEq]
    split_ifs with nonzero
    · exact slabNext_store_prev nextPaged tPaged
    · rfl
  have prevMid : ∀ t, t % 4096 = 0 → t ≠ next → slabPrev mem t = slabPrev k₁.mem t := by
    intro t tPaged ne
    rw [← memEq]
    split_ifs with nonzero
    · exact slabPrev_store_prev_of_ne nextPaged tPaged ne
    · rfl
  have prevNextMid : next ≠ 0 → slabPrev mem next = prev := by
    intro nonzero
    rw [← memEq, if_pos nonzero]
    exact slabPrev_store_prev_self prevSmall
  have sameMid : SameOutside (linkBytes (listed lists)) k₁.mem mem := by
    rw [← memEq]
    split_ifs with nonzero
    · exact store_prev_sameOutside _ _ (listedMem next (inBack next (nextMem nonzero)))
    · exact SameOutside.refl _ _
  have sListed := listedMem s member
  have sameEnd : SameOutside (linkBytes (listed lists)) k₁.mem
      (store (store mem (s + 24) 8 0) (s + 16) 8 0) :=
    (sameMid.trans (store_prev_sameOutside mem 0 sListed)).trans
      (store_next_sameOutside _ 0 sListed)
  have quiet := quiet₁.trans (k₁.setMem_quiet sameEnd)
  have nextEnd : ∀ t, t % 4096 = 0 → t ≠ s →
      slabNext (store (store mem (s + 24) 8 0) (s + 16) 8 0) t = slabNext mem t := by
    intro t tPaged ne
    rw [slabNext_store_next_of_ne paged tPaged ne, slabNext_store_prev paged tPaged]
  have prevEnd : ∀ t, t % 4096 = 0 → t ≠ s →
      slabPrev (store (store mem (s + 24) 8 0) (s + 16) 8 0) t = slabPrev mem t := by
    intro t tPaged ne
    rw [slabPrev_store_next paged tPaged, slabPrev_store_prev_of_ne paged tPaged ne]
  have headSame : ∀ c' list', ¬ (c' = c ∧ list' = list) →
      (k₁.desc c').head list' = (k.desc c').head list' := by
    intro c' list' ne
    rw [← k₁Eq]
    split_ifs with nonzero
    · rfl
    · by_cases eq : c' = c
      · subst eq
        rw [modifyDesc_self]
        exact KmemCache.head_setHead_of_ne _ _ fun sameList => ne ⟨rfl, sameList⟩
      · rw [modifyDesc_of_ne _ _ eq]
  have neS : ∀ t, t ∈ front ++ back → t ≠ s := by
    intro t inside eq
    rcases List.mem_append.mp inside with left | right
    · exact sNotFront (eq ▸ left)
    · exact sNotBack (eq ▸ right)
  have pagedOf : ∀ t, t ∈ front ++ back → t % 4096 = 0 := by
    intro t inside
    rcases List.mem_append.mp inside with left | right
    · exact inv.paged c list t (inFront t left)
    · exact inv.paged c list t (inBack t right)
  refine ⟨inv.relink quiet ?_ ?_ used ?_ ?_, quiet⟩
  · intro c' list' ne
    exact headSame c' list' ne
  · intro c' list' t ne inOther
    have tPaged := inv.paged c' list' t inOther
    have notHere : t ∉ lists c list := fun here => ne (inv.apart c' list' c list t inOther here)
    have nonzero := (inv.linked c' (inv.used c' list' t inOther) list').ne_stop inOther
    have neSelf : t ≠ s := fun eq => notHere (eq ▸ member)
    have nePrev : t ≠ prev := by
      intro eq
      exact notHere (eq ▸ inFront prev (prevMem (eq ▸ nonzero)))
    have neNext : t ≠ next := by
      intro eq
      exact notHere (eq ▸ inBack next (nextMem (eq ▸ nonzero)))
    exact ⟨((nextEnd t tPaged neSelf).trans (nextMid t tPaged)).trans (next₁ t tPaged nePrev),
      ((prevEnd t tPaged neSelf).trans (prevMid t tPaged neNext)).trans (prev₁ t tPaged)⟩
  · refine linked.drop zeroOutside ?_ ?_ ?_ ?_ ?_ ?_
    · intro first
      have zero : prev = 0 := by
        rcases prevCases with ⟨_, zero, _⟩ | inside
        · exact zero
        · rw [first] at inside
          cases inside
      show (k₁.desc c).head list = _
      rw [← k₁Eq, if_neg (not_not.mpr zero), modifyDesc_self, KmemCache.head_setHead_self, nextEq]
    · intro later
      have nonzero : prev ≠ 0 := by
        rcases prevCases with ⟨first, _⟩ | inside
        · exact absurd first later
        · exact fun zero => zeroOutside (List.mem_append_left _ (zero ▸ inside))
      show (k₁.desc c).head list = _
      rw [← k₁Eq, if_pos nonzero]
      rfl
    · intro inside
      rw [prevEq] at inside ⊢
      have nonzero : prev ≠ 0 := fun zero => zeroOutside (List.mem_append_left _ (zero ▸ inside))
      show slabNext (store (store mem (s + 24) 8 0) (s + 16) 8 0) prev = _
      rw [nextEnd prev prevPaged (neS prev (List.mem_append_left _ inside)),
        nextMid prev prevPaged, nextPrev₁ nonzero, nextEq]
    · intro t inside ne
      rw [prevEq] at ne
      have tPaged := pagedOf t inside
      exact ((nextEnd t tPaged (neS t inside)).trans (nextMid t tPaged)).trans (next₁ t tPaged ne)
    · intro nonzero
      rw [nextEq] at nonzero ⊢
      show slabPrev (store (store mem (s + 24) 8 0) (s + 16) 8 0) next = _
      rw [prevEnd next nextPaged (neS next (List.mem_append_right _ (nextMem nonzero))),
        prevNextMid nonzero, prevEq]
    · intro t inside ne
      rw [nextEq] at ne
      have tPaged := pagedOf t inside
      exact ((prevEnd t tPaged (neS t inside)).trans (prevMid t tPaged ne)).trans (prev₁ t tPaged)
  · intro t inside
    rcases List.mem_append.mp inside with left | right
    · exact Or.inl (inFront t left)
    · exact Or.inl (inBack t right)

/-- **`slab_list_pop_front`** of a list that is not empty removes its first slab. -/
theorem pop (inv : ListsInv k lists) (used : k.Used c) (nonempty : (k.desc c).head list ≠ 0) :
    ∃ rest, lists c list = (k.desc c).head list :: rest ∧
      k.slabListPopFront c list =
        (k.slabListRemoveNode c list ((k.desc c).head list), (k.desc c).head list) := by
  obtain ⟨rest, eq, back, _⟩ := (inv.linked c used list).eq_cons_of_ne nonempty
  refine ⟨rest, eq, ?_⟩
  unfold slabListPopFront slabListRemoveNode
  simp only
  rw [if_neg nonempty, back, if_neg (not_not.mpr rfl)]
  rfl

/-- `slab_list_pop_front` of an empty list. -/
theorem pop_empty (nonempty : (k.desc c).head list = 0) : k.slabListPopFront c list = (k, 0) := by
  unfold slabListPopFront
  simp only
  rw [if_pos nonempty]

end ListsInv

end Kmem

end Xv6Slab
