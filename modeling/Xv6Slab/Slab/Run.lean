/-
**Every run of the slab allocator.**

* `Call` — one call of a well-behaved client: a call of the allocator (`AllocatorCall`), or a write
  inside what it holds. Results about what happens between two states of a run are stated over it.
* `Run` — `kmem_init`, then such calls one at a time. The held allocations are a list, so handing
  one out twice would show.
* `Sound` — the invariant of a run: the held allocations are exactly the live ones.
* `Sound.call`, `Run.sound` — **every call keeps it, so every run is sound.**
-/

import Xv6Slab.Slab.Init

namespace Xv6Slab

open Bytes Chains Tilings

namespace Kmem

/-- The held allocations after a call that returned an address or null. -/
def handOut (obj : Nat) (a : Allocation) (held : List Allocation) : List Allocation :=
  if obj = 0 then held else a :: held

theorem mem_handOut_of_mem {a b : Allocation} {obj : Nat} {held : List Allocation}
    (isHeld : a ∈ held) : a ∈ handOut obj b held := by
  unfold handOut
  split_ifs
  · exact isHeld
  · exact List.mem_cons_of_mem _ isHeld

theorem mem_handOut_self {a : Allocation} {obj : Nat} {held : List Allocation} (nonzero : obj ≠ 0) :
    a ∈ handOut obj a held := by
  unfold handOut
  rw [if_neg nonzero]
  exact List.mem_cons_self

theorem nodup_of_handOut {a : Allocation} {obj : Nat} {held : List Allocation}
    (nodup : (handOut obj a held).Nodup) : held.Nodup := by
  unfold handOut at nodup
  split_ifs at nodup
  · exact nodup
  · exact (List.nodup_cons.mp nodup).2

/-- The cache that `kmalloc` takes objects of a size from. -/
def kmallocCache (k : Kmem) (size : Nat) : Nat :=
  match kmallocIndex (alignUp size 8) with
  | none => 0
  | some idx => k.kmallocCaches idx

/-- The bytes that clients hold. -/
def heldBytes (held : List Allocation) : Set Nat := {p | ∃ a ∈ held, p ∈ a.bytes}

/-- A call of the allocator by a well-behaved client, with the allocations held before and after it.
`kalloc` is `buddy_alloc` of one page and `kfree` is `buddy_free`. -/
inductive AllocatorCall : Kmem → List Allocation → Kmem → List Allocation → Prop
  | create {k k' : Kmem} {held : List Allocation} {size c : Nat} {ctor : Option (Mem → Nat → Mem)} :
      size < 2 ^ 64 →
      (∀ f, ctor = some f → ∀ mem obj, SameOutside (Set.Ico obj (obj + size)) mem (f mem obj)) →
      k.kmemCacheCreate size ctor = .ok (k', c) → AllocatorCall k held k' held
  | alloc {k k' : Kmem} {held : List Allocation} {c obj : Nat} :
      c = 0 ∨ k.Used c → k.kmemCacheAlloc c = .ok (k', obj) →
      AllocatorCall k held k' (handOut obj (.object c obj (k.desc c).objectSize) held)
  | free {k k' : Kmem} {held : List Allocation} {c obj size : Nat} :
      .object c obj size ∈ held → k.kmemCacheFree c obj = .ok k' →
      AllocatorCall k held k' (held.erase (.object c obj size))
  | kmalloc {k k' : Kmem} {held : List Allocation} {size obj : Nat} :
      k.kmalloc size = .ok (k', obj) →
      AllocatorCall k held k' (handOut obj
        (.object (k.kmallocCache size) obj (k.desc (k.kmallocCache size)).objectSize) held)
  | kFree {k k' : Kmem} {held : List Allocation} {a : Allocation} :
      a ∈ held → k.kFree a.base = .ok k' → AllocatorCall k held k' (held.erase a)
  | buddyAlloc {k k' : Kmem} {held : List Allocation} {pages order base : Nat} :
      Buddy.orderForPages pages = .ok order → k.buddyAlloc pages = .ok (k', base) →
      AllocatorCall k held k' (handOut base (.block base order) held)
  | buddyFree {k k' : Kmem} {held : List Allocation} {base order : Nat} :
      .block base order ∈ held → k.buddyFree base = .ok k' →
      AllocatorCall k held k' (held.erase (.block base order))
  | shrink {k k' : Kmem} {held : List Allocation} {c freed : Nat} :
      k.Used c → k.kmemCacheShrink c = .ok (k', freed) → AllocatorCall k held k' held
  | destroy {k k' : Kmem} {held : List Allocation} {c : Nat} :
      k.Used c → k.kmemCacheDestroy c = .ok k' → AllocatorCall k held k' held

/-- A call of the allocator, or a write inside what is held. -/
inductive Call : Kmem → List Allocation → Kmem → List Allocation → Prop
  | allocator {k k' : Kmem} {held held' : List Allocation} :
      AllocatorCall k held k' held' → Call k held k' held'
  | write {k : Kmem} {held : List Allocation} {mem : Mem} :
      SameOutside (heldBytes held) k.mem mem → Call k held (k.setMem mem) held

/-- States reached from `kmem_init` by calls made one at a time, and the allocations held. -/
inductive Run (k₀ : Kmem) (space : Nat) (blockNum : Int) (isKernel : Bool) :
    Kmem → List Allocation → Prop
  | init {k : Kmem} : k₀.kmemInit space blockNum isKernel = .ok k →
    Run k₀ space blockNum isKernel k []
  | call {k k' : Kmem} {held held' : List Allocation} :
      Run k₀ space blockNum isKernel k held → Call k held k' held' →
      Run k₀ space blockNum isKernel k' held'

/-! ### Live allocations do not overlap -/

variable {k k' : Kmem} {v v' : View}

namespace SlabsInv

variable {slabs : Nat → Option SlabView}

theorem object_sub (inv : SlabsInv k slabs) {s c x : Nat} {l : List Nat}
    (isSlab : slabs s = some ⟨c, l⟩) (lt : x < (k.desc c).objsPerSlab) :
    (Allocation.object c ((k.desc c).objAt s x) (k.desc c).objectSize).bytes ⊆
      Set.Ico (s + 32 + 2 * (k.desc c).objsPerSlab) (s + (k.desc c).slabBytes) := by
  have geometry := inv.geometry c (inv.used s _ isSlab)
  have bound := geometry.objAt_le s lt
  have header := geometry.header
  intro p inside
  have low := inside.1
  have high := inside.2
  simp only [Allocation.base, Allocation.size, KmemCache.objAt] at low high bound
  exact ⟨by omega, by omega⟩

theorem block_eq (i order : Nat) :
    (Allocation.block (k.page i) order).bytes = k.span {⟨i, order⟩} :=
  (Buddy.span_singleton _ _ _).symm

/-- A live allocation is in no free block. -/
theorem live_not_free (inv : SlabsInv k slabs) {a : Allocation} (isLive : a ∈ live k slabs)
    {p : Nat} (inside : p ∈ a.bytes) : p ∉ k.span k.freeBlocks := by
  cases a with
  | block base order =>
    obtain ⟨i, member, _, rfl⟩ := isLive
    rw [block_eq] at inside
    refine Buddy.span_apart inv.pool.tiling ?_ Set.subset_union_left ?_ inside
    · exact Set.singleton_subset_iff.mpr (Or.inr member)
    · intro d same inFree
      exact inv.pool.disjoint d inFree (same ▸ member)
  | object c base size =>
    obtain ⟨rfl, s, l, x, isSlab, lt, _, rfl⟩ := isLive
    have range := inv.object_sub isSlab lt inside
    exact inv.not_free isSlab ⟨le_trans (by omega) range.1, range.2⟩

/-- A live allocation is in no slab header. -/
theorem live_not_header (inv : SlabsInv k slabs) {a : Allocation} (isLive : a ∈ live k slabs)
    {t : Nat} {w : SlabView} (isSlab : slabs t = some w) {p : Nat} (inside : p ∈ a.bytes) :
    p ∉ Set.Ico t (t + 32 + 2 * (k.desc w.cache).objsPerSlab) := by
  have room := (inv.geometry _ (inv.used t w isSlab)).header_lt
  intro inHeader
  have inSlab : p ∈ Set.Ico t (t + (k.desc w.cache).slabBytes) :=
    ⟨inHeader.1, lt_of_lt_of_le inHeader.2 (by omega)⟩
  cases a with
  | block base order =>
    obtain ⟨i, member, unowned, rfl⟩ := isLive
    rw [block_eq] at inside
    exact inv.notSlab_apart member unowned isSlab inside inSlab
  | object c base size =>
    obtain ⟨rfl, s, l, x, isSlab', lt, _, rfl⟩ := isLive
    have range := inv.object_sub isSlab' lt inside
    by_cases eq : s = t
    · subst eq
      rw [isSlab', Option.some.injEq] at isSlab
      subst isSlab
      exact absurd inHeader.2 (Nat.not_lt.mpr range.1)
    · exact inv.apart isSlab' isSlab eq ⟨le_trans (by omega) range.1, range.2⟩ inSlab

/-- Two live blocks at one address are one block. -/
theorem live_block_order (inv : SlabsInv k slabs) {base order order' : Nat}
    (first : .block base order ∈ live k slabs) (second : .block base order' ∈ live k slabs) :
    order = order' := by
  obtain ⟨i, inAlloc, _, address⟩ := first
  obtain ⟨j, inAlloc', _, address'⟩ := second
  have index := Buddy.page_injective _ (address.symm.trans address')
  exact congrArg Block.order (inv.pool.tiling.eq_of_index (Or.inr inAlloc) (Or.inr inAlloc') index)

/-- Two objects of slabs do not overlap, live or not. -/
theorem objects_apart (inv : SlabsInv k slabs) {s t c d x y : Nat} {l m : List Nat}
    (first : slabs s = some ⟨c, l⟩) (second : slabs t = some ⟨d, m⟩)
    (xLt : x < (k.desc c).objsPerSlab) (yLt : y < (k.desc d).objsPerSlab) (ne : s = t → x ≠ y) :
    Disjoint (Allocation.object c ((k.desc c).objAt s x) (k.desc c).objectSize).bytes
      (Allocation.object d ((k.desc d).objAt t y) (k.desc d).objectSize).bytes := by
  rw [Set.disjoint_left]
  intro p inFirst inSecond
  have range := inv.object_sub first xLt inFirst
  have range' := inv.object_sub second yLt inSecond
  by_cases eq : s = t
  · have other := ne eq
    subst eq
    rw [first, Option.some.injEq, SlabView.mk.injEq] at second
    obtain ⟨rfl, rfl⟩ := second
    have lowA := inFirst.1
    have highA := inFirst.2
    have lowB := inSecond.1
    have highB := inSecond.2
    simp only [Allocation.base, Allocation.size] at lowA highA lowB highB
    rcases (k.desc c).objAt_apart s other with before | after <;> omega
  · exact inv.apart first second eq ⟨le_trans (by omega) range.1, range.2⟩
      ⟨le_trans (by omega) range'.1, range'.2⟩

/-- A live allocation overlaps no other object of a slab, live or not. -/
theorem live_object_apart (inv : SlabsInv k slabs) {a : Allocation} (isLive : a ∈ live k slabs)
    {t c x : Nat} {l : List Nat} (isSlab : slabs t = some ⟨c, l⟩) (lt : x < (k.desc c).objsPerSlab)
    (ne : a ≠ .object c ((k.desc c).objAt t x) (k.desc c).objectSize) :
    Disjoint a.bytes (Allocation.object c ((k.desc c).objAt t x) (k.desc c).objectSize).bytes := by
  cases a with
  | block base order =>
    rw [Set.disjoint_left]
    intro p inBlock inObject
    obtain ⟨i, member, unowned, rfl⟩ := isLive
    rw [block_eq] at inBlock
    have range := inv.object_sub isSlab lt inObject
    exact inv.notSlab_apart member unowned isSlab inBlock ⟨le_trans (by omega) range.1, range.2⟩
  | object d base size =>
    obtain ⟨rfl, s, m, y, isSlab', yLt, _, rfl⟩ := isLive
    refine inv.objects_apart isSlab' isSlab yLt lt ?_
    rintro rfl rfl
    rw [isSlab, Option.some.injEq, SlabView.mk.injEq] at isSlab'
    obtain ⟨rfl, _⟩ := isSlab'
    exact ne rfl

/-- Two live allocations do not overlap. -/
theorem live_disjoint (inv : SlabsInv k slabs) {a b : Allocation} (aLive : a ∈ live k slabs)
    (bLive : b ∈ live k slabs) (ne : a ≠ b) : Disjoint a.bytes b.bytes := by
  cases b with
  | object c base size =>
    obtain ⟨rfl, s, l, x, isSlab, lt, _, rfl⟩ := bLive
    exact inv.live_object_apart aLive isSlab lt ne
  | block base order =>
    cases a with
    | object c base' size =>
      obtain ⟨rfl, s, l, x, isSlab, lt, _, rfl⟩ := aLive
      exact (inv.live_object_apart bLive isSlab lt ne.symm).symm
    | block base' order' =>
      rw [Set.disjoint_left]
      intro p inA inB
      obtain ⟨i, member, _, rfl⟩ := aLive
      obtain ⟨j, member', _, rfl⟩ := bLive
      rw [block_eq] at inA inB
      refine Buddy.span_apart inv.pool.tiling ?_ ?_ ?_ inA inB
      · exact Set.singleton_subset_iff.mpr (Or.inr member)
      · exact Set.singleton_subset_iff.mpr (Or.inr member')
      · intro d same same'
        have eq := (Set.mem_singleton_iff.mp same).symm.trans (Set.mem_singleton_iff.mp same')
        rw [Block.mk.injEq] at eq
        obtain ⟨rfl, rfl⟩ := eq
        exact ne rfl

end SlabsInv

/-! ### The invariant of a run -/

/-- The held allocations are exactly the live ones, and none of them is held twice. -/
structure Sound (k : Kmem) (held : List Allocation) (space : Nat) (blockNum : Int) : Prop where
  view : ∃ v, Core k v ∧ ∀ a, a ∈ held ↔ a ∈ live k v.slabs
  nodup : held.Nodup
  idle : k.Idle
  kmalloc : KmallocInv k kmallocNumCaches
  placement : Placement k space blockNum

theorem KmallocInv.calm {count : Nat} (inv : KmallocInv k count) (calm : Calm k k') :
    KmallocInv k' count := by
  intro j lt
  obtain ⟨used, size⟩ := inv j lt
  have shape := KmemCache.SameShape.of_layout (calm.layout (k.kmallocCaches j))
  rw [calm.kmallocCaches]
  exact ⟨(calm.used_iff _).mpr used, shape.objectSize.trans size⟩

/-- A write inside what clients hold touches no slab header and no free block. -/
theorem Core.write (core : Core k v) {held : List Allocation}
    (same : ∀ a, a ∈ held ↔ a ∈ live k v.slabs) {mem : Mem}
    (outside : SameOutside (heldBytes held) k.mem mem) : Core (k.setMem mem) v := by
  refine core.frame (k.setMem_quiet outside) (fun _ _ => rfl) ?_ ?_
  · intro p isHeld
    obtain ⟨b, member, inside⟩ := isHeld
    exact core.slabs.live_not_free ((same b).mp member) inside
  · intro s c l isSlab p isHeld
    obtain ⟨b, member, inside⟩ := isHeld
    exact core.slabs.live_not_header ((same b).mp member) isSlab inside

namespace Sound

variable {held : List Allocation} {space : Nat} {blockNum : Int} {a : Allocation}

theorem calm (sound : Sound k held space blockNum) (calm : Calm k k') :
    k'.Idle ∧ KmallocInv k' kmallocNumCaches ∧ Placement k' space blockNum :=
  ⟨calm.idle sound.idle, sound.kmalloc.calm calm, sound.placement.of_samePlace calm.samePlace⟩

theorem gains (sound : Sound k held space blockNum) (same : ∀ b, b ∈ held ↔ b ∈ live k v.slabs)
    (gains : Gains k v k' v' a) : Sound k' (a :: held) space blockNum := by
  obtain ⟨idle, kmalloc, placement⟩ := sound.calm gains.calm
  refine ⟨⟨v', gains.core, ?_⟩, ?_, idle, kmalloc, placement⟩
  · intro b
    rw [gains.live, List.mem_cons, Set.mem_insert_iff, same]
  · rw [List.nodup_cons, same]
    exact ⟨gains.fresh, sound.nodup⟩

theorem loses (sound : Sound k held space blockNum) (same : ∀ b, b ∈ held ↔ b ∈ live k v.slabs)
    (loses : Loses k v k' v' a) : Sound k' (held.erase a) space blockNum := by
  obtain ⟨idle, kmalloc, placement⟩ := sound.calm loses.calm
  refine ⟨⟨v', loses.core, ?_⟩, sound.nodup.erase a, idle, kmalloc, placement⟩
  intro b
  rw [loses.live, sound.nodup.mem_erase_iff, Set.mem_sdiff, Set.mem_singleton_iff, same]
  exact And.comm

theorem keeps (sound : Sound k held space blockNum) (same : ∀ b, b ∈ held ↔ b ∈ live k v.slabs)
    (keeps : Keeps k v k') : Sound k' held space blockNum := by
  obtain ⟨idle, kmalloc, placement⟩ := sound.calm keeps.calm
  refine ⟨⟨v, keeps.core, ?_⟩, sound.nodup, idle, kmalloc, placement⟩
  intro b
  rw [keeps.live, same]

theorem recast (sound : Sound k held space blockNum) {gone : Set Nat}
    (same : ∀ b, b ∈ held ↔ b ∈ live k v.slabs) (recast : Recast gone k v k' v')
    (stays : ∀ j < kmallocNumCaches, k.kmallocCaches j ∉ gone) : Sound k' held space blockNum := by
  refine ⟨⟨v', recast.core, ?_⟩, sound.nodup, recast.idle sound.idle,
    sound.kmalloc.recast recast stays, sound.placement.of_samePlace recast.place⟩
  intro b
  rw [recast.live, same]

/-- A client writes inside what it holds. -/
theorem write (sound : Sound k held space blockNum) {mem : Mem}
    (outside : SameOutside (heldBytes held) k.mem mem) :
    Sound (k.setMem mem) held space blockNum := by
  obtain ⟨v, core, same⟩ := sound.view
  have quiet := k.setMem_quiet outside
  obtain ⟨idle, kmalloc, placement⟩ := sound.calm quiet.calm
  refine ⟨⟨v, core.write same outside, ?_⟩, sound.nodup, idle, kmalloc, placement⟩
  intro b
  rw [quiet.live, same]

end Sound

theorem kmallocIndex_lt {size idx : Nat} (found : kmallocIndex size = some idx) :
    idx < kmallocNumCaches ∧ size ≤ 32 * 2 ^ idx := by
  unfold kmallocIndex at found
  have member := List.mem_of_find?_eq_some found
  have enough := List.find?_some found
  rw [List.mem_range] at member
  exact ⟨member, by simpa using enough⟩

/-- **`kmalloc`**: one object of the cache for the size becomes live, or nothing but an error code
changes. -/
theorem Core.kmalloc_spec (core : Core k v) (idle : k.Idle)
    (kmalloc : KmallocInv k kmallocNumCaches) (size : Nat) :
    (∃ k', k.kmalloc size = .ok (k', 0) ∧ Keeps k v k') ∨
    ∃ k' v' obj, k.kmalloc size = .ok (k', obj) ∧ obj ≠ 0 ∧ Gains k v k' v'
      (.object (k.kmallocCache size) obj (k.desc (k.kmallocCache size)).objectSize) := by
  unfold Kmem.kmalloc kmallocCache
  by_cases zero : size = 0
  · rw [if_pos zero]
    exact Or.inl ⟨k, rfl, core.keeps⟩
  · rw [if_neg zero]
    cases found : kmallocIndex (alignUp size 8) with
    | none => exact Or.inl ⟨k, rfl, core.keeps⟩
    | some idx =>
      simp only
      have used := (kmalloc idx (kmallocIndex_lt found).1).1
      rw [if_neg (core.pool.used_bounds used).1]
      rcases core.kmemCacheAlloc_spec used (idle _ used) with ⟨k', call, keeps, _⟩ | gained
      · exact Or.inl ⟨k', call, keeps⟩
      · exact Or.inr gained

theorem handOut_null (a : Allocation) (held : List Allocation) : handOut 0 a held = held :=
  if_pos rfl

theorem handOut_of_ne {obj : Nat} (nonzero : obj ≠ 0) (a : Allocation) (held : List Allocation) :
    handOut obj a held = a :: held := if_neg nonzero

namespace Sound

variable {held : List Allocation} {space : Nat} {blockNum : Int}

theorem create (sound : Sound k held space blockNum) {size c : Nat}
    {ctor : Option (Mem → Nat → Mem)} (small : size < 2 ^ 64)
    (ctorLocal : ∀ f, ctor = some f → ∀ mem obj,
      SameOutside (Set.Ico obj (obj + size)) mem (f mem obj))
    (call : k.kmemCacheCreate size ctor = .ok (k', c)) : Sound k' held space blockNum := by
  obtain ⟨v, core, same⟩ := sound.view
  have stays : ∀ j < kmallocNumCaches, k.kmallocCaches j ∉ (∅ : Set Nat) :=
    fun _ _ => Set.notMem_empty _
  by_cases nonzero : objectSizeFor size = 0
  · unfold kmemCacheCreate at call
    cases found : k.findFreeCacheSlot with
    | none =>
      rw [found, Except.ok.injEq, Prod.mk.injEq] at call
      exact call.1 ▸ sound
    | some index =>
      rw [found] at call
      simp only at call
      rw [if_pos nonzero] at call
      cases call
  · rcases core.kmemCacheCreate_spec ctor small nonzero ctorLocal with
      ⟨k₁, run, recast, _⟩ | ⟨k₁, c₁, run, _, _, _, _, recast⟩ <;>
    · rw [run, Except.ok.injEq, Prod.mk.injEq] at call
      obtain ⟨rfl, rfl⟩ := call
      exact sound.recast same recast stays

theorem alloc (sound : Sound k held space blockNum) {c obj : Nat} (valid : c = 0 ∨ k.Used c)
    (call : k.kmemCacheAlloc c = .ok (k', obj)) :
    Sound k' (handOut obj (.object c obj (k.desc c).objectSize) held) space blockNum := by
  obtain ⟨v, core, same⟩ := sound.view
  rcases valid with rfl | used
  · have null : k.kmemCacheAlloc 0 = .ok (k, 0) := rfl
    rw [null, Except.ok.injEq, Prod.mk.injEq] at call
    obtain ⟨rfl, rfl⟩ := call
    rw [handOut_null]
    exact sound
  · rcases core.kmemCacheAlloc_spec used (sound.idle c used) with
      ⟨k₁, run, keeps, _⟩ | ⟨k₁, v₁, obj₁, run, nonzero, gains⟩
    · rw [run, Except.ok.injEq, Prod.mk.injEq] at call
      obtain ⟨rfl, rfl⟩ := call
      rw [handOut_null]
      exact sound.keeps same keeps
    · rw [run, Except.ok.injEq, Prod.mk.injEq] at call
      obtain ⟨rfl, rfl⟩ := call
      rw [handOut_of_ne nonzero]
      exact sound.gains same gains

theorem kmalloc_call (sound : Sound k held space blockNum) {size obj : Nat}
    (call : k.kmalloc size = .ok (k', obj)) :
    Sound k' (handOut obj
      (.object (k.kmallocCache size) obj (k.desc (k.kmallocCache size)).objectSize) held)
      space blockNum := by
  obtain ⟨v, core, same⟩ := sound.view
  rcases core.kmalloc_spec sound.idle sound.kmalloc size with
    ⟨k₁, run, keeps⟩ | ⟨k₁, v₁, obj₁, run, nonzero, gains⟩
  · rw [run, Except.ok.injEq, Prod.mk.injEq] at call
    obtain ⟨rfl, rfl⟩ := call
    rw [handOut_null]
    exact sound.keeps same keeps
  · rw [run, Except.ok.injEq, Prod.mk.injEq] at call
    obtain ⟨rfl, rfl⟩ := call
    rw [handOut_of_ne nonzero]
    exact sound.gains same gains

theorem buddyAlloc (sound : Sound k held space blockNum) {pages order base : Nat}
    (isOrder : Buddy.orderForPages pages = .ok order)
    (call : k.buddyAlloc pages = .ok (k', base)) :
    Sound k' (handOut base (.block base order) held) space blockNum := by
  obtain ⟨v, core, same⟩ := sound.view
  have cases_ : k.buddyAlloc pages = .ok (k, 0) ∨ ∃ k' base, k.buddyAlloc pages = .ok (k', base) ∧
      base ≠ 0 ∧ Gains k v k' v (.block base order) := by
    by_cases zero : pages = 0
    · left
      subst zero
      rfl
    · exact core.buddyAlloc_spec zero isOrder
  rcases cases_ with run | ⟨k₁, base₁, run, nonzero, gains⟩
  · rw [run, Except.ok.injEq, Prod.mk.injEq] at call
    obtain ⟨rfl, rfl⟩ := call
    rw [handOut_null]
    exact sound
  · rw [run, Except.ok.injEq, Prod.mk.injEq] at call
    obtain ⟨rfl, rfl⟩ := call
    rw [handOut_of_ne nonzero]
    exact sound.gains same gains

theorem free (sound : Sound k held space blockNum) {c obj size : Nat}
    (isHeld : .object c obj size ∈ held) (call : k.kmemCacheFree c obj = .ok k') :
    Sound k' (held.erase (.object c obj size)) space blockNum := by
  obtain ⟨v, core, same⟩ := sound.view
  have isLive := (same _).mp isHeld
  have used : k.Used c := by
    obtain ⟨_, s, l, x, isSlab, _⟩ := isLive
    exact core.slabs.used s _ isSlab
  obtain ⟨k₁, v₁, run, loses⟩ := core.kmemCacheFree_spec (sound.idle c used) isLive
  rw [run, Except.ok.injEq] at call
  subst call
  exact sound.loses same loses

theorem kFree (sound : Sound k held space blockNum) {a : Allocation} (isHeld : a ∈ held)
    (call : k.kFree a.base = .ok k') : Sound k' (held.erase a) space blockNum := by
  obtain ⟨v, core, same⟩ := sound.view
  obtain ⟨k₁, v₁, run, loses⟩ := core.kFree_spec sound.idle ((same a).mp isHeld)
  rw [run, Except.ok.injEq] at call
  subst call
  exact sound.loses same loses

theorem buddyFree (sound : Sound k held space blockNum) {base order : Nat}
    (isHeld : .block base order ∈ held) (call : k.buddyFree base = .ok k') :
    Sound k' (held.erase (.block base order)) space blockNum := by
  obtain ⟨v, core, same⟩ := sound.view
  obtain ⟨k₁, run, loses⟩ := core.buddyFree_spec ((same _).mp isHeld)
  rw [run, Except.ok.injEq] at call
  subst call
  exact sound.loses same loses

theorem shrink (sound : Sound k held space blockNum) {c freed : Nat} (used : k.Used c)
    (call : k.kmemCacheShrink c = .ok (k', freed)) : Sound k' held space blockNum := by
  obtain ⟨v, core, same⟩ := sound.view
  obtain ⟨k₁, v₁, run, shrunk⟩ := core.kmemCacheShrink_spec used
  rw [run, Except.ok.injEq, Prod.mk.injEq] at call
  obtain ⟨rfl, rfl⟩ := call
  obtain ⟨idle, kmalloc, placement⟩ := sound.calm shrunk.calm
  refine ⟨⟨v₁, shrunk.core, ?_⟩, sound.nodup, idle, kmalloc, placement⟩
  intro b
  rw [shrunk.live, same]

theorem destroy (sound : Sound k held space blockNum) {c : Nat} (used : k.Used c)
    (call : k.kmemCacheDestroy c = .ok k') : Sound k' held space blockNum := by
  obtain ⟨v, core, same⟩ := sound.view
  rcases core.kmemCacheDestroy_spec used (sound.idle c used) with
    ⟨k₁, run, keeps⟩ | ⟨k₁, v₁, run, recast, _, notKmalloc⟩
  · rw [run, Except.ok.injEq] at call
    subst call
    exact sound.keeps same keeps
  · rw [run, Except.ok.injEq] at call
    subst call
    exact sound.recast same recast notKmalloc

end Sound

section Runs

variable {k₀ : Kmem} {held held' : List Allocation} {space : Nat} {blockNum : Int} {isKernel : Bool}

theorem Sound.allocatorCall (sound : Sound k held space blockNum)
    (call : AllocatorCall k held k' held') :
    Sound k' held' space blockNum := by
  cases call with
  | create small ctorLocal run => exact sound.create small ctorLocal run
  | alloc valid run => exact sound.alloc valid run
  | free isHeld run => exact sound.free isHeld run
  | kmalloc run => exact sound.kmalloc_call run
  | kFree isHeld run => exact sound.kFree isHeld run
  | buddyAlloc isOrder run => exact sound.buddyAlloc isOrder run
  | buddyFree isHeld run => exact sound.buddyFree isHeld run
  | shrink used run => exact sound.shrink used run
  | destroy used run => exact sound.destroy used run

/-- **A call keeps the invariant.** -/
theorem Sound.call (sound : Sound k held space blockNum) (call : Call k held k' held') :
    Sound k' held' space blockNum := by
  cases call with
  | allocator call => exact sound.allocatorCall call
  | write outside => exact sound.write outside

/-- **Every run is sound.** -/
theorem Run.sound (given : Space space blockNum) (head : k₀.headOfCacheList = 0)
    (tail : k₀.tailOfCacheList = 0) (run : Run k₀ space blockNum isKernel k held) :
    Sound k held space blockNum := by
  induction run with
  | init call =>
    obtain ⟨v, core, none, idle, kmalloc, placement⟩ := kmemInit_spec given head tail call
    refine ⟨⟨v, core, ?_⟩, List.nodup_nil, idle, kmalloc, placement⟩
    intro a
    rw [none]
    exact ⟨fun member => absurd member List.not_mem_nil,
      fun member => absurd member (Set.notMem_empty a)⟩
  | call _ call ih => exact ih.call call

end Runs

end Kmem

end Xv6Slab
