/-
**The allocator leaves the contents of objects alone.**

A record, kept beside the state, says for every byte of an object what its last holder left there
when it was freed, or what the constructor produced when the slab was grown (`Left`). Nothing in the
code reads or writes the record.

* `Sound.outcome` — what a call of the allocator does to slabs: those that stay keep the bytes of
  their objects (`Preserves`), or one new slab is set up (`Grows`).
* `Grows.object_mem` — the objects of a new slab hold what the constructor produced.
* `Sound.recorded_step` — an object that nobody holds keeps the recorded bytes in every step.
* `contents_preserved` — **an object that `kmem_cache_alloc` returns holds the recorded bytes, and
  no call of the allocator writes into an object of a slab that stays.**
-/

import Xv6Slab.Spec.GiveBack
import Xv6Slab.Slab.Run

namespace Xv6Slab

open Bytes Chains Tilings

namespace Kmem

variable {k k' k₀ : Kmem} {v v' : View} {held held' : List Allocation} {space c : Nat}
  {blockNum : Int} {isKernel : Bool} {record record' : Mem}

/-! ### Slabs and objects in the fields of the code -/

/-- A slab on a list of a used cache. -/
def SlabOf (k : Kmem) (c s : Nat) : Prop := k.Used c ∧ ∃ list, k.Listed c list s

/-- The bytes of an object. -/
def objectBytes (d : KmemCache) (s x : Nat) : Set Nat :=
  Set.Ico (slabObjPtr d s x) (slabObjPtr d s x + d.objectSize)

theorem Core.slabOf_iff (core : Core k v) {s : Nat} :
    k.SlabOf c s ↔ ∃ l, v.slabs s = some ⟨c, l⟩ := by
  constructor
  · rintro ⟨used, list, isListed⟩
    exact core.isSlab ((core.listed_iff used).mp isListed)
  · rintro ⟨l, isSlab⟩
    have used := core.slabs.used s _ isSlab
    obtain ⟨list, member⟩ := (core.listed s c).mp ⟨l, isSlab⟩
    exact ⟨used, list, (core.listed_iff used).mpr member⟩

theorem Core.objectBytes_eq (core : Core k v) {s x : Nat} {l : List Nat}
    (isSlab : v.slabs s = some ⟨c, l⟩) (lt : x < (k.desc c).objsPerSlab) :
    objectBytes (k.desc c) s x =
    (Allocation.object c ((k.desc c).objAt s x) (k.desc c).objectSize).bytes := by
  have address : slabObjPtr (k.desc c) s x = (k.desc c).objAt s x := core.slabs.objPtr_eq isSlab lt
  unfold objectBytes
  rw [address]
  rfl

/-- Objects lie behind the header of their slab. -/
theorem Core.objectBytes_sub (core : Core k v) {s x : Nat} {l : List Nat}
    (isSlab : v.slabs s = some ⟨c, l⟩) (lt : x < (k.desc c).objsPerSlab) :
    objectBytes (k.desc c) s x ⊆
      Set.Ico (s + 32 + 2 * (k.desc c).objsPerSlab) (s + (k.desc c).slabBytes) := by
  rw [core.objectBytes_eq isSlab lt]
  exact core.slabs.object_sub isSlab lt

/-- Objects of different slabs do not overlap. -/
theorem Core.same_slab (core : Core k v) {s t d x y p : Nat} {l m : List Nat}
    (first : v.slabs s = some ⟨c, l⟩) (second : v.slabs t = some ⟨d, m⟩)
    (xLt : x < (k.desc c).objsPerSlab) (yLt : y < (k.desc d).objsPerSlab)
    (inFirst : p ∈ objectBytes (k.desc c) s x) (inSecond : p ∈ objectBytes (k.desc d) t y) :
    s = t := by
  by_contra ne
  have firstIn := core.objectBytes_sub first xLt inFirst
  have secondIn := core.objectBytes_sub second yLt inSecond
  exact core.slabs.apart first second ne ⟨le_trans (by omega) firstIn.1, firstIn.2⟩
    ⟨le_trans (by omega) secondIn.1, secondIn.2⟩

/-! ### Calls that set up no slab -/

/-- No slab is new, and those that stay keep the bytes behind their headers. -/
structure Preserves (k : Kmem) (v : View) (k' : Kmem) (v' : View) : Prop where
  core : Core k' v'
  old : ∀ s w, v'.slabs s = some w → ∃ l, v.slabs s = some ⟨w.cache, l⟩
  shape : ∀ s w, v'.slabs s = some w → KmemCache.SameShape (k.desc w.cache) (k'.desc w.cache)
  bytes : ∀ s w, v'.slabs s = some w → ∀ p ∈ Set.Ico (s + 32 + 2 * (k.desc w.cache).objsPerSlab)
    (s + (k.desc w.cache).slabBytes), k'.mem p = k.mem p

/-- A byte behind the header of a slab is not spare. -/
theorem Core.not_spare (core : Core k v) {s : Nat} {l : List Nat} (isSlab : v.slabs s = some ⟨c, l⟩)
    {p : Nat}
    (inside : p ∈ Set.Ico (s + 32 + 2 * (k.desc c).objsPerSlab) (s + (k.desc c).slabBytes)) :
    p ∉ spare k v.slabs := by
  have inSlab : p ∈ Set.Ico s (s + (k.desc c).slabBytes) := ⟨le_trans (by omega) inside.1, inside.2⟩
  rintro (⟨t, d, m, isSlab', low, high⟩ | inFree)
  · by_cases eq : t = s
    · subst eq
      rw [isSlab, Option.some.injEq, SlabView.mk.injEq] at isSlab'
      obtain ⟨rfl, _⟩ := isSlab'
      exact absurd inside.1 (Nat.not_le.mpr high)
    · have room := (core.slabs.geometry d (core.slabs.used t _ isSlab')).header_lt
      have inOther : p ∈ Set.Ico t (t + (k.desc d).slabBytes) :=
        ⟨low, lt_of_lt_of_le high (by omega)⟩
      exact core.slabs.apart isSlab' isSlab eq inOther inSlab
  · exact core.slabs.not_free isSlab inSlab inFree

/-- A call that writes spare bytes, and others that are in no slab that stays. -/
theorem Core.preserves (core : Core k v) (core' : Core k' v') (extra : Set Nat)
    (old : ∀ s w, v'.slabs s = some w → ∃ l, v.slabs s = some ⟨w.cache, l⟩)
    (shape : ∀ s w, v'.slabs s = some w → KmemCache.SameShape (k.desc w.cache) (k'.desc w.cache))
    (written : SameOutside (spare k v.slabs ∪ extra) k.mem k'.mem)
    (apart : ∀ s w, v'.slabs s = some w → ∀ p ∈ Set.Ico s (s + (k.desc w.cache).slabBytes),
      p ∉ extra) :
    Preserves k v k' v' := by
  refine ⟨core', old, shape, fun s w stays p inside => written p ?_⟩
  obtain ⟨l, isSlab⟩ := old s w stays
  rintro (inSpare | inExtra)
  · exact core.not_spare isSlab inside inSpare
  · exact apart s w stays p ⟨le_trans (by omega) inside.1, inside.2⟩ inExtra

/-- A call that keeps the slabs and writes spare bytes only. -/
theorem Core.preserves_spare (core : Core k v) (core' : Core k' v') (calm : Calm k k')
    (old : ∀ s w, v'.slabs s = some w → ∃ l, v.slabs s = some ⟨w.cache, l⟩)
    (written : SameOutside (spare k v.slabs) k.mem k'.mem) : Preserves k v k' v' :=
  core.preserves core' ∅ old (fun _ w _ => KmemCache.SameShape.of_layout (calm.layout w.cache))
    (written.mono Set.subset_union_left) fun _ _ _ _ _ => Set.notMem_empty _

theorem Core.preserves_refl (core : Core k v) : Preserves k v k v :=
  core.preserves_spare core (Calm.refl k) (fun _ w isSlab => ⟨w.free, isSlab⟩)
    (SameOutside.refl _ _)

theorem Keeps.preserves (keeps : Keeps k v k') (core : Core k v) : Preserves k v k' v :=
  core.preserves_spare keeps.core keeps.calm (fun _ w isSlab => ⟨w.free, isSlab⟩) fun _ _ => by
    rw [keeps.mem]

/-- The slabs of an update at one of them. -/
theorem old_of_update {slabs : Nat → Option SlabView} {s : Nat} {l m : List Nat}
    (isSlab : slabs s = some ⟨c, l⟩) :
    ∀ t w, Function.update slabs s (some ⟨c, m⟩) t = some w → ∃ l, slabs t = some ⟨w.cache, l⟩ := by
  intro t w stays
  by_cases eq : t = s
  · subst eq
    rw [Function.update_self, Option.some.injEq] at stays
    subst stays
    exact ⟨l, isSlab⟩
  · rw [Function.update_of_ne eq] at stays
    exact ⟨w.free, stays⟩

theorem Takes.preserves {s x : Nat} (takes : Takes k v c s x k' v') (core : Core k v)
    (core' : Core k' v') :
    Preserves k v k' v' := by
  obtain ⟨l, isSlab, slabs⟩ := takes.slab
  refine core.preserves_spare core' takes.quiet.calm ?_ (takes.quiet.mem.mono Set.subset_union_left)
  rw [slabs]
  exact old_of_update isSlab

theorem Gives.preserves {s x : Nat} (gives : Gives k v c s x k' v') (core : Core k v)
    (core' : Core k' v') :
    Preserves k v k' v' := by
  obtain ⟨l, isSlab, _, slabs⟩ := gives.slab
  refine core.preserves_spare core' gives.quiet.calm ?_ (gives.quiet.mem.mono Set.subset_union_left)
  rw [slabs]
  exact old_of_update isSlab

/-- A live block is in no slab. -/
theorem Loses.preserves {base order : Nat} (loses : Loses k v k' v (.block base order))
    (core : Core k v) (isLive : .block base order ∈ Kmem.live k v.slabs) : Preserves k v k' v := by
  refine core.preserves loses.core _ (fun _ w isSlab => ⟨w.free, isSlab⟩)
    (fun _ w _ => KmemCache.SameShape.of_layout (loses.calm.layout w.cache)) loses.mem ?_
  intro s w isSlab p inSlab inBlock
  obtain ⟨i, member, unowned, rfl⟩ := isLive
  rw [SlabsInv.block_eq] at inBlock
  exact core.slabs.notSlab_apart member unowned isSlab inBlock inSlab

/-- A slab that stays does not overlap those that are given back. -/
theorem Core.not_slabArea (core : Core k v) {gone : Set Nat}
    (isSlab : ∀ t ∈ gone, ∃ l, v.slabs t = some ⟨c, l⟩) {s : Nat} {w : SlabView}
    (stays : v.slabs s = some w) (notGone : s ∉ gone) {p : Nat}
    (inside : p ∈ Set.Ico s (s + (k.desc w.cache).slabBytes)) : p ∉ slabArea k c gone := by
  rintro ⟨t, isGone, inGone⟩
  obtain ⟨l, isSlab'⟩ := isSlab t isGone
  have ne : s ≠ t := fun eq => notGone (eq ▸ isGone)
  exact core.slabs.apart stays isSlab' ne inside inGone

theorem Shrunk.preserves (shrunk : Shrunk c [] k v k' v') (core : Core k v) :
    Preserves k v k' v' := by
  refine core.preserves shrunk.core _ ?_ ?_ shrunk.mem ?_
  · exact fun s w stays => ⟨w.free, shrunk.slab_before stays⟩
  · exact fun s w _ => KmemCache.SameShape.of_layout (shrunk.calm.layout w.cache)
  · intro s w stays p inside
    refine core.not_slabArea (fun t gone => core.isSlab gone.1) (shrunk.slab_before stays) ?_ inside
    intro gone
    have isGone : s ∈ v.lists c .empty ∧ s ∉ [] := gone
    rw [shrunk.slabs, if_pos isGone] at stays
    cases stays

theorem Dropped.preserves (dropped : Dropped c k v k' v') (core : Core k v) :
    Preserves k v k' v' := by
  have before : ∀ s w, v'.slabs s = some w → s ∉ v.lists c .empty ∧ v.slabs s = some w := by
    intro s w stays
    rw [dropped.slabs] at stays
    split_ifs at stays with gone
    exact ⟨gone, stays⟩
  refine core.preserves dropped.recast.core _ ?_ ?_ dropped.mem ?_
  · exact fun s w stays => ⟨w.free, (before s w stays).2⟩
  · intro s w stays
    have used' := dropped.recast.core.slabs.used s w stays
    obtain ⟨ne, used⟩ := (dropped.used _).mp used'
    exact (dropped.recast.kept _ ne used).2
  · intro s w stays p inside
    obtain ⟨notGone, isSlab⟩ := before s w stays
    exact core.not_slabArea (fun t gone => core.isSlab gone) isSlab notGone inside

/-- A recast that keeps the slabs and the buddy allocator. -/
theorem Recast.preserves (recast : Recast ∅ k v k' v') (core : Core k v)
    (slabs : v'.slabs = v.slabs) (buddy : k'.toBuddy = k.toBuddy) : Preserves k v k' v' := by
  have sameMem : k'.mem = k.mem := congrArg Buddy.mem buddy
  refine core.preserves recast.core ∅ ?_ ?_ (fun _ _ => by rw [sameMem]) fun _ _ _ _ _ =>
    Set.notMem_empty _
  · intro s w stays
    rw [slabs] at stays
    exact ⟨w.free, stays⟩
  · intro s w stays
    rw [slabs] at stays
    exact (recast.kept _ (Set.notMem_empty _) (core.slabs.used s w stays)).2

/-! ### A new slab -/

/-- The memory right after the constructor call for an object of a new slab, or after the header was
set up when there is no constructor. -/
def afterCtor (d : KmemCache) (mem : Mem) (c s x : Nat) : Mem :=
  match d.ctor with
  | some ctor => ctor (runCtors d ctor (initHeader mem c d.objsPerSlab s) s x) (slabObjPtr d s x)
  | none => initHeader mem c d.objsPerSlab s

/-- Later constructor calls leave an object alone. -/
theorem runCtors_later {d : KmemCache} (geometry : d.Geometry) {ctor : Mem → Nat → Mem}
    (isCtor : d.ctor = some ctor) {s : Nat} (fits : s + d.slabBytes ≤ 2 ^ 64) (mem : Mem)
    {x p : Nat} (inside : p ∈ objectBytes d s x) : ∀ count, x < count → count ≤ d.objsPerSlab →
      runCtors d ctor mem s count p = ctor (runCtors d ctor mem s x) (slabObjPtr d s x) p := by
  intro count
  induction count with
  | zero =>
    intro lt
    exact absurd lt (Nat.not_lt_zero x)
  | succ count ih =>
    intro lt le
    rcases Nat.lt_succ_iff_lt_or_eq.mp lt with before | rfl
    · rw [← ih before (Nat.le_of_succ_le le)]
      refine geometry.ctorLocal ctor isCtor _ _ p fun inLater => ?_
      have address : ∀ y < d.objsPerSlab, slabObjPtr d s y = d.objAt s y := by
        intro y yLt
        have bound := geometry.objAt_le s yLt
        have size := geometry.objectSize_ge
        exact Nat.mod_eq_of_lt (by unfold KmemCache.objAt at bound; omega)
      have high : p < slabObjPtr d s x + d.objectSize := inside.2
      have low : slabObjPtr d s count ≤ p := inLater.1
      rw [address x (by omega)] at high
      rw [address count (by omega)] at low
      have step : (x + 1) * d.objectSize ≤ count * d.objectSize := Nat.mul_le_mul_right _ before
      rw [Nat.succ_mul] at step
      unfold KmemCache.objAt at high low
      omega
    · rfl

/-- The objects of a slab that was just set up. -/
theorem setupMem_object {d : KmemCache} (geometry : d.Geometry) {s : Nat}
    (fits : s + d.slabBytes ≤ 2 ^ 64) (mem : Mem) {x p : Nat} (lt : x < d.objsPerSlab)
    (inside : p ∈ objectBytes d s x) : setupMem d mem c s p = afterCtor d mem c s x p := by
  have small : d.objsPerSlab < 65535 := geometry.objs_lt
  unfold setupMem afterCtor
  cases isCtor : d.ctor with
  | none => rfl
  | some ctor =>
    simp only
    rw [Nat.mod_eq_of_lt (by omega)]
    exact runCtors_later geometry isCtor fits _ inside _ lt le_rfl

section Growth

variable {b : Buddy} {i m : Nat}

/-- The slabs after growth: one new slab, and the others. -/
theorem Grows.slab_cases (grows : Grows k v c b i m k' v') {s : Nat} {w : SlabView}
    (isSlab : v'.slabs s = some w) : s = b.page i ∧ w.cache = c ∨ v.slabs s = some w := by
  rw [grows.slabs] at isSlab
  by_cases eq : s = b.page i
  · subst eq
    rw [Function.update_self, Option.some.injEq] at isSlab
    exact Or.inl ⟨rfl, by rw [← isSlab]⟩
  · rw [Function.update_of_ne eq] at isSlab
    exact Or.inr isSlab

/-- **The objects of a new slab hold what the constructor produced.** -/
theorem Grows.object_mem (grows : Grows k v c b i m k' v') (core : Core k v) (core' : Core k' v')
    (used : k.Used c) (calm : Calm k k') {x p : Nat} (lt : x < (k.desc c).objsPerSlab)
    (inside : p ∈ objectBytes (k.desc c) (b.page i) x) :
    k'.mem p = afterCtor (k.desc c) b.mem c (b.page i) x p := by
  have shape := KmemCache.SameShape.of_layout (calm.layout c)
  have isSlab : v'.slabs (b.page i) = some ⟨c, List.range' 1 ((k.desc c).objsPerSlab - 1)⟩ := by
    rw [grows.slabs, Function.update_self]
  have fits : b.page i + (k.desc c).slabBytes ≤ 2 ^ 64 := by
    have small := core'.slabs.small isSlab
    rw [shape.slabBytes] at small
    exact small
  have behind :
      p ∈ Set.Ico (b.page i + 32 + 2 * (k'.desc c).objsPerSlab)
      (b.page i + (k'.desc c).slabBytes) := by
    refine core'.objectBytes_sub isSlab (x := x) (by rw [shape.objsPerSlab]; exact lt) ?_
    unfold objectBytes slabObjPtr
    rw [shape.objectSize, shape.objOffset]
    exact inside
  -- the headers of the new state are those that may be written after the set-up
  have notHeader : p ∉ headerArea (k.withSlab b c i) (k.slabsWith v.slabs c (b.page i)) := by
    rw [← grows.quiet.headerArea]
    rintro ⟨t, d, l, isOld, range⟩
    refine core'.not_spare isSlab behind (Or.inl ?_)
    by_cases eq : t = b.page i
    · subst eq
      simp only [slabsWith, Function.update_self, Option.some.injEq, SlabView.mk.injEq] at isOld
      obtain ⟨rfl, _⟩ := isOld
      exact ⟨_, _, _, isSlab, range⟩
    · simp only [slabsWith, Function.update_of_ne eq] at isOld
      refine ⟨t, d, l, ?_, range⟩
      rw [grows.slabs, Function.update_of_ne eq]
      exact isOld
  rw [grows.quiet.mem p notHeader]
  exact setupMem_object (core.slabs.geometry c used) fits b.mem lt inside

end Growth

/-! ### What a call does to slabs -/

/-- A call sets up no slab, or it is the growth of one cache. -/
def Outcome (k : Kmem) (v : View) (k' : Kmem) (v' : View) : Prop :=
  Preserves k v k' v' ∨ ∃ c a b i m, k.Used c ∧ Grows k v c b i m k' v' ∧ Gains k v k' v' a

theorem Core.alloc_outcome (core : Core k v) (used : k.Used c)
    (active : (k.desc c).destroying = false) {obj : Nat}
    (call : k.kmemCacheAlloc c = .ok (k', obj)) : ∃ v', Outcome k v k' v' := by
  rcases core.kmemCacheAlloc_cases used active with
    ⟨run, _⟩ | ⟨s, x, k₁, v₁, run, _, takes, gains⟩ | ⟨b, i, m, k₁, v₁, run, _, _, _, grows, gains⟩
  all_goals
    rw [run, Except.ok.injEq, Prod.mk.injEq] at call
    obtain ⟨rfl, rfl⟩ := call
  · exact ⟨v, Or.inl ((core.setError c .buddyOom).preserves core)⟩
  · exact ⟨v₁, Or.inl (takes.preserves core gains.core)⟩
  · exact ⟨v₁, Or.inr ⟨c, _, b, i, m, used, grows, gains⟩⟩

/-- **What a call of the allocator does to slabs.** -/
theorem Sound.outcome (sound : Sound k held space blockNum) (core : Core k v)
    (same : ∀ a, a ∈ held ↔ a ∈ live k v.slabs) (call : AllocatorCall k held k' held') :
    ∃ v', Outcome k v k' v' := by
  have refl := core.preserves_refl
  cases call with
  | create small ctorLocal call =>
    have buddy := kmemCacheCreate_toBuddy call
    rename_i size c ctor
    by_cases zero : objectSizeFor size = 0
    · exact ⟨v, Or.inl (kmemCacheCreate_of_zero zero call ▸ refl)⟩
    · rcases core.kmemCacheCreate_spec ctor small zero ctorLocal with
        ⟨k₁, run, recast, _⟩ | ⟨k₁, c₁, run, _, _, _, _, recast⟩
      all_goals
        rw [run, Except.ok.injEq, Prod.mk.injEq] at call
        obtain ⟨rfl, rfl⟩ := call
        exact ⟨_, Or.inl (recast.preserves core rfl buddy)⟩
  | alloc valid call =>
    rcases valid with rfl | used
    · have null : k.kmemCacheAlloc 0 = .ok (k, 0) := rfl
      rw [null, Except.ok.injEq, Prod.mk.injEq] at call
      obtain ⟨rfl, rfl⟩ := call
      exact ⟨v, Or.inl refl⟩
    · exact core.alloc_outcome used (sound.idle _ used) call
  | free isHeld call =>
    rename_i c obj size
    have active := sound.idle c (sound.used_of_held isHeld).1
    obtain ⟨s, x, k₁, v₁, _, run, gives, loses⟩ :=
      core.kmemCacheFree_gives active ((same _).mp isHeld)
    rw [run, Except.ok.injEq] at call
    subst call
    exact ⟨v₁, Or.inl (gives.preserves core loses.core)⟩
  | kmalloc call =>
    rename_i size obj
    by_cases zero : size = 0
    · unfold Kmem.kmalloc at call
      rw [if_pos zero, Except.ok.injEq, Prod.mk.injEq] at call
      exact ⟨v, Or.inl (call.1 ▸ refl)⟩
    cases found : kmallocIndex (alignUp size 8) with
    | none =>
      unfold Kmem.kmalloc at call
      rw [if_neg zero, found, Except.ok.injEq, Prod.mk.injEq] at call
      exact ⟨v, Or.inl (call.1 ▸ refl)⟩
    | some j =>
      obtain ⟨used, sameCall⟩ := sound.kmalloc_class zero found
      rw [sameCall] at call
      exact core.alloc_outcome used (sound.idle _ used) call
  | kFree isHeld call =>
    rename_i a
    have isLive := (same a).mp isHeld
    cases a with
    | object c p size =>
      obtain ⟨used, sameCall⟩ := core.kFree_object isLive
      obtain ⟨s, x, k₁, v₁, _, run, gives, loses⟩ :=
        core.kmemCacheFree_gives (sound.idle c used) isLive
      rw [show Allocation.base _ = p from rfl, sameCall, run, Except.ok.injEq] at call
      subst call
      exact ⟨v₁, Or.inl (gives.preserves core loses.core)⟩
    | block base order =>
      obtain ⟨k₁, run, loses⟩ := core.buddyFree_spec isLive
      rw [show Allocation.base _ = base from rfl, core.kFree_block isLive, run, Except.ok.injEq]
        at call
      subst call
      exact ⟨v, Or.inl (loses.preserves core isLive)⟩
  | buddyAlloc isOrder call =>
    rename_i pages order base
    by_cases zero : pages = 0
    · subst zero
      have null : k.buddyAlloc 0 = .ok (k, 0) := rfl
      rw [null, Except.ok.injEq, Prod.mk.injEq] at call
      exact ⟨v, Or.inl (call.1 ▸ refl)⟩
    rcases core.buddyAlloc_spec zero isOrder with run | ⟨k₁, base₁, run, _, gains⟩
    all_goals rw [run, Except.ok.injEq, Prod.mk.injEq] at call
    · exact ⟨v, Or.inl (call.1 ▸ refl)⟩
    · obtain ⟨rfl, rfl⟩ := call
      exact ⟨v,
        Or.inl
        (core.preserves_spare gains.core gains.calm (fun _ w isSlab => ⟨w.free, isSlab⟩) gains.mem)⟩
  | buddyFree isHeld call =>
    have isLive := (same _).mp isHeld
    obtain ⟨k₁, run, loses⟩ := core.buddyFree_spec isLive
    rw [run, Except.ok.injEq] at call
    subst call
    exact ⟨v, Or.inl (loses.preserves core isLive)⟩
  | shrink used call =>
    obtain ⟨k₁, v₁, run, shrunk⟩ := core.kmemCacheShrink_spec used
    rw [run, Except.ok.injEq, Prod.mk.injEq] at call
    obtain ⟨rfl, rfl⟩ := call
    exact ⟨v₁, Or.inl (shrunk.preserves core)⟩
  | destroy used call =>
    rename_i c
    rcases core.kmemCacheDestroy_cases used (sound.idle c used) with ⟨error, run, _⟩ |
      ⟨k₁, v₁, run, dropped, _⟩
    all_goals
      rw [run, Except.ok.injEq] at call
      subst call
    · exact ⟨v, Or.inl ((core.setError c error).preserves core)⟩
    · exact ⟨v₁, Or.inl (dropped.preserves core)⟩

/-- What holds of the slabs after a call, in both outcomes. -/
theorem Outcome.core (outcome : Outcome k v k' v') : Core k' v' := by
  rcases outcome with preserves | ⟨_, _, _, _, _, _, _, gains⟩
  · exact preserves.core
  · exact gains.core

theorem Outcome.shape (outcome : Outcome k v k' v') {s : Nat} {w : SlabView}
    (isSlab : v'.slabs s = some w) : KmemCache.SameShape (k.desc w.cache) (k'.desc w.cache) := by
  rcases outcome with preserves | ⟨_, _, _, _, _, _, _, gains⟩
  · exact preserves.shape s w isSlab
  · exact KmemCache.SameShape.of_layout (gains.calm.layout w.cache)

/-- The objects of a slab that stays are not written. -/
theorem Outcome.unchanged (outcome : Outcome k v k' v') (core : Core k v) {s x p : Nat}
    {l l' : List Nat} (before : v.slabs s = some ⟨c, l⟩) (after : v'.slabs s = some ⟨c, l'⟩)
    (lt : x < (k.desc c).objsPerSlab) (inside : p ∈ objectBytes (k.desc c) s x) :
    k'.mem p = k.mem p := by
  have behind := core.objectBytes_sub before lt inside
  rcases outcome with preserves | ⟨_, _, _, _, _, _, _, gains⟩
  · exact preserves.bytes s _ after p behind
  · exact gains.mem p (core.not_spare before behind)

theorem objectBytes_congr {d d' : KmemCache} (shape : KmemCache.SameShape d d') (s x : Nat) :
    objectBytes d' s x = objectBytes d s x := by
  unfold objectBytes slabObjPtr
  rw [shape.objectSize, shape.objOffset]

/-! ### The record -/

/-- **What becomes of the record in a step**: what is freed leaves its bytes, a new slab those of
the constructor, and the rest of the record stays. -/
structure Left (k : Kmem) (held : List Allocation) (k' : Kmem) (held' : List Allocation)
    (record record' : Mem) : Prop where
  freed : ∀ a ∈ held, a ∉ held' → ∀ p ∈ a.bytes, record' p = k.mem p
  grown : ∀ c s b, ¬ k.SlabOf c s → k'.SlabOf c s →
    k.toBuddy.buddyAlloc (2 ^ (k.desc c).slabOrder) = .ok (b, s) →
    ∀ x < (k.desc c).objsPerSlab, ∀ p ∈ objectBytes (k.desc c) s x,
    record' p = afterCtor (k.desc c) b.mem c s x p
  kept : ∀ p, (∀ a ∈ held, a ∉ held' → p ∉ a.bytes) → (∀ c s, ¬ k.SlabOf c s → k'.SlabOf c s →
    ∀ x < (k.desc c).objsPerSlab, p ∉ objectBytes (k.desc c) s x) → record' p = record p

/-- A run, with the record. -/
inductive History (k₀ : Kmem) (space : Nat) (blockNum : Int) (isKernel : Bool) :
    Kmem → List Allocation → Mem → Prop
  | init {k : Kmem} : k₀.kmemInit space blockNum isKernel = .ok k →
    History k₀ space blockNum isKernel k [] k.mem
  | call {k k' : Kmem} {held held' : List Allocation} {record record' : Mem} :
      History k₀ space blockNum isKernel k held record → Call k held k' held' →
      Left k held k' held' record record' → History k₀ space blockNum isKernel k' held' record'

theorem History.run (history : History k₀ space blockNum isKernel k held record) :
    Run k₀ space blockNum isKernel k held := by
  induction history with
  | init run => exact .init run
  | call _ call _ ih => exact ih.call call

/-- Every object that nobody holds has the recorded bytes. -/
def Recorded (k : Kmem) (held : List Allocation) (record : Mem) : Prop :=
  ∀ c s, k.SlabOf c s → ∀ x < (k.desc c).objsPerSlab,
    .object c (slabObjPtr (k.desc c) s x) (k.desc c).objectSize ∉ held →
      ∀ p ∈ objectBytes (k.desc c) s x, k.mem p = record p

/-- **A call of the allocator leaves the recorded bytes** in every object that is not held before or
not held after it. -/
theorem Sound.recorded_step (sound : Sound k held space blockNum)
    (recorded : Recorded k held record) (call : AllocatorCall k held k' held')
    (left : Left k held k' held' record record') {s x p : Nat} (isSlab : k'.SlabOf c s)
    (lt : x < (k'.desc c).objsPerSlab)
    (loose : .object c (slabObjPtr (k'.desc c) s x) (k'.desc c).objectSize ∉ held ∨
      .object c (slabObjPtr (k'.desc c) s x) (k'.desc c).objectSize ∉ held')
    (inside : p ∈ objectBytes (k'.desc c) s x) : k'.mem p = record' p := by
  obtain ⟨v, core, same⟩ := sound.view
  obtain ⟨v', outcome⟩ := sound.outcome core same call
  obtain ⟨l', after⟩ := outcome.core.slabOf_iff.mp isSlab
  have shape := outcome.shape after
  have address : slabObjPtr (k'.desc c) s x = slabObjPtr (k.desc c) s x := by
    unfold slabObjPtr
    rw [shape.objectSize, shape.objOffset]
  rw [address, shape.objectSize] at loose
  rw [objectBytes_congr shape] at inside
  rw [shape.objsPerSlab] at lt
  by_cases old : k.SlabOf c s
  · obtain ⟨l, before⟩ := core.slabOf_iff.mp old
    have unchanged := outcome.unchanged core before after lt inside
    have ptr : slabObjPtr (k.desc c) s x = (k.desc c).objAt s x := core.slabs.objPtr_eq before lt
    by_cases isHeld : .object c (slabObjPtr (k.desc c) s x) (k.desc c).objectSize ∈ held
    · have gone := loose.resolve_left (not_not.mpr isHeld)
      rw [left.freed _ isHeld gone p inside]
      exact unchanged
    · rw [unchanged, recorded c s old x lt isHeld p inside]
      refine (left.kept p ?_ ?_).symm
      · intro a aHeld _ inA
        rw [ptr] at isHeld
        rw [core.objectBytes_eq before lt] at inside
        have ne : a ≠ .object c ((k.desc c).objAt s x) (k.desc c).objectSize :=
          fun eq => isHeld (eq ▸ aHeld)
        exact Set.disjoint_left.mp (core.slabs.live_object_apart ((same a).mp aHeld) before lt ne)
          inA inside
      · intro d t new isNew y yLt inNew
        obtain ⟨m, newSlab⟩ := outcome.core.slabOf_iff.mp isNew
        have shapeNew := outcome.shape newSlab
        rw [← objectBytes_congr shape] at inside
        rw [← objectBytes_congr shapeNew] at inNew
        rw [← shape.objsPerSlab] at lt
        rw [← shapeNew.objsPerSlab] at yLt
        obtain rfl := outcome.core.same_slab after newSlab lt yLt inside inNew
        rw [after, Option.some.injEq, SlabView.mk.injEq] at newSlab
        obtain ⟨rfl, _⟩ := newSlab
        exact new old
  · rcases outcome with preserves | ⟨d, a, b, i, m, used, grows, gains⟩
    · exact absurd (core.slabOf_iff.mpr (preserves.old s _ after)) old
    rcases grows.slab_cases after with ⟨rfl, isCache⟩ | before
    · have isD : c = d := isCache
      subst isD
      rw [grows.object_mem core gains.core used gains.calm lt inside]
      exact (left.grown c _ b old isSlab grows.alloc x lt p inside).symm
    · exact absurd (core.slabOf_iff.mpr ⟨_, before⟩) old

/-- A write inside what is held changes neither the record nor the objects that nobody holds. -/
theorem Sound.recorded_write (sound : Sound k held space blockNum)
    (recorded : Recorded k held record) {mem : Mem}
    (outside : SameOutside (heldBytes held) k.mem mem)
    (left : Left k held (k.setMem mem) held record record') :
    Recorded (k.setMem mem) held record' := by
  obtain ⟨v, core, same⟩ := sound.view
  have core' := core.write same outside
  intro c s isSlab x lt notHeld p inside
  have old : k.SlabOf c s := core.slabOf_iff.mpr (core'.slabOf_iff.mp isSlab)
  obtain ⟨l, before⟩ := core.slabOf_iff.mp old
  have ptr : slabObjPtr (k.desc c) s x = (k.desc c).objAt s x := core.slabs.objPtr_eq before lt
  have apart : p ∉ heldBytes held := by
    rintro ⟨a, aHeld, inA⟩
    have inObject : p ∈ objectBytes (k.desc c) s x := inside
    rw [core.objectBytes_eq before lt] at inObject
    have ne : a ≠ .object c ((k.desc c).objAt s x) (k.desc c).objectSize := by
      rintro rfl
      rw [← ptr] at aHeld
      exact notHeld aHeld
    exact Set.disjoint_left.mp (core.slabs.live_object_apart ((same a).mp aHeld) before lt ne)
      inA inObject
  have kept : record' p = record p := by
    refine left.kept p (fun a aHeld gone => absurd aHeld gone) fun d t new isNew => ?_
    exact absurd (core.slabOf_iff.mpr (core'.slabOf_iff.mp isNew)) new
  rw [kept]
  exact (outside p apart).trans (recorded c s old x lt notHeld p inside)

theorem History.recorded (given : Space space blockNum) (head : k₀.headOfCacheList = 0)
    (tail : k₀.tailOfCacheList = 0) (history : History k₀ space blockNum isKernel k held record) :
    Recorded k held record := by
  induction history with
  | init _ => exact fun _ _ _ _ _ _ _ _ => rfl
  | call history call left ih =>
    have sound := history.run.sound given head tail
    cases call with
    | allocator call =>
      intro c s isSlab x lt notHeld p inside
      exact sound.recorded_step ih call left isSlab lt (Or.inr notHeld) inside
    | write outside => exact sound.recorded_write ih outside left

/-! ### Every run has a record -/

/-- The objects of a new slab were free. -/
theorem Grows.object_free {b : Buddy} {i m : Nat} (grows : Grows k v c b i m k' v')
    (core' : Core k' v') (calm : Calm k k') {x p : Nat} (lt : x < (k.desc c).objsPerSlab)
    (inside : p ∈ objectBytes (k.desc c) (b.page i) x) : p ∈ k.span k.freeBlocks := by
  have shape := KmemCache.SameShape.of_layout (calm.layout c)
  have isSlab : v'.slabs (b.page i) = some ⟨c, List.range' 1 ((k.desc c).objsPerSlab - 1)⟩ := by
    rw [grows.slabs, Function.update_self]
  rw [← objectBytes_congr shape] at inside
  rw [← shape.objsPerSlab] at lt
  have behind := core'.objectBytes_sub isSlab lt inside
  have larger : 2 ^ (k.desc c).slabOrder ≤ 2 ^ m := Nat.pow_le_pow_right (by decide) grows.enough
  have inBlock : p ∈ k.span {⟨i, m⟩} := by
    have high := behind.2
    rw [shape.slabBytes] at high
    unfold KmemCache.slabBytes at high
    rw [Buddy.span_singleton, ← grows.effect.same.page i]
    exact ⟨le_trans (by omega) behind.1, by omega⟩
  exact Buddy.span_mono (fun d same q covers => ⟨d, Set.mem_singleton_iff.mp same ▸ grows.taken,
    covers⟩) inBlock

open Classical in
/-- A record can be kept in every step. -/
theorem Sound.exists_left (sound : Sound k held space blockNum) (call : Call k held k' held')
    (record : Mem) : ∃ record', Left k held k' held' record record' := by
  obtain ⟨v, core, same⟩ := sound.view
  cases call with
  | write outside =>
    have core' := core.write same outside
    have old : ∀ c s, (k.setMem _).SlabOf c s → k.SlabOf c s :=
      fun c s isSlab => core.slabOf_iff.mpr (core'.slabOf_iff.mp isSlab)
    refine ⟨record, fun a aHeld gone => absurd aHeld gone, ?_, fun _ _ _ => rfl⟩
    exact fun c s b new isNew => absurd (old c s isNew) new
  | allocator call =>
    obtain ⟨v', outcome⟩ := sound.outcome core same call
    rcases outcome with preserves | ⟨c, a, b, i, m, used, grows, gains⟩
    · have old : ∀ c s, k'.SlabOf c s → k.SlabOf c s := by
        intro c s isSlab
        obtain ⟨l, after⟩ := preserves.core.slabOf_iff.mp isSlab
        exact core.slabOf_iff.mpr (preserves.old s _ after)
      refine ⟨fun p => if ∃ a ∈ held, a ∉ held' ∧ p ∈ a.bytes then k.mem p else record p, ?_, ?_,
        ?_⟩
      · exact fun a aHeld gone p inside => if_pos ⟨a, aHeld, gone, inside⟩
      · exact fun c s b new isNew => absurd (old c s isNew) new
      · intro p notFreed _
        refine if_neg ?_
        rintro ⟨a, aHeld, gone, inside⟩
        exact notFreed a aHeld gone inside
    · -- the new slab is the only one, and nothing that was held lies in it
      have notHeld : ∀ x < (k.desc c).objsPerSlab, ∀ p ∈ objectBytes (k.desc c) (b.page i) x,
          ¬ ∃ a ∈ held, a ∉ held' ∧ p ∈ a.bytes := by
        rintro x lt p inside ⟨a, aHeld, _, inA⟩
        exact core.slabs.live_not_free ((same a).mp aHeld) inA
          (grows.object_free gains.core gains.calm lt inside)
      have new : ∀ d s, ¬ k.SlabOf d s → k'.SlabOf d s → s = b.page i ∧ d = c := by
        intro d s notOld isNew
        obtain ⟨l, after⟩ := gains.core.slabOf_iff.mp isNew
        rcases grows.slab_cases after with here | before
        · exact here
        · exact absurd (core.slabOf_iff.mpr ⟨_, before⟩) notOld
      have isNew : k'.SlabOf c (b.page i) :=
        gains.core.slabOf_iff.mpr ⟨_, by rw [grows.slabs, Function.update_self]⟩
      have notOld : ¬ k.SlabOf c (b.page i) := by
        intro isOld
        obtain ⟨l, isSlab⟩ := core.slabOf_iff.mp isOld
        have first : b.page i ∈ k.span k.freeBlocks := by
          rw [grows.effect.same.page i]
          exact ⟨i, ⟨_, grows.taken, Block.covers_index _⟩, le_rfl, by omega⟩
        refine core.slabs.not_free isSlab ⟨le_rfl, ?_⟩ first
        have some_ : 0 < (k.desc c).slabBytes := by
          unfold KmemCache.slabBytes
          positivity
        exact Nat.lt_add_of_pos_right some_
      refine ⟨fun p => if ∃ a ∈ held, a ∉ held' ∧ p ∈ a.bytes then k.mem p
        else if ∃ x < (k.desc c).objsPerSlab, p ∈ objectBytes (k.desc c) (b.page i) x then k'.mem p
        else record p, ?_, ?_, ?_⟩
      · exact fun a aHeld gone p inside => if_pos ⟨a, aHeld, gone, inside⟩
      · intro d s b' notOld' isNew' alloc x lt p inside
        obtain ⟨rfl, rfl⟩ := new d s notOld' isNew'
        rw [grows.alloc, Except.ok.injEq, Prod.mk.injEq] at alloc
        obtain ⟨rfl, _⟩ := alloc
        rw [if_neg (notHeld x lt p inside), if_pos ⟨x, lt, inside⟩]
        exact grows.object_mem core gains.core used gains.calm lt inside
      · intro p notFreed notGrown
        rw [if_neg, if_neg]
        · rintro ⟨x, lt, inside⟩
          exact notGrown c _ notOld isNew x lt inside
        · rintro ⟨a, aHeld, gone, inside⟩
          exact notFreed a aHeld gone inside

/-- **Every run has a record.** -/
theorem Run.exists_history (given : Space space blockNum) (head : k₀.headOfCacheList = 0)
    (tail : k₀.tailOfCacheList = 0) (run : Run k₀ space blockNum isKernel k held) :
    ∃ record, History k₀ space blockNum isKernel k held record := by
  induction run with
  | init call => exact ⟨_, .init call⟩
  | call run call ih =>
    obtain ⟨record, history⟩ := ih
    obtain ⟨record', left⟩ := (run.sound given head tail).exists_left call record
    exact ⟨record', history.call call left⟩

/-! ### The contents of objects -/

/-- A new slab is set up by growth, and its objects hold what the constructor produced. -/
theorem Sound.new_slab (sound : Sound k held space blockNum) (call : AllocatorCall k held k' held')
    {s : Nat} (new : ¬ k.SlabOf c s) (isSlab : k'.SlabOf c s) :
    ∃ b, k.toBuddy.buddyAlloc (2 ^ (k.desc c).slabOrder) = .ok (b, s) ∧
      ∀ x < (k.desc c).objsPerSlab,
      ∀ p ∈ objectBytes (k.desc c) s x, k'.mem p = afterCtor (k.desc c) b.mem c s x p := by
  obtain ⟨v, core, same⟩ := sound.view
  obtain ⟨v', outcome⟩ := sound.outcome core same call
  obtain ⟨l, after⟩ := outcome.core.slabOf_iff.mp isSlab
  rcases outcome with preserves | ⟨d, a, b, i, m, used, grows, gains⟩
  · exact absurd (core.slabOf_iff.mpr (preserves.old s _ after)) new
  · rcases grows.slab_cases after with ⟨rfl, isCache⟩ | before
    · have isD : c = d := isCache
      subst isD
      exact ⟨b, grows.alloc,
        fun x lt p inside => grows.object_mem core gains.core used gains.calm lt inside⟩
    · exact absurd (core.slabOf_iff.mpr ⟨_, before⟩) new

/-- **The contents of objects are preserved.** In every run, with its record:

* an object that `kmem_cache_alloc` returns holds the recorded bytes;
* no call of the allocator writes into an object of a slab that is there before and after the call;
* the objects of a new slab hold what the constructor produced for them. -/
theorem contents_preserved (given : Space space blockNum) (head : k₀.headOfCacheList = 0)
    (tail : k₀.tailOfCacheList = 0) (history : History k₀ space blockNum isKernel k held record) :
    (∀ c k' obj record', k.Used c → k.kmemCacheAlloc c = .ok (k', obj) → obj ≠ 0 →
      Left k held k' (.object c obj (k.desc c).objectSize :: held) record record' →
      ∀ p ∈ Set.Ico obj (obj + (k.desc c).objectSize), k'.mem p = record' p) ∧
    ∀ k' held', AllocatorCall k held k' held' → ∀ c s, k'.SlabOf c s →
      (k.SlabOf c s → ∀ x < (k.desc c).objsPerSlab, ∀ p ∈ objectBytes (k.desc c) s x,
        k'.mem p = k.mem p) ∧
      (¬ k.SlabOf c s → ∃ b, k.toBuddy.buddyAlloc (2 ^ (k.desc c).slabOrder) = .ok (b, s) ∧
        ∀ x < (k.desc c).objsPerSlab, ∀ p ∈ objectBytes (k.desc c) s x,
          k'.mem p = afterCtor (k.desc c) b.mem c s x p) := by
  have sound := history.run.sound given head tail
  refine ⟨?_, ?_⟩
  · intro c k' obj record' used alloc nonzero left p inside
    have call : AllocatorCall k held k' (handOut obj (.object c obj (k.desc c).objectSize) held) :=
      .alloc (Or.inr used) alloc
    have sound' := sound.allocatorCall call
    rw [handOut_of_ne nonzero] at call sound'
    obtain ⟨v', core', same'⟩ := sound'.view
    obtain ⟨size, s, l, x, isSlab, lt, _, rfl⟩ := (same' _).mp List.mem_cons_self
    have ptr : slabObjPtr (k'.desc c) s x = (k'.desc c).objAt s x := core'.slabs.objPtr_eq isSlab lt
    refine sound.recorded_step (history.recorded given head tail) call left
      (core'.slabOf_iff.mpr ⟨l, isSlab⟩) lt (Or.inl ?_) ?_
    · rw [ptr, ← size]
      exact (List.nodup_cons.mp sound'.nodup).1
    · rw [core'.objectBytes_eq isSlab lt, ← size]
      exact inside
  · intro k' held' call c s isSlab
    refine ⟨fun old x lt p inside => ?_, fun new => sound.new_slab call new isSlab⟩
    obtain ⟨v, core, same⟩ := sound.view
    obtain ⟨v', outcome⟩ := sound.outcome core same call
    obtain ⟨l, before⟩ := core.slabOf_iff.mp old
    obtain ⟨l', after⟩ := outcome.core.slabOf_iff.mp isSlab
    exact outcome.unchanged core before after lt inside

theorem contents_preserved_sixteenPages : ∃ k a record, History zeroed 4096 16 false k [a] record ∧
    ∀ k' held', AllocatorCall k [a] k' held' → ∀ c s, k'.SlabOf c s → k.SlabOf c s →
      ∀ x < (k.desc c).objsPerSlab, ∀ p ∈ objectBytes (k.desc c) s x, k'.mem p = k.mem p := by
  obtain ⟨k, a, run⟩ := exists_run_kmalloc
  obtain ⟨record, history⟩ := run.exists_history space_sixteenPages rfl rfl
  refine ⟨k, a, record, history, fun k' held' call c s isSlab => ?_⟩
  exact ((contents_preserved space_sixteenPages rfl rfl history).2 k' held' call c s isSlab).1

end Kmem

end Xv6Slab
