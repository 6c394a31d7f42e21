/-
**Freeing an arbitrary pointer.**

`kmem_cache_free` rejects a pointer when its page has no owner, when the owner belongs to another
cache, or when the owner has no object in use. It never checks that the pointer is the base of an
object, nor that the object is live.

* `Harmless`, `HarmlessKFree` — the call frees exactly one held allocation, or sets an error code.
* `SafeFree`, `SafeKFree` — what the caller has to guarantee.
* `free_harmless_iff` — **in every reachable state the call is harmless exactly for these
  pointers.**
* `doubleFree_harmful` — two objects of a slab are live; freeing one twice puts it on the free list
  twice, and the next two allocations return the same address.
-/

import Xv6Slab.Slab.Invariant

namespace Xv6Slab

open Bytes Chains Tilings

/-! ### A free that passes the checks changes the free count -/

section Links

variable {mem : Mem} {s t value : Nat}

/-- Both link words of a slab are null or page addresses. -/
def LinksPaged (mem : Mem) (s : Nat) : Prop := slabNext mem s % 4096 = 0 ∧ slabPrev mem s % 4096 = 0

theorem load_store_paged (mem : Mem) (addr : Nat) (paged : value % 4096 = 0) :
    load (store mem addr 8 value) addr 8 % 4096 = 0 := by
  rw [load_store_mod]
  omega

theorem LinksPaged.storeNext (links : LinksPaged mem s) (sPaged : s % 4096 = 0)
    (tPaged : t % 4096 = 0) (valuePaged : value % 4096 = 0) :
    LinksPaged (store mem (t + 16) 8 value) s := by
  refine ⟨?_, ?_⟩
  · by_cases eq : s = t
    · subst eq
      exact load_store_paged mem (s + 16) valuePaged
    · rw [slabNext_store_next_of_ne tPaged sPaged eq]
      exact links.1
  · rw [slabPrev_store_next tPaged sPaged]
    exact links.2

theorem LinksPaged.storePrev (links : LinksPaged mem s) (sPaged : s % 4096 = 0)
    (tPaged : t % 4096 = 0) (valuePaged : value % 4096 = 0) :
    LinksPaged (store mem (t + 24) 8 value) s := by
  refine ⟨?_, ?_⟩
  · rw [slabNext_store_prev tPaged sPaged]
    exact links.1
  · by_cases eq : s = t
    · subst eq
      exact load_store_paged mem (s + 24) valuePaged
    · rw [slabPrev_store_prev_of_ne tPaged sPaged eq]
      exact links.2

end Links

namespace Kmem

variable {k k' k₁ : Kmem} {v : View} {s c p : Nat}

/-- The page addresses. Every slab list links some of them. -/
def pageAddrs : Set Nat := {t | t % 4096 = 0}

/-- The link words of a slab and the heads of a cache are null or page addresses. This survives a
free that passes no valid object. -/
structure Tame (k : Kmem) (c s : Nat) : Prop where
  paged : s % 4096 = 0
  links : LinksPaged k.mem s
  heads : ∀ list, (k.desc c).head list % 4096 = 0

theorem head_setHead_paged {d : KmemCache} (heads : ∀ list, d.head list % 4096 = 0)
    (list : SlabList) {t : Nat} (paged : t % 4096 = 0) (list' : SlabList) :
    (d.setHead list t).head list' % 4096 = 0 := by
  by_cases eq : list' = list
  · subst eq
    rw [KmemCache.head_setHead_self]
    exact paged
  · rw [KmemCache.head_setHead_of_ne d t eq]
    exact heads list'

theorem Tame.pushFront (tame : Tame k c s) (list : SlabList) :
    Tame (k.slabListPushFront c list s) c s ∧
      SameOutside (linkBytes pageAddrs) k.mem (k.slabListPushFront c list s).mem := by
  have paged := tame.paged
  have headPaged := tame.heads list
  have sPage : s ∈ pageAddrs := paged
  have links :=
    (tame.links.storePrev paged paged (Nat.zero_mod 4096)).storeNext paged paged headPaged
  have same := (store_prev_sameOutside k.mem 0 sPage).trans
    (store_next_sameOutside _ ((k.desc c).head list) sPage)
  have heads : ∀ list', ((k.slabListPushFront c list s).desc c).head list' % 4096 = 0 := by
    intro list'
    simp only [slabListPushFront, modifyDesc, Function.update_self]
    exact head_setHead_paged tame.heads list paged list'
  by_cases empty : (k.desc c).head list = 0
  · have code : (k.slabListPushFront c list s).mem =
        store (store k.mem (s + 24) 8 0) (s + 16) 8 ((k.desc c).head list) := by
      simp only [slabListPushFront, modifyDesc, setMem, empty, ne_eq, not_true_eq_false, if_false]
    refine ⟨⟨paged, ?_, heads⟩, ?_⟩ <;> rw [code]
    · exact links
    · exact same
  · have code : (k.slabListPushFront c list s).mem =
        store (store (store k.mem (s + 24) 8 0) (s + 16) 8 ((k.desc c).head list))
          ((k.desc c).head list + 24) 8 s := by
      simp only [slabListPushFront, modifyDesc, setMem, empty, ne_eq, not_false_eq_true, if_true]
    refine ⟨⟨paged, ?_, heads⟩, ?_⟩ <;> rw [code]
    · exact links.storePrev paged headPaged paged
    · exact same.trans (store_prev_sameOutside _ s headPaged)

theorem Tame.removeNode (tame : Tame k c s) (list : SlabList) :
    Tame (k.slabListRemoveNode c list s) c s ∧
      SameOutside (linkBytes pageAddrs) k.mem (k.slabListRemoveNode c list s).mem := by
  have paged := tame.paged
  have sPage : s ∈ pageAddrs := paged
  obtain ⟨nextPaged, prevPaged⟩ := tame.links
  -- the three writes, each kept by what follows it
  have first : ∃ k₁, (if slabPrev k.mem s ≠ 0 then
        k.setMem (store k.mem (slabPrev k.mem s + 16) 8 (slabNext k.mem s))
      else k.modifyDesc c fun d => d.setHead list (slabNext k.mem s)) = k₁ ∧ Tame k₁ c s ∧
      SameOutside (linkBytes pageAddrs) k.mem k₁.mem := by
    by_cases isFirst : slabPrev k.mem s = 0
    · rw [if_neg (not_not.mpr isFirst)]
      refine ⟨_, rfl, ⟨paged, tame.links, ?_⟩, SameOutside.refl _ _⟩
      intro list'
      simp only [modifyDesc, Function.update_self]
      exact head_setHead_paged tame.heads list nextPaged list'
    · rw [if_pos isFirst]
      exact ⟨_, rfl, ⟨paged, tame.links.storeNext paged prevPaged nextPaged, tame.heads⟩,
        store_next_sameOutside _ _ prevPaged⟩
  obtain ⟨k₁, code₁, tame₁, same₁⟩ := first
  have second : ∃ mem, (if slabNext k.mem s ≠ 0 then
        store k₁.mem (slabNext k.mem s + 24) 8 (slabPrev k.mem s) else k₁.mem) = mem ∧
      LinksPaged mem s ∧ SameOutside (linkBytes pageAddrs) k₁.mem mem := by
    by_cases isLast : slabNext k.mem s = 0
    · rw [if_neg (not_not.mpr isLast)]
      exact ⟨_, rfl, tame₁.links, SameOutside.refl _ _⟩
    · rw [if_pos isLast]
      exact ⟨_, rfl, tame₁.links.storePrev paged nextPaged prevPaged,
        store_prev_sameOutside _ _ nextPaged⟩
  obtain ⟨mem, code₂, links₂, same₂⟩ := second
  have code :
      k.slabListRemoveNode c list s = k₁.setMem (store (store mem (s + 24) 8 0) (s + 16) 8 0) := by
    unfold slabListRemoveNode
    simp only [code₁, code₂]
  rw [code]
  have zero := Nat.zero_mod 4096
  exact ⟨⟨paged, (links₂.storePrev paged paged zero).storeNext paged paged zero, tame₁.heads⟩,
    (same₁.trans same₂).trans
      ((store_prev_sameOutside mem 0 sPage).trans (store_next_sameOutside _ 0 sPage))⟩

theorem Tame.move (tame : Tame k c s) (source target : SlabList) :
    Tame ((k.slabListRemoveNode c source s).slabListPushFront c target s) c s ∧
      SameOutside (linkBytes pageAddrs) k.mem
        ((k.slabListRemoveNode c source s).slabListPushFront c target s).mem := by
  obtain ⟨removed, same₁⟩ := tame.removeNode source
  obtain ⟨pushed, same₂⟩ := removed.pushFront target
  exact ⟨pushed, same₁.trans same₂⟩

/-- Whatever the lists look like, moving a slab between them does not touch its free count. -/
theorem Tame.relist_freeCount (tame : Tame k c s) (wasFull : Prop) [Decidable wasFull] :
    slabFreeCount (k.relist c s wasFull).mem s = slabFreeCount k.mem s := by
  have moved :
      ∃ k₁, (if wasFull then (k.slabListRemoveNode c .full s).slabListPushFront c .partials s
      else k) = k₁ ∧ Tame k₁ c s ∧ SameOutside (linkBytes pageAddrs) k.mem k₁.mem := by
    by_cases full : wasFull
    · rw [if_pos full]
      exact ⟨_, rfl, tame.move _ _⟩
    · rw [if_neg full]
      exact ⟨_, rfl, tame, SameOutside.refl _ _⟩
  obtain ⟨k₁, code, tame₁, same₁⟩ := moved
  have settled : SameOutside (linkBytes pageAddrs) k₁.mem (k.relist c s wasFull).mem := by
    unfold relist
    simp only [code]
    by_cases idle : slabInuse k₁.mem s = 0
    · rw [if_pos idle]
      exact (tame₁.move _ _).2
    · rw [if_neg idle]
      exact SameOutside.refl _ _
  refine (same₁.trans settled).load ?_
  intro a low high inLinks
  obtain ⟨t, tPaged, above, below⟩ := inLinks
  have sPaged := tame.paged
  simp only [pageAddrs, Set.mem_ofPred_eq] at tPaged
  omega

/-- `slab_free_obj` of any pointer adds one to the free count. -/
theorem slabFreeObj_freeCount (sizePos : (k.desc c).objectSize ≠ 0) (tame : Tame k c s) (p : Nat) :
    ∃ k₁, k.slabFreeObj c s p = .ok k₁ ∧ Tame k₁ c s ∧
      slabFreeCount k₁.mem s = (slabFreeCount k.mem s + 1) % 2 ^ 16 := by
  unfold slabFreeObj slabObjIndex
  rw [if_neg sizePos]
  generalize (p + 2 ^ 64 - (s + (k.desc c).objOffset) % 2 ^ 64) % 2 ^ 64 / (k.desc c).objectSize %
    2 ^ 16 = idx
  refine ⟨_, rfl, ⟨tame.paged, ⟨?_, ?_⟩, tame.heads⟩, ?_⟩
  · simp only [setMem, slabNext, slabHeaderSize]
    rw [load_store_apart (by omega), load_store_apart (by omega), load_store_apart (by omega),
      load_store_apart (by omega)]
    exact tame.links.1
  · simp only [setMem, slabPrev, slabHeaderSize]
    rw [load_store_apart (by omega), load_store_apart (by omega), load_store_apart (by omega),
      load_store_apart (by omega)]
    exact tame.links.2
  · simp only [setMem, slabFreeCount, slabHeaderSize]
    rw [load_store_apart (by omega), load_store_mod, load_store_apart (by omega),
      load_store_apart (by omega)]
    norm_num

theorem Core.tame (core : Core k v) {l : List Nat} (isSlab : v.slabs s = some ⟨c, l⟩) :
    Tame k c s := by
  obtain ⟨list, member⟩ := (core.listed s c).mp ⟨l, isSlab⟩
  obtain ⟨front, back, split⟩ := List.append_of_mem member
  obtain ⟨before, after⟩ := core.lists.neighbours split
  have paged : ∀ t ∈ v.lists c list, t % 4096 = 0 := core.lists.paged c list
  rw [split] at paged
  refine ⟨core.slabs.paged isSlab, ⟨?_, ?_⟩, core.lists.head_paged (core.slabs.used s _ isSlab)⟩
  · rcases after with last | inBack
    · rw [last]
    · exact paged _ (List.mem_append_right _ (List.mem_cons_of_mem _ inBack))
  · rcases before with ⟨_, isFirst, _⟩ | inFront
    · rw [isFirst]
    · exact paged _ (List.mem_append_left _ inFront)

/-- **Any pointer whose page belongs to a slab of the cache with an object in use is freed**: the
call returns and has changed memory. -/
theorem Core.kmemCacheFree_writes (core : Core k v) {l : List Nat}
    (isSlab : v.slabs s = some ⟨c, l⟩) (active : (k.desc c).destroying = false) (nonnull : p ≠ 0)
    (owner : k.ownerOf p = s) (busy : slabInuse k.mem s ≠ 0) :
    ∃ k', k.kmemCacheFree c p = .ok k' ∧ k'.mem ≠ k.mem := by
  have geometry := core.slabs.geometry c (core.slabs.used s _ isSlab)
  have sizePos : (k.desc c).objectSize ≠ 0 := by
    have := geometry.objectSize_ge
    omega
  obtain ⟨k₁, call, tame, count⟩ := slabFreeObj_freeCount sizePos (core.tame isSlab) p
  refine ⟨k₁.relist c s (slabInuse k.mem s = (k.desc c).objsPerSlab), ?_, ?_⟩
  · rw [core.kmemCacheFree_eq isSlab active nonnull owner busy, call]
    rfl
  · intro same
    have counts := tame.relist_freeCount (slabInuse k.mem s = (k.desc c).objsPerSlab)
    rw [same, count] at counts
    have small : slabFreeCount k.mem s < 256 ^ 2 := load_lt _ _ _
    omega

/-! ### `kmem_cache_free` -/

/-- The live allocations of a state are exactly `held`, by the fields of the code. -/
structure Represents (k : Kmem) (held : List Allocation) : Prop where
  slabs : ∃ lists, SlabRep k held lists
  blocks : ∀ base order, .block base order ∈ held ↔
    ∃ i, ⟨i, order⟩ ∈ k.allocBlocks ∧ (k.blockMeta i).ownerSlab = 0 ∧ base = k.page i

/-- A call freed exactly one allocation: it was live, all others still are, with their contents. -/
structure FreesOne (k : Kmem) (held : List Allocation) (k' : Kmem) (a : Allocation) : Prop where
  isHeld : a ∈ held
  represents : Represents k' (held.erase a)
  contents : ∀ b ∈ held.erase a, ∀ q ∈ b.bytes, k'.mem q = k.mem q

/-- A call changed nothing, or only the error code of a cache. -/
def OnlyError (k k' : Kmem) (c : Nat) : Prop :=
  k' = k ∨ ∃ code, k' = k.modifyDesc c fun d => { d with errorCode := code }

/-- `kmem_cache_free(c, p)` frees the live object of the cache at `p`, or changes only its error
code; the live allocations are still represented. -/
def Harmless (k : Kmem) (held : List Allocation) (c p : Nat) : Prop :=
  ∃ k', k.kmemCacheFree c p = .ok k' ∧
    ((∃ size, FreesOne k held k' (.object c p size)) ∨ OnlyError k k' c ∧ Represents k' held)

/-- The pointers that `kmem_cache_free` rejects: null, without a slab, of another cache's slab, or
of a slab with nothing in use. -/
def Rejects (k : Kmem) (c p : Nat) : Prop :=
  p = 0 ∨ k.ownerOf p = 0 ∨ slabCache k.mem (k.ownerOf p) ≠ c ∨ slabInuse k.mem (k.ownerOf p) = 0

/-- The pointers that may be passed to `kmem_cache_free`: those that one of its checks rejects, and
the bases of live objects of the cache. -/
def SafeFree (k : Kmem) (held : List Allocation) (c p : Nat) : Prop :=
  Rejects k c p ∨ ∃ size, .object c p size ∈ held

theorem OnlyError.mem (only : OnlyError k k' c) : k'.mem = k.mem := by
  rcases only with rfl | ⟨_, rfl⟩ <;> rfl

theorem OnlyError.blockMeta (only : OnlyError k k' c) : k'.blockMeta = k.blockMeta := by
  rcases only with rfl | ⟨_, rfl⟩ <;> rfl

theorem OnlyError.used_iff (only : OnlyError k k' c) (a : Nat) : k'.Used a ↔ k.Used a := by
  rcases only with rfl | ⟨code, rfl⟩
  · exact Iff.rfl
  · exact used_modifyDesc_same (fun d => { d with errorCode := code }) (fun _ => rfl) c a

/-- An error code changes no allocation. -/
theorem Sound.of_onlyError {held : List Allocation} {space : Nat} {blockNum : Int}
    (sound : Sound k held space blockNum) (only : OnlyError k k' c) :
    Sound k' held space blockNum := by
  obtain ⟨v, core, same⟩ := sound.view
  rcases only with rfl | ⟨code, rfl⟩
  · exact sound
  · exact sound.keeps same (core.setError c code)

/-- The owner found for a pointer is a slab. -/
theorem Core.ownerOf_slab (core : Core k v) {s : Nat} (owner : k.ownerOf p = s) (nonzero : s ≠ 0) :
    ∃ l, v.slabs s = some ⟨slabCache k.mem s, l⟩ := by
  unfold ownerOf at owner
  by_cases found : 0 ≤ k.addrToIndex (pageAlignDown p)
  · simp only [if_pos found] at owner
    obtain ⟨w, isSlab, _⟩ := (core.slabs.owner _ (Buddy.addrToIndex_lt found) s nonzero).mp owner
    rw [(core.slabs.header s w isSlab).cache]
    exact ⟨w.free, isSlab⟩
  · simp only [if_neg found] at owner
    exact absurd owner.symm nonzero

section Reached

variable {held : List Allocation} {space : Nat} {blockNum : Int} {a : Allocation}

theorem Sound.represents (sound : Sound k held space blockNum) : Represents k held := by
  obtain ⟨v, core, same⟩ := sound.view
  exact ⟨⟨v.lists, core.slabRep same⟩, fun base order => same (.block base order)⟩

theorem Sound.freesOne (sound : Sound k held space blockNum) {v' : View} (core : Core k v)
    (same : ∀ b, b ∈ held ↔ b ∈ live k v.slabs) (loses : Loses k v k' v' a) (isHeld : a ∈ held) :
    FreesOne k held k' a := by
  refine ⟨isHeld, (sound.loses same loses).represents, ?_⟩
  intro b other q inside
  obtain ⟨ne, bHeld⟩ := sound.nodup.mem_erase_iff.mp other
  refine loses.mem q ?_
  have bLive := (same b).mp bHeld
  rintro ((inHeader | inFree) | inFreed)
  · obtain ⟨t, c', l, isSlab, range⟩ := inHeader
    exact core.slabs.live_not_header bLive isSlab inside range
  · exact core.slabs.live_not_free bLive inside inFree
  · exact Set.disjoint_left.mp (core.slabs.live_disjoint bLive ((same a).mp isHeld) ne)
      inside inFreed

theorem Sound.onlyError (sound : Sound k held space blockNum) (code : KmemError) (c : Nat) :
    OnlyError k (k.modifyDesc c fun d => { d with errorCode := code }) c ∧
      Represents (k.modifyDesc c fun d => { d with errorCode := code }) held := by
  obtain ⟨v, core, same⟩ := sound.view
  exact ⟨Or.inr ⟨code, rfl⟩, (sound.keeps same (core.setError c code)).represents⟩

/-- `kmem_cache_free` of a pointer that it rejects. -/
theorem Sound.rejected (sound : Sound k held space blockNum) (used : k.Used c)
    (bad : Rejects k c p) :
    ∃ k', k.kmemCacheFree c p = .ok k' ∧ OnlyError k k' c ∧ Represents k' held := by
  have active : ¬ (k.desc c).destroying = true := by
    rw [sound.idle c used]
    exact Bool.false_ne_true
  unfold kmemCacheFree
  simp only
  by_cases null : c = 0 ∨ p = 0
  · rw [if_pos null]
    exact ⟨k, rfl, Or.inl rfl, sound.represents⟩
  · rw [if_neg null]
    by_cases none : k.ownerOf p = 0
    · rw [if_pos none]
      exact ⟨_, rfl, sound.onlyError _ c⟩
    · rw [if_neg none, if_neg active]
      by_cases other : slabCache k.mem (k.ownerOf p) = c
      · have idle : slabInuse k.mem (k.ownerOf p) = 0 := by
          rcases bad with zero | zero | ne | idle
          · exact absurd (Or.inr zero) null
          · exact absurd zero none
          · exact absurd other ne
          · exact idle
        rw [if_neg (not_not.mpr other), if_pos idle]
        exact ⟨_, rfl, sound.onlyError _ c⟩
      · rw [if_pos other]
        exact ⟨_, rfl, sound.onlyError _ c⟩

/-- `kmem_cache_free` of any pointer. -/
theorem Sound.harmless_iff (sound : Sound k held space blockNum) (used : k.Used c) :
    Harmless k held c p ↔ SafeFree k held c p := by
  obtain ⟨v, core, same⟩ := sound.view
  constructor
  · intro harmless
    by_contra unsafeFree
    unfold SafeFree Rejects at unsafeFree
    simp only [not_or, not_not] at unsafeFree
    obtain ⟨⟨nonnull, owned, cache, busy⟩, notHeld⟩ := unsafeFree
    obtain ⟨l, isSlab⟩ := core.ownerOf_slab rfl owned
    rw [cache] at isSlab
    obtain ⟨k₁, call, changed⟩ :=
      core.kmemCacheFree_writes isSlab (sound.idle c used) nonnull rfl busy
    obtain ⟨k', call', one | ⟨only, _⟩⟩ := harmless
    · obtain ⟨size, freed⟩ := one
      exact notHeld ⟨size, freed.isHeld⟩
    · rw [call, Except.ok.injEq] at call'
      exact changed (call' ▸ only.mem)
  · intro safe
    rcases safe with bad | ⟨size, isHeld⟩
    · obtain ⟨k', call, only⟩ := sound.rejected used bad
      exact ⟨k', call, Or.inr only⟩
    · obtain ⟨k', v', call, loses⟩ :=
        core.kmemCacheFree_spec (sound.idle c used) ((same _).mp isHeld)
      exact ⟨k', call, Or.inl ⟨size, sound.freesOne core same loses isHeld⟩⟩

end Reached

/-! ### `k_free` -/

/-- `k_free(p)` frees the live allocation at `p`, or changes only the error code of a cache; the
live allocations are still represented. -/
def HarmlessKFree (k : Kmem) (held : List Allocation) (p : Nat) : Prop :=
  ∃ k', k.kFree p = .ok k' ∧
    ((∃ a, a.base = p ∧ FreesOne k held k' a) ∨ ∃ c, OnlyError k k' c ∧ Represents k' held)

/-- The index of the page that `k_free` looks at. -/
def pageIndex (k : Kmem) (p : Nat) : Int := k.addrToIndex (pageAlignDown p)

/-- The pointers that `k_free` rejects: of no managed page, of a slab with nothing in use, or of a
page without a slab where no block starts. -/
def RejectsKFree (k : Kmem) (p : Nat) : Prop :=
  let m := k.blockMeta (k.pageIndex p).toNat
  k.pageIndex p < 0 ∨ m.ownerSlab ≠ 0 ∧ slabInuse k.mem m.ownerSlab = 0 ∨
    m.ownerSlab = 0 ∧ (pageAlignDown p ≠ p ∨ m.isHeadOfAllocBlock = false)

/-- The pointers that may be passed to `k_free`: those that it rejects, and the bases of live
allocations. -/
def SafeKFree (k : Kmem) (held : List Allocation) (p : Nat) : Prop :=
  RejectsKFree k p ∨ ∃ a ∈ held, a.base = p

end Kmem

namespace Buddy

variable {b b' : Buddy} {ptr : Nat}

/-- The flag of an allocated block's first page. -/
def allocFlag (b : Buddy) (i : Nat) : Bool := (b.blockMeta i).isHeadOfAllocBlock

theorem modifyMeta_allocFlag {idx : Int} (change : BlockMeta → BlockMeta)
    (keeps : ∀ m, (change m).isHeadOfAllocBlock = m.isHeadOfAllocBlock)
    (call : b.modifyMeta idx change = .ok b') : b'.allocFlag = b.allocFlag := by
  unfold modifyMeta at call
  by_cases range : 0 ≤ idx ∧ idx < b.managedNumBlocks
  · rw [if_pos range, Except.ok.injEq] at call
    subst call
    funext i
    unfold allocFlag
    by_cases eq : i = idx.toNat
    · subst eq
      simp only [Function.update_self]
      exact keeps _
    · simp only [Function.update_of_ne eq]
  · rw [if_neg range] at call
    cases call

theorem removeLoop_blockMeta {order blk : Nat} :
    ∀ (fuel prev cur : Nat) {found : Bool}, removeLoop b order blk fuel prev cur = .ok (b', found) →
      b'.blockMeta = b.blockMeta
  | 0, _, _, _, call => by cases call
  | fuel + 1, prev, cur, found, call => by
    unfold removeLoop at call
    by_cases stop : cur = 0
    · rw [if_pos stop, Except.ok.injEq, Prod.mk.injEq] at call
      rw [← call.1]
    · rw [if_neg stop] at call
      by_cases here : cur = blk
      · simp only [if_pos here] at call
        by_cases inner : prev ≠ 0
        · rw [if_pos inner, Except.ok.injEq, Prod.mk.injEq] at call
          rw [← call.1]
        · rw [if_neg inner, Except.ok.injEq, Prod.mk.injEq] at call
          rw [← call.1]
      · simp only [if_neg here] at call
        exact removeLoop_blockMeta fuel _ _ call

/-- The merge loop changes no allocated block's flag, whatever address it starts from. -/
theorem mergeLoop_allocFlag : ∀ (fuel : Nat) (b : Buddy) (addr cur : Nat) {b' : Buddy}
    {addr' cur' : Nat} {exit : MergeExit}, mergeLoop fuel b addr cur = .ok (b', addr', cur', exit) →
      b'.allocFlag = b.allocFlag
  | 0, _, _, _, _, _, _, _, call => by cases call
  | fuel + 1, b, addr, cur, b', addr', cur', exit, call => by
    have stop {e : MergeExit} (same : (Except.ok (b, addr, cur, e) : Except Fault _) =
        .ok (b', addr', cur', exit)) : b'.allocFlag = b.allocFlag := by
      rw [Except.ok.injEq, Prod.mk.injEq] at same
      rw [same.1]
    unfold mergeLoop at call
    split at call
    · simp only at call
      split at call
      · exact stop call
      · split at call
        · obtain ⟨⟨b₁, found⟩, removed, rest⟩ := bind_eq_ok call
          have flags₁ : b₁.allocFlag = b.allocFlag := by
            unfold allocFlag
            rw [removeLoop_blockMeta _ _ _ removed]
          cases found with
          | false =>
            change Except.ok (b₁, addr, cur, MergeExit.notFound) = _ at rest
            rw [Except.ok.injEq, Prod.mk.injEq] at rest
            rw [← rest.1, flags₁]
          | true =>
            obtain ⟨b₂, cleared, again⟩ := bind_eq_ok rest
            have flags₂ : b₂.allocFlag = b₁.allocFlag :=
              modifyMeta_allocFlag (fun m => { m with isHeadOfFreeBlock := false })
                (fun _ => rfl) cleared
            exact (mergeLoop_allocFlag fuel b₂ _ _ again).trans (flags₂.trans flags₁)
        · exact stop call
    · exact stop call

theorem buddyFreeOrder_allocFlag {order : Nat} {exit : MergeExit}
    (call : b.buddyFreeOrder ptr order = .ok (b', exit)) : b'.allocFlag = b.allocFlag := by
  have unchanged (same : (Except.ok (b, MergeExit.rejected) : Except Fault _) = .ok (b', exit)) :
      b'.allocFlag = b.allocFlag := by
    rw [Except.ok.injEq, Prod.mk.injEq] at same
    rw [same.1]
  unfold buddyFreeOrder at call
  split at call
  · exact unchanged call
  · split at call
    · exact unchanged call
    · obtain ⟨⟨b₁, addr, cur, left⟩, merged, rest⟩ := bind_eq_ok call
      obtain ⟨b₂, marked, pushed⟩ := bind_eq_ok rest
      have flags₁ := mergeLoop_allocFlag _ _ _ _ merged
      have flags₂ : b₂.allocFlag = b₁.allocFlag := modifyMeta_allocFlag
        (fun m => { m with isHeadOfFreeBlock := true, freeOrder := cur }) (fun _ => rfl) marked
      have result : b₂.pushFree cur addr = b' := (Prod.mk.inj (Except.ok.inj pushed)).1
      rw [← result]
      exact flags₂.trans flags₁

/-- `buddy_free` that passes its checks clears the flag of the page it computed, for any pointer
that `addr_to_index` maps to that page. -/
theorem buddyFree_clears {i : Nat} (nonnull : ptr ≠ 0) (lt : i < b.num)
    (index : b.addrToIndex ptr = i) (isHead : b.allocFlag i = true)
    (owner : (b.blockMeta i).ownerSlab = 0) (call : b.buddyFree ptr = .ok b') :
    b'.allocFlag i = false := by
  have notNeg : ¬ (i : Int) < 0 := by omega
  have passes :
      ¬ (!(b.blockMeta i).isHeadOfAllocBlock || (b.blockMeta i).ownerSlab != 0) = true := by
    unfold allocFlag at isHead
    simp [isHead, owner]
  obtain ⟨⟨b₂, exit⟩, run, result⟩ := bind_eq_ok call
  unfold buddyFreeExit at run
  simp only [index, if_neg nonnull, if_neg notNeg, Int.toNat_natCast, if_neg passes] at run
  obtain ⟨b₁, cleared, released⟩ := bind_eq_ok run
  rw [modifyMeta_ok _ lt, Except.ok.injEq] at cleared
  have same : b₂ = b' := Except.ok.inj result
  rw [← same, buddyFreeOrder_allocFlag released, ← cleared]
  simp [allocFlag, setMeta]

/-- `buddy_free` of a page that starts no block changes nothing. -/
theorem buddyFree_notHead {i : Nat} (index : b.addrToIndex ptr = i)
    (notHead : b.allocFlag i = false) : b.buddyFree ptr = .ok b := by
  have notNeg : ¬ (i : Int) < 0 := by omega
  have fails : (!(b.blockMeta i).isHeadOfAllocBlock || (b.blockMeta i).ownerSlab != 0) = true := by
    unfold allocFlag at notHead
    simp [notHead]
  have run : b.buddyFreeExit ptr = .ok (b, .rejected) := by
    unfold buddyFreeExit
    simp only [index, if_neg notNeg, Int.toNat_natCast, if_pos fails, ite_self]
  exact buddyFree_eq run

end Buddy

namespace Kmem

section Reached

variable {k k' : Kmem} {v : View} {p : Nat} {held : List Allocation} {space : Nat} {blockNum : Int}

theorem Core.pageIndex_nonnull (core : Core k v) (found : 0 ≤ k.pageIndex p) : p ≠ 0 := by
  rintro rfl
  have above := (Buddy.addrToIndex_found found).1
  have positive : 0 < k.page 0 := core.slabs.rep.region.page_pos
  simp only [pageAlignDown, Buddy.page] at above positive
  omega

/-- `k_free` passes a pointer of an owned page on to the owner's cache. -/
theorem kFree_owned (found : 0 ≤ k.pageIndex p) {s : Nat}
    (owner : (k.blockMeta (k.pageIndex p).toNat).ownerSlab = s) (nonzero : s ≠ 0) :
    k.kFree p = k.kmemCacheFree (slabCache k.mem s) p ∧ k.ownerOf p = s := by
  unfold pageIndex at found owner
  unfold kFree ownerOf
  simp only [owner]
  rw [if_neg (by omega), if_pos nonzero, if_pos found]
  exact ⟨rfl, rfl⟩

/-- `k_free` passes the address of an unowned page on to the buddy allocator. -/
theorem kFree_unowned (found : 0 ≤ k.pageIndex p)
    (owner : (k.blockMeta (k.pageIndex p).toNat).ownerSlab = 0) (isPage : pageAlignDown p = p) :
    k.kFree p = k.buddyFree p := by
  unfold pageIndex at found owner
  unfold kFree
  simp only [owner]
  rw [if_neg (by omega), if_neg (not_not.mpr rfl), if_neg (not_not.mpr isPage)]

/-- What `k_free` passes on does more than set an error code. -/
theorem Sound.kFree_changes (sound : Sound k held space blockNum) (passed : ¬ RejectsKFree k p)
    (call : k.kFree p = .ok k') : k'.mem ≠ k.mem ∨ k'.blockMeta ≠ k.blockMeta := by
  obtain ⟨v, core, same⟩ := sound.view
  unfold RejectsKFree at passed
  simp only [not_or, not_and_or, not_not, not_lt] at passed
  obtain ⟨found, slabCase, blockCase⟩ := passed
  have nonnull := core.pageIndex_nonnull found
  by_cases owner : (k.blockMeta (k.pageIndex p).toNat).ownerSlab = 0
  · right
    intro unchanged
    obtain ⟨isPage, isHead⟩ := blockCase.resolve_left (not_not.mpr owner)
    rw [kFree_unowned found owner isPage] at call
    obtain ⟨b, freed, result⟩ := bind_eq_ok call
    have index : k.addrToIndex p = ((k.pageIndex p).toNat : Int) := by
      rw [Int.toNat_of_nonneg found, pageIndex, isPage]
    have lt : (k.pageIndex p).toNat < k.num := Buddy.addrToIndex_lt found
    have cleared :=
      Buddy.buddyFree_clears nonnull lt index (by simpa [Buddy.allocFlag] using isHead) owner freed
    have meta_ : k'.blockMeta = b.blockMeta := by
      rw [← Except.ok.inj result]
      rfl
    rw [unchanged] at meta_
    unfold Buddy.allocFlag at cleared
    rw [← meta_] at cleared
    exact isHead cleared
  · left
    obtain ⟨code, ownerOf⟩ := kFree_owned found rfl owner
    obtain ⟨l, isSlab⟩ := core.ownerOf_slab ownerOf owner
    have used := core.slabs.used _ _ isSlab
    have busy := slabCase.resolve_left owner
    obtain ⟨k₁, call₁, changed⟩ :=
      core.kmemCacheFree_writes isSlab (sound.idle _ used) nonnull ownerOf busy
    rw [code, call₁, Except.ok.injEq] at call
    rw [← call]
    exact changed

/-- `k_free` of a pointer that it rejects. -/
theorem Sound.kFree_rejected (sound : Sound k held space blockNum) (bad : RejectsKFree k p) :
    ∃ k', k.kFree p = .ok k' ∧ ∃ c, OnlyError k k' c ∧ Represents k' held := by
  have unchanged : ∃ c, OnlyError k k c ∧ Represents k held := ⟨0, Or.inl rfl, sound.represents⟩
  by_cases missing : k.pageIndex p < 0
  · refine ⟨k, ?_, unchanged⟩
    unfold pageIndex at missing
    unfold Kmem.kFree
    simp only [if_pos missing]
  · obtain ⟨owned, idle⟩ | ⟨unowned, reason⟩ := bad.resolve_left missing
    · obtain ⟨v, core, same⟩ := sound.view
      obtain ⟨code, ownerOf⟩ := kFree_owned (by omega) rfl owned
      obtain ⟨l, isSlab⟩ := core.ownerOf_slab ownerOf owned
      obtain ⟨k', call, only⟩ := sound.rejected (p := p) (core.slabs.used _ _ isSlab)
        (Or.inr (Or.inr (Or.inr (by rw [ownerOf]; exact idle))))
      exact ⟨k', code.trans call, _, only⟩
    · refine ⟨k, ?_, unchanged⟩
      by_cases isPage : pageAlignDown p = p
      · have notHead := reason.resolve_left (not_not.mpr isPage)
        rw [kFree_unowned (by omega) unowned isPage]
        have index : k.addrToIndex p = ((k.pageIndex p).toNat : Int) := by
          rw [Int.toNat_of_nonneg (by omega), pageIndex, isPage]
        unfold Kmem.buddyFree
        rw [Buddy.buddyFree_notHead index notHead]
        rfl
      · unfold pageIndex at missing unowned
        unfold Kmem.kFree
        simp only [if_neg missing, unowned, ne_eq, not_true_eq_false, if_false, if_pos isPage]

/-- `k_free` of any pointer. -/
theorem Sound.harmlessKFree_iff (sound : Sound k held space blockNum) :
    HarmlessKFree k held p ↔ SafeKFree k held p := by
  constructor
  · intro harmless
    by_contra passed
    obtain ⟨passed, notHeld⟩ := not_or.mp passed
    obtain ⟨k', call, ⟨a, base, freed⟩ | ⟨c, only, _⟩⟩ := harmless
    · exact notHeld ⟨a, freed.isHeld, base⟩
    · rcases sound.kFree_changes passed call with changed | changed
      · exact changed only.mem
      · exact changed only.blockMeta
  · intro safe
    rcases safe with bad | ⟨a, isHeld, rfl⟩
    · obtain ⟨k', call, only⟩ := sound.kFree_rejected bad
      exact ⟨k', call, Or.inr only⟩
    · obtain ⟨v, core, same⟩ := sound.view
      obtain ⟨k', v', call, loses⟩ := core.kFree_spec sound.idle ((same a).mp isHeld)
      exact ⟨k', call, Or.inl ⟨a, rfl, sound.freesOne core same loses isHeld⟩⟩

/-- **In every reachable state, freeing a pointer is harmless exactly when the pointer is rejected
by a check of the code or is the base of a live allocation.** -/
theorem free_harmless_iff {k₀ : Kmem} {isKernel : Bool} (given : Space space blockNum)
    (head : k₀.headOfCacheList = 0) (tail : k₀.tailOfCacheList = 0)
    (run : Run k₀ space blockNum isKernel k held) :
    (∀ c p, k.Used c → (Harmless k held c p ↔ SafeFree k held c p)) ∧
      ∀ p, HarmlessKFree k held p ↔ SafeKFree k held p := by
  have sound := run.sound given head tail
  exact ⟨fun _ _ used => sound.harmless_iff used, fun _ => sound.harmlessKFree_iff⟩

theorem free_harmless_iff_sixteenPages : ∃ k a, Run zeroed 4096 16 false k [a] ∧
    (∀ c p, k.Used c → (Harmless k [a] c p ↔ SafeFree k [a] c p)) ∧
      ∀ p, HarmlessKFree k [a] p ↔ SafeKFree k [a] p := by
  obtain ⟨k, a, run⟩ := exists_run_kmalloc
  exact ⟨k, a, run, free_harmless_iff space_sixteenPages rfl rfl run⟩

/-- Two objects of one slab are allocated, the first is freed twice, and two more are allocated: the
addresses handed out, the cache, and what the checks of the second free see. -/
def doubleFree : Except Fault (List Nat) := do
  let k₁ ← zeroed.kmemInit 4096 16 false
  let (k₂, first) ← k₁.kmalloc 100
  let (k₃, second) ← k₂.kmalloc 100
  let k₄ ← k₃.kFree first
  let k₅ ← k₄.kmemCacheFree 4736 first
  let (k₆, third) ← k₅.kmemCacheAlloc 4736
  let (_, fourth) ← k₆.kmemCacheAlloc 4736
  return [first, second, third, fourth, k₁.kmallocCaches 2, k₂.kmallocCaches 2, k₄.kmallocCaches 2,
    k₄.ownerOf 65632, slabCache k₄.mem 65536, slabInuse k₄.mem 65536]

/-- **Freeing an object twice while another object of its slab is live is not rejected, and the next
two allocations return the same address.** -/
theorem doubleFree_harmful : ∃ k k' k₁ k₂ held c p obj, Run zeroed 4096 16 false k held ∧ k.Used c ∧
    k.kmemCacheFree c p = .ok k' ∧ ¬ Harmless k held c p ∧
    k'.kmemCacheAlloc c = .ok (k₁, obj) ∧ k₁.kmemCacheAlloc c = .ok (k₂, obj) := by
  obtain ⟨_, run, observed⟩ := exists_ok doubleFree id
    [65632, 65760, 65632, 65632, 4736, 4736, 4736, 65536, 4736, 1] (by decide +kernel)
  obtain ⟨k₁, init, run⟩ := bind_eq_ok run
  obtain ⟨⟨k₂, first⟩, call₁, run⟩ := bind_eq_ok run
  obtain ⟨⟨k₃, second⟩, call₂, run⟩ := bind_eq_ok run
  obtain ⟨k₄, free₁, run⟩ := bind_eq_ok run
  obtain ⟨k₅, free₂, run⟩ := bind_eq_ok run
  obtain ⟨⟨k₆, third⟩, call₃, run⟩ := bind_eq_ok run
  obtain ⟨⟨k₇, fourth⟩, call₄, run⟩ := bind_eq_ok run
  rw [← Except.ok.inj run] at observed
  simp only [id_eq, List.cons.injEq, and_true] at observed
  obtain ⟨rfl, rfl, rfl, rfl, cache₁, cache₂, cache₄, owner, ownerCache, inuse⟩ := observed
  have index (k : Kmem) : k.kmallocCache 100 = k.kmallocCaches 2 := rfl
  have run₁ := Run.call (.init init) (.allocator (.kmalloc call₁))
  rw [handOut_of_ne (by decide), index, cache₁] at run₁
  have run₂ := Run.call run₁ (.allocator (.kmalloc call₂))
  rw [handOut_of_ne (by decide), index, cache₂] at run₂
  have run₃ := Run.call run₂ (.allocator (.kFree (List.mem_cons_of_mem _ List.mem_cons_self) free₁))
  have sound := run₃.sound space_sixteenPages rfl rfl
  have used : k₄.Used 4736 := cache₄ ▸ (sound.kmalloc 2 (by decide)).1
  refine ⟨k₄, k₅, k₆, k₇, _, 4736, 65632, 65632, run₃, used, free₂, ?_, call₃, call₄⟩
  rw [sound.harmless_iff used]
  rintro (bad | ⟨size, isHeld⟩)
  · simp only [Rejects, owner, ownerCache, inuse] at bad
    omega
  · -- only the second object is still held
    have nodup := (run₂.sound space_sixteenPages rfl rfl).nodup
    obtain ⟨notFreed, isHeld⟩ := nodup.mem_erase_iff.mp isHeld
    simp only [List.mem_cons, Allocation.object.injEq, List.not_mem_nil, or_false] at isHeld
    rcases isHeld with second | freed
    · omega
    · exact notFreed (by rw [freed.2.2])

end Reached

end Kmem

end Xv6Slab
