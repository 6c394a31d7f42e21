/-
**What the threads in the allocator rely on.**

* `Guard` — when a thread may take a step: `kmem_cache_alloc` and `kmem_cache_destroy` are called on
  a cache; `kmem_cache_destroy` marks the cache while no thread destroys it, and gives the slot back
  while no thread grows it; `kmem_cache_create` claims no slot that is still being cleared. A growth
  may begin before the cache is marked and find the mark when it takes the lock again.
* `State.hidden` — the allocator without the descriptors and slabs that threads are in the middle
  of.
* `State.Growing` — what a growing thread relies on, also while the cache is being destroyed.
* `Place` — what a thread relies on at its place; `InvAt` — the invariant of the sequential
  allocator for the hidden state, with the places of all threads.
* `Moves` — what the step of a thread leaves to the others, and `InvAt.moves`: **such a step keeps
  the invariant.**
-/

import Xv6Slab.Slab.Teardown.Model
import Xv6Slab.Slab.Teardown.Hidden
import Xv6Slab.Slab.Run

namespace Xv6Slab

namespace Teardown

open Bytes Chains Tilings Kmem

variable {n : Nat}

/-! ### What a thread works on -/

namespace Phase

/-- The cache that a thread is growing. -/
def grows : Phase → Option Nat
  | .growRead c | .growBlock c _ | .growFailed c | .growInit c _ | .growPublish c _
  | .growConstruct c _ _ | .growAttach c _ _ | .growWithdraw c _ _ => some c
  | _ => none

/-- The descriptor that a thread is destroying or creating. -/
def owns : Phase → Option Nat
  | .shrink c | .shrinkClear c _ | .shrinkFree c _ | .unlink c | .release c | .clear c
  | .createInit c _ _ | .createRefuse c | .createLink c _ => some c
  | _ => none

/-- The descriptor that is used and on no list. -/
def transit : Phase → Option Nat
  | .release c | .createInit c _ _ | .createRefuse c | .createLink c _ => some c
  | _ => none

/-- The slab whose pages have an owner and which is on no list. -/
def secret : Phase → Option Nat
  | .growConstruct _ b _ | .growAttach _ b _ | .growWithdraw _ b _ | .shrinkClear _ b => some b
  | _ => none

/-- The block that only this thread knows. -/
def block : Phase → Option Nat
  | .growInit _ b | .growPublish _ b | .growConstruct _ b _ | .growAttach _ b _
  | .growWithdraw _ b _
  | .growFree b | .shrinkClear _ b | .shrinkFree _ b => some b
  | _ => none

theorem block_of_secret {p : Phase} {b : Nat} (isSecret : p.secret = some b) :
    p.block = some b := by
  cases p <;> first | exact isSecret | cases isSecret

theorem owns_of_transit {p : Phase} {c : Nat} (moving : p.transit = some c) : p.owns = some c := by
  cases p <;> first | exact moving | cases moving

end Phase

/-- What the threads hold together. -/
def gather (f : Phase → Option Nat) (phase : Fin n → Phase) : Set Nat :=
  {a | ∃ t, f (phase t) = some a}

section Gather

variable {f : Phase → Option Nat} {phase : Fin n → Phase} {t : Fin n} {p : Phase} {a : Nat}

theorem gather_keep (same : f p = f (phase t)) :
    gather f (Function.update phase t p) = gather f phase := by
  have all : ∀ t', f (Function.update phase t p t') = f (phase t') := by
    intro t'
    by_cases eq : t' = t
    · subst eq
      rw [Function.update_self, same]
    · rw [Function.update_of_ne eq]
  unfold gather
  simp only [all]

theorem gather_enter (new : f p = some a) (old : f (phase t) = none) :
    gather f (Function.update phase t p) = insert a (gather f phase) := by
  ext x
  rw [Set.mem_insert_iff]
  constructor
  · rintro ⟨t', isHeld⟩
    by_cases eq : t' = t
    · subst eq
      rw [Function.update_self, new] at isHeld
      exact Or.inl (Option.some.inj isHeld).symm
    · rw [Function.update_of_ne eq] at isHeld
      exact Or.inr ⟨t', isHeld⟩
  · rintro (rfl | ⟨t', isHeld⟩)
    · exact ⟨t, by rw [Function.update_self, new]⟩
    · have other : t' ≠ t := by
        intro eq
        subst eq
        rw [old] at isHeld
        cases isHeld
      exact ⟨t', by rw [Function.update_of_ne other]; exact isHeld⟩

theorem gather_leave (new : f p = none) (old : f (phase t) = some a)
    (alone : ∀ t' ≠ t, f (phase t') ≠ some a) :
    gather f (Function.update phase t p) = gather f phase \ {a} := by
  ext x
  constructor
  · rintro ⟨t', isHeld⟩
    by_cases eq : t' = t
    · subst eq
      rw [Function.update_self, new] at isHeld
      cases isHeld
    · rw [Function.update_of_ne eq] at isHeld
      refine ⟨⟨t', isHeld⟩, ?_⟩
      rintro rfl
      exact alone t' eq isHeld
  · rintro ⟨⟨t', isHeld⟩, ne⟩
    have other : t' ≠ t := by
      rintro rfl
      rw [old] at isHeld
      exact ne (Option.some.inj isHeld).symm
    exact ⟨t', by rw [Function.update_of_ne other]; exact isHeld⟩

end Gather

namespace State

/-- The descriptors that are used and on no list. -/
def transit (s : State n) : Set Nat := gather Phase.transit s.phase

/-- The slabs that own pages and are on no list. -/
def secret (s : State n) : Set Nat := gather Phase.secret s.phase

/-- A descriptor is a cache: `kmem_cache_create` has linked it, and no `kmem_cache_destroy` unlinked
it. -/
def Cache (s : State n) (c : Nat) : Prop := s.kmem.Used c ∧ c ∉ s.transit

/-- The allocator without what threads are in the middle of. -/
noncomputable def hidden (s : State n) : Kmem := s.kmem.hide s.transit s.secret

theorem hidden_used (s : State n) (c : Nat) : s.hidden.Used c ↔ s.Cache c := by
  unfold hidden Cache
  rw [hide_used, and_comm]

end State

section Phases

variable {s s' : State n} {t : Fin n} {p : Phase} {b : Nat}
  (phase : s'.phase = Function.update s.phase t p)

include phase

/-- What holds of the places of all threads after a step of one. -/
theorem forall_phase {P : Phase → Prop} (here : P p) (others : ∀ t' ≠ t, P (s.phase t'))
    (t' : Fin n) : P (s'.phase t') := by
  rw [phase]
  by_cases eq : t' = t
  · rw [eq, Function.update_self]
    exact here
  · rw [Function.update_of_ne eq]
    exact others t' eq

/-- What no two threads hold, they do not after a step of one. -/
theorem unique_phase {f : Phase → Option Nat}
    (before : ∀ t t' a, f (s.phase t) = some a → f (s.phase t') = some a → t = t')
    (new : ∀ a, f p = some a → ∀ t' ≠ t, f (s.phase t') ≠ some a) (t₁ t₂ : Fin n) (a : Nat)
    (first : f (s'.phase t₁) = some a) (second : f (s'.phase t₂) = some a) : t₁ = t₂ := by
  rw [phase] at first second
  by_cases eq₁ : t₁ = t <;> by_cases eq₂ : t₂ = t
  · rw [eq₁, eq₂]
  · rw [eq₁, Function.update_self] at first
    rw [Function.update_of_ne eq₂] at second
    exact absurd second (new a first t₂ eq₂)
  · rw [eq₂, Function.update_self] at second
    rw [Function.update_of_ne eq₁] at first
    exact absurd first (new a second t₁ eq₁)
  · rw [Function.update_of_ne eq₁] at first
    rw [Function.update_of_ne eq₂] at second
    exact before t₁ t₂ a first second

theorem transit_keep (same : p.transit = (s.phase t).transit) : s'.transit = s.transit := by
  unfold State.transit
  rw [phase, gather_keep same]

theorem secret_keep (same : p.secret = (s.phase t).secret) : s'.secret = s.secret := by
  unfold State.secret
  rw [phase, gather_keep same]

theorem secret_enter (new : p.secret = some b) (old : (s.phase t).secret = none) :
    s'.secret = insert b s.secret := by
  unfold State.secret
  rw [phase, gather_enter new old]

end Phases

/-! ### The condition -/

/-- A constructor writes only to the object it is given. -/
def LocalCtor (size : Nat) (ctor : Option (Mem → Nat → Mem)) : Prop :=
  ∀ f, ctor = some f → ∀ mem obj, SameOutside (Set.Ico obj (obj + size)) mem (f mem obj)

/-- When a thread may take a step. -/
def Guard (s : State n) : Event n → Prop
  | .alloc _ c => c = 0 ∨ s.Cache c
  | .destroy _ _ => True
  | .create _ size ctor => size < 2 ^ 64 ∧ LocalCtor size ctor ∧
      ∀ index, s.kmem.findFreeCacheSlot = some index →
      ∀ t, (s.phase t).owns ≠ some (s.kmem.slot index)
  | .next t =>
    match s.phase t with
    | .mark c => s.Cache c ∧ ∀ t', (s.phase t').owns ≠ some c
    | .release c => ∀ t', (s.phase t').grows ≠ some c
    | _ => True

/-! ### The invariant -/

/-- A slab of a cache. -/
def Has (v : View) (c b : Nat) : Prop := ∃ l, v.slabs b = some ⟨c, l⟩

namespace State

/-- A descriptor that a thread grows keeps its slot and its layout. It may be on the way out, but
not unmarked. -/
structure Growing (s : State n) (c : Nat) : Prop where
  used : s.kmem.Used c
  geometry : (s.kmem.desc c).Geometry
  listed : (s.kmem.desc c).destroying = false → s.hidden.Used c

/-- A block of the size of a slab that no client knows. -/
def Private (s : State n) (v : View) (c b : Nat) : Prop :=
  .block b (s.kmem.desc c).slabOrder ∈ live s.hidden v.slabs

/-- A slab with its header written and all objects free. -/
def Fresh (s : State n) (c b : Nat) : Prop :=
  Header s.kmem.mem b ⟨c, List.range' 0 (s.kmem.desc c).objsPerSlab⟩ (s.kmem.desc c).objsPerSlab

/-- A slab owns exactly the pages of its block. -/
def Owners (s : State n) (c b : Nat) : Prop :=
  ∃ i, b = s.kmem.page i ∧ ∀ j < s.kmem.num, (s.kmem.blockMeta j).ownerSlab = b ↔
    i ≤ j ∧ j < i + 2 ^ (s.kmem.desc c).slabOrder

/-- A cache that a thread has begun to destroy. -/
structure Marked (s : State n) (c : Nat) : Prop where
  used : s.hidden.Used c
  destroying : (s.kmem.desc c).destroying = true
  noPartial : (s.kmem.desc c).partialSlabs = 0
  noFull : (s.kmem.desc c).fullSlabs = 0

end State

/-- What a thread relies on. -/
def Place (s : State n) (v : View) : Phase → Prop
  | .idle | .mark _ => True
  | .growRead c | .growFailed c => s.Growing c
  | .growBlock c order => s.Growing c ∧ order = (s.kmem.desc c).slabOrder
  | .growInit c b => s.Growing c ∧ s.Private v c b
  | .growPublish c b => s.Growing c ∧ s.Private v c b ∧ s.Fresh c b
  | .growConstruct c b head | .growAttach c b head =>
    s.Growing c ∧ s.Private v c b ∧ s.Owners c b ∧ head = s.kmem.addrToIndex b ∧ s.Fresh c b
  | .growWithdraw c b head =>
    s.Growing c ∧ s.Private v c b ∧ s.Owners c b ∧ head = s.kmem.addrToIndex b
  | .growFree b => ∃ order, .block b order ∈ live s.hidden v.slabs
  | .shrink c => s.Marked c
  | .shrinkClear c b => s.Marked c ∧ s.Private v c b ∧ s.Owners c b
  | .shrinkFree c b => s.Marked c ∧ s.Private v c b
  | .unlink c => s.Marked c ∧ (s.kmem.desc c).emptySlabs = 0
  | .release c => s.kmem.Used c
  | .createRefuse c => s.kmem.Used c ∧ (s.kmem.desc c).destroying = false
  | .clear c => (∃ i < maxNumCaches, c = s.kmem.slot i) ∧ (s.kmem.desc c).isUsed = false
  | .createInit c size ctor => s.kmem.Used c ∧ (s.kmem.desc c).destroying = false ∧ size < 2 ^ 64 ∧
      LocalCtor size ctor
  | .createLink c shape => s.kmem.Used c ∧ (s.kmem.desc c).destroying = false ∧
      (s.kmem.desc c).shape = shape ∧ (s.kmem.desc c).Geometry ∧
      (∀ list, (s.kmem.desc c).head list = 0) ∧ (s.kmem.desc c).next = 0 ∧ (s.kmem.desc c).prev = 0

/-- A descriptor that `kmem_cache_create` has returned is as it was made, with the slabs linked
since. -/
structure Kept (s : State n) (v : View) (c : Nat) (m : Made) : Prop where
  used : s.hidden.Used c
  shape : (s.kmem.desc c).shape = m.shape
  unowned : ∀ t, (s.phase t).owns ≠ some c
  slabs : ∀ b, Has v c b ↔ b ∈ m.slabs

/-- The invariant of the threads. -/
structure InvAt (s : State n) (v : View) : Prop where
  core : Core s.hidden v
  places : ∀ t, Place s v (s.phase t)
  exclusive : ∀ t t' c, (s.phase t).owns = some c → (s.phase t').owns = some c → t = t'
  blocks : ∀ t t' b, (s.phase t).block = some b → (s.phase t').block = some b → t = t'
  idle : ∀ c, s.hidden.Used c → (∀ t, (s.phase t).owns ≠ some c) →
      (s.kmem.desc c).destroying = false
  made : ∀ c m, s.made c = some m → Kept s v c m

/-! ### What a step leaves to the other threads -/

/-- A descriptor without its error code. -/
def firm (d : KmemCache) : KmemCache := { d with errorCode := .ok }

/-- A descriptor without its error code and its links. -/
def body (d : KmemCache) : KmemCache := { d with errorCode := .ok, next := 0, prev := 0 }

/-- What a step of the thread `t` leaves of the blocks of others. -/
structure Spares (s s' : State n) (v v' : View) (t : Fin n) : Prop where
  blocks : ∀ b order, .block b order ∈ live s.hidden v.slabs → (s.phase t).block ≠ some b →
    .block b order ∈ live s'.hidden v'.slabs ∧
      ∀ a ∈ (Allocation.block b order).bytes, s'.kmem.mem a = s.kmem.mem a
  owners : ∀ t' ≠ t, ∀ b, (s.phase t').secret = some b → ∀ j < s.kmem.num,
    ((s'.kmem.blockMeta j).ownerSlab = b ↔ (s.kmem.blockMeta j).ownerSlab = b)

/-- What the step of the thread `t` on the descriptor `c` leaves to the others. -/
structure Moves (s s' : State n) (v v' : View) (t : Fin n) (c : Nat) : Prop extends
    Spares s s' v v' t where
  core : Core s'.hidden v'
  place : SamePlace s.kmem s'.kmem
  used : ∀ a ≠ c, s'.hidden.Used a ↔ s.hidden.Used a
  desc : ∀ a ≠ c, body (s'.kmem.desc a) = body (s.kmem.desc a)
  /-- Only the links of listed descriptors change. -/
  still : ∀ a ≠ c, ¬ s.hidden.Used a → firm (s'.kmem.desc a) = firm (s.kmem.desc a)
  grown : ∀ t' ≠ t, (s.phase t').grows = some c → s.Growing c →
    s'.Growing c ∧ KmemCache.SameShape (s.kmem.desc c) (s'.kmem.desc c)
  unowned : ∀ t' ≠ t, (s.phase t').owns ≠ some c

section Frame

variable {s s' : State n} {v v' : View} {t t' : Fin n} {a b c : Nat}

namespace Moves

theorem field {β : Type} (moves : Moves s s' v v' t c) (f : KmemCache → β) (ne : a ≠ c) :
    f (body (s'.kmem.desc a)) = f (body (s.kmem.desc a)) := congrArg f (moves.desc a ne)

theorem sameShape (moves : Moves s s' v v' t c) (ne : a ≠ c) :
    KmemCache.SameShape (s.kmem.desc a) (s'.kmem.desc a) :=
  ⟨moves.field KmemCache.slabOrder ne, moves.field KmemCache.objectSize ne,
    moves.field KmemCache.objsPerSlab ne, moves.field KmemCache.objOffset ne,
    moves.field KmemCache.ctor ne⟩

theorem head (moves : Moves s s' v v' t c) (ne : a ≠ c) (list : SlabList) :
    (s'.kmem.desc a).head list = (s.kmem.desc a).head list := by
  cases list with
  | full => exact moves.field KmemCache.fullSlabs ne
  | partials => exact moves.field KmemCache.partialSlabs ne
  | empty => exact moves.field KmemCache.emptySlabs ne

theorem slot (moves : Moves s s' v v' t c) (i : Nat) : s'.kmem.slot i = s.kmem.slot i :=
  moves.place.slot i

/-- A descriptor that another thread owns or grows. -/
theorem claimed (moves : Moves s s' v v' t c) (ne : a ≠ c) (used : s.kmem.Used a) :
    s'.kmem.Used a := by
  obtain ⟨i, lt, isSlot, on⟩ := used
  exact ⟨i, lt, by rw [moves.slot]; exact isSlot, (moves.field KmemCache.isUsed ne).trans on⟩

/-- A cache that another thread grows. -/
theorem growing (moves : Moves s s' v v' t c) (other : t' ≠ t) (grows : (s.phase t').grows = some a)
    (before : s.Growing a) :
    s'.Growing a ∧ KmemCache.SameShape (s.kmem.desc a) (s'.kmem.desc a) := by
  by_cases eq : a = c
  · subst eq
    exact moves.grown t' other grows before
  · have shape := moves.sameShape eq
    refine ⟨⟨moves.claimed eq before.used, shape.geometry before.geometry, fun active => ?_⟩, shape⟩
    exact (moves.used a eq).mpr
      (before.listed ((moves.field KmemCache.destroying eq).symm.trans active))

theorem markedKept (moves : Moves s s' v v' t c) (ne : a ≠ c) (marked : s.Marked a) :
    s'.Marked a where
  used := (moves.used a ne).mpr marked.used
  destroying := (moves.field KmemCache.destroying ne).trans marked.destroying
  noPartial := (moves.head ne .partials).trans marked.noPartial
  noFull := (moves.head ne .full).trans marked.noFull

theorem privateKept (moves : Moves s s' v v' t c)
    (shape : KmemCache.SameShape (s.kmem.desc a) (s'.kmem.desc a)) (isPrivate : s.Private v a b)
    (mine : (s.phase t).block ≠ some b) : s'.Private v' a b := by
  unfold State.Private
  rw [shape.slabOrder]
  exact (moves.blocks b _ isPrivate mine).1

theorem freshKept (moves : Moves s s' v v' t c) (geometry : (s.kmem.desc a).Geometry)
    (shape : KmemCache.SameShape (s.kmem.desc a) (s'.kmem.desc a)) (isPrivate : s.Private v a b)
    (mine : (s.phase t).block ≠ some b) (isFresh : s.Fresh a b) : s'.Fresh a b := by
  unfold State.Fresh
  rw [shape.objsPerSlab]
  have inside := (moves.blocks b _ isPrivate mine).2
  have room := geometry.header_lt
  unfold KmemCache.slabBytes at room
  have same : SameOutside {x | x ∉ (Allocation.block b (s.kmem.desc a).slabOrder).bytes} s.kmem.mem
      s'.kmem.mem := fun x outside => inside x (not_not.mp outside)
  refine isFresh.frame same ?_
  intro x outside inInfo
  apply outside
  rcases inInfo with ⟨low, high⟩ | ⟨low, high⟩
  · exact ⟨low, lt_of_lt_of_le high (by simp only [Allocation.base, Allocation.size]; omega)⟩
  · exact ⟨le_trans (by simp only [Allocation.base]; omega) low,
      lt_of_lt_of_le high (by simp only [Allocation.base, Allocation.size]; omega)⟩

theorem headKept (moves : Moves s s' v v' t c) (b : Nat) :
    s'.kmem.addrToIndex b = s.kmem.addrToIndex b := by
  unfold Buddy.addrToIndex
  rw [moves.place.start, moves.place.blocks]

theorem ownersKept (moves : Moves s s' v v' t c) (other : t' ≠ t)
    (isSecret : (s.phase t').secret = some b)
    (shape : KmemCache.SameShape (s.kmem.desc a) (s'.kmem.desc a)) (isOwner : s.Owners a b) :
    s'.Owners a b := by
  obtain ⟨i, address, owns⟩ := isOwner
  refine ⟨i, by rw [moves.place.page]; exact address, ?_⟩
  intro j lt
  rw [moves.place.num] at lt
  rw [moves.owners t' other b isSecret j lt, shape.slabOrder]
  exact owns j lt

end Moves

/-- **What another thread relies on still holds.** -/
theorem Place.frame (moves : Moves s s' v v' t c) (other : t' ≠ t)
    (mine : ∀ b, (s.phase t').block = some b → (s.phase t).block ≠ some b)
    (place : Place s v (s.phase t')) : Place s' v' (s.phase t') := by
  have growing := fun a => moves.growing (a := a) other
  have ne : ∀ a, (s.phase t').owns = some a → a ≠ c := by
    rintro a owned rfl
    exact moves.unowned t' other owned
  have ownersKept := fun a b => moves.ownersKept (a := a) (b := b) other
  -- a descriptor in transit is not used in the hidden state, so nothing of it changes
  have still : ∀ a, (s.phase t').transit = some a →
      firm (s'.kmem.desc a) = firm (s.kmem.desc a) := by
    intro a moving
    refine moves.still a (ne a (Phase.owns_of_transit moving)) ?_
    rw [s.hidden_used]
    exact fun cache => cache.2 ⟨t', moving⟩
  cases isPhase : s.phase t' <;> rw [isPhase] at place mine growing ne ownersKept still <;>
    simp only [Phase.grows, Phase.owns, Phase.transit, Phase.secret, Phase.block, Option.some.injEq,
      forall_eq', reduceCtorEq, false_implies, implies_true] at mine growing ne ownersKept still
  case idle => trivial
  case mark => trivial
  case growRead c => exact (growing place).1
  case growFailed c => exact (growing place).1
  case growBlock c order =>
    obtain ⟨used, shape⟩ := growing place.1
    exact ⟨used, place.2.trans shape.slabOrder.symm⟩
  case growInit c b =>
    obtain ⟨used, isPrivate⟩ := place
    obtain ⟨used', shape⟩ := growing used
    exact ⟨used', moves.privateKept shape isPrivate mine⟩
  case growPublish c b =>
    obtain ⟨used, isPrivate, isFresh⟩ := place
    obtain ⟨used', shape⟩ := growing used
    exact ⟨used', moves.privateKept shape isPrivate mine,
      moves.freshKept used.geometry shape isPrivate mine isFresh⟩
  case growConstruct c b _ =>
    obtain ⟨used, isPrivate, isOwner, isHead, isFresh⟩ := place
    obtain ⟨used', shape⟩ := growing used
    exact ⟨used', moves.privateKept shape isPrivate mine, ownersKept c shape isOwner,
      isHead.trans (moves.headKept b).symm,
      moves.freshKept used.geometry shape isPrivate mine isFresh⟩
  case growAttach c b _ =>
    obtain ⟨used, isPrivate, isOwner, isHead, isFresh⟩ := place
    obtain ⟨used', shape⟩ := growing used
    exact ⟨used', moves.privateKept shape isPrivate mine, ownersKept c shape isOwner,
      isHead.trans (moves.headKept b).symm,
      moves.freshKept used.geometry shape isPrivate mine isFresh⟩
  case growWithdraw c b _ =>
    obtain ⟨used, isPrivate, isOwner, isHead⟩ := place
    obtain ⟨used', shape⟩ := growing used
    exact ⟨used', moves.privateKept shape isPrivate mine, ownersKept c shape isOwner,
      isHead.trans (moves.headKept b).symm⟩
  case growFree b =>
    obtain ⟨order, isLive⟩ := place
    exact ⟨order, (moves.blocks b order isLive mine).1⟩
  case shrink c => exact moves.markedKept ne place
  case shrinkClear c b =>
    obtain ⟨marked, isPrivate, isOwner⟩ := place
    exact ⟨moves.markedKept ne marked, moves.privateKept (moves.sameShape ne) isPrivate mine,
      ownersKept c (moves.sameShape ne) isOwner⟩
  case shrinkFree c b =>
    obtain ⟨marked, isPrivate⟩ := place
    exact ⟨moves.markedKept ne marked, moves.privateKept (moves.sameShape ne) isPrivate mine⟩
  case unlink c => exact ⟨moves.markedKept ne place.1, (moves.head ne .empty).trans place.2⟩
  case release c => exact moves.claimed ne place
  case createRefuse c =>
    exact ⟨moves.claimed ne place.1, (moves.field KmemCache.destroying ne).trans place.2⟩
  case clear c =>
    obtain ⟨⟨i, lt, isSlot⟩, off⟩ := place
    exact ⟨⟨i, lt, by rw [moves.slot]; exact isSlot⟩, (moves.field KmemCache.isUsed ne).trans off⟩
  case createInit c size ctor =>
    obtain ⟨used, active, rest⟩ := place
    exact ⟨moves.claimed ne used, (moves.field KmemCache.destroying ne).trans active, rest⟩
  case createLink c shape =>
    obtain ⟨used, active, isShape, geometry, heads, next, prev⟩ := place
    exact ⟨moves.claimed ne used, (moves.field KmemCache.destroying ne).trans active,
      (moves.field KmemCache.shape ne).trans isShape, (moves.sameShape ne).geometry geometry,
      fun list => (moves.head ne list).trans (heads list),
      (congrArg KmemCache.next still).trans next, (congrArg KmemCache.prev still).trans prev⟩

/-- **A step that leaves to the others what they rely on keeps the invariant.** -/
theorem InvAt.moves {p : Phase} (inv : InvAt s v) (moves : Moves s s' v v' t c)
    (phase : s'.phase = Function.update s.phase t p) (made : ∀ a ≠ c, s'.made a = s.made a)
    (slabs : ∀ a ≠ c, ∀ b, Has v' a b ↔ Has v a b) (here : Place s' v' p)
    (owned : ∀ a, (s.phase t).owns = some a → a = c)
    (owns : ∀ a, p.owns = some a → a = c)
    (block : ∀ b, p.block = some b → ∀ t' ≠ t, (s.phase t').block ≠ some b)
    (idle : s'.hidden.Used c → p.owns ≠ some c → (s'.kmem.desc c).destroying = false)
    (kept : ∀ m, s'.made c = some m → Kept s' v' c m) : InvAt s' v' := by
  refine ⟨moves.core, ?_, unique_phase phase inv.exclusive ?_, unique_phase phase inv.blocks block,
    ?_, ?_⟩
  · refine forall_phase phase here fun t' other => Place.frame moves other ?_ (inv.places t')
    exact fun b theirs mine => other (inv.blocks t' t b theirs mine)
  · intro a isOwned t' other
    rw [owns a isOwned]
    exact moves.unowned t' other
  · intro a used unowned
    by_cases eq : a = c
    · subst eq
      refine idle used ?_
      have mine := unowned t
      rw [phase, Function.update_self] at mine
      exact mine
    · refine (moves.field KmemCache.destroying eq).trans (inv.idle a ((moves.used a eq).mp used) ?_)
      intro t'
      by_cases eq' : t' = t
      · rw [eq']
        exact fun isOwned => eq (owned a isOwned)
      · have theirs := unowned t'
        rw [phase, Function.update_of_ne eq'] at theirs
        exact theirs
  · intro a m isMade
    by_cases eq : a = c
    · subst eq
      exact kept m isMade
    · rw [made a eq] at isMade
      have before := inv.made a m isMade
      refine ⟨(moves.used a eq).mpr before.used,
        (moves.field KmemCache.shape eq).trans before.shape, ?_,
        fun b => (slabs a eq b).trans (before.slabs b)⟩
      exact forall_phase (P := fun q => q.owns ≠ some a) phase
        (fun isOwned => eq (owns a isOwned)) fun t' _ => before.unowned t'

end Frame

end Teardown

end Xv6Slab
