/-
**The steps of `kmem_cache_alloc` keep the invariant of the threads.**

One lemma for each place of a thread. `Moves.of_calm` serves the steps that leave the descriptors'
layouts alone, `Moves.of_sameBuddy` those that change nothing but descriptors.

* `InvAt.alloc` — the first section: an object of a slab at hand, or the way to a new slab.
* `InvAt.takeBlock`, `InvAt.writeHeader`, `InvAt.publish`, `InvAt.construct` — a block that only its
  thread knows becomes a slab in secret.
* `InvAt.attach` — **the new slab becomes a slab of the cache.**
-/

import Xv6Slab.Slab.Teardown.Invariant
import Xv6Slab.Slab.Frames

namespace Xv6Slab

namespace Teardown

open Bytes Chains Tilings Kmem

variable {n : Nat} {s s' : State n} {v v' : View} {t t' : Fin n} {a b c : Nat} {p : Phase}

/-! ### The hidden state -/

theorem hidden_sameShape (s : State n) (c : Nat) :
    KmemCache.SameShape (s.kmem.desc c) (s.hidden.desc c) :=
  ⟨hide_slabOrder c, hide_field KmemCache.objectSize (fun _ _ => rfl) c, hide_objsPerSlab c,
    hide_field KmemCache.objOffset (fun _ _ => rfl) c, hide_field KmemCache.ctor (fun _ _ => rfl) c⟩

theorem hidden_destroying (s : State n) (c : Nat) :
    (s.hidden.desc c).destroying = (s.kmem.desc c).destroying :=
  hide_field KmemCache.destroying (fun _ _ => rfl) c

/-- A step that changes neither what is in transit nor what is secret. -/
theorem hidden_keep (phase : s'.phase = Function.update s.phase t p)
    (transit : p.transit = (s.phase t).transit) (secret : p.secret = (s.phase t).secret) :
    s'.hidden = s'.kmem.hide s.transit s.secret := by
  unfold State.hidden
  rw [transit_keep phase transit, secret_keep phase secret]

theorem sameShape_of_hidden (layout : (s'.hidden.desc c).layout = (s.hidden.desc c).layout) :
    KmemCache.SameShape (s.kmem.desc c) (s'.kmem.desc c) := by
  have shape := KmemCache.SameShape.of_layout layout
  have before := hidden_sameShape s c
  have after := hidden_sameShape s' c
  exact ⟨after.slabOrder.symm.trans (shape.slabOrder.trans before.slabOrder),
    after.objectSize.symm.trans (shape.objectSize.trans before.objectSize),
    after.objsPerSlab.symm.trans (shape.objsPerSlab.trans before.objsPerSlab),
    after.objOffset.symm.trans (shape.objOffset.trans before.objOffset),
    after.ctor.symm.trans (shape.ctor.trans before.ctor)⟩

theorem shape_eq_of_sameShape {d d' : KmemCache} (same : KmemCache.SameShape d d') :
    d'.shape = d.shape := by
  unfold KmemCache.shape
  rw [same.objectSize, same.slabOrder, same.objsPerSlab, same.objOffset]

/-! ### Facts of the invariant -/

namespace InvAt

/-- A thread grows a cache. -/
theorem growing_of_grows (inv : InvAt s v) (grows : (s.phase t).grows = some c) : s.Growing c := by
  have place := inv.places t
  cases isPhase : s.phase t <;> rw [isPhase] at grows place <;>
    simp only [Phase.grows, Option.some.injEq,
    reduceCtorEq] at grows <;> subst grows <;> first | exact place | exact place.1

/-- What a thread destroys or creates is a slot of the pool. -/
theorem slot_of_owns (inv : InvAt s v) (owns : (s.phase t).owns = some c) :
    ∃ i < maxNumCaches, c = s.kmem.slot i := by
  have place := inv.places t
  have ofHidden : s.hidden.Used c → ∃ i < maxNumCaches, c = s.kmem.slot i := by
    rintro ⟨i, lt, isSlot, _⟩
    exact ⟨i, lt, isSlot⟩
  have ofUsed : s.kmem.Used c → ∃ i < maxNumCaches, c = s.kmem.slot i := by
    rintro ⟨i, lt, isSlot, _⟩
    exact ⟨i, lt, isSlot⟩
  cases isPhase : s.phase t <;> rw [isPhase] at owns place <;>
    simp only [Phase.owns, Option.some.injEq, reduceCtorEq] at owns <;> subst owns <;>
    first | exact ofHidden place.used | exact ofHidden place.1.used | exact ofUsed place |
      exact ofUsed place.1 | exact place.1

/-- Nobody destroys or creates a cache that is not marked. -/
theorem unowned_of_active (inv : InvAt s v) (used : s.hidden.Used c)
    (active : (s.kmem.desc c).destroying = false) (t : Fin n) : (s.phase t).owns ≠ some c := by
  intro owns
  have place := inv.places t
  have marked : ¬ s.Marked c := by
    intro marked
    have flag := marked.destroying
    rw [active] at flag
    cases flag
  have cache := (s.hidden_used c).mp used
  have settled : (s.phase t).transit ≠ some c := fun moving => cache.2 ⟨t, moving⟩
  cases isPhase : s.phase t <;> rw [isPhase] at owns place settled <;> simp only [Phase.owns,
    Phase.transit, Option.some.injEq, reduceCtorEq, ne_eq] at owns settled <;> subst owns <;>
    first | exact marked place | exact marked place.1 | exact settled rfl | skip
  obtain ⟨_, _, _, on⟩ := cache.1
  rw [place.2] at on
  cases on

/-- The bytes of a private block are not the allocator's. -/
theorem not_spare (inv : InvAt s v) {order x : Nat}
    (isLive : .block b order ∈ live s.hidden v.slabs)
    (inside : x ∈ (Allocation.block b order).bytes) : x ∉ spare s.hidden v.slabs := by
  rintro (⟨z, e, l, isSlab, low, high⟩ | inFree)
  · exact inv.core.slabs.live_not_header isLive isSlab inside ⟨low, high⟩
  · exact inv.core.slabs.live_not_free isLive inside inFree

/-- A private block is live. -/
theorem private_of_block (inv : InvAt s v) (block : (s.phase t).block = some b) :
    ∃ order, .block b order ∈ live s.hidden v.slabs := by
  have place := inv.places t
  cases isPhase : s.phase t <;> rw [isPhase] at block place <;> simp only [Phase.block,
    Option.some.injEq, reduceCtorEq] at block <;> subst block <;>
    first | exact place | exact ⟨_, place.2⟩ | exact ⟨_, place.2.1⟩

/-- Two private blocks do not overlap. -/
theorem blocks_apart (inv : InvAt s v) {order order' x : Nat}
    (first : .block a order ∈ live s.hidden v.slabs)
    (second : .block b order' ∈ live s.hidden v.slabs) (ne : a ≠ b)
    (inside : x ∈ (Allocation.block a order).bytes) : x ∉ (Allocation.block b order').bytes := by
  have apart := inv.core.slabs.live_disjoint first second (by
    intro eq
    exact ne (Allocation.block.inj eq).1)
  exact Set.disjoint_left.mp apart inside

theorem unowned_of_owns (inv : InvAt s v) (owns : (s.phase t).owns = some c) (t' : Fin n)
    (other : t' ≠ t) : (s.phase t').owns ≠ some c :=
  fun owns' => other (inv.exclusive t' t c owns' owns)

theorem block_of_block (inv : InvAt s v) (block : (s.phase t).block = some b) (t' : Fin n)
    (other : t' ≠ t) : (s.phase t').block ≠ some b :=
  fun block' => other (inv.blocks t' t b block' block)

/-- A thread goes on with its block. -/
theorem keepsBlock (inv : InvAt s v) (block : (s.phase t).block = some b)
    (block' : p.block = some b) (a : Nat) (isBlock : p.block = some a) :
    ∀ t' ≠ t, (s.phase t').block ≠ some a := by
  obtain rfl := Option.some.inj (block'.symm.trans isBlock)
  exact inv.block_of_block block

/-- A private block is not null. -/
theorem block_ne_zero (inv : InvAt s v) (block : (s.phase t).block = some b) : b ≠ 0 := by
  obtain ⟨order, i, _, _, address⟩ := inv.private_of_block block
  rw [address]
  exact inv.core.slabs.rep.region.page_pos.ne'

/-- A secret is another's no more than the block. -/
theorem secret_leave (inv : InvAt s v) (phase : s'.phase = Function.update s.phase t p)
    (isSecret : (s.phase t).secret = some b) (open' : p.secret = none) :
    s'.secret = s.secret \ {b} := by
  unfold State.secret
  rw [phase]
  refine gather_leave open' isSecret fun t' other isSecret' => ?_
  exact inv.block_of_block (Phase.block_of_secret isSecret) t' other
    (Phase.block_of_secret isSecret')

/-- A block whose pages have no owner yet is no secret. -/
theorem not_secret (inv : InvAt s v) (block : (s.phase t).block = some b)
    (open' : (s.phase t).secret = none) : b ∉ s.secret := by
  rintro ⟨t', isSecret⟩
  rw [inv.blocks t' t b (Phase.block_of_secret isSecret) block, open'] at isSecret
  cases isSecret

/-- A cache lays out its slabs soundly. -/
theorem geometry (inv : InvAt s v) (used : s.hidden.Used c) : (s.kmem.desc c).Geometry := by
  have shape := hidden_sameShape s c
  have back : KmemCache.SameShape (s.hidden.desc c) (s.kmem.desc c) :=
    ⟨shape.slabOrder.symm, shape.objectSize.symm, shape.objsPerSlab.symm, shape.objOffset.symm,
      shape.ctor.symm⟩
  exact back.geometry (inv.core.slabs.geometry c used)

/-- No thread destroys or creates null. -/
theorem owns_ne_zero (inv : InvAt s v) (t : Fin n) : (s.phase t).owns ≠ some 0 := by
  intro owns
  obtain ⟨i, lt, isSlot⟩ := inv.slot_of_owns owns
  exact (inv.core.pool.slot_bounds lt).1 isSlot.symm

end InvAt

/-! ### Steps that leave the descriptors alone -/

theorem Calm.destroying_kmem (calm : Calm s.hidden s'.hidden) (c : Nat) :
    (s'.kmem.desc c).destroying = (s.kmem.desc c).destroying := by
  rw [← hidden_destroying, ← hidden_destroying]
  exact calm.destroying c

/-- A calm step. -/
theorem Moves.of_calm (calm : Calm s.hidden s'.hidden) (core : Core s'.hidden v')
    (descs : ∀ a ≠ c, firm (s'.kmem.desc a) = firm (s.kmem.desc a))
    (known : s.Growing c → s.hidden.Used c) (unowned : ∀ t' ≠ t, (s.phase t').owns ≠ some c)
    (spares : Spares s s' v v' t) : Moves s s' v v' t c where
  toSpares := spares
  core := core
  place :=
    have place := calm.samePlace
    ⟨place.start, place.blocks, place.freeAreaAt, place.blockMetaAt, place.cachePool⟩
  used := fun a _ => calm.used_iff a
  desc := fun a ne => congrArg (fun d => { d with next := 0, prev := 0 }) (descs a ne)
  still := fun a ne _ => descs a ne
  grown := fun _ _ _ growing =>
    have used := (calm.used_iff c).mpr (known growing)
    have shape := sameShape_of_hidden (calm.layout c)
    ⟨⟨((s'.hidden_used c).mp used).1, shape.geometry growing.geometry, fun _ => used⟩, shape⟩
  unowned := unowned

/-- A cache that a thread grows, after a calm step that changes nothing of its descriptor but the
error code. -/
theorem State.Growing.calm (growing : s.Growing c) (calm : Calm s.hidden s'.hidden)
    (desc : firm (s'.kmem.desc c) = firm (s.kmem.desc c)) : s'.Growing c where
  used := by
    obtain ⟨i, lt, isSlot, on⟩ := growing.used
    exact ⟨i, lt, isSlot.trans (calm.samePlace.slot i).symm,
      (congrArg KmemCache.isUsed desc).trans on⟩
  geometry := (sameShape_of_hidden (calm.layout c)).geometry growing.geometry
  listed :=
    fun active =>
    (calm.used_iff c).mpr (growing.listed ((Calm.destroying_kmem calm c).symm.trans active))

/-- What is known of a descriptor after a calm step that links no slab to it. -/
theorem Kept.calm {m : Made} (kept : Kept s v c m) (calm : Calm s.hidden s'.hidden)
    (phase : s'.phase = Function.update s.phase t p) (owns : p.owns ≠ some c)
    (has : ∀ b, Has v' c b ↔ Has v c b) : Kept s' v' c m where
  used := (calm.used_iff c).mpr kept.used
  shape := (shape_eq_of_sameShape (sameShape_of_hidden (calm.layout c))).trans kept.shape
  unowned := forall_phase (P := fun q => q.owns ≠ some c) phase owns fun t' _ => kept.unowned t'
  slabs := fun b => (has b).trans (kept.slabs b)

/-- **A step of a growing or idle thread that changes no descriptor's layout and links no slab.** -/
theorem InvAt.calmly (inv : InvAt s v) (phase : s'.phase = Function.update s.phase t p)
    (made : s'.made = s.made) (calm : Calm s.hidden s'.hidden) (core : Core s'.hidden v')
    (has : ∀ a b, Has v' a b ↔ Has v a b)
    (descs : ∀ a ≠ c, firm (s'.kmem.desc a) = firm (s.kmem.desc a))
    (known : s.Growing c → s.hidden.Used c) (unowned : ∀ t', (s.phase t').owns ≠ some c)
    (spares : Spares s s' v v' t) (here : Place s' v' p) (old : (s.phase t).owns = none)
    (new : p.owns = none) (block : ∀ b, p.block = some b → ∀ t' ≠ t, (s.phase t').block ≠ some b) :
    InvAt s' v' := by
  have moves := Moves.of_calm calm core descs known (fun t' _ => unowned t') spares
  refine inv.moves moves phase (fun a _ => by rw [made]) (fun a _ => has a) here ?_ ?_ block ?_ ?_
  · intro a owned
    rw [old] at owned
    cases owned
  · intro a owned
    rw [new] at owned
    cases owned
  · intro used _
    rw [Calm.destroying_kmem calm]
    exact inv.idle c ((calm.used_iff c).mp used) unowned
  · intro m isMade
    rw [made] at isMade
    refine (inv.made c m isMade).calm calm phase ?_ (has c)
    rw [new]
    exact nofun

/-- **A step of a growing or idle thread that changes nothing of any descriptor but the error
code.** The descriptor may be another thread's to destroy. -/
theorem InvAt.aside (inv : InvAt s v) (phase : s'.phase = Function.update s.phase t p)
    (made : s'.made = s.made) (calm : Calm s.hidden s'.hidden) (core : Core s'.hidden v)
    (descs : ∀ a, firm (s'.kmem.desc a) = firm (s.kmem.desc a)) (spares : Spares s s' v v t)
    (here : Place s' v p) (old : (s.phase t).owns = none) (new : p.owns = none)
    (block : ∀ b, p.block = some b → ∀ t' ≠ t, (s.phase t').block ≠ some b) : InvAt s' v := by
  refine inv.calmly (c := 0) phase made calm core (fun _ _ => Iff.rfl)
    (fun a _ => descs a) ?_ inv.owns_ne_zero spares here old new block
  intro growing
  obtain ⟨i, lt, isSlot, _⟩ := growing.used
  exact absurd isSlot.symm (inv.core.pool.slot_bounds lt).1

/-- **A step that changes nothing of the allocator but error codes.** -/
theorem InvAt.still (inv : InvAt s v) (phase : s'.phase = Function.update s.phase t p)
    (made : s'.made = s.made) (transit : p.transit = (s.phase t).transit)
    (secret : p.secret = (s.phase t).secret) (quiet : Quiet s.kmem s'.kmem ∅)
    (descs : ∀ a, firm (s'.kmem.desc a) = firm (s.kmem.desc a))
    (here : Calm s.hidden s'.hidden → Place s' v p) (old : (s.phase t).owns = none)
    (new : p.owns = none) (block : ∀ b, p.block = some b → ∀ t' ≠ t, (s.phase t').block ≠ some b) :
    InvAt s' v := by
  have hiddenEq := hidden_keep phase transit secret
  have quiet' : Quiet s.hidden s'.hidden ∅ := by
    rw [hiddenEq]
    exact quiet.hide _ _
  have core : Core s'.hidden v := by
    refine inv.core.frame quiet' ?_ (fun _ inside => absurd inside (Set.notMem_empty _))
      fun _ _ _ _ _ inside => absurd inside (Set.notMem_empty _)
    intro c list
    have same : (s'.kmem.desc c).head list = (s.kmem.desc c).head list := by
      have heads := congrArg (fun d => d.head list) (descs c)
      cases list <;> exact heads
    rw [hiddenEq, hide_head, same]
    exact (hide_head c list).symm
  refine inv.aside phase made quiet'.calm core descs ⟨?_, ?_⟩ (here quiet'.calm) old new block
  · intro b order isLive _
    refine ⟨?_, fun x _ => quiet.mem x (Set.notMem_empty _)⟩
    rw [quiet'.live]
    exact isLive
  · intro t' _ b _ j _
    rw [quiet.blockMeta]

/-! ### Steps that change nothing but descriptors -/

/-- A step on descriptors. -/
theorem Moves.of_sameBuddy (core : Core s'.hidden v') (buddy : s'.kmem.toBuddy = s.kmem.toBuddy)
    (secret : s'.secret = s.secret) (place : SamePlace s.kmem s'.kmem)
    (used : ∀ a ≠ c, s'.hidden.Used a ↔ s.hidden.Used a)
    (desc : ∀ a ≠ c, body (s'.kmem.desc a) = body (s.kmem.desc a))
    (still : ∀ a ≠ c, ¬ s.hidden.Used a → firm (s'.kmem.desc a) = firm (s.kmem.desc a))
    (grown : ∀ t' ≠ t, (s.phase t').grows = some c → s.Growing c →
      s'.Growing c ∧ KmemCache.SameShape (s.kmem.desc c) (s'.kmem.desc c))
    (unowned : ∀ t' ≠ t, (s.phase t').owns ≠ some c) : Moves s s' v v' t c where
  core := core
  place := place
  used := used
  desc := desc
  still := still
  grown := grown
  unowned := unowned
  blocks := by
    intro b order isLive _
    have hidden : s'.hidden.toBuddy = s.hidden.toBuddy := by
      show s'.kmem.toBuddy.hideOwners s'.secret = s.kmem.toBuddy.hideOwners s.secret
      rw [buddy, secret]
    refine ⟨?_, fun x _ => by rw [buddy]⟩
    rw [mem_live_block, hidden]
    exact isLive
  owners := fun _ _ _ _ _ _ => by rw [buddy]

/-! ### Taking an object -/

theorem has_update {b' : Nat} {l l' : List Nat} (isSlab : v.slabs b = some ⟨c, l⟩)
    (slabs : v'.slabs = Function.update v.slabs b (some ⟨c, l'⟩)) : Has v' a b' ↔ Has v a b' := by
  unfold Has
  rw [slabs]
  by_cases eq : b' = b
  · subst eq
    rw [Function.update_self, isSlab]
    simp
  · rw [Function.update_of_ne eq]

/-- Taking an object of a slab on the partial list links no slab. -/
theorem takeObject_has {k : Kmem} (mid : Open k v b) (member : b ∈ v.lists c .partials)
    {l : List Nat} (isSlab : v.slabs b = some ⟨c, l⟩) (some_ : l ≠ []) :
    ∃ v', Core (k.takeObject c b).1 v' ∧ (∀ a b', Has v' a b' ↔ Has v a b') ∧
      Quiet k (k.takeObject c b).1 (headerArea k v.slabs) := by
  obtain ⟨x, l, rfl⟩ := List.exists_cons_of_ne_nil some_
  obtain ⟨k', v', call, core, _, slabs, quiet⟩ := mid.takeObject_spec member isSlab
  rw [call]
  exact ⟨v', core, fun a b' => has_update isSlab slabs, quiet⟩

/-- The first path of `kmem_cache_alloc`. -/
theorem takePartial_has {k : Kmem} (core : Core k v) (used : k.Used c)
    (nonempty : (k.desc c).head .partials ≠ 0) :
    ∃ v', Core (k.takeObject c ((k.desc c).head .partials)).1 v' ∧ (∀ a b, Has v' a b ↔ Has v a b) ∧
      Quiet k (k.takeObject c ((k.desc c).head .partials)).1 (headerArea k v.slabs) := by
  have member := core.lists.head_mem used .partials nonempty
  obtain ⟨l, isSlab⟩ := core.isSlab member
  have category := core.category c .partials _ l member isSlab
  exact takeObject_has (core.toOpen _) member isSlab (List.ne_nil_of_length_pos category.1)

/-- The second path of `kmem_cache_alloc`. -/
theorem takeEmpty_has {k : Kmem} (core : Core k v) (used : k.Used c)
    (nonempty : (k.desc c).head .empty ≠ 0) :
    ∃ v', Core (((k.slabListPopFront c .empty).1.slabListPushFront c .partials
        (k.slabListPopFront c .empty).2).takeObject c (k.slabListPopFront c .empty).2).1 v' ∧
      (∀ a b, Has v' a b ↔ Has v a b) ∧
      Quiet k (((k.slabListPopFront c .empty).1.slabListPushFront c .partials
        (k.slabListPopFront c .empty).2).takeObject c (k.slabListPopFront c .empty).2).1
        (headerArea k v.slabs) := by
  have member := core.lists.head_mem used .empty nonempty
  obtain ⟨l, isSlab⟩ := core.isSlab member
  have category : l.length = (k.desc c).objsPerSlab := core.category c .empty _ l member isSlab
  have positive := (core.slabs.geometry c used).objs_pos
  obtain ⟨rest, _, popped⟩ := core.lists.pop used nonempty
  obtain ⟨mid, quiet⟩ := (core.toOpen _).move member .partials
  obtain ⟨v', core', has, quiet'⟩ :=
    takeObject_has mid (Open.mem_moveLists ..) isSlab (List.ne_nil_of_length_pos (by omega))
  rw [popped]
  rw [quiet.headerArea] at quiet'
  exact ⟨v', core', has, (quiet.mono (core.toOpen 0).links_sub).trans quiet'⟩

theorem Quiet.blocks_kept (inv : InvAt s v)
    (quiet : Quiet s.hidden s'.hidden (headerArea s.hidden v.slabs)) (b order : Nat)
    (isLive : .block b order ∈ live s.hidden v.slabs) : .block b order ∈ live s'.hidden v'.slabs ∧
      ∀ x ∈ (Allocation.block b order).bytes, s'.kmem.mem x = s.kmem.mem x := by
  constructor
  · have same := quiet.live v.slabs
    rw [← same] at isLive
    exact isLive
  · intro x inside
    exact quiet.mem x fun inHeader => inv.not_spare isLive inside (Or.inl inHeader)

theorem owners_of_sameMeta (same : SameMeta s.kmem s'.kmem) (j : Nat) :
    (s'.kmem.blockMeta j).ownerSlab = (s.kmem.blockMeta j).ownerSlab := by
  rw [same]

/-- A call of `kmem_cache_alloc` that takes an object of a slab at hand. -/
theorem InvAt.taken (inv : InvAt s v) (idle : s.phase t = .idle) (used : s.hidden.Used c)
    (active : (s.kmem.desc c).destroying = false) {k' : Kmem}
    (core : Core (k'.hide s.transit s.secret) v') (has : ∀ a b, Has v' a b ↔ Has v a b)
    (quiet : Quiet s.hidden (k'.hide s.transit s.secret) (headerArea s.hidden v.slabs))
    (same : SameMeta s.kmem k') (descs : ∀ a ≠ c, k'.desc a = s.kmem.desc a) :
    InvAt (s.goto t (k', .idle)) v' := by
  have unowned := inv.unowned_of_active used active
  have hiddenEq : (s.goto t (k', .idle)).hidden = k'.hide s.transit s.secret :=
    hidden_keep (p := .idle) rfl (by rw [idle]) (by rw [idle])
  rw [← hiddenEq] at core quiet
  refine inv.calmly (p := .idle) rfl rfl quiet.calm core has
    (fun a ne => congrArg firm (descs a ne))
    (fun _ => used) unowned ⟨?_, ?_⟩ trivial (by rw [idle]; rfl) rfl nofun
  · exact fun b order isLive _ => Quiet.blocks_kept inv quiet b order isLive
  · intro t' _ b _ j _
    rw [owners_of_sameMeta same]

/-- **The first section of `kmem_cache_alloc`.** -/
theorem InvAt.alloc (inv : InvAt s v) (idle : s.phase t = .idle) (cache : s.Cache c) :
    ∃ v', InvAt (s.goto t (allocFirst s.kmem c)) v' := by
  have used := (s.hidden_used c).mpr cache
  unfold allocFirst
  by_cases marked : (s.kmem.desc c).destroying = true
  · rw [if_pos marked]
    exact ⟨v, inv.still (t := t) (p := .idle) rfl rfl (by rw [idle]) (by rw [idle]) (Quiet.refl _ _)
      (fun _ => rfl) (fun _ => trivial) (by rw [idle]; rfl) rfl nofun⟩
  rw [if_neg marked]
  have active := Bool.eq_false_iff.mpr marked
  by_cases noPartial : (s.kmem.desc c).partialSlabs = 0
  · rw [if_neg (not_not.mpr noPartial)]
    by_cases noEmpty : (s.kmem.desc c).emptySlabs = 0
    · rw [if_neg (not_not.mpr noEmpty)]
      refine ⟨v, inv.still (t := t) (p := .growRead c) rfl rfl ?_ ?_ (Quiet.refl _ _)
        (fun _ => rfl) ?_ ?_
        rfl nofun⟩
      · rw [idle]
        rfl
      · rw [idle]
        rfl
      · exact fun calm => ⟨cache.1, inv.geometry used, fun _ => (calm.used_iff c).mpr used⟩
      · rw [idle]
        rfl
    · rw [if_pos noEmpty]
      have nonempty : (s.hidden.desc c).head .empty ≠ 0 := by
        rw [State.hidden, hide_head]
        exact noEmpty
      obtain ⟨v', core, has, quiet⟩ := takeEmpty_has inv.core used nonempty
      have descs :=
        fun a ne => slabListPopFront_desc_of_ne (k := s.kmem) (a := a) (c := c) ne .empty
      have same := slabListPopFront_sameMeta s.kmem c .empty
      rw [State.hidden, hide_slabListPopFront] at core quiet
      rcases popped : s.kmem.slabListPopFront c .empty with ⟨k₁, b⟩
      rw [popped] at core quiet descs same
      rw [hide_slabListPushFront, hide_takeObject] at core quiet
      refine ⟨v', inv.taken idle used active core has quiet ?_ ?_⟩
      · exact (same.trans (slabListPushFront_sameMeta _ _ _ _)).trans (takeObject_sameMeta _ _ _)
      · intro a ne
        rw [takeObject_desc_of_ne ne, slabListPushFront_desc_of_ne ne]
        exact descs a ne
  · rw [if_pos noPartial]
    have head : (s.hidden.desc c).head .partials = (s.kmem.desc c).partialSlabs :=
      hide_head c .partials
    obtain ⟨v', core, has, quiet⟩ := takePartial_has inv.core used (by rw [head]; exact noPartial)
    rw [head, State.hidden, hide_takeObject] at core quiet
    exact ⟨v', inv.taken idle used active core has quiet (takeObject_sameMeta _ _ _)
      fun a ne => takeObject_desc_of_ne ne _⟩

/-! ### The growth path -/

/-- `slab_order` is read. -/
theorem InvAt.readOrder (inv : InvAt s v) (isPhase : s.phase t = .growRead c)
    (kmem : s'.kmem = s.kmem)
    (phase : s'.phase = Function.update s.phase t (.growBlock c (s.kmem.desc c).slabOrder))
    (made : s'.made = s.made) : InvAt s' v := by
  have growing := inv.places t
  rw [isPhase] at growing
  refine inv.still phase made ?_ ?_ ?_ (fun _ => by rw [kmem]) (fun calm => ⟨?_, ?_⟩) ?_ rfl nofun
  · rw [isPhase]
    rfl
  · rw [isPhase]
    rfl
  · rw [kmem]
    exact Quiet.refl _ _
  · exact State.Growing.calm growing calm (by rw [kmem])
  · rw [kmem]
  · rw [isPhase]
    rfl

theorem buddyAlloc_ok {k k' : Kmem} {pages base : Nat} (run : k.buddyAlloc pages = .ok (k', base)) :
    ∃ b, k.toBuddy.buddyAlloc pages = .ok (b, base) ∧ k' = k.setBuddy b := by
  unfold Kmem.buddyAlloc at run
  obtain ⟨⟨b, p⟩, call, rest⟩ := bind_eq_ok run
  obtain ⟨rfl, rfl⟩ := Prod.mk.inj (Except.ok.inj rest)
  exact ⟨b, call, rfl⟩

theorem hide_buddyAlloc {k k' : Kmem} {pages base : Nat} (run : k.buddyAlloc pages = .ok (k', base))
    (transit secret : Set Nat) :
    (k.hide transit secret).buddyAlloc pages = .ok (k'.hide transit secret, base) := by
  obtain ⟨b, call, rfl⟩ := buddyAlloc_ok run
  have hidden :
      (k.hide transit secret).toBuddy.buddyAlloc pages = .ok (b.hideOwners secret, base) :=
    Buddy.hideOwners_buddyAlloc call
  unfold Kmem.buddyAlloc
  rw [hidden]
  rfl

/-- `buddy_alloc` for a new slab. -/
theorem InvAt.takeBlock (inv : InvAt s v) {order base : Nat}
    (isPhase : s.phase t = .growBlock c order)
    (run : s.kmem.buddyAlloc (2 ^ order) = .ok (s'.kmem, base))
    (phase :
      s'.phase = Function.update s.phase t (if base = 0 then .growFailed c else .growInit c base))
    (made : s'.made = s.made) : InvAt s' v := by
  have place := inv.places t
  rw [isPhase] at place
  obtain ⟨growing, isOrder⟩ := place
  have hiddenEq : s'.hidden = s'.kmem.hide s.transit s.secret := by
    refine hidden_keep phase ?_ ?_ <;> rw [isPhase] <;> split_ifs <;> rfl
  have hiddenRun := hide_buddyAlloc run s.transit s.secret
  rw [← hiddenEq] at hiddenRun
  obtain ⟨b, call, isNew⟩ := buddyAlloc_ok run
  have same := Buddy.buddyAlloc_sameRegion call
  have orderLe : order ≤ maxOrder := by
    rw [isOrder]
    exact growing.geometry.slabOrder_le.trans (by decide)
  have descs : ∀ a, s'.kmem.desc a = s.kmem.desc a := fun a => by rw [isNew]; rfl
  have owners : ∀ j, (s'.kmem.blockMeta j).ownerSlab = (s.kmem.blockMeta j).ownerSlab := by
    intro j
    rw [isNew]
    exact same.owner j
  rcases inv.core.buddyAlloc_spec (Nat.two_pow_pos order).ne'
    (Buddy.orderForPages_two_pow orderLe) with
    none | ⟨w, base', found, nonzero, gains⟩
  · -- no block: the hidden state is as before
    have result := Except.ok.inj (hiddenRun.symm.trans none)
    obtain ⟨hiddenSame, rfl⟩ := Prod.mk.inj result
    rw [if_pos rfl] at phase
    have calm : Calm s.hidden s'.hidden := by
      rw [hiddenSame]
      exact Calm.refl _
    refine inv.aside phase made calm (by rw [hiddenSame]; exact inv.core)
      (fun a => congrArg firm (descs a))
      ⟨?_, fun t' _ b' _ j _ => by rw [owners]⟩ (growing.calm calm (congrArg firm (descs c)))
      (by rw [isPhase]; rfl) rfl nofun
    intro b' o isLive _
    rw [hiddenSame]
    refine ⟨isLive, ?_⟩
    have memSame : s'.hidden.mem = s.hidden.mem := by rw [hiddenSame]
    exact fun x _ => congrFun memSame x
  · have result := Except.ok.inj (hiddenRun.symm.trans found)
    obtain ⟨rfl, rfl⟩ := Prod.mk.inj result
    rw [if_neg nonzero] at phase
    have isPrivate : s'.Private v c base := by
      unfold State.Private
      rw [descs, ← isOrder, gains.live]
      exact Set.mem_insert _ _
    refine inv.aside phase made gains.calm gains.core (fun a => congrArg firm (descs a))
      ⟨?_, fun t' _ b' _ j _ => by rw [owners]⟩ ⟨growing.calm gains.calm (congrArg firm (descs c)),
        isPrivate⟩
      (by rw [isPhase]; rfl) rfl ?_
    · intro b' o isLive _
      refine ⟨?_, fun x inside => gains.mem x (inv.not_spare isLive inside)⟩
      rw [gains.live]
      exact Set.mem_insert_of_mem _ isLive
    · -- another private block is live already, this one was not
      intro b' isBlock t' _ theirs
      obtain rfl := Option.some.inj isBlock
      obtain ⟨o, isLive⟩ := inv.private_of_block theirs
      have both : .block base o ∈ live s'.hidden v.slabs := by
        rw [gains.live]
        exact Set.mem_insert_of_mem _ isLive
      have new : .block base order ∈ live s'.hidden v.slabs := by
        rw [gains.live]
        exact Set.mem_insert _ _
      rw [gains.core.slabs.live_block_order both new] at isLive
      exact gains.fresh isLive

/-- An error code is written, and the thread returns. -/
theorem InvAt.setError (inv : InvAt s v) {error : KmemError} (transit : (s.phase t).transit = none)
    (secret : (s.phase t).secret = none) (owns : (s.phase t).owns = none)
    (kmem : s'.kmem = s.kmem.modifyDesc c fun d => { d with errorCode := error })
    (phase : s'.phase = Function.update s.phase t .idle) (made : s'.made = s.made) :
    InvAt s' v := by
  refine inv.still phase made transit.symm secret.symm ?_ ?_ (fun _ => trivial) owns rfl nofun
  · rw [kmem]
    exact s.kmem.modifyDesc_quiet c ∅ fun _ => rfl
  · intro a
    rw [kmem]
    by_cases eq : a = c
    · subst eq
      rw [modifyDesc_self]
      rfl
    · rw [modifyDesc_of_ne _ _ eq]

/-- **A thread writes into the block that only it knows.** -/
theorem InvAt.write (inv : InvAt s v) {mem : Mem} (block : (s.phase t).block = some b)
    (growing : s.Growing c) (isPrivate : s.Private v c b)
    (outside : SameOutside (Allocation.block b (s.kmem.desc c).slabOrder).bytes s.kmem.mem mem)
    (kmem : s'.kmem = s.kmem.setMem mem) (phase : s'.phase = Function.update s.phase t p)
    (made : s'.made = s.made) (transit : p.transit = (s.phase t).transit)
    (secret : p.secret = (s.phase t).secret) (owns : (s.phase t).owns = none)
    (owns' : p.owns = none) (block' : p.block = some b)
    (here : s'.Growing c → s'.Private v c b → (s.Owners c b → s'.Owners c b) → Place s' v p) :
    InvAt s' v := by
  have hiddenEq : s'.hidden = s.hidden.setMem mem := by
    rw [hidden_keep phase transit secret, kmem]
    rfl
  have quiet : Quiet s.hidden s'.hidden (Allocation.block b (s.kmem.desc c).slabOrder).bytes := by
    rw [hiddenEq]
    exact s.hidden.setMem_quiet outside
  have descs : ∀ a, s'.kmem.desc a = s.kmem.desc a := fun a => by rw [kmem]; rfl
  have metas : s'.kmem.blockMeta = s.kmem.blockMeta := by rw [kmem]; rfl
  have core : Core s'.hidden v := by
    refine inv.core.frame quiet ?_ (fun x inside => inv.core.slabs.live_not_free isPrivate inside)
      ?_
    · intro e list
      rw [hiddenEq]
      rfl
    · exact fun z e l isSlab x inside => inv.core.slabs.live_not_header isPrivate isSlab inside
  have kept : ∀ b' order, .block b' order ∈ live s.hidden v.slabs →
      .block b' order ∈ live s'.hidden v.slabs := by
    intro b' order isLive
    rw [quiet.live]
    exact isLive
  refine inv.aside phase made quiet.calm core (fun a => congrArg firm (descs a)) ⟨?_, ?_⟩
    (here (growing.calm quiet.calm (congrArg firm (descs c))) ?_ ?_) owns owns'
    (inv.keepsBlock block block')
  · intro b' order isLive other
    have ne : b' ≠ b := fun eq => other (eq ▸ block)
    exact ⟨kept b' order isLive, fun x inside => quiet.mem x
      (inv.blocks_apart isLive isPrivate ne inside)⟩
  · intro t' _ b' _ j _
    rw [metas]
  · unfold State.Private
    rw [descs]
    exact kept b _ isPrivate
  · intro isOwner
    obtain ⟨i, address, isOwner⟩ := isOwner
    refine ⟨i, by rw [kmem]; exact address, ?_⟩
    intro j lt
    rw [metas, descs]
    refine isOwner j ?_
    rw [kmem] at lt
    exact lt

/-- A private block ends inside the address space. -/
theorem InvAt.block_small (inv : InvAt s v) (isPrivate : s.Private v c b) :
    b + (s.kmem.desc c).slabBytes ≤ 2 ^ 64 := by
  obtain ⟨i, inAlloc, _, rfl⟩ := isPrivate
  have inside := inv.core.slabs.pool.tiling.inside _ (Or.inr inAlloc)
  have region := inv.core.slabs.rep.region.fits
  unfold KmemCache.slabBytes Buddy.page
  simp only at inside
  omega

/-- The header of the new slab is written. -/
theorem InvAt.writeHeader (inv : InvAt s v) (isPhase : s.phase t = .growInit c b)
    (kmem : s'.kmem = s.kmem.setMem (initHeader s.kmem.mem c (s.kmem.desc c).objsPerSlab b))
    (phase : s'.phase = Function.update s.phase t (.growPublish c b)) (made : s'.made = s.made) :
    InvAt s' v := by
  have place := inv.places t
  rw [isPhase] at place
  obtain ⟨growing, isPrivate⟩ := place
  have geometry := growing.geometry
  have cSmall : c < 2 ^ 64 := by
    obtain ⟨i, lt, isSlot, _⟩ := growing.used
    exact isSlot ▸ (inv.core.pool.slot_bounds lt).2
  obtain ⟨header, same⟩ :=
    initHeader_spec s.kmem.mem (s := b) cSmall geometry.objs_pos geometry.objs_lt
  have room := geometry.header_lt
  refine inv.write (t := t) (by rw [isPhase]; rfl) growing isPrivate (same.mono ?_) kmem phase
    made (by rw [isPhase]; rfl) (by rw [isPhase]; rfl) (by rw [isPhase]; rfl) rfl rfl ?_
  · intro x inside
    refine ⟨inside.1, lt_of_lt_of_le inside.2 ?_⟩
    unfold KmemCache.slabBytes at room
    simp only [Allocation.base, Allocation.size]
    omega
  · intro growing' isPrivate' _
    refine ⟨growing', isPrivate', ?_⟩
    unfold State.Fresh
    rw [kmem]
    exact header

/-- The constructors run. -/
theorem InvAt.construct (inv : InvAt s v) {head : Int}
    (isPhase : s.phase t = .growConstruct c b head)
    (kmem : s'.kmem = match (s.kmem.desc c).ctor with
      | some ctor => s.kmem.setMem (runCtors (s.kmem.desc c) ctor s.kmem.mem b
          ((s.kmem.desc c).objsPerSlab % 2 ^ 16))
      | none => s.kmem)
    (phase : s'.phase = Function.update s.phase t (.growAttach c b head))
    (made : s'.made = s.made) :
    InvAt s' v := by
  have place := inv.places t
  rw [isPhase] at place
  obtain ⟨growing, isPrivate, isOwner, isHead, isFresh⟩ := place
  have geometry := growing.geometry
  have written : ∃ mem, s'.kmem = s.kmem.setMem mem ∧
      SameOutside (Set.Ico (b + 32 + 2 * (s.kmem.desc c).objsPerSlab)
        (b + (s.kmem.desc c).slabBytes)) s.kmem.mem mem := by
    cases isCtor : (s.kmem.desc c).ctor with
    | none =>
      rw [isCtor] at kmem
      exact ⟨s.kmem.mem, kmem, SameOutside.refl _ _⟩
    | some ctor =>
      rw [isCtor] at kmem
      exact ⟨_, kmem, runCtors_sameOutside geometry isCtor (inv.block_small isPrivate) _ _
        (Nat.mod_le _ _)⟩
  obtain ⟨mem, isMem, same⟩ := written
  refine inv.write (t := t) (by rw [isPhase]; rfl) growing isPrivate (same.mono ?_) isMem phase
    made (by rw [isPhase]; rfl) (by rw [isPhase]; rfl) (by rw [isPhase]; rfl) rfl rfl ?_
  · intro x inside
    exact ⟨le_trans (by simp only [Allocation.base]; omega) inside.1, inside.2⟩
  · intro growing' isPrivate' owners
    refine ⟨growing', isPrivate', owners isOwner, by rw [isMem]; exact isHead, ?_⟩
    unfold State.Fresh
    rw [isMem]
    refine isFresh.frame same ?_
    intro x inside inInfo
    have low := inside.1
    rcases inInfo with ⟨_, high⟩ | ⟨_, high⟩
    · omega
    · have high' : x < b + 32 + 2 * (s.kmem.desc c).objsPerSlab := high
      omega

theorem page_mem_block {k : Kmem} {i j order : Nat} (address : b = k.page i) (low : i ≤ j)
    (high : j < i + 2 ^ order) : k.page j ∈ (Allocation.block b order).bytes := by
  subst address
  simp only [Allocation.bytes, Allocation.base, Allocation.size, Buddy.page]
  exact ⟨by omega, by omega⟩

/-- The page of a slab that is a secret of another thread lies in its block. -/
theorem InvAt.secret_owner (inv : InvAt s v) (isSecret : (s.phase t).secret = some b) {j : Nat}
    (lt : j < s.kmem.num) (owner : (s.kmem.blockMeta j).ownerSlab = b) :
    ∃ order, .block b order ∈ live s.hidden v.slabs ∧
      s.kmem.page j ∈ (Allocation.block b order).bytes := by
  have place := inv.places t
  have known : ∀ e, s.Private v e b → s.Owners e b →
      ∃ order, .block b order ∈ live s.hidden v.slabs ∧
      s.kmem.page j ∈ (Allocation.block b order).bytes := by
    intro e isPrivate isOwner
    obtain ⟨i, address, range⟩ := isOwner
    obtain ⟨low, high⟩ := (range j lt).mp owner
    exact ⟨_, isPrivate, page_mem_block address low high⟩
  cases isPhase : s.phase t <;> rw [isPhase] at isSecret place <;> simp only [Phase.secret,
    Option.some.injEq, reduceCtorEq] at isSecret <;> subst isSecret
  · exact known _ place.2.1 place.2.2.1
  · exact known _ place.2.1 place.2.2.1
  · exact known _ place.2.1 place.2.2.1
  · exact known _ place.2.1 place.2.2

/-- A private block is no slab, and no page outside it is owned by it as long as it is no secret. -/
theorem InvAt.private_spec (inv : InvAt s v) {order : Nat}
    (isLive : .block b order ∈ live s.hidden v.slabs) :
    ∃ i, b = s.kmem.page i ∧ ⟨i, order⟩ ∈ s.hidden.allocBlocks ∧
      (s.hidden.blockMeta i).ownerSlab = 0 ∧
      i + 2 ^ order ≤ s.kmem.num ∧ s.kmem.addrToIndex b = i ∧ v.slabs b = none := by
  obtain ⟨i, inAlloc, unowned, address⟩ := isLive
  have inside : i + 2 ^ order ≤ s.hidden.num := inv.core.slabs.pool.tiling.inside _ (Or.inr inAlloc)
  have index : s.hidden.addrToIndex (s.hidden.page i) = i :=
    Buddy.addrToIndex_page inv.core.slabs.rep.region (inv.core.slabs.pool.index_lt_of_taken inAlloc)
  refine ⟨i, address, inAlloc, unowned, inside, ?_, ?_⟩
  · rw [address]
    exact index
  · rw [address]
    exact inv.core.slabs.notSlab_fresh (c := ⟨i, order⟩) inAlloc unowned

/-- No page is owned by a private block that is no secret. -/
theorem InvAt.unpublished (inv : InvAt s v) (block : (s.phase t).block = some b)
    (open' : (s.phase t).secret = none) {order j : Nat}
    (isLive : .block b order ∈ live s.hidden v.slabs) (lt : j < s.kmem.num) :
    (s.kmem.blockMeta j).ownerSlab ≠ b := by
  intro owner
  obtain ⟨_, _, _, _, _, _, notSlab⟩ := inv.private_spec isLive
  -- the owner would show in the hidden state, which knows no such slab
  have same : s.hidden.blockMeta j = s.kmem.blockMeta j :=
    Buddy.hideOwners_owner (owner ▸ inv.not_secret block open')
  have hidden : (s.hidden.blockMeta j).ownerSlab = b := by
    rw [same]
    exact owner
  obtain ⟨w, isSlab, _⟩ :=
    (inv.core.slabs.owner j lt b (inv.block_ne_zero block)).mp hidden
  rw [notSlab] at isSlab
  cases isSlab

/-- Writing the owners of the pages of a private block leaves the secrets of others alone. -/
theorem InvAt.owners_spared (inv : InvAt s v) (block : (s.phase t).block = some b)
    {i order owner : Nat} (isLive : .block b order ∈ live s.hidden v.slabs)
    (address : b = s.kmem.page i)
    (kmem : s'.kmem = s.kmem.setBuddy (s.kmem.toBuddy.withOwner i (2 ^ order) owner)) {b' : Nat}
    (other : t' ≠ t) (isSecret : (s.phase t').secret = some b') (ne : owner ≠ b') (j : Nat)
    (lt : j < s.kmem.num) :
    (s'.kmem.blockMeta j).ownerSlab = b' ↔ (s.kmem.blockMeta j).ownerSlab = b' := by
  rw [kmem]
  show ((s.kmem.toBuddy.withOwner i (2 ^ order) owner).blockMeta j).ownerSlab = b' ↔ _
  rw [Buddy.withOwner_ownerSlab]
  by_cases range : i ≤ j ∧ j < i + 2 ^ order
  · rw [if_pos range]
    refine iff_of_false ne fun isOwner => ?_
    obtain ⟨order', isLive', inside⟩ := inv.secret_owner isSecret lt isOwner
    have apart : b ≠ b' := fun eq =>
      inv.block_of_block block t' other (eq ▸ Phase.block_of_secret isSecret)
    exact inv.blocks_apart isLive isLive' apart (page_mem_block address range.1 range.2) inside
  · rw [if_neg range]

/-- The owners of the pages of a new slab are published. -/
theorem InvAt.publish (inv : InvAt s v) {B : Buddy} (isPhase : s.phase t = .growPublish c b)
    (run : s.kmem.toBuddy.setOwners (s.kmem.addrToIndex b) b (2 ^ (s.kmem.desc c).slabOrder) =
      .ok B)
    (kmem : s'.kmem = s.kmem.setBuddy B)
    (phase : s'.phase = Function.update s.phase t (.growConstruct c b (s.kmem.addrToIndex b)))
    (made : s'.made = s.made) : InvAt s' v := by
  have block : (s.phase t).block = some b := by rw [isPhase]; rfl
  have open' : (s.phase t).secret = none := by rw [isPhase]; rfl
  have place := inv.places t
  rw [isPhase] at place
  obtain ⟨growing, isPrivate, isFresh⟩ := place
  obtain ⟨i, address, inAlloc, unowned, fits, index, _⟩ := inv.private_spec isPrivate
  have written : B = s.kmem.toBuddy.withOwner i (2 ^ (s.kmem.desc c).slabOrder) b := by
    rw [index, Buddy.setOwners_ok _ _ _ _ fits] at run
    exact (Except.ok.inj run).symm
  subst written
  have fresh := fun j lt => inv.unpublished block open' (j := j) isPrivate lt
  have hiddenEq : s'.hidden = s.hidden := by
    have owners : (s.kmem.toBuddy.withOwner i (2 ^ (s.kmem.desc c).slabOrder) b).hideOwners
        (insert b s.secret) = s.kmem.toBuddy.hideOwners s.secret := by
      refine Buddy.hideOwners_publish fits ?_ fun j lt _ => fresh j lt
      intro j low high
      exact inv.core.slabs.owner_of_notSlab inAlloc unowned ⟨low, high⟩
    unfold State.hidden
    rw [secret_enter phase rfl open', transit_keep phase (by rw [isPhase]; rfl), kmem,
      hide_setBuddy, owners]
    rfl
  have calm : Calm s.hidden s'.hidden := by
    rw [hiddenEq]
    exact Calm.refl _
  have mem : s'.kmem.mem = s.kmem.mem := by rw [kmem]; rfl
  have descs : ∀ a, s'.kmem.desc a = s.kmem.desc a := fun a => by rw [kmem]; rfl
  refine inv.aside phase made calm (by rw [hiddenEq]; exact inv.core)
    (fun a => congrArg firm (descs a)) ⟨?_, ?_⟩
    ⟨growing.calm calm (congrArg firm (descs c)), ?_, ?_, by rw [kmem]; rfl, ?_⟩
    (by rw [isPhase]; rfl) rfl (inv.keepsBlock block rfl)
  · intro b' order isLive _
    rw [hiddenEq, mem]
    exact ⟨isLive, fun _ _ => rfl⟩
  · intro t' other b' isSecret
    refine inv.owners_spared block isPrivate address kmem other isSecret ?_
    rintro rfl
    exact inv.not_secret block open' ⟨t', isSecret⟩
  · unfold State.Private
    rw [hiddenEq, descs]
    exact isPrivate
  · refine ⟨i, by rw [kmem]; exact address, ?_⟩
    intro j lt
    rw [kmem] at lt
    rw [descs, kmem]
    show ((s.kmem.toBuddy.withOwner _ _ _).blockMeta j).ownerSlab = b ↔ _
    rw [Buddy.withOwner_ownerSlab]
    by_cases range : i ≤ j ∧ j < i + 2 ^ (s.kmem.desc c).slabOrder
    · rw [if_pos range]
      exact iff_of_true rfl range
    · rw [if_neg range]
      exact iff_of_false (fresh j lt) range
  · unfold State.Fresh
    rw [descs, mem]
    exact isFresh

/-- **A block with a header becomes a slab on no list.** -/
theorem adopt {k : Kmem} (core : Core k v) (used : k.Used c) {i : Nat} {l : List Nat}
    (inAlloc : ⟨i, (k.desc c).slabOrder⟩ ∈ k.allocBlocks) (unowned : (k.blockMeta i).ownerSlab = 0)
    (header : Header k.mem (k.page i) ⟨c, l⟩ (k.desc c).objsPerSlab) :
    Loose (k.setBuddy (k.toBuddy.withOwner i (2 ^ (k.desc c).slabOrder) (k.page i)))
      { v with slabs := Function.update v.slabs (k.page i) (some ⟨c, l⟩) } (k.page i) := by
  have absent := core.slabs.notSlab_fresh (c := ⟨i, (k.desc c).slabOrder⟩) inAlloc unowned
  have unlisted : ∀ c' list, k.page i ∉ v.lists c' list := by
    intro c' list member
    obtain ⟨l', old⟩ := core.isSlab member
    rw [absent] at old
    cases old
  refine ⟨?_, ?_, core.pool.setBuddy _, unlisted, ?_, ?_⟩
  · exact core.lists.frame (SameOutside.refl ∅ _) (fun _ => Iff.rfl) (fun _ _ => rfl)
      fun _ inside => absurd inside (Set.notMem_empty _)
  · exact core.slabs.addSlab used inAlloc unowned (SameOutside.refl _ _) header
  · intro z c' other
    simp only [Function.update_of_ne other]
    exact core.listed z c'
  · intro c' list z l' inList isSlab
    have other : z ≠ k.page i := fun eq => unlisted c' list (eq ▸ inList)
    simp only [Function.update_of_ne other] at isSlab
    exact core.category c' list z l' inList isSlab

/-- The header of a block that becomes a slab lies in it. -/
theorem headerArea_adopt {k : Kmem} (geometry : (k.desc c).Geometry) (i : Nat) (l : List Nat) :
    headerArea k (Function.update v.slabs (k.page i) (some ⟨c, l⟩)) ⊆
      headerArea k v.slabs ∪ (Allocation.block (k.page i) (k.desc c).slabOrder).bytes := by
  rintro x ⟨z, e, l', isSlab, low, high⟩
  by_cases eq : z = k.page i
  · subst eq
    rw [Function.update_self, Option.some.injEq, SlabView.mk.injEq] at isSlab
    obtain ⟨rfl, _⟩ := isSlab
    have room := geometry.header_lt
    have high' : x < k.page i + 32 + 2 * (k.desc c).objsPerSlab := high
    refine Or.inr ⟨low, ?_⟩
    unfold KmemCache.slabBytes at room
    simp only [Allocation.base, Allocation.size]
    omega
  · rw [Function.update_of_ne eq] at isSlab
    exact Or.inl ⟨z, e, l', isSlab, low, high⟩

/-- The cache has one slab more. -/
theorem has_adopt {z : Nat} {l : List Nat} (absent : v.slabs z = none) (a b : Nat) :
    Has { v with slabs := Function.update v.slabs z (some ⟨c, l⟩) } a b ↔
      Has v a b ∨ (a = c ∧ b = z) := by
  unfold Has
  by_cases eq : b = z
  · subst eq
    simp only [Function.update_self, absent, Option.some.injEq, SlabView.mk.injEq, reduceCtorEq,
      exists_false, false_or, and_true]
    constructor
    · rintro ⟨_, same, _⟩
      exact same.symm
    · exact fun same => ⟨_, same.symm, rfl⟩
  · simp only [Function.update_of_ne eq, eq, and_false, or_false]

/-- A new slab is put on the partial list and an object of it is taken. -/
theorem attach_spec {k : Kmem} (core : Core k v) (used : k.Used c) {i : Nat}
    (inAlloc : ⟨i, (k.desc c).slabOrder⟩ ∈ k.allocBlocks) (unowned : (k.blockMeta i).ownerSlab = 0)
    (header : Header k.mem (k.page i) ⟨c, List.range' 0 (k.desc c).objsPerSlab⟩
      (k.desc c).objsPerSlab)
    {k' : Kmem} (isNew : k' = (((k.setBuddy (k.toBuddy.withOwner i (2 ^ (k.desc c).slabOrder)
      (k.page i))).slabListPushFront c .partials (k.page i)).takeObject c (k.page i)).1) :
    ∃ v', Core k' v' ∧ Calm k k' ∧
      (∀ a b, Has v' a b ↔ Has v a b ∨ (a = c ∧ b = k.page i)) ∧
      (∀ b order, b ≠ k.page i → .block b order ∈ live k v.slabs →
        .block b order ∈ live k' v'.slabs) ∧
      SameOutside (headerArea k v.slabs ∪ (Allocation.block (k.page i) (k.desc c).slabOrder).bytes)
        k.mem k'.mem := by
  have absent := core.slabs.notSlab_fresh (c := ⟨i, (k.desc c).slabOrder⟩) inAlloc unowned
  have loose := adopt core used inAlloc unowned header
  have geometry := core.slabs.geometry c used
  have calm : Calm k (k.setBuddy (k.toBuddy.withOwner i (2 ^ (k.desc c).slabOrder) (k.page i))) :=
    ⟨rfl, rfl, fun _ => rfl, rfl⟩
  have isSlab : Function.update v.slabs (k.page i) (some ⟨c, List.range' 0 (k.desc c).objsPerSlab⟩)
      (k.page i) = some ⟨c, List.range' 0 (k.desc c).objsPerSlab⟩ := Function.update_self ..
  obtain ⟨mid, quiet⟩ := loose.push isSlab .partials
  have onList : k.page i ∈
      setList v.lists c .partials (k.page i :: v.lists c .partials) c .partials := by
    rw [setList_self]
    exact List.mem_cons_self
  have some_ : List.range' 0 (k.desc c).objsPerSlab ≠ [] := by
    have positive := geometry.objs_pos
    intro nil
    have length := congrArg List.length nil
    rw [List.length_range', List.length_nil] at length
    omega
  obtain ⟨v', core', has, quiet'⟩ := takeObject_has mid onList isSlab some_
  rw [← isNew] at core' quiet'
  have headers := headerArea_adopt (v := v) geometry i (List.range' 0 (k.desc c).objsPerSlab)
  refine ⟨v', core', (calm.trans quiet.calm).trans quiet'.calm,
    fun a b => (has a b).trans (has_adopt absent a b), ?_, ?_⟩
  · intro b order ne isLive
    have all : ∀ x < (k.desc c).objsPerSlab, x ∈ List.range' 0 (k.desc c).objsPerSlab :=
      fun x lt => List.mem_range'_1.mpr ⟨Nat.zero_le _, by omega⟩
    have gone := live_addSlab k.mem (core.slabs.rep.region.page_pos.ne') all absent rfl inAlloc
      core.slabs.pool
    have still : .block b order ∈ live (k.setBuddy (k.toBuddy.withOwner i (2 ^ (k.desc c).slabOrder)
        (k.page i))) v'.slabs := by
      have member : .block b order ∈ live k v.slabs \ {.block (k.page i) (k.desc c).slabOrder} :=
        ⟨isLive, fun eq => ne (Allocation.block.inj eq).1⟩
      rw [← gone] at member
      exact member
    rw [quiet'.live, quiet.live]
    exact still
  · refine (quiet.mem.mono ((loose.links_sub isSlab).trans headers)).trans (quiet'.mem.mono ?_)
    rw [quiet.headerArea]
    exact headers

/-- **A new slab becomes a slab of the cache.** -/
theorem InvAt.attach (inv : InvAt s v) {head : Int} (isPhase : s.phase t = .growAttach c b head)
    (active : (s.kmem.desc c).destroying = false)
    (kmem : s'.kmem = ((s.kmem.slabListPushFront c .partials b).takeObject c b).1)
    (phase : s'.phase = Function.update s.phase t .idle)
    (made : s'.made = Function.update s.made c
      ((s.made c).map fun m => { m with slabs := b :: m.slabs })) : ∃ v', InvAt s' v' := by
  have block : (s.phase t).block = some b := by rw [isPhase]; rfl
  have place := inv.places t
  rw [isPhase] at place
  obtain ⟨growing, isPrivate, ⟨i', address', isOwner⟩, _, isFresh⟩ := place
  have used := growing.listed active
  obtain ⟨i, address, inAlloc, unowned, fits, _, notSlab⟩ := inv.private_spec isPrivate
  have index : i' = i := Buddy.page_injective _ (address'.symm.trans address)
  subst index
  have revealed : s.kmem.hide s.transit (s.secret \ {b}) =
      s.hidden.setBuddy (s.hidden.toBuddy.withOwner i' (2 ^ (s.kmem.desc c).slabOrder) b) :=
    hide_withOwner (Buddy.hideOwners_reveal fits isOwner)
  have order : (s.hidden.desc c).slabOrder = (s.kmem.desc c).slabOrder := hide_slabOrder c
  have objs : (s.hidden.desc c).objsPerSlab = (s.kmem.desc c).objsPerSlab := hide_objsPerSlab c
  have page : s.hidden.page i' = b := address.symm
  have isNew : s'.hidden = (((s.hidden.setBuddy (s.hidden.toBuddy.withOwner i'
      (2 ^ (s.hidden.desc c).slabOrder) (s.hidden.page i'))).slabListPushFront c .partials
        (s.hidden.page i')).takeObject c (s.hidden.page i')).1 := by
    rw [order, page, ← revealed, hide_slabListPushFront, hide_takeObject, ← kmem]
    unfold State.hidden
    rw [inv.secret_leave phase (by rw [isPhase]; rfl) rfl,
      transit_keep phase (by rw [isPhase]; rfl)]
  obtain ⟨v', core, calm, has, blocks, mem⟩ := attach_spec inv.core used
    (by rw [order]; exact inAlloc) unowned (by rw [objs, page]; exact isFresh) isNew
  rw [page] at has blocks mem
  rw [order] at mem
  have notOwned := inv.unowned_of_active used active
  have moves : Moves s s' v v' t c := by
    refine Moves.of_calm calm core ?_ (fun _ => used) (fun t' _ => notOwned t') ⟨?_, ?_⟩
    · intro a ne
      rw [kmem, takeObject_desc_of_ne ne, slabListPushFront_desc_of_ne ne]
    · intro b' o isLive other
      have ne : b' ≠ b := fun eq => other (eq ▸ block)
      refine ⟨blocks b' o ne isLive, ?_⟩
      intro x inside
      refine mem x ?_
      rintro (inHeader | inBlock)
      · exact inv.not_spare isLive inside (Or.inl inHeader)
      · exact inv.blocks_apart isLive isPrivate ne inside inBlock
    · intro t' _ b' _ j _
      have same : SameMeta s.kmem s'.kmem := by
        rw [kmem]
        exact (slabListPushFront_sameMeta _ _ _ _).trans (takeObject_sameMeta _ _ _)
      rw [owners_of_sameMeta same]
  refine ⟨v', inv.moves moves phase ?_ ?_ trivial ?_ nofun nofun ?_ ?_⟩
  · intro a ne
    rw [made, Function.update_of_ne ne]
  · intro a ne b'
    rw [has]
    exact or_iff_left fun both => ne both.1
  · intro a owned
    rw [isPhase] at owned
    cases owned
  · intro used' _
    rw [Calm.destroying_kmem calm]
    exact inv.idle c used notOwned
  · intro m isMade
    rw [made, Function.update_self] at isMade
    obtain ⟨m₀, before, rfl⟩ := Option.map_eq_some_iff.mp isMade
    have kept := inv.made c m₀ before
    refine ⟨(calm.used_iff c).mpr used, ?_, ?_, ?_⟩
    · exact (shape_eq_of_sameShape (sameShape_of_hidden (calm.layout c))).trans kept.shape
    · exact forall_phase (P := fun q => q.owns ≠ some c) phase nofun fun t' _ => notOwned t'
    · intro b'
      rw [has, kept.slabs, List.mem_cons, or_comm]
      simp only [true_and]

end Teardown

end Xv6Slab
