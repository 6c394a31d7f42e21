/-
**The steps of `kmem_cache_destroy` and `kmem_cache_create` keep the invariant of the threads.**

* `InvAt.offstage` — **a step on a descriptor that is no cache, before and after**: the slot is
  claimed, filled in, given back or cleared.
* `InvAt.mark`, `InvAt.popEmpty`, `InvAt.clearOwners`, `InvAt.giveBack` — a cache is marked, and its
  empty slabs become blocks that only the thread knows, and then free blocks.
* `InvAt.overtaken`, `InvAt.withdraw`, `InvAt.discard` — **a growth that finds the mark gives its
  new slab back.**
* `InvAt.unlink`, `InvAt.link` — a descriptor stops being a cache, and becomes one.
-/

import Xv6Slab.Slab.Teardown.Grow

namespace Xv6Slab

namespace Teardown

open Bytes Chains Tilings Kmem

variable {n : Nat} {s s' : State n} {v v' : View} {t t' : Fin n} {a b c : Nat} {p : Phase}

/-! ### Steps on one descriptor -/

/-- A step that moves no other descriptor in or out of transit. -/
theorem transit_of_ne (phase : s'.phase = Function.update s.phase t p)
    (old : ∀ a, (s.phase t).owns = some a → a = c) (new : ∀ a, p.owns = some a → a = c)
    (ne : a ≠ c) : a ∈ s'.transit ↔ a ∈ s.transit := by
  unfold State.transit gather
  rw [phase]
  constructor
  · rintro ⟨t', moving⟩
    by_cases eq : t' = t
    · rw [eq, Function.update_self] at moving
      exact absurd (new a (Phase.owns_of_transit moving)) ne
    · rw [Function.update_of_ne eq] at moving
      exact ⟨t', moving⟩
  · rintro ⟨t', moving⟩
    have other : t' ≠ t := by
      rintro rfl
      exact ne (old a (Phase.owns_of_transit moving))
    exact ⟨t', by rw [Function.update_of_ne other]; exact moving⟩

section OneDescriptor

variable {change : KmemCache → KmemCache}

theorem hidden_desc_of_ne (kmem : s'.kmem = s.kmem.modifyDesc c change)
    (transit : a ∈ s'.transit ↔ a ∈ s.transit) (ne : a ≠ c) :
    s'.hidden.desc a = s.hidden.desc a := by
  have same : s'.kmem.desc a = s.kmem.desc a := by
    rw [kmem, modifyDesc_of_ne _ _ ne]
  unfold State.hidden
  by_cases moving : a ∈ s.transit
  · rw [hide_desc_of_mem moving, hide_desc_of_mem (transit.mpr moving), same]
  · rw [hide_desc_of_notMem moving, hide_desc_of_notMem fun later => moving (transit.mp later),
      same]

/-- The hidden state changes in the descriptor only. -/
theorem hidden_modifyDesc (kmem : s'.kmem = s.kmem.modifyDesc c change)
    (secret : s'.secret = s.secret) (transit : ∀ a ≠ c, (a ∈ s'.transit ↔ a ∈ s.transit)) :
    s'.hidden = s.hidden.modifyDesc c fun _ => s'.hidden.desc c := by
  have descs : s'.hidden.desc = (s.hidden.modifyDesc c fun _ => s'.hidden.desc c).desc := by
    funext a
    by_cases eq : a = c
    · subst eq
      rw [modifyDesc_self]
    · rw [modifyDesc_of_ne _ _ eq]
      exact hidden_desc_of_ne kmem (transit a eq) eq
  calc s'.hidden = { s.hidden with desc := s'.hidden.desc } := by
        unfold State.hidden
        rw [secret, kmem]
        rfl
    _ = s.hidden.modifyDesc c fun _ => s'.hidden.desc c :=
        congrArg (fun desc => ({ s.hidden with desc := desc } : Kmem)) descs

/-- A step on one descriptor. -/
theorem Moves.of_modifyDesc (core : Core s'.hidden v') (kmem : s'.kmem = s.kmem.modifyDesc c change)
    (secret : s'.secret = s.secret) (transit : ∀ a ≠ c, (a ∈ s'.transit ↔ a ∈ s.transit))
    (grown : ∀ t' ≠ t, (s.phase t').grows = some c → s.Growing c →
      s'.Growing c ∧ KmemCache.SameShape (s.kmem.desc c) (s'.kmem.desc c))
    (unowned : ∀ t' ≠ t, (s.phase t').owns ≠ some c) : Moves s s' v v' t c := by
  have descs : ∀ a ≠ c, s'.kmem.desc a = s.kmem.desc a := by
    intro a ne
    rw [kmem, modifyDesc_of_ne _ _ ne]
  refine Moves.of_sameBuddy core ?_ secret ?_ ?_ ?_ ?_ grown unowned
  · rw [kmem]
    rfl
  · rw [kmem]
    exact ⟨rfl, rfl, rfl, rfl, rfl⟩
  · intro a ne
    have slots : ∀ i, s'.kmem.slot i = s.kmem.slot i := by
      intro i
      rw [kmem]
      rfl
    rw [s'.hidden_used, s.hidden_used]
    unfold State.Cache Kmem.Used
    rw [transit a ne, descs a ne]
    simp only [slots]
  · exact fun a ne => congrArg body (descs a ne)
  · exact fun a ne _ => congrArg firm (descs a ne)

/-- **A step on a descriptor that is no cache, before and after.** -/
theorem InvAt.offstage (inv : InvAt s v) (slot : ∃ i < maxNumCaches, c = s.kmem.slot i)
    (kmem : s'.kmem = s.kmem.modifyDesc c change) (phase : s'.phase = Function.update s.phase t p)
    (made : s'.made = s.made) (secret : p.secret = (s.phase t).secret)
    (owned : ∀ a, (s.phase t).owns = some a → a = c) (owns : ∀ a, p.owns = some a → a = c)
    (block : p.block = none) (before : ¬ s.hidden.Used c)
    (after : ¬ s'.hidden.Used c) (ungrown : ∀ t', (s.phase t').grows ≠ some c)
    (unowned : ∀ t' ≠ t, (s.phase t').owns ≠ some c) (here : Place s' v p) : InvAt s' v := by
  have secretEq := secret_keep phase secret
  have transit := fun a ne => transit_of_ne (a := a) phase owned owns ne
  obtain ⟨i, lt, isSlot⟩ := slot
  have off : (s'.hidden.desc c).isUsed = false := by
    rw [Bool.eq_false_iff]
    intro on
    have isSlot' : c = s'.hidden.slot i := by
      rw [hidden_modifyDesc kmem secretEq transit]
      exact isSlot
    exact after ⟨i, lt, isSlot', on⟩
  have core : Core s'.hidden v := by
    rw [hidden_modifyDesc kmem secretEq transit]
    exact (inv.core.describeUnused lt isSlot before off).core
  have moves : Moves s s' v v t c :=
    Moves.of_modifyDesc core kmem secretEq transit
      (fun t' _ grows => absurd grows (ungrown t')) unowned
  refine inv.moves moves phase (fun a _ => by rw [made])
    (fun _ _ _ => Iff.rfl) here owned owns ?_ ?_ ?_
  · intro b isBlock
    rw [block] at isBlock
    cases isBlock
  · exact fun used => absurd used after
  · intro m isMade
    rw [made] at isMade
    exact absurd (inv.made c m isMade).used before

end OneDescriptor

theorem not_used_of_transit (moving : (s.phase t).transit = some c) : ¬ s.hidden.Used c := by
  rw [s.hidden_used]
  exact fun cache => cache.2 ⟨t, moving⟩

theorem not_used_of_off (off : (s.kmem.desc c).isUsed = false) : ¬ s.hidden.Used c := by
  rw [s.hidden_used]
  rintro ⟨⟨_, _, _, on⟩, _⟩
  rw [off] at on
  cases on

/-- A slot that is not used is not grown. -/
theorem InvAt.ungrown_of_off (inv : InvAt s v) (off : (s.kmem.desc c).isUsed = false) (t' : Fin n) :
    (s.phase t').grows ≠ some c := by
  intro grows
  obtain ⟨_, _, _, on⟩ := (inv.growing_of_grows grows).used
  rw [off] at on
  cases on

/-- A descriptor that is being created is not grown. -/
theorem InvAt.ungrown_of_transit (inv : InvAt s v) (moving : (s.phase t).transit = some c)
    (active : (s.kmem.desc c).destroying = false) (t' : Fin n) : (s.phase t').grows ≠ some c :=
  fun grows => not_used_of_transit moving ((inv.growing_of_grows grows).listed active)

/-! ### The end of `kmem_cache_destroy` -/

/-- `is_used = 0`. -/
theorem InvAt.release (inv : InvAt s v) (isPhase : s.phase t = .release c)
    (ungrown : ∀ t', (s.phase t').grows ≠ some c)
    (kmem : s'.kmem = s.kmem.modifyDesc c fun d => { d with isUsed := false })
    (phase : s'.phase = Function.update s.phase t (.clear c)) (made : s'.made = s.made) :
    InvAt s' v := by
  have owns : (s.phase t).owns = some c := by rw [isPhase]; rfl
  have off : (s'.kmem.desc c).isUsed = false := by rw [kmem, modifyDesc_self]
  refine inv.offstage (inv.slot_of_owns owns) kmem phase made (by rw [isPhase]; rfl) ?_ ?_ rfl
    (not_used_of_transit (t := t) (by rw [isPhase]; rfl)) (not_used_of_off off) ungrown
    (inv.unowned_of_owns owns) ⟨?_, off⟩
  · exact fun a isOwned => Option.some.inj (isOwned.symm.trans owns)
  · exact fun a isOwned => (Option.some.inj isOwned).symm
  · rw [kmem]
    exact inv.slot_of_owns owns

/-- The other fields are cleared. -/
theorem InvAt.clear (inv : InvAt s v) (isPhase : s.phase t = .clear c)
    (kmem : s'.kmem = s.kmem.modifyDesc c fun d => { d with
      errorCode := .ok, objectSize := 0, objsPerSlab := 0, slabOrder := 0,
      partialSlabs := 0, fullSlabs := 0, emptySlabs := 0, ctor := none })
    (phase : s'.phase = Function.update s.phase t .idle) (made : s'.made = s.made) :
    InvAt s' v := by
  have owns : (s.phase t).owns = some c := by rw [isPhase]; rfl
  have place := inv.places t
  rw [isPhase] at place
  have off : (s'.kmem.desc c).isUsed = false := by
    rw [kmem, modifyDesc_self]
    exact place.2
  refine inv.offstage (inv.slot_of_owns owns) kmem phase made (by rw [isPhase]; rfl) ?_ nofun rfl
    (not_used_of_off place.2) (not_used_of_off off) (inv.ungrown_of_off place.2)
    (inv.unowned_of_owns owns) trivial
  exact fun a isOwned => Option.some.inj (isOwned.symm.trans owns)

/-! ### `kmem_cache_create` -/

/-- A slot is claimed. -/
theorem InvAt.claim (inv : InvAt s v) (isIdle : s.phase t = .idle) {index size : Nat}
    {ctor : Option (Mem → Nat → Mem)} (found : s.kmem.findFreeCacheSlot = some index)
    (isSlot : c = s.kmem.slot index) (small : size < 2 ^ 64) (ctorLocal : LocalCtor size ctor)
    (unowned : ∀ t', (s.phase t').owns ≠ some c)
    (kmem : s'.kmem = s.kmem.modifyDesc c fun d => { d with isUsed := true, destroying := false })
    (phase : s'.phase = Function.update s.phase t (.createInit c size ctor))
    (made : s'.made = s.made) :
    InvAt s' v := by
  obtain ⟨lt, off⟩ := findFreeCacheSlot_spec found
  rw [← isSlot] at off
  have now : s'.phase t = .createInit c size ctor := by rw [phase, Function.update_self]
  refine inv.offstage ⟨index, lt, isSlot⟩ kmem phase made (by rw [isIdle]; rfl) ?_ ?_ rfl
    (not_used_of_off off) (not_used_of_transit (t := t) (by rw [now]; rfl)) (inv.ungrown_of_off off)
    (fun t' _ => unowned t') ?_
  · intro a isOwned
    rw [isIdle] at isOwned
    cases isOwned
  · exact fun a isOwned => (Option.some.inj isOwned).symm
  · refine ⟨⟨index, lt, by rw [kmem]; exact isSlot, ?_⟩, ?_, small, ctorLocal⟩ <;>
      rw [kmem, modifyDesc_self]

/-- A step of the thread that fills in the slot it has claimed. -/
theorem InvAt.describe (inv : InvAt s v) {change : KmemCache → KmemCache}
    (moving : (s.phase t).transit = some c) (used : s.kmem.Used c)
    (active : (s.kmem.desc c).destroying = false) (still : p.transit = some c)
    (kmem : s'.kmem = s.kmem.modifyDesc c change) (keeps : ∀ d, (change d).isUsed = d.isUsed)
    (phase : s'.phase = Function.update s.phase t p) (made : s'.made = s.made)
    (secret : p.secret = (s.phase t).secret) (block : p.block = none)
    (here : s'.kmem.Used c → Place s' v p) : InvAt s' v := by
  have owns := Phase.owns_of_transit moving
  have now : s'.phase t = p := by rw [phase, Function.update_self]
  refine inv.offstage (inv.slot_of_owns owns) kmem phase made secret ?_ ?_ block
    (not_used_of_transit moving) (not_used_of_transit (t := t) (by rw [now]; exact still))
    (inv.ungrown_of_transit moving active) (inv.unowned_of_owns owns) (here ?_)
  · exact fun a isOwned => Option.some.inj (isOwned.symm.trans owns)
  · exact fun a isOwned => Option.some.inj (isOwned.symm.trans (Phase.owns_of_transit still))
  · rw [kmem]
    exact (used_modifyDesc_same change keeps c c).mpr used

/-- No order is large enough for a slab. -/
theorem InvAt.unsuited (inv : InvAt s v) {size obj : Nat} {ctor : Option (Mem → Nat → Mem)}
    (isPhase : s.phase t = .createInit c size ctor)
    (kmem : s'.kmem = (s.kmem.modifyDesc c fun d =>
      { d with ctor := ctor, errorCode := .ok, objectSize := obj }).modifyDesc c fun d =>
      { d with slabOrder := maxSlabOrder + 1 })
    (phase : s'.phase = Function.update s.phase t (.createRefuse c)) (made : s'.made = s.made) :
    InvAt s' v := by
  have place := inv.places t
  rw [isPhase] at place
  rw [modifyDesc_modifyDesc] at kmem
  refine inv.describe (p := .createRefuse c) (by rw [isPhase]; rfl) place.1 place.2.1 rfl kmem
    (fun _ => rfl) phase made (by rw [isPhase]; rfl) rfl fun used => ⟨used, ?_⟩
  rw [kmem, modifyDesc_self]
  exact place.2.1

/-- **The layout of the slabs is written.** -/
theorem InvAt.layOut (inv : InvAt s v) {size order objs offset : Nat}
    {ctor : Option (Mem → Nat → Mem)} (isPhase : s.phase t = .createInit c size ctor)
    (nonzero : objectSizeFor size ≠ 0)
    (layout : layoutLoop (objectSizeFor size) (minObjsFor (objectSizeFor size))
      (maxSlabOrder + 1) 0 = some (order, objs, offset))
    (kmem : s'.kmem = (s.kmem.modifyDesc c fun d =>
      { d with ctor := ctor, errorCode := .ok, objectSize := objectSizeFor size }).modifyDesc c
        fun d => { d with
          slabOrder := order, objsPerSlab := objs, objOffset := offset, next := 0, prev := 0,
          fullSlabs := 0, partialSlabs := 0, emptySlabs := 0 })
    (phase : s'.phase = Function.update s.phase t
      (.createLink c ⟨objectSizeFor size, order, objs, offset⟩)) (made : s'.made = s.made) :
    InvAt s' v := by
  have place := inv.places t
  rw [isPhase] at place
  obtain ⟨used, active, small, ctorLocal⟩ := place
  obtain ⟨objGe, sizeLe⟩ := objectSizeFor_ge small nonzero
  obtain ⟨orderLe, enough, few, header, fits⟩ := layoutLoop_spec objGe (minObjsFor_pos _) _ _ layout
  rw [modifyDesc_modifyDesc] at kmem
  refine inv.describe (p := .createLink c ⟨objectSizeFor size, order, objs, offset⟩)
    (by rw [isPhase]; rfl) used active rfl kmem (fun _ => rfl) phase made
    (by rw [isPhase]; rfl) rfl ?_
  intro used'
  refine ⟨used', ?_, ?_, ?_, ?_, ?_, ?_⟩ <;> rw [kmem, modifyDesc_self]
  · exact active
  · rfl
  · refine ⟨objGe, orderLe, (minObjsFor_pos _).trans enough, few, header, fits, ?_⟩
    intro f isCtor mem obj
    refine (ctorLocal f isCtor mem obj).mono ?_
    intro x inside
    exact ⟨inside.1, lt_of_lt_of_le inside.2 (Nat.add_le_add_left sizeLe _)⟩
  · intro list
    cases list <;> rfl

/-- The slot is given back. -/
theorem InvAt.refuse (inv : InvAt s v) (isPhase : s.phase t = .createRefuse c)
    (kmem : s'.kmem = s.kmem.modifyDesc c fun d => { d with isUsed := false })
    (phase : s'.phase = Function.update s.phase t .idle) (made : s'.made = s.made) :
    InvAt s' v := by
  have owns : (s.phase t).owns = some c := by rw [isPhase]; rfl
  have moving : (s.phase t).transit = some c := by rw [isPhase]; rfl
  have place := inv.places t
  rw [isPhase] at place
  have off : (s'.kmem.desc c).isUsed = false := by rw [kmem, modifyDesc_self]
  refine inv.offstage (inv.slot_of_owns owns) kmem phase made (by rw [isPhase]; rfl) ?_ nofun rfl
    (not_used_of_transit moving) (not_used_of_off off) (inv.ungrown_of_transit moving place.2)
    (inv.unowned_of_owns owns) trivial
  exact fun a isOwned => Option.some.inj (isOwned.symm.trans owns)

/-! ### The first part of `kmem_cache_destroy` -/

/-- A cache with live objects is not destroyed: only its error code changes. -/
theorem InvAt.markRefused (inv : InvAt s v) (isPhase : s.phase t = .mark c)
    (active : (s.kmem.desc c).destroying = false)
    (kmem : s'.kmem = (s.kmem.modifyDesc c fun d => { d with destroying := true }).modifyDesc c
      fun d =>
      { d with errorCode := .destroyNotEmpty, destroying := false })
    (phase : s'.phase = Function.update s.phase t .idle) (made : s'.made = s.made) :
    InvAt s' v := by
  rw [refuse_eq active] at kmem
  exact inv.setError (by rw [isPhase]; rfl) (by rw [isPhase]; rfl)
    (by rw [isPhase]; rfl) kmem phase made

/-- **A cache without live objects is marked**, also while threads grow it. -/
theorem InvAt.mark (inv : InvAt s v) (isPhase : s.phase t = .mark c) (used : s.hidden.Used c)
    (alone : ∀ t', (s.phase t').owns ≠ some c)
    (noPartial : (s.kmem.desc c).partialSlabs = 0) (noFull : (s.kmem.desc c).fullSlabs = 0)
    (kmem : s'.kmem = s.kmem.modifyDesc c fun d => { d with destroying := true })
    (phase : s'.phase = Function.update s.phase t (.shrink c))
    (made : s'.made = Function.update s.made c none) :
    InvAt s' v := by
  have hiddenEq : s'.hidden = s.hidden.modifyDesc c fun d => { d with destroying := true } := by
    rw [hidden_keep phase (by rw [isPhase]; rfl) (by rw [isPhase]; rfl), kmem]
    exact hide_modifyDesc (fun _ _ => rfl) c
  have core : Core s'.hidden v := by
    rw [hiddenEq]
    exact inv.core.setDestroying c true
  have transit : ∀ a ≠ c, (a ∈ s'.transit ↔ a ∈ s.transit) := by
    intro a _
    rw [transit_keep phase (by rw [isPhase]; rfl)]
  have flag : (s'.kmem.desc c).destroying = true := by rw [kmem, modifyDesc_self]
  have shape : KmemCache.SameShape (s.kmem.desc c) (s'.kmem.desc c) := by
    rw [kmem, modifyDesc_self]
    exact ⟨rfl, rfl, rfl, rfl, rfl⟩
  have moves : Moves s s' v v t c := by
    refine Moves.of_modifyDesc core kmem (secret_keep phase (by rw [isPhase]; rfl)) transit ?_
      fun t' _ => alone t'
    intro t' _ _ growing
    refine ⟨⟨?_, shape.geometry growing.geometry, fun active => ?_⟩, shape⟩
    · rw [kmem]
      exact (used_modifyDesc_same (fun d => { d with destroying := true }) (fun _ => rfl) c c).mpr
        growing.used
    · rw [flag] at active
      cases active
  refine inv.moves moves phase ?_ (fun _ _ _ => Iff.rfl) ⟨?_, flag, ?_, ?_⟩ ?_ ?_ nofun ?_ ?_
  · intro a ne
    rw [made, Function.update_of_ne ne]
  · rw [hiddenEq]
    exact (used_modifyDesc_same (fun d => { d with destroying := true }) (fun _ => rfl) c c).mpr
      used
  · rw [kmem, modifyDesc_self]
    exact noPartial
  · rw [kmem, modifyDesc_self]
    exact noFull
  · intro a owned
    rw [isPhase] at owned
    cases owned
  · exact fun a owned => (Option.some.inj owned).symm
  · exact fun _ unowned => absurd rfl unowned
  · intro m isMade
    rw [made, Function.update_self] at isMade
    cases isMade

/-! ### The empty slabs -/

/-- **A step of a thread on the cache that it is destroying**, when it changes no descriptor's
layout. -/
theorem InvAt.owning (inv : InvAt s v) (owns : (s.phase t).owns = some c)
    (phase : s'.phase = Function.update s.phase t p) (made : s'.made = s.made)
    (calm : Calm s.hidden s'.hidden) (core : Core s'.hidden v')
    (has : ∀ a ≠ c, ∀ b, Has v' a b ↔ Has v a b)
    (descs : ∀ a ≠ c, firm (s'.kmem.desc a) = firm (s.kmem.desc a)) (used : s.hidden.Used c)
    (spares : Spares s s' v v' t) (here : Place s' v' p) (owns' : p.owns = some c)
    (block : ∀ b, p.block = some b → ∀ t' ≠ t, (s.phase t').block ≠ some b) : InvAt s' v' := by
  have moves := Moves.of_calm calm core descs (fun _ => used) (inv.unowned_of_owns owns) spares
  refine inv.moves moves phase (fun a _ => by rw [made]) has here ?_ ?_ block ?_ ?_
  · exact fun a owned => Option.some.inj (owned.symm.trans owns)
  · exact fun a owned => Option.some.inj (owned.symm.trans owns')
  · exact fun _ unowned => absurd owns' unowned
  · intro m isMade
    rw [made] at isMade
    exact absurd owns ((inv.made c m isMade).unowned t)

/-- A marked cache after a step that changes neither its flag nor its other lists. -/
theorem State.Marked.calm (marked : s.Marked c) (calm : Calm s.hidden s'.hidden)
    (partials : (s'.kmem.desc c).head .partials = (s.kmem.desc c).head .partials)
    (full : (s'.kmem.desc c).head .full = (s.kmem.desc c).head .full) : s'.Marked c where
  used := (calm.used_iff c).mpr marked.used
  destroying := (Calm.destroying_kmem calm c).trans marked.destroying
  noPartial := partials.trans marked.noPartial
  noFull := full.trans marked.noFull

/-- No empty slab is left. -/
theorem InvAt.noEmpty (inv : InvAt s v) (isPhase : s.phase t = .shrink c)
    (none : (s.kmem.desc c).emptySlabs = 0) (kmem : s'.kmem = s.kmem)
    (phase : s'.phase = Function.update s.phase t (.unlink c)) (made : s'.made = s.made) :
    InvAt s' v := by
  have owns : (s.phase t).owns = some c := by rw [isPhase]; rfl
  have marked := inv.places t
  rw [isPhase] at marked
  have hiddenEq : s'.hidden = s.hidden := by
    rw [hidden_keep phase (by rw [isPhase]; rfl) (by rw [isPhase]; rfl), kmem]
    rfl
  have calm : Calm s.hidden s'.hidden := by
    rw [hiddenEq]
    exact Calm.refl _
  refine inv.owning owns phase made calm (by rw [hiddenEq]; exact inv.core) (fun _ _ _ => Iff.rfl)
    (fun a _ => by rw [kmem]) marked.used ⟨?_, fun _ _ _ _ _ _ => by rw [kmem]⟩
    ⟨marked.calm calm (by rw [kmem]) (by rw [kmem]), by rw [kmem]; exact none⟩ rfl nofun
  intro b order isLive _
  rw [hiddenEq, kmem]
  exact ⟨isLive, fun _ _ => rfl⟩

/-- A slab of a cache is no thread's private block. -/
theorem InvAt.not_block_of_slab (inv : InvAt s v) {w : SlabView} (isSlab : v.slabs b = some w)
    (t' : Fin n) : (s.phase t').block ≠ some b := by
  intro isBlock
  obtain ⟨order, i, inAlloc, unowned, address⟩ := inv.private_of_block isBlock
  have absent := inv.core.slabs.notSlab_fresh (c := ⟨i, order⟩) inAlloc unowned
  rw [← address, isSlab] at absent
  cases absent

/-- The pages of a slab of a cache have it as their owner, and no other page has. -/
theorem InvAt.slab_owners (inv : InvAt s v) {l : List Nat} (isSlab : v.slabs b = some ⟨c, l⟩) :
    ∃ i, b = s.kmem.page i ∧ ⟨i, (s.kmem.desc c).slabOrder⟩ ∈ s.hidden.allocBlocks ∧
      i + 2 ^ (s.kmem.desc c).slabOrder ≤ s.kmem.num ∧
      ∀ j < s.kmem.num, (s.kmem.blockMeta j).ownerSlab = b ↔
      i ≤ j ∧ j < i + 2 ^ (s.kmem.desc c).slabOrder := by
  obtain ⟨i, address, inAlloc⟩ := inv.core.slabs.placed b _ isSlab
  have order : (s.hidden.desc c).slabOrder = (s.kmem.desc c).slabOrder := hide_slabOrder c
  have bytes : (s.hidden.desc c).slabBytes = 4096 * 2 ^ (s.kmem.desc c).slabOrder :=
    hide_slabBytes c
  have nonzero := inv.core.slabs.nonzero isSlab
  simp only [order] at inAlloc
  refine ⟨i, address, inAlloc, inv.core.slabs.pool.tiling.inside _ (Or.inr inAlloc), fun j lt => ?_⟩
  have notSecret : b ∉ s.secret :=
    fun ⟨t', isSecret⟩ => inv.not_block_of_slab isSlab t' (Phase.block_of_secret isSecret)
  -- the owner shows in the hidden state
  have shows : (s.kmem.blockMeta j).ownerSlab = b ↔ (s.hidden.blockMeta j).ownerSlab = b := by
    constructor
    · intro owner
      have same : s.hidden.blockMeta j = s.kmem.blockMeta j :=
        Buddy.hideOwners_owner (owner ▸ notSecret)
      rw [same]
      exact owner
    · intro owner
      have value := Buddy.hideOwners_ownerSlab s.secret s.kmem.toBuddy j
      have owner' : ((s.kmem.toBuddy.hideOwners s.secret).blockMeta j).ownerSlab = b := owner
      rw [owner'] at value
      split_ifs at value
      · exact absurd value nonzero
      · exact value.symm
  rw [shows, inv.core.slabs.owner j lt b nonzero]
  have pages : s.hidden.page j ∈ Set.Ico b (b + (s.hidden.desc c).slabBytes) ↔
      i ≤ j ∧ j < i + 2 ^ (s.kmem.desc c).slabOrder := by
    rw [bytes, address, Set.mem_Ico]
    simp only [Buddy.page]
    have start : s.hidden.managedStart = s.kmem.managedStart := rfl
    omega
  constructor
  · rintro ⟨w, isSlab', inside⟩
    rw [isSlab] at isSlab'
    cases isSlab'
    exact pages.mp inside
  · exact fun range => ⟨_, isSlab, pages.mpr range⟩

/-- The first slab of the empty list is popped and its owners are cleared: it is an allocated block,
and no slab. -/
theorem detach_spec {k : Kmem} (core : Core k v) (used : k.Used c)
    (nonempty : (k.desc c).head .empty ≠ 0) {k' : Kmem} {i : Nat}
    (address : (k.desc c).head .empty = k.page i)
    (isNew : k' = (k.slabListRemoveNode c .empty ((k.desc c).head .empty)).setBuddy
      ((k.slabListRemoveNode c .empty ((k.desc c).head .empty)).toBuddy.withOwner i
        (2 ^ (k.desc c).slabOrder) 0)) :
    ∃ v', Core k' v' ∧ Calm k k' ∧ (∀ a b, Has v' a b ↔ Has v a b ∧ b ≠ (k.desc c).head .empty) ∧
      live k' v'.slabs = insert (.block ((k.desc c).head .empty) (k.desc c).slabOrder)
      (live k v.slabs) ∧ SameOutside (headerArea k v.slabs) k.mem k'.mem := by
  have member := core.lists.head_mem used .empty nonempty
  generalize (k.desc c).head .empty = b at *
  obtain ⟨l, isSlab⟩ := core.isSlab member
  have length : l.length = (k.desc c).objsPerSlab := core.category c .empty b l member isSlab
  obtain ⟨loose, quiet⟩ := (core.toOpen b).remove member
  generalize k.slabListRemoveNode c .empty b = k₁ at loose quiet isNew
  have order : (k₁.desc c).slabOrder = (k.desc c).slabOrder := quiet.slabOrder c
  have page : k₁.page i = k.page i := quiet.page i
  have dropped := loose.drop isSlab (address.trans page.symm)
  rw [order, ← isNew] at dropped
  obtain ⟨j, address', inAlloc⟩ := core.slabs.placed b _ isSlab
  obtain rfl : j = i := Buddy.page_injective _ (address'.symm.trans address)
  have added : live k' (Function.update v.slabs b none) =
      insert (.block b (k.desc c).slabOrder) (live k v.slabs) := by
    have isSlab' : v.slabs (k₁.page j) = some ⟨c, l⟩ := by
      rw [page, ← address]
      exact isSlab
    have inAlloc' : ⟨j, (k₁.desc c).slabOrder⟩ ∈ k₁.allocBlocks := by
      rw [order, quiet.allocBlocks]
      exact inAlloc
    have all := (loose.slabs.header b _ isSlab).all_free (length.trans (quiet.objsPerSlab c).symm)
    have added := loose.slabs.live_dropSlab isSlab' all rfl inAlloc'
    rw [order, page, ← address, ← isNew, quiet.live] at added
    exact added
  have calm : Calm k₁ k' := by
    rw [isNew]
    exact ⟨rfl, rfl, fun _ => rfl, rfl⟩
  refine ⟨_, dropped, quiet.calm.trans calm, ?_, added, ?_⟩
  · intro a b'
    show (∃ l, Function.update v.slabs b none b' = some ⟨a, l⟩) ↔ Has v a b' ∧ b' ≠ b
    by_cases eq : b' = b
    · rw [eq, Function.update_self]
      simp
    · rw [Function.update_of_ne eq]
      exact (and_iff_left eq).symm
  · rw [isNew]
    exact quiet.mem.mono (core.toOpen b).links_sub

/-- **An empty slab of the cache is popped**: it becomes a block that only this thread knows. -/
theorem InvAt.popEmpty (inv : InvAt s v) (isPhase : s.phase t = .shrink c)
    (isHead : (s.kmem.desc c).emptySlabs = b) (nonnull : b ≠ 0)
    (kmem : s'.kmem = (s.kmem.slabListPopFront c .empty).1)
    (phase : s'.phase = Function.update s.phase t (.shrinkClear c b)) (made : s'.made = s.made) :
    ∃ v', InvAt s' v' := by
  have owns : (s.phase t).owns = some c := by rw [isPhase]; rfl
  have marked := inv.places t
  rw [isPhase] at marked
  have used := marked.used
  have head : (s.hidden.desc c).head .empty = b := (hide_head c .empty).trans isHead
  have nonempty : (s.hidden.desc c).head .empty ≠ 0 := by rw [head]; exact nonnull
  obtain ⟨l, isSlab⟩ := inv.core.isSlab (inv.core.lists.head_mem used .empty nonempty)
  rw [head] at isSlab
  obtain ⟨i, address, _, fits, isOwner⟩ := inv.slab_owners isSlab
  have order : (s.hidden.desc c).slabOrder = (s.kmem.desc c).slabOrder := hide_slabOrder c
  have same : SameMeta s.kmem s'.kmem := by
    rw [kmem]
    exact slabListPopFront_sameMeta _ _ _
  have metas : s'.kmem.blockMeta = s.kmem.blockMeta := by rw [same]
  have num : s'.kmem.num = s.kmem.num := by rw [same]; rfl
  -- popping shows in the hidden state, and the new secret takes the owners of the slab
  have isNew :
      s'.hidden = (s.hidden.slabListRemoveNode c .empty ((s.hidden.desc c).head .empty)).setBuddy
      ((s.hidden.slabListRemoveNode c .empty ((s.hidden.desc c).head .empty)).toBuddy.withOwner i
        (2 ^ (s.hidden.desc c).slabOrder) 0) := by
    obtain ⟨_, _, popped⟩ := inv.core.lists.pop used nonempty
    have shows :
        s.hidden.slabListPopFront c .empty = (s'.kmem.hide s.transit s.secret,
          (s.kmem.slabListPopFront c .empty).2) := by
      rw [kmem]
      exact hide_slabListPopFront c .empty
    rw [popped] at shows
    have removed := congrArg Prod.fst shows
    simp only at removed
    rw [removed, order]
    unfold State.hidden
    rw [secret_enter phase rfl (by rw [isPhase]; rfl), transit_keep phase (by rw [isPhase]; rfl)]
    exact hide_withOwner
      (Buddy.hideOwners_conceal (by rw [num]; exact fits) (by rw [num, metas]; exact isOwner))
  obtain ⟨v', core, calm, has, live', mem⟩ :=
    detach_spec inv.core used nonempty (head.trans address) isNew
  rw [head] at has live'
  rw [order] at live'
  have descs : ∀ a ≠ c, s'.kmem.desc a = s.kmem.desc a := by
    intro a ne
    rw [kmem, slabListPopFront_desc_of_ne ne]
  have heads : ∀ list ≠ .empty, (s'.kmem.desc c).head list = (s.kmem.desc c).head list := by
    intro list ne
    rw [kmem, slabListPopFront_head_of_ne ne]
  have shape := sameShape_of_hidden (calm.layout c)
  refine ⟨v', inv.owning owns phase made calm core ?_ (fun a ne => congrArg firm (descs a ne)) used
    ⟨?_, ?_⟩ ⟨marked.calm calm (heads _ (by decide)) (heads _ (by decide)), ?_, i, ?_, ?_⟩ rfl ?_⟩
  · intro a ne b'
    rw [has]
    refine and_iff_left_of_imp fun isHas => ?_
    rintro rfl
    obtain ⟨l', isSlab'⟩ := isHas
    rw [isSlab, Option.some.injEq, SlabView.mk.injEq] at isSlab'
    exact ne isSlab'.1.symm
  · intro b' order' isLive _
    refine ⟨by rw [live']; exact Or.inr isLive, fun x inside => mem x fun inHeader => ?_⟩
    exact inv.not_spare isLive inside (Or.inl inHeader)
  · intro _ _ _ _ _ _
    rw [metas]
  · unfold State.Private
    rw [shape.slabOrder, live']
    exact Set.mem_insert _ _
  · rw [same]
    exact address
  · rw [num, metas, shape.slabOrder]
    exact isOwner
  · intro b' isBlock t' _
    obtain rfl := Option.some.inj isBlock
    exact inv.not_block_of_slab isSlab t'

/-- **A thread clears the owners of a slab that only it knows**: the hidden state does not
change. -/
theorem InvAt.disown (inv : InvAt s v) {B : Buddy} (isSecret : (s.phase t).secret = some b)
    (isPrivate : s.Private v c b) (isOwner : s.Owners c b)
    (run : s.kmem.toBuddy.setOwners (s.kmem.addrToIndex b) 0 (2 ^ (s.kmem.desc c).slabOrder) =
      .ok B)
    (kmem : s'.kmem = s.kmem.setBuddy B) (phase : s'.phase = Function.update s.phase t p)
    (transit : p.transit = (s.phase t).transit) (open' : p.secret = none) :
    s'.hidden = s.hidden ∧ Spares s s' v v t := by
  have block := Phase.block_of_secret isSecret
  obtain ⟨i, address, owns⟩ := isOwner
  obtain ⟨j, address', _, _, fits, index, _⟩ := inv.private_spec isPrivate
  obtain rfl : j = i := Buddy.page_injective _ (address'.symm.trans address)
  have written : B = s.kmem.toBuddy.withOwner j (2 ^ (s.kmem.desc c).slabOrder) 0 := by
    rw [index, Buddy.setOwners_ok _ _ _ _ fits] at run
    exact (Except.ok.inj run).symm
  subst written
  have hiddenEq : s'.hidden = s.hidden := by
    have isSecret' : b ∈ s.secret := ⟨t, isSecret⟩
    have owners := Buddy.hideOwners_withdraw fits owns isSecret'
    unfold State.hidden
    rw [inv.secret_leave phase isSecret open', transit_keep phase transit, kmem, hide_setBuddy,
      owners]
    rfl
  refine ⟨hiddenEq, ?_, ?_⟩
  · intro b' order isLive _
    rw [hiddenEq, kmem]
    exact ⟨isLive, fun _ _ => rfl⟩
  · intro t' other b' isSecret'
    exact inv.owners_spared block isPrivate address kmem other isSecret'
      (inv.block_ne_zero (Phase.block_of_secret isSecret')).symm

/-- **The owners of a popped slab are cleared.** -/
theorem InvAt.clearOwners (inv : InvAt s v) {B : Buddy} (isPhase : s.phase t = .shrinkClear c b)
    (run : s.kmem.toBuddy.setOwners (s.kmem.addrToIndex b) 0 (2 ^ (s.kmem.desc c).slabOrder) =
      .ok B)
    (kmem : s'.kmem = s.kmem.setBuddy B)
    (phase : s'.phase = Function.update s.phase t (.shrinkFree c b)) (made : s'.made = s.made) :
    InvAt s' v := by
  have owns : (s.phase t).owns = some c := by rw [isPhase]; rfl
  have block : (s.phase t).block = some b := by rw [isPhase]; rfl
  have place := inv.places t
  rw [isPhase] at place
  obtain ⟨marked, isPrivate, isOwner⟩ := place
  obtain ⟨hiddenEq, spares⟩ :=
    inv.disown (t := t) (by rw [isPhase]; rfl) isPrivate isOwner run kmem phase
    (by rw [isPhase]; rfl) rfl
  have calm : Calm s.hidden s'.hidden := by
    rw [hiddenEq]
    exact Calm.refl _
  have descs : ∀ a, s'.kmem.desc a = s.kmem.desc a := fun a => by rw [kmem]; rfl
  refine inv.owning owns phase made calm (by rw [hiddenEq]; exact inv.core) (fun _ _ _ => Iff.rfl)
    (fun a _ => congrArg firm (descs a)) marked.used spares
    ⟨marked.calm calm (by rw [descs]) (by rw [descs]), ?_⟩ rfl (inv.keepsBlock block rfl)
  unfold State.Private
  rw [hiddenEq, descs]
  exact isPrivate

/-- No page of a slab on no list is the head of a free block. -/
theorem InvAt.occupied (inv : InvAt s v) : s.kmem.toBuddy.Occupied s.secret := by
  rintro i lt ⟨t', isSecret⟩
  obtain ⟨order, isLive, inside⟩ := inv.secret_owner isSecret lt rfl
  by_contra isHead
  have shows :=
    congrArg BlockMeta.isHeadOfFreeBlock (Buddy.hideOwners_flags s.secret s.kmem.toBuddy i)
  have isFree : (⟨i, (s.hidden.blockMeta i).freeOrder⟩ : Block) ∈ s.hidden.freeBlocks :=
    ⟨lt, shows.trans (Bool.eq_true_of_not_eq_false isHead), rfl⟩
  refine inv.core.slabs.live_not_free isLive inside ⟨i, ⟨_, isFree, Block.covers_index _⟩,
    le_refl _, ?_⟩
  show s.kmem.page i < s.kmem.page i + 4096
  omega

/-- A page of a private block that is no secret has no owner. -/
theorem InvAt.page_unowned (inv : InvAt s v) (block : (s.phase t).block = some b)
    (open' : (s.phase t).secret = none) {i order : Nat}
    (isLive : .block b order ∈ live s.hidden v.slabs) (lt : i < s.kmem.num)
    (inside : s.kmem.page i ∈ (Allocation.block b order).bytes)
    (unowned : (s.hidden.blockMeta i).ownerSlab = 0) : (s.kmem.blockMeta i).ownerSlab = 0 := by
  have notSecret : (s.kmem.blockMeta i).ownerSlab ∉ s.secret := by
    rintro ⟨t', isSecret⟩
    obtain ⟨order', isLive', inside'⟩ := inv.secret_owner isSecret lt rfl
    have other : t' ≠ t := by
      rintro rfl
      rw [open'] at isSecret
      cases isSecret
    have ne : b ≠ (s.kmem.blockMeta i).ownerSlab := by
      intro eq
      rw [eq] at block
      exact inv.block_of_block block t' other (Phase.block_of_secret isSecret)
    exact inv.blocks_apart isLive isLive' ne inside inside'
  have same : s.hidden.blockMeta i = s.kmem.blockMeta i := Buddy.hideOwners_owner notSecret
  rw [← same]
  exact unowned

/-- **A thread gives a block that only it knows back to the buddy allocator.** -/
theorem InvAt.freeBlock (inv : InvAt s v) {order : Nat} (block : (s.phase t).block = some b)
    (open' : (s.phase t).secret = none) (isLive : .block b order ∈ live s.hidden v.slabs)
    (run : s.kmem.buddyFree b = .ok s'.kmem)
    (hiddenEq : s'.hidden = s'.kmem.hide s.transit s.secret) :
    Calm s.hidden s'.hidden ∧ Core s'.hidden v ∧ (∀ a, s'.kmem.desc a = s.kmem.desc a) ∧
    Spares s s' v v t := by
  obtain ⟨i, address, _, unowned, fits, index, _⟩ := inv.private_spec isLive
  obtain ⟨B, freed, kmem⟩ := buddyFree_ok run
  -- the buddy allocator does the same without the secrets of the other threads
  have hiddenRun : s.hidden.buddyFree b = .ok s'.hidden := by
    have head : ∀ j < s.kmem.num, s.kmem.addrToIndex b = j →
        (s.kmem.blockMeta j).ownerSlab = 0 := by
      intro j lt eq
      obtain rfl : j = i := by exact_mod_cast eq.symm.trans index
      refine inv.page_unowned block open' isLive lt ?_ unowned
      exact page_mem_block address le_rfl (Nat.lt_add_of_pos_right (Nat.two_pow_pos _))
    have notSecret : 0 ∉ s.secret := by
      rintro ⟨t', isSecret⟩
      exact inv.block_ne_zero (Phase.block_of_secret isSecret) rfl
    have hidden : s.hidden.toBuddy.buddyFree b = .ok (B.hideOwners s.secret) :=
      Buddy.hideOwners_buddyFree inv.occupied head notSecret freed
    unfold Kmem.buddyFree
    rw [hidden, hiddenEq, kmem, hide_setBuddy]
    rfl
  obtain ⟨k', found, loses⟩ := inv.core.buddyFree_spec isLive
  obtain rfl := Except.ok.inj (hiddenRun.symm.trans found)
  have same := Buddy.buddyFree_sameRegion freed
  refine ⟨loses.calm, loses.core, fun a => by rw [kmem]; rfl, ?_, ?_⟩
  · intro b' order' isLive' notMine
    have ne : b' ≠ b := fun eq => notMine (eq ▸ block)
    refine ⟨?_, fun x inside => loses.mem x ?_⟩
    · rw [loses.live]
      exact ⟨isLive', fun eq => ne (Allocation.block.inj eq).1⟩
    · rintro (inSpare | inBlock)
      · exact inv.not_spare isLive' inside inSpare
      · exact inv.blocks_apart isLive' isLive ne inside inBlock
  · intro t' _ b' _ j _
    rw [kmem]
    show (B.blockMeta j).ownerSlab = b' ↔ _
    rw [same.owner j]

/-- A popped slab goes back to the buddy allocator. -/
theorem InvAt.giveBack (inv : InvAt s v) (isPhase : s.phase t = .shrinkFree c b)
    (run : s.kmem.buddyFree b = .ok s'.kmem)
    (phase : s'.phase = Function.update s.phase t (.shrink c)) (made : s'.made = s.made) :
    InvAt s' v := by
  have owns : (s.phase t).owns = some c := by rw [isPhase]; rfl
  have place := inv.places t
  rw [isPhase] at place
  obtain ⟨marked, isPrivate⟩ := place
  obtain ⟨calm, core, descs, spares⟩ :=
    inv.freeBlock (t := t) (by rw [isPhase]; rfl) (by rw [isPhase]; rfl)
    isPrivate run (hidden_keep phase (by rw [isPhase]; rfl) (by rw [isPhase]; rfl))
  exact inv.owning owns phase made calm core (fun _ _ _ => Iff.rfl)
    (fun a _ => congrArg firm (descs a))
    marked.used spares (marked.calm calm (by rw [descs]) (by rw [descs])) rfl nofun

/-! ### A new slab of a cache that is being destroyed -/

/-- A growing thread takes the lock again and finds that the cache is being destroyed. -/
theorem InvAt.overtaken (inv : InvAt s v) {head : Int} (isPhase : s.phase t = .growAttach c b head)
    (kmem : s'.kmem = s.kmem)
    (phase : s'.phase = Function.update s.phase t (.growWithdraw c b head))
    (made : s'.made = s.made) : InvAt s' v := by
  have block : (s.phase t).block = some b := by rw [isPhase]; rfl
  have place := inv.places t
  rw [isPhase] at place
  obtain ⟨growing, isPrivate, isOwner, isHead, _⟩ := place
  have hiddenEq : s'.hidden = s.hidden := by
    rw [hidden_keep phase (by rw [isPhase]; rfl) (by rw [isPhase]; rfl), kmem]
    rfl
  refine inv.still phase made (by rw [isPhase]; rfl) (by rw [isPhase]; rfl)
    (by rw [kmem]; exact Quiet.refl _ _)
    (fun _ => by rw [kmem]) (fun calm => ⟨growing.calm calm (by rw [kmem]), ?_, ?_, ?_⟩)
    (by rw [isPhase]; rfl) rfl (inv.keepsBlock block rfl)
  · unfold State.Private
    rw [hiddenEq, kmem]
    exact isPrivate
  · unfold State.Owners
    rw [kmem]
    exact isOwner
  · rw [kmem]
    exact isHead

/-- The owners of its pages are withdrawn. -/
theorem InvAt.withdraw (inv : InvAt s v) {B : Buddy} {head : Int}
    (isPhase : s.phase t = .growWithdraw c b head)
    (run : s.kmem.toBuddy.setOwners head 0 (2 ^ (s.kmem.desc c).slabOrder) = .ok B)
    (kmem : s'.kmem = s.kmem.setBuddy B)
    (phase : s'.phase = Function.update s.phase t (.growFree b)) (made : s'.made = s.made) :
    InvAt s' v := by
  have block : (s.phase t).block = some b := by rw [isPhase]; rfl
  have place := inv.places t
  rw [isPhase] at place
  obtain ⟨_, isPrivate, isOwner, rfl⟩ := place
  obtain ⟨hiddenEq, spares⟩ :=
    inv.disown (t := t) (by rw [isPhase]; rfl) isPrivate isOwner run kmem phase
    (by rw [isPhase]; rfl) rfl
  refine inv.aside phase made (by rw [hiddenEq]; exact Calm.refl _)
    (by rw [hiddenEq]; exact inv.core)
    (fun _ => by rw [kmem]; rfl) spares ⟨(s.kmem.desc c).slabOrder, ?_⟩
    (by rw [isPhase]; rfl) rfl (inv.keepsBlock block rfl)
  rw [hiddenEq]
  exact isPrivate

/-- The slab goes back to the buddy allocator, and the call returns null. -/
theorem InvAt.discard (inv : InvAt s v) (isPhase : s.phase t = .growFree b)
    (run : s.kmem.buddyFree b = .ok s'.kmem) (phase : s'.phase = Function.update s.phase t .idle)
    (made : s'.made = s.made) : InvAt s' v := by
  have place := inv.places t
  rw [isPhase] at place
  obtain ⟨order, isLive⟩ := place
  obtain ⟨calm, core, descs, spares⟩ :=
    inv.freeBlock (t := t) (by rw [isPhase]; rfl) (by rw [isPhase]; rfl)
    isLive run (hidden_keep phase (by rw [isPhase]; rfl) (by rw [isPhase]; rfl))
  exact inv.aside phase made calm core (fun a => congrArg firm (descs a)) spares trivial
    (by rw [isPhase]; rfl)
    rfl nofun

/-! ### The cache list -/

/-- The search of `remove_from_cache_list` does not see what is hidden. -/
theorem removeFromCacheList_of_hidden {k k' : Kmem} {transit secret : Set Nat} (nonzero : c ≠ 0)
    (pool : (k.hide transit secret).findInCacheList c (maxNumCaches + 1) k.headOfCacheList = .ok c)
    (run : k.removeFromCacheList c = .ok k') : k' = k.unlink c := by
  rw [hide_findInCacheList] at pool
  unfold removeFromCacheList at run
  rw [pool] at run
  have found :
      (if c = 0 then Except.ok k else Except.ok (k.unlink c)) = (Except.ok k' :
        Except Fault Kmem) := run
  rw [if_neg nonzero] at found
  exact (Except.ok.inj found).symm

/-- **A cache without slabs leaves the list.** -/
theorem InvAt.unlink (inv : InvAt s v) (isPhase : s.phase t = .unlink c)
    (run : s.kmem.removeFromCacheList c = .ok s'.kmem)
    (phase : s'.phase = Function.update s.phase t (.release c)) (made : s'.made = s.made) :
    ∃ v', InvAt s' v' := by
  have owns : (s.phase t).owns = some c := by rw [isPhase]; rfl
  have place := inv.places t
  rw [isPhase] at place
  obtain ⟨marked, noEmpty⟩ := place
  have used := marked.used
  have member := (inv.core.pool.members c).mpr used
  have kmem : s'.kmem = s.kmem.unlink c :=
    removeFromCacheList_of_hidden (inv.core.pool.linked.ne_stop member)
      (findInCacheList_spec inv.core.pool.linked.chain
      member (maxNumCaches + 1) (Nat.lt_succ_of_le inv.core.pool.length_le)) run
  have relinked : Relinked s.kmem s'.kmem := by
    rw [kmem]
    exact s.kmem.unlink_relinked c
  have noSlabs : ∀ list, v.lists c list = [] := by
    intro list
    have none : (s.hidden.desc c).head list = 0 := by
      refine (hide_head c list).trans ?_
      cases list with
      | full => exact marked.noFull
      | partials => exact marked.noPartial
      | empty => exact noEmpty
    have linked := inv.core.lists.linked c used list
    rw [none] at linked
    exact linked.eq_nil_of_stop
  have secretEq := secret_keep phase (by rw [isPhase]; rfl)
  have hiddenEq :
      s'.hidden = (s.hidden.unlink c).modifyDesc c fun d => { d with isUsed := false } := by
    have transitEq : s'.transit = insert c s.transit := by
      unfold State.transit
      rw [phase]
      exact gather_enter rfl (by rw [isPhase]; rfl)
    unfold State.hidden
    rw [hide_unlink, ← kmem, secretEq, transitEq, hide_insert]
  have off : ∀ d : KmemCache, ({ d with isUsed := false } : KmemCache).isUsed = false :=
    fun _ => rfl
  obtain ⟨_, core, _, usedIff, _⟩ := inv.core.dropWith used noSlabs off
  rw [← hiddenEq] at core usedIff
  have gone : ¬ s'.hidden.Used c := fun still => ((usedIff c).mp still).1 rfl
  have moves : Moves s s' v { v with caches := v.caches.erase c } t c := by
    refine Moves.of_sameBuddy core relinked.toBuddy secretEq relinked.samePlace
      (fun a ne => (usedIff a).trans (and_iff_right ne)) ?_ ?_ ?_ (inv.unowned_of_owns owns)
    · exact fun a _ => congrArg (fun d => { d with errorCode := .ok }) (relinked.desc a)
    · -- a descriptor that is not on the list is no neighbour of this one
      intro a ne notUsed
      have next : (s.hidden.desc c).next = (s.kmem.desc c).next :=
        hide_field KmemCache.next (fun _ _ => rfl) c
      have prev : (s.hidden.desc c).prev = (s.kmem.desc c).prev :=
        hide_field KmemCache.prev (fun _ _ => rfl) c
      obtain ⟨before, after⟩ := inv.core.pool.neighbours_listed member
      rw [prev, inv.core.pool.members] at before
      rw [next, inv.core.pool.members] at after
      rw [kmem, s.kmem.unlink_desc_of_ne ne]
      · rintro rfl
        exact before.resolve_right notUsed
      · rintro rfl
        exact after.resolve_right notUsed
    · -- a growing thread loses the cache from the list, and keeps its descriptor
      intro t' _ _ growing
      have shape := relinked.sameShape c
      refine ⟨⟨(relinked.used_iff c).mpr growing.used, shape.geometry growing.geometry,
        fun active => ?_⟩, shape⟩
      have flag := (relinked.field KmemCache.destroying c).trans marked.destroying
      exact absurd (active.symm.trans flag) (by decide)
  refine ⟨_,
    inv.moves moves phase (fun a _ => by rw [made]) (fun _ _ _ => Iff.rfl) ?_ ?_ ?_ nofun ?_ ?_⟩
  · show s'.kmem.Used c
    exact (relinked.used_iff c).mpr (hide_used.mp used).2
  · exact fun a owned => Option.some.inj (owned.symm.trans owns)
  · exact fun a owned => (Option.some.inj owned).symm
  · exact fun still => absurd still gone
  · intro m isMade
    rw [made] at isMade
    exact absurd owns ((inv.made c m isMade).unowned t)

/-- **A new cache is linked.** -/
theorem InvAt.link (inv : InvAt s v) {shape : Shape} (isPhase : s.phase t = .createLink c shape)
    (kmem : s'.kmem = s.kmem.addToCacheList c) (phase : s'.phase = Function.update s.phase t .idle)
    (made : s'.made = Function.update s.made c (some ⟨shape, []⟩)) : ∃ v', InvAt s' v' := by
  have owns : (s.phase t).owns = some c := by rw [isPhase]; rfl
  have place := inv.places t
  rw [isPhase] at place
  obtain ⟨used, active, isShape, geometry, heads, noNext, noPrev⟩ := place
  have moving : (s.phase t).transit = some c := by rw [isPhase]; rfl
  have unused := not_used_of_transit moving
  obtain ⟨i, lt, isSlot, on⟩ := used
  have relinked : Relinked s.kmem s'.kmem := by
    rw [kmem]
    exact s.kmem.addToCacheList_relinked c
  have secretEq := secret_keep phase (by rw [isPhase]; rfl)
  have hiddenEq : s'.hidden = (s.hidden.modifyDesc c fun _ => s.kmem.desc c).addToCacheList c := by
    have transitEq : s'.transit = s.transit \ {c} := by
      unfold State.transit
      rw [phase]
      refine gather_leave rfl (by rw [isPhase]; rfl) fun t' other moving => ?_
      exact inv.unowned_of_owns owns t' other (Phase.owns_of_transit moving)
    unfold State.hidden
    rw [secretEq, transitEq, kmem, ← hide_addToCacheList, hide_sdiff]
  have relinked' : Relinked (s.hidden.modifyDesc c fun _ => s.kmem.desc c) s'.hidden := by
    rw [hiddenEq]
    exact addToCacheList_relinked _ c
  have pool : PoolInv s'.hidden (c :: v.caches) := by
    rw [hiddenEq]
    exact inv.core.pool.add lt isSlot unused (fun _ => s.kmem.desc c) on noNext noPrev
  have recast :=
    inv.core.describe lt isSlot unused relinked' (fun _ => ⟨geometry, active, heads⟩) pool
  have usedIff : ∀ a ≠ c, (s'.hidden.Used a ↔ s.hidden.Used a) := by
    intro a ne
    have isSlot' : c = s.hidden.slot i := isSlot
    rw [relinked'.used_iff, used_modifyDesc lt isSlot']
    simp [ne]
  have moves : Moves s s' v { v with caches := c :: v.caches } t c := by
    refine Moves.of_sameBuddy recast.core relinked.toBuddy secretEq relinked.samePlace usedIff ?_ ?_
      (fun t' _ grows => absurd grows (inv.ungrown_of_transit moving active t'))
      (inv.unowned_of_owns owns)
    · exact fun a _ => congrArg (fun d => { d with errorCode := .ok }) (relinked.desc a)
    · intro a ne notUsed
      rw [kmem, s.kmem.addToCacheList_desc_of_ne ne]
      rintro rfl
      by_contra nonzero
      obtain ⟨rest, isList, _⟩ := inv.core.pool.linked.eq_cons_of_ne nonzero
      refine notUsed ((inv.core.pool.members _).mp ?_)
      rw [isList]
      exact List.mem_cons_self
  refine ⟨_, inv.moves moves phase ?_ (fun _ _ _ => Iff.rfl) trivial ?_ nofun nofun ?_ ?_⟩
  · intro a ne
    rw [made, Function.update_of_ne ne]
  · exact fun a owned => Option.some.inj (owned.symm.trans owns)
  · exact fun _ _ => (relinked.field KmemCache.destroying c).trans active
  · intro m isMade
    rw [made, Function.update_self] at isMade
    obtain rfl := Option.some.inj isMade
    refine ⟨(pool.members c).mp List.mem_cons_self,
      (relinked.field KmemCache.shape c).trans isShape, ?_, ?_⟩
    · exact forall_phase (P := fun q => q.owns ≠ some c) phase nofun (inv.unowned_of_owns owns)
    · intro b
      refine iff_of_false ?_ List.not_mem_nil
      rintro ⟨l, isSlab⟩
      exact unused (inv.core.slabs.used b _ isSlab)

end Teardown

end Xv6Slab
