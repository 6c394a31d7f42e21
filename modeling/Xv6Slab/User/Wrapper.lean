/-
**The cache functions of `user/kmemwrap.c`.**

Constructors and destructors run in user mode: the wrappers keep them in a table of their own
(`user/ucache.c`), next to the kernel's `cache_pool`. A function is known by its address and a null
pointer is `0`; what it writes is user memory and is left out, but every call of one is recorded.

* `kmemCacheCreate`, `kmemCacheAlloc`, `kmemCacheFree`, `kmemCacheDestroy` — the wrappers, over the
  system calls.
* `Agree` — a handle has an entry with its constructor and destructor exactly when the kernel's
  cache behind it is in use.
* `Guard` — the kernel has a slot and a layout for every create, destroyed caches have no live
  object, and handles and objects are live.
* `agree_of_guarded` — **then the two tables agree at every point, and every object has had its
  constructor and its destructor run.**
-/

import Xv6Slab.Kernel.File
import Xv6Slab.Kernel.Results

namespace Xv6Slab

namespace Wrapper

open Machine

/-! ### The table of `ucache.c` -/

/-- `MAX_UCACHES`. -/
abbrev maxUcaches : Nat := 128

/-- `struct ucent`. -/
structure Ucent where
  kc : UInt64
  ctor : Nat
  dtor : Nat
  objsz : Int32
  used : Bool

/-- `tab`. -/
abbrev Table := Nat → Ucent

/-- `find`: the index of the entry. -/
def find (tab : Table) (kc : UInt64) : Option Nat :=
  (List.range maxUcaches).find? fun i => (tab i).used && (tab i).kc == kc

/-- `insert`. -/
def insert (tab : Table) (kc : UInt64) (objsz : Int32) (ctor dtor : Nat) : Option Table :=
  ((List.range maxUcaches).find? fun i => !(tab i).used).map fun i =>
    Function.update tab i ⟨kc, ctor, dtor, objsz, true⟩

/-- `remove_entry`. -/
def removeEntry (tab : Table) (kc : UInt64) : Table :=
  match find tab kc with
  | none => tab
  | some i => Function.update tab i ⟨0, 0, 0, 0, false⟩

section Tables

variable {tab : Table} {kc : UInt64} {i : Nat}

theorem find_spec (found : find tab kc = some i) :
    i < maxUcaches ∧ (tab i).used = true ∧ (tab i).kc = kc := by
  have holds := List.find?_some found
  rw [Bool.and_eq_true, beq_iff_eq] at holds
  exact ⟨List.mem_range.mp (List.mem_of_find?_eq_some found), holds⟩

theorem find_exists (lt : i < maxUcaches) (used : (tab i).used = true) (isKc : (tab i).kc = kc) :
    ∃ j, find tab kc = some j := by
  cases found : find tab kc with
  | some j => exact ⟨j, rfl⟩
  | none =>
    have absent := List.find?_eq_none.mp found i (List.mem_range.mpr lt)
    simp [used, isKc] at absent

theorem insert_spec {objsz : Int32} {ctor dtor : Nat} {tab' : Table}
    (done : insert tab kc objsz ctor dtor = some tab') :
    ∃ j < maxUcaches, (tab j).used = false ∧
    tab' = Function.update tab j ⟨kc, ctor, dtor, objsz, true⟩ := by
  obtain ⟨j, found, rfl⟩ := Option.map_eq_some_iff.mp done
  exact ⟨j,
    List.mem_range.mp (List.mem_of_find?_eq_some found), by simpa using List.find?_some found, rfl⟩

theorem insert_full {objsz : Int32} {ctor dtor : Nat}
    (full : insert tab kc objsz ctor dtor = none) : ∀ j < maxUcaches, (tab j).used = true := by
  intro j lt
  simpa using List.find?_eq_none.mp (Option.map_eq_none_iff.mp full) j (List.mem_range.mpr lt)

end Tables

/-! ### The wrappers -/

/-- A process: the kernel under it, and its table. -/
structure User where
  kernel : Kernel
  tab : Table

/-- Calls of constructors and destructors, each with its object. -/
abbrev Ran := List (Nat × UInt64)

/-- A call of a constructor or destructor, unless it is null. -/
def runOn (fn : Nat) (obj : UInt64) : Ran := if fn = 0 then [] else [(fn, obj)]

section Wrappers

variable (p : Nat) (u : User)

/-- `kmem_cache_create`: the handle, or null. -/
def kmemCacheCreate (name : Option Name) (objsz : Int32) (ctor dtor : Nat) :
    Except Fault (User × UInt64) := do
  let (s, kc) ← u.kernel.sysKmemCacheCreate p name objsz
  let u := { u with kernel := s }
  if kc = 0 then return (u, 0)
  match insert u.tab kc objsz ctor dtor with
  | none =>
    let (s, _) ← u.kernel.sysKmemCacheDestroy p kc
    return ({ u with kernel := s }, 0)
  | some tab => return ({ u with tab := tab }, kc)

/-- `kmem_cache_alloc`: the object, or null. -/
def kmemCacheAlloc (cache : UInt64) : Except Fault (User × UInt64 × Ran) :=
  if cache = 0 then .ok (u, 0, [])
  else do
    let (s, obj) ← u.kernel.sysKmemCacheAlloc p cache
    let u := { u with kernel := s }
    if obj = 0 then return (u, 0, [])
    match find u.tab cache with
    | none => return (u, obj, [])
    | some i => return (u, obj, runOn (u.tab i).ctor obj)

/-- `kmem_cache_free`. -/
def kmemCacheFree (cache obj : UInt64) : Except Fault (User × UInt64 × Ran) :=
  if cache = 0 ∨ obj = 0 then .ok (u, minusOne, [])
  else do
    let ran := match find u.tab cache with
      | none => []
      | some i => runOn (u.tab i).dtor obj
    let (s, value) ← u.kernel.sysKmemCacheFree p cache obj
    return ({ u with kernel := s }, value, ran)

/-- `kmem_cache_destroy`: the entry goes whatever the kernel did. -/
def kmemCacheDestroy (cache : UInt64) : Except Fault (User × UInt64) :=
  if cache = 0 then .ok (u, minusOne)
  else do
    let (s, value) ← u.kernel.sysKmemCacheDestroy p cache
    return (⟨s, removeEntry u.tab cache⟩, value)

end Wrappers

/-! ### Sequences of calls -/

/-- A process with its history: the constructor and destructor given when a handle was last created,
the objects it holds with the handle of their cache, and for each object returned or freed the
function given at the creation of its cache, and the calls that were made. -/
structure State where
  user : User
  made : UInt64 → Nat × Nat
  live : List (UInt64 × UInt64)
  log : List (Nat × UInt64 × Ran)

/-- The calls of a program. -/
inductive Event
  | create (name : Option Name) (objsz : Int32) (ctor dtor : Nat)
  | alloc (cache : UInt64)
  | free (cache obj : UInt64)
  | destroy (cache : UInt64)

variable (p : Nat)

/-- One call. -/
def step (s : State) : Event → Option State
  | .create name objsz ctor dtor =>
    match kmemCacheCreate p s.user name objsz ctor dtor with
    | .ok (u, kc) =>
      some { s with
        user := u, made := if kc = 0 then s.made else Function.update s.made kc (ctor, dtor) }
    | .error _ => none
  | .alloc cache =>
    match kmemCacheAlloc p s.user cache with
    | .ok (u, obj, ran) => some (if obj = 0 then { s with user := u } else
        { s with
          user := u, live := (cache, obj) :: s.live,
          log := ((s.made cache).1, obj, ran) :: s.log })
    | .error _ => none
  | .free cache obj =>
    match kmemCacheFree p s.user cache obj with
    | .ok (u, _, ran) => some (if cache = 0 ∨ obj = 0 then { s with user := u } else
        { s with
          user := u, live := s.live.erase (cache, obj),
          log := ((s.made cache).2, obj, ran) :: s.log })
    | .error _ => none
  | .destroy cache =>
    match kmemCacheDestroy p s.user cache with
    | .ok (u, _) => some { s with user := u }
    | .error _ => none

/-- The cache behind a handle is in use, and is not one of `kmalloc`, which have no handle. -/
def InUse (s : Kernel) (kc : UInt64) : Prop :=
  (s.ukmem p).Used ((s.proc p).toKernel kc).toNat ∧
    ∀ j < kmallocNumCaches, (s.ukmem p).kmallocCaches j ≠ ((s.proc p).toKernel kc).toNat

/-- The two tables agree. -/
def Agree (s : State) : Prop :=
  ∀ kc, (∃ i < maxUcaches, (s.user.tab i).used = true ∧ (s.user.tab i).kc = kc ∧
    ((s.user.tab i).ctor, (s.user.tab i).dtor) = s.made kc) ↔ InUse p s.user.kernel kc

/-- The kernel accepts what it is asked for. For a create with a name and a positive size, as long
as there is a page for the name, `cache_pool` has an unused slot and there is a layout for the size;
and no slot has the handle null. A destroyed cache has no live object. Handles are live, and only
live objects are freed. -/
def Guard (s : State) : Event → Prop
  | .create name objsz _ _ => ¬ s.user.kernel.LosesName p (.cacheCreate name objsz) ∧
    ∀ i < maxNumCaches,
    (s.user.kernel.proc p).toUser (UInt64.ofNat ((s.user.kernel.ukmem p).slot i)) ≠ 0
  | .alloc cache => cache = 0 ∨ InUse p s.user.kernel cache
  | .free cache obj => cache = 0 ∨ obj = 0 ∨ (cache, obj) ∈ s.live
  | .destroy cache => cache = 0 ∨ InUse p s.user.kernel cache ∧
    ((s.user.kernel.ukmem p).desc ((s.user.kernel.proc p).toKernel cache).toNat).partialSlabs = 0 ∧
    ((s.user.kernel.ukmem p).desc ((s.user.kernel.proc p).toKernel cache).toNat).fullSlabs = 0

instance (s : Kernel) (kc : UInt64) : Decidable (InUse p s kc) :=
  have : Decidable ((s.ukmem p).Used ((s.proc p).toKernel kc).toNat) := Nat.decidableExistsLT _
  inferInstanceAs (Decidable (_ ∧ ∀ j < kmallocNumCaches, _))

instance (s : State) : ∀ e, Decidable (Guard p s e)
  | .create name objsz _ _ =>
    inferInstanceAs (Decidable (¬ s.user.kernel.LosesName p (.cacheCreate name objsz) ∧
      ∀ i < maxNumCaches, _ ≠ _))
  | .alloc cache => inferInstanceAs (Decidable (cache = 0 ∨ InUse p s.user.kernel cache))
  | .free cache obj => inferInstanceAs (Decidable (cache = 0 ∨ obj = 0 ∨ (cache, obj) ∈ s.live))
  | .destroy _ => inferInstanceAs (Decidable (_ = (0 : UInt64) ∨ InUse p s.user.kernel _ ∧
    _ = 0 ∧ _ = 0))

/-- A program right after `kmem_init`, with an empty table. -/
def start (s : Kernel) : State := ⟨⟨s, fun _ => ⟨0, 0, 0, 0, false⟩⟩, fun _ => (0, 0), [], []⟩

/-! ### The invariant -/

/-- The table has one entry for each cache in use, the functions in it are those given, and the
objects held are live. -/
structure Inv (arena : Nat) (pages : Int) (s : State) : Prop where
  arena : ∃ held, s.user.kernel.Arena p arena pages held ∧ ∀ o ∈ s.live, InUse p s.user.kernel o.1 ∧
    ∃ size, .object ((s.user.kernel.proc p).toKernel o.1).toNat
    ((s.user.kernel.proc p).toKernel o.2).toNat size ∈ held
  nodup : s.live.Nodup
  entry : ∀ i < maxUcaches, (s.user.tab i).used = true → InUse p s.user.kernel (s.user.tab i).kc ∧
    ((s.user.tab i).ctor, (s.user.tab i).dtor) = s.made (s.user.tab i).kc
  covered : ∀ kc, InUse p s.user.kernel kc → ∃ i < maxUcaches, (s.user.tab i).used = true ∧
      (s.user.tab i).kc = kc
  unique : ∀ i < maxUcaches, ∀ j < maxUcaches, (s.user.tab i).used = true →
    (s.user.tab j).used = true → (s.user.tab i).kc = (s.user.tab j).kc → i = j
  log : ∀ e ∈ s.log, e.2.2 = runOn e.1 e.2.1

section Steps

variable {p} {arena : Nat} {pages : Int} {s s' : State} {t t' : Kernel} {kc : UInt64}

theorem Inv.agree (inv : Inv p arena pages s) : Agree p s := by
  intro kc
  constructor
  · rintro ⟨i, lt, used, rfl, _⟩
    exact (inv.entry i lt used).1
  · intro inUse
    obtain ⟨i, lt, used, rfl⟩ := inv.covered kc inUse
    exact ⟨i, lt, used, rfl, (inv.entry i lt used).2⟩

/-- A handle stands for the same address as long as the window stays. -/
theorem toKernel_congr (window : (t'.proc p).window = (t.proc p).window) (u : UInt64) :
    (t'.proc p).toKernel u = (t.proc p).toKernel u := by
  simp only [Proc.window, Prod.mk.injEq] at window
  simp only [Proc.toKernel, window.1, window.2.2.1]

theorem inUse_congr (window : (t'.proc p).window = (t.proc p).window)
    (steady : Kernel.Arena.Steady t t' p) : InUse p t' kc ↔ InUse p t kc := by
  unfold InUse
  rw [toKernel_congr window, steady.used, steady.kmallocCaches]

/-- A call that changes neither the caches nor the table. -/
theorem Inv.keep (inv : Inv p arena pages s)
    (window : (s'.user.kernel.proc p).window = (s.user.kernel.proc p).window)
    (steady : Kernel.Arena.Steady s.user.kernel s'.user.kernel p) (tab : s'.user.tab = s.user.tab)
    (made : s'.made = s.made)
    (holds : ∃ held, s'.user.kernel.Arena p arena pages held ∧
      ∀ o ∈ s'.live, InUse p s.user.kernel o.1 ∧
      ∃ size, .object ((s.user.kernel.proc p).toKernel o.1).toNat
      ((s.user.kernel.proc p).toKernel o.2).toNat size ∈ held)
    (nodup : s'.live.Nodup) (log : ∀ e ∈ s'.log, e.2.2 = runOn e.1 e.2.1) :
    Inv p arena pages s' := by
  obtain ⟨held, holds, live⟩ := holds
  refine ⟨⟨held, holds, fun o isLive => ?_⟩, nodup, ?_, ?_, ?_, log⟩
  · rw [inUse_congr window steady, toKernel_congr window, toKernel_congr window]
    exact live o isLive
  · intro i lt used
    rw [tab] at used ⊢
    rw [inUse_congr window steady, made]
    exact inv.entry i lt used
  · intro kc inUse
    rw [tab]
    exact inv.covered kc ((inUse_congr window steady).mp inUse)
  · rw [tab]
    exact inv.unique

/-- The entry that `find` returns is that of the cache. -/
theorem Inv.find_eq (inv : Inv p arena pages s) (inUse : InUse p s.user.kernel kc) :
    ∃ i, find s.user.tab kc = some i ∧ ((s.user.tab i).ctor, (s.user.tab i).dtor) = s.made kc := by
  obtain ⟨i, lt, used, isKc⟩ := inv.covered kc inUse
  obtain ⟨j, found⟩ := find_exists lt used isKc
  obtain ⟨ltJ, usedJ, isKcJ⟩ := find_spec found
  refine ⟨j, found, ?_⟩
  rw [(inv.entry j ltJ usedJ).2, isKcJ]

/-- `kmem_cache_alloc` of a cache in use: null, or an object with the constructor run on it. -/
theorem Inv.allocCall (inv : Inv p arena pages s) {cache obj : UInt64} {u : User} {ran : Ran}
    (nonnull : cache ≠ 0) (inUse : InUse p s.user.kernel cache)
    (call : kmemCacheAlloc p s.user cache = .ok (u, obj, ran)) :
    u.tab = s.user.tab ∧ (u.kernel.proc p).window = (s.user.kernel.proc p).window ∧
      (obj ≠ 0 → ran = runOn (s.made cache).1 obj) ∧
      ∃ kobj, s.user.kernel.allocObject p cache = .ok (u.kernel, kobj) ∧
        obj = if kobj = 0 then 0 else (u.kernel.proc p).toUser (UInt64.ofNat kobj) := by
  unfold kmemCacheAlloc at call
  rw [if_neg nonnull] at call
  obtain ⟨⟨t, value⟩, sysAlloc, call⟩ := bind_eq_ok call
  have window := Kernel.exec_window (q := p) (fun _ _ => by simp)
    (show (Call.cacheAlloc cache).exec s.user.kernel p = .ok (t, value) from sysAlloc)
  obtain ⟨⟨t', kobj⟩, alloc, translated⟩ := bind_eq_ok sysAlloc
  have translated := Except.ok.inj translated
  rw [Prod.mk.injEq] at translated
  obtain ⟨rfl, isValue⟩ := translated
  dsimp only at call
  split at call
  next null =>
    cases call
    exact ⟨rfl, window, fun contra => absurd rfl contra, kobj, alloc, null.symm.trans isValue.symm⟩
  next =>
    obtain ⟨i, found, isMade⟩ := inv.find_eq inUse
    rw [found] at call
    cases call
    rw [← isMade]
    exact ⟨rfl, window, fun _ => rfl, kobj, alloc, isValue.symm⟩

/-- A handle or an object is known by the address it stands for. -/
theorem toKernel_inj {q : Proc} {u u' : UInt64} (same : q.toKernel u = q.toKernel u') : u = u' := by
  rw [← q.toUser_toKernel u, same, q.toUser_toKernel]

theorem toNat_ofNat {n : Nat} (small : n < 2 ^ 64) : (UInt64.ofNat n).toNat = n := by
  rw [UInt64.toNat_ofNat']
  exact Nat.mod_eq_of_lt small

theorem Inv.alloc (inv : Inv p arena pages s) {cache : UInt64} (allowed : Guard p s (.alloc cache))
    (taken : step p s (.alloc cache) = some s') : Inv p arena pages s' := by
  simp only [step] at taken
  split at taken
  next u obj ran call =>
    cases taken
    by_cases null : cache = 0
    · simp only [kmemCacheAlloc, if_pos null] at call
      cases call
      exact inv
    have inUse := allowed.resolve_left null
    obtain ⟨tab, window, constructed, kobj, alloc, value⟩ := inv.allocCall null inUse call
    obtain ⟨held, holds, live⟩ := inv.arena
    obtain ⟨steady, cases⟩ := holds.allocObject inUse.1 alloc
    rcases cases with ⟨rfl, holds'⟩ | ⟨nonzero, small, size, fresh, holds'⟩
    · rw [if_pos rfl] at value
      rw [if_pos value]
      exact inv.keep window steady tab rfl ⟨held, holds', live⟩ inv.nodup inv.log
    · rw [if_neg nonzero] at value
      have back : (s.user.kernel.proc p).toKernel obj = UInt64.ofNat kobj := by
        rw [← toKernel_congr window, value, Proc.toKernel_toUser]
      by_cases zero : obj = 0
      · rw [if_pos zero]
        refine inv.keep window steady tab rfl ⟨_, holds', fun o isLive => ?_⟩ inv.nodup inv.log
        obtain ⟨used, size', isHeld⟩ := live o isLive
        exact ⟨used, size', List.mem_cons_of_mem _ isHeld⟩
      · rw [if_neg zero]
        refine inv.keep window steady tab rfl ⟨_, holds', fun o isLive => ?_⟩ ?_ ?_
        · rcases List.mem_cons.mp isLive with rfl | old
          · refine ⟨inUse, size, ?_⟩
            rw [back, toNat_ofNat small]
            exact List.mem_cons_self
          · obtain ⟨used, size', isHeld⟩ := live o old
            exact ⟨used, size', List.mem_cons_of_mem _ isHeld⟩
        · refine List.nodup_cons.mpr ⟨fun old => ?_, inv.nodup⟩
          obtain ⟨_, size', isHeld⟩ := live _ old
          rw [back, toNat_ofNat small] at isHeld
          exact fresh size' isHeld
        · intro e isLogged
          rcases List.mem_cons.mp isLogged with rfl | old
          · exact constructed zero
          · exact inv.log e old
  next => cases taken

/-- `kmem_cache_free` of an object that the program holds. -/
theorem Inv.free (inv : Inv p arena pages s) {cache obj : UInt64}
    (allowed : Guard p s (.free cache obj)) (taken : step p s (.free cache obj) = some s') :
    Inv p arena pages s' := by
  simp only [step] at taken
  split at taken
  next u value ran call =>
    cases taken
    by_cases null : cache = 0 ∨ obj = 0
    · simp only [kmemCacheFree, if_pos null] at call
      cases call
      rw [if_pos null]
      exact inv
    rw [if_neg null]
    have isLive : (cache, obj) ∈ s.live := by
      rcases allowed with zero | zero | isLive
      · exact absurd (.inl zero) null
      · exact absurd (.inr zero) null
      · exact isLive
    obtain ⟨held, holds, live⟩ := inv.arena
    obtain ⟨inUse, size, isHeld⟩ := live _ isLive
    obtain ⟨i, found, isMade⟩ := inv.find_eq inUse
    unfold kmemCacheFree at call
    rw [if_neg null, found] at call
    obtain ⟨⟨t, value'⟩, sysFree, call⟩ := bind_eq_ok call
    cases call
    have window := Kernel.exec_window (q := p) (fun _ _ => by simp)
      (show (Call.cacheFree cache obj).exec s.user.kernel p = .ok (t, value) from sysFree)
    obtain ⟨steady, freed⟩ := holds.free isHeld sysFree
    refine inv.keep window steady rfl rfl ?_ (inv.nodup.erase _) ?_
    · rcases freed with holds' | holds'
      · exact ⟨held, holds', fun o isLive' => live o (List.mem_of_mem_erase isLive')⟩
      · refine ⟨_, holds', fun o isLive' => ?_⟩
        obtain ⟨other, isLive'⟩ := inv.nodup.mem_erase_iff.mp isLive'
        obtain ⟨used, size', isHeld'⟩ := live o isLive'
        refine ⟨used, size', (List.mem_erase_of_ne fun same => other ?_).mpr isHeld'⟩
        rw [Allocation.object.injEq] at same
        exact Prod.ext (toKernel_inj (UInt64.toNat_inj.mp same.1))
          (toKernel_inj (UInt64.toNat_inj.mp same.2.1))
    · intro e isLogged
      rcases List.mem_cons.mp isLogged with rfl | old
      · rw [← isMade]
      · exact inv.log e old
  next => cases taken

/-- `kmem_cache_destroy` of a cache in use without live objects: both tables lose it. -/
theorem Inv.destroy (inv : Inv p arena pages s) {cache : UInt64}
    (allowed : Guard p s (.destroy cache)) (taken : step p s (.destroy cache) = some s') :
    Inv p arena pages s' := by
  simp only [step] at taken
  split at taken
  next u value call =>
    cases taken
    by_cases null : cache = 0
    · simp only [kmemCacheDestroy, if_pos null] at call
      cases call
      exact inv
    obtain ⟨inUse, noPartial, noFull⟩ := allowed.resolve_left null
    unfold kmemCacheDestroy at call
    rw [if_neg null] at call
    obtain ⟨⟨t, value'⟩, sysDestroy, call⟩ := bind_eq_ok call
    cases call
    have window := Kernel.exec_window (q := p) (fun _ _ => by simp)
      (show (Call.cacheDestroy cache).exec s.user.kernel p = .ok (t, value) from sysDestroy)
    obtain ⟨held, holds, live⟩ := inv.arena
    obtain ⟨holds', kmalloc, _, usedIff⟩ :=
      holds.destroy inUse.1 inUse.2 noPartial noFull sysDestroy
    have inUseIff : ∀ kc, InUse p t kc ↔ kc ≠ cache ∧ InUse p s.user.kernel kc := by
      intro kc
      unfold InUse
      rw [toKernel_congr window, usedIff, kmalloc, and_assoc]
      refine and_congr_left fun _ => not_congr ⟨fun same => toKernel_inj (UInt64.toNat_inj.mp same),
        fun same => ?_⟩
      rw [same]
    obtain ⟨i, found, _⟩ := inv.find_eq inUse
    obtain ⟨lt, used, isKc⟩ := find_spec found
    have removed :
        removeEntry s.user.tab cache = Function.update s.user.tab i ⟨0, 0, 0, 0, false⟩ := by
      simp only [removeEntry, found]
    have old : ∀ j, (removeEntry s.user.tab cache j).used = true →
        j ≠ i ∧ removeEntry s.user.tab cache j = s.user.tab j := by
      intro j usedJ
      rw [removed] at usedJ ⊢
      by_cases same : j = i
      · rw [same, Function.update_self] at usedJ
        cases usedJ
      · exact ⟨same, Function.update_of_ne same ..⟩
    refine ⟨⟨held, holds', fun o isLive => ?_⟩, inv.nodup, ?_, ?_, ?_, inv.log⟩
    · obtain ⟨usedO, size, isHeld⟩ := live o isLive
      refine ⟨⟨?_, ?_⟩, size, ?_⟩
      · rw [toKernel_congr window]
        exact (holds'.sound.used_of_held isHeld).1
      · rw [toKernel_congr window, kmalloc]
        exact usedO.2
      · rw [toKernel_congr window, toKernel_congr window]
        exact isHeld
    · intro j ltJ usedJ
      obtain ⟨other, same⟩ := old j usedJ
      simp only [same] at usedJ ⊢
      obtain ⟨inUseJ, isMade⟩ := inv.entry j ltJ usedJ
      refine ⟨(inUseIff _).mpr ⟨fun isCache => other ?_, inUseJ⟩, isMade⟩
      exact inv.unique j ltJ i lt usedJ used (isCache.trans isKc.symm)
    · intro kc inUseKc
      obtain ⟨other, before⟩ := (inUseIff kc).mp inUseKc
      obtain ⟨j, ltJ, usedJ, isKcJ⟩ := inv.covered kc before
      have ne : j ≠ i := by
        rintro rfl
        exact other (isKcJ.symm.trans isKc)
      refine ⟨j, ltJ, ?_⟩
      simp only [removed, Function.update_of_ne ne]
      exact ⟨usedJ, isKcJ⟩
    · intro j ltJ j' ltJ' usedJ usedJ' same
      obtain ⟨_, sameJ⟩ := old j usedJ
      obtain ⟨_, sameJ'⟩ := old j' usedJ'
      simp only [sameJ] at usedJ same
      simp only [sameJ'] at usedJ' same
      exact inv.unique j ltJ j' ltJ' usedJ usedJ' same
  next => cases taken

/-- As long as the kernel's pool has room, so has the table: the handles in it stand for distinct
slots. -/
theorem Inv.room (inv : Inv p arena pages s) {i : Nat} (lt : i < maxNumCaches)
    (unused : ¬ (s.user.kernel.ukmem p).Used ((s.user.kernel.ukmem p).slot i)) :
    ∃ j < maxUcaches, (s.user.tab j).used = false := by
  by_contra full
  push Not at full
  have used : ∀ j < maxUcaches, (s.user.tab j).used = true := fun j ltJ => by simpa using full j ltJ
  have slots : ∀ j : Fin maxUcaches, ∃ m : Fin maxNumCaches,
      ((s.user.kernel.proc p).toKernel (s.user.tab j).kc).toNat = (s.user.kernel.ukmem p).slot m ∧
      (m : Nat) ≠ i := by
    intro j
    have inUse := (inv.entry j j.2 (used j j.2)).1.1
    obtain ⟨m, ltM, isSlot, _⟩ := inUse
    refine ⟨⟨m, ltM⟩, isSlot, ?_⟩
    rintro rfl
    rw [← isSlot] at unused
    exact unused (inv.entry j j.2 (used j j.2)).1.1
  choose slotOf isSlot notI using slots
  have injective : Function.Injective slotOf := by
    intro j j' same
    have sameAddr : ((s.user.kernel.proc p).toKernel (s.user.tab j).kc).toNat =
        ((s.user.kernel.proc p).toKernel (s.user.tab j').kc).toNat := by rw [isSlot, isSlot, same]
    have sameKc := toKernel_inj (UInt64.toNat_inj.mp sameAddr)
    exact Fin.ext (inv.unique j j.2 j' j'.2 (used j j.2) (used j' j'.2) sameKc)
  obtain ⟨j, hits⟩ := Finite.injective_iff_surjective.mp injective ⟨i, lt⟩
  exact notI j (congrArg Fin.val hits)

/-- The handle of a new cache is the only one that comes into use. -/
theorem Inv.inUse_created (inv : Inv p arena pages s) {d : Nat} {name : Option Name} {objsz : Int32}
    (create : s.user.kernel.createCache p name objsz = .ok (t, some d)) (nonnull : d ≠ 0)
    (window : (t.proc p).window = (s.user.kernel.proc p).window) :
    ¬ InUse p s.user.kernel ((t.proc p).toUser (UInt64.ofNat d)) ∧
    (∀ kc, InUse p t kc ↔ kc = (t.proc p).toUser (UInt64.ofNat d) ∨ InUse p s.user.kernel kc) ∧
    ∃ i < maxNumCaches, (s.user.kernel.ukmem p).slot i = d ∧ ¬ (s.user.kernel.ukmem p).Used d := by
  obtain ⟨held, holds, _⟩ := inv.arena
  obtain ⟨held', holds', _, kmalloc, pool, ⟨null, _⟩ | ⟨d', eq, _, unused, usedIff⟩⟩ :=
    holds.createCache create
  · exact absurd null nonnull
  cases eq
  have used : (t.ukmem p).Used d := (usedIff d).mpr (.inl rfl)
  obtain ⟨v, core, _⟩ := holds'.sound.view
  have small := (core.pool.used_bounds used).2
  have back :
      (s.user.kernel.proc p).toKernel ((t.proc p).toUser (UInt64.ofNat d)) = UInt64.ofNat d := by
    rw [← toKernel_congr window, Proc.toKernel_toUser]
  refine ⟨?_, fun kc => ⟨?_, ?_⟩, ?_⟩
  · rintro ⟨usedD, _⟩
    rw [back, toNat_ofNat small] at usedD
    exact unused usedD
  · rintro ⟨usedKc, notKmalloc⟩
    rw [toKernel_congr window] at usedKc notKmalloc
    rcases (usedIff _).mp usedKc with isNew | old
    · left
      refine toKernel_inj (q := s.user.kernel.proc p) ?_
      rw [back, ← isNew, UInt64.ofNat_toNat]
    · rw [kmalloc] at notKmalloc
      exact .inr ⟨old, notKmalloc⟩
  · rintro (rfl | ⟨usedKc, notKmalloc⟩)
    · unfold InUse
      rw [toKernel_congr window, back, toNat_ofNat small, kmalloc]
      refine ⟨used, fun j lt same => unused ?_⟩
      rw [← same]
      exact (holds.sound.kmalloc j lt).1
    · unfold InUse
      rw [toKernel_congr window, kmalloc]
      exact ⟨(usedIff _).mpr (.inr usedKc), notKmalloc⟩
  · obtain ⟨i, lt, isSlot, _⟩ := used
    refine ⟨i, lt, ?_, unused⟩
    rw [isSlot]
    unfold Kmem.slot
    rw [pool]

/-- A new cache with its entry in the table. -/
theorem Inv.created (inv : Inv p arena pages s) {d : Nat} {name : Option Name} {objsz : Int32}
    {ctor dtor : Nat} {tab : Table}
    (create : s.user.kernel.createCache p name objsz = .ok (t, some d)) (nonnull : d ≠ 0)
    (window : (t.proc p).window = (s.user.kernel.proc p).window)
    (inserted : insert s.user.tab ((t.proc p).toUser (UInt64.ofNat d)) objsz ctor dtor = some tab) :
    Inv p arena pages
      ⟨⟨t, tab⟩, Function.update s.made ((t.proc p).toUser (UInt64.ofNat d)) (ctor, dtor), s.live,
        s.log⟩ := by
  obtain ⟨notBefore, inUseIff, _⟩ := inv.inUse_created create nonnull window
  obtain ⟨held, holds, live⟩ := inv.arena
  obtain ⟨held', holds', sub, _⟩ := holds.createCache create
  obtain ⟨j, lt, free, rfl⟩ := insert_spec inserted
  generalize (t.proc p).toUser (UInt64.ofNat d) = kc at *
  have old : ∀ i, (s.user.tab i).used = true → i ≠ j := by
    rintro i used rfl
    rw [free] at used
    cases used
  refine ⟨⟨held', holds', fun o isLive => ?_⟩, inv.nodup, ?_, ?_, ?_, inv.log⟩
  · obtain ⟨inUse, size, isHeld⟩ := live o isLive
    refine ⟨(inUseIff _).mpr (.inr inUse), size, ?_⟩
    rw [toKernel_congr window, toKernel_congr window]
    exact sub isHeld
  · intro i ltI used
    by_cases here : i = j
    · subst here
      simp only [Function.update_self]
      exact ⟨(inUseIff _).mpr (.inl rfl), trivial⟩
    · simp only [Function.update_of_ne here] at used ⊢
      obtain ⟨inUse, isMade⟩ := inv.entry i ltI used
      refine ⟨(inUseIff _).mpr (.inr inUse), ?_⟩
      have ne : (s.user.tab i).kc ≠ kc := by
        rintro rfl
        exact notBefore inUse
      rw [Function.update_of_ne ne]
      exact isMade
  · intro kc' inUse
    rcases (inUseIff kc').mp inUse with rfl | before
    · exact ⟨j, lt, by simp only [Function.update_self], by simp only [Function.update_self]⟩
    · obtain ⟨i, ltI, used, isKc⟩ := inv.covered kc' before
      refine ⟨i, ltI, ?_⟩
      simp only [Function.update_of_ne (old i used)]
      exact ⟨used, isKc⟩
  · intro i ltI i' ltI' used used' same
    by_cases here : i = j <;> by_cases here' : i' = j
    · rw [here, here']
    · subst here
      simp only [Function.update_self, Function.update_of_ne here'] at used' same
      rw [same] at notBefore
      exact absurd (inv.entry i' ltI' used').1 notBefore
    · subst here'
      simp only [Function.update_self, Function.update_of_ne here] at used same
      rw [← same] at notBefore
      exact absurd (inv.entry i ltI used).1 notBefore
    · simp only [Function.update_of_ne here, Function.update_of_ne here'] at used used' same
      exact inv.unique i ltI i' ltI' used used' same

/-- `kmem_cache_create`: both tables gain the cache, or neither. -/
theorem Inv.create (inv : Inv p arena pages s) {name : Option Name} {objsz : Int32}
    {ctor dtor : Nat} (allowed : Guard p s (.create name objsz ctor dtor))
    (taken : step p s (.create name objsz ctor dtor) = some s') :
    Inv p arena pages s' := by
  simp only [step] at taken
  split at taken
  next u kc call =>
    cases taken
    unfold kmemCacheCreate at call
    obtain ⟨⟨t, value⟩, sysCreate, call⟩ := bind_eq_ok call
    have window := Kernel.exec_window (q := p) (fun _ _ => by simp)
      (show (Call.cacheCreate name objsz).exec s.user.kernel p = .ok (t, value) from sysCreate)
    obtain ⟨⟨t', c⟩, create, translated⟩ := bind_eq_ok sysCreate
    cases c with
    | none =>
      cases translated
      cases call
      obtain ⟨held, holds, live⟩ := inv.arena
      obtain ⟨held', holds', sub, kmalloc, pool, ⟨_, used⟩ | ⟨_, eq, _⟩⟩ := holds.createCache create
      · refine inv.keep window ⟨used, kmalloc, pool⟩ rfl (by simp) ⟨held', holds',
          fun o isLive => ?_⟩ inv.nodup inv.log
        obtain ⟨inUse, size, isHeld⟩ := live o isLive
        exact ⟨inUse, size, sub isHeld⟩
      · cases eq
    | some d =>
      cases translated
      obtain ⟨keepsName, handles⟩ := allowed
      have nonnull : d ≠ 0 := by
        obtain ⟨held, holds, _⟩ := inv.arena
        obtain ⟨none, _⟩ | ⟨_, _, isSome, loses, _⟩ := holds.createCache_named create
        · cases none
        · cases isSome
          exact fun null => keepsName (loses.mpr null)
      obtain ⟨_, _, i, lt, rfl, unused⟩ := inv.inUse_created create nonnull window
      have nonzero := handles i lt
      rw [← Kernel.toUser_of_window window] at nonzero
      dsimp only at call
      rw [if_neg nonzero] at call
      cases inserted : insert s.user.tab ((t.proc p).toUser
        (UInt64.ofNat ((s.user.kernel.ukmem p).slot i))) objsz ctor dtor with
      | none =>
        obtain ⟨j, ltJ, free⟩ := inv.room lt unused
        rw [insert_full inserted j ltJ] at free
        cases free
      | some tab =>
        rw [inserted] at call
        cases call
        simp only [if_neg nonzero]
        exact inv.created create nonnull window inserted
  next => cases taken

/-- **Every guarded call keeps the invariant.** -/
theorem Inv.step {e : Event} (inv : Inv p arena pages s) (allowed : Guard p s e)
    (taken : step p s e = some s') :
    Inv p arena pages s' := by
  cases e with
  | create name objsz ctor dtor => exact inv.create allowed taken
  | alloc cache => exact inv.alloc allowed taken
  | free cache obj => exact inv.free allowed taken
  | destroy cache => exact inv.destroy allowed taken

end Steps

/-! ### Every sequence of calls -/

section Runs

variable {p} {k₀ : Kmem} {space₀ : Nat} {blockNum₀ : Int} {held₀ : List Allocation} {s₀ s₁ : Kernel}
  {s : State}

/-- After `sys_kmem_init` no handle is in use and the table is empty. -/
theorem inv_start {space : UInt64} {pages : Int} {k k' : Kmem} {arena : Nat}
    (done : Kernel.Initialised s₀ s₁ p space pages k k' arena)
    (kernel : Kmem.Sound s₀.kmem held₀ space₀ blockNum₀) (given : Space space₀ blockNum₀)
    (head : (s₀.proc p).ukmem.headOfCacheList = 0) (tail : (s₀.proc p).ukmem.tailOfCacheList = 0) :
    Inv p arena pages (start s₁) := by
  obtain ⟨holds, caches⟩ := done.arena kernel given head tail
  have noUse : ∀ kc, ¬ InUse p s₁ kc := by
    rintro kc ⟨used, notKmalloc⟩
    obtain ⟨j, lt, isCache⟩ := caches _ used
    exact notKmalloc j lt isCache
  refine ⟨⟨[], holds, fun o isLive => absurd isLive List.not_mem_nil⟩, List.nodup_nil,
    ?_, ?_, ?_, ?_⟩
  · exact fun i _ used => by cases used
  · exact fun kc inUse => absurd inUse (noUse kc)
  · exact fun i _ j _ used => by cases used
  · exact fun e isLogged => absurd isLogged List.not_mem_nil

/-- **In every sequence of calls that meets the guard, at every point a handle has an entry with the
constructor and destructor given at its creation exactly when the kernel's cache behind it is in
use, and every object returned or freed has had its constructor or destructor run.** -/
theorem agree_of_guarded (given : Space space₀ blockNum₀) (head₀ : k₀.headOfCacheList = 0)
    (tail₀ : k₀.tailOfCacheList = 0) (kernel : Kmem.Run k₀ space₀ blockNum₀ true s₀.kmem held₀)
    (global : s₀.active = none) (head : (s₀.proc p).ukmem.headOfCacheList = 0)
    (tail : (s₀.proc p).ukmem.tailOfCacheList = 0) {space : UInt64} {pages : Int32}
    (init : s₀.sysKmemInit p space pages = .ok (s₁, 0)) (events : List Event)
    (guarded : Along (step p) (Guard p) (start s₁) events)
    (reached : run (step p) (start s₁) events = some s) :
    Agree p s ∧ ∀ e ∈ s.log, e.2.2 = runOn e.1 e.2.1 := by
  obtain ⟨k, k', arena, done⟩ := Kernel.sysKmemInit_ok global init
  have begins := inv_start done (kernel.sound given head₀ tail₀) given head tail
  have inv : Inv p arena pages.toInt s :=
    inv_of_run (fun _ _ _ inv allowed taken => inv.step allowed taken) events begins guarded reached
  exact ⟨inv.agree, inv.log⟩

/-- Processes with zero fields over an allocator. -/
def freshKernel (k : Kmem) : Kernel := ⟨k, fun _ => ⟨0, 0, 0, false, Kmem.zeroed⟩, none⟩

/-- A cache with constructor `0x500` and destructor `0x600`, one object, and everything given
back. -/
def oneRound : List Event :=
  [.create (some ⟨[0x63], by decide⟩) 64 0x500 0x600, .alloc 18688, .free 18688 135328,
    .destroy 18688]

theorem agree_of_guarded_oneRound : ∃ k s₁ s, Kmem.Run Kmem.zeroed 0x80030000 32720 true k [] ∧
    (freshKernel k).sysKmemInit 3 0x4000 32 = .ok (s₁, 0) ∧
    Along (step 3) (Guard 3) (start s₁) oneRound ∧
    run (step 3) (start s₁) oneRound = some s ∧ s.log = [(0x600, 135328, [(0x600, 135328)]),
      (0x500, 135328, [(0x500, 135328)])] ∧ Agree 3 s ∧ ∀ e ∈ s.log, e.2.2 = runOn e.1 e.2.1 := by
  obtain ⟨⟨s₁, value⟩, call, observed⟩ :=
    exists_ok ((Kmem.zeroed.kmemInit 0x80030000 32720 true) >>= fun k =>
    (freshKernel k).sysKmemInit 3 0x4000 32)
      (fun r => (r.2, decide (Along (step 3) (Guard 3) (start r.1) oneRound),
        (run (step 3) (start r.1) oneRound).any fun (s : State) =>
        s.log = [(0x600, 135328, [(0x600, 135328)]), (0x500, 135328, [(0x500, 135328)])]))
    (0, true, true) (by decide +kernel)
  obtain ⟨k, boot, init⟩ := bind_eq_ok call
  simp only [Prod.mk.injEq, decide_eq_true_eq, Option.any_eq_true] at observed
  obtain ⟨rfl, guarded, s, reached, logged⟩ := observed
  exact ⟨k, s₁, s, .init boot, init, guarded, reached, logged,
    agree_of_guarded space_kernelHeap rfl rfl (.init boot) rfl rfl rfl init oneRound
    guarded reached⟩

/-- A destroy that the kernel refuses, since an object is live, and another alloc. -/
def refusedDestroy : List Event :=
  [.create (some ⟨[0x63], by decide⟩) 64 0x500 0x600, .alloc 18688, .destroy 18688, .alloc 18688]

/-- After a refused destroy the cache is in use without an entry, and its next object is not
constructed; after a create that the kernel refuses there is an entry without a cache. -/
theorem refusedDestroy_disagrees : ∃ k s₁ s s', Kmem.Run Kmem.zeroed 0x80030000 32720 true k [] ∧
    (freshKernel k).sysKmemInit 3 0x4000 32 = .ok (s₁, 0) ∧
    run (step 3) (start s₁) refusedDestroy = some s ∧ InUse 3 s.user.kernel 18688 ∧
    (∀ i < maxUcaches, (s.user.tab i).used = false) ∧ (0x500, 135392, []) ∈ s.log ∧ ¬ Agree 3 s ∧
    run (step 3) (start s₁) [.create (some ⟨[0x63], by decide⟩) 300000 0x500 0x600] = some s' ∧
    (s'.user.tab 0).used = true ∧ (s'.user.tab 0).kc = 18446744071524646912 ∧
    ¬ InUse 3 s'.user.kernel 18446744071524646912 := by
  obtain ⟨⟨s₁, value⟩, call, observed⟩ :=
    exists_ok ((Kmem.zeroed.kmemInit 0x80030000 32720 true) >>= fun k =>
    (freshKernel k).sysKmemInit 3 0x4000 32)
      (fun r => (r.2, (run (step 3) (start r.1) refusedDestroy).any fun (s : State) =>
      InUse 3 s.user.kernel 18688 ∧ (∀ i < maxUcaches, (s.user.tab i).used = false) ∧
      (0x500, 135392, []) ∈ s.log,
      (run (step 3) (start r.1) [.create (some ⟨[0x63], by decide⟩) 300000 0x500 0x600]).any fun
      (s : State) =>
        (s.user.tab 0).used = true ∧ (s.user.tab 0).kc = 18446744071524646912 ∧
          ¬ InUse 3 s.user.kernel 18446744071524646912))
    (0, true, true) (by decide +kernel)
  obtain ⟨k, boot, init⟩ := bind_eq_ok call
  simp only [Prod.mk.injEq, decide_eq_true_eq, Option.any_eq_true] at observed
  obtain ⟨rfl, ⟨s, reached, inUse, noEntry, logged⟩, s', reached', used, kc, unused⟩ := observed
  refine ⟨k, s₁, s, s', .init boot, init, reached, inUse, noEntry, logged, fun agree => ?_,
    reached', used, kc, unused⟩
  obtain ⟨i, lt, used, _⟩ := (agree 18688).mpr inUse
  rw [noEntry i lt] at used
  cases used

end Runs

end Wrapper

end Xv6Slab
