/-
**`active_kmem` after an allocator system call.**

Every call that selects the allocator of its process with `kmem_push` has to give the selection back
with `kmem_pop`. Two returns of `sys_k_kmem_cache_create` and two of `sys_k_kmem_cache_alloc` leave
it out (`Unpaired`).

* `exec_active` — the selection after a call: the one before it, or the process of an unpaired
  return.
* `Arena.returns` — a call of a process with an arena returns, as long as it names live caches and
  allocations.
* `restored_iff` — **a call restores `active_kmem` exactly when it does not take an unpaired
  return**; in every sequence of calls that takes none, the kernel stays on its own allocator.
-/

import Xv6Slab.Kernel.Arena
import Xv6Slab.Kernel.Window

namespace Xv6Slab

open Chains Machine

/-! ### `kmem_cache_info` returns -/

namespace Kmem

variable {k : Kmem} {held : List Allocation} {space : Nat} {blockNum : Int} {c : Nat}

/-- A walk over a list of slabs returns when the fuel covers the list. -/
theorem walks_return {prev : Nat → Nat} : ∀ {l : List Nat} {before start : Nat},
    Linked (slabNext k.mem) prev 0 before start l → ∀ fuel, l.length < fuel →
      (∃ n, k.getNumSlabs fuel start = .ok n) ∧ ∃ n, k.getPartialInUse fuel start = .ok n := by
  intro l before start linked
  induction linked with
  | nil =>
    intro fuel enough
    obtain ⟨fuel, rfl⟩ := Nat.exists_eq_succ_of_ne_zero (Nat.ne_of_gt enough)
    exact ⟨⟨0, if_pos rfl⟩, 0, if_pos rfl⟩
  | cons nonnull _ _ ih =>
    intro fuel enough
    obtain ⟨fuel, rfl⟩ := Nat.exists_eq_succ_of_ne_zero (Nat.ne_of_gt (Nat.zero_lt_of_lt enough))
    obtain ⟨⟨n, count⟩, m, inUse⟩ := ih fuel (Nat.lt_of_succ_lt_succ enough)
    rw [getNumSlabs, getPartialInUse, if_neg nonnull, if_neg nonnull, count, inUse]
    exact ⟨⟨_, rfl⟩, _, rfl⟩

theorem Sound.kmemCacheInfo_returns (sound : Sound k held space blockNum) (used : k.Used c) :
    ∃ counts, k.kmemCacheInfo c = .ok counts := by
  obtain ⟨v, core, _⟩ := sound.view
  have walks : ∀ list, (∃ n, k.getNumSlabs (2 ^ 64 + 1) ((k.desc c).head list) = .ok n) ∧
      ∃ n, k.getPartialInUse (2 ^ 64 + 1) ((k.desc c).head list) = .ok n := by
    intro list
    have linked := core.lists.linked c used list
    refine walks_return linked _ (Nat.lt_succ_of_le ?_)
    -- the slabs of the list are distinct addresses
    have below : (v.lists c list).toFinset ⊆ Finset.range (2 ^ 64) := by
      intro s member
      exact Finset.mem_range.mpr (core.lists.small c list s (List.mem_toFinset.mp member))
    have bound := Finset.card_le_card below
    rwa [Finset.card_range, List.toFinset_card_of_nodup linked.nodup] at bound
  obtain ⟨empty, isEmpty⟩ := (walks .empty).1
  obtain ⟨⟨partials, isPartial⟩, inUse, isInUse⟩ := walks .partials
  obtain ⟨full, isFull⟩ := (walks .full).1
  unfold kmemCacheInfo
  simp only [KmemCache.head] at isEmpty isPartial isFull isInUse
  rw [isEmpty, isPartial, isFull, isInUse]
  exact ⟨_, rfl⟩

end Kmem

namespace Kernel

variable {s s' : Kernel} {p : Nat}

/-- **A return without `kmem_pop`**, while another allocator was selected. `copyinstr` fails, or
there is no page for the name; there is no window, or the handle stands for the null address. -/
def Unpaired (s : Kernel) (p : Nat) : Call → Prop
  | .cacheCreate uname size => s.active ≠ some p ∧ 0 < size.toInt ∧ (s.proc p).ukmemInited = true ∧
      (uname = none ∨ ∃ k, (s.ukmem p).kalloc = .ok (k, 0))
  | .cacheAlloc hc => s.active ≠ some p ∧ (s.proc p).ukmemInited = true ∧
      (NoWindow (s.proc p) ∨ (s.proc p).toKernel hc = 0)
  | _ => False

/-- Whenever the call returns, the selection is what it was. -/
def Restored (s : Kernel) (p : Nat) (call : Call) : Prop :=
  ∀ s' value, call.exec s p = .ok (s', value) → s'.active = s.active

/-! ### The selection after each call -/

theorem active_setCurr (k : Kmem) : (s.setCurr k).active = s.active := by
  unfold setCurr
  split <;> rfl

/-- `sys_kmem_init` pairs its `kmem_push`. -/
theorem sysKmemInit_active {space value : UInt64} {pages : Int32}
    (done : s.sysKmemInit p space pages = .ok (s', value)) : s'.active = s.active := by
  unfold sysKmemInit at done
  split at done
  · cases done
    rfl
  split at done
  · cases done
    rfl
  obtain ⟨⟨k, arena⟩, _, done⟩ := bind_eq_ok done
  dsimp only at done
  split at done
  · cases done
    exact active_setCurr k
  obtain ⟨k', _, done⟩ := bind_eq_ok done
  cases done
  exact active_setCurr k

/-- `sys_k_kmem_cache_create` selects its process on an unpaired return, and nothing else changes
the selection. -/
theorem createCache_active {uname : Option Name} {size : Int32} {c : Option Nat}
    (done : s.createCache p uname size = .ok (s', c)) :
    Unpaired s p (.cacheCreate uname size) ∧ s'.active = some p ∨
      ¬ Unpaired s p (.cacheCreate uname size) ∧ s'.active = s.active := by
  by_cases selected : s.active = some p
  -- the selection of the process is no change
  · refine .inr ⟨fun unpaired => unpaired.1 selected, ?_⟩
    rcases createCache_cases done with
      ⟨rfl | rfl, _⟩ | ⟨_, _, _, k, _, _, _, ⟨_, _, rfl⟩ | ⟨_, _, _, _, _, rfl⟩⟩
    · rfl
    · exact selected.symm
    · exact selected.symm
    · rfl
  · unfold createCache at done
    split at done
    next small =>
      cases done
      exact .inr ⟨fun unpaired => absurd unpaired.2.1 (by omega), rfl⟩
    next large =>
    split at done
    next without =>
      cases done
      refine .inr ⟨fun unpaired => ?_, rfl⟩
      rw [unpaired.2.2.1] at without
      cases without
    next inited =>
    have isInited : (s.proc p).ukmemInited = true := by simpa using inited
    cases uname with
    | none =>
      cases done
      exact .inl ⟨⟨selected, by omega, isInited, .inl rfl⟩, rfl⟩
    | some kname =>
      obtain ⟨⟨k, page⟩, kalloc, done⟩ := bind_eq_ok done
      have kalloc' : (s.ukmem p).kalloc = .ok (k, page) := kalloc
      dsimp only at done
      split at done
      next null =>
        cases done
        refine .inl ⟨⟨selected, by omega, isInited, .inr ⟨k, ?_⟩⟩, active_setCurr k⟩
        rw [kalloc', null]
      next nonnull =>
        obtain ⟨⟨k', d⟩, _, done⟩ := bind_eq_ok done
        cases done
        refine .inr ⟨?_, rfl⟩
        rintro ⟨_, _, _, isNone | ⟨k'', failed⟩⟩
        · cases isNone
        · rw [kalloc', Except.ok.injEq, Prod.mk.injEq] at failed
          exact nonnull failed.2

/-- `sys_k_kmem_cache_alloc` likewise. -/
theorem allocObject_active {hc : UInt64} {kobj : Nat} (done : s.allocObject p hc = .ok (s', kobj)) :
    Unpaired s p (.cacheAlloc hc) ∧ s'.active = some p ∨ ¬ Unpaired s p (.cacheAlloc hc) ∧
    s'.active = s.active := by
  by_cases selected : s.active = some p
  · refine .inr ⟨fun unpaired => unpaired.1 selected, ?_⟩
    rcases allocObject_cases done with ⟨rfl | rfl, _⟩ | ⟨_, k, _, rfl⟩
    · rfl
    · exact selected.symm
    · rfl
  · unfold allocObject at done
    split at done
    next without =>
      cases done
      refine .inr ⟨fun unpaired => ?_, rfl⟩
      rw [unpaired.2.1] at without
      cases without
    next inited =>
    have isInited : (s.proc p).ukmemInited = true := by simpa using inited
    dsimp only at done
    split at done
    next noWindow =>
      cases done
      exact .inl ⟨⟨selected, isInited, .inl noWindow⟩, rfl⟩
    next window =>
    split at done
    next null =>
      cases done
      exact .inl ⟨⟨selected, isInited, .inr null⟩, rfl⟩
    next nonnull =>
    obtain ⟨⟨k, obj⟩, _, done⟩ := bind_eq_ok done
    cases done
    refine .inr ⟨?_, rfl⟩
    rintro ⟨_, _, noWindow | null⟩
    · exact window noWindow
    · exact nonnull null

/-- **The selection after a call.** -/
theorem exec_active {call : Call} {value : UInt64} (done : call.exec s p = .ok (s', value)) :
    Unpaired s p call ∧ s'.active = some p ∨ ¬ Unpaired s p call ∧ s'.active = s.active := by
  cases call with
  | kmemInit space pages => exact .inr ⟨id, sysKmemInit_active done⟩
  | cacheCreate uname size =>
    obtain ⟨⟨t, c⟩, create, done⟩ := bind_eq_ok done
    have same : s' = t := by cases c <;> cases done <;> rfl
    exact same ▸ createCache_active create
  | cacheAlloc hc =>
    obtain ⟨⟨t, kobj⟩, alloc, done⟩ := bind_eq_ok done
    cases done
    exact allocObject_active alloc
  | cacheFree hc uobj =>
    rcases sysKmemCacheFree_cases done with ⟨rfl, _⟩ | ⟨_, _, _, k, _, rfl⟩ <;> exact .inr ⟨id, rfl⟩
  | cacheDestroy hc =>
    rcases sysKmemCacheDestroy_cases done with ⟨rfl, _⟩ | ⟨_, _, k, _, rfl⟩ <;> exact .inr ⟨id, rfl⟩
  | cacheInfo hc =>
    rw [sysKmemCacheInfo_eq done]
    exact .inr ⟨id, rfl⟩
  | kmalloc n =>
    obtain ⟨⟨t, kobj⟩, alloc, done⟩ := bind_eq_ok done
    cases done
    rcases kmallocObject_cases alloc with ⟨rfl, _⟩ | ⟨_, k, _, rfl⟩ <;> exact .inr ⟨id, rfl⟩
  | kfree u =>
    rcases sysKfree_cases done with rfl | ⟨_, _, k, _, rfl⟩ <;> exact .inr ⟨id, rfl⟩

/-- An unpaired return is taken: the call does return. -/
theorem exec_of_unpaired {call : Call} (unpaired : Unpaired s p call) :
    ∃ s' value, call.exec s p = .ok (s', value) := by
  cases call with
  | cacheCreate uname size =>
    obtain ⟨_, large, inited, early⟩ := unpaired
    have notSmall : ¬ size.toInt ≤ 0 := by omega
    have create : ∃ s', s.createCache p uname size = .ok (s', none) := by
      unfold createCache
      rw [if_neg notSmall, if_neg (by rw [inited]; exact Bool.false_ne_true)]
      cases uname with
      | none => exact ⟨_, rfl⟩
      | some kname =>
        obtain ⟨k, failed⟩ := early.resolve_left nofun
        have kalloc : (s.kmemPush p).1.curr.kalloc = .ok (k, 0) := failed
        simp only [kalloc]
        exact ⟨_, rfl⟩
    obtain ⟨s', create⟩ := create
    refine ⟨s', 0, ?_⟩
    show s.createCache p uname size >>= _ = _
    rw [create]
    rfl
  | cacheAlloc hc =>
    obtain ⟨_, inited, early⟩ := unpaired
    have alloc : s.allocObject p hc = .ok ((s.kmemPush p).1, 0) := by
      unfold allocObject
      rw [if_neg (by rw [inited]; exact Bool.false_ne_true)]
      by_cases noWindow : NoWindow (s.proc p)
      · exact if_pos noWindow
      · exact (if_neg noWindow).trans (if_pos (early.resolve_left noWindow))
    refine ⟨(s.kmemPush p).1, 0, ?_⟩
    show s.allocObject p hc >>= _ = _
    rw [alloc]
    rfl
  | kmemInit _ _ | cacheFree _ _ | cacheDestroy _ | cacheInfo _ | kmalloc _
  | kfree _ => exact unpaired.elim

/-! ### Sequences of calls -/

/-- One call of a process. -/
def callStep (s : Kernel) (e : Nat × Call) : Option Kernel :=
  ((e.2.exec s e.1).map Prod.fst).toOption

theorem exec_of_callStep {e : Nat × Call} (taken : callStep s e = some s') :
    ∃ value, e.2.exec s e.1 = .ok (s', value) := by
  unfold callStep at taken
  cases done : e.2.exec s e.1 with
  | error fault =>
    rw [done] at taken
    cases taken
  | ok result =>
    rw [done] at taken
    cases taken
    exact ⟨result.2, rfl⟩

/-! ### Calls of a process with an arena return -/

/-- The call names live caches and allocations of the process. -/
def Served (s : Kernel) (p : Nat) (held : List Allocation) : Call → Prop
  | .kmemInit .. | .cacheCreate .. | .kmalloc _ => True
  | .cacheAlloc hc | .cacheDestroy hc
  | .cacheInfo hc => (s.ukmem p).Used ((s.proc p).toKernel hc).toNat
  | .cacheFree hc uobj =>
    ∃ size, .object ((s.proc p).toKernel hc).toNat ((s.proc p).toKernel uobj).toNat size ∈ held
  | .kfree u => ∃ a ∈ held, a.base = ((s.proc p).toKernel u).toNat

/-- `sys_k_kmem_cache_create` returns. -/
theorem Arena.createCache_returns {arena : Nat} {pages : Int} {held : List Allocation}
    (holds : Arena s p arena pages held) (uname : Option Name) (size : Int32) :
    ∃ result, s.createCache p uname size = .ok result := by
  unfold Kernel.createCache
  by_cases small : size.toInt ≤ 0
  · exact ⟨_, if_pos small⟩
  rw [if_neg small, holds.inited]
  cases uname with
  | none => exact ⟨_, rfl⟩
  | some kname =>
    obtain ⟨⟨k, page⟩, kalloc⟩ := holds.sound.returns.buddyAlloc 1 (by decide)
    have kalloc' : (s.kmemPush p).1.curr.kalloc = .ok (k, page) := kalloc
    by_cases null : page = 0
    · simp only [kalloc']
      exact ⟨_, if_pos null⟩
    have named := (holds.sound.kalloc kalloc).1
    rw [Kmem.handOut_of_ne null] at named
    have bound := size.toInt_lt
    have nonzero : Kmem.objectSizeFor size.toInt.toNat ≠ 0 := by
      unfold Kmem.objectSizeFor alignUp
      split <;> split <;> omega
    obtain ⟨⟨k', c⟩, create⟩ :=
      (named.writeName List.mem_cons_self kname).returns.create size.toInt.toNat (by omega)
      nonzero none (fun f isSome => by cases isSome)
    have create' : (((s.kmemPush p).1.setCurr k).setCurr (((s.kmemPush p).1.setCurr k).curr.setMem
        (writeName ((s.kmemPush p).1.setCurr k).curr.mem page kname))).curr.kmemCacheCreate
          size.toInt.toNat none = .ok (k', c) := by
      rw [← create]
      simp [curr, setCurr, kmemPush, Kmem.setMem]
    simp only [kalloc']
    exact ⟨_, (if_neg null).trans (congrArg (· >>= _) create')⟩

/-- **A call of a process with an arena returns**, as long as it names live caches and
allocations. -/
theorem Arena.returns {arena : Nat} {pages : Int} {held : List Allocation}
    (holds : Arena s p arena pages held) {call : Call} (served : Served s p held call) :
    ∃ result, call.exec s p = .ok result := by
  have returns := holds.sound.returns
  have inited := holds.inited
  cases call with
  | kmemInit space count =>
    show ∃ result, s.sysKmemInit p space count = .ok result
    unfold sysKmemInit
    rw [if_pos inited]
    split <;> exact ⟨_, rfl⟩
  | cacheCreate uname size =>
    obtain ⟨⟨t, c⟩, create⟩ := holds.createCache_returns uname size
    show ∃ result, s.createCache p uname size >>= _ = .ok result
    rw [create]
    cases c <;> exact ⟨_, rfl⟩
  | cacheAlloc hc =>
    obtain ⟨⟨k, obj⟩, alloc⟩ := returns.alloc _ (.inr served)
    have alloc' :
        (s.kmemPush p).1.curr.kmemCacheAlloc ((s.proc p).toKernel hc).toNat = .ok (k, obj) := alloc
    have object : ∃ result, s.allocObject p hc = .ok result := by
      unfold Kernel.allocObject
      rw [inited]
      simp only [Bool.not_true, Bool.false_eq_true, if_false]
      split
      · exact ⟨_, rfl⟩
      split
      · exact ⟨_, rfl⟩
      · exact ⟨_, congrArg (· >>= _) alloc'⟩
    obtain ⟨result, object⟩ := object
    show ∃ result, s.allocObject p hc >>= _ = .ok result
    rw [object]
    exact ⟨_, rfl⟩
  | cacheFree hc uobj =>
    obtain ⟨size, isHeld⟩ := served
    obtain ⟨k, free⟩ := returns.free _ _ _ isHeld
    have free' :
        (s.kmemPush p).1.curr.kmemCacheFree ((s.proc p).toKernel hc).toNat
        ((s.proc p).toKernel uobj).toNat =
        .ok k := free
    show ∃ result, s.sysKmemCacheFree p hc uobj = .ok result
    unfold sysKmemCacheFree
    rw [inited]
    simp only [Bool.not_true, Bool.false_eq_true, if_false]
    split
    · exact ⟨_, rfl⟩
    split
    · exact ⟨_, rfl⟩
    · exact ⟨_, congrArg (· >>= _) free'⟩
  | cacheDestroy hc =>
    obtain ⟨k, destroy⟩ := returns.destroy _ served
    have destroy' : (s.kmemPush p).1.curr.kmemCacheDestroy ((s.proc p).toKernel hc).toNat = .ok k :=
      destroy
    show ∃ result, s.sysKmemCacheDestroy p hc = .ok result
    unfold sysKmemCacheDestroy
    rw [inited]
    simp only [Bool.not_true, Bool.false_eq_true, if_false]
    split
    · exact ⟨_, rfl⟩
    · exact ⟨_, congrArg (· >>= _) destroy'⟩
  | cacheInfo hc =>
    obtain ⟨counts, info⟩ := holds.sound.kmemCacheInfo_returns served
    have info' : (s.kmemPush p).1.curr.kmemCacheInfo ((s.proc p).toKernel hc).toNat = .ok counts :=
      info
    show ∃ result, s.sysKmemCacheInfo p hc = .ok result
    unfold sysKmemCacheInfo
    rw [inited]
    simp only [Bool.not_true, Bool.false_eq_true, if_false]
    split
    · exact ⟨_, rfl⟩
    · exact ⟨_, congrArg (· >>= _) info'⟩
  | kmalloc n =>
    obtain ⟨⟨k, obj⟩, alloc⟩ := returns.kmalloc n.toInt.toNat
    have alloc' : (s.kmemPush p).1.curr.kmalloc n.toInt.toNat = .ok (k, obj) := alloc
    have object : ∃ result, s.kmallocObject p n = .ok result := by
      unfold kmallocObject
      rw [inited]
      simp only [Bool.not_true, Bool.false_eq_true, if_false]
      split
      · exact ⟨_, rfl⟩
      split
      · exact ⟨_, rfl⟩
      · exact ⟨_, congrArg (· >>= _) alloc'⟩
    obtain ⟨result, object⟩ := object
    show ∃ result, s.kmallocObject p n >>= _ = .ok result
    rw [object]
    exact ⟨_, rfl⟩
  | kfree u =>
    obtain ⟨a, isHeld, base⟩ := served
    obtain ⟨k, free⟩ := returns.kFree a isHeld
    rw [base] at free
    have free' : (s.kmemPush p).1.curr.kFree ((s.proc p).toKernel u).toNat = .ok k := free
    show ∃ result, s.sysKfree p u = .ok result
    unfold sysKfree
    split
    · exact ⟨_, rfl⟩
    dsimp only
    split
    · exact ⟨_, rfl⟩
    · exact ⟨_, congrArg (· >>= _) free'⟩

/-! ### Restoring the selection -/

/-- A call that takes no unpaired return restores the selection. -/
theorem restored_of_paired {call : Call} (paired : ¬ Unpaired s p call) : Restored s p call := by
  intro s' value done
  rcases exec_active done with ⟨unpaired, _⟩ | ⟨_, same⟩
  · exact absurd unpaired paired
  · exact same

/-- A call that takes one does not. -/
theorem not_restored_of_unpaired {call : Call} (unpaired : Unpaired s p call) :
    ¬ Restored s p call := by
  intro isRestored
  obtain ⟨s', value, done⟩ := exec_of_unpaired unpaired
  have other : s.active ≠ some p := by
    cases call with
    | cacheCreate uname size => exact unpaired.1
    | cacheAlloc hc => exact unpaired.1
    | kmemInit _ _ | cacheFree _ _ | cacheDestroy _ | cacheInfo _ | kmalloc _
    | kfree _ => exact unpaired.elim
  rcases exec_active done with ⟨_, selected⟩ | ⟨paired, _⟩
  · exact other ((isRestored s' value done).symm.trans selected)
  · exact paired unpaired

/-- **A call restores `active_kmem` exactly when it takes no unpaired return**; it does return in a
process with an arena when it names live caches and allocations; and a sequence of calls of any
processes that takes no unpaired return leaves the kernel on its own allocator. A handle may be any
address; a descriptor there shares no bytes with `active_kmem`. -/
theorem restored_iff (s : Kernel) (p : Nat) (call : Call) :
    (Restored s p call ↔ ¬ Unpaired s p call) ∧
    (∀ arena pages held, Arena s p arena pages held → Served s p held call →
      ∃ result, call.exec s p = .ok result) ∧
    ∀ (events : List (Nat × Call)) (s' : Kernel), s.active = none →
      Along callStep (fun t e => ¬ Unpaired t e.1 e.2) s events → run callStep s events = some s' →
      s'.active = none ∧ s'.curr = s'.kmem := by
  refine ⟨⟨fun isRestored unpaired => not_restored_of_unpaired unpaired isRestored,
    restored_of_paired⟩, fun arena pages held holds served => holds.returns served, ?_⟩
  intro events s' start along reached
  have keeps : ∀ (t : Kernel) (e : Nat × Call) (t' : Kernel), t.active = none →
      ¬ Unpaired t e.1 e.2 → callStep t e = some t' → t'.active = none := by
    intro t e t' isNone paired taken
    obtain ⟨value, done⟩ := exec_of_callStep taken
    exact (restored_of_paired paired t' value done).trans isNone
  have active := inv_of_run keeps events start along reached
  refine ⟨active, ?_⟩
  unfold curr
  rw [active]

/-- Process 3 sets up an arena and allocates from it. -/
theorem restored_iff_useArena : ∃ k s', Kmem.Run Kmem.zeroed 0x80030000 32720 true k [] ∧
    run callStep (Window.unusedSlot k).kernel [(3, .kmemInit 0x4000 16), (3, .kmalloc 100)] =
    some s' ∧ s'.active = none ∧ s'.curr = s'.kmem := by
  obtain ⟨k, init, observed⟩ := exists_ok (Kmem.zeroed.kmemInit 0x80030000 32720 true)
    (fun k => (run callStep (Window.unusedSlot k).kernel [(3, .kmemInit 0x4000 16),
      (3, .kmalloc 100)]).map fun _ => ())
    (some ()) (by decide +kernel)
  obtain ⟨s', reached, _⟩ := Option.map_eq_some_iff.mp observed
  have paired : Along callStep (fun t e => ¬ Unpaired t e.1 e.2) (Window.unusedSlot k).kernel
      [(3, .kmemInit 0x4000 16), (3, .kmalloc 100)] := ⟨id, fun _ _ => ⟨id, fun _ _ => trivial⟩⟩
  exact ⟨k, s', .init init, reached, (restored_iff _ 3 (.kmalloc 100)).2.2 _ _ rfl paired reached⟩

/-- Process 3 sets up an arena; then `sys_k_kmem_cache_create` with a name that cannot be read
leaves that arena selected, and the next `kalloc` of the kernel takes a page of it. -/
theorem createCache_unpaired : ∃ k s s' k' page, Kmem.Run Kmem.zeroed 0x80030000 32720 true k [] ∧
    (Call.kmemInit 0x4000 16).exec (Window.unusedSlot k).kernel 3 = .ok (s, 0) ∧ s.active = none ∧
    (s.proc 3).InArena (UInt64.ofNat page) ∧
    (Call.cacheCreate none 64).exec s 3 = .ok (s', 0) ∧ s'.active = some 3 ∧
    s'.curr.kalloc = .ok (k', page) := by
  obtain ⟨⟨k, r, r', q⟩, done, observed⟩ := exists_ok (do
      let k ← Kmem.zeroed.kmemInit 0x80030000 32720 true
      let r ← (Call.kmemInit 0x4000 16).exec (Window.unusedSlot k).kernel 3
      let r' ← (Call.cacheCreate none 64).exec r.1 3
      let q ← r'.1.curr.kalloc
      return (k, r, r', q))
    (fun (_, r, r', q) => (r.2, r.1.active, decide ((r.1.proc 3).kheapwinBase ≤ UInt64.ofNat q.2 ∧
      UInt64.ofNat q.2 < (r.1.proc 3).kheapwinBase + (r.1.proc 3).windowBytes), r'.2, r'.1.active))
    (0, none, true, 0, some 3) (by decide +kernel)
  obtain ⟨k₁, init, done⟩ := bind_eq_ok done
  obtain ⟨r₁, first, done⟩ := bind_eq_ok done
  obtain ⟨r₂, second, done⟩ := bind_eq_ok done
  obtain ⟨q₁, kalloc, done⟩ := bind_eq_ok done
  cases done
  simp only [Prod.mk.injEq, decide_eq_true_eq] at observed
  obtain ⟨zero, free, inArena, null, selected⟩ := observed
  exact ⟨k, r.1, r'.1, q.1, q.2, .init init, zero ▸ first, free, inArena, null ▸ second,
    selected, kalloc⟩

end Kernel

end Xv6Slab
