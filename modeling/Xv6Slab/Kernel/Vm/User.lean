/-
**The user memory of a process.**

What `vm.c` does with the user pages of one page table, whatever the free pages are: every function
returns, and a failure has given back what it took.

* `Maps` — a page table whose user pages lie below a limit.
* `Maps.uvmalloc`, `Maps.uvmdealloc`, `Maps.uvmcopy` — **user memory grows and shrinks, and a
  failure gives back what it took.**
-/

import Xv6Slab.Kernel.Vm.Table

namespace Xv6Slab

open Bytes

namespace Vm

open Kmem Radix

/-! ### Sizes -/

/-- The pages of a size. -/
def npages (sz : Nat) : Nat := (sz + 4095) / 4096

theorem pgRoundUp_eq (sz : Nat) : pgRoundUp sz = 4096 * npages sz := Nat.mul_comm _ _

theorem npages_mul (n : Nat) : npages (4096 * n) = n := by
  unfold npages
  omega

theorem npages_le {sz : Nat} (fits : sz ≤ trapframeVa) : npages sz ≤ userTop := by
  simp only [trapframeVa, trampoline, maxva] at fits
  simp only [npages, userTop, trapframeVa, trampoline, maxva]
  omega

theorem npages_mono {sz sz' : Nat} (le : sz ≤ sz') : npages sz ≤ npages sz' := by
  unfold npages
  omega

/-! ### Page tables with user memory -/

/-- **A page table with user pages below `lim`**, and the leaves `fixed` above user memory. -/
def Maps (w : Backdrop) (k : Kmem) (root : Nat) (extra : Set Nat) (lim : Nat)
    (fixed : Nat → Option Nat) : Prop :=
  ∃ sh, Table w k root sh extra ∧ (∀ v, lim ≤ v → v < userTop → sh.leaf v = none) ∧
    ∀ v, userTop ≤ v → sh.leaf v = fixed v

namespace Maps

variable {w : Backdrop} {k k' : Kmem} {root lim lim' p v n perm f : Nat} {extra : Set Nat}
  {fixed : Nat → Option Nat}

theorem mono (maps : Maps w k root extra lim fixed) (le : lim ≤ lim') :
    Maps w k root extra lim' fixed := by
  obtain ⟨sh, table, blank, above⟩ := maps
  exact ⟨sh, table, fun v high => blank v (le.trans high), above⟩

/-- `kalloc` of an extra page. -/
theorem kalloc (maps : Maps w k root extra lim fixed) :
    k.kalloc = .ok (k, 0) ∧ k.freePages = ∅ ∨
      ∃ k' p, k.kalloc = .ok (k', p) ∧ p ≠ 0 ∧ p ∉ extra ∧
        Maps w k' root (insert p extra) lim fixed ∧ k'.freePages.ncard + 1 = k.freePages.ncard := by
  obtain ⟨sh, table, leaves⟩ := maps
  rcases table.kalloc with failed | ⟨k', p, call, nonnull, notExtra, table', count⟩
  · exact .inl failed
  · exact .inr ⟨k', p, call, nonnull, notExtra, ⟨sh, table', leaves⟩, count⟩

/-- `kfree` of an extra page. -/
theorem kfree (maps : Maps w k root extra lim fixed) (isExtra : p ∈ extra) :
    ∃ k', k.kfree p = .ok k' ∧ Maps w k' root (extra \ {p}) lim fixed := by
  obtain ⟨sh, table, leaves⟩ := maps
  obtain ⟨k', call, table'⟩ := table.kfree isExtra
  exact ⟨k', call, sh, table', leaves⟩

/-- `kfree` of the page that was taken last. -/
theorem kfree_insert (maps : Maps w k root (insert p extra) lim fixed) (notExtra : p ∉ extra) :
    ∃ k', k.kfree p = .ok k' ∧ Maps w k' root extra lim fixed := by
  obtain ⟨k', call, maps'⟩ := maps.kfree (Set.mem_insert p extra)
  rw [Set.insert_sdiff_self_of_notMem notExtra] at maps'
  exact ⟨k', call, maps'⟩

/-- A write inside an extra page. -/
theorem write (maps : Maps w k root extra lim fixed) (isExtra : p ∈ extra) {mem : Mem}
    (outside : SameOutside (pageBytes p) k.mem mem) :
    Maps w (k.setMem mem) root extra lim fixed := by
  obtain ⟨sh, table, leaves⟩ := maps
  exact ⟨sh, table.write (.inr isExtra) outside, leaves⟩

/-- `memset` of an extra page. -/
theorem memset (maps : Maps w k root extra lim fixed) (isExtra : p ∈ extra) (nonnull : p ≠ 0) :
    ∃ k', Vm.memset k p 0 4096 = .ok k' ∧ k'.freePages = k.freePages ∧
    Maps w k' root extra lim fixed :=
  ⟨_, if_neg nonnull, rfl, maps.write isExtra fill_page_outside⟩

/-- **`mappages` of an extra page as user memory.** -/
theorem mapUser (maps : Maps w k root (insert p extra) v fixed) (notExtra : p ∉ extra)
    (lt : v < userTop) (isPerm : LeafPerm perm) :
    ∃ k' mapped, mappages k root (4096 * v) 4096 p perm = .ok (k', mapped) ∧
      (mapped = false ∧ Maps w k' root (insert p extra) v fixed ∨ mapped = true ∧
        Maps w k' root extra (v + 1) fixed) := by
  obtain ⟨sh, table, blank, above⟩ := maps
  obtain ⟨k', sh', mapped, call, result⟩ := table.mapUser notExtra lt (blank v le_rfl lt) isPerm
  refine ⟨k', mapped, call, ?_⟩
  rcases result with ⟨isFalse, table', leaf⟩ | ⟨isTrue, table', leaf⟩
  · exact .inl ⟨isFalse, sh', table', by rw [leaf]; exact blank, by rw [leaf]; exact above⟩
  · refine .inr ⟨isTrue, sh', table', fun x high low => ?_, fun x high => ?_⟩
    · rw [leaf, Function.update_of_ne (by omega)]
      exact blank x (by omega) low
    · rw [leaf, Function.update_of_ne (by omega)]
      exact above x high

/-- **`uvmunmap` of the user memory from a page on.** -/
theorem uvmunmap (maps : Maps w k root extra lim fixed) (covers : lim ≤ v + n)
    (fits : v + n ≤ userTop) :
    ∃ k', Vm.uvmunmap k root (4096 * v) n true = .ok k' ∧ Maps w k' root extra v fixed := by
  obtain ⟨sh, table, blank, above⟩ := maps
  obtain ⟨k', sh', call, table', leaf⟩ := Table.unmapLoop n table fits
  refine ⟨k', ?_, sh', table', fun x high low => ?_, fun x high => ?_⟩
  · rw [Vm.uvmunmap, if_neg (by omega)]
    exact call
  · rw [leaf]
    split
    · rfl
    · exact blank x (by omega) low
  · rw [leaf, if_neg (by omega)]
    exact above x high

/-- **`uvmdealloc`.** -/
theorem uvmdealloc {oldsz : Nat} (maps : Maps w k root extra (npages oldsz) fixed)
    (fits : oldsz ≤ trapframeVa) (newsz : Nat) :
    ∃ k', Vm.uvmdealloc k root oldsz newsz = .ok (k', min oldsz newsz) ∧
    Maps w k' root extra (npages (min oldsz newsz)) fixed := by
  unfold Vm.uvmdealloc
  by_cases grows : oldsz ≤ newsz
  · rw [if_pos grows, Nat.min_eq_left grows]
    exact ⟨k, rfl, maps⟩
  · rw [if_neg grows, Nat.min_eq_right (by omega), pgRoundUp_eq, pgRoundUp_eq]
    have le : npages newsz ≤ npages oldsz := npages_mono (by omega)
    by_cases shrinks : 4096 * npages newsz < 4096 * npages oldsz
    · have count :
          (4096 * npages oldsz - 4096 * npages newsz) / 4096 = npages oldsz - npages newsz := by
        omega
      rw [if_pos shrinks, count]
      obtain ⟨k', call, maps'⟩ :=
        maps.uvmunmap (v := npages newsz) (n := npages oldsz - npages newsz) (by omega)
        (by rw [Nat.add_sub_cancel' le]; exact npages_le fits)
      refine ⟨k', ?_, maps'⟩
      rw [call]
      rfl
    · have same : npages newsz = npages oldsz := by omega
      rw [if_neg shrinks, same]
      exact ⟨k, rfl, maps⟩

/-- The loop of `uvmalloc`, on pages from `f` on of which it has those below `v`. -/
theorem allocLoop (isPerm : LeafPerm perm) : ∀ (n : Nat) {k v}, Maps w k root extra v fixed →
    f ≤ v → v + n ≤ userTop →
    ∃ k' done, Vm.allocLoop root (4096 * f) perm n k (4096 * v) = .ok (k', done) ∧
      (done = true ∧ Maps w k' root extra (v + n) fixed ∨ done = false ∧
        Maps w k' root extra f fixed)
  | 0, k, v, maps, _, _ => ⟨k, true, rfl, .inl ⟨rfl, maps⟩⟩
  | n + 1, k, v, maps, le, fits => by
    -- A failure unmaps the pages from `f` on.
    have rollback : ∀ {k}, Maps w k root extra v fixed →
        ∃ k', Vm.uvmdealloc k root (4096 * v) (4096 * f) = .ok (k', 4096 * f) ∧
        Maps w k' root extra f fixed := by
      intro k maps
      rw [← npages_mul v] at maps
      obtain ⟨k', call, maps'⟩ := maps.uvmdealloc (by simp only [userTop] at fits; omega) (4096 * f)
      rw [Nat.min_eq_right (by omega)] at call maps'
      rw [npages_mul] at maps'
      exact ⟨k', call, maps'⟩
    rw [Vm.allocLoop]
    rcases maps.kalloc with ⟨call, _⟩ | ⟨k₁, p, call, nonnull, notExtra, maps₁, _⟩
    · obtain ⟨k', dealloc, maps'⟩ := rollback maps
      refine ⟨k', false, ?_, .inr ⟨rfl, maps'⟩⟩
      simp only [call, bind, Except.bind, if_true, dealloc, pure, Except.pure]
    · obtain ⟨k₂, set, _, maps₂⟩ := maps₁.memset (Set.mem_insert p extra) nonnull
      obtain ⟨k₃, mapped, map, result⟩ := maps₂.mapUser notExtra (by omega) isPerm
      simp only [call, bind, Except.bind, if_neg nonnull, set, map]
      rcases result with ⟨rfl, maps₃⟩ | ⟨rfl, maps₃⟩
      · obtain ⟨k₄, free, maps₄⟩ := maps₃.kfree_insert notExtra
        obtain ⟨k', dealloc, maps'⟩ := rollback maps₄
        refine ⟨k', false, ?_, .inr ⟨rfl, maps'⟩⟩
        simp only [Bool.false_eq_true, if_false, free, dealloc, pure, Except.pure]
      · obtain ⟨k', done, run, result⟩ := allocLoop isPerm n maps₃ (by omega) (by omega)
        rw [Nat.add_right_comm, Nat.add_assoc] at result
        exact ⟨k', done, run, result⟩

/-- **`uvmalloc`.** -/
theorem uvmalloc {oldsz newsz xperm : Nat} (maps : Maps w k root extra (npages oldsz) fixed)
    (fits : newsz ≤ trapframeVa) (isPerm : LeafPerm (pteR + pteU + xperm)) :
    ∃ k' sz, Vm.uvmalloc k root oldsz newsz xperm = .ok (k', sz) ∧
      (sz = 0 ∧ Maps w k' root extra (npages oldsz) fixed ∨ sz = max oldsz newsz ∧
        Maps w k' root extra (npages sz) fixed) := by
  unfold Vm.uvmalloc
  by_cases less : newsz < oldsz
  · rw [if_pos less]
    exact ⟨k, oldsz, rfl, .inr ⟨by omega, maps⟩⟩
  · have count : npages oldsz + (newsz - 4096 * npages oldsz + 4095) / 4096 = npages newsz := by
      unfold npages
      omega
    obtain ⟨k', done, run, result⟩ :=
      allocLoop (f := npages oldsz) isPerm ((newsz - 4096 * npages oldsz + 4095) / 4096) maps le_rfl
      (by rw [count]; exact npages_le fits)
    rw [if_neg less]
    simp only [pgRoundUp_eq, run, bind, Except.bind, pure, Except.pure]
    refine ⟨k', _, rfl, ?_⟩
    rcases result with ⟨rfl, maps'⟩ | ⟨rfl, maps'⟩
    · rw [count] at maps'
      exact .inr ⟨by rw [if_pos rfl]; omega, maps'⟩
    · exact .inl ⟨rfl, maps'⟩

end Maps

/-! ### Copying user memory -/

/-- The page table of another process, which is in memory that others hold. -/
structure Readable (w : Backdrop) (root : Nat) : Prop where
  tree : ∃ sh, Mapping w.mem root sh ∧ (∀ t ∈ sh.nodes, pageBytes t ⊆ w.bytes) ∧
      ∀ v pte, sh.leaf v = some pte → LeafEntry pte

namespace Maps

variable {w : Backdrop} {k k' : Kmem} {root old lim p v n : Nat} {extra : Set Nat}
  {fixed : Nat → Option Nat}

theorem owns (maps : Maps w k root extra lim fixed) : ∃ owned, Owns w k owned := by
  obtain ⟨sh, table, _⟩ := maps
  exact ⟨_, table.owns⟩

/-- What others hold is as it was. -/
theorem frozen (maps : Maps w k root extra lim fixed) : ∀ x ∈ w.bytes, k.mem x = w.mem x := by
  obtain ⟨owned, owns⟩ := maps.owns
  exact owns.frozen

/-- The entry of the other process that `uvmcopy` looks at: there is nothing to copy, or a leaf. -/
theorem readEntry (maps : Maps w k root extra lim fixed) (readable : Readable w old)
    (low : v < userTop) : ∃ addr, Vm.walk k old (4096 * v) false = .ok (k, addr) ∧
      ((addr = 0 ∨ ¬ Valid (word k addr)) ∨ addr ≠ 0 ∧ Valid (word k addr) ∧
        LeafPerm (pteFlags (word k addr))) := by
  obtain ⟨sh, ⟨rep, pages⟩, held, leaves⟩ := readable.tree
  have mapping : Mapping k.mem old sh := ⟨rep.congr (by decide) fun t isNode _ lt =>
    entry_congr (fun x inside => maps.frozen x (held t isNode inside)) lt, pages⟩
  simp only [userTop, trapframeVa, trampoline, maxva] at low
  have walked : Vm.walk k old (4096 * v) false = _ := mapping.walk (by simp only [maxva]; omega)
  rw [page_of_mul] at walked
  refine ⟨_, walked, ?_⟩
  cases isTable : sh.node 0 (v / 512) with
  | none => exact .inl (.inl (mapping.lookup_none isTable).1)
  | some t =>
    obtain ⟨_, nonnull, word⟩ := mapping.word_lookup isTable
    cases isLeaf : sh.leaf v with
    | none =>
      rw [isLeaf] at word
      refine .inl (.inr ?_)
      rw [word]
      exact not_valid_zero
    | some pte =>
      obtain ⟨valid, leaf, _⟩ := leaves v pte isLeaf
      replace word : Vm.word k (lookup sh v) = pte := by rw [word, isLeaf]; rfl
      rw [word]
      refine .inr ⟨nonnull, valid, ?_, ?_⟩
      · unfold pteFlags
        omega
      · unfold IsLeaf at leaf
        unfold pteFlags
        omega

/-- `memmove` into an extra page. -/
theorem memmove (maps : Maps w k root extra lim fixed) (isExtra : p ∈ extra) (nonnull : p ≠ 0)
    (src : Nat) : ∃ k', Vm.memmove k p src 4096 = .ok k' ∧ Maps w k' root extra lim fixed := by
  refine ⟨_, if_neg nonnull, maps.write isExtra fun x outside => if_neg fun inside =>
    outside inside⟩

/-- The loop of `uvmcopy`. -/
theorem copyLoop (readable : Readable w old) : ∀ (n : Nat) {k v}, Maps w k root extra v fixed →
    v + n ≤ userTop → ∃ k' done, Vm.copyLoop old root n k (4096 * v) = .ok (k', done) ∧
      (done = true ∧ Maps w k' root extra (v + n) fixed ∨ done = false ∧
        Maps w k' root extra 0 fixed)
  | 0, k, v, maps, _ => ⟨k, true, rfl, .inl ⟨rfl, maps⟩⟩
  | n + 1, k, v, maps, fits => by
    -- A failure unmaps all of the copy.
    have rollback : ∀ {k}, Maps w k root extra v fixed →
        ∃ k', Vm.uvmunmap k root 0 (4096 * v / 4096) true = .ok k' ∧
        Maps w k' root extra 0 fixed := fun maps => by
      rw [page_of_mul]
      exact maps.uvmunmap (v := 0) (by omega) (by omega)
    obtain ⟨addr, walked, entry⟩ := maps.readEntry readable (v := v) (by omega)
    rw [Vm.copyLoop, walked]
    simp only [bind, Except.bind]
    rcases entry with nothing | ⟨nonnull, valid, isPerm⟩
    · obtain ⟨k', done, run, result⟩ :=
        copyLoop readable n (maps.mono (Nat.le_add_right v 1)) (by omega)
      rw [Nat.add_right_comm, Nat.add_assoc] at result
      rw [if_pos nothing]
      exact ⟨k', done, run, result⟩
    · rw [if_neg (not_or.mpr ⟨nonnull, not_not.mpr valid⟩)]
      rcases maps.kalloc with ⟨call, _⟩ | ⟨k₁, p, call, nonnull', notExtra, maps₁, _⟩
      · obtain ⟨k', unmap, maps'⟩ := rollback maps
        refine ⟨k', false, ?_, .inr ⟨rfl, maps'⟩⟩
        simp only [call, if_true, unmap, pure, Except.pure]
      · obtain ⟨k₂, move, maps₂⟩ :=
          maps₁.memmove (Set.mem_insert p extra) nonnull' (pte2pa (word k addr))
        obtain ⟨k₃, mapped, map, result⟩ := maps₂.mapUser notExtra (by omega) isPerm
        simp only [call, if_neg nonnull', move, map]
        rcases result with ⟨rfl, maps₃⟩ | ⟨rfl, maps₃⟩
        · obtain ⟨k₄, free, maps₄⟩ := maps₃.kfree_insert notExtra
          obtain ⟨k', unmap, maps'⟩ := rollback maps₄
          refine ⟨k', false, ?_, .inr ⟨rfl, maps'⟩⟩
          simp only [Bool.false_eq_true, if_false, free, unmap, pure, Except.pure]
        · obtain ⟨k', done, run, result⟩ := copyLoop readable n maps₃ (by omega)
          rw [Nat.add_right_comm, Nat.add_assoc] at result
          exact ⟨k', done, run, result⟩

/-- **`uvmcopy`.** -/
theorem uvmcopy (maps : Maps w k root extra 0 fixed) (readable : Readable w old) {sz : Nat}
    (fits : sz ≤ trapframeVa) : ∃ k' done, Vm.uvmcopy k old root sz = .ok (k', done) ∧
      (done = true ∧ Maps w k' root extra (npages sz) fixed ∨ done = false ∧
        Maps w k' root extra 0 fixed) := by
  obtain ⟨k', done, run, result⟩ :=
    copyLoop readable (npages sz) maps (by rw [Nat.zero_add]; exact npages_le fits)
  rw [Nat.zero_add] at result
  exact ⟨k', done, run, result⟩

end Maps

end Vm

end Xv6Slab
