/-
**The pages of a process, from `allocproc` to `freeproc`.**

* `Owns.procPagetable` — a new page table takes three pages, or nothing.
* `Image` — a process: its page table, its trapframe and its `ukmem` page.
* `Image.sysSbrk`, `Image.vmfault` — what a process does with its memory.
* `Image.freeproc` — **`freeproc` gives back all pages of a process.**
* `Owns.setupproc` — **`allocproc` needs five pages: with four it writes to a null page, with fewer
  it gives back what it took.**
-/

import Xv6Slab.Kernel.Vm.User

namespace Xv6Slab

open Bytes

namespace Vm

open Kmem Radix

variable {text : TextPage} {w : Backdrop} {k k' : Kmem} {root p : Nat} {owned extra : Set Nat}

/-! ### A new page table -/

/-- What a page table maps above user memory: the trampoline, and the trapframe before it. -/
def fixedLeaves (text : TextPage) (trapframe v : Nat) : Option Nat :=
  if v = userTop + 1 then some (mkPte text.1 (pteR + pteX))
  else if v = userTop then some (mkPte trapframe (pteR + pteW)) else none

theorem trampoline_eq : trampoline = 4096 * (userTop + 1) := by decide

theorem trapframeVa_eq : trapframeVa = 4096 * userTop := by decide

theorem users_single (root : Nat) : users (Trie.single 2 root) = ∅ :=
  Set.eq_empty_of_forall_notMem fun _ ⟨_, _, _, isLeaf, _⟩ => by cases isLeaf

/-- `uvmcreate`. -/
theorem Owns.uvmcreate (owns : Owns w k owned) :
    Vm.uvmcreate k = .ok (k, 0) ∧ k.freePages = ∅ ∨
      ∃ k' root, Vm.uvmcreate k = .ok (k', root) ∧ Table w k' root (Trie.single 2 root) owned ∧
        k'.freePages.ncard + 1 = k.freePages.ncard := by
  unfold Vm.uvmcreate
  rcases owns.kalloc with ⟨call, none⟩ | ⟨k₁, root, call, nonnull, fresh, owns₁, count, _⟩
  · rw [call]
    exact .inl ⟨rfl, none⟩
  · have set : Vm.memset k₁ root 0 4096 = .ok (k₁.setMem (fill k₁.mem root 4096 0)) :=
      if_neg nonnull
    simp only [call, bind, Except.bind, if_neg nonnull, set, pure, Except.pure]
    refine .inr ⟨_, root, rfl, ⟨?_, nofun, ?_, ?_, ?_, ?_, nofun⟩, count⟩
    · exact Rep.single (by decide) fun i lt => entry_fill lt
    · rw [Trie.single_nodes, users_single, Set.union_empty, Set.singleton_union]
      exact owns₁.write (Set.mem_insert root owned) fill_page_outside
    · rw [users_single]
      exact Set.disjoint_empty _
    · rw [Trie.single_nodes]
      exact Set.disjoint_singleton_left.mpr fresh
    · rw [users_single]
      exact Set.empty_disjoint _

/-- The way to a page is there when its last table is. -/
theorem missing_eq_zero {mem : Mem} {sh : Tree} (rep : Represents mem root sh) {v : Nat}
    (isTable : sh.node 0 (v / 512) ≠ none) : missing sh v 2 = 0 := by
  have above := rep.ancestor isTable 1 (by decide)
  rw [Nat.zero_add, pow_one, Nat.div_div_eq_div_mul] at above
  simp only [missing, Nat.zero_add, pow_one, if_neg isTable]
  exact if_neg above

/-- **`proc_pagetable`** takes three pages, or none. -/
theorem Owns.procPagetable (owns : Owns w k owned) (text : TextPage) {trapframe : Nat}
    (low : trapframe ≤ maxva) :
    (∃ k', Vm.procPagetable text k trapframe = .ok (k', 0) ∧ Owns w k' owned ∧
      k.freePages.ncard < 3) ∨
      ∃ k' root, Vm.procPagetable text k trapframe = .ok (k', root) ∧ root ≠ 0 ∧
        Maps w k' root owned 0 (fixedLeaves text trapframe) ∧
        k'.freePages.ncard + 3 = k.freePages.ncard := by
  have textLow : text.1 ≤ maxva := by
    have := text.2
    simp only [phystop] at this
    simp only [maxva]
    omega
  unfold Vm.procPagetable
  rcases owns.uvmcreate with ⟨call, none⟩ | ⟨k₁, root, call, table₁, count₁⟩
  · refine .inl ⟨k, ?_, owns, ?_⟩
    · rw [call]
      rfl
    · rw [none, Set.ncard_empty]
      decide
  have nonnull : root ≠ 0 := (table₁.mapping.pages root ⟨_, _, table₁.rep.root_mem⟩).1
  simp only [call, bind, Except.bind, if_neg nonnull, trampoline_eq, trapframeVa_eq]
  have none : missing (Trie.single 2 root : Tree) (userTop + 1) 2 = 2 := rfl
  obtain ⟨k₂, sh₂, mapped₂, map₂, result₂⟩ :=
    table₁.mapFixed (v := userTop + 1) (Nat.le_succ _) (by decide) rfl
    (show LeafPerm (pteR + pteX) from ⟨by decide, by decide⟩) textLow
  rw [map₂]
  rw [none] at result₂
  rcases result₂ with ⟨rfl, table₂, leaf₂, few⟩ | ⟨rfl, table₂, leaf₂, ⟨t, isTable⟩, count₂⟩
  · obtain ⟨k', freed, owns'⟩ := table₂.freewalk fun v => by rw [leaf₂]; rfl
    refine .inl ⟨k', ?_, owns', by omega⟩
    simp only [Bool.not_false, if_true, Vm.uvmfree, Nat.lt_irrefl, if_false, freed, pure,
      Except.pure]
  · simp only [Bool.not_true, Bool.false_eq_true, if_false]
    obtain ⟨k₃, sh₃, mapped₃, map₃, result₃⟩ :=
      table₂.mapFixed (v := userTop) le_rfl (by decide) (by rw [leaf₂]; rfl)
      (show LeafPerm (pteR + pteW) from ⟨by decide, by decide⟩) low
    rw [map₃]
    -- The table of the trampoline's entry has the trapframe's, too.
    have present : missing sh₂ userTop 2 = 0 := by
      refine missing_eq_zero table₂.rep ?_
      rw [show userTop / 512 = (userTop + 1) / 512 by decide, isTable]
      exact Option.some_ne_none t
    rw [present] at result₃
    rcases result₃ with ⟨_, _, _, few⟩ | ⟨rfl, table₃, leaf₃, _, count₃⟩
    · exact absurd few (Nat.not_lt_zero _)
    · refine .inr ⟨k₃, root, rfl, nonnull,
        ⟨sh₃, table₃, fun v _ lt => ?_, fun v high => ?_⟩, by omega⟩
      · rw [leaf₃, leaf₂, Function.update_of_ne (by omega), Function.update_of_ne (by omega)]
        rfl
      · rw [leaf₃, leaf₂, fixedLeaves]
        by_cases first : v = userTop + 1
        · rw [if_pos first, first, Function.update_of_ne (by omega), Function.update_self]
        · rw [if_neg first]
          by_cases second : v = userTop
          · rw [if_pos second, second, Function.update_self]
          · rw [if_neg second, Function.update_of_ne second, Function.update_of_ne first]
            rfl

/-! ### A process -/

/-- **The pages of a process.** -/
structure Image (text : TextPage) (w : Backdrop) (k : Kmem) (p : Slot) : Prop where
  maps : Maps w k p.pagetable {p.trapframe, p.ukmem} (npages p.sz) (fixedLeaves text p.trapframe)
  nonnull : p.trapframe ≠ 0 ∧ p.pagetable ≠ 0
  ne : p.trapframe ≠ p.ukmem
  size : p.sz ≤ trapframeVa

theorem Image.ukmem_ne {p : Slot} (image : Image text w k p) : p.ukmem ≠ 0 := by
  obtain ⟨sh, table, _⟩ := image.maps
  exact table.owns.nonnull (.inr (.inr rfl))

/-- The page table of a process is in memory that the kernel has handed out. -/
theorem Image.readable {p : Slot} (image : Image text w k p) :
    ∃ held, Sound k held w.space w.blockNum ∧ Readable (.of k held w.given) p.pagetable := by
  obtain ⟨sh, table, _⟩ := image.maps
  obtain ⟨held, sound, same⟩ := table.owns.held
  refine ⟨held, sound, sh, table.mapping, fun t isNode x inside => ?_, table.leaves⟩
  exact ⟨.block t 0, (same _).mpr (.inr ⟨t, .inl (.inl isNode), rfl⟩), inside⟩

/-- **`uvmfree`** of a page table without fixed leaves. -/
theorem Maps.uvmfree {sz : Nat} (maps : Maps w k root extra (npages sz) fun _ => none)
    (fits : sz ≤ trapframeVa) : ∃ k', Vm.uvmfree k root sz = .ok k' ∧ Owns w k' extra := by
  have freeTables : ∀ {k}, Maps w k root extra 0 (fun _ => none) →
      ∃ k', freewalk 3 k root = .ok k' ∧ Owns w k' extra := by
    rintro k ⟨sh, table, blank, above⟩
    refine table.freewalk fun v => ?_
    rcases Nat.lt_or_ge v userTop with low | high
    · exact blank v (Nat.zero_le v) low
    · exact above v high
  unfold Vm.uvmfree
  by_cases some : 0 < sz
  · obtain ⟨k₁, unmap, maps₁⟩ :=
      maps.uvmunmap (v := 0) (n := npages sz) (by omega)
      (by rw [Nat.zero_add]; exact npages_le fits)
    obtain ⟨k', freed, owns⟩ := freeTables maps₁
    have count : pgRoundUp sz / 4096 = npages sz := by rw [pgRoundUp_eq, page_of_mul]
    refine ⟨k', ?_, owns⟩
    rw [Nat.mul_zero] at unmap
    simp only [if_pos some, count, unmap, bind, Except.bind, freed]
  · obtain rfl : sz = 0 := by omega
    rw [if_neg some]
    exact freeTables maps

/-- **`proc_freepagetable`.** -/
theorem Maps.procFreepagetable {sz trapframe : Nat}
    (maps : Maps w k root extra (npages sz) (fixedLeaves text trapframe))
    (fits : sz ≤ trapframeVa) :
    ∃ k', Vm.procFreepagetable k root sz = .ok k' ∧ Owns w k' extra := by
  obtain ⟨sh, table, blank, above⟩ := maps
  obtain ⟨k₁, unmap₁, table₁⟩ := table.unmapFixed (v := userTop + 1) (Nat.le_succ _) (by decide)
  obtain ⟨k₂, unmap₂, table₂⟩ := table₁.unmapFixed (v := userTop) le_rfl (by decide)
  have maps₂ : Maps w k₂ root extra (npages sz) fun _ => none := by
    refine ⟨_, table₂, fun v high lt => ?_, fun v high => ?_⟩
    · rw [Trie.setLeaf_leaf_of_ne (by omega), Trie.setLeaf_leaf_of_ne (by omega)]
      exact blank v high lt
    · by_cases first : v = userTop
      · rw [first, Trie.setLeaf_leaf_self]
      · rw [Trie.setLeaf_leaf_of_ne first]
        by_cases second : v = userTop + 1
        · rw [second, Trie.setLeaf_leaf_self]
        · rw [Trie.setLeaf_leaf_of_ne second, above v high, fixedLeaves, if_neg second,
            if_neg first]
  obtain ⟨k', freed, owns⟩ := maps₂.uvmfree fits
  refine ⟨k', ?_, owns⟩
  unfold Vm.procFreepagetable
  simp only [trampoline_eq, trapframeVa_eq, unmap₁, unmap₂, bind, Except.bind, freed]

/-- **`freeproc` gives back all pages of a process.** -/
theorem Image.freeproc {p : Slot} (image : Image text w k p) :
    ∃ k', Vm.freeproc k p = .ok k' ∧ Owns w k' ∅ := by
  obtain ⟨k₁, free₁, maps₁⟩ := image.maps.kfree_insert image.ne
  obtain ⟨k₂, free₂, maps₂⟩ := maps₁.kfree (Set.mem_singleton _)
  rw [Set.sdiff_self] at maps₂
  obtain ⟨k', freed, owns⟩ := maps₂.procFreepagetable image.size
  refine ⟨k', ?_, owns⟩
  unfold Vm.freeproc kfreeNonnull
  simp only [if_neg image.nonnull.1, if_neg image.nonnull.2, free₁, free₂, bind, Except.bind, freed]

/-! ### A process at work -/

/-- `growproc`. -/
theorem Image.growproc {p : Slot} (image : Image text w k p) (n : Int) :
    ∃ k' p' done, Vm.growproc k p n = .ok (k', p', done) ∧ Image text w k' p' := by
  have resize :
      ∀ {k sz}, Maps w k p.pagetable {p.trapframe, p.ukmem} (npages sz)
      (fixedLeaves text p.trapframe) →
      sz ≤ trapframeVa → Image text w k { p with sz := sz } :=
      fun maps size => ⟨maps, image.nonnull, image.ne, size⟩
  unfold Vm.growproc
  dsimp only
  by_cases grows : 0 < n
  · rw [if_pos grows]
    by_cases large : trapframeVa < toUint64 (p.sz + n)
    · rw [if_pos large]
      exact ⟨k, p, false, rfl, image⟩
    · obtain ⟨k', sz, call, result⟩ := image.maps.uvmalloc (Nat.not_lt.mp large)
        (show LeafPerm (pteR + pteU + pteW) from ⟨by decide, by decide⟩)
      rw [if_neg large, call]
      simp only [bind, Except.bind, pure, Except.pure]
      by_cases null : sz = 0
      · rw [if_pos null]
        refine ⟨k', p, false, rfl, ?_⟩
        rcases result with ⟨_, maps'⟩ | ⟨isMax, maps'⟩
        · exact resize maps' image.size
        · exact resize (maps'.mono (npages_mono (by omega))) image.size
      · rw [if_neg null]
        obtain ⟨isMax, maps'⟩ := result.resolve_left fun failed => null failed.1
        have size := image.size
        exact ⟨k', _, true, rfl, resize maps' (by omega)⟩
  · rw [if_neg grows]
    by_cases shrinks : n < 0
    · obtain ⟨k', call, maps'⟩ := image.maps.uvmdealloc image.size (toUint64 (p.sz + n))
      have size := image.size
      rw [if_pos shrinks, call]
      exact ⟨k', _, true, rfl, resize maps' (by omega)⟩
    · rw [if_neg shrinks]
      exact ⟨k, p, true, rfl, image⟩

/-- **`sys_sbrk`.** -/
theorem Image.sysSbrk {p : Slot} (image : Image text w k p) (n t : Int32) :
    ∃ k' p' result, Vm.sysSbrk k p n t = .ok (k', p', result) ∧ Image text w k' p' := by
  unfold Vm.sysSbrk
  by_cases eager : t.toInt = sbrkEager ∨ n.toInt < 0
  · obtain ⟨k', p', done, call, image'⟩ := image.growproc n.toInt
    rw [if_pos eager, call]
    exact ⟨k', p', _, rfl, image'⟩
  · rw [if_neg eager]
    dsimp only
    by_cases bad : toUint64 (p.sz + n.toInt) < p.sz ∨ trapframeVa < toUint64 (p.sz + n.toInt)
    · rw [if_pos bad]
      exact ⟨k, p, none, rfl, image⟩
    · rw [not_or, Nat.not_lt, Nat.not_lt] at bad
      rw [if_neg (by omega)]
      exact ⟨k, _, _, rfl, image.maps.mono (npages_mono bad.1), image.nonnull, image.ne, bad.2⟩

/-- `ismapped`. -/
theorem Table.ismapped {sh : Tree} {v : Nat} (table : Table w k root sh extra) (low : v < 2 ^ 26) :
    Vm.ismapped k root (4096 * v) = .ok (sh.leaf v).isSome := by
  have walked : Vm.walk k root (4096 * v) false = _ :=
    table.mapping.walk (by simp only [maxva]; omega)
  rw [page_of_mul] at walked
  have answer :
      Vm.ismapped k root (4096 * v) =
      .ok (decide (lookup sh v ≠ 0 ∧ Valid (word k (lookup sh v)))) := by
    unfold Vm.ismapped
    rw [walked]
    rfl
  rw [answer]
  congr 1
  cases isTable : sh.node 0 (v / 512) with
  | none =>
    obtain ⟨null, isBlank⟩ := table.mapping.lookup_none isTable
    rw [isBlank]
    exact decide_eq_false fun found => found.1 null
  | some t =>
    obtain ⟨_, nonnull, word⟩ := table.mapping.word_lookup isTable
    rw [word]
    cases isLeaf : sh.leaf v with
    | none => exact decide_eq_false fun found => not_valid_zero found.2
    | some pte => exact decide_eq_true ⟨nonnull, (table.leaves v pte isLeaf).valid⟩

/-- **`vmfault`.** -/
theorem Image.vmfault {p : Slot} (image : Image text w k p) (va : Nat) :
    ∃ k' pa, Vm.vmfault k p va = .ok (k', pa) ∧ Image text w k' p := by
  unfold Vm.vmfault
  by_cases beyond : p.sz ≤ va
  · rw [if_pos beyond]
    exact ⟨k, 0, rfl, image⟩
  have below : va / 4096 < npages p.sz := by
    unfold npages
    omega
  have user : va / 4096 < userTop := below.trans_le (npages_le image.size)
  have isPage : pgRoundDown va = 4096 * (va / 4096) := Nat.mul_comm _ _
  obtain ⟨sh, table, blank, above⟩ := image.maps
  have same : ∀ {k' sh'}, Table w k' p.pagetable sh' {p.trapframe, p.ukmem} → sh'.leaf = sh.leaf →
      Image text w k' p :=
    fun table' leaf => ⟨⟨_, table', by rw [leaf]; exact blank, by rw [leaf]; exact above⟩,
      image.nonnull, image.ne, image.size⟩
  rw [if_neg beyond, isPage, table.ismapped (user.trans_le (by decide))]
  cases isLeaf : sh.leaf (va / 4096) with
  | some pte => exact ⟨k, 0, rfl, image⟩
  | none =>
    simp only [Option.isSome_none, bind, Except.bind, Bool.false_eq_true, if_false]
    rcases table.kalloc with ⟨call, _⟩ | ⟨k₁, page, call, nonnull, notExtra, table₁, _⟩
    · rw [call]
      exact ⟨k, 0, rfl, image⟩
    · have set : Vm.memset k₁ page 0 4096 = .ok (k₁.setMem (fill k₁.mem page 4096 0)) :=
        if_neg nonnull
      have table₂ := table₁.write (.inr (Set.mem_insert page _)) (fill_page_outside (t := page))
      obtain ⟨k₃, sh₃, mapped, map, result⟩ := table₂.mapUser notExtra user isLeaf
        (show LeafPerm (pteW + pteU + pteR) from ⟨by decide, by decide⟩)
      simp only [call, if_neg nonnull, set, map]
      rcases result with ⟨rfl, table₃, leaf⟩ | ⟨rfl, table₃, leaf⟩
      · obtain ⟨k₄, freed, table₄⟩ := table₃.kfree (Set.mem_insert page _)
        rw [Set.insert_sdiff_self_of_notMem notExtra] at table₄
        simp only [Bool.false_eq_true, if_false, freed, pure, Except.pure]
        exact ⟨k₄, 0, rfl, same table₄ leaf⟩
      · refine ⟨k₃, page, rfl, ⟨sh₃, table₃, fun v high low => ?_, fun v high => ?_⟩, image.nonnull,
          image.ne, image.size⟩
        · rw [leaf, Function.update_of_ne (by omega)]
          exact blank v high low
        · rw [leaf, Function.update_of_ne (by omega)]
          exact above v high

/-! ### A new process -/

/-- The three ways of `allocproc` with a free slot: success, too few pages, or a null `ukmem`
page. -/
theorem Owns.setupproc (owns : Owns w k ∅) (text : TextPage) :
    k.freePages.ncard < 4 ∧ (∃ k', Vm.setupproc text k .cleared = .ok (k', none) ∧ Owns w k' ∅) ∨
      k.freePages.ncard = 4 ∧ Vm.setupproc text k .cleared = .error (.panic "kerneltrap") ∨
        4 < k.freePages.ncard ∧ ∃ k' p, Vm.setupproc text k .cleared = .ok (k', some p) ∧
          Image text w k' p ∧ p.state = .used ∧ p.sz = 0 := by
  unfold Vm.setupproc
  rcases owns.kalloc with ⟨call, none⟩ | ⟨k₁, trapframe, call, nonnull, _, owns₁, count₁, _⟩
  · refine .inl ⟨by rw [none, Set.ncard_empty]; decide, k, ?_, owns⟩
    simp only [call, bind, Except.bind, if_true]
    rfl
  simp only [call, bind, Except.bind, if_neg nonnull]
  rw [insert_empty_eq] at owns₁
  obtain ⟨_, _, low, _⟩ := owns₁.page (Set.mem_singleton trapframe)
  rcases owns₁.procPagetable text (Nat.le_of_add_right_le low) with
    ⟨k₂, make, owns₂, few⟩ | ⟨k₂, root, make, nonnull', maps, count₂⟩
  · obtain ⟨k', free, owns', _⟩ := owns₂.kfree (Set.mem_singleton trapframe)
    rw [Set.sdiff_self] at owns'
    refine .inl ⟨by omega, k', ?_, owns'⟩
    simp only [make, if_true, Vm.freeproc, kfreeNonnull, if_neg nonnull, bind, Except.bind, free]
    rfl
  · simp only [make, if_neg nonnull']
    rcases maps.kalloc with ⟨call₃, none⟩ | ⟨k₃, ukmem, call₃, nonnull₃, fresh, maps₃, count₃⟩
    · refine .inr (.inl ⟨?_, ?_⟩)
      · rw [none, Set.ncard_empty] at count₂
        omega
      · rw [call₃]
        rfl
    · obtain ⟨k', set, _, maps'⟩ := maps₃.memset (Set.mem_insert ukmem _) nonnull₃
      rw [Set.pair_comm] at maps'
      have image : Image text w k' ⟨.used, trapframe, root, 0, ukmem⟩ :=
        ⟨maps'.mono (Nat.zero_le _), ⟨nonnull, nonnull'⟩, fun same => fresh same.symm,
          Nat.zero_le _⟩
      refine .inr (.inr ⟨by omega, k', _, ?_, image, rfl, rfl⟩)
      simp only [call₃, set, pure, Except.pure]
      rfl

end Vm

end Xv6Slab
