/-
**The page table of a process.**

A page table is a radix tree of three levels in pages of its owner (`Table`): its tables, the user
pages of its leaves and some extra pages are all that the owner holds, and no page is two of them.

* `Mapping.walk`, `Table.walk_alloc` — `walk` finds the entry of an address, or adds the tables that
  are missing.
* `Table.mapUser`, `Table.mapFixed` — `mappages` of one page.
* `Table.unmapLoop`, `Table.unmapFixed` — `uvmunmap` of a range of user memory, and of a page above
  it.
* `Table.freewalk` — **without leaves, `freewalk` gives back every table and nothing else.**
-/

import Xv6Slab.Kernel.Vm.Pages
import Xv6Slab.Lib.Radix

namespace Xv6Slab

open Bytes

namespace Vm

open Kmem Radix

/-! ### Entries -/

section Entries

variable {pa perm pte : Nat}

theorem valid_mkPte (pa perm : Nat) : Valid (mkPte pa perm) := by
  unfold Valid mkPte
  omega

theorem pte2pa_mkPte (aligned : pa % 4096 = 0) (low : pa + 4096 ≤ maxva) (flags : perm < 1024) :
    pte2pa (mkPte pa perm) = pa := by
  simp only [maxva] at low
  unfold pte2pa mkPte
  omega

theorem isLeaf_mkPte (isLeaf : perm / 2 % 8 ≠ 0) : IsLeaf (mkPte pa perm) := by
  unfold IsLeaf mkPte
  omega

theorem mkPte_lt (low : pa ≤ maxva) (flags : perm < 1024) : mkPte pa perm < 2 ^ 64 := by
  simp only [maxva] at low
  unfold mkPte
  omega

/-- The entry that links to a table. -/
def link (t : Nat) : Nat := mkPte t 0

theorem valid_link (t : Nat) : Valid (link t) := valid_mkPte t 0

theorem not_isLeaf_link (t : Nat) : ¬ IsLeaf (link t) := by
  unfold IsLeaf link mkPte
  omega

theorem not_valid_zero : ¬ Valid 0 := by decide

/-- Entry `i` of the table at `t`. -/
def entry (mem : Mem) (t i : Nat) : Nat := load mem (t + 8 * i) 8

variable {mem mem' : Mem} {t u i j value : Nat}

/-- An entry lies in the page of its table. -/
theorem entry_mem_page (lt : i < 512) {x : Nat} (low : t + 8 * i ≤ x) (high : x < t + 8 * i + 8) :
    x ∈ pageBytes t :=
  ⟨by omega, by omega⟩

theorem entry_congr (same : ∀ x ∈ pageBytes t, mem' x = mem x) (lt : i < 512) :
    entry mem' t i = entry mem t i :=
  load_congr fun x low high => same x (entry_mem_page lt low high)

theorem entry_store_self (fits : value < 2 ^ 64) :
    entry (store mem (t + 8 * i) 8 value) t i = value :=
  load_store_same (by norm_num at fits ⊢; exact fits)

theorem entry_store_of_ne (aligned : t % 4096 = 0) (aligned' : u % 4096 = 0) (lt : i < 512)
    (lt' : j < 512) (ne : ¬ (u = t ∧ j = i)) :
    entry (store mem (t + 8 * i) 8 value) u j = entry mem u j := by
  refine load_store_apart ?_
  by_cases same : u = t
  · have : j ≠ i := fun eq => ne ⟨same, eq⟩
    omega
  · obtain ⟨a, rfl⟩ := Nat.dvd_of_mod_eq_zero aligned
    obtain ⟨b, rfl⟩ := Nat.dvd_of_mod_eq_zero aligned'
    omega

theorem store_entry_outside (lt : i < 512) :
    SameOutside (pageBytes t) mem (store mem (t + 8 * i) 8 value) :=
  (store_sameOutside mem (t + 8 * i) 8 value).mono fun _ inside =>
    entry_mem_page lt inside.1 inside.2

theorem load_eq_zero {addr : Nat} :
    ∀ {width : Nat}, (∀ x, addr ≤ x → x < addr + width → mem x = 0) → load mem addr width = 0
  | 0, _ => rfl
  | width + 1, zeros => by
    have head : mem addr = 0 := zeros addr le_rfl (by omega)
    have tail : load mem (addr + 1) width = 0 :=
      load_eq_zero fun x low high => zeros x (by omega) (by omega)
    rw [load, head, tail]
    rfl

/-- The entries of a page of zeros. -/
theorem entry_fill (lt : i < 512) : entry (fill mem t 4096 0) t i = 0 :=
  load_eq_zero fun _ low high => if_pos (entry_mem_page lt low high)

theorem fill_page_outside : SameOutside (pageBytes t) mem (fill mem t 4096 0) :=
  fill_sameOutside mem t 4096 0

/-- The index of a level, by the page number. -/
theorem px_eq (level va : Nat) : px level va = va / 4096 / 512 ^ level % 512 := by
  unfold px
  rw [Nat.div_div_eq_div_mul, pow_add, pow_mul]
  norm_num

end Entries

/-! ### Trees of pages -/

/-- The tables and leaf entries of a page table. -/
abbrev Tree := Trie Nat Nat

/-- The page table at `root` in a memory. -/
abbrev Represents (mem : Mem) (root : Nat) (sh : Tree) : Prop :=
  Rep 512 2 link 0 (entry mem) root sh

/-- The first page that is not user memory: the trapframe, with the trampoline behind it. -/
abbrev userTop : Nat := trapframeVa / 4096

/-- The user pages of a page table. -/
def users (sh : Tree) : Set Nat := {p | ∃ v < userTop, ∃ pte, sh.leaf v = some pte ∧ p = pte2pa pte}

/-- The entry of a leaf. -/
structure LeafEntry (pte : Nat) : Prop where
  valid : Valid pte
  isLeaf : IsLeaf pte
  lt : pte < 2 ^ 64

/-- **A page table of the owner**, with the pages that it holds besides. -/
structure Table (w : Backdrop) (k : Kmem) (root : Nat) (sh : Tree) (extra : Set Nat) : Prop where
  rep : Represents k.mem root sh
  leaves : ∀ v pte, sh.leaf v = some pte → LeafEntry pte
  owns : Owns w k (sh.nodes ∪ users sh ∪ extra)
  nodes_users : Disjoint sh.nodes (users sh)
  nodes_extra : Disjoint sh.nodes extra
  users_extra : Disjoint (users sh) extra
  /-- A user page has one address. -/
  once : ∀ v v' pte pte', v < userTop → v' < userTop → sh.leaf v = some pte →
    sh.leaf v' = some pte' → pte2pa pte = pte2pa pte' → v = v'

theorem users_setLeaf_of_le {sh : Tree} {v : Nat} (fixed : userTop ≤ v) (pte : Option Nat) :
    users (sh.setLeaf v pte) = users sh := by
  have same : ∀ v' < userTop, (sh.setLeaf v pte).leaf v' = sh.leaf v' := fun v' lt =>
    Trie.setLeaf_leaf_of_ne (by omega)
  ext p
  constructor
  · rintro ⟨v', lt, pte', isLeaf, rfl⟩
    exact ⟨v', lt, pte', (same v' lt).symm.trans isLeaf, rfl⟩
  · rintro ⟨v', lt, pte', isLeaf, rfl⟩
    exact ⟨v', lt, pte', (same v' lt).trans isLeaf, rfl⟩

theorem users_setLeaf_some {sh : Tree} {v pte : Nat} (lt : v < userTop)
    (missing : sh.leaf v = none) :
    users (sh.setLeaf v (some pte)) = insert (pte2pa pte) (users sh) := by
  ext p
  constructor
  · rintro ⟨v', lt', pte', isLeaf, rfl⟩
    by_cases eq : v' = v
    · subst eq
      rw [Trie.setLeaf_leaf_self, Option.some.injEq] at isLeaf
      exact .inl (congrArg pte2pa isLeaf.symm)
    · rw [Trie.setLeaf_leaf_of_ne eq] at isLeaf
      exact .inr ⟨v', lt', pte', isLeaf, rfl⟩
  · rintro (rfl | ⟨v', lt', pte', isLeaf, rfl⟩)
    · exact ⟨v, lt, pte, Trie.setLeaf_leaf_self, rfl⟩
    · refine ⟨v', lt', pte', ?_, rfl⟩
      rw [Trie.setLeaf_leaf_of_ne]
      · exact isLeaf
      · rintro rfl
        rw [missing] at isLeaf
        cases isLeaf

namespace Table

variable {w : Backdrop} {k k' : Kmem} {root p t u v level q pte : Nat} {sh : Tree}
  {extra extra' : Set Nat}

theorem users_setLeaf_none (table : Table w k root sh extra) (lt : v < userTop)
    (isLeaf : sh.leaf v = some pte) : users (sh.setLeaf v none) = users sh \ {pte2pa pte} := by
  ext p
  constructor
  · rintro ⟨v', lt', pte', isLeaf', rfl⟩
    have ne : v' ≠ v := by
      rintro rfl
      rw [Trie.setLeaf_leaf_self] at isLeaf'
      cases isLeaf'
    rw [Trie.setLeaf_leaf_of_ne ne] at isLeaf'
    exact ⟨⟨v', lt', pte', isLeaf', rfl⟩,
      fun same => ne (table.once v' v pte' pte lt' lt isLeaf' isLeaf same)⟩
  · rintro ⟨⟨v', lt', pte', isLeaf', rfl⟩, ne⟩
    refine ⟨v', lt', pte', ?_, rfl⟩
    rw [Trie.setLeaf_leaf_of_ne]
    · exact isLeaf'
    · rintro rfl
      rw [isLeaf, Option.some.injEq] at isLeaf'
      exact ne (congrArg pte2pa isLeaf'.symm)

theorem aligned (table : Table w k root sh extra) (isNode : t ∈ sh.nodes) : t % 4096 = 0 :=
  (table.owns.page (.inl (.inl isNode))).2.1

/-- The table stays when its pages do. -/
theorem frame (table : Table w k root sh extra) {w' : Backdrop}
    (owns : Owns w' k' (sh.nodes ∪ users sh ∪ extra'))
    (contents : ∀ t ∈ sh.nodes, ∀ x ∈ pageBytes t, k'.mem x = k.mem x)
    (nodes_extra : Disjoint sh.nodes extra') (users_extra : Disjoint (users sh) extra') :
    Table w' k' root sh extra' where
  rep := table.rep.congr (by decide) fun t isNode _ lt => entry_congr (contents t isNode) lt
  leaves := table.leaves
  owns := owns
  nodes_users := table.nodes_users
  nodes_extra := nodes_extra
  users_extra := users_extra
  once := table.once

/-- `kalloc` of an extra page. -/
theorem kalloc (table : Table w k root sh extra) :
    k.kalloc = .ok (k, 0) ∧ k.freePages = ∅ ∨
      ∃ k' p, k.kalloc = .ok (k', p) ∧ p ≠ 0 ∧ p ∉ extra ∧ Table w k' root sh (insert p extra) ∧
        k'.freePages.ncard + 1 = k.freePages.ncard := by
  rcases table.owns.kalloc with failed | ⟨k', p, call, nonnull, fresh, owns, count, contents⟩
  · exact .inl failed
  · rw [← Set.union_insert] at owns
    simp only [Set.mem_union, not_or] at fresh
    refine .inr ⟨k', p, call, nonnull, fresh.2,
      table.frame owns (fun t isNode => contents t (.inl (.inl isNode))) ?_ ?_, count⟩
    · exact Set.disjoint_insert_right.mpr ⟨fresh.1.1, table.nodes_extra⟩
    · exact Set.disjoint_insert_right.mpr ⟨fresh.1.2, table.users_extra⟩

/-- `kfree` of an extra page. -/
theorem kfree (table : Table w k root sh extra) (isExtra : p ∈ extra) :
    ∃ k', k.kfree p = .ok k' ∧ Table w k' root sh (extra \ {p}) := by
  obtain ⟨k', call, owns, contents⟩ := table.owns.kfree (.inr isExtra)
  have notNode : p ∉ sh.nodes := Set.disjoint_right.mp table.nodes_extra isExtra
  have notUser : p ∉ users sh := Set.disjoint_right.mp table.users_extra isExtra
  have rest : (sh.nodes ∪ users sh ∪ extra) \ {p} = sh.nodes ∪ users sh ∪ (extra \ {p}) := by
    rw [Set.union_sdiff_distrib, Set.sdiff_singleton_eq_self]
    exact fun member => member.elim notNode notUser
  rw [rest] at owns
  refine ⟨k', call, table.frame owns (fun t isNode => contents t (.inl (.inl isNode)) ?_) ?_ ?_⟩
  · rintro rfl
    exact notNode isNode
  · exact table.nodes_extra.mono_right Set.sdiff_subset
  · exact table.users_extra.mono_right Set.sdiff_subset

/-- A write inside a page that is no table. -/
theorem write (table : Table w k root sh extra) (isData : p ∈ users sh ∪ extra) {mem : Mem}
    (outside : SameOutside (pageBytes p) k.mem mem) : Table w (k.setMem mem) root sh extra := by
  have isOwned : p ∈ sh.nodes ∪ users sh ∪ extra :=
    isData.elim (fun isUser => .inl (.inr isUser)) .inr
  refine table.frame (table.owns.write isOwned outside)
    (fun t isNode x inside => ?_) table.nodes_extra table.users_extra
  have ne : t ≠ p := by
    rintro rfl
    rcases isData with isUser | isExtra
    · exact Set.disjoint_left.mp table.nodes_users isNode isUser
    · exact Set.disjoint_left.mp table.nodes_extra isNode isExtra
  exact outside x
    (Set.disjoint_left.mp (table.owns.disjoint (.inl (.inl isNode)) isOwned ne) inside)

/-- A write to an entry of a table keeps the pages. -/
theorem owns_setWord (table : Table w k root sh extra) (isNode : t ∈ sh.nodes) {i value : Nat}
    (lt : i < 512) : Owns w (setWord k (t + 8 * i) value) (sh.nodes ∪ users sh ∪ extra) :=
  table.owns.write (.inl (.inl isNode)) (store_entry_outside lt)

/-- **A blank extra page becomes a table.** -/
theorem grow (table : Table w k root sh (insert p extra)) (notExtra : p ∉ extra) (lt : level < 2)
    (isParent : sh.node (level + 1) (q / 512) = some t) (missing : sh.node level q = none)
    (blank : ∀ i < 512, entry k.mem p i = 0) :
    Table w (setWord k (t + 8 * (q % 512)) (link p)) root (sh.grow level q p) extra := by
  have index : q % 512 < 512 := Nat.mod_lt _ (by decide)
  have isNode : t ∈ sh.nodes := ⟨_, _, isParent⟩
  have notNode : p ∉ sh.nodes := Set.disjoint_right.mp table.nodes_extra (Set.mem_insert p extra)
  have notUser : p ∉ users sh := Set.disjoint_right.mp table.users_extra (Set.mem_insert p extra)
  obtain ⟨_, aligned, low, _⟩ := table.owns.page (.inr (Set.mem_insert p extra))
  have fits : link p < 2 ^ 64 := mkPte_lt (by omega) (by decide)
  have others : ∀ u, u % 4096 = 0 → ∀ i < 512, ¬ (u = t ∧ i = q % 512) →
      entry (setWord k (t + 8 * (q % 512)) (link p)).mem u i = entry k.mem u i :=
      fun u aligned' i lt' ne =>
    entry_store_of_ne (table.aligned isNode) aligned' index lt' ne
  have nodes : (sh.grow level q p).nodes = insert p sh.nodes := Trie.grow_nodes missing
  have sameUsers : users (sh.grow level q p) = users sh := rfl
  refine ⟨?_, table.leaves, ?_, ?_, ?_, ?_, table.once⟩
  · refine table.rep.grow (by decide) lt isParent missing notNode (entry_store_self fits)
      (fun i lt' => ?_) fun u isNode' i lt' ne => others u (table.aligned isNode') i lt' ne
    rw [others p aligned i lt', blank i lt']
    rintro ⟨rfl, _⟩
    exact notNode isNode
  · have owns : Owns w (setWord k (t + 8 * (q % 512)) (link p)) _ := table.owns_setWord isNode index
    rw [Set.union_insert] at owns
    rw [nodes, sameUsers, Set.insert_union, Set.insert_union]
    exact owns
  · rw [nodes, sameUsers]
    exact Set.disjoint_insert_left.mpr ⟨notUser, table.nodes_users⟩
  · rw [nodes]
    exact Set.disjoint_insert_left.mpr ⟨notExtra,
      table.nodes_extra.mono_right (Set.subset_insert p extra)⟩
  · exact table.users_extra.mono_right (Set.subset_insert p extra)

/-- The tree after a write to a leaf entry. -/
theorem rep_setLeaf (table : Table w k root sh extra) {mem : Mem} (rep : Represents mem root sh)
    (isTable : sh.node 0 (v / 512) = some t) (value : Option Nat) (fits : value.getD 0 < 2 ^ 64) :
    Represents (store mem (t + 8 * (v % 512)) 8 (value.getD 0)) root (sh.setLeaf v value) :=
  rep.setLeaf (by decide) isTable (entry_store_self fits) fun _ isNode _ lt ne =>
    entry_store_of_ne (table.aligned ⟨_, _, isTable⟩) (table.aligned isNode)
      (Nat.mod_lt _ (by decide)) lt ne

theorem leaves_setLeaf (table : Table w k root sh extra) {value : Option Nat}
    (entry : ∀ pte ∈ value, LeafEntry pte) :
    ∀ v' pte, (sh.setLeaf v value).leaf v' = some pte → LeafEntry pte := by
  intro v' pte isLeaf
  by_cases eq : v' = v
  · rw [eq, Trie.setLeaf_leaf_self] at isLeaf
    exact entry pte isLeaf
  · rw [Trie.setLeaf_leaf_of_ne eq] at isLeaf
    exact table.leaves v' pte isLeaf

/-- **An extra page is mapped as user memory.** -/
theorem setUser (table : Table w k root sh (insert (pte2pa pte) extra))
    (notExtra : pte2pa pte ∉ extra) (lt : v < userTop) (missing : sh.leaf v = none)
    (isTable : sh.node 0 (v / 512) = some t) (isEntry : LeafEntry pte) :
    Table w (setWord k (t + 8 * (v % 512)) pte) root (sh.setLeaf v (some pte)) extra := by
  have isExtra := Set.mem_insert (pte2pa pte) extra
  have sameUsers : users (sh.setLeaf v (some pte)) = _ := users_setLeaf_some lt missing
  have newPage : ∀ v' pte', v' < userTop → sh.leaf v' = some pte' → pte2pa pte' ≠ pte2pa pte := by
    intro v' pte' lt' isLeaf same
    exact Set.disjoint_right.mp table.users_extra isExtra ⟨v', lt', pte', isLeaf, same.symm⟩
  have index : v % 512 < 512 := Nat.mod_lt _ (by decide)
  have rep : Represents (setWord k (t + 8 * (v % 512)) pte).mem root (sh.setLeaf v (some pte)) :=
    table.rep_setLeaf table.rep isTable (some pte) isEntry.lt
  refine ⟨rep, ?_, ?_, ?_, table.nodes_extra.mono_right (Set.subset_insert _ extra), ?_, ?_⟩
  · exact table.leaves_setLeaf fun pte' isPte => Option.some.inj isPte ▸ isEntry
  · have owns : Owns w (setWord k (t + 8 * (v % 512)) pte) _ :=
      table.owns_setWord ⟨_, _, isTable⟩ index
    rw [Trie.setLeaf_nodes, sameUsers, Set.union_insert, Set.insert_union]
    rw [Set.union_insert] at owns
    exact owns
  · rw [Trie.setLeaf_nodes, sameUsers]
    exact Set.disjoint_insert_right.mpr ⟨Set.disjoint_right.mp table.nodes_extra isExtra,
      table.nodes_users⟩
  · rw [sameUsers]
    exact Set.disjoint_insert_left.mpr ⟨notExtra,
      table.users_extra.mono_right (Set.subset_insert _ extra)⟩
  · intro v₁ v₂ pte₁ pte₂ lt₁ lt₂ isLeaf₁ isLeaf₂ same
    by_cases eq₁ : v₁ = v <;> by_cases eq₂ : v₂ = v
    · exact eq₁.trans eq₂.symm
    · rw [eq₁, Trie.setLeaf_leaf_self, Option.some.injEq] at isLeaf₁
      rw [Trie.setLeaf_leaf_of_ne eq₂] at isLeaf₂
      exact absurd (same.symm.trans (congrArg pte2pa isLeaf₁.symm)) (newPage v₂ pte₂ lt₂ isLeaf₂)
    · rw [eq₂, Trie.setLeaf_leaf_self, Option.some.injEq] at isLeaf₂
      rw [Trie.setLeaf_leaf_of_ne eq₁] at isLeaf₁
      exact absurd (same.trans (congrArg pte2pa isLeaf₂.symm)) (newPage v₁ pte₁ lt₁ isLeaf₁)
    · rw [Trie.setLeaf_leaf_of_ne eq₁] at isLeaf₁
      rw [Trie.setLeaf_leaf_of_ne eq₂] at isLeaf₂
      exact table.once v₁ v₂ pte₁ pte₂ lt₁ lt₂ isLeaf₁ isLeaf₂ same

/-- The entries above user memory. -/
theorem setFixed (table : Table w k root sh extra) (fixed : userTop ≤ v)
    (isTable : sh.node 0 (v / 512) = some t) (value : Option Nat)
    (isEntry : ∀ pte ∈ value, LeafEntry pte) :
    Table w (setWord k (t + 8 * (v % 512)) (value.getD 0)) root (sh.setLeaf v value) extra := by
  have fits : value.getD 0 < 2 ^ 64 := by
    cases value with
    | none => decide
    | some pte => exact (isEntry pte rfl).lt
  have sameUsers : users (sh.setLeaf v value) = users sh := users_setLeaf_of_le fixed value
  refine ⟨table.rep_setLeaf table.rep isTable value fits, table.leaves_setLeaf isEntry, ?_, ?_,
    table.nodes_extra, ?_, ?_⟩
  · rw [Trie.setLeaf_nodes, sameUsers]
    exact table.owns_setWord ⟨_, _, isTable⟩ (Nat.mod_lt _ (by decide))
  · rw [Trie.setLeaf_nodes, sameUsers]
    exact table.nodes_users
  · rw [sameUsers]
    exact table.users_extra
  · intro v₁ v₂ pte₁ pte₂ lt₁ lt₂ isLeaf₁ isLeaf₂
    rw [Trie.setLeaf_leaf_of_ne (by omega)] at isLeaf₁ isLeaf₂
    exact table.once v₁ v₂ pte₁ pte₂ lt₁ lt₂ isLeaf₁ isLeaf₂

/-- **A user page is freed and its entry cleared.** -/
theorem clearUser (table : Table w k root sh extra) (lt : v < userTop)
    (isLeaf : sh.leaf v = some pte) (isTable : sh.node 0 (v / 512) = some t) :
    ∃ k', k.kfree (pte2pa pte) = .ok k' ∧
      Table w (setWord k' (t + 8 * (v % 512)) 0) root (sh.setLeaf v none) extra := by
  have isUser : pte2pa pte ∈ users sh := ⟨v, lt, pte, isLeaf, rfl⟩
  have notNode : pte2pa pte ∉ sh.nodes := Set.disjoint_right.mp table.nodes_users isUser
  have notExtra : pte2pa pte ∉ extra := Set.disjoint_left.mp table.users_extra isUser
  obtain ⟨k', call, owns, contents⟩ := table.owns.kfree (.inl (.inr isUser))
  have sameUsers := table.users_setLeaf_none lt isLeaf
  have rest :
      (sh.nodes ∪ users sh ∪ extra) \ {pte2pa pte} =
      sh.nodes ∪ users (sh.setLeaf v none) ∪ extra := by
    rw [Set.union_sdiff_distrib, Set.union_sdiff_distrib, Set.sdiff_singleton_eq_self notNode,
      Set.sdiff_singleton_eq_self notExtra, sameUsers]
  rw [rest] at owns
  have rep : Represents k'.mem root sh := table.rep.congr (by decide) fun u isNode i lt' => by
    refine entry_congr (contents u (.inl (.inl isNode)) ?_) lt'
    rintro rfl
    exact notNode isNode
  have rep' : Represents (setWord k' (t + 8 * (v % 512)) 0).mem root (sh.setLeaf v none) :=
    table.rep_setLeaf rep isTable none (by decide)
  refine ⟨k', call, rep', ?_, ?_, ?_, table.nodes_extra, ?_, ?_⟩
  · exact table.leaves_setLeaf fun pte' isPte => by cases isPte
  · exact owns.write (.inl (.inl ⟨_, _, isTable⟩)) (store_entry_outside (Nat.mod_lt _ (by decide)))
  · rw [Trie.setLeaf_nodes, sameUsers]
    exact table.nodes_users.mono_right Set.sdiff_subset
  · rw [sameUsers]
    exact table.users_extra.mono_left Set.sdiff_subset
  · intro v₁ v₂ pte₁ pte₂ lt₁ lt₂ isLeaf₁ isLeaf₂
    have ne : ∀ {v' pte'}, (sh.setLeaf v none).leaf v' = some pte' → v' ≠ v := by
      rintro v' pte' isLeaf' rfl
      rw [Trie.setLeaf_leaf_self] at isLeaf'
      cases isLeaf'
    rw [Trie.setLeaf_leaf_of_ne (ne isLeaf₁)] at isLeaf₁
    rw [Trie.setLeaf_leaf_of_ne (ne isLeaf₂)] at isLeaf₂
    exact table.once v₁ v₂ pte₁ pte₂ lt₁ lt₂ isLeaf₁ isLeaf₂

end Table

/-! ### Walking -/

/-- A page table in a memory. -/
structure Mapping (mem : Mem) (root : Nat) (sh : Tree) : Prop where
  rep : Represents mem root sh
  pages : ∀ t ∈ sh.nodes, t ≠ 0 ∧ t % 4096 = 0 ∧ t + 4096 ≤ maxva

/-- The address of the entry of a page, or null. -/
def lookup (sh : Tree) (v : Nat) : Nat := (sh.node 0 (v / 512)).elim 0 fun t => t + 8 * (v % 512)

/-- The tables that are missing below a level on the way to a page. -/
def missing (sh : Tree) (v : Nat) : Nat → Nat
  | 0 => 0
  | level + 1 => missing sh v level + if sh.node level (v / 512 ^ (level + 1)) = none then 1 else 0

variable {w : Backdrop} {k k' : Kmem} {root p t v va level q pte perm : Nat} {sh : Tree}
  {extra : Set Nat}

theorem Table.mapping (table : Table w k root sh extra) : Mapping k.mem root sh :=
  ⟨table.rep, fun _ isNode => ⟨table.owns.nonnull (.inl (.inl isNode)),
    (table.owns.page (.inl (.inl isNode))).2.1, (table.owns.page (.inl (.inl isNode))).2.2.1⟩⟩

theorem Mapping.pte2pa_link {mem : Mem} (mapping : Mapping mem root sh)
    (isNode : sh.node level q = some t) : pte2pa (link t) = t := by
  obtain ⟨_, aligned, low⟩ := mapping.pages t ⟨_, _, isNode⟩
  exact pte2pa_mkPte aligned low (by decide)

/-- The entry that `walk` reads above level 0. -/
theorem Mapping.word_inner (mapping : Mapping k.mem root sh) (lt : level < 2)
    (isNode : sh.node (level + 1) (va / 4096 / 512 ^ (level + 2)) = some t) :
    word k (t + 8 * px (level + 1) va) = (sh.node level (va / 4096 / 512 ^ (level + 1))).elim
    0 link := by
  have up : va / 4096 / 512 ^ (level + 2) = va / 4096 / 512 ^ (level + 1) / 512 := by
    rw [Nat.div_div_eq_div_mul (va / 4096) (512 ^ (level + 1)), ← pow_succ]
  rw [px_eq]
  rw [up] at isNode
  exact mapping.rep.inner level lt _ t isNode

theorem Mapping.walkFrom (mapping : Mapping k.mem root sh) : ∀ level ≤ 2, ∀ t,
    sh.node level (va / 4096 / 512 ^ (level + 1)) = some t →
      Vm.walkFrom va false level k t = .ok (k, lookup sh (va / 4096)) := by
  intro level
  induction level with
  | zero =>
    intro _ t isNode
    rw [zero_add, pow_one] at isNode
    rw [Vm.walkFrom, lookup, isNode, px_eq, pow_zero, Nat.div_one]
    rfl
  | succ level ih =>
    intro le t isNode
    have word := mapping.word_inner (by omega) isNode
    rw [Vm.walkFrom]
    cases child : sh.node level (va / 4096 / 512 ^ (level + 1)) with
    | none =>
      -- Without the table of this level, the one of level 0 is missing, too.
      have none : sh.node 0 (va / 4096 / 512) = none := by
        by_contra isTable
        have above := mapping.rep.ancestor isTable level (by omega)
        rw [Nat.zero_add, Nat.div_div_eq_div_mul, ← pow_succ'] at above
        exact above child
      rw [child] at word
      simp only [word, Option.elim, lookup, none, if_neg not_valid_zero, Bool.not_false, if_true]
    | some u =>
      rw [child] at word
      simp only [word, Option.elim, if_pos (valid_link u), mapping.pte2pa_link child]
      exact ih (by omega) u child

/-- **`walk` without allocation finds the entry of an address.** -/
theorem Mapping.walk (mapping : Mapping k.mem root sh) (low : va < maxva) :
    Vm.walk k root va false = .ok (k, lookup sh (va / 4096)) := by
  rw [Vm.walk, if_neg (by omega)]
  refine mapping.walkFrom 2 le_rfl root ?_
  have top : va / 4096 / 512 ^ (2 + 1) = 0 := by
    simp only [maxva] at low
    norm_num
    omega
  rw [top]
  exact mapping.rep.root_mem

/-- The entry of a page. -/
theorem Mapping.word_lookup (mapping : Mapping k.mem root sh)
    (isTable : sh.node 0 (v / 512) = some t) :
    lookup sh v = t + 8 * (v % 512) ∧ lookup sh v ≠ 0 ∧
    word k (lookup sh v) = (sh.leaf v).getD 0 := by
  have eq : lookup sh v = t + 8 * (v % 512) := by rw [lookup, isTable]; rfl
  have nonnull := (mapping.pages t ⟨_, _, isTable⟩).1
  refine ⟨eq, by omega, ?_⟩
  rw [eq]
  exact mapping.rep.outer v t isTable

theorem Mapping.lookup_none (mapping : Mapping k.mem root sh)
    (noTable : sh.node 0 (v / 512) = none) : lookup sh v = 0 ∧ sh.leaf v = none := by
  refine ⟨by rw [lookup, noTable]; rfl, ?_⟩
  by_contra isLeaf
  exact mapping.rep.covered v isLeaf noTable

theorem missing_grow {u : Nat} :
    ∀ level' ≤ level, missing (sh.grow level q u) v level' = missing sh v level'
  | 0, _ => rfl
  | level' + 1, le => by
    rw [missing, missing, missing_grow level' (by omega),
      Trie.grow_node_of_ne (fun here => absurd here.1 (by omega))]

/-- What `walk` did with allocation: it found no free page, or it added the missing tables. -/
def Walked (w : Backdrop) (k k' : Kmem) (root : Nat) (sh sh' : Tree) (extra : Set Nat)
    (v need addr : Nat) : Prop :=
  Table w k' root sh' extra ∧ sh'.leaf = sh.leaf ∧
    (addr = 0 ∧ k.freePages.ncard < need ∨
      (∃ t, sh'.node 0 (v / 512) = some t ∧ addr = t + 8 * (v % 512)) ∧
      k'.freePages.ncard + need = k.freePages.ncard)

theorem Table.walkFrom_alloc : ∀ level ≤ 2, ∀ {k sh t}, Table w k root sh extra →
    sh.node level (va / 4096 / 512 ^ (level + 1)) = some t →
      ∃ k' sh' addr, Vm.walkFrom va true level k t = .ok (k', addr) ∧
        Walked w k k' root sh sh' extra (va / 4096) (missing sh (va / 4096) level) addr := by
  intro level
  induction level with
  | zero =>
    intro _ k sh t table isNode
    rw [zero_add, pow_one] at isNode
    refine ⟨k, sh, _, rfl, table, rfl, .inr ⟨⟨t, isNode, ?_⟩, rfl⟩⟩
    rw [px_eq, pow_zero, Nat.div_one]
  | succ level ih =>
    intro le k sh t table isNode
    have mapping := table.mapping
    have word := mapping.word_inner (by omega) isNode
    rw [Vm.walkFrom]
    cases child : sh.node level (va / 4096 / 512 ^ (level + 1)) with
    | some u =>
      rw [child] at word
      simp only [word, Option.elim, if_pos (valid_link u), mapping.pte2pa_link child,
        missing, child, if_neg (Option.some_ne_none u), Nat.add_zero]
      exact ih (by omega) table child
    | none =>
      rw [child] at word
      simp only [word, Option.elim, if_neg not_valid_zero, Bool.not_true, Bool.false_eq_true,
        if_false, missing, child, if_true]
      rcases table.kalloc with ⟨call, none⟩ | ⟨k₁, p, call, nonnull, notExtra, table₁, count⟩
      · refine ⟨k, sh, 0, ?_, table, rfl, .inl ⟨rfl, ?_⟩⟩
        · rw [call]
          rfl
        · rw [none, Set.ncard_empty]
          omega
      · have table₂ : Table w (k₁.setMem (fill k₁.mem p 4096 0)) root sh (insert p extra) :=
          table₁.write (.inr (Set.mem_insert p extra)) fill_page_outside
        have up : va / 4096 / 512 ^ (level + 2) = va / 4096 / 512 ^ (level + 1) / 512 := by
          rw [Nat.div_div_eq_div_mul (va / 4096) (512 ^ (level + 1)), ← pow_succ]
        rw [up] at isNode
        have table₃ := table₂.grow notExtra (by omega) isNode child fun i lt => entry_fill lt
        obtain ⟨k', sh', addr, run, table', leaf, result⟩ :=
          ih (by omega) table₃ Trie.grow_node_self
        refine ⟨k', sh', addr, ?_, table', leaf, ?_⟩
        · rw [call]
          simp only [bind, Except.bind, if_neg nonnull, memset, px_eq]
          exact run
        · rw [missing_grow level le_rfl] at result
          have free :
            (setWord (k₁.setMem (fill k₁.mem p 4096 0))
              (t + 8 * (va / 4096 / 512 ^ (level + 1) % 512))
            (link p)).freePages.ncard = k₁.freePages.ncard := rfl
          rw [free] at result
          rcases result with ⟨null, few⟩ | ⟨found, count'⟩
          · exact .inl ⟨null, by omega⟩
          · exact .inr ⟨found, by omega⟩

/-- **`walk` with allocation.** -/
theorem Table.walk_alloc (table : Table w k root sh extra) (va : Nat) (low : va < maxva) :
    ∃ k' sh' addr, Vm.walk k root va true = .ok (k', addr) ∧
      Walked w k k' root sh sh' extra (va / 4096) (missing sh (va / 4096) 2) addr := by
  rw [Vm.walk, if_neg (by omega)]
  refine Table.walkFrom_alloc 2 le_rfl table ?_
  have top : va / 4096 / 512 ^ (2 + 1) = 0 := by
    simp only [maxva] at low
    norm_num
    omega
  rw [top]
  exact table.rep.root_mem

/-! ### Mapping a page -/

/-- `mappages` of one page, after its `walk`. -/
theorem mappages_page {addr pa : Nat} (walked : Vm.walk k root (4096 * v) true = .ok (k', addr)) :
    mappages k root (4096 * v) 4096 pa perm = if addr = 0 then .ok (k', false)
      else if Valid (word k' addr) then .error (.panic "mappages: remap")
      else .ok (setWord k' addr (mkPte pa perm), true) := by
  rw [mappages, if_neg (by omega), if_neg (by decide), if_neg (by decide),
    show 4096 / 4096 = 1 from rfl, mapLoop, walked]
  rfl

theorem page_of_mul (v : Nat) : 4096 * v / 4096 = v := Nat.mul_div_cancel_left v (by decide)

/-- The permissions of a leaf. -/
structure LeafPerm (perm : Nat) : Prop where
  lt : perm < 1024
  isLeaf : perm / 2 % 8 ≠ 0

theorem LeafPerm.entry (isPerm : LeafPerm perm) {pa : Nat} (low : pa ≤ maxva) :
    LeafEntry (mkPte pa perm) :=
  ⟨valid_mkPte pa perm, isLeaf_mkPte isPerm.isLeaf, mkPte_lt low isPerm.lt⟩

/-- The way to an entry that is not in use: `walk` failed, or the entry is blank. -/
theorem Table.walk_blank (table : Table w k root sh extra) (low : v < 2 ^ 26)
    (isBlank : sh.leaf v = none) :
    ∃ k' sh' addr, Vm.walk k root (4096 * v) true = .ok (k', addr) ∧ Table w k' root sh' extra ∧
      sh'.leaf = sh.leaf ∧
      (addr = 0 ∧ k.freePages.ncard < missing sh v 2 ∨ addr ≠ 0 ∧ ¬ Valid (word k' addr) ∧
        k'.freePages.ncard + missing sh v 2 = k.freePages.ncard ∧
          ∃ t, sh'.node 0 (v / 512) = some t ∧ addr = t + 8 * (v % 512)) := by
  obtain ⟨k', sh', addr, walked, table', leaf, result⟩ :=
    table.walk_alloc (4096 * v) (by simp only [maxva]; omega)
  rw [page_of_mul] at result
  refine ⟨k', sh', addr, walked, table', leaf, ?_⟩
  rcases result with failed | ⟨⟨t, isTable, isAddr⟩, count⟩
  · exact .inl failed
  · obtain ⟨eq, nonnull, word⟩ := table'.mapping.word_lookup isTable
    rw [leaf, isBlank] at word
    rw [eq, ← isAddr] at nonnull word
    refine .inr ⟨nonnull, ?_, count, t, isTable, isAddr⟩
    rw [word]
    exact not_valid_zero

/-- **`mappages` of an extra page as user memory.** -/
theorem Table.mapUser (table : Table w k root sh (insert p extra)) (notExtra : p ∉ extra)
    (lt : v < userTop) (isBlank : sh.leaf v = none) (isPerm : LeafPerm perm) :
    ∃ k' sh' mapped, mappages k root (4096 * v) 4096 p perm = .ok (k', mapped) ∧
      (mapped = false ∧ Table w k' root sh' (insert p extra) ∧ sh'.leaf = sh.leaf ∨
        mapped = true ∧ Table w k' root sh' extra ∧
        sh'.leaf = Function.update sh.leaf v (some (mkPte p perm))) := by
  simp only [userTop, trapframeVa, trampoline, maxva] at lt
  obtain ⟨k₁, sh₁, addr, walked, table₁, leaf, result⟩ :=
    table.walk_blank (v := v) (by omega) isBlank
  rw [mappages_page walked]
  rcases result with ⟨null, _⟩ | ⟨nonnull, notValid, _, t, isTable, isAddr⟩
  · exact ⟨k₁, sh₁, false, if_pos null, .inl ⟨rfl, table₁, leaf⟩⟩
  · rw [if_neg nonnull, if_neg notValid]
    obtain ⟨_, aligned, low, _⟩ := table₁.owns.page (.inr (Set.mem_insert p extra))
    have isPage : pte2pa (mkPte p perm) = p := pte2pa_mkPte aligned low isPerm.lt
    refine ⟨_, sh₁.setLeaf v (some (mkPte p perm)), true, rfl, .inr ⟨rfl, ?_, ?_⟩⟩
    · rw [isAddr]
      refine Table.setUser (by rw [isPage]; exact table₁)
        (by rw [isPage]; exact notExtra) lt ?_ isTable (isPerm.entry (by omega))
      rw [leaf]
      exact isBlank
    · rw [← leaf]
      rfl

/-- `mappages` of a page above user memory. -/
theorem Table.mapFixed (table : Table w k root sh extra) (fixed : userTop ≤ v) (low : v < 2 ^ 26)
    (isBlank : sh.leaf v = none) (isPerm : LeafPerm perm) (isPage : p ≤ maxva) :
    ∃ k' sh' mapped, mappages k root (4096 * v) 4096 p perm = .ok (k', mapped) ∧
      (mapped = false ∧ Table w k' root sh' extra ∧ sh'.leaf = sh.leaf ∧
        k.freePages.ncard < missing sh v 2 ∨
        mapped = true ∧ Table w k' root sh' extra ∧
          sh'.leaf = Function.update sh.leaf v (some (mkPte p perm)) ∧
          (∃ t, sh'.node 0 (v / 512) = some t) ∧
          k'.freePages.ncard + missing sh v 2 = k.freePages.ncard) := by
  obtain ⟨k₁, sh₁, addr, walked, table₁, leaf, result⟩ := table.walk_blank low isBlank
  rw [mappages_page walked]
  rcases result with ⟨null, few⟩ | ⟨nonnull, notValid, count, t, isTable, isAddr⟩
  · exact ⟨k₁, sh₁, false, if_pos null, .inl ⟨rfl, table₁, leaf, few⟩⟩
  · rw [if_neg nonnull, if_neg notValid, isAddr]
    have table₂ := table₁.setFixed fixed isTable (some (mkPte p perm))
      fun pte isPte => Option.some.inj isPte ▸ isPerm.entry isPage
    refine ⟨_, sh₁.setLeaf v (some (mkPte p perm)), true, rfl,
      .inr ⟨rfl, table₂, ?_, ⟨t, isTable⟩, count⟩⟩
    rw [← leaf]
    rfl

/-! ### Unmapping -/

/-- What `uvmunmap` does with the entry of a page: nothing is mapped, or its leaf goes. -/
theorem Table.unmapEntry_cases (table : Table w k root sh extra) (v : Nat) (doFree : Bool) :
    unmapEntry k (lookup sh v) doFree = .ok k ∧ sh.setLeaf v none = sh ∨
      ∃ t pte, sh.node 0 (v / 512) = some t ∧ sh.leaf v = some pte ∧
      unmapEntry k (lookup sh v) doFree =
        if doFree then k.kfree (pte2pa pte) >>= fun k => .ok (setWord k (t + 8 * (v % 512)) 0)
        else .ok (setWord k (t + 8 * (v % 512)) 0) := by
  have nothing : sh.leaf v = none → sh.setLeaf v none = sh := fun isBlank => by
    rw [Trie.setLeaf, ← isBlank, Function.update_eq_self]
  cases isTable : sh.node 0 (v / 512) with
  | none =>
    obtain ⟨null, isBlank⟩ := table.mapping.lookup_none isTable
    exact .inl ⟨if_pos null, nothing isBlank⟩
  | some t =>
    obtain ⟨eq, nonnull, word⟩ := table.mapping.word_lookup isTable
    unfold unmapEntry
    rw [if_neg nonnull]
    cases isLeaf : sh.leaf v with
    | none =>
      rw [isLeaf] at word
      rw [word, if_pos (show ¬ Valid ((none : Option Nat).getD 0) from not_valid_zero)]
      exact .inl ⟨rfl, nothing isLeaf⟩
    | some pte =>
      replace word : Vm.word k (lookup sh v) = pte := by rw [word, isLeaf]; rfl
      rw [word, if_neg (not_not.mpr (table.leaves v pte isLeaf).valid), eq]
      exact .inr ⟨t, pte, rfl, rfl, rfl⟩

/-- `uvmunmap` of a user page that may be mapped. -/
theorem Table.unmapEntry_user (table : Table w k root sh extra) (lt : v < userTop) :
    ∃ k', unmapEntry k (lookup sh v) true = .ok k' ∧ Table w k' root (sh.setLeaf v none) extra := by
  rcases table.unmapEntry_cases v true with ⟨call, same⟩ | ⟨t, pte, isTable, isLeaf, call⟩
  · exact ⟨k, call, same.symm ▸ table⟩
  · obtain ⟨k', freed, table'⟩ := table.clearUser lt isLeaf isTable
    refine ⟨_, ?_, table'⟩
    rw [call, if_pos rfl, freed]
    rfl

/-- **`uvmunmap` of user memory.** -/
theorem Table.unmapLoop : ∀ (n : Nat) {k sh v}, Table w k root sh extra → v + n ≤ userTop →
    ∃ k' sh', Vm.unmapLoop root true n k (4096 * v) = .ok k' ∧ Table w k' root sh' extra ∧
      ∀ x, sh'.leaf x = if v ≤ x ∧ x < v + n then none else sh.leaf x
  | 0, k, sh, v, table, _ => ⟨k, sh, rfl, table, fun x => (if_neg (by omega)).symm⟩
  | n + 1, k, sh, v, table, fits => by
    have below : v < userTop := by omega
    simp only [userTop, trapframeVa, trampoline, maxva] at fits
    obtain ⟨k₁, call, table₁⟩ := table.unmapEntry_user below
    obtain ⟨k', sh', run, table', leaf⟩ := Table.unmapLoop n (v := v + 1) table₁
      (by simp only [userTop, trapframeVa, trampoline, maxva]; omega)
    refine ⟨k', sh', ?_, table', fun x => ?_⟩
    · rw [Vm.unmapLoop, table.mapping.walk (by simp only [maxva]; omega), page_of_mul]
      show (unmapEntry k (lookup sh v) true >>= fun k => Vm.unmapLoop root true n k
        (4096 * v + 4096)) = _
      rw [call, ← Nat.mul_succ]
      exact run
    · rw [leaf]
      by_cases eq : x = v
      · rw [eq, if_neg (by omega), if_pos (by omega), Trie.setLeaf_leaf_self]
      · rw [Trie.setLeaf_leaf_of_ne eq]
        exact if_congr (by omega) rfl rfl

/-- `uvmunmap` of a page above user memory. -/
theorem Table.unmapFixed (table : Table w k root sh extra) (fixed : userTop ≤ v)
    (low : v < 2 ^ 26) :
    ∃ k', uvmunmap k root (4096 * v) 1 false = .ok k' ∧
    Table w k' root (sh.setLeaf v none) extra := by
  have run : uvmunmap k root (4096 * v) 1 false = unmapEntry k (lookup sh v) false := by
    rw [uvmunmap, if_neg (by omega), Vm.unmapLoop, table.mapping.walk (by simp only [maxva]; omega),
      page_of_mul]
    show (unmapEntry k (lookup sh v) false >>= Except.ok) = _
    cases unmapEntry k (lookup sh v) false <;> rfl
  rw [run]
  rcases table.unmapEntry_cases v false with ⟨call, same⟩ | ⟨t, pte, isTable, isLeaf, call⟩
  · exact ⟨k, call, same.symm ▸ table⟩
  · exact ⟨_, call, table.setFixed fixed isTable none fun pte isPte => by cases isPte⟩

/-! ### Taking the tables down -/

section Freewalk

variable {mem : Mem} {owned : Set Nat} {free : Kmem → Nat → Except Fault Kmem}

/-- `free` gives back a table at a level with what is under it, when its entries are those of
`mem`. -/
def Frees (w : Backdrop) (mem : Mem) (sh : Tree) (level : Nat)
    (free : Kmem → Nat → Except Fault Kmem) : Prop :=
  ∀ q t k owned, sh.node level q = some t → Owns w k owned → sh.below 512 level q ⊆ owned →
    (∀ u ∈ sh.below 512 level q, ∀ i < 512, entry k.mem u i = entry mem u i) →
      ∃ k', free k t = .ok k' ∧ Owns w k' (owned \ sh.below 512 level q) ∧
        ∀ u ∈ owned, u ∉ sh.below 512 level q → ∀ x ∈ pageBytes u, k'.mem x = k.mem x

/-- A table at level 0 is blank. -/
theorem frees_zero (rep : Represents mem root sh) (noLeaf : ∀ v, sh.leaf v = none) :
    Frees w mem sh 0 (freewalk 1) := by
  intro q t k owned isNode owns sub same
  have isBelow : t ∈ sh.below 512 0 q := isNode
  have blank : ∀ i < 512, freeEntry (freewalk 0) t k i = .ok k := by
    intro i lt
    have word : word k (t + 8 * i) = 0 := by
      refine (same t isBelow i lt).trans ?_
      rw [rep.outer_index isNode lt, noLeaf]
      rfl
    rw [freeEntry, word]
    exact (if_neg fun valid => not_valid_zero valid.1).trans (if_neg not_valid_zero)
  obtain ⟨s, run, isK⟩ :=
    Machine.loop_of_steps (fun _ s => s = k) rfl (n := 512) (fun i lt s isK => by
    subst isK
    exact ⟨s, blank i lt, rfl⟩)
  subst isK
  obtain ⟨k', freed, owns', contents⟩ := owns.kfree (sub isBelow)
  rw [← Trie.below_zero isNode] at owns'
  refine ⟨k', ?_, owns', fun u isOwned notBelow => contents u isOwned fun eq =>
    notBelow (eq ▸ isBelow)⟩
  rw [freewalk, run]
  exact freed

/-- What the loop of `freewalk` keeps: the subtrees of the first entries are gone, everything else
is as it was. -/
structure FreeLoop (w : Backdrop) (k : Kmem) (owned : Set Nat) (sh : Tree) (level q t n : Nat)
    (s : Kmem) : Prop where
  owns : Owns w s (owned \ sh.first 512 level q n)
  contents : ∀ u ∈ owned, u ∉ sh.first 512 level q n → u ≠ t → ∀ x ∈ pageBytes u, s.mem x = k.mem x
  entries : ∀ i, n ≤ i → i < 512 → entry s.mem t i = entry k.mem t i

/-- One round of the loop. -/
theorem FreeLoop.step (rep : Represents mem root sh) (frees : Frees w mem sh level free)
    (lt : level < 2) (isNode : sh.node (level + 1) q = some t)
    (sub : sh.below 512 (level + 1) q ⊆ owned)
    (same : ∀ u ∈ sh.below 512 (level + 1) q, ∀ i < 512, entry k.mem u i = entry mem u i) {i : Nat}
    (index : i < 512) {s : Kmem} (loop : FreeLoop w k owned sh level q t i s) :
    ∃ s', freeEntry free t s i = .ok s' ∧ FreeLoop w k owned sh level q t (i + 1) s' := by
  have above : ∀ p, t ∉ sh.below 512 level p := fun p => rep.notMem_below (by decide) isNode
  have word : word s (t + 8 * i) = (sh.node level (q * 512 + i)).elim 0 link :=
    (loop.entries i le_rfl index).trans
      ((same t (.inl isNode) i index).trans (rep.inner_index lt isNode index))
  unfold freeEntry
  cases child : sh.node level (q * 512 + i) with
  | none =>
    replace word : Vm.word s (t + 8 * i) = 0 := word.trans (by rw [child]; rfl)
    rw [word]
    have nothing : sh.first 512 level q (i + 1) = sh.first 512 level q i := by
      rw [Trie.first_succ, rep.below_eq_empty (by decide) (by omega) child, Set.union_empty]
    refine ⟨s, ?_, nothing.symm ▸ loop.owns, nothing.symm ▸ loop.contents,
      fun j after => loop.entries j (by omega)⟩
    exact (if_neg fun valid => not_valid_zero valid.1).trans (if_neg not_valid_zero)
  | some u =>
    replace word : Vm.word s (t + 8 * i) = link u := word.trans (by rw [child]; rfl)
    rw [word, if_pos ⟨valid_link u, not_isLeaf_link u⟩]
    have inOwned : ∀ u ∈ sh.below 512 level (q * 512 + i), u ∈ owned ∧ u ∉ sh.first 512 level q i ∧
        u ≠ t := by
      intro u member
      refine ⟨sub (.inr ⟨i, index, member⟩), ?_, ?_⟩
      · rintro ⟨j, before, member'⟩
        exact Set.disjoint_left.mp (rep.below_disjoint (by decide) (by omega)) member' member
      · rintro rfl
        exact above _ member
    obtain ⟨s', freed, owns', contents'⟩ := frees _ u s _ child loop.owns
      (fun u member => ⟨(inOwned u member).1, (inOwned u member).2.1⟩) (by
        intro u member j lt'
        obtain ⟨isOwned, notFirst, ne⟩ := inOwned u member
        rw [entry_congr (loop.contents u isOwned notFirst ne) lt',
          same u (.inr ⟨i, index, member⟩) j lt'])
    rw [Set.sdiff_sdiff, ← Trie.first_succ] at owns'
    have notFirst : ∀ n, t ∉ sh.first 512 level q n := fun n ⟨_, _, member⟩ => above _ member
    have tOwned : t ∈ owned \ sh.first 512 level q (i + 1) := ⟨sub (.inl isNode), notFirst _⟩
    have outside : SameOutside (pageBytes t) s'.mem (setWord s' (t + 8 * i) 0).mem :=
      store_entry_outside index
    refine ⟨setWord s' (t + 8 * i) 0, ?_, owns'.write tOwned outside, ?_, ?_⟩
    · have isPage : pte2pa (link u) = u := by
        have isBelow : u ∈ sh.below 512 level (q * 512 + i) :=
          (Rep.mem_below (by decide)).mpr ⟨level, le_rfl, _, child, by simp⟩
        obtain ⟨_, aligned, low, _⟩ :=
          loop.owns.page ⟨(inOwned u isBelow).1, (inOwned u isBelow).2.1⟩
        exact pte2pa_mkPte aligned low (by decide)
      rw [isPage, freed]
      rfl
    · intro u' isOwned notFirst' ne x inside
      rw [Trie.first_succ, Set.mem_union, not_or] at notFirst'
      have apart :=
        owns'.disjoint (p := u') (q := t)
          ⟨isOwned, by rw [Trie.first_succ]; exact not_or.mpr notFirst'⟩ tOwned ne
      rw [outside x (Set.disjoint_left.mp apart inside),
        contents' u' ⟨isOwned, notFirst'.1⟩ notFirst'.2 x inside]
      exact loop.contents u' isOwned notFirst'.1 ne x inside
    · intro j after lt'
      obtain ⟨_, aligned, _⟩ := owns'.page tOwned
      refine (entry_store_of_ne aligned aligned index lt' fun same =>
        absurd same.2 (by omega)).trans ?_
      rw [entry_congr (contents' t ⟨sub (.inl isNode), notFirst i⟩ (above _)) lt']
      exact loop.entries j (by omega) lt'

/-- **A table above level 0.** -/
theorem Frees.succ (rep : Represents mem root sh) (lt : level < 2)
    (frees : Frees w mem sh level (freewalk (level + 1))) :
    Frees w mem sh (level + 1) (freewalk (level + 2)) := by
  intro q t k owned isNode owns sub same
  have start : FreeLoop w k owned sh level q t 0 k := by
    refine ⟨?_, fun _ _ _ _ _ _ => rfl, fun _ _ _ => rfl⟩
    rw [Trie.first_zero, Set.sdiff_empty]
    exact owns
  obtain ⟨s, run, loop⟩ := Machine.loop_of_steps (FreeLoop w k owned sh level q t) start
    fun i index s loop => loop.step rep frees lt isNode sub same index
  have tOwned : t ∈ owned \ sh.first 512 level q 512 :=
    ⟨sub (.inl isNode), fun ⟨_, _, member⟩ => rep.notMem_below (by decide) isNode member⟩
  obtain ⟨k', freed, owns', contents⟩ := loop.owns.kfree tOwned
  rw [Set.sdiff_sdiff, Set.union_singleton, ← Trie.below_succ isNode] at owns'
  refine ⟨k', ?_, owns', fun u isOwned notBelow x inside => ?_⟩
  · rw [freewalk, run]
    exact freed
  · have ne : u ≠ t := fun eq => notBelow (eq ▸ .inl isNode)
    have notFirst : u ∉ sh.first 512 level q 512 := fun member => notBelow (.inr member)
    exact (contents u ⟨isOwned, notFirst⟩ ne x inside).trans
      (loop.contents u isOwned notFirst ne x inside)

/-- **Without leaves, `freewalk` gives back every table and nothing else.** -/
theorem Table.freewalk (table : Table w k root sh extra) (noLeaf : ∀ v, sh.leaf v = none) :
    ∃ k', Vm.freewalk 3 k root = .ok k' ∧ Owns w k' extra := by
  have frees : Frees w k.mem sh 2 (Vm.freewalk 3) :=
    (Frees.succ table.rep (by decide)
      (Frees.succ table.rep (by decide) (frees_zero table.rep noLeaf)))
  have noUser : users sh = ∅ := Set.eq_empty_of_forall_notMem fun p ⟨v, _, pte, isLeaf, _⟩ => by
    rw [noLeaf] at isLeaf
    cases isLeaf
  have owns := table.owns
  rw [noUser, Set.union_empty] at owns
  have all := table.rep.below_root (by decide)
  obtain ⟨k', freed, owns', _⟩ :=
    frees 0 root k _ table.rep.root_mem owns (by rw [all]; exact Set.subset_union_left)
    fun _ _ _ _ => rfl
  refine ⟨k', freed, ?_⟩
  rw [all, Set.union_sdiff_cancel_left] at owns'
  · exact owns'
  · exact table.nodes_extra.inter_eq.subset

end Freewalk

end Vm

end Xv6Slab
