/-
**Radix trees of linked tables.**

A table has `b` entries. A tree of height `h` has one table at level `h`, and an entry of a table at
level `L + 1` is blank or the link to a table at level `L`; the entries of the tables at level 0 are
the leaves. `Trie` names the tables by level and prefix and the leaves by key, and `Rep` says that
the entries of the tables are those of a shape:

* `Rep.inner`, `Rep.outer` — what a lookup reads on its way down;
* `Rep.grow`, `Rep.setLeaf` — linking a new table, and writing one leaf;
* `Trie.below` — the tables under a table, with which the tree is taken down.
-/

import Mathlib.Data.Set.Card
import Mathlib.Logic.Function.Basic
import Mathlib.Tactic
import Mathlib.Order.CompletePartialOrder

namespace Radix

variable {τ ω : Type}

/-- The tables by level and prefix, and the leaves by key. -/
structure Trie (τ ω : Type) where
  node : Nat → Nat → Option τ
  leaf : Nat → Option ω

namespace Trie

/-- The tables. -/
def nodes (sh : Trie τ ω) : Set τ := {t | ∃ level q, sh.node level q = some t}

/-- The tree of a single table. -/
def single (height : Nat) (root : τ) : Trie τ ω where
  node := fun level q => if level = height ∧ q = 0 then some root else none
  leaf := fun _ => none

/-- A new table. -/
def grow (sh : Trie τ ω) (level q : Nat) (t : τ) : Trie τ ω where
  node := fun level' q' => if level' = level ∧ q' = q then some t else sh.node level' q'
  leaf := sh.leaf

/-- A new or removed leaf. -/
def setLeaf (sh : Trie τ ω) (v : Nat) (w : Option ω) : Trie τ ω where
  node := sh.node
  leaf := Function.update sh.leaf v w

variable {sh : Trie τ ω} {level q v : Nat} {t : τ} {w : Option ω}

@[simp] theorem single_leaf (height : Nat) (root : τ) :
    (single height root : Trie τ ω).leaf v = none := rfl

@[simp] theorem grow_leaf : (sh.grow level q t).leaf = sh.leaf := rfl

@[simp] theorem setLeaf_node : (sh.setLeaf v w).node = sh.node := rfl

@[simp] theorem setLeaf_nodes : (sh.setLeaf v w).nodes = sh.nodes := rfl

@[simp] theorem setLeaf_leaf_self : (sh.setLeaf v w).leaf v = w := Function.update_self ..

theorem setLeaf_leaf_of_ne {v' : Nat} (ne : v' ≠ v) : (sh.setLeaf v w).leaf v' = sh.leaf v' :=
  Function.update_of_ne ne ..

theorem grow_node_self : (sh.grow level q t).node level q = some t := if_pos ⟨rfl, rfl⟩

theorem grow_node_of_ne {level' q' : Nat} (ne : ¬ (level' = level ∧ q' = q)) :
    (sh.grow level q t).node level' q' = sh.node level' q' := if_neg ne

@[simp] theorem single_nodes (height : Nat) (root : τ) :
    (single height root : Trie τ ω).nodes = {root} := by
  ext t
  constructor
  · rintro ⟨level, q, isNode⟩
    simp only [single] at isNode
    split at isNode
    · exact (Option.some.inj isNode).symm
    · cases isNode
  · rintro rfl
    exact ⟨height, 0, if_pos ⟨rfl, rfl⟩⟩

theorem grow_nodes (missing : sh.node level q = none) :
    (sh.grow level q t).nodes = insert t sh.nodes := by
  ext u
  constructor
  · rintro ⟨level', q', isNode⟩
    by_cases here : level' = level ∧ q' = q
    · obtain ⟨rfl, rfl⟩ := here
      rw [grow_node_self] at isNode
      exact .inl (Option.some.inj isNode).symm
    · rw [grow_node_of_ne here] at isNode
      exact .inr ⟨level', q', isNode⟩
  · rintro (rfl | ⟨level', q', isNode⟩)
    · exact ⟨level, q, grow_node_self⟩
    · refine ⟨level', q', ?_⟩
      rw [grow_node_of_ne]
      · exact isNode
      · rintro ⟨rfl, rfl⟩
        rw [missing] at isNode
        cases isNode

/-- The tables at or under the one at a level, with a prefix. -/
def below (b : Nat) (sh : Trie τ ω) : Nat → Nat → Set τ
  | 0, p => {t | sh.node 0 p = some t}
  | level + 1,
    p => {t | sh.node (level + 1) p = some t} ∪ {t | ∃ i < b, t ∈ sh.below b level (p * b + i)}

/-- The tables under the first `n` entries of a table. -/
def first (b : Nat) (sh : Trie τ ω) (level p n : Nat) : Set τ :=
  {t | ∃ i < n, t ∈ sh.below b level (p * b + i)}

theorem first_zero (b : Nat) (sh : Trie τ ω) (level p : Nat) : sh.first b level p 0 = ∅ :=
  Set.eq_empty_of_forall_notMem fun _ ⟨i, lt, _⟩ => Nat.not_lt_zero i lt

theorem first_succ (b : Nat) (sh : Trie τ ω) (level p n : Nat) :
    sh.first b level p (n + 1) = sh.first b level p n ∪ sh.below b level (p * b + n) := by
  ext t
  constructor
  · rintro ⟨i, lt, member⟩
    rcases Nat.lt_succ_iff_lt_or_eq.mp lt with before | rfl
    · exact .inl ⟨i, before, member⟩
    · exact .inr member
  · rintro (⟨i, lt, member⟩ | member)
    · exact ⟨i, Nat.lt_succ_of_lt lt, member⟩
    · exact ⟨n, Nat.lt_succ_self n, member⟩

theorem below_zero {b p : Nat} {t : τ} {sh : Trie τ ω} (isNode : sh.node 0 p = some t) :
    sh.below b 0 p = {t} := by
  ext u
  exact ⟨fun isNode' => Option.some.inj (isNode'.symm.trans isNode), fun eq => eq ▸ isNode⟩

/-- A table and what is under its entries. -/
theorem below_succ {b level p : Nat} {t : τ} {sh : Trie τ ω}
    (isNode : sh.node (level + 1) p = some t) :
    sh.below b (level + 1) p = insert t (sh.first b level p b) := by
  ext u
  exact or_congr_left ⟨fun isNode' => Option.some.inj (isNode'.symm.trans isNode),
    fun eq => eq ▸ isNode⟩

end Trie

/-- **The entries of the tables are those of a shape.** -/
structure Rep (b height : Nat) (link : τ → ω) (blank : ω) (entry : τ → Nat → ω) (root : τ)
    (sh : Trie τ ω) : Prop where
  top : ∀ level q, height ≤ level → sh.node level q = if level = height ∧
      q = 0 then some root else none
  inner : ∀ level < height, ∀ q t, sh.node (level + 1) (q / b) = some t →
    entry t (q % b) = (sh.node level q).elim blank link
  outer : ∀ v t, sh.node 0 (v / b) = some t → entry t (v % b) = (sh.leaf v).getD blank
  parent : ∀ level < height, ∀ q, sh.node level q ≠ none → sh.node (level + 1) (q / b) ≠ none
  covered : ∀ v, sh.leaf v ≠ none → sh.node 0 (v / b) ≠ none
  /-- A table is linked once. -/
  once : ∀ level level' q q' t, sh.node level q = some t → sh.node level' q' = some t →
      level = level' ∧ q = q'

namespace Rep

variable {b height level q v : Nat} {link : τ → ω} {blank : ω} {entry entry' : τ → Nat → ω}
  {root s t : τ} {sh : Trie τ ω} {w : Option ω}

theorem root_mem (rep : Rep b height link blank entry root sh) : sh.node height 0 = some root :=
  (rep.top height 0 le_rfl).trans (if_pos ⟨rfl, rfl⟩)

/-- A tree depends on the entries of its tables only. -/
theorem congr (rep : Rep b height link blank entry root sh) (pos : 0 < b)
    (same : ∀ t ∈ sh.nodes, ∀ i < b, entry' t i = entry t i) :
    Rep b height link blank entry' root sh where
  top := rep.top
  inner := fun level lt q t isNode =>
    (same t ⟨_, _, isNode⟩ _ (Nat.mod_lt _ pos)).trans (rep.inner level lt q t isNode)
  outer := fun v t isNode => (same t ⟨_, _, isNode⟩ _ (Nat.mod_lt _ pos)).trans
    (rep.outer v t isNode)
  parent := rep.parent
  covered := rep.covered
  once := rep.once

/-- A blank table is a tree. -/
theorem single (pos : 0 < b) (blanks : ∀ i < b, entry root i = blank) :
    Rep b height link blank entry root (Trie.single height root) := by
  have isRoot : ∀ {level q t}, (Trie.single height root : Trie τ ω).node level q = some t →
      level = height ∧ q = 0 ∧ root = t := by
    intro level q t isNode
    simp only [Trie.single] at isNode
    split at isNode
    · next here => exact ⟨here.1, here.2, Option.some.inj isNode⟩
    · cases isNode
  have missing : ∀ level < height, ∀ q, (Trie.single height root : Trie τ ω).node level q = none :=
    fun level lt q => if_neg fun here => absurd here.1 (Nat.ne_of_lt lt)
  refine ⟨fun _ _ _ => rfl, fun level lt q t isNode => ?_, fun v t isNode => ?_, ?_, ?_, ?_⟩
  · obtain ⟨_, _, rfl⟩ := isRoot isNode
    rw [missing level lt, blanks _ (Nat.mod_lt _ pos)]
    rfl
  · obtain ⟨_, _, rfl⟩ := isRoot isNode
    exact blanks _ (Nat.mod_lt _ pos)
  · exact fun level lt q isNode => absurd (missing level lt q) isNode
  · exact fun v isLeaf => absurd rfl isLeaf
  · intro level level' q q' t isNode isNode'
    obtain ⟨rfl, rfl, _⟩ := isRoot isNode
    obtain ⟨rfl, rfl, _⟩ := isRoot isNode'
    exact ⟨rfl, rfl⟩

/-- **A new blank table is linked** into an entry of its parent. -/
theorem grow (rep : Rep b height link blank entry root sh) (pos : 0 < b) (lt : level < height)
    (isParent : sh.node (level + 1) (q / b) = some s) (missing : sh.node level q = none)
    (new : t ∉ sh.nodes) (linked : entry' s (q % b) = link t) (blanks : ∀ i < b, entry' t i = blank)
    (same : ∀ u ∈ sh.nodes, ∀ i < b, ¬ (u = s ∧ i = q % b) → entry' u i = entry u i) :
    Rep b height link blank entry' root (sh.grow level q t) := by
  -- The prefix of an entry of the parent is that of its table with the index.
  have unique : ∀ {level' q'}, sh.node (level' + 1) (q' / b) = some s → q' % b = q % b →
      level' = level ∧ q' = q := by
    intro level' q' isNode index
    obtain ⟨sameLevel, samePrefix⟩ := rep.once _ _ _ _ _ isNode isParent
    refine ⟨Nat.succ.inj sameLevel, ?_⟩
    rw [← Nat.div_add_mod q' b, ← Nat.div_add_mod q b, samePrefix, index]
  refine ⟨fun level' q' above => ?_, fun level' lt' q' u isNode => ?_, fun v u isNode => ?_,
    fun level' lt' q' isNode => ?_,
    fun v isLeaf => ?_, fun level₁ level₂ q₁ q₂ u first second => ?_⟩
  · rw [Trie.grow_node_of_ne (fun here => absurd above (by omega)), rep.top level' q' above]
  · by_cases here : level' + 1 = level ∧ q' / b = q
    · obtain ⟨rfl, rfl⟩ := here
      rw [Trie.grow_node_self, Option.some.injEq] at isNode
      subst isNode
      have none : sh.node level' q' = none := by
        by_contra isNode'
        exact rep.parent level' lt' q' isNode' missing
      rw [blanks _ (Nat.mod_lt _ pos), Trie.grow_node_of_ne (fun eq => absurd eq.1 (by omega)),
        none]
      rfl
    · rw [Trie.grow_node_of_ne here] at isNode
      by_cases isEntry : u = s ∧ q' % b = q % b
      · obtain ⟨rfl, index⟩ := isEntry
        obtain ⟨rfl, rfl⟩ := unique isNode index
        rw [linked, Trie.grow_node_self]
        rfl
      · rw [same u ⟨_, _, isNode⟩ _ (Nat.mod_lt _ pos) isEntry, rep.inner level' lt' q' u isNode,
          Trie.grow_node_of_ne]
        rintro ⟨rfl, rfl⟩
        rw [isParent, Option.some.injEq] at isNode
        exact isEntry ⟨isNode.symm, rfl⟩
  · by_cases here : 0 = level ∧ v / b = q
    · obtain ⟨rfl, rfl⟩ := here
      rw [Trie.grow_node_self, Option.some.injEq] at isNode
      subst isNode
      have none : sh.leaf v = none := by
        by_contra isLeaf
        exact rep.covered v isLeaf missing
      rw [blanks _ (Nat.mod_lt _ pos), Trie.grow_leaf, none]
      rfl
    · rw [Trie.grow_node_of_ne here] at isNode
      rw [same u ⟨_, _, isNode⟩ _ (Nat.mod_lt _ pos), rep.outer v u isNode]
      · rfl
      · rintro ⟨rfl, _⟩
        exact absurd (rep.once _ _ _ _ _ isNode isParent).1 (by omega)
  · by_cases here : level' = level ∧ q' = q
    · obtain ⟨rfl, rfl⟩ := here
      rw [Trie.grow_node_of_ne (fun eq => absurd eq.1 (by omega)), isParent]
      exact Option.some_ne_none s
    · rw [Trie.grow_node_of_ne here] at isNode
      by_cases above : level' + 1 = level ∧ q' / b = q
      · obtain ⟨rfl, rfl⟩ := above
        rw [Trie.grow_node_self]
        exact Option.some_ne_none t
      · rw [Trie.grow_node_of_ne above]
        exact rep.parent level' lt' q' isNode
  · have isNode := rep.covered v isLeaf
    by_cases here : 0 = level ∧ v / b = q
    · obtain ⟨rfl, rfl⟩ := here
      exact absurd missing isNode
    · rw [Trie.grow_node_of_ne here]
      exact isNode
  · by_cases here₁ : level₁ = level ∧ q₁ = q <;> by_cases here₂ : level₂ = level ∧ q₂ = q
    · exact ⟨here₁.1.trans here₂.1.symm, here₁.2.trans here₂.2.symm⟩
    · obtain ⟨rfl, rfl⟩ := here₁
      rw [Trie.grow_node_self, Option.some.injEq] at first
      rw [Trie.grow_node_of_ne here₂] at second
      exact absurd ⟨_, _, first ▸ second⟩ new
    · obtain ⟨rfl, rfl⟩ := here₂
      rw [Trie.grow_node_self, Option.some.injEq] at second
      rw [Trie.grow_node_of_ne here₁] at first
      exact absurd ⟨_, _, second ▸ first⟩ new
    · rw [Trie.grow_node_of_ne here₁] at first
      rw [Trie.grow_node_of_ne here₂] at second
      exact rep.once _ _ _ _ _ first second

/-- **One leaf is written.** -/
theorem setLeaf (rep : Rep b height link blank entry root sh) (pos : 0 < b)
    (isTable : sh.node 0 (v / b) = some t) (here : entry' t (v % b) = w.getD blank)
    (same : ∀ u ∈ sh.nodes, ∀ i < b, ¬ (u = t ∧ i = v % b) → entry' u i = entry u i) :
    Rep b height link blank entry' root (sh.setLeaf v w) where
  top := rep.top
  inner := by
    intro level lt q u isNode
    refine (same u ⟨_, _, isNode⟩ _ (Nat.mod_lt _ pos) ?_).trans (rep.inner level lt q u isNode)
    rintro ⟨rfl, _⟩
    exact absurd (rep.once _ _ _ _ _ isNode isTable).1 (by omega)
  outer := by
    intro v' u isNode
    by_cases eq : v' = v
    · subst eq
      rw [Trie.setLeaf_node, isTable, Option.some.injEq] at isNode
      rw [← isNode, here, Trie.setLeaf_leaf_self]
    · rw [Trie.setLeaf_leaf_of_ne eq]
      refine (same u ⟨_, _, isNode⟩ _ (Nat.mod_lt _ pos) ?_).trans (rep.outer v' u isNode)
      rintro ⟨rfl, index⟩
      refine eq ?_
      rw [← Nat.div_add_mod v' b, ← Nat.div_add_mod v b, (rep.once _ _ _ _ _ isNode isTable).2,
        index]
  parent := rep.parent
  covered := by
    intro v' isLeaf
    by_cases eq : v' = v
    · subst eq
      rw [Trie.setLeaf_node, isTable]
      exact Option.some_ne_none t
    · rw [Trie.setLeaf_leaf_of_ne eq] at isLeaf
      exact rep.covered v' isLeaf
  once := rep.once

/-! ### Subtrees -/

/-- The tables of a subtree are those whose prefix extends its own. -/
theorem mem_below (pos : 0 < b) {p : Nat} : t ∈ sh.below b level p ↔
    ∃ level' ≤ level, ∃ q, sh.node level' q = some t ∧ q / b ^ (level - level') = p := by
  induction level generalizing p with
  | zero =>
    constructor
    · intro isNode
      exact ⟨0, le_rfl, p, isNode, by simp⟩
    · rintro ⟨level', le, q, isNode, extends_⟩
      obtain rfl := Nat.le_zero.mp le
      rw [Nat.sub_zero, pow_zero, Nat.div_one] at extends_
      exact extends_ ▸ isNode
  | succ level ih =>
    -- One level further up, the prefix loses its last digit.
    have step :
        ∀ level' ≤ level, ∀ q, q / b ^ (level + 1 - level') = q / b ^ (level - level') / b := by
      intro level' le q
      rw [Nat.succ_sub le, pow_succ, Nat.div_div_eq_div_mul]
    constructor
    · rintro (isNode | ⟨i, lt, member⟩)
      · exact ⟨level + 1, le_rfl, p, isNode, by simp⟩
      · obtain ⟨level', le, q, isNode, extends_⟩ := ih.mp member
        refine ⟨level', Nat.le_succ_of_le le, q, isNode, ?_⟩
        rw [step level' le, extends_, Nat.mul_comm, Nat.mul_add_div pos, Nat.div_eq_of_lt lt,
          Nat.add_zero]
    · rintro ⟨level', le, q, isNode, extends_⟩
      rcases Nat.lt_or_ge level level' with above | le'
      · obtain rfl := le_antisymm le above
        rw [Nat.sub_self, pow_zero, Nat.div_one] at extends_
        exact .inl (extends_ ▸ isNode)
      · refine .inr ⟨q / b ^ (level - level') % b, Nat.mod_lt _ pos,
          ih.mpr ⟨level', le', q, isNode, ?_⟩⟩
        rw [← extends_, step level' le', Nat.div_add_mod']

/-- A table has all its ancestors. -/
theorem ancestor (rep : Rep b height link blank entry root sh) (isNode : sh.node level q ≠ none) :
    ∀ n, level + n ≤ height → sh.node (level + n) (q / b ^ n) ≠ none
  | 0, _ => by
    rw [pow_zero, Nat.div_one]
    exact isNode
  | n + 1, le => by
    rw [pow_succ, ← Nat.div_div_eq_div_mul]
    exact rep.parent (level + n) (by omega) _ (ancestor rep isNode n (by omega))

theorem level_le (rep : Rep b height link blank entry root sh) (isNode : sh.node level q = some t) :
    level ≤ height := by
  by_contra above
  rw [rep.top level q (by omega), if_neg (by omega)] at isNode
  cases isNode

/-- There is nothing under a missing table. -/
theorem below_eq_empty (rep : Rep b height link blank entry root sh) (pos : 0 < b)
    (le : level ≤ height) (missing : sh.node level q = none) : sh.below b level q = ∅ := by
  refine Set.eq_empty_of_forall_notMem fun t member => ?_
  obtain ⟨level', le', q', isNode, rfl⟩ := (mem_below pos).mp member
  have chain :=
    rep.ancestor (by rw [isNode]; exact Option.some_ne_none t) (level - level') (by omega)
  rw [Nat.add_sub_cancel' le'] at chain
  exact chain missing

/-- Everything is under the root. -/
theorem below_root (rep : Rep b height link blank entry root sh) (pos : 0 < b) :
    sh.below b height 0 = sh.nodes := by
  ext t
  rw [mem_below pos]
  constructor
  · rintro ⟨level', _, q, isNode, _⟩
    exact ⟨level', q, isNode⟩
  · rintro ⟨level', q, isNode⟩
    have le := rep.level_le isNode
    refine ⟨level', le, q, isNode, ?_⟩
    have chain :=
      rep.ancestor (by rw [isNode]; exact Option.some_ne_none t) (height - level') (by omega)
    rw [Nat.add_sub_cancel' le, rep.top height _ le_rfl] at chain
    by_contra ne
    exact chain (if_neg fun here => ne here.2)

/-- Two subtrees at one level have no table in common. -/
theorem below_disjoint (rep : Rep b height link blank entry root sh) (pos : 0 < b) {p p' : Nat}
    (ne : p ≠ p') : Disjoint (sh.below b level p) (sh.below b level p') := by
  rw [Set.disjoint_left]
  intro t member member'
  obtain ⟨level₁, _, q₁, isNode, rfl⟩ := (mem_below pos).mp member
  obtain ⟨level₂, _, q₂, isNode', rfl⟩ := (mem_below pos).mp member'
  obtain ⟨rfl, rfl⟩ := rep.once _ _ _ _ _ isNode isNode'
  exact ne rfl

/-- A table is not under a table of a lower level. -/
theorem notMem_below (rep : Rep b height link blank entry root sh) (pos : 0 < b) {p : Nat}
    (isNode : sh.node (level + 1) q = some t) : t ∉ sh.below b level p := by
  intro member
  obtain ⟨level', le, q', isNode', _⟩ := (mem_below pos).mp member
  have same := (rep.once _ _ _ _ _ isNode isNode').1
  omega

/-- The entry of a table above level 0, by its index. -/
theorem inner_index (rep : Rep b height link blank entry root sh) (lt : level < height)
    (isNode : sh.node (level + 1) q = some t) {i : Nat} (index : i < b) :
    entry t i = (sh.node level (q * b + i)).elim blank link := by
  have pos : 0 < b := by omega
  have up : (q * b + i) / b = q := by
    rw [Nat.mul_comm, Nat.mul_add_div pos, Nat.div_eq_of_lt index, Nat.add_zero]
  have read := rep.inner level lt (q * b + i) t (up.symm ▸ isNode)
  rwa [Nat.mul_comm, Nat.mul_add_mod, Nat.mod_eq_of_lt index, Nat.mul_comm] at read

/-- The entry of a table at level 0, by its index. -/
theorem outer_index (rep : Rep b height link blank entry root sh) (isNode : sh.node 0 q = some t)
    {i : Nat} (index : i < b) : entry t i = (sh.leaf (q * b + i)).getD blank := by
  have pos : 0 < b := by omega
  have up : (q * b + i) / b = q := by
    rw [Nat.mul_comm, Nat.mul_add_div pos, Nat.div_eq_of_lt index, Nat.add_zero]
  have read := rep.outer (q * b + i) t (up.symm ▸ isNode)
  rwa [Nat.mul_comm, Nat.mul_add_mod, Nat.mod_eq_of_lt index, Nat.mul_comm] at read

end Rep

end Radix
