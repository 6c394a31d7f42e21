/-
**Linked lists as finite chains.**

A list threaded through memory is a link function `next`, a start and a terminator `stop`. The
relation `Chain next stop start l` says that following `next` from `start` visits exactly the
elements of `l`, in this order, and ends at `stop`. `Linked` adds back links.

* `Chain.unique` — a start has at most one chain, so a chain never repeats an element
  (`Chain.nodup`).
* `Chain.push`, `Chain.drop` — adding in front, and unlinking any element.
* `Linked.push`, `Linked.drop` — the same for doubly linked lists.

Every rule is stated for two link functions that agree where the list is read, so that it applies to
links that are memory cells.
-/

import Mathlib.Data.List.Nodup
import Mathlib.Tactic
import Mathlib.Order.CompletePartialOrder

namespace Chains

variable {α : Type}

/-- Following `next` from the start visits exactly the listed elements and ends at `stop`. -/
inductive Chain (next : α → α) (stop : α) : α → List α → Prop
  | nil : Chain next stop stop []
  | cons {a : α} {l : List α} : a ≠ stop → Chain next stop (next a) l → Chain next stop a (a :: l)

namespace Chain

variable {next next' : α → α} {stop start a : α} {l l' : List α}

theorem ne_stop (chain : Chain next stop start l) (member : a ∈ l) : a ≠ stop := by
  induction chain with
  | nil => cases member
  | cons fresh _ ih =>
    rcases List.mem_cons.mp member with rfl | later
    · exact fresh
    · exact ih later

theorem eq_nil_of_stop (chain : Chain next stop stop l) : l = [] := by
  cases chain with
  | nil => rfl
  | cons fresh _ => exact absurd rfl fresh

theorem eq_cons_of_ne (chain : Chain next stop start l) (nonempty : start ≠ stop) :
    ∃ rest, l = start :: rest ∧ Chain next stop (next start) rest := by
  cases chain with
  | nil => exact absurd rfl nonempty
  | cons _ rest => exact ⟨_, rfl, rest⟩

/-- A start has at most one chain. -/
theorem unique (left : Chain next stop start l) (right : Chain next stop start l') : l = l' := by
  induction left generalizing l' with
  | nil => exact right.eq_nil_of_stop.symm
  | cons fresh _ ih =>
    obtain ⟨rest, rfl, chain⟩ := right.eq_cons_of_ne fresh
    rw [ih chain]

/-- The chain from an element on the list is a suffix of the list. -/
theorem suffix (chain : Chain next stop start l) (member : a ∈ l) :
    ∃ before after, l = before ++ a :: after ∧ Chain next stop (next a) after := by
  induction chain with
  | nil => cases member
  | @cons head rest fresh tail ih =>
    rcases List.mem_cons.mp member with rfl | later
    · exact ⟨[], rest, rfl, tail⟩
    · obtain ⟨before, after, split, chain⟩ := ih later
      exact ⟨head :: before, after, by rw [split]; rfl, chain⟩

/-- **A chain never repeats an element**: the element would have two chains of different length. -/
theorem nodup (chain : Chain next stop start l) : l.Nodup := by
  induction chain with
  | nil => exact List.nodup_nil
  | @cons head rest fresh tail ih =>
    refine List.nodup_cons.mpr ⟨fun again => ?_, ih⟩
    obtain ⟨before, after, split, chain⟩ := tail.suffix again
    have same : rest = after := tail.unique chain
    have shorter := congrArg List.length split
    rw [same, List.length_append, List.length_cons] at shorter
    omega

/-- A chain only depends on the links of its own elements. -/
theorem congr (chain : Chain next stop start l) (agree : ∀ a ∈ l, next' a = next a) :
    Chain next' stop start l := by
  induction chain with
  | nil => exact .nil
  | @cons head rest fresh _ ih =>
    refine .cons fresh ?_
    rw [agree head List.mem_cons_self]
    exact ih fun a member => agree a (List.mem_cons_of_mem _ member)

/-- Adding an element in front. -/
theorem push (chain : Chain next stop start l) (fresh : a ≠ stop) (link : next' a = start)
    (agree : ∀ b ∈ l, next' b = next b) : Chain next' stop a (a :: l) :=
  .cons fresh (by rw [link]; exact chain.congr agree)

/-- Unlinking the first element. -/
theorem tail (chain : Chain next stop start (a :: l)) :
    start = a ∧ Chain next stop (next a) l := by
  cases chain with
  | cons _ rest => exact ⟨rfl, rest⟩

/-- Unlinking an element after `before`: the link of `before` is redirected. -/
theorem drop {before : α} {front back : List α}
    (chain : Chain next stop start (front ++ before :: a :: back))
    (link : next' before = next a)
    (agree : ∀ b ∈ front ++ before :: a :: back, b ≠ before → next' b = next b) :
    Chain next' stop start (front ++ before :: back) := by
  induction front generalizing start with
  | nil =>
    obtain ⟨rfl, rest⟩ := chain.tail
    obtain ⟨same, later⟩ := rest.tail
    have distinct := chain.nodup
    refine .cons (chain.ne_stop List.mem_cons_self) ?_
    rw [link]
    refine later.congr fun b member => agree b (by simp [member]) ?_
    rintro rfl
    simp [member] at distinct
  | cons head front ih =>
    obtain ⟨rfl, rest⟩ := chain.tail
    have distinct : start ≠ before := by
      rintro rfl
      have repeated := chain.nodup
      simp at repeated
    refine .cons (chain.ne_stop (by simp)) ?_
    rw [agree start (by simp) distinct]
    exact ih rest fun b member => agree b (List.mem_cons_of_mem _ member)

end Chain

/-! ### Doubly linked lists -/

/-- A chain whose elements point back to their predecessor, the first one to `before`. -/
inductive Linked (next prev : α → α) (stop : α) : α → α → List α → Prop
  | nil (before : α) : Linked next prev stop before stop []
  | cons {before a : α} {l : List α} : a ≠ stop → prev a = before →
      Linked next prev stop a (next a) l → Linked next prev stop before a (a :: l)

namespace Linked

variable {next prev next' prev' : α → α} {stop before start a : α} {l : List α}

theorem chain (linked : Linked next prev stop before start l) : Chain next stop start l := by
  induction linked with
  | nil => exact .nil
  | cons fresh _ _ ih => exact .cons fresh ih

theorem nodup (linked : Linked next prev stop before start l) : l.Nodup := linked.chain.nodup

theorem ne_stop (linked : Linked next prev stop before start l) (member : a ∈ l) : a ≠ stop :=
  linked.chain.ne_stop member

theorem eq_nil_of_stop (linked : Linked next prev stop before stop l) : l = [] :=
  linked.chain.eq_nil_of_stop

theorem stop_of_nil (linked : Linked next prev stop before start []) : start = stop := by
  cases linked
  rfl

theorem eq_cons_of_ne (linked : Linked next prev stop before start l) (nonempty : start ≠ stop) :
    ∃ rest, l = start :: rest ∧ prev start = before ∧
      Linked next prev stop start (next start) rest := by
  cases linked with
  | nil => exact absurd rfl nonempty
  | cons _ back rest => exact ⟨_, rfl, back, rest⟩

/-- A list only depends on the links of its own elements. -/
theorem congr (linked : Linked next prev stop before start l)
    (agreeNext : ∀ a ∈ l, next' a = next a) (agreePrev : ∀ a ∈ l, prev' a = prev a) :
    Linked next' prev' stop before start l := by
  induction linked with
  | nil => exact .nil _
  | @cons before head rest fresh back _ ih =>
    refine .cons fresh ((agreePrev head List.mem_cons_self).trans back) ?_
    rw [agreeNext head List.mem_cons_self]
    exact ih (fun a member => agreeNext a (List.mem_cons_of_mem _ member))
      (fun a member => agreePrev a (List.mem_cons_of_mem _ member))

/-- A list whose first element points back elsewhere. -/
theorem rebase {other : α} (linked : Linked next prev stop before start l)
    (agreeNext : ∀ a ∈ l, next' a = next a)
    (head : start ≠ stop → prev' start = other)
    (agreePrev : ∀ a ∈ l, a ≠ start → prev' a = prev a) :
    Linked next' prev' stop other start l := by
  cases linked with
  | nil => exact .nil _
  | @cons _ _ rest fresh back tail =>
    have distinct := (Linked.cons fresh back tail).nodup
    refine .cons fresh (head fresh) ?_
    rw [agreeNext start List.mem_cons_self]
    refine tail.congr (fun a member => agreeNext a (List.mem_cons_of_mem _ member)) ?_
    intro a member
    refine agreePrev a (List.mem_cons_of_mem _ member) ?_
    rintro rfl
    simp [member] at distinct

/-- Adding an element in front: it points to the old first element and back to `stop`, and the old
first element points back to it. -/
theorem push (linked : Linked next prev stop stop start l) (fresh : a ≠ stop)
    (link : next' a = start) (back : prev' a = stop)
    (agreeNext : ∀ b ∈ l, next' b = next b) (head : start ≠ stop → prev' start = a)
    (agreePrev : ∀ b ∈ l, b ≠ start → prev' b = prev b) :
    Linked next' prev' stop stop a (a :: l) := by
  refine .cons fresh back ?_
  rw [link]
  exact linked.rebase agreeNext head agreePrev

/-- The first element points back to `before`, every other one to an element of the list. -/
theorem prev_of_split {front back : List α}
    (linked : Linked next prev stop before start (front ++ a :: back)) :
    (front = [] ∧ prev a = before ∧ start = a) ∨ prev a ∈ front := by
  induction front generalizing before start with
  | nil =>
    cases linked with
    | cons _ here _ => exact Or.inl ⟨rfl, here, rfl⟩
  | cons first front ih =>
    cases linked with
    | cons _ _ rest =>
      rcases ih rest with ⟨_, here, _⟩ | later
      · exact Or.inr (by rw [here]; exact List.mem_cons_self)
      · exact Or.inr (List.mem_cons_of_mem _ later)

/-- An element points back to the last one before it. -/
theorem prev_eq_last {front back : List α}
    (linked : Linked next prev stop before start (front ++ a :: back)) :
    prev a = front.getLast?.getD before := by
  induction front generalizing before start with
  | nil =>
    cases linked with
    | cons _ here _ => exact here
  | cons first front ih =>
    cases linked with
    | cons _ _ rest =>
      rw [ih rest, List.getLast?_cons]
      rfl

theorem next_of_split {front back : List α}
    (linked : Linked next prev stop before start (front ++ a :: back)) :
    Linked next prev stop a (next a) back := by
  induction front generalizing before start with
  | nil =>
    cases linked with
    | cons _ _ rest => exact rest
  | cons first front ih =>
    cases linked with
    | cons _ _ rest => exact ih rest

/-- **Unlinking an element**: its predecessor (or the list's start) is redirected to its successor,
and its successor back to its predecessor. -/
theorem drop {start' : α} {front back : List α}
    (linked : Linked next prev stop before start (front ++ a :: back))
    (outside : before ∉ front ++ a :: back)
    (first : front = [] → start' = next a) (later : front ≠ [] → start' = start)
    (link : prev a ∈ front → next' (prev a) = next a)
    (agreeNext : ∀ b ∈ front ++ back, b ≠ prev a → next' b = next b)
    (head : next a ≠ stop → prev' (next a) = prev a)
    (agreePrev : ∀ b ∈ front ++ back, b ≠ next a → prev' b = prev b) :
    Linked next' prev' stop before start' (front ++ back) := by
  have distinct := linked.nodup
  induction front generalizing before start start' with
  | nil =>
    have here : prev a = before := by
      rcases linked.prev_of_split with ⟨_, here, _⟩ | impossible
      · exact here
      · cases impossible
    rw [first rfl, List.nil_append]
    refine linked.next_of_split.rebase (fun b member => ?_) (fun more => (head more).trans here)
      fun b member other => agreePrev b member other
    refine agreeNext b member ?_
    rintro rfl
    exact outside (by rw [← here]; simp [member])
  | cons front₀ front ih =>
    cases linked with
    | cons fresh back₀ rest =>
      have notHere : front₀ ∉ front ++ a :: back := (List.nodup_cons.mp distinct).1
      have notNext : front₀ ≠ next a := by
        intro same
        have onward := rest.next_of_split
        rw [← same] at onward
        obtain ⟨_, split, _⟩ := onward.eq_cons_of_ne fresh
        exact notHere (by rw [split]; simp)
      rw [later (List.cons_ne_nil _ _)]
      refine .cons fresh ((agreePrev front₀ (by simp) notNext).trans back₀) ?_
      refine ih rest notHere ?_ ?_ (fun inside => link (List.mem_cons_of_mem _ inside))
        (fun b member => agreeNext b (List.mem_cons_of_mem _ member))
        (fun b member => agreePrev b (List.mem_cons_of_mem _ member))
        (List.nodup_cons.mp distinct).2
      · rintro rfl
        rcases rest.prev_of_split with ⟨_, here, _⟩ | impossible
        · rw [← here]
          exact link (by rw [here]; exact List.mem_cons_self)
        · cases impossible
      · intro more
        refine agreeNext front₀ (by simp) ?_
        intro same
        rcases rest.prev_of_split with ⟨empty, _, _⟩ | inside
        · exact more empty
        · exact notHere (by rw [same]; simp [inside])

end Linked

end Chains
