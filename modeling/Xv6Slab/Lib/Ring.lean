/-
**Circular doubly linked lists.**

`Ring next prev head l` says that `next` leads from `head` through the elements of `l` and back to
`head`, and that `prev` leads the other way. Consecutive nodes of `head :: l ++ [head]` are linked
both ways, which makes the edits local:

* `Ring.unlink` — the two writes that take an element out;
* `Ring.pushFront` — the four writes that put one behind `head`;
* `Ring.reverse` — the same ring read backwards.

`search` is a loop along one of the two links, and `Ring.search_eq` what it finds.
-/

import Mathlib.Data.List.Chain
import Mathlib.Data.List.Nodup
import Mathlib.Logic.Function.Basic
import Mathlib.Tactic
import Mathlib.Order.CompletePartialOrder

namespace Rings

variable {α : Type} {next prev next' prev' : α → α} {head a b : α} {l : List α}

/-- `b` follows `a`, and `a` precedes `b`. -/
def Link (next prev : α → α) (a b : α) : Prop := next a = b ∧ prev b = a

/-- A circular list: the nodes after `head` are `l`. -/
structure Ring (next prev : α → α) (head : α) (l : List α) : Prop where
  links : (head :: l ++ [head]).IsChain (Link next prev)
  nodup : (head :: l).Nodup

/-- Links only read `next` of all nodes but the last, and `prev` of all but the first. -/
theorem links_congr (agreeNext : ∀ x ∈ l.dropLast, next' x = next x)
    (agreePrev : ∀ y ∈ l.tail, prev' y = prev y) (links : l.IsChain (Link next prev)) :
    l.IsChain (Link next' prev') := by
  induction l with
  | nil => exact .nil
  | cons x rest ih =>
    cases rest with
    | nil => exact .singleton x
    | cons y rest =>
      obtain ⟨⟨forward, back⟩, later⟩ := List.isChain_cons_cons.mp links
      refine .cons_cons ⟨?_, ?_⟩ (ih ?_ ?_ later)
      · rw [agreeNext x (by simp), forward]
      · rw [agreePrev y (by simp), back]
      · intro z member
        exact agreeNext z (by rw [List.dropLast_cons_cons]; exact List.mem_cons_of_mem _ member)
      · intro z member
        exact agreePrev z (List.mem_cons_of_mem _ member)

namespace Ring

theorem nodup_concat (ring : Ring next prev head l) : (l ++ [head]).Nodup :=
  (List.perm_append_singleton head l).nodup_iff.mpr ring.nodup

theorem notMem_head (ring : Ring next prev head l) : head ∉ l := (List.nodup_cons.mp ring.nodup).1

/-- The ring of `head` alone. -/
theorem single (forward : next head = head) (back : prev head = head) : Ring next prev head [] :=
  ⟨.cons_cons ⟨forward, back⟩ (.singleton _), List.nodup_singleton _⟩

/-- A ring only depends on the links of its nodes. -/
theorem congr (ring : Ring next prev head l) (agreeNext : ∀ x ∈ head :: l, next' x = next x)
    (agreePrev : ∀ x ∈ head :: l, prev' x = prev x) : Ring next' prev' head l where
  links := by
    refine links_congr ?_ ?_ ring.links
    · intro x member
      rw [List.dropLast_concat] at member
      exact agreeNext x member
    · intro y member
      rw [List.cons_append, List.tail_cons, List.mem_append, List.mem_singleton] at member
      exact agreePrev y (List.mem_cons.mpr member.symm)
  nodup := ring.nodup

/-- A ring read backwards. -/
theorem reverse (ring : Ring next prev head l) : Ring prev next head l.reverse where
  links := by
    have turned : (head :: l ++ [head]).reverse = head :: l.reverse ++ [head] := by simp
    rw [← turned, List.isChain_reverse]
    exact ring.links.imp fun _ _ link => ⟨link.2, link.1⟩
  nodup := by
    rw [List.nodup_cons, List.mem_reverse, List.nodup_reverse]
    exact List.nodup_cons.mp ring.nodup

/-- The node after `head`, and the rest of the way round. -/
theorem next_head (ring : Ring next prev head l) : ∃ rest, l ++ [head] = next head :: rest ∧
    prev (next head) = head ∧ (next head :: rest).IsChain (Link next prev) := by
  have links := ring.links
  rw [List.cons_append] at links
  cases way : l ++ [head] with
  | nil => exact absurd way (by simp)
  | cons first rest =>
    rw [way] at links
    obtain ⟨⟨rfl, back⟩, later⟩ := List.isChain_cons_cons.mp links
    exact ⟨rest, rfl, back, later⟩

/-- The nodes before and after an element. -/
theorem around {front back : List α} (ring : Ring next prev head (front ++ a :: back)) :
    ∃ before after, head :: front = before ++ [prev a] ∧ back ++ [head] = next a :: after ∧
      (before ++ [prev a]).IsChain (Link next prev) ∧
      (next a :: after).IsChain (Link next prev) := by
  have links := ring.links
  obtain ⟨before, x, isFront⟩ : ∃ before x, head :: front = before ++ [x] :=
    ⟨_, _, (List.dropLast_append_getLast (List.cons_ne_nil head front)).symm⟩
  obtain ⟨y, after, isBack⟩ : ∃ y after, back ++ [head] = y :: after := by
    cases way : back ++ [head] with
    | nil => exact absurd way (by simp)
    | cons y after => exact ⟨y, after, rfl⟩
  have way : head :: (front ++ a :: back) ++ [head] = before ++ x :: a :: y :: after := by
    calc head :: (front ++ a :: back) ++ [head] = head :: front ++ a :: (back ++ [head]) := by simp
      _ = before ++ x :: a :: y :: after := by rw [isFront, isBack]; simp
  rw [way, List.isChain_append_cons_cons] at links
  obtain ⟨first, ⟨_, rfl⟩, rest⟩ := links
  obtain ⟨⟨rfl, _⟩, last⟩ := List.isChain_cons_cons.mp rest
  exact ⟨before, after, isFront, isBack, first, last⟩

/-- `prev` and `next` are inverse on the nodes of the ring. -/
theorem inverse (ring : Ring next prev head l) (member : a ∈ head :: l) : prev (next a) = a := by
  rcases List.mem_cons.mp member with rfl | inside
  · obtain ⟨_, _, back, _⟩ := ring.next_head
    exact back
  · obtain ⟨front, back, rfl⟩ := List.append_of_mem inside
    have links := ring.links
    obtain ⟨_, after, _, isBack, _, _⟩ := ring.around
    have way : head :: (front ++ a :: back) ++ [head] = head :: front ++ a :: next a :: after := by
      rw [← isBack]
      simp
    rw [way, List.isChain_append_cons_cons] at links
    exact links.2.1.2

/-- An element of the ring is not its own successor. -/
theorem next_ne (ring : Ring next prev head l) (member : a ∈ l) : next a ≠ a := by
  obtain ⟨front, back, rfl⟩ := List.append_of_mem member
  obtain ⟨_, after, _, isBack, _, _⟩ := ring.around
  intro same
  have distinct := ring.nodup_concat
  rw [List.append_assoc, List.cons_append, isBack, same] at distinct
  exact (List.nodup_cons.mp (List.nodup_append.mp distinct).2.1).1 List.mem_cons_self

variable [DecidableEq α]

/-- **Taking an element out**: its successor points back past it, then its predecessor forward past
it. -/
theorem unlink (ring : Ring next prev head l) (member : a ∈ l) :
    Ring (Function.update next (prev a) (next a)) (Function.update prev (next a) (prev a)) head
    (l.erase a) := by
  obtain ⟨front, back, rfl⟩ := List.append_of_mem member
  obtain ⟨before, after, isFront, isBack, first, last⟩ := ring.around
  have fresh : a ∉ front := fun inside => by
    have distinct := (List.nodup_cons.mp ring.nodup).2
    exact (List.nodup_append.mp distinct).2.2 a inside a List.mem_cons_self rfl
  have erased : (front ++ a :: back).erase a = front ++ back := by
    rw [List.erase_append_right _ fresh, List.erase_cons_head]
  have distinct : (head :: (front ++ back)).Nodup := by
    rw [← erased]
    exact ring.nodup.sublist (List.erase_sublist.cons_cons head)
  have distinctFront : (before ++ [prev a]).Nodup := by
    rw [← isFront]
    exact distinct.sublist ((List.sublist_append_left front back).cons_cons head)
  have distinctBack : (next a :: after).Nodup := by
    rw [← isBack]
    refine (List.perm_append_singleton head back).nodup_iff.mpr ?_
    exact distinct.sublist ((List.sublist_append_right front back).cons_cons head)
  -- No node of one side occurs on the other, except that `head` ends the way round.
  have apart : ∀ x ∈ front, x ∉ next a :: after := by
    intro x inFront inside
    rw [← isBack, List.mem_append, List.mem_singleton] at inside
    rcases inside with inBack | rfl
    · exact (List.nodup_append.mp (List.nodup_cons.mp distinct).2).2.2 x inFront x inBack rfl
    · exact (List.nodup_cons.mp distinct).1 (List.mem_append_left _ inFront)
  have apart' : ∀ x ∈ back, x ∉ before ++ [prev a] := by
    intro x inBack inside
    rw [← isFront, List.mem_cons] at inside
    rcases inside with rfl | inFront
    · exact (List.nodup_cons.mp distinct).1 (List.mem_append_right _ inBack)
    · exact (List.nodup_append.mp (List.nodup_cons.mp distinct).2).2.2 x inFront x inBack rfl
  have tailFront : (before ++ [prev a]).tail = front := by rw [← isFront, List.tail_cons]
  have initBack : (next a :: after).dropLast = back := by rw [← isBack, List.dropLast_concat]
  rw [erased]
  refine ⟨?_, distinct⟩
  have way : head :: (front ++ back) ++ [head] = before ++ prev a :: next a :: after := by
    calc head :: (front ++ back) ++ [head] = head :: front ++ (back ++ [head]) := by simp
      _ = before ++ prev a :: next a :: after := by rw [isFront, isBack]; simp
  rw [way, List.isChain_append_cons_cons]
  refine ⟨links_congr ?_ ?_ first, ⟨Function.update_self .., Function.update_self ..⟩,
    links_congr ?_ ?_ last⟩
  · intro x member
    rw [List.dropLast_concat] at member
    refine Function.update_of_ne ?_ ..
    rintro rfl
    exact (List.nodup_append.mp distinctFront).2.2 _ member _ (List.mem_singleton_self _) rfl
  · intro y member
    rw [tailFront] at member
    refine Function.update_of_ne ?_ ..
    rintro rfl
    exact apart _ member List.mem_cons_self
  · intro x member
    rw [initBack] at member
    refine Function.update_of_ne ?_ ..
    rintro rfl
    exact apart' _ member (List.mem_append_right _ (List.mem_singleton_self _))
  · intro y member
    refine Function.update_of_ne ?_ ..
    rintro rfl
    exact (List.nodup_cons.mp distinctBack).1 member

/-- **Putting an element behind `head`.** -/
theorem pushFront (ring : Ring next prev head l) (fresh : a ∉ head :: l) :
    Ring (Function.update (Function.update next a (next head)) head a)
      (Function.update (Function.update prev a head) (next head) a) head (a :: l) := by
  obtain ⟨rest, way, back, later⟩ := ring.next_head
  have distinct : (next head :: rest).Nodup := by
    rw [← way]
    exact ring.nodup_concat
  have freshWay : a ∉ next head :: rest := by
    rw [← way, List.mem_append, List.mem_singleton]
    rw [List.mem_cons] at fresh
    exact fun either => fresh either.symm
  have ne : a ≠ head := fun eq => fresh (eq ▸ List.mem_cons_self)
  have neFirst : a ≠ next head := fun eq => freshWay (eq ▸ List.mem_cons_self)
  refine ⟨?_, ?_⟩
  · rw [List.cons_append, List.cons_append, way]
    refine .cons_cons ⟨Function.update_self .., ?_⟩ (.cons_cons ⟨?_, Function.update_self ..⟩
      (links_congr ?_ ?_ later))
    · rw [Function.update_of_ne neFirst, Function.update_self]
    · rw [Function.update_of_ne ne, Function.update_self]
    · intro x member
      rw [← way, List.dropLast_concat] at member
      have neHead : x ≠ head := fun eq => ring.notMem_head (eq ▸ member)
      have neNew : x ≠ a := fun eq => fresh (eq ▸ List.mem_cons_of_mem _ member)
      rw [Function.update_of_ne neHead, Function.update_of_ne neNew]
    · intro y member
      have neNext : y ≠ next head := fun eq => (List.nodup_cons.mp distinct).1 (eq ▸ member)
      have neNew : y ≠ a := fun eq => freshWay (List.mem_cons_of_mem _ (eq ▸ member))
      rw [List.tail_cons] at *
      rw [Function.update_of_ne neNext, Function.update_of_ne neNew]
  · rw [(List.Perm.swap a head l).nodup_iff, List.nodup_cons]
    exact ⟨fresh, ring.nodup⟩

end Ring

/-! ### Loops along a ring -/

/-- The loop `for (b = start; b != stop; b = next(b)) if (found(b)) return b;`, with fuel. -/
def search (next : α → α) [DecidableEq α] (stop : α) (found : α → Bool) :
    Nat → α → Option (Option α)
  | 0, _ => none
  | fuel + 1, b =>
    if b = stop then some none
    else if found b then some (some b)
    else search next stop found fuel (next b)

/-- A loop along the rest of a ring. -/
theorem search_of_links [DecidableEq α] {stop : α} (found : α → Bool) (outside : stop ∉ l)
    (links : (l ++ [stop]).IsChain (Link next prev)) :
    ∀ fuel start, (l ++ [stop]).head? = some start → l.length < fuel →
      search next stop found fuel start = some (l.find? found) := by
  induction l with
  | nil =>
    intro fuel start first enough
    obtain ⟨fuel, rfl⟩ := Nat.exists_eq_succ_of_ne_zero (Nat.ne_zero_of_lt enough)
    obtain rfl : stop = start := Option.some.inj first
    exact if_pos rfl
  | cons b rest ih =>
    intro fuel start first enough
    obtain ⟨fuel, rfl⟩ := Nat.exists_eq_succ_of_ne_zero (Nat.ne_zero_of_lt enough)
    obtain rfl : b = start := Option.some.inj first
    rw [List.mem_cons, not_or] at outside
    unfold search
    rw [if_neg (Ne.symm outside.1), List.find?_cons]
    cases hit : found b with
    | true => rfl
    | false =>
      refine ih outside.2 links.tail fuel (next b) ?_ (by simpa using enough)
      cases way : rest ++ [stop] with
      | nil => exact absurd way (by simp)
      | cons y after =>
        rw [List.cons_append, way] at links
        rw [List.head?_cons, (List.isChain_cons_cons.mp links).1.1]

/-- **A loop round the ring finds the first element that is looked for.** -/
theorem Ring.search_eq [DecidableEq α] (ring : Ring next prev head l) (found : α → Bool)
    {fuel : Nat} (enough : l.length < fuel) :
    search next head found fuel (next head) = some (l.find? found) := by
  obtain ⟨rest, way, _, links⟩ := ring.next_head
  refine search_of_links found ring.notMem_head (by rw [way]; exact links) fuel _ ?_ enough
  rw [way, List.head?_cons]

end Rings
