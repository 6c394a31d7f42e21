/-
**A queue in a ring of cells, with counters that wrap around.**

The producer and the consumer each have a counter of `width` bits that is only ever incremented;
element `n` of the stream is in cell `n % size`. As long as `size` divides `2 ^ width`, the wrapped
counters select the same cells as counters without a bound.

* `Queue` — the cells between two counters hold a list, `start` elements having left the queue
  before it.
* `Queue.push`, `Queue.pop` — the two moves.
* `Queue.eq_iff_nil` — the test on counters.
-/

import Mathlib.Logic.Function.Basic
import Mathlib.Tactic
import Mathlib.Order.CompletePartialOrder

namespace Fifo

variable {α : Type} {width size start : Nat} {cells : Nat → α} {r w : BitVec width} {items : List α}
  {x : α}

/-- **The cells from the counter `r` to the counter `w` hold a list.** -/
structure Queue (size : Nat) (cells : Nat → α) (r w : BitVec width) (start : Nat) (items : List α) :
    Prop where
  first : r = BitVec.ofNat width start
  last : w = BitVec.ofNat width (start + items.length)
  room : items.length ≤ size
  cell : ∀ i (lt : i < items.length), cells ((start + i) % size) = items[i]

/-- The list between two counters. -/
def between (size : Nat) (cells : Nat → α) (r w : BitVec width) : List α :=
  (List.range (w - r).toNat).map fun i => cells ((r + BitVec.ofNat width i).toNat % size)

namespace Queue

/-- An empty queue. -/
theorem nil (size : Nat) (cells : Nat → α) (start : Nat) :
    Queue size cells (BitVec.ofNat width start) (BitVec.ofNat width start) start [] :=
  ⟨rfl, rfl, Nat.zero_le _, fun _ lt => absurd lt (Nat.not_lt_zero _)⟩

theorem toNat_ofNat_mod (divides : size ∣ 2 ^ width) (n : Nat) :
    (BitVec.ofNat width n).toNat % size = n % size := by
  rw [BitVec.toNat_ofNat, Nat.mod_mod_of_dvd n divides]

/-- The cell that the consumer reads. -/
theorem index_first (queue : Queue size cells r w start items) (divides : size ∣ 2 ^ width) :
    r.toNat % size = start % size := by
  rw [queue.first, toNat_ofNat_mod divides]

/-- The cell that the producer writes. -/
theorem index_last (queue : Queue size cells r w start items) (divides : size ∣ 2 ^ width) :
    w.toNat % size = (start + items.length) % size := by
  rw [queue.last, toNat_ofNat_mod divides]

/-- Two counters that differ by less than `2 ^ width` are equal only when they do not differ. -/
theorem ofNat_add_eq_iff {n d : Nat} (small : d < 2 ^ width) :
    BitVec.ofNat width n = BitVec.ofNat width (n + d) ↔ d = 0 := by
  constructor
  · intro same
    have residues : n % 2 ^ width = (n + d) % 2 ^ width := by simpa using congrArg BitVec.toNat same
    have divides : 2 ^ width ∣ d := by
      have congruent : n + 0 ≡ n + d [MOD 2 ^ width] := residues
      exact (Nat.modEq_zero_iff_dvd.mp (congruent.add_left_cancel' n).symm)
    exact Nat.eq_zero_of_dvd_of_lt divides small
  · rintro rfl
    rfl

/-- How far the counters are apart. -/
theorem count (queue : Queue size cells r w start items) (small : size < 2 ^ width) :
    (w - r).toNat = items.length := by
  have room := queue.room
  have split : w = r + BitVec.ofNat width items.length := by
    rw [queue.first, queue.last, BitVec.ofNat_add]
  rw [split, BitVec.add_comm, BitVec.add_sub_cancel, BitVec.toNat_ofNat,
    Nat.mod_eq_of_lt (by omega)]

/-- **The counters are equal exactly when the queue is empty.** -/
theorem eq_iff_nil (queue : Queue size cells r w start items) (small : size < 2 ^ width) :
    r = w ↔ items = [] := by
  have room := queue.room
  rw [queue.first, queue.last, ofNat_add_eq_iff (by omega), List.length_eq_zero_iff]

/-- The producer adds an element. -/
theorem push (queue : Queue size cells r w start items) (divides : size ∣ 2 ^ width)
    (space : items.length < size) (x : α) :
    Queue size (Function.update cells (w.toNat % size) x) r (w + 1) start (items ++ [x]) := by
  refine ⟨queue.first, ?_, ?_, fun i lt => ?_⟩
  · rw [queue.last, List.length_append, List.length_singleton, ← add_assoc, BitVec.ofNat_add _ 1]
    rfl
  · rw [List.length_append, List.length_singleton]
    exact space
  · rw [queue.index_last divides]
    rw [List.length_append, List.length_singleton] at lt
    by_cases old : i < items.length
    · -- Two elements of the queue are never in one cell.
      have apart : (start + i) % size ≠ (start + items.length) % size := by
        intro same
        have congruent : start + i ≡ start + items.length [MOD size] := same
        have inside := (congruent.add_left_cancel' start)
        rw [Nat.ModEq, Nat.mod_eq_of_lt (by omega), Nat.mod_eq_of_lt space] at inside
        omega
      rw [Function.update_of_ne apart, List.getElem_append_left old, queue.cell i old]
    · obtain rfl : i = items.length := by omega
      rw [Function.update_self, List.getElem_concat_length rfl]

/-- The consumer takes the oldest element. -/
theorem pop (queue : Queue size cells r w start (x :: items)) (divides : size ∣ 2 ^ width) :
    cells (r.toNat % size) = x ∧ Queue size cells (r + 1) w (start + 1) items := by
  have room := queue.room
  rw [List.length_cons] at room
  refine ⟨?_, ?_, ?_, by omega, fun i lt => ?_⟩
  · rw [queue.index_first divides]
    exact queue.cell 0 (Nat.zero_lt_succ _)
  · rw [queue.first, BitVec.ofNat_add]
    rfl
  · rw [queue.last, List.length_cons, add_assoc, add_comm 1]
  · rw [add_assoc, add_comm 1]
    exact queue.cell (i + 1) (Nat.succ_lt_succ lt)

/-- **What is between the counters.** -/
theorem between_eq (queue : Queue size cells r w start items) (divides : size ∣ 2 ^ width)
    (small : size < 2 ^ width) : between size cells r w = items := by
  unfold between
  rw [queue.count small]
  refine List.ext_getElem (by simp) fun i lt lt' => ?_
  rw [List.getElem_map, List.getElem_range, queue.first, ← BitVec.ofNat_add,
    toNat_ofNat_mod divides, queue.cell i lt']

end Queue

end Fifo
