/-
**Constants of the kernel and the ways a kernel function can fail to return.**

Addresses are natural numbers below `2 ^ 64`; a null pointer is `0`. Kernel functions that can fail
return `Except Fault`: a `panic`, an array access outside its array, a loop that does not end, a
division by zero, and an overflow of an `int`.
-/

import Mathlib.Data.Int.DivMod
import Mathlib.Tactic
import Mathlib.Order.CompletePartialOrder

namespace Xv6Slab

/-- `BLOCK_SIZE`, which is also `PGSIZE`. -/
abbrev blockSize : Nat := 4096

/-- `MAX_ORDER`. -/
abbrev maxOrder : Nat := 15

/-- `MAXVA`, one beyond the highest virtual address the kernel maps. -/
abbrev maxva : Nat := 2 ^ 38

/-- `PHYSTOP`, the end of the memory that the kernel manages. -/
abbrev phystop : Nat := 0x88000000

/-- What stops a kernel function from returning. -/
inductive Fault
  | panic (message : String)
  | badIndex
  | hang
  | divByZero
  | overflow
  deriving DecidableEq, Repr

/-- A computation whose observed result is known has returned. -/
theorem exists_ok {α β : Type} (call : Except Fault α) (observe : α → β) (value : β)
    (known : (call.map observe).toOption = some value) :
    ∃ result, call = .ok result ∧ observe result = value := by
  cases call with
  | error fault => cases known
  | ok result => exact ⟨result, rfl, Option.some.inj known⟩

theorem eq_ok_of_toOption {α : Type} {call : Except Fault α} {result : α}
    (returned : call.toOption = some result) : call = .ok result := by
  cases call with
  | error fault => cases returned
  | ok value => exact congrArg Except.ok (Option.some.inj returned)

/-- A sequence of two computations returns when both do. -/
theorem bind_eq_ok {α β : Type} {first : Except Fault α} {second : α → Except Fault β} {result : β}
    (run : (first >>= second) = .ok result) : ∃ a, first = .ok a ∧ second a = .ok result := by
  cases first with
  | error fault => cases run
  | ok a => exact ⟨a, rfl, run⟩

/-- A partial result inside a computation that has returned. -/
theorem some_of_elim {α : Type} {partialResult : Option α} {fault : Fault} {result : α}
    (run : partialResult.elim (.error fault) .ok = Except.ok result) :
    partialResult = some result := by
  cases partialResult with
  | none => cases run
  | some a => exact congrArg some (Except.ok.inj run)

/-- The value of a 64-bit quantity converted to `int`. -/
def toInt32 (value : Nat) : Int := (value : Int).bmod (2 ^ 32)

/-- The value of an `int` converted to `uint64`. -/
def toUint64 (value : Int) : Nat := (value % 2 ^ 64).toNat

theorem toInt32_of_lt {value : Nat} (small : value < 2 ^ 31) : toInt32 value = value :=
  Int.bmod_eq_of_le_mul_two (by push_cast; omega) (by push_cast; omega)

theorem toInt32_mod (value : Nat) : toInt32 (value % 2 ^ 32) = toInt32 value := by
  unfold toInt32
  push_cast
  exact Int.emod_bmod ..

theorem toInt32_neg {value : Nat} (large : 2 ^ 31 ≤ value) (small : value < 2 ^ 32) :
    toInt32 value < 0 := by
  have shift := Int.sub_bmod_right (value : Int) (2 ^ 32)
  have wrapped : ((value : Int) - ((2 ^ 32 : Nat) : Int)).bmod (2 ^ 32) =
      (value : Int) - ((2 ^ 32 : Nat) : Int) := by
    apply Int.bmod_eq_of_le_mul_two
    · push_cast
      omega
    · push_cast
      omega
  unfold toInt32
  rw [← shift, wrapped]
  push_cast
  omega

end Xv6Slab
