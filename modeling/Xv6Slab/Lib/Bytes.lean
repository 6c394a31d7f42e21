/-
**A byte memory with little-endian cells.**

Memory is a total map from addresses to bytes. A cell is a run of `width` bytes starting at an
address; `load` reads it as a natural number and `store` overwrites it.

* `load_store_same` — a stored cell reads back as the value, cut to the cell's width.
* `load_store_apart` — a store leaves every cell it does not overlap as it was.
* `load_congr` — a cell only depends on its own bytes.

`SameOutside` is the frame of an arbitrary update: which bytes it may have changed. Frames compose
(`SameOutside.trans`), weaken (`SameOutside.mono`) and give back unchanged cells
(`SameOutside.load`).
-/

import Mathlib.Data.Set.Basic
import Mathlib.Tactic
import Mathlib.Order.CompletePartialOrder

namespace Bytes

/-- A memory: one byte at every address. -/
abbrev Mem := Nat → UInt8

/-- The little-endian value of the `width` bytes at `addr`. -/
def load (mem : Mem) (addr : Nat) : Nat → Nat
  | 0 => 0
  | width + 1 => (mem addr).toNat + 256 * load mem (addr + 1) width

/-- Overwrite the `width` bytes at `addr` with the low bytes of `value`. -/
def store (mem : Mem) (addr width value : Nat) : Mem := fun a =>
  if addr ≤ a ∧ a < addr + width then UInt8.ofNat (value / 256 ^ (a - addr)) else mem a

/-- Overwrite the `width` bytes at `addr` with one byte value. -/
def fill (mem : Mem) (addr width : Nat) (byte : UInt8) : Mem := fun a =>
  if addr ≤ a ∧ a < addr + width then byte else mem a

/-! ### Reading cells -/

/-- A cell depends on its own bytes only. -/
theorem load_congr {mem other : Mem} {addr width : Nat}
    (agree : ∀ a, addr ≤ a → a < addr + width → mem a = other a) :
    load mem addr width = load other addr width := by
  induction width generalizing addr with
  | zero => rfl
  | succ width ih =>
    have head : mem addr = other addr := agree addr le_rfl (by omega)
    have tail : load mem (addr + 1) width = load other (addr + 1) width :=
      ih fun a low high => agree a (by omega) (by omega)
    rw [load, load, head, tail]

theorem load_lt (mem : Mem) (addr width : Nat) : load mem addr width < 256 ^ width := by
  induction width generalizing addr with
  | zero => simp [load]
  | succ width ih =>
    have head : (mem addr).toNat < 256 := (mem addr).toNat_lt
    have tail := ih (addr + 1)
    rw [load, pow_succ]
    omega

/-- A stored cell reads back as the value, cut to the width of the cell. -/
theorem load_store_mod (mem : Mem) (addr width value : Nat) :
    load (store mem addr width value) addr width = value % 256 ^ width := by
  induction width generalizing mem addr value with
  | zero => simp [load, Nat.mod_one]
  | succ width ih =>
    have head : (store mem addr (width + 1) value addr).toNat = value % 256 := by
      simp [store]
    have tail : load (store mem addr (width + 1) value) (addr + 1) width =
        load (store mem (addr + 1) width (value / 256)) (addr + 1) width := by
      refine load_congr fun a low high => ?_
      have shift : a - addr = (a - (addr + 1)) + 1 := by omega
      rw [store, store, if_pos ⟨by omega, by omega⟩, if_pos ⟨low, high⟩, shift, pow_succ,
        Nat.mul_comm, Nat.div_div_eq_div_mul]
    rw [load, head, tail, ih, pow_succ, Nat.mul_comm (256 ^ width) 256, Nat.mod_mul]

/-- A stored value that fits its cell reads back unchanged. -/
theorem load_store_same {mem : Mem} {addr width value : Nat} (fits : value < 256 ^ width) :
    load (store mem addr width value) addr width = value := by
  rw [load_store_mod, Nat.mod_eq_of_lt fits]

/-- A store leaves a cell that it does not overlap as it was. -/
theorem load_store_apart {mem : Mem} {addr width value addr' width' : Nat}
    (apart : addr + width ≤ addr' ∨ addr' + width' ≤ addr) :
    load (store mem addr width value) addr' width' = load mem addr' width' :=
  load_congr fun a low high => if_neg (by omega)

/-! ### Frames -/

/-- Only bytes at addresses in `region` may differ. -/
def SameOutside (region : Set Nat) (mem mem' : Mem) : Prop :=
  ∀ a, a ∉ region → mem' a = mem a

namespace SameOutside

variable {region region' : Set Nat} {mem mem' mem'' : Mem}

theorem refl (region : Set Nat) (mem : Mem) : SameOutside region mem mem := fun _ _ => rfl

theorem mono (same : SameOutside region mem mem') (sub : region ⊆ region') :
    SameOutside region' mem mem' := fun a outside => same a fun member => outside (sub member)

theorem trans (first : SameOutside region mem mem') (second : SameOutside region mem' mem'') :
    SameOutside region mem mem'' := fun a outside => (second a outside).trans (first a outside)

/-- The frame of a loop of updates. -/
theorem foldl {ι : Type} {update : Mem → ι → Mem} {l : List ι}
    (each : ∀ i ∈ l, ∀ mem, SameOutside region mem (update mem i)) (mem : Mem) :
    SameOutside region mem (l.foldl update mem) := by
  induction l generalizing mem with
  | nil => exact refl region mem
  | cons i l ih =>
    have first := each i List.mem_cons_self mem
    exact first.trans (ih (fun j member => each j (List.mem_cons_of_mem _ member)) _)

/-- A cell outside the frame is unchanged. -/
theorem load (same : SameOutside region mem mem') {addr width : Nat}
    (outside : ∀ a, addr ≤ a → a < addr + width → a ∉ region) :
    load mem' addr width = load mem addr width :=
  load_congr fun a low high => same a (outside a low high)

end SameOutside

/-- A store changes its own cell only. -/
theorem store_sameOutside (mem : Mem) (addr width value : Nat) :
    SameOutside (Set.Ico addr (addr + width)) mem (store mem addr width value) :=
  fun _ outside => if_neg fun inside => outside ⟨inside.1, inside.2⟩

/-- A fill changes its own range only. -/
theorem fill_sameOutside (mem : Mem) (addr width : Nat) (byte : UInt8) :
    SameOutside (Set.Ico addr (addr + width)) mem (fill mem addr width byte) :=
  fun _ outside => if_neg fun inside => outside ⟨inside.1, inside.2⟩

end Bytes
