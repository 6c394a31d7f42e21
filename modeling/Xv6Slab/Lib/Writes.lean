/-
**Lists of writes to a map.**

`applyAll f writes` performs writes in order. What holds at one place only depends on the writes to
it:

* `applyAll_of_forall_ne` — a place that no write names keeps its value.
* `applyAll_of_mem` — when every place is written once, a written place has the value written.
-/

import Mathlib.Data.List.Nodup
import Mathlib.Logic.Function.Basic

namespace Writes

variable {ι α : Type} [DecidableEq ι] {f g : ι → α} {i : ι} {writes : List (ι × α)}

/-- Perform writes in order. -/
def applyAll (f : ι → α) (writes : List (ι × α)) : ι → α :=
  writes.foldl (fun f write => Function.update f write.1 write.2) f

@[simp] theorem applyAll_nil : applyAll f [] = f := rfl

@[simp] theorem applyAll_cons (write : ι × α) :
    applyAll f (write :: writes) = applyAll (Function.update f write.1 write.2) writes := rfl

theorem applyAll_append (first second : List (ι × α)) :
    applyAll f (first ++ second) = applyAll (applyAll f first) second := List.foldl_append

theorem applyAll_of_forall_ne (other : ∀ write ∈ writes, write.1 ≠ i) :
    applyAll f writes i = f i := by
  induction writes generalizing f with
  | nil => rfl
  | cons write rest ih =>
    rw [applyAll_cons, ih fun w member => other w (List.mem_cons_of_mem _ member)]
    exact Function.update_of_ne (Ne.symm (other write List.mem_cons_self)) ..

theorem applyAll_of_mem (once : (writes.map Prod.fst).Nodup) {write : ι × α}
    (member : write ∈ writes) : applyAll f writes write.1 = write.2 := by
  induction writes generalizing f with
  | nil => cases member
  | cons first rest ih =>
    rw [List.map_cons, List.nodup_cons] at once
    rcases List.mem_cons.mp member with rfl | later
    · rw [applyAll_cons, applyAll_of_forall_ne]
      · exact Function.update_self ..
      · intro w inRest same
        exact once.1 (same ▸ List.mem_map_of_mem inRest)
    · rw [applyAll_cons]
      exact ih once.2 later

end Writes
