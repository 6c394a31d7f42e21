/-
**Setting up a new slab.**

* `initHeader_spec` — the writes of `kmem_cache_alloc` into a new slab give a header whose index
  free list runs through all objects in order.
* `runCtors_sameOutside` — constructors that write into their object only leave the header alone.
-/

import Xv6Slab.Slab.Headers

namespace Xv6Slab

open Bytes Chains

section

variable {mem : Mem} {s : Nat}

theorem initNext_sameOutside (mem : Mem) (s : Nat) :
    ∀ count, SameOutside (Set.Ico (s + 32) (s + 32 + 2 * count)) mem (initNext mem s count) := by
  intro count
  induction count with
  | zero => exact SameOutside.refl _ _
  | succ count ih =>
    rw [initNext]
    refine (ih.mono ?_).trans ((store_sameOutside _ _ _ _).mono ?_)
    · intro a inside
      exact ⟨inside.1, lt_of_lt_of_le inside.2 (by omega)⟩
    · intro a inside
      have low := inside.1
      have high := inside.2
      simp only [slabHeaderSize] at low high
      exact ⟨by omega, by omega⟩

theorem initNext_load (mem : Mem) (s : Nat) :
    ∀ count, count < nofree → ∀ i < count, slabNextArray (initNext mem s count) s i = i + 1 := by
  intro count
  induction count with
  | zero =>
    intro _ i lt
    exact absurd lt (Nat.not_lt_zero i)
  | succ count ih =>
    intro small i lt
    have small' : count + 1 < 65535 := small
    rw [initNext]
    unfold slabNextArray
    rcases Nat.lt_succ_iff_lt_or_eq.mp lt with before | rfl
    · rw [load_store_apart (by simp only [slabHeaderSize]; omega)]
      exact ih (by show count < 65535; omega) i before
    · exact load_store_same (by omega)

/-- An array of successors is a chain through all indices from `a` on. -/
theorem chain_range {next : Nat → Nat} {stop n : Nat} (step : ∀ i, i + 1 < n → next i = i + 1)
    (last : ∀ i, i + 1 = n → next i = stop) (below : n ≤ stop) :
    ∀ d a, a + d + 1 = n → Chain next stop a (List.range' a (d + 1)) := by
  intro d
  induction d with
  | zero =>
    intro a eq
    refine .cons (by omega) ?_
    rw [last a (by omega)]
    exact .nil
  | succ d ih =>
    intro a eq
    refine .cons (by omega) ?_
    rw [step a (by omega)]
    exact ih (a + 1) (by omega)

/-- **The header of a new slab.** -/
theorem initHeader_spec (mem : Mem) {c n s : Nat} (cSmall : c < 2 ^ 64) (pos : 1 ≤ n)
    (small : n < nofree) :
    Header (initHeader mem c n s) s ⟨c, List.range' 0 n⟩ n ∧
      SameOutside (Set.Ico s (s + 32 + 2 * n)) mem (initHeader mem c n s) := by
  have small' : n < 65535 := small
  have cast : n % 2 ^ 16 = n := Nat.mod_eq_of_lt (by omega)
  unfold initHeader
  simp only [cast, slabHeaderSize]
  generalize mem₁Eq : store (store (store (store mem s 8 c) (s + 12) 4 0) (s + 24) 8 0)
    (s + 16) 8 0 = mem₁
  have same₁ : SameOutside (Set.Ico s (s + 32)) mem mem₁ := by
    intro a outside
    have range : ¬ (s ≤ a ∧ a < s + 32) := outside
    rw [← mem₁Eq]
    unfold store
    rw [if_neg (by omega), if_neg (by omega), if_neg (by omega), if_neg (by omega)]
  have cache₁ : load mem₁ s 8 = c := by
    rw [← mem₁Eq, load_store_apart (by omega), load_store_apart (by omega),
      load_store_apart (by omega)]
    exact load_store_same (by simpa using cSmall)
  have inuse₁ : load mem₁ (s + 12) 4 = 0 := by
    rw [← mem₁Eq, load_store_apart (by omega), load_store_apart (by omega)]
    exact load_store_same (by omega)
  have sameArray := initNext_sameOutside mem₁ s (n - 1)
  generalize mem₂Eq : initNext mem₁ s (n - 1) = mem₂ at sameArray
  have array₂ : ∀ i, i + 1 < n → slabNextArray mem₂ s i = i + 1 := by
    intro i lt
    rw [← mem₂Eq]
    exact initNext_load mem₁ s (n - 1) (by show n - 1 < 65535; omega) i (by omega)
  generalize mem₃Eq : store (store (store mem₂ (s + 32 + 2 * n - 2) 2 nofree) (s + 8) 2 0)
    (s + 10) 2 n = mem₃
  have front : ∀ {a width : Nat}, s ≤ a → (a + width ≤ s + 8 ∨ s + 12 ≤ a ∧ a + width ≤ s + 32) →
      load mem₃ a width = load mem₁ a width := by
    intro a width low range
    rw [← mem₃Eq, load_store_apart (by omega), load_store_apart (by omega),
      load_store_apart (by omega)]
    apply sameArray.load
    intro b bLow bHigh inside
    have := inside.1
    omega
  have array₃ : ∀ i, i + 1 < n → slabNextArray mem₃ s i = i + 1 := by
    intro i lt
    rw [← array₂ i lt, ← mem₃Eq]
    unfold slabNextArray
    simp only [slabHeaderSize]
    rw [load_store_apart (by omega), load_store_apart (by omega), load_store_apart (by omega)]
  have last₃ : ∀ i, i + 1 = n → slabNextArray mem₃ s i = nofree := by
    intro i eq
    have address : s + 32 + 2 * n - 2 = s + 32 + 2 * i := by omega
    rw [← mem₃Eq, address]
    unfold slabNextArray
    simp only [slabHeaderSize]
    rw [load_store_apart (by omega), load_store_apart (by omega)]
    exact load_store_same (by decide)
  have first₃ : slabFirstFree mem₃ s = 0 := by
    rw [← mem₃Eq]
    unfold slabFirstFree
    rw [load_store_apart (by omega)]
    exact load_store_same (by decide)
  constructor
  · refine ⟨?_, ?_, ?_, ?_, ?_⟩
    · exact (front le_rfl (Or.inl le_rfl)).trans cache₁
    · rw [first₃]
      obtain ⟨d, rfl⟩ := Nat.exists_eq_add_of_le' pos
      exact chain_range array₃ last₃ (by show d + 1 ≤ 65535; omega) d 0 (by omega)
    · intro x member
      have := (List.mem_range'_1.mp member).2
      omega
    · rw [← mem₃Eq, List.length_range']
      exact load_store_same (by omega)
    · have count : slabInuse mem₃ s = 0 :=
        (front (by omega) (Or.inr ⟨le_rfl, by omega⟩)).trans inuse₁
      rw [count, List.length_range', Nat.zero_add]
  · refine (same₁.mono ?_).trans ((sameArray.mono ?_).trans ?_)
    · intro a inside
      exact ⟨inside.1, lt_of_lt_of_le inside.2 (by omega)⟩
    · intro a inside
      have low := inside.1
      have high := inside.2
      exact ⟨by omega, by omega⟩
    · intro a outside
      have range : ¬ (s ≤ a ∧ a < s + 32 + 2 * n) := outside
      rw [← mem₃Eq]
      unfold store
      rw [if_neg (by omega), if_neg (by omega), if_neg (by omega)]

/-- **Constructors write into objects only.** -/
theorem runCtors_sameOutside {d : KmemCache} (geometry : d.Geometry) {ctor : Mem → Nat → Mem}
    (isCtor : d.ctor = some ctor) (fits : s + d.slabBytes ≤ 2 ^ 64) (mem : Mem) :
    ∀ count ≤ d.objsPerSlab,
      SameOutside (Set.Ico (s + 32 + 2 * d.objsPerSlab) (s + d.slabBytes)) mem
      (runCtors d ctor mem s count) := by
  intro count
  induction count with
  | zero =>
    intro _
    exact SameOutside.refl _ _
  | succ count ih =>
    intro le
    have bound := geometry.objAt_le s le
    have header := geometry.header
    have size := geometry.objectSize_ge
    have address : slabObjPtr d s count = d.objAt s count :=
      Nat.mod_eq_of_lt (by unfold KmemCache.objAt at bound; omega)
    rw [runCtors, address]
    refine (ih (by omega)).trans ((geometry.ctorLocal ctor isCtor _ _).mono ?_)
    intro a inside
    have low := inside.1
    have high := inside.2
    unfold KmemCache.objAt at *
    exact ⟨by omega, by omega⟩

end

end Xv6Slab
