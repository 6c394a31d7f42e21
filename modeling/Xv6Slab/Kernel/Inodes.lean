/-
**The table of in-memory inodes.**

`iget`, `idup` and `iput` each work under `itable.lock`, and any number of processes run them in any
order. An `iput` of the last reference to an inode without links lets go of the lock to truncate the
inode and takes it again to drop the reference; in between the other processes go on. Fields other
than `dev`, `inum` and `ref` belong to whoever has the inode's sleep lock; here they may change at
any time.

* `iget`, `idup`, `iput` — the code; `step` — one critical section.
* `Inv` — the reference counts and the labels; `Inv.step` for one critical section.
* `orderly_of_run` — **in every state reached no two referenced entries have the same inode, `ref`
  counts the references, and `iget` fails only when every entry is in use for another inode.**
-/

import Xv6Slab.Base
import Xv6Slab.Lib.Machine

set_option linter.unusedSectionVars false

namespace Xv6Slab

namespace Inodes

open Machine

/-! ### The code -/

/-- `NINODE`. -/
abbrev ninode : Nat := 50

/-- The largest `int`. -/
abbrev intMax : Int := 2 ^ 31 - 1

/-- `struct inode`, as far as the table reads it. -/
structure Inode where
  dev : UInt32
  inum : UInt32
  ref : Int
  valid : Bool
  nlink : Int

/-- `itable.inode`. -/
abbrev Itable := Fin ninode → Inode

/-- The inode that an entry holds. -/
def Inode.label (ip : Inode) : UInt32 × UInt32 := (ip.dev, ip.inum)

def modify (t : Itable) (i : Fin ninode) (change : Inode → Inode) : Itable :=
  Function.update t i (change (t i))

/-- `iinit`. -/
def iinit : Itable := fun _ => ⟨0, 0, 0, false, 0⟩

/-- `ip->ref++`. -/
def incRef (t : Itable) (i : Fin ninode) : Except Fault Itable :=
  if (t i).ref < intMax then .ok (modify t i fun ip => { ip with ref := ip.ref + 1 })
    else .error .overflow

/-- `ip->ref--`. -/
def decRef (t : Itable) (i : Fin ninode) : Itable :=
  modify t i fun ip => { ip with ref := ip.ref - 1 }

/-- `ip->ref > 0 && ip->dev == dev && ip->inum == inum`. -/
def Matches (t : Itable) (dev inum : UInt32) (i : Fin ninode) : Prop :=
  0 < (t i).ref ∧ (t i).dev = dev ∧ (t i).inum = inum

instance (t : Itable) (dev inum : UInt32) (i : Fin ninode) : Decidable (Matches t dev inum i) :=
  inferInstanceAs (Decidable (_ ∧ _ ∧ _))

/-- The loop of `iget`: the matching entry, or the first unused one. -/
def igetLoop (t : Itable) (dev inum : UInt32) : List (Fin ninode) → Option (Fin ninode) →
    Fin ninode ⊕ Option (Fin ninode)
  | [], empty => .inr empty
  | i :: is, empty =>
    if Matches t dev inum i then .inl i
    else igetLoop t dev inum is (if empty = none ∧ (t i).ref = 0 then some i else empty)

/-- `iget`. -/
def iget (t : Itable) (dev inum : UInt32) : Except Fault (Itable × Fin ninode) :=
  match igetLoop t dev inum (List.finRange ninode) none with
  | .inl i => do
    let t ← incRef t i
    return (t, i)
  | .inr none => .error (.panic "iget: no inodes")
  | .inr (some i) =>
    .ok (modify t i fun ip => { ip with dev := dev, inum := inum, ref := 1, valid := false }, i)

/-- `idup`. -/
def idup (t : Itable) (i : Fin ninode) : Except Fault Itable := incRef t i

/-- The test of `iput`: the last reference to an inode that no directory names. -/
def lastUnlinked (t : Itable) (i : Fin ninode) : Bool :=
  (t i).ref == 1 && (t i).valid && (t i).nlink == 0

/-- Where a process is inside `iput` between its critical sections. -/
inductive Phase
  | truncating
  | truncated
  deriving DecidableEq

variable {Proc : Type} [DecidableEq Proc]

/-- The table, the references that callers hold, and the processes in the middle of an `iput`, each
of which still has the reference it is giving up. -/
structure State (Proc : Type) where
  table : Itable
  held : Fin ninode → Nat
  putting : List (Proc × Fin ninode × Phase)

/-- The critical sections, the truncation, and what holders of the sleep locks write. -/
inductive Event (Proc : Type)
  | iget (p : Proc) (dev inum : UInt32)
  | idup (p : Proc) (i : Fin ninode)
  | iput (p : Proc) (i : Fin ninode)
  | truncate (p : Proc) (i : Fin ninode)
  | finish (p : Proc) (i : Fin ninode)
  | write (i : Fin ninode) (valid : Bool) (nlink : Int)

/-- One event. A reference that is duplicated or put is one that a caller holds. -/
def step (s : State Proc) : Event Proc → Option (State Proc)
  | .iget _ dev inum =>
    match iget s.table dev inum with
    | .ok (table, i) =>
      some { s with table := table, held := Function.update s.held i (s.held i + 1) }
    | .error _ => none
  | .idup _ i =>
    if 0 < s.held i then
      match idup s.table i with
      | .ok table => some { s with table := table, held := Function.update s.held i (s.held i + 1) }
      | .error _ => none
    else none
  | .iput p i =>
    if 0 < s.held i then
      if lastUnlinked s.table i then
        some { s with
          held := Function.update s.held i (s.held i - 1)
          putting := (p, i, .truncating) :: s.putting }
      else some
        { s with table := decRef s.table i, held := Function.update s.held i (s.held i - 1) }
    else none
  | .truncate p i =>
    if (p, i, .truncating) ∈ s.putting then
      some { s with
        table := modify s.table i fun ip => { ip with valid := false }
        putting := (p, i, .truncated) :: s.putting.erase (p, i, .truncating) }
    else none
  | .finish p i =>
    if (p, i, .truncated) ∈ s.putting then
      some { s with table := decRef s.table i, putting := s.putting.erase (p, i, .truncated) }
    else none
  | .write i valid nlink =>
    some { s with table := modify s.table i fun ip => { ip with valid := valid, nlink := nlink } }

/-- The state after `iinit`. -/
def start (Proc : Type) : State Proc := ⟨iinit, fun _ => 0, []⟩

/-- The outstanding references to an entry. -/
def State.outstanding (s : State Proc) (i : Fin ninode) : Nat :=
  s.held i + s.putting.countP fun entry => entry.2.1 = i

/-! ### The loop of `iget` -/

section Loop

variable {t : Itable} {dev inum : UInt32}

theorem igetLoop_hit : ∀ {is : List (Fin ninode)} {empty : Option (Fin ninode)} {i : Fin ninode},
    igetLoop t dev inum is empty = .inl i → Matches t dev inum i
  | [], _, _, found => by cases found
  | j :: is, empty, i, found => by
    rw [igetLoop] at found
    split_ifs at found with here
    · exact Sum.inl.inj found ▸ here
    · exact igetLoop_hit found
    · exact igetLoop_hit found

/-- A loop that ends without a match remembers an unused entry if there is one. -/
theorem igetLoop_miss : ∀ {is : List (Fin ninode)} {empty result : Option (Fin ninode)},
    igetLoop t dev inum is empty = .inr result → (∀ i ∈ is, ¬ Matches t dev inum i) ∧
      (result = none → empty = none ∧ ∀ i ∈ is, (t i).ref ≠ 0) ∧
      (∀ j, result = some j → empty = some j ∨ (t j).ref = 0)
  | [], empty, result, found => by
    obtain rfl : empty = result := Sum.inr.inj found
    exact ⟨fun i member => absurd member List.not_mem_nil,
      fun none => ⟨none, fun i member => absurd member List.not_mem_nil⟩,
      fun j some_ => Or.inl some_⟩
  | i :: is, empty, result, found => by
    rw [igetLoop] at found
    by_cases here : Matches t dev inum i
    · rw [if_pos here] at found
      cases found
    · rw [if_neg here] at found
      obtain ⟨others, unused, chosen⟩ := igetLoop_miss found
      refine ⟨List.forall_mem_cons.mpr ⟨here, others⟩, ?_, ?_⟩
      · intro isNone
        obtain ⟨keptNone, rest⟩ := unused isNone
        split_ifs at keptNone with free
        refine ⟨keptNone, List.forall_mem_cons.mpr ⟨fun zero => free ⟨keptNone, zero⟩, rest⟩⟩
      · intro j isSome
        rcases chosen j isSome with before | zero
        · split_ifs at before with free
          · exact Or.inr (Option.some.inj before ▸ free.2)
          · exact Or.inl before
        · exact Or.inr zero

/-- **What `iget` can do.** -/
theorem iget_cases (t : Itable) (dev inum : UInt32) :
    (∃ i, Matches t dev inum i ∧ (iget t dev inum = (incRef t i).map fun t => (t, i))) ∨
    (∀ i, ¬ Matches t dev inum i) ∧
      ((∃ i, (t i).ref = 0 ∧ iget t dev inum =
          .ok (modify t i fun ip => { ip with dev := dev, inum := inum, ref := 1, valid := false },
            i)) ∨
        (∀ i, (t i).ref ≠ 0) ∧ iget t dev inum = .error (.panic "iget: no inodes")) := by
  unfold iget
  cases found : igetLoop t dev inum (List.finRange ninode) none with
  | inl i =>
    refine Or.inl ⟨i, igetLoop_hit found, ?_⟩
    show (incRef t i >>= fun t => pure (t, i)) = _
    cases incRef t i with
    | ok t' => rfl
    | error fault => rfl
  | inr result =>
    obtain ⟨others, unused, chosen⟩ := igetLoop_miss found
    refine Or.inr ⟨fun i => others i (List.mem_finRange i), ?_⟩
    cases result with
    | none => exact Or.inr ⟨fun i => (unused rfl).2 i (List.mem_finRange i), rfl⟩
    | some i =>
      rcases chosen i rfl with before | zero
      · cases before
      · exact Or.inl ⟨i, zero, rfl⟩

end Loop

/-! ### One event -/

section Step

variable {s s' : State Proc} {e : Event Proc} {i : Fin ninode}

/-- The invariant of the inode table. -/
structure Inv (s : State Proc) : Prop where
  counted : ∀ i, (s.table i).ref = s.outstanding i
  unique : ∀ i j, 0 < (s.table i).ref → 0 < (s.table j).ref →
      (s.table i).label = (s.table j).label → i = j

theorem inv_start : Inv (start Proc) :=
  ⟨fun _ => rfl, fun _ _ used => absurd used (lt_irrefl 0)⟩

/-- An event that brings no entry into use and relabels none. -/
structure Recounts (s s' : State Proc) : Prop where
  label : ∀ i, (s'.table i).label = (s.table i).label
  used : ∀ i, 0 < (s'.table i).ref → 0 < (s.table i).ref
  counted : ∀ i, (s'.table i).ref = s'.outstanding i

/-- An event that gives an unused entry to an inode that no entry in use holds. -/
structure Relabels (s s' : State Proc) (dev inum : UInt32) (i : Fin ninode) : Prop where
  unused : (s.table i).ref = 0
  fresh : ∀ j, ¬ Matches s.table dev inum j
  label : (s'.table i).label = (dev, inum)
  others : ∀ j ≠ i, s'.table j = s.table j
  counted : ∀ j, (s'.table j).ref = s'.outstanding j

theorem incRef_ok {t t' : Itable} (call : incRef t i = .ok t') :
    t' = modify t i fun ip => { ip with ref := ip.ref + 1 } := by
  unfold incRef at call
  split_ifs at call
  exact (Except.ok.inj call).symm

theorem modify_self (t : Itable) (i : Fin ninode) (change : Inode → Inode) :
    modify t i change i = change (t i) :=
  Function.update_self ..

theorem modify_of_ne (t : Itable) (change : Inode → Inode) {j : Fin ninode} (ne : j ≠ i) :
    modify t i change j = t j :=
  Function.update_of_ne ne ..

/-- A reference count that follows the outstanding references of one entry. -/
theorem Inv.recounts (inv : Inv s) (i : Fin ninode) (change : Inode → Inode)
    (written : s'.table = modify s.table i change) (label : ∀ ip, (change ip).label = ip.label)
    (used : 0 < (change (s.table i)).ref → 0 < (s.table i).ref)
    (here : (change (s.table i)).ref = s'.outstanding i)
    (others : ∀ j ≠ i, s'.outstanding j = s.outstanding j) :
    Recounts s s' := by
  rw [show s' = { s' with table := modify s.table i change } by rw [← written]] at *
  refine ⟨fun j => ?_, fun j => ?_, fun j => ?_⟩ <;> by_cases eq : j = i
  · simp only [eq, modify_self, label]
  · simp only [modify_of_ne _ _ eq]
  · simp only [eq, modify_self]
    exact used
  · simp only [modify_of_ne _ _ eq]
    exact id
  · simp only [eq, modify_self]
    exact here
  · simp only [modify_of_ne _ _ eq]
    rw [inv.counted j]
    exact_mod_cast (others j eq).symm

/-- The outstanding references when those held by callers change. -/
theorem outstanding_held (s : State Proc) (table : Itable) (n : Nat) (i j : Fin ninode) :
    State.outstanding { s with table := table, held := Function.update s.held i n } j =
      if j = i then n + s.outstanding i - s.held i else s.outstanding j := by
  unfold State.outstanding
  by_cases eq : j = i
  · rw [if_pos eq, eq]
    simp only [Function.update_self]
    omega
  · rw [if_neg eq]
    simp only [Function.update_of_ne eq]

/-- One more reference of a caller. -/
theorem Inv.gain (inv : Inv s) {t : Itable} (call : incRef s.table i = .ok t)
    (used : 0 < (s.table i).ref) :
    Recounts s { s with table := t, held := Function.update s.held i (s.held i + 1) } := by
  refine inv.recounts i _ (incRef_ok call) (fun _ => rfl) (fun _ => used) ?_ ?_
  · rw [outstanding_held, if_pos rfl]
    show (s.table i).ref + 1 = _
    rw [inv.counted i]
    unfold State.outstanding
    omega
  · intro j ne
    rw [outstanding_held, if_neg ne]

/-- An `iput` of a reference that is not the last one to an unlinked inode. -/
theorem Inv.drop (inv : Inv s) (has : 0 < s.held i) :
    Recounts s
    { s with table := decRef s.table i, held := Function.update s.held i (s.held i - 1) } := by
  refine inv.recounts i (fun ip => { ip with ref := ip.ref - 1 }) rfl (fun _ => rfl) ?_ ?_ ?_
  · intro positive
    have less : 0 < (s.table i).ref - 1 := positive
    omega
  · rw [outstanding_held, if_pos rfl]
    show (s.table i).ref - 1 = _
    rw [inv.counted i]
    unfold State.outstanding
    omega
  · intro j ne
    rw [outstanding_held, if_neg ne]

/-- The outstanding references while processes are inside `iput`. -/
theorem outstanding_mk (table : Itable) (held : Fin ninode → Nat)
    (putting : List (Proc × Fin ninode × Phase)) (j : Fin ninode) :
    State.outstanding (⟨table, held, putting⟩ : State Proc) j =
      held j + putting.countP fun entry => entry.2.1 = j := rfl

/-- A process inside `iput` counts for its own entry only. -/
theorem countP_erase_entry {putting : List (Proc × Fin ninode × Phase)}
    {entry : Proc × Fin ninode × Phase} (member : entry ∈ putting) (j : Fin ninode) :
    (putting.countP fun x => x.2.1 = j) =
      ((putting.erase entry).countP fun x => x.2.1 = j) + if entry.2.1 = j then 1 else 0 := by
  rw [(List.perm_cons_erase member).countP_eq, List.countP_cons]
  simp only [decide_eq_true_eq]

/-- **What an event can do.** -/
theorem Inv.step_cases (inv : Inv s) (taken : step s e = some s') :
    Recounts s s' ∨ ∃ p dev inum i, e = .iget p dev inum ∧ Relabels s s' dev inum i := by
  cases e with
  | iget p dev inum =>
    rcases iget_cases s.table dev inum with ⟨i, hit, call⟩ | ⟨fresh, ⟨i, unused, call⟩ | ⟨_, call⟩⟩
    · cases inc : incRef s.table i with
      | error fault =>
        simp only [step, call, inc, Except.map] at taken
        cases taken
      | ok t =>
        simp only [step, call, inc, Except.map, Option.some.injEq] at taken
        subst taken
        exact Or.inl (inv.gain inc hit.1)
    · simp only [step, call, Option.some.injEq] at taken
      subst taken
      refine Or.inr ⟨p, dev, inum, i, rfl, unused, fresh, ?_,
        fun j ne => Function.update_of_ne ne .., fun j => ?_⟩
      · simp only [modify_self]
        rfl
      · have none := inv.counted i
        rw [unused] at none
        unfold State.outstanding at none
        rw [outstanding_held]
        by_cases eq : j = i
        · simp only [eq, modify_self, if_true]
          unfold State.outstanding
          omega
        · simp only [modify_of_ne _ _ eq, if_neg eq]
          exact inv.counted j
    · simp only [step, call] at taken
      cases taken
  | idup p i =>
    simp only [step] at taken
    rw [Option.ite_none_right_eq_some] at taken
    obtain ⟨has, taken⟩ := taken
    have used : 0 < (s.table i).ref := by
      rw [inv.counted i]
      unfold State.outstanding
      omega
    cases inc : incRef s.table i with
    | error fault =>
      simp only [idup, inc] at taken
      cases taken
    | ok t =>
      simp only [idup, inc, Option.some.injEq] at taken
      subst taken
      exact Or.inl (inv.gain inc used)
  | iput p i =>
    simp only [step] at taken
    rw [Option.ite_none_right_eq_some] at taken
    obtain ⟨has, taken⟩ := taken
    by_cases last : lastUnlinked s.table i = true
    · rw [if_pos last, Option.some.injEq] at taken
      subst taken
      refine Or.inl ⟨fun _ => rfl, fun _ => id, fun j => ?_⟩
      simp only [inv.counted j, State.outstanding, List.countP_cons, decide_eq_true_eq]
      by_cases eq : j = i
      · subst eq
        simp only [Function.update_self, if_true]
        omega
      · simp only [Function.update_of_ne eq, if_neg (Ne.symm eq), Nat.add_zero]
    · rw [if_neg last, Option.some.injEq] at taken
      subst taken
      exact Or.inl (inv.drop has)
  | truncate p i =>
    simp only [step] at taken
    rw [Option.ite_none_right_eq_some, Option.some.injEq] at taken
    obtain ⟨member, rfl⟩ := taken
    have same :
        ∀ j, State.outstanding (⟨modify s.table i fun ip => { ip with valid := false }, s.held,
        (p, i, .truncated) :: s.putting.erase (p, i, .truncating)⟩ :
        State Proc) j = s.outstanding j := by
      intro j
      rw [outstanding_mk, List.countP_cons]
      unfold State.outstanding
      rw [countP_erase_entry member j]
      simp only [decide_eq_true_eq]
    refine Or.inl (inv.recounts i (fun ip => { ip with valid := false }) rfl (fun _ => rfl) id ?_
      fun j _ => same j)
    rw [same i]
    exact inv.counted i
  | finish p i =>
    simp only [step] at taken
    rw [Option.ite_none_right_eq_some, Option.some.injEq] at taken
    obtain ⟨member, rfl⟩ := taken
    have less : ∀ j, s.outstanding j = State.outstanding (⟨decRef s.table i, s.held,
        s.putting.erase (p, i, .truncated)⟩ : State Proc) j + if i = j then 1 else 0 := by
      intro j
      rw [outstanding_mk]
      unfold State.outstanding
      rw [countP_erase_entry member j, Nat.add_assoc]
    refine Or.inl (inv.recounts i (fun ip => { ip with ref := ip.ref - 1 }) rfl
      (fun _ => rfl) ?_ ?_ ?_)
    · intro positive
      have less : 0 < (s.table i).ref - 1 := positive
      omega
    · show (s.table i).ref - 1 = _
      rw [inv.counted i, less i, if_pos rfl]
      omega
    · intro j ne
      rw [less j, if_neg (Ne.symm ne), Nat.add_zero]
  | write i valid nlink =>
    simp only [step, Option.some.injEq] at taken
    subst taken
    exact Or.inl (inv.recounts i (fun ip => { ip with valid := valid, nlink := nlink }) rfl
      (fun _ => rfl) id (inv.counted i) fun _ _ => rfl)

/-- **One event keeps the invariant.** -/
theorem Inv.step (inv : Inv s) (taken : step s e = some s') : Inv s' := by
  rcases inv.step_cases taken with recounts | ⟨p, dev, inum, i, rfl, relabels⟩
  · refine ⟨recounts.counted, fun j k used used' same => ?_⟩
    rw [recounts.label, recounts.label] at same
    exact inv.unique j k (recounts.used j used) (recounts.used k used') same
  · -- The label that is new was on no entry in use, so only the recycled entry has it now.
    have alone : ∀ j ≠ i, 0 < (s.table j).ref → (s.table j).label ≠ (dev, inum) := by
      intro j _ used same
      exact relabels.fresh j ⟨used, congrArg Prod.fst same, congrArg Prod.snd same⟩
    refine ⟨relabels.counted, fun j k used used' same => ?_⟩
    by_cases eq : j = i <;> by_cases eq' : k = i
    · rw [eq, eq']
    · rw [relabels.others k eq'] at used' same
      rw [eq, relabels.label] at same
      exact absurd same.symm (alone k eq' used')
    · rw [relabels.others j eq] at used same
      rw [eq', relabels.label] at same
      exact absurd same (alone j eq used)
    · rw [relabels.others j eq] at used same
      rw [relabels.others k eq'] at used' same
      exact inv.unique j k used used' same

/-- An entry in use is not relabelled. -/
theorem Inv.label_step (inv : Inv s) (taken : Inodes.step s e = some s')
    (used : 0 < (s.table i).ref) : (s'.table i).label = (s.table i).label := by
  rcases inv.step_cases taken with recounts | ⟨p, dev, inum, j, rfl, relabels⟩
  · exact recounts.label i
  · have ne : i ≠ j := by
      rintro rfl
      exact used.ne' relabels.unused
    rw [relabels.others i ne]

end Step

/-! ### Every state reached -/

section Runs

variable {s : State Proc} {events : List (Event Proc)}

/-- The inode table in order. -/
structure Orderly (s : State Proc) : Prop where
  /-- At most one entry in use has a given inode. -/
  unique : ∀ i j, 0 < (s.table i).ref → 0 < (s.table j).ref → (s.table i).dev = (s.table j).dev →
    (s.table i).inum = (s.table j).inum → i = j
  /-- `ref` is the number of outstanding references. -/
  counted : ∀ i, (s.table i).ref = s.outstanding i
  /-- No event relabels an entry in use. -/
  kept : ∀ e s', step s e = some s' → ∀ i, 0 < (s.table i).ref →
    (s'.table i).dev = (s.table i).dev ∧ (s'.table i).inum = (s.table i).inum
  /-- `iget` panics only when every entry is in use for another inode. -/
  panics : ∀ dev inum message, iget s.table dev inum = .error (.panic message) →
    ∀ i, 0 < (s.table i).ref ∧ ((s.table i).dev, (s.table i).inum) ≠ (dev, inum)
  /-- Otherwise it returns an entry for the inode, unless the entry has `INT_MAX` references. -/
  returns : ∀ dev inum, (∃ message, iget s.table dev inum = .error (.panic message)) ∨
    (∃ i, Matches s.table dev inum i ∧ intMax ≤ (s.table i).ref) ∨
    ∃ t i, iget s.table dev inum = .ok (t, i) ∧ (t i).dev = dev ∧ (t i).inum = inum ∧ 0 < (t i).ref

theorem Inv.orderly (inv : Inv s) : Orderly s := by
  have nonneg : ∀ i, (s.table i).ref ≠ 0 → 0 < (s.table i).ref := by
    intro i nonzero
    have counted := inv.counted i
    omega
  refine ⟨fun i j used used' dev inum => inv.unique i j used used' (Prod.ext dev inum),
    inv.counted, ?_, ?_, ?_⟩
  · intro e s' taken i used
    have same := inv.label_step taken used
    exact ⟨congrArg Prod.fst same, congrArg Prod.snd same⟩
  · intro dev inum message failed i
    rcases iget_cases s.table dev inum with ⟨j, _, call⟩ | ⟨fresh, ⟨j, _, call⟩ | ⟨busy, call⟩⟩
    · rw [call] at failed
      unfold incRef at failed
      split_ifs at failed <;> cases failed
    · rw [call] at failed
      cases failed
    · refine ⟨nonneg i (busy i), fun same => ?_⟩
      exact fresh i ⟨nonneg i (busy i), congrArg Prod.fst same, congrArg Prod.snd same⟩
  · intro dev inum
    rcases iget_cases s.table dev inum with ⟨j, hit, call⟩ | ⟨fresh, ⟨j, _, call⟩ | ⟨busy, call⟩⟩
    · by_cases full : (s.table j).ref < intMax
      · refine Or.inr (Or.inr ⟨modify s.table j fun ip => { ip with ref := ip.ref + 1 }, j, ?_, ?_⟩)
        · rw [call, incRef, if_pos full]
          rfl
        · rw [modify_self]
          exact ⟨hit.2.1, hit.2.2, Int.lt_add_one_of_le hit.1.le⟩
      · exact Or.inr (Or.inl ⟨j, hit, Int.not_lt.mp full⟩)
    · exact Or.inr (Or.inr ⟨_, j, call, by simp [modify_self]⟩)
    · exact Or.inl ⟨_, call⟩

/-- **The inode table is in order in every state reached from `iinit`**, whatever the processes
do. -/
theorem orderly_of_run (reached : run step (start Proc) events = some s) : Orderly s :=
  (inv_of_steps (fun _ _ _ inv taken => Inv.step inv taken) inv_start reached).orderly

/-- A process gives up the last reference to an unlinked inode; while it truncates, another one
looks it up. -/
def lookupDuringPut : List (Event Bool) :=
  [.iget false 1 7, .write 0 true 0, .iput false 0, .iget true 1 7, .truncate false 0,
    .finish false 0]

theorem orderly_of_run_lookupDuringPut : ∃ s, run step (start Bool) lookupDuringPut = some s ∧
    Orderly s := by
  obtain ⟨s, reached⟩ := Option.isSome_iff_exists.mp
    (show (run step (start Bool) lookupDuringPut).isSome = true by decide +kernel)
  exact ⟨s, reached, orderly_of_run reached⟩

end Runs

end Inodes

end Xv6Slab
