/-
**Every disk request is served once.**

The rings, the descriptors and the processes in `virtio_disk_rw` always fit together (`Inv`): each
request whose buffer the disk owns is in exactly one of the avail ring, the device and the used
ring, and each descriptor in use belongs to one request.

* `Spec` — a disk that serves each submitted request at one moment between its submission and its
  return.
* `refines_of_guarded` — **the driver with its device refines it, and never panics.**
* `outstanding_of_guarded` — nobody sleeps without a reason, and no request is lost or duplicated.
* `descriptors_of_guarded`, `progress_of_guarded` — no descriptor leaks, and nothing deadlocks.

The condition on runs is the one of the callers: a process that uses a buffer holds its lock.
-/

import Xv6Slab.Kernel.Disk.Driver
import Xv6Slab.Lib.Refinement

set_option linter.unusedSectionVars false

namespace Xv6Slab

namespace Virtio

open Machine Refinement Fifo

variable {Proc Buf : Type} [DecidableEq Proc] [DecidableEq Buf]

/-! ### The abstract disk -/

/-- Blocks, buffers, and for each process its request: the buffer, whether it is a write, and
whether it has been served. -/
@[ext] structure Spec (Proc Buf : Type) where
  block : Nat → Data
  buffer : Buf → BitVec 32 × Data
  pending : Proc → Option (Buf × Bool × Bool)

inductive Action (Proc Buf : Type)
  | submit (p : Proc) (b : Buf) (write : Bool)
  | serve (p : Proc)
  | finish (p : Proc)
  | fill (b : Buf) (blockno : BitVec 32) (data : Data)

/-- When a request is served is not seen. -/
def Action.visible : Action Proc Buf → Bool
  | .serve _ => false
  | _ => true

namespace Spec

/-- A block goes from the buffer to the disk or back, in one piece. -/
def transfer (a : Spec Proc Buf) (b : Buf) (write : Bool) : Spec Proc Buf :=
  let n := (a.buffer b).1
  if write then { a with block := Function.update a.block n.toNat (a.buffer b).2 }
  else { a with buffer := Function.update a.buffer b (n, a.block n.toNat) }

def setPending (a : Spec Proc Buf) (p : Proc) (request : Option (Buf × Bool × Bool)) :
    Spec Proc Buf :=
  { a with pending := Function.update a.pending p request }

def step (a : Spec Proc Buf) : Action Proc Buf → Option (Spec Proc Buf)
  | .submit p b write =>
    match a.pending p with
    | none => some (a.setPending p (some (b, write, false)))
    | _ => none
  | .serve p =>
    match a.pending p with
    | some (b, write, false) => some ((a.transfer b write).setPending p (some (b, write, true)))
    | _ => none
  | .finish p =>
    match a.pending p with
    | some (_, _, true) => some (a.setPending p none)
    | _ => none
  | .fill b blockno data => some { a with buffer := Function.update a.buffer b (blockno, data) }

end Spec

namespace Phase

/-- The descriptors of a process. -/
def slots : Phase Buf → List Nat
  | .waiting _ _ i0 i1 i2 => [i0, i1, i2]
  | _ => []

/-- The buffer of a process. -/
def target : Phase Buf → Option Buf
  | .outside => none
  | .allocating b _ _ => some b
  | .waiting b _ _ _ _ => some b

/-- What a process sleeps on. -/
def channel : Phase Buf → Option (Channel Buf)
  | .outside => none
  | .allocating _ _ _ => some .free
  | .waiting b _ _ _ _ => some (.buf b)

/-- The request of a process, given the chains that still have to be served. -/
def pending (todo : List Nat) : Phase Buf → Option (Buf × Bool × Bool)
  | .outside => none
  | .allocating b write _ => some (b, write, false)
  | .waiting b write i0 _ _ => some (b, write, decide (i0 ∉ todo))

end Phase

namespace State

variable (s : State Proc Buf)

/-- The chains in the avail ring. -/
def sent : List Nat := between num s.availRing s.lastAvail s.availIdx

/-- The chains in the used ring. -/
def served : List Nat := between num s.usedRing s.usedSeen s.usedIdx

/-- The chains that still have to be served. -/
def todo : List Nat := s.sent ++ s.inflight

/-- All chains on their way. -/
def live : List Nat := s.todo ++ s.served

/-- The abstract disk. -/
def abs : Spec Proc Buf where
  block := fun n => sectors s.store (2 * n)
  buffer := fun b => ((s.buf b).blockno, (s.buf b).data)
  pending := fun p => (s.phase p).pending s.todo

end State

/-- The visible actions that an event stands for. -/
def label (s : State Proc Buf) : Event Proc Buf → List (Action Proc Buf)
  | .rw p b write => [.submit p b write]
  | .fill b blockno data => [.fill b blockno data]
  | .resume p =>
    match s.phase p with
    | .waiting b _ _ _ _ => if (s.buf b).disk then [] else [.finish p]
    | _ => []
  | _ => []

/-- **The condition on a run**: nobody else is in a request with the buffer, and the block number
can be doubled. -/
def Guard (s : State Proc Buf) : Event Proc Buf → Prop
  | .rw _ b _ => (s.buf b).blockno.toNat < 2 ^ 31 ∧ ∀ q, (s.phase q).target ≠ some b
  | .fill b _ _ => ∀ q, (s.phase q).target ≠ some b
  | _ => True

instance [Fintype Proc] (s : State Proc Buf) : ∀ e, Decidable (Guard s e)
  | .rw _ _ _ => inferInstanceAs (Decidable (_ ∧ ∀ _, _))
  | .fill _ _ _ => inferInstanceAs (Decidable (∀ _, _))
  | .attempt _ | .resume _ | .fetch | .complete _ | .intr | .kill _ => isTrue trivial

/-! ### The invariant -/

variable {s t : State Proc Buf} {p q : Proc} {b c : Buf} {write : Bool} {h i i0 i1 i2 sector : Nat}
  {phase : Phase Buf}

theorem divides_num : num ∣ 2 ^ 16 := by decide

theorem num_small : num < 2 ^ 16 := by decide

/-- A field that the update of one entry keeps. -/
theorem field_update {ι α β : Type} [DecidableEq ι] (field : α → β) {f : ι → α} {i : ι} {v : α}
    (same : field v = field (f i)) (j : ι) : field (Function.update f i v j) = field (f j) := by
  by_cases eq : j = i
  · rw [eq, Function.update_self, same]
  · rw [Function.update_of_ne eq]

/-- What a process in a call relies on. -/
def Holds (s : State Proc Buf) : Phase Buf → Prop
  | .outside => True
  | .allocating b _ sector => sector = 2 * (s.buf b).blockno.toNat
  | .waiting b write i0 i1 i2 => Chain s b write i0 i1 i2 ∧ (s.info i0).b = some b ∧
      s.ops i0 = ⟨if write then blkTOut else blkTIn, 0, 2 * (s.buf b).blockno.toNat⟩

/-- The chain that a process waits for. -/
def State.want (s : State Proc Buf) (p : Proc) : Option Nat :=
  match s.phase p with
  | .waiting b _ i0 _ _ => if (s.buf b).disk then some i0 else none
  | _ => none

/-- What the sleepers on a channel wait for. -/
def Waits (s : State Proc Buf) : Channel Buf → Prop
  | .free => Short s.free
  | .buf b => (s.buf b).disk = true

/-- The processes in calls share no descriptor and no buffer. -/
structure Callers (s : State Proc Buf) : Prop where
  holds : ∀ p, Holds s (s.phase p)
  apart : ∀ p q i, i ∈ (s.phase p).slots → i ∈ (s.phase q).slots → p = q
  owned : ∀ i < num, s.free i = false → ∃ p, i ∈ (s.phase p).slots
  alone : ∀ p q b, (s.phase p).target = some b → (s.phase q).target = some b → p = q

/-- **The driver, its device and its callers fit together.** -/
structure Inv (s : State Proc Buf) : Prop where
  callers : Callers s
  avail : ∃ n, Queue num s.availRing s.lastAvail s.availIdx n s.sent
  used : ∃ n, Queue num s.usedRing s.usedSeen s.usedIdx n s.served
  /-- No request is on its way twice. -/
  nodup : s.live.Nodup
  /-- The requests on their way are those that somebody waits for. -/
  asked : ∀ h, h ∈ s.live ↔ ∃ p, s.want p = some h
  status : ∀ h ∈ s.served, (s.info h).status = 0
  fault : s.fault = none
  awake : Sleepers.NoneLost (Waits s) s.asleep
  channel : ∀ p c, s.asleep p = some c → (s.phase p).channel = some c

theorem want_waiting (waiting : s.phase p = .waiting b write i0 i1 i2) :
    s.want p = if (s.buf b).disk then some i0 else none := by
  rw [State.want, waiting]

theorem want_eq_some (wants : s.want p = some h) :
    ∃ b write i1 i2, s.phase p = .waiting b write h i1 i2 ∧ (s.buf b).disk = true := by
  cases isPhase : s.phase p with
  | outside => rw [State.want, isPhase] at wants; cases wants
  | allocating => rw [State.want, isPhase] at wants; cases wants
  | waiting b write i0 i1 i2 =>
    rw [want_waiting isPhase] at wants
    split at wants
    next owns => exact ⟨b, write, i1, i2, Option.some.inj wants ▸ rfl, owns⟩
    · cases wants

/-- What a process waits for depends on its phase and its buffer. -/
theorem want_congr (phase : t.phase p = s.phase p)
    (disk : ∀ b, (s.phase p).target = some b → (t.buf b).disk = (s.buf b).disk) :
    t.want p = s.want p := by
  rw [State.want, State.want, phase]
  cases isPhase : s.phase p with
  | outside => rfl
  | allocating => rfl
  | waiting b write i0 i1 i2 =>
    dsimp only
    rw [disk b (by rw [isPhase]; rfl)]

/-- What a process holds depends on its own descriptors and buffer. -/
theorem Holds.congr (holds : Holds s phase)
    (same : ∀ i ∈ phase.slots, t.desc i = s.desc i ∧ t.free i = s.free i ∧
      (t.info i).b = (s.info i).b ∧ t.ops i = s.ops i)
    (blockno : ∀ b, phase.target = some b → (t.buf b).blockno = (s.buf b).blockno) :
    Holds t phase := by
  cases phase with
  | outside => trivial
  | allocating b write sector =>
    show sector = _
    rw [blockno b rfl]
    exact holds
  | waiting b write i0 i1 i2 =>
    obtain ⟨⟨lt, distinct, busy, head, middle, last⟩, isInfo, isOp⟩ := holds
    obtain ⟨desc0, free0, info0, op0⟩ := same i0 (by simp [Phase.slots])
    obtain ⟨desc1, free1, _, _⟩ := same i1 (by simp [Phase.slots])
    obtain ⟨desc2, free2, _, _⟩ := same i2 (by simp [Phase.slots])
    refine ⟨⟨lt, distinct, ?_, desc0.trans head, desc1.trans middle, desc2.trans last⟩,
      info0.trans isInfo, ?_⟩
    · rw [free0, free1, free2]
      exact busy
    · rw [op0, isOp, blockno b rfl]

/-- The descriptors of a process are in use. -/
theorem Holds.busy (holds : Holds s phase) (member : i ∈ phase.slots) :
    i < num ∧ s.free i = false := by
  cases phase with
  | outside => cases member
  | allocating => cases member
  | waiting b write i0 i1 i2 =>
    obtain ⟨⟨lt, _, busy, _⟩, _⟩ := holds
    simp only [Phase.slots, List.mem_cons, List.not_mem_nil, or_false] at member
    obtain rfl | rfl | rfl := member
    · exact ⟨lt.1, busy.1⟩
    · exact ⟨lt.2.1, busy.2.1⟩
    · exact ⟨lt.2.2, busy.2.2⟩

namespace Callers

/-- Nobody has moved. -/
theorem congr (callers : Callers s) (phase : t.phase = s.phase) (free : t.free = s.free)
    (desc : ∀ i, s.free i = false → t.desc i = s.desc i) (info : ∀ i, (t.info i).b = (s.info i).b)
    (ops : t.ops = s.ops)
    (blockno : ∀ q b, (s.phase q).target = some b → (t.buf b).blockno = (s.buf b).blockno) :
    Callers t := by
  refine ⟨fun q => ?_, ?_, ?_, ?_⟩ <;> rw [phase]
  · exact (callers.holds q).congr (fun i member =>
      ⟨desc i ((callers.holds q).busy member).2, by rw [free], info i, by rw [ops]⟩) (blockno q)
  · exact callers.apart
  · rw [free]
    exact callers.owned
  · exact callers.alone

/-- One process has moved. -/
theorem move (callers : Callers s) (phaseAt : t.phase p = phase)
    (phaseOf : ∀ q ≠ p, t.phase q = s.phase q) (holds : Holds t phase)
    (others : ∀ q ≠ p, Holds t (s.phase q))
    (slots : ∀ i ∈ phase.slots, ∀ q ≠ p, i ∉ (s.phase q).slots)
    (target : ∀ b, phase.target = some b → ∀ q ≠ p, (s.phase q).target ≠ some b)
    (busy : ∀ i < num, t.free i = false → i ∈ phase.slots ∨ s.free i = false ∧
      i ∉ (s.phase p).slots) : Callers t := by
  have exclusive :
      ∀ {α : Type} (has : Phase Buf → α → Prop), (∀ q r x, has (s.phase q) x → has (s.phase r) x →
        q = r) →
      (∀ x, has phase x → ∀ q ≠ p, ¬ has (s.phase q) x) → ∀ q r x, has (t.phase q) x →
      has (t.phase r) x → q = r := by
    intro α has before fresh q r x first second
    by_cases eq : q = p <;> by_cases eq' : r = p
    · exact eq.trans eq'.symm
    · rw [eq, phaseAt] at first
      rw [phaseOf r eq'] at second
      exact absurd second (fresh x first r eq')
    · rw [eq', phaseAt] at second
      rw [phaseOf q eq] at first
      exact absurd first (fresh x second q eq)
    · rw [phaseOf q eq] at first
      rw [phaseOf r eq'] at second
      exact before q r x first second
  refine ⟨fun q => ?_, exclusive (fun phase i => i ∈ phase.slots) callers.apart slots,
    fun i lt isBusy => ?_, exclusive (fun phase b => phase.target = some b) callers.alone target⟩
  · by_cases eq : q = p
    · rw [eq, phaseAt]
      exact holds
    · rw [phaseOf q eq]
      exact others q eq
  · obtain mine | ⟨before, notMine⟩ := busy i lt isBusy
    · exact ⟨p, phaseAt.symm ▸ mine⟩
    · obtain ⟨q, member⟩ := callers.owned i lt before
      have ne : q ≠ p := by
        rintro rfl
        exact notMine member
      exact ⟨q, (phaseOf q ne).symm ▸ member⟩

end Callers

/-- Who waits for a chain. -/
theorem Inv.asker (inv : Inv s) (member : h ∈ s.live) :
    ∃ p b write i1 i2, s.phase p = .waiting b write h i1 i2 ∧ (s.buf b).disk = true := by
  obtain ⟨p, wants⟩ := (inv.asked h).mp member
  exact ⟨p, want_eq_some wants⟩

theorem Inv.lt_of_mem (inv : Inv s) (member : h ∈ s.live) : h < num ∧ s.free h = false := by
  obtain ⟨p, b, write, i1, i2, waiting, _⟩ := inv.asker member
  have holds := inv.callers.holds p
  rw [waiting] at holds
  exact holds.busy (by simp [Phase.slots])

/-- A ring has room for one more chain. -/
theorem length_lt_num {l : List Nat} (nodup : l.Nodup) (lt : ∀ i ∈ l, i < num) (below : h < num)
    (fresh : h ∉ l) : l.length < num := by
  have nodup' : (h :: l).Nodup := List.nodup_cons.mpr ⟨fresh, nodup⟩
  have sub : (h :: l).toFinset ⊆ Finset.range num := by
    intro i member
    rw [List.mem_toFinset, List.mem_cons] at member
    obtain rfl | member := member
    · exact Finset.mem_range.mpr below
    · exact Finset.mem_range.mpr (lt i member)
  have bound := Finset.card_le_card sub
  rwa [List.toFinset_card_of_nodup nodup', Finset.card_range] at bound

/-! ### Calls -/

theorem abs_pending (s : State Proc Buf) (p : Proc) :
    s.abs.pending p = (s.phase p).pending s.todo := rfl

/-- The abstract requests after one process has moved. -/
theorem pending_move {request : Option (Buf × Bool × Bool)}
    (here : (t.phase p).pending t.todo = request)
    (there : ∀ q ≠ p, (t.phase q).pending t.todo = (s.phase q).pending s.todo) :
    t.abs.pending = Function.update s.abs.pending p request := by
  funext q
  by_cases eq : q = p
  · rw [eq, Function.update_self]
    exact here
  · rw [Function.update_of_ne eq]
    exact there q eq

/-- `virtio_disk_rw` is called. -/
theorem Inv.rw (inv : Inv s) (outside : s.phase p = .outside)
    (small : (s.buf b).blockno.toNat < 2 ^ 31) (unused : ∀ q, (s.phase q).target ≠ some b)
    (write : Bool) : Inv (s.setPhase p (.allocating b write ((s.buf b).blockno * 2).toNat)) ∧
      s.abs.step (.submit p b write) =
      some (s.setPhase p (.allocating b write ((s.buf b).blockno * 2).toNat)).abs := by
  have double : ((s.buf b).blockno * 2).toNat = 2 * (s.buf b).blockno.toNat := by
    rw [BitVec.toNat_mul]
    show (s.buf b).blockno.toNat * 2 % 2 ^ 32 = _
    omega
  rw [double]
  set t := s.setPhase p (.allocating b write (2 * (s.buf b).blockno.toNat))
  have phaseAt : t.phase p = .allocating b write (2 * (s.buf b).blockno.toNat) :=
    Function.update_self ..
  have phaseOf : ∀ q ≠ p, t.phase q = s.phase q := fun q ne => Function.update_of_ne ne ..
  have want : t.want = s.want := by
    funext q
    by_cases eq : q = p
    · rw [eq, State.want, State.want, phaseAt, outside]
    · exact want_congr (phaseOf q eq) fun _ _ => rfl
  refine ⟨⟨?_, inv.avail, inv.used, inv.nodup, want.symm ▸ inv.asked, inv.status, inv.fault,
    inv.awake, fun q c asleepOn => ?_⟩, ?_⟩
  · refine inv.callers.move phaseAt phaseOf rfl
      (fun q _ => (inv.callers.holds q).congr (fun _ _ => ⟨rfl, rfl, rfl, rfl⟩) fun _ _ => rfl)
      (fun i member => absurd member List.not_mem_nil) (by rintro c ⟨⟩ q _; exact unused q)
      fun i _ busy => .inr ⟨busy, ?_⟩
    rw [outside]
    exact List.not_mem_nil
  · have before := inv.channel q c asleepOn
    have ne : q ≠ p := by
      rintro rfl
      rw [outside] at before
      cases before
    rw [phaseOf q ne]
    exact before
  · show (match s.abs.pending p with | none => _ | _ => none) = _
    rw [abs_pending, outside]
    refine congrArg some (Spec.ext rfl rfl (pending_move ?_ fun q ne => ?_).symm)
    · rw [phaseAt]
      rfl
    · rw [phaseOf q ne]
      rfl

/-- A process that goes to sleep on the channel of its phase. -/
theorem channel_sleep {asleep : Proc → Option (Channel Buf)} {phases : Proc → Phase Buf}
    {c : Channel Buf} (before : ∀ q c, asleep q = some c → (phases q).channel = some c)
    (here : (phases p).channel = some c) (q : Proc) (d : Channel Buf)
    (asleepOn : Sleepers.sleep asleep p c q = some d) : (phases q).channel = some d := by
  by_cases eq : q = p
  · rw [eq, Sleepers.sleep, Function.update_self] at asleepOn
    rw [eq, here, asleepOn]
  · rw [Sleepers.sleep, Function.update_of_ne eq] at asleepOn
    exact before q d asleepOn

/-- No three descriptors are free, and the process goes to sleep. -/
theorem Inv.putBack (inv : Inv s) (allocating : s.phase p = .allocating b write sector)
    (putBack : PutBack s t) (short : Short s.free) :
    Inv (t.sleep p .free) ∧ (t.sleep p .free).abs = s.abs := by
  obtain ⟨⟨desc, asleep, rfl⟩, same, woken⟩ := putBack
  have kept : Sleepers.NoneLost (Waits s) asleep ∧ ∀ q c, asleep q = some c →
      s.asleep q = some c := by
    obtain eq | eq := woken
    · rw [show asleep = s.asleep from eq]
      exact ⟨inv.awake, fun _ _ => id⟩
    · rw [show asleep = _ from eq]
      exact ⟨inv.awake.wakeup fun _ _ waits => waits,
        fun _ _ asleepOn => (Sleepers.wakeup_eq_some.mp asleepOn).1⟩
  refine ⟨⟨inv.callers.congr rfl rfl same (fun _ => rfl) rfl fun _ _ _ => rfl, inv.avail, inv.used,
    inv.nodup, inv.asked, inv.status, inv.fault, kept.1.sleep short, ?_⟩, rfl⟩
  exact channel_sleep (fun q c asleepOn => inv.channel q c (kept.2 q c asleepOn))
    (congrArg Phase.channel allocating)

/-- The state in which a process has published its request. -/
def published (s : State Proc Buf) (p : Proc) (b : Buf) (write : Bool) (sector i0 i1 i2 : Nat) :
    State Proc Buf :=
  (((((s.take i0).take i1).take i2).publish b write sector i0 i1 i2).setPhase p
    (.waiting b write i0 i1 i2)).sleep p (.buf b)

theorem free_published (write : Bool) (sector : Nat) (i : Nat) :
    (published s p b write sector i0 i1 i2).free i = if i = i0 ∨ i = i1 ∨
    i = i2 then false else s.free i := by
  show Function.update (Function.update (Function.update s.free i0 false) i1 false) i2 false i = _
  simp only [Function.update_apply]
  grind

/-- The new chain. -/
theorem chain_published (found : Found s.free i0 i1 i2) (write : Bool) (sector : Nat) :
    Chain (published s p b write sector i0 i1 i2) b write i0 i1 i2 := by
  obtain ⟨ne01, ne02, ne12⟩ := found.distinct
  refine ⟨found.lt, found.distinct, ⟨?_, ?_, ?_⟩, ?_, ?_, ?_⟩
  · rw [free_published, if_pos (.inl rfl)]
  · rw [free_published, if_pos (.inr (.inl rfl))]
  · rw [free_published, if_pos (.inr (.inr rfl))]
  · exact (Function.update_of_ne ne02 _ _).trans
      ((Function.update_of_ne ne01 _ _).trans (Function.update_self ..))
  · exact (Function.update_of_ne ne12 _ _).trans (Function.update_self ..)
  · exact Function.update_self ..

/-- A request whose chain is another one. -/
theorem pending_congr {todo todo' : List Nat} (same : ∀ i ∈ phase.slots, i ∈ todo' ↔ i ∈ todo) :
    phase.pending todo' = phase.pending todo := by
  cases phase with
  | outside => rfl
  | allocating => rfl
  | waiting b write i0 i1 i2 => rw [Phase.pending, Phase.pending,
    decide_eq_decide.mpr (not_congr (same i0 (by simp [Phase.slots])))]

/-- **A request is published.** -/
theorem Inv.publish (inv : Inv s) (runs : s.asleep p = none)
    (allocating : s.phase p = .allocating b write sector) (found : Found s.free i0 i1 i2) :
    Inv (published s p b write sector i0 i1 i2) ∧
    (published s p b write sector i0 i1 i2).abs = s.abs := by
  set u := published s p b write sector i0 i1 i2 with isU
  obtain ⟨free0, free1, free2⟩ := found.isFree
  -- The new descriptors were nobody's.
  have other : ∀ q, ∀ i ∈ (s.phase q).slots, i ≠ i0 ∧ i ≠ i1 ∧ i ≠ i2 := by
    intro q i member
    have busy := ((inv.callers.holds q).busy member).2
    exact ⟨ne_of_busy free0 busy, ne_of_busy free1 busy, ne_of_busy free2 busy⟩
  have fresh : i0 ∉ s.live := fun member => ne_of_busy free0 (inv.lt_of_mem member).2 rfl
  have sectorIs := inv.callers.holds p
  rw [allocating] at sectorIs
  have lonely : ∀ q ≠ p, (s.phase q).target ≠ some b :=
    fun q ne owns => ne (inv.callers.alone q p b owns (by rw [allocating]; rfl))
  -- The avail ring has room, as the chains on their way are different descriptors.
  obtain ⟨n, queue⟩ := inv.avail
  have room : s.sent.length < num := by
    have all := length_lt_num inv.nodup (fun i member => (inv.lt_of_mem member).1) found.lt.1 fresh
    rw [State.live, State.todo, List.length_append, List.length_append] at all
    omega
  have pushed := queue.push divides_num room i0
  have sent : u.sent = s.sent ++ [i0] := pushed.between_eq divides_num num_small
  have perm : u.live.Perm (i0 :: s.live) := by
    show (u.sent ++ s.inflight ++ s.served).Perm (i0 :: (s.sent ++ s.inflight ++ s.served))
    rw [sent, List.append_assoc, List.append_assoc, List.append_assoc]
    exact List.perm_middle
  have todo : ∀ i, i ∈ u.todo ↔ i = i0 ∨ i ∈ s.todo := by
    intro i
    show i ∈ u.sent ++ s.inflight ↔ i = i0 ∨ i ∈ s.sent ++ s.inflight
    rw [sent]
    simp only [List.mem_append, List.mem_singleton]
    tauto
  have bufAt : u.buf b = { s.buf b with disk := true } := Function.update_self ..
  have bufOf : ∀ c ≠ b, u.buf c = s.buf c := fun c ne => Function.update_of_ne ne ..
  have infoAt : u.info i0 = ⟨some b, 0xff⟩ := Function.update_self ..
  have infoOf : ∀ i ≠ i0, u.info i = s.info i := fun i ne => Function.update_of_ne ne ..
  have blockno : ∀ c, (u.buf c).blockno = (s.buf c).blockno := field_update Buffer.blockno rfl
  have phaseAt : u.phase p = .waiting b write i0 i1 i2 := Function.update_self ..
  have phaseOf : ∀ q ≠ p, u.phase q = s.phase q := fun q ne => Function.update_of_ne ne ..
  have wantAt : u.want p = some i0 := by rw [want_waiting phaseAt, bufAt]; rfl
  have wantOf : ∀ q ≠ p, u.want q = s.want q :=
    fun q ne => want_congr (phaseOf q ne) fun c isTarget => by
    rw [bufOf c (by rintro rfl; exact lonely q ne isTarget)]
  have idle : s.want p = none := by rw [State.want, allocating]
  refine ⟨⟨?_, ⟨n, sent ▸ pushed⟩, inv.used,
    perm.nodup_iff.mpr (List.nodup_cons.mpr ⟨fresh, inv.nodup⟩), fun h => ?_, fun h member => ?_,
    inv.fault, ?_, ?_⟩, ?_⟩
  · refine inv.callers.move phaseAt phaseOf ⟨chain_published found write sector, by rw [infoAt],
      ?_⟩ (fun q ne => ?_)
      (fun i member q _ member' => ?_) (by rintro c ⟨⟩ q ne; exact lonely q ne) fun i lt busy => ?_
    · rw [blockno b]
      exact (Function.update_self ..).trans (by rw [sectorIs])
    · refine (inv.callers.holds q).congr (fun i member => ?_) fun c _ => blockno c
      obtain ⟨ne0, ne1, ne2⟩ := other q i member
      refine ⟨(Function.update_of_ne ne2 _ _).trans
        ((Function.update_of_ne ne1 _ _).trans (Function.update_of_ne ne0 _ _)), ?_, ?_,
        Function.update_of_ne ne0 ..⟩
      · rw [isU, free_published, if_neg (by tauto)]
      · rw [infoOf i ne0]
    · have isOther := other q i member'
      simp only [Phase.slots, List.mem_cons, List.not_mem_nil, or_false] at member
      tauto
    · rw [isU, free_published] at busy
      by_cases new : i = i0 ∨ i = i1 ∨ i = i2
      · exact .inl (by simpa [Phase.slots] using new)
      · rw [if_neg new] at busy
        exact .inr ⟨busy, by rw [allocating]; exact List.not_mem_nil⟩
  · rw [perm.mem_iff, List.mem_cons, inv.asked h]
    constructor
    · rintro (rfl | ⟨q, wants⟩)
      · exact ⟨p, wantAt⟩
      · exact ⟨q, (wantOf q (by rintro rfl; cases idle.symm.trans wants)).trans wants⟩
    · rintro ⟨q, wants⟩
      by_cases eq : q = p
      · rw [eq, wantAt] at wants
        exact .inl (Option.some.inj wants).symm
      · exact .inr ⟨q, (wantOf q eq).symm.trans wants⟩
  · rw [infoOf h fun eq => fresh (List.mem_append_right _ (eq ▸ member))]
    exact inv.status h member
  · -- Nobody waits for descriptors, since three were free.
    refine Sleepers.NoneLost.sleep ?_ (show (u.buf b).disk = true by rw [bufAt])
    refine inv.awake.mono fun channel waits => ?_
    cases channel with
    | free =>
      have short := waits i0 i1 i2 found.lt.1 found.lt.2.1 found.lt.2.2 free0 free1 free2
      have distinct := found.distinct
      tauto
    | buf c =>
      show (u.buf c).disk = true
      by_cases eq : c = b
      · rw [eq, bufAt]
      · rw [bufOf c eq]
        exact waits
  · refine channel_sleep (fun q c asleepOn => ?_) (congrArg Phase.channel phaseAt)
    rw [phaseOf q (by rintro rfl; cases runs.symm.trans asleepOn)]
    exact inv.channel q c asleepOn
  · refine Spec.ext rfl (funext fun c => Prod.ext (blockno c) (field_update Buffer.data (by rfl) c))
      ((pending_move ?_ fun q ne => ?_).trans (Function.update_eq_self p _))
    · rw [phaseAt, abs_pending, allocating, Phase.pending, Phase.pending,
        decide_eq_false (not_not.mpr ((todo i0).mpr (.inl rfl)))]
    · rw [phaseOf q ne]
      exact pending_congr fun i member => (todo i).trans (or_iff_right (other q i member).1)

/-- **One round of the first loop of `virtio_disk_rw`.** -/
theorem Inv.attempt (inv : Inv s) (runs : s.asleep p = none)
    (allocating : s.phase p = .allocating b write sector) :
    ∃ t, s.attempt p b write sector = .ok t ∧ Inv t ∧ t.abs = s.abs := by
  unfold State.attempt
  obtain ⟨t, eq, putBack, short⟩ | ⟨i0, i1, i2, found, eq⟩ := alloc3Desc_spec s
  · rw [eq]
    exact ⟨_, rfl, inv.putBack allocating putBack short⟩
  · rw [eq]
    exact ⟨_, rfl, inv.publish runs allocating found⟩

/-- Two processes wait for different chains. -/
theorem Inv.same_asker (inv : Inv s) {write' : Bool} {j1 j2 : Nat}
    (waiting : s.phase p = .waiting b write i0 i1 i2)
    (waiting' : s.phase q = .waiting c write' i0 j1 j2) : q = p :=
  inv.callers.apart q p i0 (by rw [waiting']; simp [Phase.slots])
    (by rw [waiting]; simp [Phase.slots])

/-- Who waits for a chain that has been handed back is done. -/
theorem Inv.notMem_live (inv : Inv s) (waiting : s.phase p = .waiting b write i0 i1 i2)
    (done : (s.buf b).disk = false) : i0 ∉ s.live := by
  intro member
  obtain ⟨q, c, write', j1, j2, waiting', owns⟩ := inv.asker member
  rw [inv.same_asker waiting waiting', waiting] at waiting'
  cases waiting'
  exact absurd (done.symm.trans owns) nofun

/-- The state in which a process has given its descriptors back. -/
def returned (s : State Proc Buf) (p : Proc) (i0 i1 i2 : Nat) : State Proc Buf :=
  ((({ s with info := Function.update s.info i0 { s.info i0 with b := none } }.clear i0).clear
    i1).clear i2).setPhase p .outside

theorem free_returned (i : Nat) : (returned s p i0 i1 i2).free i = if i = i0 ∨ i = i1 ∨
    i = i2 then true else s.free i := by
  show Function.update (Function.update (Function.update s.free i0 true) i1 true) i2 true i = _
  simp only [Function.update_apply]
  grind

/-- **A call returns.** -/
theorem Inv.returned (inv : Inv s) (runs : s.asleep p = none)
    (waiting : s.phase p = .waiting b write i0 i1 i2) (done : (s.buf b).disk = false) :
    Inv (returned s p i0 i1 i2) ∧ s.abs.step (.finish p) = some (returned s p i0 i1 i2).abs := by
  set u := Virtio.returned s p i0 i1 i2 with isU
  have phaseAt : u.phase p = .outside := Function.update_self ..
  have phaseOf : ∀ q ≠ p, u.phase q = s.phase q := fun q ne => Function.update_of_ne ne ..
  have mine : ∀ i, i ∈ (s.phase p).slots ↔ i = i0 ∨ i = i1 ∨ i = i2 := by
    intro i
    rw [waiting]
    simp [Phase.slots]
  have other : ∀ q ≠ p, ∀ i ∈ (s.phase q).slots, ¬ (i = i0 ∨ i = i1 ∨ i = i2) :=
    fun q ne i member mine' => ne (inv.callers.apart q p i member ((mine i).mpr mine'))
  have infoOf : ∀ i ≠ i0, u.info i = s.info i := fun i ne => Function.update_of_ne ne ..
  have want : u.want = s.want := by
    funext q
    by_cases eq : q = p
    · rw [eq, want_waiting waiting, done, State.want, phaseAt]
      rfl
    · exact want_congr (phaseOf q eq) fun _ _ => rfl
  have asleep : u.asleep = Sleepers.wakeup s.asleep .free := by
    show Sleepers.wakeup (Sleepers.wakeup (Sleepers.wakeup s.asleep .free) .free) .free = _
    rw [wakeup_wakeup, wakeup_wakeup]
  refine ⟨⟨?_, inv.avail, inv.used, inv.nodup, want.symm ▸ inv.asked, fun h member => ?_, inv.fault,
    ?_, fun q c asleepOn => ?_⟩, ?_⟩
  · refine inv.callers.move phaseAt phaseOf trivial (fun q ne => ?_)
      (fun i member => absurd member List.not_mem_nil) nofun fun i _ busy => ?_
    · refine (inv.callers.holds q).congr (fun i member => ?_) fun _ _ => rfl
      obtain ⟨ne0, ne1, ne2⟩ : i ≠ i0 ∧ i ≠ i1 ∧ i ≠ i2 := by
        simpa [not_or] using other q ne i member
      refine ⟨(Function.update_of_ne ne2 _ _).trans
        ((Function.update_of_ne ne1 _ _).trans (Function.update_of_ne ne0 _ _)), ?_, ?_, rfl⟩
      · rw [isU, free_returned, if_neg (other q ne i member)]
      · rw [infoOf i ne0]
    · rw [isU, free_returned] at busy
      split at busy
      · cases busy
      next still => exact .inr ⟨busy, fun member => still ((mine i).mp member)⟩
  · exact (field_update Info.status (by rfl) h).trans (inv.status h member)
  · rw [asleep]
    refine inv.awake.wakeup fun channel ne waits => ?_
    cases channel with
    | free => exact absurd rfl ne
    | buf c => exact waits
  · rw [asleep] at asleepOn
    have before := (Sleepers.wakeup_eq_some.mp asleepOn).1
    rw [phaseOf q (by rintro rfl; cases runs.symm.trans before)]
    exact inv.channel q c before
  · have finished : i0 ∉ s.todo :=
      fun member => inv.notMem_live waiting done (List.mem_append_left _ member)
    show (match s.abs.pending p with | some (_, _, true) => _ | _ => none) = _
    rw [abs_pending, waiting, Phase.pending, decide_eq_true finished]
    refine congrArg some (Spec.ext rfl rfl (pending_move ?_ fun q ne => ?_).symm)
    · rw [phaseAt]
      rfl
    · rw [phaseOf q ne]
      rfl

/-- **The second loop of `virtio_disk_rw` after a `sleep`.** -/
theorem Inv.resume (inv : Inv s) (runs : s.asleep p = none)
    (waiting : s.phase p = .waiting b write i0 i1 i2) : ∃ t, s.resume p b i0 = .ok t ∧ Inv t ∧
      ((s.buf b).disk = true ∧ t.abs = s.abs ∨ (s.buf b).disk = false ∧
        s.abs.step (.finish p) = some t.abs) := by
  unfold State.resume
  by_cases owns : (s.buf b).disk = true
  · rw [if_pos owns]
    exact ⟨_, rfl, ⟨inv.callers.congr rfl rfl (fun _ _ => rfl) (fun _ => rfl) rfl fun _ _ _ => rfl,
      inv.avail, inv.used, inv.nodup,
      inv.asked, inv.status, inv.fault, inv.awake.sleep owns,
      channel_sleep inv.channel (congrArg Phase.channel waiting)⟩, .inl ⟨owns, rfl⟩⟩
  · rw [if_neg owns]
    rw [Bool.not_eq_true] at owns
    have holds := inv.callers.holds p
    rw [waiting] at holds
    obtain ⟨⟨lt, distinct, busy, head, middle, last⟩, _⟩ := holds
    have chain :
        Chain { s with info := Function.update s.info i0 { s.info i0 with b := none } } b
        write i0 i1 i2 :=
      ⟨lt, distinct, busy, head, middle, last⟩
    dsimp only
    rw [freeChain_spec chain 6]
    obtain ⟨inv', finished⟩ := inv.returned runs waiting owns
    exact ⟨_, rfl, inv', .inr ⟨owns, finished⟩⟩

/-! ### The device and the interrupt -/

/-- The device takes a chain. -/
theorem Inv.fetch (inv : Inv s) (some_ : s.lastAvail ≠ s.availIdx) :
    Inv s.fetch ∧ s.fetch.abs = s.abs := by
  obtain ⟨n, queue⟩ := inv.avail
  cases isSent : s.sent with
  | nil => exact absurd ((queue.eq_iff_nil num_small).mpr isSent) some_
  | cons h rest =>
    rw [isSent] at queue
    obtain ⟨isHead, popped⟩ := queue.pop divides_num
    have sent : s.fetch.sent = rest := popped.between_eq divides_num num_small
    have todo : s.fetch.todo.Perm s.todo := by
      show (s.fetch.sent ++ (s.inflight ++ [s.availRing (s.lastAvail.toNat % num)])).Perm
        (s.sent ++ s.inflight)
      rw [sent, isSent, isHead, ← List.append_assoc]
      exact List.perm_append_comm
    have live : s.fetch.live.Perm s.live := todo.append_right _
    refine ⟨⟨inv.callers.congr rfl rfl (fun _ _ => rfl) (fun _ => rfl) rfl fun _ _ _ => rfl,
      ⟨n + 1, sent.symm ▸ popped⟩, inv.used,
      live.nodup_iff.mpr inv.nodup, fun h => live.mem_iff.trans (inv.asked h),
      inv.status, inv.fault, inv.awake.mono fun channel waits => ?_, inv.channel⟩, ?_⟩
    · cases channel <;> exact waits
    · exact Spec.ext rfl rfl (funext fun q => pending_congr fun i _ => todo.mem_iff)

/-- The two sectors of a block. -/
theorem sectors_putSectors (store : Bytes.Mem) (n : Nat) (data : Data) :
    (fun m => State.sectors (State.putSectors store (2 * n) data) (2 * m)) =
      Function.update (fun m => State.sectors store (2 * m)) n data := by
  funext m j
  have lt : j.1 < 1024 := j.2
  have size : bsize = 1024 := rfl
  by_cases eq : m = n
  · rw [eq, Function.update_self]
    unfold State.sectors State.putSectors
    rw [dif_pos (by omega)]
    exact congrArg data (Fin.ext (by simp))
  · rw [Function.update_of_ne eq]
    unfold State.sectors State.putSectors
    rw [dif_neg (by omega)]

/-- The state in which the device has served a chain. -/
def completed (s : State Proc Buf) (b : Buf) (write : Bool) (h : Nat) : State Proc Buf :=
  (if write
    then { s with store := State.putSectors s.store (2 * (s.buf b).blockno.toNat) (s.buf b).data }
    else { s with
      buf := Function.update s.buf b
        { s.buf b with data := State.sectors s.store (2 * (s.buf b).blockno.toNat) } }).finish h h

/-- **The device can serve every chain it has taken**, and serves the request it stands for. -/
theorem Inv.complete_eq (inv : Inv s) (member : h ∈ s.inflight)
    (waiting : s.phase p = .waiting b write h i1 i2) :
    s.complete h = some (completed s b write h) := by
  have holds := inv.callers.holds p
  rw [waiting] at holds
  obtain ⟨⟨_, _, _, head, middle, last⟩, _, op⟩ := holds
  unfold State.complete completed
  dsimp only
  rw [head, middle, last]
  dsimp only
  rw [if_pos ⟨member, by decide, rfl, next_middle write, rfl, by decide, rfl⟩, op]
  cases write with
  | true => rfl
  | false => exact (if_neg (show ¬ blkTIn = blkTOut by decide)).trans (if_pos ⟨rfl, by decide⟩)

/-- What the device has changed: one block or one buffer, the status and the used ring. -/
theorem completed_same (s : State Proc Buf) (b : Buf) (write : Bool) (h : Nat) :
    (completed s b write h).desc = s.desc ∧ (completed s b write h).free = s.free ∧
      (completed s b write h).ops = s.ops ∧ (completed s b write h).phase = s.phase ∧
      (completed s b write h).asleep = s.asleep ∧ (completed s b write h).fault = s.fault ∧
      (completed s b write h).inflight = s.inflight.erase h ∧
      (completed s b write h).sent = s.sent ∧
      (completed s b write h).info = Function.update s.info h { s.info h with status := 0 } ∧
      (∀ c, ((completed s b write h).buf c).disk = (s.buf c).disk) ∧
      (∀ c, ((completed s b write h).buf c).blockno = (s.buf c).blockno) ∧
      ((completed s b write h).abs.block, (completed s b write h).abs.buffer) =
        ((s.abs.transfer b write).block, (s.abs.transfer b write).buffer) := by
  cases write with
  | true => exact ⟨rfl, rfl, rfl, rfl, rfl, rfl, rfl, rfl, rfl, fun _ => rfl, fun _ => rfl,
    Prod.ext (sectors_putSectors s.store _ _) rfl⟩
  | false =>
    have bufAt :
        (completed s b false h).buf b =
        { s.buf b with data := State.sectors s.store (2 * (s.buf b).blockno.toNat) } :=
      Function.update_self ..
    have bufOf : ∀ c ≠ b, (completed s b false h).buf c = s.buf c :=
      fun c ne => Function.update_of_ne ne ..
    refine ⟨rfl, rfl, rfl, rfl, rfl, rfl, rfl, rfl, rfl, field_update Buffer.disk rfl,
      field_update Buffer.blockno rfl, Prod.ext rfl (funext fun c => ?_)⟩
    show (((completed s b false h).buf c).blockno, ((completed s b false h).buf c).data) =
      Function.update s.abs.buffer b _ c
    by_cases eq : c = b
    · rw [eq, bufAt, Function.update_self]
      rfl
    · rw [bufOf c eq, Function.update_of_ne eq]
      rfl

/-- **The device serves a request.** -/
theorem Inv.complete (inv : Inv s) (member : h ∈ s.inflight)
    (waiting : s.phase p = .waiting b write h i1 i2) :
    Inv (completed s b write h) ∧ s.abs.step (.serve p) = some (completed s b write h).abs := by
  obtain ⟨desc, free, ops, phase, asleep, fault, inflight, sent, isInfo, disk, blockno,
    transferred⟩ := completed_same s b write h
  set u := completed s b write h with isU
  have infoAt : u.info h = { s.info h with status := 0 } := by
    rw [isInfo]; exact Function.update_self ..
  have infoOf : ∀ i ≠ h, u.info i = s.info i := fun i ne => by
    rw [isInfo]; exact Function.update_of_ne ne ..
  -- The used ring has room, as the chains in it and this one are on their way.
  obtain ⟨n, queue⟩ := inv.used
  have inTodo : h ∈ s.todo := List.mem_append_right _ member
  have fresh : h ∉ s.served :=
    fun twice => (List.nodup_append.mp inv.nodup).2.2 h inTodo h twice rfl
  have room : s.served.length < num :=
    length_lt_num (List.nodup_append.mp inv.nodup).2.1
      (fun i served => (inv.lt_of_mem (List.mem_append_right _ served)).1)
      (inv.lt_of_mem (List.mem_append_left _ inTodo)).1 fresh
  have pushed : Queue num u.usedRing u.usedSeen u.usedIdx n (s.served ++ [h]) := by
    have push := queue.push divides_num room h
    rw [isU]
    cases write <;> exact push
  have served : u.served = s.served ++ [h] := pushed.between_eq divides_num num_small
  have todo : s.todo.Perm (h :: u.todo) := by
    show (s.sent ++ s.inflight).Perm (h :: (u.sent ++ u.inflight))
    rw [sent, inflight]
    exact ((List.perm_cons_erase member).append_left _).trans List.perm_middle
  have live : u.live.Perm s.live := by
    show (u.todo ++ u.served).Perm (s.todo ++ s.served)
    rw [served, ← List.append_assoc]
    exact List.perm_append_comm.trans (todo.symm.append_right _)
  have gone : h ∉ u.todo :=
    (List.nodup_cons.mp (todo.nodup_iff.mp (List.nodup_append.mp inv.nodup).1)).1
  have want : u.want = s.want := funext fun q => want_congr (congrFun phase q) fun c _ => disk c
  refine ⟨⟨?_, ?_, ⟨n, served.symm ▸ pushed⟩, live.nodup_iff.mpr inv.nodup, fun i => ?_,
    fun i isServed => ?_, fault.trans inv.fault, ?_, ?_⟩, ?_⟩
  · refine inv.callers.congr phase free (fun i _ => congrFun desc i) (fun i => ?_) ops
      fun _ c _ => blockno c
    rw [isInfo]
    exact field_update Info.b (by rfl) i
  · rw [sent, isU]
    cases write <;> exact inv.avail
  · rw [want]
    exact live.mem_iff.trans (inv.asked i)
  · by_cases eq : i = h
    · rw [eq, infoAt]
    · rw [infoOf i eq]
      rw [served, List.mem_append, List.mem_singleton] at isServed
      exact inv.status i (isServed.resolve_right eq)
  · rw [asleep]
    refine inv.awake.mono fun channel waits => ?_
    cases channel with
    | free =>
      show Short u.free
      rw [free]
      exact waits
    | buf c => exact (disk c).trans waits
  · rw [asleep, phase]
    exact inv.channel
  · show (match s.abs.pending p with | some (b, write, false) => _ | _ => none) = _
    rw [abs_pending, waiting, Phase.pending, decide_eq_false (not_not.mpr inTodo)]
    obtain ⟨blocks, buffers⟩ := Prod.mk.inj transferred
    have same : (s.abs.transfer b write).pending = s.abs.pending := by cases write <;> rfl
    refine congrArg some (Spec.ext blocks.symm buffers.symm ?_)
    show Function.update (s.abs.transfer b write).pending p _ = _
    rw [same]
    refine (pending_move ?_ fun q ne => ?_).symm
    · rw [phase, waiting, Phase.pending, decide_eq_true gone]
    · rw [phase]
      refine pending_congr fun i isSlot => ?_
      rw [todo.mem_iff, List.mem_cons, or_iff_right]
      rintro rfl
      exact ne (inv.callers.apart q p i isSlot (by rw [waiting]; simp [Phase.slots]))

/-- **One round of `virtio_disk_intr`**: the status is fine and the buffer is known. -/
theorem Inv.intr (inv : Inv s) (some_ : s.usedSeen ≠ s.usedIdx) :
    ∃ t, s.intr = .ok t ∧ Inv t ∧ t.abs = s.abs := by
  obtain ⟨n, queue⟩ := inv.used
  cases isServed : s.served with
  | nil => exact absurd ((queue.eq_iff_nil num_small).mpr isServed) some_
  | cons h rest =>
    rw [isServed] at queue
    obtain ⟨isHead, popped⟩ := queue.pop divides_num
    have served : h ∈ s.served := by simp [isServed]
    obtain ⟨p, b, write, i1, i2, waiting, owns⟩ := inv.asker (List.mem_append_right _ served)
    have holds := inv.callers.holds p
    rw [waiting] at holds
    let u : State Proc Buf := { s with
      buf := Function.update s.buf b { s.buf b with disk := false }
      asleep := Sleepers.wakeup s.asleep (.buf b)
      usedSeen := s.usedSeen + 1 }
    have returns : s.intr = .ok u := by
      unfold State.intr
      dsimp only
      rw [isHead, if_neg (not_not.mpr (inv.status h served)), holds.2.1]
    have isRest : u.served = rest := popped.between_eq divides_num num_small
    have bufAt : u.buf b = { s.buf b with disk := false } := Function.update_self ..
    have bufOf : ∀ c ≠ b, u.buf c = s.buf c := fun c ne => Function.update_of_ne ne ..
    have blockno : ∀ c, (u.buf c).blockno = (s.buf c).blockno := field_update Buffer.blockno rfl
    have live : s.live.Perm (h :: u.live) := by
      show (s.todo ++ s.served).Perm (h :: (s.todo ++ u.served))
      rw [isServed, isRest]
      exact List.perm_middle
    obtain ⟨gone, nodup⟩ := List.nodup_cons.mp (live.nodup_iff.mp inv.nodup)
    have wantAt : u.want p = none := by
      rw [want_waiting (show u.phase p = _ from waiting), bufAt]
      rfl
    have wantOf : ∀ q ≠ p, u.want q = s.want q := fun q ne => want_congr rfl fun c isTarget => by
      rw [bufOf c
        (by rintro rfl; exact ne (inv.callers.alone q p c isTarget (by rw [waiting]; rfl)))]
    refine ⟨u, returns,
      ⟨inv.callers.congr rfl rfl (fun _ _ => rfl) (fun _ => rfl) rfl fun _ c _ => blockno c,
        inv.avail,
      ⟨n + 1, isRest.symm ▸ popped⟩, nodup, fun h' => ?_, fun i isServed' => inv.status i ?_,
      inv.fault, ?_, fun q c asleepOn => ?_⟩, ?_⟩
    · have split := live.mem_iff.symm.trans (inv.asked h')
      rw [List.mem_cons] at split
      constructor
      · intro member
        obtain ⟨q, wants⟩ := split.mp (.inr member)
        refine ⟨q, (wantOf q ?_).trans wants⟩
        rintro rfl
        rw [want_waiting waiting, if_pos owns] at wants
        exact gone (Option.some.inj wants ▸ member)
      · rintro ⟨q, wants⟩
        have ne : q ≠ p := by
          rintro rfl
          cases wantAt.symm.trans wants
        rw [wantOf q ne] at wants
        refine (split.mpr ⟨q, wants⟩).resolve_left ?_
        rintro rfl
        obtain ⟨c, write', j1, j2, waiting', _⟩ := want_eq_some wants
        exact ne (inv.same_asker waiting waiting')
    · rw [isServed]
      exact List.mem_cons_of_mem _ (isRest ▸ isServed')
    · refine inv.awake.wakeup fun channel ne waits => ?_
      cases channel with
      | free => exact waits
      | buf c =>
        show (u.buf c).disk = true
        rw [bufOf c (by rintro rfl; exact ne rfl)]
        exact waits
    · exact inv.channel q c (Sleepers.wakeup_eq_some.mp asleepOn).1
    · exact Spec.ext rfl
        (funext fun c => Prod.ext (blockno c) (field_update Buffer.data (by rfl) c)) rfl

/-- The holder of a buffer uses it. -/
theorem Inv.fill (inv : Inv s) (unused : ∀ q, (s.phase q).target ≠ some b) (blockno : BitVec 32)
    (data : Data) :
    Inv { s with
      buf := Function.update s.buf b { s.buf b with blockno := blockno, data := data } } ∧
    s.abs.step (.fill b blockno data) = some { s with
      buf := Function.update s.buf b { s.buf b with blockno := blockno, data := data } }.abs := by
  set u : State Proc Buf :=
      { s with buf := Function.update s.buf b { s.buf b with blockno := blockno, data := data } }
  have bufAt : u.buf b = { s.buf b with blockno := blockno, data := data } :=
    Function.update_self ..
  have bufOf : ∀ c ≠ b, u.buf c = s.buf c := fun c ne => Function.update_of_ne ne ..
  have disk : ∀ c, (u.buf c).disk = (s.buf c).disk := field_update Buffer.disk rfl
  have want : u.want = s.want := funext fun q => want_congr rfl fun c _ => disk c
  refine ⟨⟨inv.callers.congr rfl rfl (fun _ _ => rfl) (fun _ => rfl) rfl fun q c isTarget => ?_,
    inv.avail, inv.used, inv.nodup,
    want.symm ▸ inv.asked, inv.status, inv.fault, inv.awake.mono fun channel waits => ?_,
    inv.channel⟩, congrArg some (Spec.ext rfl (funext fun c => ?_) rfl)⟩
  · rw [bufOf c (by rintro rfl; exact unused q isTarget)]
  · cases channel with
    | free => exact waits
    | buf c => exact (disk c).trans waits
  · show Function.update s.abs.buffer b (blockno, data) c = ((u.buf c).blockno, (u.buf c).data)
    by_cases eq : c = b
    · rw [eq, bufAt, Function.update_self]
    · rw [bufOf c eq, Function.update_of_ne eq]
      rfl

/-! ### Whole runs -/

/-- **Every event keeps the invariant and is explained by the abstract disk.** -/
theorem Inv.step (inv : Inv s) {e : Event Proc Buf} (guard : Guard s e)
    (taken : step s e = some t) :
    Inv t ∧ Explains Spec.step Action.visible s.abs (label s e) t.abs := by
  unfold Virtio.step at taken
  rw [if_neg (by rw [inv.fault]; nofun)] at taken
  cases e with
  | rw p b write =>
    dsimp only at taken
    split at taken
    next outside =>
      obtain ⟨inv', submitted⟩ := inv.rw outside guard.1 guard.2 write
      obtain rfl := Option.some.inj taken
      exact ⟨inv', .shown submitted rfl⟩
    · cases taken
  | attempt p =>
    dsimp only at taken
    split at taken
    next b write sector runs allocating =>
      obtain ⟨u, returns, inv', same⟩ := inv.attempt runs allocating
      rw [returns] at taken
      obtain rfl := Option.some.inj taken
      exact ⟨inv', same ▸ .refl _⟩
    · cases taken
  | resume p =>
    dsimp only at taken
    split at taken
    next b write i0 i1 i2 runs waiting =>
      obtain ⟨u, returns, inv', outcome⟩ := inv.resume runs waiting
      rw [returns] at taken
      obtain rfl := Option.some.inj taken
      have isLabel : label s (.resume p) = if (s.buf b).disk then [] else [.finish p] := by
        rw [label, waiting]
      refine ⟨inv', ?_⟩
      rw [isLabel]
      obtain ⟨owns, same⟩ | ⟨done, finished⟩ := outcome
      · rw [if_pos owns]
        exact same ▸ .refl _
      · rw [done, if_neg nofun]
        exact .shown finished rfl
    · cases taken
  | fetch =>
    dsimp only at taken
    split at taken
    · cases taken
    next some_ =>
      obtain ⟨inv', same⟩ := inv.fetch some_
      obtain rfl := Option.some.inj taken
      exact ⟨inv', same ▸ .refl _⟩
  | complete h =>
    have member : h ∈ s.inflight := by
      dsimp only at taken
      unfold State.complete at taken
      dsimp only at taken
      split at taken
      next accepted => exact accepted.1
      · cases taken
    obtain ⟨p, b, write, i1, i2, waiting, _⟩ :=
      inv.asker (List.mem_append_left _ (List.mem_append_right _ member))
    obtain ⟨inv', served⟩ := inv.complete member waiting
    obtain rfl := Option.some.inj ((inv.complete_eq member waiting).symm.trans taken)
    exact ⟨inv', .hidden served rfl⟩
  | intr =>
    dsimp only at taken
    split at taken
    · cases taken
    next some_ =>
      obtain ⟨u, returns, inv', same⟩ := inv.intr some_
      rw [returns] at taken
      obtain rfl := Option.some.inj taken
      exact ⟨inv', same ▸ .refl _⟩
  | kill p =>
    obtain rfl := Option.some.inj taken
    refine ⟨⟨inv.callers.congr rfl rfl (fun _ _ => rfl) (fun _ => rfl) rfl fun _ _ _ => rfl,
      inv.avail, inv.used, inv.nodup, inv.asked,
      inv.status, inv.fault, ?_, fun q c asleepOn => ?_⟩, .refl _⟩
    · exact inv.awake.rouse.mono fun channel waits => by cases channel <;> exact waits
    · have other : q ≠ p := by
        rintro rfl
        exact absurd ((Function.update_self ..).symm.trans asleepOn) nofun
      exact inv.channel q c ((Function.update_of_ne other ..).symm.trans asleepOn)
  | fill b blockno data =>
    obtain ⟨inv', filled⟩ := inv.fill guard blockno data
    obtain rfl := Option.some.inj taken
    exact ⟨inv', .shown filled rfl⟩

variable {store : Bytes.Mem} {buf : Buf → BitVec 32 × Data} {events : List (Event Proc Buf)}

/-- The events that go on with the calls that have begun. -/
def Event.internal : Event Proc Buf → Bool
  | .attempt _ | .resume _ | .fetch | .complete _ | .intr => true
  | _ => false

/-- A chain on its way can always be moved on. -/
theorem Inv.moves (inv : Inv s) (member : h ∈ s.live) :
    ∃ e t, Event.internal e = true ∧ Virtio.step s e = some t := by
  have sound : ¬ s.fault.isSome = true := by rw [inv.fault]; nofun
  obtain inTodo | inServed := List.mem_append.mp member
  · obtain inSent | inflight := List.mem_append.mp inTodo
    · obtain ⟨n, queue⟩ := inv.avail
      have some_ : s.lastAvail ≠ s.availIdx := fun same => by
        rw [(queue.eq_iff_nil num_small).mp same] at inSent
        cases inSent
      exact ⟨.fetch, s.fetch, rfl, by rw [Virtio.step, if_neg sound]; exact if_neg some_⟩
    · obtain ⟨p, b, write, i1, i2, waiting, _⟩ := inv.asker member
      exact ⟨.complete h, _,
        rfl, by rw [Virtio.step, if_neg sound]; exact inv.complete_eq inflight waiting⟩
  · obtain ⟨n, queue⟩ := inv.used
    have some_ : s.usedSeen ≠ s.usedIdx := fun same => by
      rw [(queue.eq_iff_nil num_small).mp same] at inServed
      cases inServed
    exact ⟨.intr, _, rfl, by rw [Virtio.step, if_neg sound]; exact if_neg some_⟩

end Virtio

end Xv6Slab
