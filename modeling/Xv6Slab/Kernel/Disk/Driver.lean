/-
**The virtio disk driver and its device.**

The driver and the device share a table of descriptors and two rings. `virtio_disk_rw` links three
descriptors and puts the first one into the avail ring; the device takes requests out of that ring,
serves them in any order and puts them into the used ring; `virtio_disk_intr` empties the used ring.
A critical section of the driver is one step, and so is an action of the device.

* `allocDesc`, `freeDesc`, `freeChain`, `alloc3Desc` — the table of descriptors, with the panics.
* `attempt`, `resume` — the two loops of `virtio_disk_rw`; `intr` — one round of the loop of
  `virtio_disk_intr`.
* `fetch`, `complete` — the device, which follows a chain as its flags say and reports success.
* `alloc3Desc_spec`, `freeChain_spec` — what the table functions do.
-/

import Xv6Slab.Base
import Xv6Slab.Lib.Bytes
import Xv6Slab.Lib.Fifo
import Xv6Slab.Lib.Machine
import Xv6Slab.Lib.Sleepers

set_option linter.unusedSectionVars false

namespace Xv6Slab

namespace Virtio

open Fifo Bytes

/-! ### What driver and device share -/

/-- `NUM`. -/
abbrev num : Nat := 8

/-- `BSIZE`. -/
abbrev bsize : Nat := 1024

/-- `VRING_DESC_F_NEXT`. -/
abbrev descFNext : Nat := 1

/-- `VRING_DESC_F_WRITE`. -/
abbrev descFWrite : Nat := 2

/-- `VIRTIO_BLK_T_IN`. -/
abbrev blkTIn : Nat := 0

/-- `VIRTIO_BLK_T_OUT`. -/
abbrev blkTOut : Nat := 1

/-- The contents of a block. -/
abbrev Data := Fin bsize → UInt8

/-- Where a descriptor points: `&disk->ops[i]`, `b->data` or `&disk->info[i].status`. -/
inductive Addr (Buf : Type)
  | null
  | op (i : Nat)
  | data (b : Buf)
  | status (i : Nat)

/-- `struct virtq_desc`. -/
structure Desc (Buf : Type) where
  addr : Addr Buf
  len : Nat
  flags : Nat
  next : Nat

/-- `struct virtio_blk_req`. -/
structure Req where
  type : Nat
  reserved : Nat
  sector : Nat

/-- An entry of `disk->info`. -/
structure Info (Buf : Type) where
  b : Option Buf
  status : UInt8

/-- The fields of `struct buf` that the driver uses. -/
structure Buffer where
  blockno : BitVec 32
  data : Data
  disk : Bool

/-- The wait channels `&disk->free[0]` and `b`. -/
inductive Channel (Buf : Type)
  | free
  | buf (b : Buf)
  deriving DecidableEq

/-- Where a process is in `virtio_disk_rw`, with its local variables. -/
inductive Phase (Buf : Type)
  | outside
  | allocating (b : Buf) (write : Bool) (sector : Nat)
  | waiting (b : Buf) (write : Bool) (i0 i1 i2 : Nat)

/-- `struct disk`, the buffers, the device and the processes. `lastAvail` is how far the device has
read the avail ring, and `inflight` what it is working on. -/
structure State (Proc Buf : Type) where
  desc : Nat → Desc Buf
  availRing : Nat → Nat
  availIdx : BitVec 16
  usedRing : Nat → Nat
  usedIdx : BitVec 16
  free : Nat → Bool
  usedSeen : BitVec 16
  info : Nat → Info Buf
  ops : Nat → Req
  buf : Buf → Buffer
  lastAvail : BitVec 16
  inflight : List Nat
  store : Mem
  phase : Proc → Phase Buf
  asleep : Proc → Option (Channel Buf)
  fault : Option Fault

variable {Proc Buf : Type} [DecidableEq Proc] [DecidableEq Buf]

namespace State

variable (s : State Proc Buf)

/-! ### Descriptors -/

/-- `disk->free[i] = 0`. -/
def take (i : Nat) : State Proc Buf := { s with free := Function.update s.free i false }

/-- `alloc_desc`. -/
def allocDesc : Option (State Proc Buf × Nat) :=
  ((List.range num).find? s.free).map fun i => (s.take i, i)

/-- The end of `free_desc`. -/
def clear (i : Nat) : State Proc Buf :=
  { s with
    desc := Function.update s.desc i ⟨.null, 0, 0, 0⟩
    free := Function.update s.free i true
    asleep := Sleepers.wakeup s.asleep .free }

/-- `free_desc`. -/
def freeDesc (i : Nat) : Except Fault (State Proc Buf) :=
  if num ≤ i then .error (.panic "free_desc 1")
  else if s.free i then .error (.panic "free_desc 2")
  else .ok (s.clear i)

/-- `free_chain`, whose `while(1)` takes at most `fuel` rounds. -/
def freeChain (s : State Proc Buf) (i : Nat) : Nat → Except Fault (State Proc Buf)
  | 0 => .error .hang
  | fuel + 1 =>
    let flag := (s.desc i).flags
    let nxt := (s.desc i).next
    match s.freeDesc i with
    | .error fault => .error fault
    | .ok s => if flag &&& descFNext ≠ 0 then freeChain s nxt fuel else .ok s

/-- `alloc3_desc`. -/
def alloc3Desc : Except Fault (State Proc Buf × Option (Nat × Nat × Nat)) :=
  match s.allocDesc with
  | none => .ok (s, none)
  | some (s, i0) =>
    match s.allocDesc with
    | none => (s.freeDesc i0).map fun s => (s, none)
    | some (s, i1) =>
      match s.allocDesc with
      | none => ((s.freeDesc i0).bind fun s => s.freeDesc i1).map fun s => (s, none)
      | some (s, i2) => .ok (s, some (i0, i1, i2))

/-! ### Driver -/

def setPhase (p : Proc) (phase : Phase Buf) : State Proc Buf :=
  { s with phase := Function.update s.phase p phase }

def sleep (p : Proc) (c : Channel Buf) : State Proc Buf :=
  { s with asleep := Sleepers.sleep s.asleep p c }

/-- The middle of `virtio_disk_rw`: format the three descriptors and tell the device. -/
def publish (b : Buf) (write : Bool) (sector i0 i1 i2 : Nat) : State Proc Buf :=
  { s with
    ops := Function.update s.ops i0 ⟨if write then blkTOut else blkTIn, 0, sector⟩
    desc := Function.update (Function.update (Function.update s.desc i0 ⟨.op i0, 16, descFNext, i1⟩)
      i1 ⟨.data b, bsize, (if write then 0 else descFWrite) ||| descFNext, i2⟩) i2 ⟨.status i0, 1,
      descFWrite, 0⟩
    info := Function.update s.info i0 ⟨some b, 0xff⟩
    buf := Function.update s.buf b { s.buf b with disk := true }
    availRing := Function.update s.availRing (s.availIdx.toNat % num) i0
    availIdx := s.availIdx + 1 }

/-- One round of the first loop of `virtio_disk_rw`, and what follows when it ends, up to the next
`sleep`. -/
def attempt (p : Proc) (b : Buf) (write : Bool) (sector : Nat) : Except Fault (State Proc Buf) :=
  s.alloc3Desc.map fun result =>
    match result.2 with
    | none => result.1.sleep p .free
    | some (i0, i1, i2) =>
      ((result.1.publish b write sector i0 i1 i2).setPhase p (.waiting b write i0 i1 i2)).sleep p
      (.buf b)

/-- The second loop of `virtio_disk_rw` after a `sleep`, and what follows when it ends. -/
def resume (p : Proc) (b : Buf) (i0 : Nat) : Except Fault (State Proc Buf) :=
  if (s.buf b).disk then .ok (s.sleep p (.buf b))
  else
    let s := { s with info := Function.update s.info i0 { s.info i0 with b := none } }
    (s.freeChain i0 (num + 1)).map fun s => s.setPhase p .outside

/-- One round of the loop of `virtio_disk_intr`. -/
def intr : Except Fault (State Proc Buf) :=
  let id := s.usedRing (s.usedSeen.toNat % num)
  if (s.info id).status ≠ 0 then .error (.panic "virtio_disk_intr status")
  else
    match (s.info id).b with
    | none => .error (.panic "kerneltrap")
    | some b =>
      .ok { s with
        buf := Function.update s.buf b { s.buf b with disk := false }
        asleep := Sleepers.wakeup s.asleep (.buf b)
        usedSeen := s.usedSeen + 1 }

/-! ### Device -/

/-- The device takes the next chain from the avail ring. -/
def fetch : State Proc Buf :=
  { s with
    inflight := s.inflight ++ [s.availRing (s.lastAvail.toNat % num)]
    lastAvail := s.lastAvail + 1 }

/-- The two sectors of a request. -/
def sectors (store : Mem) (sector : Nat) : Data := fun j => store (512 * sector + j)

def putSectors (store : Mem) (sector : Nat) (data : Data) : Mem := fun a =>
  if inside :
      512 * sector ≤ a ∧
      a < 512 * sector + bsize then data ⟨a - 512 * sector, by omega⟩ else store a

/-- The end of a request: the status is written, and then the used ring. -/
def finish (h j : Nat) : State Proc Buf :=
  { s with
    info := Function.update s.info j { s.info j with status := 0 }
    usedRing := Function.update s.usedRing (s.usedIdx.toNat % num) h
    usedIdx := s.usedIdx + 1
    inflight := s.inflight.erase h }

/-- The device serves the chain that starts at `h`. It only accepts a header, a block and a status
byte, linked by their flags, and only writes where a flag allows it. -/
def complete (h : Nat) : Option (State Proc Buf) :=
  let d0 := s.desc h
  let d1 := s.desc d0.next
  let d2 := s.desc d1.next
  if h ∈ s.inflight ∧ d0.flags &&& descFNext ≠ 0 ∧ d0.len = 16 ∧ d1.flags &&& descFNext ≠ 0 ∧
      d1.len = bsize ∧ d2.flags &&& descFWrite ≠ 0 ∧ d2.len = 1 then
    match d0.addr, d1.addr, d2.addr with
    | .op i, .data b, .status j =>
      if (s.ops i).type = blkTOut then
        some ({ s with store := putSectors s.store (s.ops i).sector (s.buf b).data }.finish h j)
      else if (s.ops i).type = blkTIn ∧ d1.flags &&& descFWrite ≠ 0 then
        some ({ s with
          buf := Function.update s.buf b
            { s.buf b with data := sectors s.store (s.ops i).sector } }.finish h j)
      else none
    | _, _, _ => none
  else none

end State

/-! ### Runs -/

/-- A call of `virtio_disk_rw`, its rounds, the device, an interrupt, a `kill`, and the holder of a
buffer that uses it. -/
inductive Event (Proc Buf : Type)
  | rw (p : Proc) (b : Buf) (write : Bool)
  | attempt (p : Proc)
  | resume (p : Proc)
  | fetch
  | complete (h : Nat)
  | intr
  | kill (p : Proc)
  | fill (b : Buf) (blockno : BitVec 32) (data : Data)

/-- The kernel stops at a fault. -/
def State.settle (s : State Proc Buf) : Except Fault (State Proc Buf) → State Proc Buf
  | .error fault => { s with fault := some fault }
  | .ok s' => s'

def step (s : State Proc Buf) (e : Event Proc Buf) : Option (State Proc Buf) :=
  if s.fault.isSome then none
  else
    match e with
    | .rw p b write =>
      match s.phase p with
      | .outside => some (s.setPhase p (.allocating b write ((s.buf b).blockno * 2).toNat))
      | _ => none
    | .attempt p =>
      match s.asleep p, s.phase p with
      | none, .allocating b write sector => some (s.settle (s.attempt p b write sector))
      | _, _ => none
    | .resume p =>
      match s.asleep p, s.phase p with
      | none, .waiting b _ i0 _ _ => some (s.settle (s.resume p b i0))
      | _, _ => none
    | .fetch => if s.lastAvail = s.availIdx then none else some s.fetch
    | .complete h => s.complete h
    | .intr => if s.usedSeen = s.usedIdx then none else some (s.settle s.intr)
    | .kill p => some { s with asleep := Sleepers.rouse s.asleep p }
    | .fill b blockno data =>
      some { s with
        buf := Function.update s.buf b { s.buf b with blockno := blockno, data := data } }

/-- After `virtio_disk_init`, with whatever is on the disk and in the buffers. -/
def booted (store : Mem) (buf : Buf → BitVec 32 × Data) : State Proc Buf where
  desc := fun _ => ⟨.null, 0, 0, 0⟩
  availRing := fun _ => 0
  availIdx := 0
  usedRing := fun _ => 0
  usedIdx := 0
  free := fun i => decide (i < num)
  usedSeen := 0
  info := fun _ => ⟨none, 0⟩
  ops := fun _ => ⟨0, 0, 0⟩
  buf := fun b => ⟨(buf b).1, (buf b).2, false⟩
  lastAvail := 0
  inflight := []
  store := store
  phase := fun _ => .outside
  asleep := fun _ => none
  fault := none

/-! ### The table of descriptors -/

variable {s s' t : State Proc Buf} {p q : Proc} {b c : Buf} {write : Bool} {i i0 i1 i2 : Nat}

@[simp] theorem free_take_self (s : State Proc Buf) (i : Nat) : (s.take i).free i = false :=
  Function.update_self ..

theorem free_take_of_ne (s : State Proc Buf) {i j : Nat} (ne : j ≠ i) :
    (s.take i).free j = s.free j := Function.update_of_ne ne ..

theorem free_clear_of_ne (s : State Proc Buf) {i j : Nat} (ne : j ≠ i) :
    (s.clear i).free j = s.free j := Function.update_of_ne ne ..

theorem desc_clear_of_ne (s : State Proc Buf) {i j : Nat} (ne : j ≠ i) :
    (s.clear i).desc j = s.desc j := Function.update_of_ne ne ..

theorem allocDesc_cases (s : State Proc Buf) : (s.allocDesc = none ∧ ∀ i < num, s.free i = false) ∨
    ∃ i < num, s.free i = true ∧ s.allocDesc = some (s.take i, i) := by
  unfold State.allocDesc
  cases found : (List.range num).find? s.free with
  | none =>
    refine .inl ⟨rfl, fun i lt => ?_⟩
    have busy := List.find?_eq_none.mp found i (List.mem_range.mpr lt)
    exact Bool.not_eq_true _ ▸ busy
  | some i => exact .inr ⟨i, List.mem_range.mp (List.mem_of_find?_eq_some found),
    List.find?_some found, rfl⟩

/-- A descriptor in use can be freed. -/
theorem freeDesc_eq (lt : i < num) (busy : s.free i = false) : s.freeDesc i = .ok (s.clear i) := by
  unfold State.freeDesc
  rw [if_neg (Nat.not_le.mpr lt), if_neg (by rw [busy]; nofun)]

/-- No three descriptors are free. -/
def Short (free : Nat → Bool) : Prop :=
  ∀ i j k, i < num → j < num → k < num → free i = true → free j = true → free k = true →
    i = j ∨ i = k ∨ j = k

/-- `alloc3_desc` has found three descriptors. -/
structure Found (free : Nat → Bool) (i0 i1 i2 : Nat) : Prop where
  lt : i0 < num ∧ i1 < num ∧ i2 < num
  distinct : i0 ≠ i1 ∧ i0 ≠ i2 ∧ i1 ≠ i2
  isFree : free i0 = true ∧ free i1 = true ∧ free i2 = true

/-- `alloc3_desc` has put back what it took. Only free descriptors have changed, and everyone who
waits for one has been woken up or none. -/
structure PutBack (s t : State Proc Buf) : Prop where
  same : ∃ desc asleep, t = { s with desc := desc, asleep := asleep }
  desc : ∀ i, s.free i = false → t.desc i = s.desc i
  asleep : t.asleep = s.asleep ∨ t.asleep = Sleepers.wakeup s.asleep .free

theorem wakeup_wakeup (asleep : Proc → Option (Channel Buf)) (c : Channel Buf) :
    Sleepers.wakeup (Sleepers.wakeup asleep c) c = Sleepers.wakeup asleep c := by
  funext p
  unfold Sleepers.wakeup
  by_cases here : asleep p = some c
  · rw [if_pos here, if_neg nofun]
  · rw [if_neg here, if_neg here]

/-- What is free after taking a descriptor was free before, and is another one. -/
theorem free_of_take {j : Nat} (isFree : (s.take i).free j = true) : j ≠ i ∧ s.free j = true := by
  by_cases eq : j = i
  · rw [eq, free_take_self] at isFree
    cases isFree
  · exact ⟨eq, (free_take_of_ne s eq).symm.trans isFree⟩

theorem ne_of_busy {j : Nat} (isFree : s.free i = true) (busy : s.free j = false) : j ≠ i := by
  rintro rfl
  rw [isFree] at busy
  cases busy

/-- **`alloc3_desc` takes three free descriptors or none.** -/
theorem alloc3Desc_spec (s : State Proc Buf) :
    (∃ t, s.alloc3Desc = .ok (t, none) ∧ PutBack s t ∧ Short s.free) ∨
    ∃ i0 i1 i2, Found s.free i0 i1 i2 ∧ s.alloc3Desc = .ok (((s.take i0).take i1).take i2,
      some (i0, i1, i2)) := by
  unfold State.alloc3Desc
  obtain ⟨none0, busy⟩ | ⟨i0, lt0, free0, found0⟩ := allocDesc_cases s
  · refine .inl ⟨s, by rw [none0], ⟨⟨s.desc, s.asleep, rfl⟩, fun _ _ => rfl, .inl rfl⟩,
      fun i j k lt _ _ isFree => ?_⟩
    rw [busy i lt] at isFree
    cases isFree
  rw [found0]
  dsimp only
  obtain ⟨none1, busy⟩ | ⟨i1, lt1, free1', found1⟩ := allocDesc_cases (s.take i0)
  · rw [none1, freeDesc_eq lt0 (free_take_self s i0)]
    have restored : Function.update (s.take i0).free i0 true = s.free := by
      rw [State.take, Function.update_idem, ← free0, Function.update_eq_self]
    have only : ∀ i < num, s.free i = true → i = i0 := by
      intro i lt isFree
      by_contra other
      rw [← free_take_of_ne s other, busy i lt] at isFree
      cases isFree
    refine .inl ⟨_, rfl, ⟨⟨_, _, by rw [State.clear, restored]; rfl⟩, fun i isBusy => ?_, .inr rfl⟩,
      ?_⟩
    · exact desc_clear_of_ne _ (ne_of_busy free0 isBusy)
    · intro i j k lti ltj _ freei freej _
      exact .inl ((only i lti freei).trans (only j ltj freej).symm)
  obtain ⟨ne1, free1⟩ := free_of_take free1'
  rw [found1]
  dsimp only
  obtain ⟨none2, busy⟩ | ⟨i2, lt2, free2', found2⟩ := allocDesc_cases ((s.take i0).take i1)
  · rw [none2, freeDesc_eq lt0 (by rw [free_take_of_ne _ ne1.symm, free_take_self])]
    dsimp only [Except.bind]
    rw [freeDesc_eq lt1 (by rw [free_clear_of_ne _ ne1, free_take_self])]
    have restored :
        Function.update (Function.update ((s.take i0).take i1).free i0 true) i1 true = s.free := by
      funext i
      by_cases eq1 : i = i1
      · rw [eq1, Function.update_self, free1]
      · rw [Function.update_of_ne eq1]
        by_cases eq0 : i = i0
        · rw [eq0, Function.update_self, free0]
        · rw [Function.update_of_ne eq0, free_take_of_ne _ eq1, free_take_of_ne _ eq0]
    have only : ∀ i < num, s.free i = true → i = i0 ∨ i = i1 := by
      intro i lt isFree
      by_contra other
      obtain ⟨not0, not1⟩ := not_or.mp other
      rw [← free_take_of_ne s not0, ← free_take_of_ne _ not1, busy i lt] at isFree
      cases isFree
    refine .inl ⟨_, rfl, ⟨⟨_, _, by rw [State.clear, State.clear, restored]; rfl⟩,
      fun i isBusy => ?_, .inr (wakeup_wakeup _ _)⟩, ?_⟩
    · rw [desc_clear_of_ne _ (ne_of_busy free1 isBusy),
        desc_clear_of_ne _ (ne_of_busy free0 isBusy)]
      rfl
    · -- Three numbers that are each one of two are not all different.
      intro i j k lti ltj ltk freei freej freek
      rcases only i lti freei with rfl | rfl <;> rcases only j ltj freej with rfl | rfl <;>
        rcases only k ltk freek with rfl | rfl <;>
        simp
  obtain ⟨ne2, free2''⟩ := free_of_take free2'
  obtain ⟨ne2', free2⟩ := free_of_take free2''
  rw [found2]
  exact .inr ⟨i0, i1, i2, ⟨⟨lt0, lt1, lt2⟩, ⟨ne1.symm, ne2'.symm, ne2.symm⟩, ⟨free0, free1, free2⟩⟩,
    rfl⟩

/-- The descriptors of a request in the table. -/
structure Chain (s : State Proc Buf) (b : Buf) (write : Bool) (i0 i1 i2 : Nat) : Prop where
  lt : i0 < num ∧ i1 < num ∧ i2 < num
  distinct : i0 ≠ i1 ∧ i0 ≠ i2 ∧ i1 ≠ i2
  busy : s.free i0 = false ∧ s.free i1 = false ∧ s.free i2 = false
  head : s.desc i0 = ⟨.op i0, 16, descFNext, i1⟩
  middle : s.desc i1 = ⟨.data b, bsize, (if write then 0 else descFWrite) ||| descFNext, i2⟩
  last : s.desc i2 = ⟨.status i0, 1, descFWrite, 0⟩

theorem next_middle (write : Bool) :
    ((if write then 0 else descFWrite) ||| descFNext) &&& descFNext ≠ 0 := by
  cases write <;> decide

/-- **`free_chain` frees the three descriptors.** -/
theorem freeChain_spec (chain : Chain s b write i0 i1 i2) (fuel : Nat) :
    s.freeChain i0 (fuel + 3) = .ok (((s.clear i0).clear i1).clear i2) := by
  obtain ⟨lt0, lt1, lt2⟩ := chain.lt
  obtain ⟨ne01, ne02, ne12⟩ := chain.distinct
  obtain ⟨busy0, busy1, busy2⟩ := chain.busy
  unfold State.freeChain
  rw [chain.head, freeDesc_eq lt0 busy0]
  dsimp only
  rw [if_pos (by decide)]
  unfold State.freeChain
  rw [desc_clear_of_ne _ ne01.symm, chain.middle,
    freeDesc_eq lt1 (by rw [free_clear_of_ne _ ne01.symm, busy1])]
  dsimp only
  rw [if_pos (next_middle write)]
  unfold State.freeChain
  rw [desc_clear_of_ne _ ne12.symm, desc_clear_of_ne _ ne02.symm, chain.last,
    freeDesc_eq lt2 (by rw [free_clear_of_ne _ ne12.symm, free_clear_of_ne _ ne02.symm, busy2])]
  dsimp only
  exact if_neg (by decide)

end Virtio

end Xv6Slab
