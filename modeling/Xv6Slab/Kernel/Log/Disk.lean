/-
**The log on disk: commits and recoveries that crash.**

A disk maps block numbers to contents, and block writes are atomic and ordered. `commit` and
`recover_from_log` are the code's loops over buffers; a crash keeps a prefix of their disk writes.
The header block is decoded from its bytes, with whatever earlier transactions left behind in it.

* `commitWrites_eq`, `recoverWrites_eq` — the disk writes of both functions.
* `Armed` — the header names a transaction whose copies are in the log: any number of installing
  writes, and any crash among them, leave it so. The empty transaction is the cleared log.
* `homes_of_run` — **after any commits, crashes and recoveries, the home blocks hold exactly the
  transactions whose header reached the disk.**
-/

import Mathlib.Data.List.Range
import Xv6Slab.Base
import Xv6Slab.Lib.Bytes
import Xv6Slab.Lib.Machine
import Xv6Slab.Lib.Writes
import Xv6Slab.Kernel.Log.Model

namespace Xv6Slab

namespace Log

open Bytes Machine Writes

/-! ### The code -/

/-- `struct logheader`, in memory. -/
structure LogHeader where
  n : Int
  block : Nat → Nat

/-- The buffers as `bread` returns them, and the disk writes made so far. -/
structure Io where
  buf : Nat → Mem
  writes : List (Nat × Mem)

/-- `bwrite` of a buffer with new contents. -/
def Io.bwrite (io : Io) (blockno : Nat) (data : Mem) : Io :=
  ⟨Function.update io.buf blockno data, io.writes ++ [(blockno, data)]⟩

/-- The first rounds of the loop of `write_log`. -/
def writeLogLoop (start : Nat) (lh : LogHeader) : Nat → Io → Io
  | 0, io => io
  | tail + 1, io =>
    let io := writeLogLoop start lh tail io
    io.bwrite (start + tail + 1) (io.buf (lh.block tail))

/-- `write_log`. -/
def writeLog (start : Nat) (lh : LogHeader) (io : Io) : Io := writeLogLoop start lh lh.n.toNat io

/-- The first rounds of the loop of `install_trans`. -/
def installLoop (start : Nat) (lh : LogHeader) : Nat → Io → Io
  | 0, io => io
  | tail + 1, io =>
    let io := installLoop start lh tail io
    io.bwrite (lh.block tail) (io.buf (start + tail + 1))

/-- `install_trans`. -/
def installTrans (start : Nat) (lh : LogHeader) (io : Io) : Io := installLoop start lh lh.n.toNat io

/-- The first rounds of the loop of `write_head`. -/
def putEntries (lh : LogHeader) (data : Mem) : Nat → Mem
  | 0 => data
  | i + 1 => store (putEntries lh data i) (4 + 4 * i) 4 (lh.block i)

/-- `write_head`. -/
def writeHead (start : Nat) (lh : LogHeader) (io : Io) : Io :=
  io.bwrite start (putEntries lh (store (io.buf start) 0 4 (toUint64 lh.n)) lh.n.toNat)

/-- `read_head`, over the header that is in memory. -/
def readHead (start : Nat) (lh : LogHeader) (io : Io) : LogHeader :=
  let data := io.buf start
  let n := toInt32 (load data 0 4)
  ⟨n, fun i => if (i : Int) < n then load data (4 + 4 * i) 4 else lh.block i⟩

/-- `commit`. -/
def commit (start : Nat) (lh : LogHeader) (io : Io) : Io :=
  if 0 < lh.n then
    let io := writeLog start lh io
    let io := writeHead start lh io
    let io := installTrans start lh io
    writeHead start { lh with n := 0 } io
  else io

/-- `recover_from_log`. -/
def recoverFromLog (start : Nat) (lh : LogHeader) (io : Io) : Io :=
  let lh := readHead start lh io
  let io := installTrans start lh io
  writeHead start { lh with n := 0 } io

/-! ### Transactions and crashes -/

/-- The home blocks of a transaction with their contents at commit time, in the order of
`lh.block`. -/
abbrev Transaction := List (Nat × Mem)

/-- A block outside the log area. -/
def Home (start blockno : Nat) : Prop := blockno < start ∨ start + logblocks < blockno

instance (start blockno : Nat) : Decidable (Home start blockno) :=
  inferInstanceAs (Decidable (_ ∨ _))

/-- At most `LOGBLOCKS` distinct home blocks. Block numbers are `uint`. -/
def Valid (start : Nat) (t : Transaction) : Prop :=
  (t.map Prod.fst).Nodup ∧ t.length ≤ logblocks ∧ ∀ w ∈ t, Home start w.1 ∧ w.1 < 2 ^ 32

instance (start : Nat) (t : Transaction) : Decidable (Valid start t) :=
  inferInstanceAs (Decidable (_ ∧ _ ∧ _))

/-- The in-memory header of a transaction. -/
def headerOf (t : Transaction) : LogHeader := ⟨t.length, fun i => ((t.map Prod.fst)[i]?).getD 0⟩

/-- The disk writes of `commit`: the cached blocks of the transaction are new, all others are as on
disk. -/
def commitWrites (start : Nat) (disk : Nat → Mem) (t : Transaction) : List (Nat × Mem) :=
  (commit start (headerOf t) ⟨applyAll disk t, []⟩).writes

/-- The disk writes of `recover_from_log` after a reboot. -/
def recoverWrites (start : Nat) (lh : LogHeader) (disk : Nat → Mem) : List (Nat × Mem) :=
  (recoverFromLog start lh ⟨disk, []⟩).writes

/-- The disk, whether recovery has completed since the last crash, and the transactions whose header
reached the disk. -/
structure DiskState where
  disk : Nat → Mem
  up : Bool
  committed : List Transaction

/-- A commit or a recovery of which the first `done` disk writes are performed, or a crash between
two of them. -/
inductive DiskEvent
  | commit (t : Transaction) (done : Nat)
  | crash
  | recover (lh : LogHeader) (done : Nat)

/-- One event. The header block is written after one log block for each block of the transaction. -/
def diskStep (start : Nat) (s : DiskState) : DiskEvent → Option DiskState
  | .commit t done =>
    if s.up = true ∧ Valid start t then
      some {
        disk := applyAll s.disk ((commitWrites start s.disk t).take done)
        up := (commitWrites start s.disk t).length ≤ done
        committed := if 0 < t.length ∧ t.length < done then s.committed ++ [t] else s.committed }
    else none
  | .crash => some { s with up := false }
  | .recover lh done =>
    if s.up = true then none
    else some { s with
      disk := applyAll s.disk ((recoverWrites start lh s.disk).take done)
      up := (recoverWrites start lh s.disk).length ≤ done }

/-! ### The disk writes of the loops -/

/-- What a piece of code wrote. -/
structure Io.Wrote (io io' : Io) (made : List (Nat × Mem)) : Prop where
  writes : io'.writes = io.writes ++ made
  buf : io'.buf = applyAll io.buf made

section Loops

variable {io io' io'' : Io} {first second : List (Nat × Mem)} {start : Nat} {lh : LogHeader}

theorem Io.Wrote.refl (io : Io) : io.Wrote io [] := ⟨(List.append_nil _).symm, rfl⟩

theorem Io.Wrote.trans (one : io.Wrote io' first) (two : io'.Wrote io'' second) :
    io.Wrote io'' (first ++ second) where
  writes := by rw [two.writes, one.writes, List.append_assoc]
  buf := by rw [two.buf, one.buf, applyAll_append]

theorem Io.wrote_bwrite (io : Io) (blockno : Nat) (data : Mem) :
    io.Wrote (io.bwrite blockno data) [(blockno, data)] := ⟨rfl, rfl⟩

theorem writeLogLoop_wrote {count : Nat} (homes : ∀ i < count, Home start (lh.block i))
    (few : count ≤ logblocks) (io : Io) : io.Wrote (writeLogLoop start lh count io)
      ((List.range count).map fun i => (start + i + 1, io.buf (lh.block i))) := by
  induction count with
  | zero => exact Io.Wrote.refl io
  | succ tail ih =>
    have earlier := ih (fun i lt => homes i (by omega)) (by omega)
    -- the copies written so far are no home blocks
    have same : (writeLogLoop start lh tail io).buf (lh.block tail) = io.buf (lh.block tail) := by
      rw [earlier.buf]
      refine applyAll_of_forall_ne ?_
      intro w member
      obtain ⟨i, inRange, rfl⟩ := List.mem_map.mp member
      have lt := List.mem_range.mp inRange
      have home := homes tail (by omega)
      unfold Home at home
      omega
    rw [List.range_succ, List.map_append, List.map_singleton]
    refine earlier.trans ?_
    rw [← same]
    exact Io.wrote_bwrite _ _ _

theorem installLoop_wrote {count : Nat} (homes : ∀ i < count, Home start (lh.block i))
    (few : count ≤ logblocks) (io : Io) : io.Wrote (installLoop start lh count io)
      ((List.range count).map fun i => (lh.block i, io.buf (start + i + 1))) := by
  induction count with
  | zero => exact Io.Wrote.refl io
  | succ tail ih =>
    have earlier := ih (fun i lt => homes i (by omega)) (by omega)
    -- the home blocks written so far are no copies
    have same :
        (installLoop start lh tail io).buf (start + tail + 1) = io.buf (start + tail + 1) := by
      rw [earlier.buf]
      refine applyAll_of_forall_ne ?_
      intro w member
      obtain ⟨i, inRange, rfl⟩ := List.mem_map.mp member
      have lt := List.mem_range.mp inRange
      have home := homes i (by omega)
      unfold Home at home
      omega
    rw [List.range_succ, List.map_append, List.map_singleton]
    refine earlier.trans ?_
    rw [← same]
    exact Io.wrote_bwrite _ _ _

end Loops

/-! ### The header block -/

/-- A header block that names the blocks of a transaction. Entries beyond are left over. -/
def HeaderOf (data : Mem) (t : Transaction) : Prop :=
  load data 0 4 = t.length ∧ ∀ i (lt : i < t.length), load data (4 + 4 * i) 4 = (t.get ⟨i, lt⟩).1

theorem headerOf_empty {data : Mem} : HeaderOf data [] ↔ load data 0 4 = 0 :=
  ⟨fun header => header.1, fun cleared => ⟨cleared, fun i lt => absurd lt (Nat.not_lt_zero i)⟩⟩

theorem putEntries_count (lh : LogHeader) (data : Mem) :
    ∀ count, load (putEntries lh data count) 0 4 = load data 0 4
  | 0 => rfl
  | count + 1 => by
    rw [putEntries, load_store_apart (by omega)]
    exact putEntries_count lh data count

theorem putEntries_entry (lh : LogHeader) (data : Mem) {i : Nat} (small : lh.block i < 2 ^ 32) :
    ∀ count, i < count → load (putEntries lh data count) (4 + 4 * i) 4 = lh.block i
  | 0, lt => absurd lt (Nat.not_lt_zero i)
  | count + 1, lt => by
    rw [putEntries]
    by_cases last : i = count
    · rw [← last]
      exact load_store_same (by simpa using small)
    · rw [load_store_apart (by omega)]
      exact putEntries_entry lh data small count (by omega)

theorem headerOf_block {t : Transaction} {i : Nat} (lt : i < t.length) :
    (headerOf t).block i = (t.get ⟨i, lt⟩).1 := by
  simp [headerOf, lt]

section Headers

variable {start : Nat} {t : Transaction}

theorem Valid.home (valid : Valid start t) {i : Nat} (lt : i < t.length) :
    Home start ((headerOf t).block i) ∧ (headerOf t).block i < 2 ^ 32 := by
  rw [headerOf_block lt]
  exact valid.2.2 _ (List.get_mem t ⟨i, lt⟩)

/-- The first `write_head` of a commit. -/
theorem writeHead_header (valid : Valid start t) (data : Mem) :
    HeaderOf (putEntries (headerOf t) (store data 0 4 (toUint64 (headerOf t).n))
      (headerOf t).n.toNat) t := by
  have few := valid.2.1
  have count : toUint64 (headerOf t).n = t.length := by
    simp only [toUint64, headerOf, logblocks, maxopblocks] at *
    omega
  have rounds : (headerOf t).n.toNat = t.length := Int.toNat_natCast _
  rw [count, rounds]
  refine ⟨?_, ?_⟩
  · rw [putEntries_count]
    exact load_store_same (by simp only [logblocks, maxopblocks] at few; omega)
  · intro i lt
    rw [putEntries_entry _ _ (valid.home lt).2 _ lt, headerOf_block lt]

end Headers

/-! ### The disk writes of a commit and of a recovery -/

/-- The copies of a transaction in the log. -/
def copies (start : Nat) (t : Transaction) : List (Nat × Mem) :=
  t.mapIdx fun i w => (start + i + 1, w.2)

section Sequences

variable {start : Nat} {t : Transaction} {disk : Nat → Mem}

theorem length_copies : (copies start t).length = t.length := List.length_mapIdx

theorem mem_copies {w : Nat × Mem} (member : w ∈ copies start t) :
    start < w.1 ∧ w.1 ≤ start + t.length := by
  obtain ⟨i, lt, rfl⟩ := List.mem_mapIdx.mp member
  exact ⟨by simp only; omega, by simp only; omega⟩

theorem copies_nodup : ((copies start t).map Prod.fst).Nodup := by
  rw [List.nodup_iff_injective_getElem]
  intro i j same
  simp only [copies, List.getElem_map, List.getElem_mapIdx] at same
  exact Fin.ext (by omega)

theorem get_mem_copies {i : Nat} (lt : i < t.length) :
    (start + i + 1, (t.get ⟨i, lt⟩).2) ∈ copies start t :=
  List.mem_mapIdx.mpr ⟨i, lt, rfl⟩

/-- A list by its entries. -/
theorem map_range_eq {α : Type} {l : List α} {f : Nat → α}
    (same : ∀ i (lt : i < l.length), f i = l.get ⟨i, lt⟩) : (List.range l.length).map f = l := by
  refine List.ext_getElem (by simp) ?_
  intro i _ lt
  rw [List.getElem_map, List.getElem_range]
  exact same i lt

/-- `write_log` copies the cached blocks. -/
theorem writeLog_wrote (valid : Valid start t) (disk : Nat → Mem) :
    (⟨applyAll disk t, []⟩ : Io).Wrote (writeLog start (headerOf t) ⟨applyAll disk t, []⟩)
    (copies start t) := by
  have logged := writeLogLoop_wrote (fun i lt => (valid.home lt).1) valid.2.1 ⟨applyAll disk t, []⟩
  have entries : ((List.range t.length).map fun i =>
      (start + i + 1, (applyAll disk t) ((headerOf t).block i))) = copies start t := by
    have length : (copies start t).length = t.length := length_copies
    rw [← length]
    refine map_range_eq ?_
    intro i lt
    rw [length] at lt
    rw [headerOf_block lt, applyAll_of_mem valid.1 (List.get_mem t ⟨i, lt⟩)]
    simp [copies]
  rw [entries] at logged
  exact logged

/-- `install_trans` writes the home blocks, from a header and copies of the transaction. -/
theorem installTrans_wrote (valid : Valid start t) {lh : LogHeader} (io : Io)
    (count : lh.n = t.length) (entries : ∀ i (lt : i < t.length), lh.block i = (t.get ⟨i, lt⟩).1)
    (copied : ∀ i (lt : i < t.length), io.buf (start + i + 1) = (t.get ⟨i, lt⟩).2) :
    io.Wrote (installTrans start lh io) t := by
  have homes : ∀ i < t.length, Home start (lh.block i) := by
    intro i lt
    rw [entries i lt, ← headerOf_block lt]
    exact (valid.home lt).1
  have installed := installLoop_wrote homes valid.2.1 io
  have homeWrites :
      ((List.range t.length).map fun i => (lh.block i, io.buf (start + i + 1))) = t := by
    refine map_range_eq ?_
    intro i lt
    rw [entries i lt, copied i lt]
  have rounds : lh.n.toNat = t.length := by rw [count, Int.toNat_natCast]
  rw [homeWrites] at installed
  unfold installTrans
  rw [rounds]
  exact installed

/-- The `write_head` that clears the log. -/
theorem writeHead_wrote_cleared (start : Nat) (lh : LogHeader) (io : Io) :
    ∃ cleared, load cleared 0 4 = 0 ∧
    io.Wrote (writeHead start { lh with n := 0 } io) [(start, cleared)] := by
  refine ⟨_, ?_, Io.wrote_bwrite _ _ _⟩
  rw [putEntries_count, load_store_mod]
  norm_num [toUint64]

/-- **The disk writes of a commit**: the copies, the header, the home blocks, the cleared header. -/
theorem commitWrites_eq (valid : Valid start t) (nonempty : 0 < t.length) (disk : Nat → Mem) :
    ∃ armed cleared, HeaderOf armed t ∧ load cleared 0 4 = 0 ∧ commitWrites start disk t =
      copies start t ++ (start, armed) :: (t ++ [(start, cleared)]) := by
  have logged := writeLog_wrote valid disk
  unfold commitWrites commit
  rw [if_pos (show 0 < (headerOf t).n from Int.natCast_pos.mpr nonempty)]
  simp only
  generalize writeLog start (headerOf t) ⟨applyAll disk t, []⟩ = io₁ at logged ⊢
  have header := writeHead_header valid (io₁.buf start)
  have headed : io₁.Wrote (writeHead start (headerOf t) io₁) [(start, _)] := Io.wrote_bwrite _ _ _
  generalize writeHead start (headerOf t) io₁ = io₂ at headed ⊢
  have copied : ∀ i (lt : i < t.length), io₂.buf (start + i + 1) = (t.get ⟨i, lt⟩).2 := by
    intro i lt
    rw [headed.buf, logged.buf, applyAll_of_forall_ne]
    · exact applyAll_of_mem copies_nodup (get_mem_copies lt)
    · intro w member
      rw [List.mem_singleton.mp member]
      simp only
      omega
  have installed := installTrans_wrote valid io₂ (show (headerOf t).n = _ from rfl)
    (fun i lt => headerOf_block lt) copied
  obtain ⟨cleared, zero, ended⟩ := writeHead_wrote_cleared start (headerOf t)
    (installTrans start (headerOf t) io₂)
  refine ⟨_, cleared, header, zero, ?_⟩
  rw [(((logged.trans headed).trans installed).trans ended).writes]
  simp

/-- **The disk writes of a recovery**: the home blocks of the transaction in the log, the cleared
header. -/
theorem recoverWrites_eq (valid : Valid start t) (header : HeaderOf (disk start) t)
    (copied : ∀ i (lt : i < t.length), disk (start + i + 1) = (t.get ⟨i, lt⟩).2) (lh : LogHeader) :
    ∃ cleared, load cleared 0 4 = 0 ∧ recoverWrites start lh disk = t ++ [(start, cleared)] := by
  have few := valid.2.1
  have count : (readHead start lh ⟨disk, []⟩).n = t.length := by
    simp only [readHead]
    rw [header.1]
    exact toInt32_of_lt (by simp only [logblocks, maxopblocks] at few; omega)
  have entries : ∀ i (lt : i < t.length),
      (readHead start lh ⟨disk, []⟩).block i = (t.get ⟨i, lt⟩).1 := by
    intro i lt
    simp only [readHead] at count ⊢
    rw [count, if_pos (by omega)]
    exact header.2 i lt
  have installed := installTrans_wrote valid ⟨disk, []⟩ count entries copied
  obtain ⟨cleared, zero, ended⟩ := writeHead_wrote_cleared start (readHead start lh ⟨disk, []⟩)
    (installTrans start (readHead start lh ⟨disk, []⟩) ⟨disk, []⟩)
  refine ⟨cleared, zero, ?_⟩
  unfold recoverWrites recoverFromLog
  rw [(installed.trans ended).writes]
  rfl

end Sequences

/-! ### Crashes -/

/-- The log holds a transaction whose effect is part of the home state `home`: it may be installed
in part. When the transaction is empty, the disk holds the home state. -/
structure Armed (start : Nat) (disk home : Nat → Mem) (t : Transaction) : Prop where
  valid : Valid start t
  header : HeaderOf (disk start) t
  copied : ∀ i (lt : i < t.length), disk (start + i + 1) = (t.get ⟨i, lt⟩).2
  target : ∀ w ∈ t, home w.1 = w.2
  others : ∀ b, Home start b → (∀ w ∈ t, w.1 ≠ b) → disk b = home b

namespace Armed

variable {start : Nat} {disk home : Nat → Mem} {t : Transaction}

theorem ofCleared (cleared : load (disk start) 0 4 = 0)
    (same : ∀ b, Home start b → disk b = home b) : Armed start disk home [] where
  valid := ⟨List.nodup_nil, Nat.zero_le _, fun _ absurd => by cases absurd⟩
  header := headerOf_empty.mpr cleared
  copied := fun i lt => absurd lt (Nat.not_lt_zero i)
  target := fun _ absurd => by cases absurd
  others := fun b isHome _ => same b isHome

/-- Writes to blocks of the transaction change nothing. -/
theorem install (armed : Armed start disk home t) (k : Nat) :
    Armed start (applyAll disk (t.take k)) home t := by
  have outside : ∀ b, ¬ Home start b → applyAll disk (t.take k) b = disk b := by
    intro b notHome
    refine applyAll_of_forall_ne ?_
    intro w member same
    exact notHome (same ▸ (armed.valid.2.2 w (List.mem_of_mem_take member)).1)
  have few := armed.valid.2.1
  refine ⟨armed.valid, ?_, ?_, armed.target, ?_⟩
  · rw [outside start (by unfold Home; omega)]
    exact armed.header
  · intro i lt
    rw [outside _ (by unfold Home; omega)]
    exact armed.copied i lt
  · intro b isHome notIn
    rw [applyAll_of_forall_ne fun w member => notIn w (List.mem_of_mem_take member)]
    exact armed.others b isHome notIn

/-- All home blocks are written. -/
theorem installed (armed : Armed start disk home t) {b : Nat} (isHome : Home start b) :
    applyAll disk t b = home b := by
  by_cases inT : ∃ w ∈ t, w.1 = b
  · obtain ⟨w, member, rfl⟩ := inT
    rw [applyAll_of_mem armed.valid.1 member, armed.target w member]
  · rw [applyAll_of_forall_ne fun w member same => inT ⟨w, member, same⟩]
    exact armed.others b isHome fun w member same => inT ⟨w, member, same⟩

/-- **Installing and clearing, cut off anywhere**: the transaction is still in the log, or it is
installed. -/
theorem rest (armed : Armed start disk home t) {cleared : Mem} (zero : load cleared 0 4 = 0)
    (k : Nat) : ∃ t', Armed start (applyAll disk ((t ++ [(start, cleared)]).take k)) home t' ∧
      (t.length + 1 ≤ k → t' = []) := by
  by_cases whole : t.length + 1 ≤ k
  · refine ⟨[], ?_, fun _ => rfl⟩
    rw [List.take_of_length_le (by simpa using whole), applyAll_append, applyAll_cons, applyAll_nil]
    refine ofCleared ?_ ?_
    · rw [Function.update_self]
      exact zero
    · intro b isHome
      have ne : b ≠ start := by
        unfold Home at isHome
        omega
      rw [Function.update_of_ne ne]
      exact armed.installed isHome
  · refine ⟨t, ?_, fun absurd => (whole absurd).elim⟩
    rw [List.take_append_of_le_length (by omega)]
    exact armed.install k

/-- Log blocks written to a cleared log change nothing. -/
theorem log (armed : Armed start disk home []) {writes : List (Nat × Mem)}
    (inLog : ∀ w ∈ writes, start < w.1 ∧ w.1 ≤ start + logblocks) :
    Armed start (applyAll disk writes) home [] := by
  refine ofCleared ?_ ?_
  · rw [applyAll_of_forall_ne fun w member => by have := inLog w member; omega]
    exact armed.header.1
  · intro b isHome
    rw [applyAll_of_forall_ne fun w member => by
      have := inLog w member
      unfold Home at isHome
      omega]
    exact armed.others b isHome fun _ absurd => by cases absurd

/-- **The header block reaches the disk**: the log holds the new transaction. -/
theorem commit (armed : Armed start disk home []) (valid : Valid start t) {header : Mem}
    (isHeader : HeaderOf header t) :
    Armed start (applyAll disk (copies start t ++ [(start, header)])) (applyAll home t) t := by
  have few := valid.2.1
  have logDisk : ∀ b, b ≠ start → applyAll disk (copies start t ++ [(start, header)]) b =
      applyAll disk (copies start t) b := by
    intro b ne
    rw [applyAll_append, applyAll_cons, applyAll_nil, Function.update_of_ne ne]
  refine ⟨valid, ?_, ?_, fun w member => applyAll_of_mem valid.1 member, ?_⟩
  · rw [applyAll_append, applyAll_cons, applyAll_nil, Function.update_self]
    exact isHeader
  · intro i lt
    rw [logDisk _ (by omega)]
    exact applyAll_of_mem copies_nodup (get_mem_copies lt)
  · intro b isHome notIn
    have ne : b ≠ start := by
      unfold Home at isHome
      omega
    rw [logDisk b ne, applyAll_of_forall_ne, applyAll_of_forall_ne notIn]
    · exact armed.others b isHome fun _ absurd => by cases absurd
    · intro w member
      have range := mem_copies member
      unfold Home at isHome
      omega

end Armed

/-! ### Runs -/

/-- The home state after transactions in order. -/
def homeAfter (disk : Nat → Mem) (committed : List Transaction) : Nat → Mem :=
  committed.foldl applyAll disk

/-- The log holds the last committed transaction, and nothing once recovery has completed. -/
def DiskInv (start : Nat) (disk₀ : Nat → Mem) (s : DiskState) : Prop :=
  ∃ t, Armed start s.disk (homeAfter disk₀ s.committed) t ∧ (s.up = true → t = [])

section Runs

variable {start : Nat} {disk₀ : Nat → Mem} {s s' : DiskState}

/-- The disk writes of `commit`, cut off anywhere. -/
theorem DiskInv.commit (inv : DiskInv start disk₀ s) (up : s.up = true) {t : Transaction}
    (valid : Valid start t) (done : Nat) : DiskInv start disk₀ {
      disk := applyAll s.disk ((commitWrites start s.disk t).take done)
      up := (commitWrites start s.disk t).length ≤ done
      committed := if 0 < t.length ∧
        t.length < done then s.committed ++ [t] else s.committed } := by
  obtain ⟨t₀, armed, cleared⟩ := inv
  obtain rfl := cleared up
  by_cases empty : t.length = 0
  · -- an empty transaction writes nothing
    obtain rfl := List.length_eq_zero_iff.mp empty
    have none : commitWrites start s.disk [] = [] := rfl
    refine ⟨[], ?_, fun _ => rfl⟩
    rw [none, List.take_nil, applyAll_nil]
    simpa using armed
  · obtain ⟨header, zeroed, isHeader, zero, writes⟩ := commitWrites_eq valid (by omega) s.disk
    rw [writes]
    have length : (copies start t).length = t.length := length_copies
    by_cases reached : t.length < done
    · rw [if_pos ⟨by omega, reached⟩]
      have split : (copies start t ++ (start, header) :: (t ++ [(start, zeroed)])).take done =
          (copies start t ++ [(start, header)]) ++ (t ++ [(start, zeroed)]).take
          (done - (t.length + 1)) := by
        rw [List.append_cons, List.take_append, List.take_of_length_le (by simp [length]; omega)]
        simp [length]
      obtain ⟨t', armed', last⟩ := (armed.commit valid isHeader).rest zero (done - (t.length + 1))
      refine ⟨t', ?_, ?_⟩
      · rw [split, applyAll_append]
        simpa [homeAfter] using armed'
      · intro complete
        refine last ?_
        simp only [decide_eq_true_eq, List.length_append, List.length_cons, length, List.length_nil]
          at complete
        omega
    · rw [if_neg fun both => reached both.2, List.take_append_of_le_length (by omega)]
      refine ⟨[], armed.log ?_, fun _ => rfl⟩
      intro w member
      have range := mem_copies (List.mem_of_mem_take member)
      have few := valid.2.1
      omega

/-- The disk writes of `recover_from_log`, cut off anywhere. -/
theorem DiskInv.recover (inv : DiskInv start disk₀ s) (lh : LogHeader) (done : Nat) :
    DiskInv start disk₀ { s with
      disk := applyAll s.disk ((recoverWrites start lh s.disk).take done)
      up := (recoverWrites start lh s.disk).length ≤ done } := by
  obtain ⟨t, armed, _⟩ := inv
  obtain ⟨zeroed, zero, writes⟩ := recoverWrites_eq armed.valid armed.header armed.copied lh
  rw [writes]
  obtain ⟨t', armed', last⟩ := armed.rest zero done
  refine ⟨t', armed', ?_⟩
  intro complete
  refine last ?_
  simpa using complete

theorem DiskInv.step (inv : DiskInv start disk₀ s) {e : DiskEvent}
    (taken : diskStep start s e = some s') :
    DiskInv start disk₀ s' := by
  cases e with
  | commit t done =>
    simp only [diskStep, Option.ite_none_right_eq_some, Option.some.injEq] at taken
    obtain ⟨⟨up, valid⟩, rfl⟩ := taken
    exact inv.commit up valid done
  | crash =>
    obtain rfl := Option.some.inj taken
    obtain ⟨t, armed, _⟩ := inv
    exact ⟨t, armed, fun absurd => by cases absurd⟩
  | recover lh done =>
    simp only [diskStep, Option.ite_none_left_eq_some, Option.some.injEq] at taken
    obtain ⟨_, rfl⟩ := taken
    exact inv.recover lh done

end Runs

/-- **Crash atomicity.** After any commits, crashes and recoveries, themselves cut off anywhere and
any number of times, once recovery has completed the home blocks hold exactly the transactions whose
header reached the disk, in order, and the header on disk is cleared. -/
theorem homes_of_run (start : Nat) (disk : Nat → Mem) (cleared : load (disk start) 0 4 = 0)
    (events : List DiskEvent) {s : DiskState}
    (reached : run (diskStep start) ⟨disk, true, []⟩ events = some s) (up : s.up = true) :
    (∀ b, Home start b → s.disk b = homeAfter disk s.committed b) ∧
    load (s.disk start) 0 4 = 0 := by
  have initial : DiskInv start disk ⟨disk, true, []⟩ :=
    ⟨[], Armed.ofCleared cleared fun _ _ => rfl, fun _ => rfl⟩
  obtain ⟨t, armed, last⟩ := inv_of_steps (fun _ _ _ inv taken => inv.step taken) initial reached
  obtain rfl := last up
  exact ⟨fun b isHome => armed.others b isHome (fun _ absurd => by cases absurd), armed.header.1⟩

/-- A commit that crashes after its header block and before any home block, and the recovery after
it. -/
theorem homes_of_run_oneCrash : ∃ s, run (diskStep 2) ⟨fun _ _ => 0, true, []⟩
      [.commit [(100, fun _ => 7)] 2, .recover ⟨0, fun _ => 0⟩ 2] = some s ∧ s.up = true ∧
    s.disk 100 = (fun _ => 7) ∧ load (s.disk 2) 0 4 = 0 := by
  have header : load ((fun _ _ => 0 : Nat → Mem) 2) 0 4 = 0 := rfl
  obtain ⟨homes, cleared⟩ := homes_of_run 2 (fun _ _ => 0) header
    [.commit [(100, fun _ => 7)] 2, .recover ⟨0, fun _ => 0⟩ 2] rfl (by decide +kernel)
  exact ⟨_, rfl, by decide +kernel, homes 100 (by decide), cleared⟩

end Log

end Xv6Slab
