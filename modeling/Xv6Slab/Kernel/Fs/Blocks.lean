/-
**Blocks of files and the free map.**

A file has twelve direct blocks, an indirect block and the blocks that its entries name. One bit of
the free map says whether a block is in use. Block contents are bytes; the map and the indirect
blocks are read and written as bytes.

* `balloc`, `bfree`, `bmap`, `itrunc` — the code.
* `Sound` — **no block belongs to two places, and the map marks exactly the blocks in use.**
* `bmap_spec`, `itrunc_spec` — both keep it, do not panic, and leave the contents of every other
  file alone.
-/

import Mathlib.Data.UInt
import Xv6Slab.Base
import Xv6Slab.Lib.Bytes

set_option linter.unusedSectionVars false

namespace Xv6Slab

namespace Fs

open Bytes

/-! ### The code -/

/-- `BSIZE`. -/
abbrev bsize : Nat := 1024

/-- `BPB`. -/
abbrev bpb : Nat := bsize * 8

/-- `NDIRECT`. -/
abbrev ndirect : Nat := 12

/-- `NINDIRECT`. -/
abbrev nindirect : Nat := 256

/-- `MAXFILE`. -/
abbrev maxfile : Nat := ndirect + nindirect

/-- The fields of `struct superblock` that these functions read. -/
structure Superblock where
  size : Nat
  bmapstart : Nat

/-- The blocks of the disk, as the buffer cache shows them. -/
abbrev Disk := Nat → Mem

/-- `1 << k`. -/
def bit (k : Nat) : UInt8 := 1 <<< UInt8.ofNat k

section Map

variable (sb : Superblock)

/-- `BBLOCK`. -/
def bblock (b : Nat) : Nat := b / bpb + sb.bmapstart

/-- `bp->data[bi/8]` of the map block of `b`. -/
def mapByte (d : Disk) (b bi : Nat) : UInt8 := d (bblock sb b) (bi / 8)

def setMapByte (d : Disk) (b bi : Nat) (byte : UInt8) : Disk :=
  Function.update d (bblock sb b) (Function.update (d (bblock sb b)) (bi / 8) byte)

/-- The bit of a block. -/
def used (d : Disk) (b : Nat) : Bool := mapByte sb d b (b % bpb) &&& bit (b % bpb % 8) != 0

/-- `bzero`. -/
def bzero (d : Disk) (b : Nat) : Disk := Function.update d b fun _ => 0

/-- The inner loop of `balloc`. -/
def scan (d : Disk) (b : Nat) : Option (Nat × Nat) :=
  ((List.range (min bpb (sb.size - b))).find? fun bi => mapByte sb d b bi &&& bit (bi % 8) == 0).map
    (b, ·)

/-- The values of `b` in `balloc`. -/
def starts : List Nat := List.range' 0 ((sb.size + bpb - 1) / bpb) bpb

/-- `balloc`. -/
def balloc (d : Disk) : Disk × Nat :=
  match (starts sb).findSome? (scan sb d) with
  | none => (d, 0)
  | some (b, bi) => (bzero (setMapByte sb d b bi (mapByte sb d b bi ||| bit (bi % 8))) (b + bi),
    b + bi)

/-- `bfree`. -/
def bfree (d : Disk) (b : Nat) : Except Fault Disk :=
  if used sb d b then .ok
    (setMapByte sb d b (b % bpb) (mapByte sb d b (b % bpb) &&& ~~~ bit (b % bpb % 8)))
  else .error (.panic "freeing free block")

end Map

/-- The fields of `struct inode` that say where the contents are. -/
structure Inode where
  size : Nat
  addrs : Nat → Nat

/-- The disk and the inodes. -/
structure State (Ino : Type) where
  disk : Disk
  inode : Ino → Inode

variable {Ino : Type} [DecidableEq Ino]

/-- `a[j]` of the indirect block `a`. -/
def entry (d : Disk) (a j : Nat) : Nat := load (d a) (4 * j) 4

/-- The places where a file names a block: the direct addresses, the indirect block, its entries. -/
def Inode.ref (ip : Inode) (d : Disk) (k : Nat) : Nat :=
  if k ≤ ndirect then ip.addrs k else if ip.addrs ndirect = 0 then 0 else entry d (ip.addrs ndirect)
    (k - (ndirect + 1))

namespace State

/-- `ip->addrs[k]`, which is allocated when it is 0. -/
def assign (sb : Superblock) (s : State Ino) (i : Ino) (k : Nat) : State Ino × Nat :=
  if (s.inode i).addrs k ≠ 0 then (s, (s.inode i).addrs k)
  else
    let (d, addr) := balloc sb s.disk
    if addr = 0 then (s, 0)
    else (⟨d,
      Function.update s.inode i
      { s.inode i with addrs := Function.update (s.inode i).addrs k addr }⟩, addr)

/-- `a[j]`, which is allocated when it is 0. -/
def assignEntry (sb : Superblock) (s : State Ino) (a j : Nat) : State Ino × Nat :=
  if entry s.disk a j ≠ 0 then (s, entry s.disk a j)
  else
    let (d, addr) := balloc sb s.disk
    if addr = 0 then (s,
      0) else ({ s with disk := Function.update d a (store (d a) (4 * j) 4 addr) }, addr)

/-- `bmap`. -/
def bmap (sb : Superblock) (s : State Ino) (i : Ino) (bn : Nat) : Except Fault (State Ino × Nat) :=
  if bn < ndirect then .ok (s.assign sb i bn)
  else if bn - ndirect < nindirect then
    let (s, a) := s.assign sb i ndirect
    if a = 0 then .ok (s, 0) else .ok (s.assignEntry sb a (bn - ndirect))
  else .error (.panic "bmap: out of range")

/-- The loops of `itrunc`. -/
def freeAll (sb : Superblock) (d : Disk) (addrs : List Nat) : Except Fault Disk :=
  addrs.foldlM (fun d b => if b = 0 then .ok d else bfree sb d b) d

/-- The part of `itrunc` for the indirect block `a`. -/
def freeIndirect (sb : Superblock) (d : Disk) (a : Nat) : Except Fault Disk :=
  if a = 0 then .ok d else (freeAll sb d ((List.range nindirect).map (entry d a))).bind fun d =>
    bfree sb d a

/-- `itrunc`. -/
def itrunc (sb : Superblock) (s : State Ino) (i : Ino) : Except Fault (State Ino) :=
  ((freeAll sb s.disk ((List.range ndirect).map (s.inode i).addrs)).bind fun d =>
    freeIndirect sb d ((s.inode i).addrs ndirect)).map
    fun d => ⟨d, Function.update s.inode i ⟨0, fun _ => 0⟩⟩

/-- The block that a file names in a place. -/
def ref (s : State Ino) (i : Ino) (k : Nat) : Nat := (s.inode i).ref s.disk k

end State

/-- The number of places. -/
abbrev places : Nat := maxfile + 1

/-- The place of the block with number `bn` of a file. -/
def place (bn : Nat) : Nat := if bn < ndirect then bn else bn + 1

section Refs

variable {ip : Inode} {d : Disk} {k : Nat}

theorem ref_addr (le : k ≤ ndirect) : ip.ref d k = ip.addrs k := if_pos le

theorem ref_none (gt : ¬ k ≤ ndirect) (none : ip.addrs ndirect = 0) : ip.ref d k = 0 :=
  (if_neg gt).trans (if_pos none)

theorem ref_entry (gt : ¬ k ≤ ndirect) (some_ : ip.addrs ndirect ≠ 0) :
    ip.ref d k = entry d (ip.addrs ndirect) (k - (ndirect + 1)) :=
  (if_neg gt).trans (if_neg some_)

/-- What a file names depends on its inode and its indirect block. -/
theorem ref_congr {d' : Disk}
    (same : ip.addrs ndirect ≠ 0 → d' (ip.addrs ndirect) = d (ip.addrs ndirect)) (k : Nat) :
    ip.ref d' k = ip.ref d k := by
  by_cases direct : k ≤ ndirect
  · rw [ref_addr direct, ref_addr direct]
  by_cases none : ip.addrs ndirect = 0
  · rw [ref_none direct none, ref_none direct none]
  · rw [ref_entry direct none, ref_entry direct none, entry, entry, same none]

theorem ref_indirect (s : State Ino) (i : Ino) : s.ref i ndirect = (s.inode i).addrs ndirect :=
  ref_addr le_rfl

end Refs

/-! ### The free map -/

theorem bit_apart :
    ∀ i < 8, ∀ j < 8, i ≠ j → bit i &&& bit j = 0 ∧ ~~~ bit i &&& bit j = bit j := by decide

theorem bit_self : ∀ i < 8, bit i ≠ 0 ∧ ~~~ bit i &&& bit i = 0 := by decide

theorem or_and (x y z : UInt8) : (x ||| y) &&& z = (x &&& z) ||| (y &&& z) :=
  UInt8.toBitVec_inj.mp (by ext i; simp [Bool.and_or_distrib_right])

theorem or_and_self (x y : UInt8) : (x ||| y) &&& y = y := by
  rw [← UInt8.toBitVec_inj]
  ext i
  simp only [UInt8.toBitVec_and, UInt8.toBitVec_or, BitVec.getElem_and, BitVec.getElem_or]
  grind

section MapFacts

variable {sb : Superblock} {d : Disk} {b c : Nat}

theorem used_congr {d' : Disk} (same : d' (bblock sb c) = d (bblock sb c)) :
    used sb d' c = used sb d c := by
  rw [used, used, mapByte, mapByte, same]

/-- Two blocks with their bits in one byte. -/
theorem eq_of_same_bit (sameBlock : bblock sb c = bblock sb b)
    (sameByte : c % bpb / 8 = b % bpb / 8) (sameBit : c % bpb % 8 = b % bpb % 8) : c = b := by
  have sameQuotient : c / bpb = b / bpb := Nat.add_right_cancel sameBlock
  have sameRest : c % bpb = b % bpb := by
    rw [← Nat.div_add_mod (c % bpb) 8, sameByte, sameBit, Nat.div_add_mod]
  rw [← Nat.div_add_mod c bpb, sameQuotient, sameRest, Nat.div_add_mod]

/-- One bit of the map changes. -/
theorem used_setMapByte {byte : UInt8}
    (others : ∀ k < 8, b % bpb % 8 ≠ k → byte &&& bit k = mapByte sb d b (b % bpb) &&& bit k) :
    used sb (setMapByte sb d b (b % bpb) byte) c = if c = b then byte &&& bit
    (b % bpb % 8) != 0 else used sb d c := by
  unfold used mapByte setMapByte
  by_cases sameBlock : bblock sb c = bblock sb b
  · rw [sameBlock, Function.update_self]
    by_cases sameByte : c % bpb / 8 = b % bpb / 8
    · rw [sameByte, Function.update_self]
      by_cases eq : c = b
      · rw [if_pos eq, eq]
      · rw [if_neg eq, others _ (Nat.mod_lt _ (by decide)) fun sameBit =>
          eq (eq_of_same_bit sameBlock sameByte sameBit.symm), mapByte]
    · rw [Function.update_of_ne sameByte, if_neg (by rintro rfl; exact sameByte rfl)]
  · rw [Function.update_of_ne sameBlock, if_neg (by rintro rfl; exact sameBlock rfl)]

theorem used_mark :
    used sb (setMapByte sb d b (b % bpb) (mapByte sb d b (b % bpb) ||| bit (b % bpb % 8))) c =
    (decide (c = b) || used sb d c) := by
  have small : b % bpb % 8 < 8 := Nat.mod_lt _ (by decide)
  rw [used_setMapByte fun k lt ne => by rw [or_and, (bit_apart _ small k lt ne).1, UInt8.or_zero],
    or_and_self]
  by_cases eq : c = b
  · rw [if_pos eq, decide_eq_true eq, Bool.true_or]
    exact bne_iff_ne.mpr (bit_self _ small).1
  · rw [if_neg eq, decide_eq_false eq, Bool.false_or]

theorem used_clear :
    used sb (setMapByte sb d b (b % bpb) (mapByte sb d b (b % bpb) &&& ~~~ bit (b % bpb % 8))) c =
    (decide (c ≠ b) && used sb d c) := by
  have small : b % bpb % 8 < 8 := Nat.mod_lt _ (by decide)
  rw [used_setMapByte fun k lt ne => by rw [UInt8.and_assoc, (bit_apart _ small k lt ne).2],
    UInt8.and_assoc, (bit_self _ small).2]
  by_cases eq : c = b <;> simp [eq]

/-- **The loops of `balloc` find a free block or there is none.** -/
theorem findSome_scan (sb : Superblock) (d : Disk) :
    ((starts sb).findSome? (scan sb d) = none → ∀ b < sb.size, used sb d b = true) ∧
      ∀ b bi, (starts sb).findSome? (scan sb d) = some (b, bi) →
        bblock sb (b + bi) = bblock sb b ∧ (b + bi) % bpb = bi ∧ b + bi < sb.size ∧
        used sb d (b + bi) ≠ true := by
  have home : ∀ k bi, bi < bpb → bblock sb (bpb * k + bi) = bblock sb (bpb * k) ∧
      (bpb * k + bi) % bpb = bi := by
    intro k bi lt
    have lt' : bi < 8192 := lt
    exact ⟨show (8192 * k + bi) / 8192 + _ = 8192 * k / 8192 + _ by omega,
      show (8192 * k + bi) % 8192 = bi by omega⟩
  constructor
  · intro none b lt
    have inside : bpb * (b / bpb) ∈ starts sb :=
      List.mem_range'.mpr ⟨b / bpb, show b / 8192 < (sb.size + 8192 - 1) / 8192 by omega,
        (Nat.zero_add _).symm⟩
    have below : b % bpb < min bpb (sb.size - bpb * (b / bpb)) :=
      show b % 8192 < min 8192 (sb.size - 8192 * (b / 8192)) by omega
    have set :=
      List.find?_eq_none.mp
        (Option.map_eq_none_iff.mp (List.findSome?_eq_none_iff.mp none _ inside)) _
        (List.mem_range.mpr below)
    have same := (home (b / bpb) (b % bpb) (Nat.mod_lt _ (by decide))).1
    rw [Nat.div_add_mod] at same
    rw [mapByte, ← same] at set
    exact bne_iff_ne.mpr fun zero => set (beq_iff_eq.mpr zero)
  · intro b bi found
    obtain ⟨_, inside, found⟩ := List.exists_of_findSome?_eq_some found
    obtain ⟨_, found, eq⟩ := Option.map_eq_some_iff.mp found
    cases eq
    obtain ⟨k, _, rfl⟩ := List.mem_range'.mp inside
    rw [Nat.zero_add] at found ⊢
    obtain ⟨below, within⟩ := lt_min_iff.mp (List.mem_range.mp (List.mem_of_find?_eq_some found))
    obtain ⟨sameBlock, rest⟩ := home k bi below
    refine ⟨sameBlock, rest, by omega, fun isUsed => bne_iff_ne.mp isUsed ?_⟩
    rw [mapByte, sameBlock, rest]
    have unset := List.find?_some found
    exact beq_iff_eq.mp unset

end MapFacts

/-! ### The invariant -/

/-- The layout that `mkfs` gives the disk: the first `nmeta` blocks hold no file contents, and the
free map is among them. -/
structure Layout (sb : Superblock) (nmeta : Nat) : Prop where
  map : ∀ b < sb.size, bblock sb b < nmeta
  some_ : 0 < nmeta
  fits : sb.size ≤ 2 ^ 31

variable {sb : Superblock} {nmeta : Nat} {s t : State Ino} {i j : Ino} {b k l bn : Nat}

/-- **The map and the files fit together.** -/
structure Sound (sb : Superblock) (nmeta : Nat) (s : State Ino) : Prop where
  marked : ∀ b < sb.size, used sb s.disk b = true ↔ b < nmeta ∨ ∃ i k, k < places ∧ s.ref i k = b
  range : ∀ i k, k < places → s.ref i k ≠ 0 → nmeta ≤ s.ref i k ∧ s.ref i k < sb.size
  distinct : ∀ i k j l, k < places → l < places → s.ref i k ≠ 0 → s.ref i k = s.ref j l →
      i = j ∧ k = l
  /-- A file has the blocks that its size needs. -/
  covered : ∀ i bn, bn * bsize < (s.inode i).size → s.ref i (place bn) ≠ 0
  small : ∀ i, (s.inode i).size ≤ maxfile * bsize

/-- Files may have got blocks, and nothing else has changed. -/
structure Extends (s t : State Ino) : Prop where
  ref : ∀ i k, k < places → s.ref i k ≠ 0 → t.ref i k = s.ref i k
  data : ∀ i bn, bn < maxfile → s.ref i (place bn) ≠ 0 →
      t.disk (s.ref i (place bn)) = s.disk (s.ref i (place bn))
  size : ∀ i, (t.inode i).size = (s.inode i).size

theorem Extends.refl (s : State Ino) : Extends s s :=
  ⟨fun _ _ _ _ => rfl, fun _ _ _ _ => rfl, fun _ => rfl⟩

theorem place_lt (lt : bn < maxfile) : place bn < places ∧ place bn ≠ ndirect := by
  unfold place
  split <;> constructor <;> simp only [places, maxfile, ndirect, nindirect] at * <;> omega

theorem Extends.trans {u : State Ino} (first : Extends s t) (second : Extends t u) :
    Extends s u := by
  refine ⟨fun i k lt some_ => ?_, fun i bn lt some_ => ?_,
    fun i => (second.size i).trans (first.size i)⟩
  · have same := first.ref i k lt some_
    exact (second.ref i k lt (by rw [same]; exact some_)).trans same
  · have same := first.ref i (place bn) (place_lt lt).1 some_
    have later := second.data i bn lt (by rw [same]; exact some_)
    rw [same] at later
    exact later.trans (first.data i bn lt some_)

/-! ### New blocks -/

/-- `balloc` has found a free block. -/
structure Fresh (sb : Superblock) (nmeta : Nat) (s : State Ino) (d : Disk) (b : Nat) : Prop where
  range : nmeta ≤ b ∧ b < sb.size
  unnamed : ∀ i k, k < places → s.ref i k ≠ b
  marked : ∀ c < sb.size, used sb d c = (decide (c = b) || used sb s.disk c)
  zero : d b = fun _ => 0
  other : ∀ c, nmeta ≤ c → c ≠ b → d c = s.disk c

/-- **`balloc` finds a free block or there is none.** -/
theorem balloc_spec (layout : Layout sb nmeta) (sound : Sound sb nmeta s) :
    (balloc sb s.disk = (s.disk, 0) ∧ ∀ b < sb.size, used sb s.disk b = true) ∨
      ∃ d b, balloc sb s.disk = (d, b) ∧ b ≠ 0 ∧ Fresh sb nmeta s d b := by
  obtain ⟨full, first⟩ := findSome_scan sb s.disk
  unfold balloc
  cases found : (starts sb).findSome? (scan sb s.disk) with
  | none => exact .inl ⟨rfl, full found⟩
  | some result =>
    obtain ⟨start, bi⟩ := result
    obtain ⟨sameBlock, rest, lt, isFree⟩ := first start bi found
    dsimp only
    rw [mapByte, setMapByte, ← sameBlock]
    generalize start + bi = b at *
    subst rest
    have data : nmeta ≤ b := by
      by_contra meta_
      exact isFree ((sound.marked b lt).mpr (.inl (Nat.lt_of_not_le meta_)))
    have away : ∀ c < sb.size, bblock sb c ≠ b := fun c lt' same => by
      have inMap := layout.map c lt'
      omega
    have positive := layout.some_
    refine .inr ⟨_, b, rfl, by omega, ⟨⟨data, lt⟩, fun i k small same => ?_, fun c lt' => ?_,
      Function.update_self .., fun c data' ne => ?_⟩⟩
    · exact isFree ((sound.marked b lt).mpr (.inr ⟨i, k, small, same⟩))
    · rw [← used_mark]
      exact used_congr (Function.update_of_ne (away c lt') ..)
    · have inMap := layout.map b lt
      rw [bzero, Function.update_of_ne ne, Function.update_of_ne (by omega)]

/-- A block that the size of a file needs. -/
theorem Sound.lt_maxfile (sound : Sound sb nmeta s) (need : bn * bsize < (s.inode i).size) :
    bn < maxfile :=
  lt_of_mul_lt_mul_right (lt_of_lt_of_le need (sound.small i)) (Nat.zero_le bsize)

/-- A file has got a fresh block in one place. -/
structure Filled (sb : Superblock) (s : State Ino) (d : Disk) (b : Nat) (i : Ino) (k : Nat)
    (t : State Ino) : Prop where
  marked : ∀ c < sb.size, used sb t.disk c = used sb d c
  size : ∀ j, (t.inode j).size = (s.inode j).size
  refs : ∀ j l, l < places → t.ref j l = if j = i ∧ l = k then b else s.ref j l
  data : ∀ j bn, bn < maxfile → s.ref j (place bn) ≠ 0 →
      t.disk (s.ref j (place bn)) = s.disk (s.ref j (place bn))

theorem Filled.kept {d : Disk} (filled : Filled sb s d b i k t) (empty : s.ref i k = 0) (j : Ino)
    (l : Nat) (lt : l < places) (named : s.ref j l ≠ 0) : t.ref j l = s.ref j l := by
  rw [filled.refs j l lt, if_neg]
  rintro ⟨rfl, rfl⟩
  exact named empty

/-- **A fresh block in an empty place keeps the invariant.** -/
theorem Sound.grow (sound : Sound sb nmeta s) {d : Disk} (positive : 0 < nmeta)
    (fresh : Fresh sb nmeta s d b) (small : k < places) (empty : s.ref i k = 0)
    (filled : Filled sb s d b i k t) : Sound sb nmeta t := by
  have kept := filled.kept empty
  obtain ⟨marked, size, refs, _⟩ := filled
  refine ⟨fun c lt => ?_, fun j l lt named => ?_, fun j l j' l' lt lt' named same => ?_,
    fun j bn need => ?_, fun j => ?_⟩
  · rw [marked c lt, fresh.marked c lt, Bool.or_eq_true, decide_eq_true_eq, sound.marked c lt]
    constructor
    · rintro (rfl | low | ⟨j, l, small', isRef⟩)
      · exact .inr ⟨i, k, small, by rw [refs i k small, if_pos ⟨rfl, rfl⟩]⟩
      · exact .inl low
      · by_cases zero : c = 0
        · exact .inl (by omega)
        · exact .inr ⟨j, l, small', (kept j l small' (by rw [isRef]; exact zero)).trans isRef⟩
    · rintro (low | ⟨j, l, small', isRef⟩)
      · exact .inr (.inl low)
      · rw [refs j l small'] at isRef
        split at isRef
        · exact .inl isRef.symm
        · exact .inr (.inr ⟨j, l, small', isRef⟩)
  · rw [refs j l lt] at named ⊢
    split
    · exact fresh.range
    next other => exact sound.range j l lt (by rwa [if_neg other] at named)
  · rw [refs j l lt] at named same
    rw [refs j' l' lt'] at same
    split at same
    next here =>
      split at same
      next there => exact ⟨here.1.trans there.1.symm, here.2.trans there.2.symm⟩
      · exact absurd same.symm (fresh.unnamed j' l' lt')
    next here =>
      rw [if_neg here] at named
      split at same
      · exact absurd same (fresh.unnamed j l lt)
      · exact sound.distinct j l j' l' lt lt' named same
  · rw [size j] at need
    have named := sound.covered j bn need
    rw [kept j _ (place_lt (sound.lt_maxfile need)).1 named]
    exact named
  · rw [size j]
    exact sound.small j

theorem load_zero (addr : Nat) : ∀ width, load (fun _ => 0) addr width = 0
  | 0 => rfl
  | width + 1 => by rw [load, load_zero (addr + 1) width]; rfl

/-- A place of a file has been looked up, and filled if it was empty and there was a block. -/
structure Mapped (sb : Superblock) (nmeta : Nat) (s : State Ino) (i : Ino) (k : Nat) (t : State Ino)
    (a : Nat) : Prop where
  sound : Sound sb nmeta t
  ext : Extends s t
  isRef : a ≠ 0 → t.ref i k = a
  same : s.ref i k ≠ 0 → t = s ∧ a = s.ref i k
  full : a = 0 → ∀ b < sb.size, used sb t.disk b = true

theorem Sound.mapped (sound : Sound sb nmeta s) (named : s.ref i k ≠ 0) :
    Mapped sb nmeta s i k s (s.ref i k) :=
  ⟨sound, .refl s, fun _ => rfl, fun _ => ⟨rfl, rfl⟩, fun empty => absurd empty named⟩

theorem Sound.full (sound : Sound sb nmeta s) (empty : s.ref i k = 0)
    (full : ∀ b < sb.size, used sb s.disk b = true) : Mapped sb nmeta s i k s 0 :=
  ⟨sound, .refl s, fun some_ => absurd rfl some_, fun named => absurd empty named, fun _ => full⟩

/-- The file got the block in the empty place. -/
theorem Sound.filled (sound : Sound sb nmeta s) {d : Disk} (positive : 0 < nmeta)
    (fresh : Fresh sb nmeta s d b) (small : k < places) (empty : s.ref i k = 0)
    (filled : Filled sb s d b i k t) : Mapped sb nmeta s i k t b := by
  have low := fresh.range.1
  refine ⟨sound.grow positive fresh small empty filled,
    ⟨filled.kept empty, filled.data, filled.size⟩, fun _ => ?_,
    fun named => absurd empty named, fun zero => absurd zero (by omega)⟩
  rw [filled.refs i k small, if_pos ⟨rfl, rfl⟩]

/-- **An address in the inode.** -/
theorem assign_spec (layout : Layout sb nmeta) (sound : Sound sb nmeta s) (i : Ino)
    (le : k ≤ ndirect) : ∃ t a, s.assign sb i k = (t, a) ∧ Mapped sb nmeta s i k t a := by
  have isAddr : s.ref i k = (s.inode i).addrs k := ref_addr le
  unfold State.assign
  by_cases named : (s.inode i).addrs k ≠ 0
  · rw [if_pos named]
    rw [← isAddr] at named ⊢
    exact ⟨s, _, rfl, sound.mapped named⟩
  rw [if_neg named]
  have empty : s.ref i k = 0 := isAddr.trans (not_not.mp named)
  obtain ⟨none, full⟩ | ⟨d, b, found, some_, fresh⟩ := balloc_spec layout sound
  · rw [none]
    exact ⟨s, 0, rfl, sound.full empty full⟩
  rw [found]
  dsimp only
  rw [if_neg some_]
  refine ⟨_, b, rfl, sound.filled layout.some_ fresh (lt_of_le_of_lt le (by decide)) empty
    ⟨fun _ _ => rfl, fun j => ?_, fun j l lt => ?_, ?_⟩⟩
  · dsimp only
    by_cases eq : j = i
    · rw [eq, Function.update_self]
    · rw [Function.update_of_ne eq]
  · -- The indirect blocks are as before; a new one has no entries.
    have old : ∀ j, (s.inode j).ref d l = s.ref j l := fun j => ref_congr (fun some' => by
      rw [← ref_indirect s j] at some' ⊢
      exact fresh.other _ (sound.range j ndirect (by decide) some').1
        (fresh.unnamed j ndirect (by decide))) l
    show (Function.update s.inode i _ j).ref d l = _
    by_cases eq : j = i
    · subst eq
      rw [Function.update_self]
      by_cases isPlace : l = k
      · rw [isPlace, if_pos ⟨rfl, rfl⟩, ref_addr le]
        exact Function.update_self ..
      rw [if_neg fun here => isPlace here.2]
      by_cases direct : l ≤ ndirect
      · rw [ref_addr direct, State.ref, ref_addr direct]
        exact Function.update_of_ne isPlace ..
      by_cases isNew : k = ndirect
      · subst isNew
        have newBlock : Function.update (s.inode j).addrs ndirect b ndirect = b :=
          Function.update_self ..
        rw [State.ref, ref_none direct (isAddr.symm.trans empty),
          ref_entry direct (newBlock.trans_ne some_)]
        show entry d (Function.update (s.inode j).addrs ndirect b ndirect) _ = 0
        rw [newBlock, entry, fresh.zero, load_zero]
      · have oldBlock : Function.update (s.inode j).addrs k b ndirect = (s.inode j).addrs ndirect :=
          Function.update_of_ne (Ne.symm isNew) ..
        rw [← old j, Inode.ref, Inode.ref, if_neg direct, if_neg direct]
        simp only [oldBlock]
    · rw [Function.update_of_ne eq, if_neg fun here => eq here.1, old j]
  · intro j bn lt named'
    exact fresh.other _ (sound.range j _ (place_lt lt).1 named').1
      (fresh.unnamed j _ (place_lt lt).1)

/-- **An entry of the indirect block.** -/
theorem assignEntry_spec (layout : Layout sb nmeta) (sound : Sound sb nmeta s) (i : Ino) {e : Nat}
    (lt : e < nindirect) (indirect : s.ref i ndirect ≠ 0) :
    ∃ t a, s.assignEntry sb (s.ref i ndirect) e = (t, a) ∧
    Mapped sb nmeta s i (ndirect + 1 + e) t a := by
  have isEntry : s.ref i (ndirect + 1 + e) = entry s.disk (s.ref i ndirect) e := by
    rw [State.ref, ref_entry (by omega) (ref_indirect s i ▸ indirect), ref_indirect,
      Nat.add_sub_cancel_left]
  have small : ndirect + 1 + e < places := by simp only [places, maxfile]; omega
  unfold State.assignEntry
  rw [← isEntry]
  by_cases named : s.ref i (ndirect + 1 + e) ≠ 0
  · rw [if_pos named]
    exact ⟨s, _, rfl, sound.mapped named⟩
  rw [if_neg named]
  have empty := not_not.mp named
  obtain ⟨none, full⟩ | ⟨d, b, found, some_, fresh⟩ := balloc_spec layout sound
  · rw [none]
    exact ⟨s, 0, rfl, sound.full empty full⟩
  rw [found]
  dsimp only
  rw [if_neg some_]
  have home := sound.range i ndirect (by decide) indirect
  have homeOld : d (s.ref i ndirect) = s.disk (s.ref i ndirect) :=
    fresh.other _ home.1 (fresh.unnamed i ndirect (by decide))
  refine ⟨_, b, rfl, sound.filled layout.some_ fresh small empty ⟨fun c below => ?_, fun _ => rfl,
    fun j l lt' => ?_, ?_⟩⟩
  · have inMap := layout.map c below
    exact used_congr (Function.update_of_ne (by omega) ..)
  · show (s.inode j).ref (Function.update d (s.ref i ndirect) _) l =
      if _ then b else (s.inode j).ref s.disk l
    by_cases direct : l ≤ ndirect
    · rw [if_neg (by rintro ⟨_, rfl⟩; omega), ref_addr direct, ref_addr direct]
    · by_cases none : (s.inode j).addrs ndirect = 0
      · rw [ref_none direct none, ref_none direct none, if_neg]
        rintro ⟨rfl, _⟩
        exact indirect ((ref_indirect s j).trans none)
      rw [ref_entry direct none, ref_entry direct none]
      rw [← ref_indirect s j] at none ⊢
      rw [entry, entry]
      by_cases eq : j = i
      · subst eq
        rw [Function.update_self, homeOld]
        by_cases isPlace : l = ndirect + 1 + e
        · have fits : b < 256 ^ 4 := lt_of_lt_of_le fresh.range.2 (layout.fits.trans (by decide))
          rw [if_pos ⟨rfl, isPlace⟩, isPlace, Nat.add_sub_cancel_left, load_store_same fits]
        · rw [if_neg fun here => isPlace here.2, load_store_apart (by omega)]
      · have other : s.ref j ndirect ≠ s.ref i ndirect :=
          fun same => eq (sound.distinct j ndirect i ndirect (by decide) (by decide) none same).1
        rw [Function.update_of_ne other, if_neg fun here => eq here.1,
          fresh.other _ (sound.range j ndirect (by decide) none).1
          (fresh.unnamed j ndirect (by decide))]
  · intro j n lt' named'
    obtain ⟨below, ne⟩ := place_lt lt'
    have other : s.ref j (place n) ≠ s.ref i ndirect :=
      fun same => ne (sound.distinct j _ i ndirect below (by decide) named' same).2
    show Function.update d _ _ _ = _
    rw [Function.update_of_ne other]
    exact fresh.other _ (sound.range j _ below named').1 (fresh.unnamed j _ below)

/-- **`bmap`** finds the block of a file or a new one, and fails only when the disk is full. -/
theorem bmap_spec (layout : Layout sb nmeta) (sound : Sound sb nmeta s) (i : Ino)
    (lt : bn < maxfile) :
    ∃ t a, s.bmap sb i bn = .ok (t, a) ∧ Mapped sb nmeta s i (place bn) t a := by
  unfold State.bmap place
  by_cases direct : bn < ndirect
  · rw [if_pos direct, if_pos direct]
    obtain ⟨t, a, eq, mapped⟩ := assign_spec layout sound i direct.le
    exact ⟨t, a, congrArg _ eq, mapped⟩
  have size : maxfile = ndirect + nindirect := rfl
  rw [if_neg direct, if_neg direct, if_pos (by omega)]
  obtain ⟨t, a, eq, mapped⟩ := assign_spec layout sound i le_rfl
  rw [eq]
  dsimp only
  have isPlace : ndirect + 1 + (bn - ndirect) = bn + 1 := by omega
  by_cases none : a = 0
  · rw [if_pos none]
    refine ⟨t, 0, rfl, mapped.sound, mapped.ext, fun some_ => absurd rfl some_, fun named => ?_,
      fun _ => mapped.full none⟩
    -- An entry is named only in an indirect block.
    refine absurd ?_ named
    have empty : s.ref i ndirect = 0 := by
      by_contra some_
      exact some_ ((mapped.same some_).2.symm.trans none)
    exact ref_none (by omega) ((ref_indirect s i).symm.trans empty)
  · rw [if_neg none]
    have isRef := mapped.isRef none
    obtain ⟨u, c, eq', mapped'⟩ :=
      assignEntry_spec layout mapped.sound i (e := bn - ndirect) (by omega)
      (by rw [isRef]; exact none)
    rw [isRef] at eq'
    rw [isPlace] at mapped'
    refine ⟨u, c, congrArg _ eq', mapped'.sound, mapped.ext.trans mapped'.ext, mapped'.isRef,
      fun named => ?_, mapped'.full⟩
    have some_ : s.ref i ndirect ≠ 0 := by
      intro empty
      apply named
      exact ref_none (by omega) ((ref_indirect s i).symm.trans empty)
    obtain ⟨rfl, _⟩ := mapped.same some_
    exact mapped'.same named

/-! ### Blocks given back -/

/-- `bfree` of a block in use. -/
theorem bfree_spec (layout : Layout sb nmeta) {d : Disk} (lt : b < sb.size)
    (isUsed : used sb d b = true) :
    ∃ d', bfree sb d b = .ok d' ∧ (∀ c, used sb d' c = true ↔ used sb d c = true ∧ c ≠ b) ∧
    ∀ c, nmeta ≤ c → d' c = d c := by
  refine ⟨_, if_pos isUsed, fun c => ?_, fun c data => ?_⟩
  · rw [used_clear, Bool.and_eq_true, decide_eq_true_eq, and_comm]
  · have inMap := layout.map b lt
    exact Function.update_of_ne (by omega) ..

/-- **The loops of `itrunc`**, by induction on the addresses. -/
theorem freeAll_spec (layout : Layout sb nmeta) :
    ∀ {l : List Nat} {d : Disk}, (∀ b ∈ l, b ≠ 0 → b < sb.size ∧ used sb d b = true) →
    l.Pairwise (fun a b => a ≠ 0 → a ≠ b) → ∃ d', State.freeAll sb d l = .ok d' ∧
      (∀ c, used sb d' c = true ↔ used sb d c = true ∧ ¬ (c ≠ 0 ∧ c ∈ l)) ∧ ∀ c, nmeta ≤ c →
      d' c = d c
  | [], d, _, _ => ⟨d, rfl, fun c => by simp, fun _ _ => rfl⟩
  | b :: l, d, named, apart => by
    obtain ⟨here, rest⟩ := List.pairwise_cons.mp apart
    by_cases zero : b = 0
    · obtain ⟨d', freed, marks, same⟩ :=
        freeAll_spec layout (fun c member => named c (List.mem_cons_of_mem _ member)) rest
      refine ⟨d', ?_, fun c => (marks c).trans ?_, same⟩
      · rw [State.freeAll, List.foldlM_cons, if_pos zero]
        exact freed
      · rw [List.mem_cons, zero]
        tauto
    · obtain ⟨lt, isUsed⟩ := named b List.mem_cons_self zero
      obtain ⟨d₁, first, marks₁, same₁⟩ := bfree_spec layout lt isUsed
      have named' : ∀ c ∈ l, c ≠ 0 → c < sb.size ∧ used sb d₁ c = true := fun c member some_ => by
        obtain ⟨lt', isUsed'⟩ := named c (List.mem_cons_of_mem _ member) some_
        exact ⟨lt', (marks₁ c).mpr ⟨isUsed', (here c member zero).symm⟩⟩
      obtain ⟨d', freed, marks, same⟩ := freeAll_spec layout named' rest
      refine ⟨d', ?_, fun c => (marks c).trans ?_, fun c data => (same c data).trans (same₁ c data)⟩
      · rw [State.freeAll, List.foldlM_cons, if_neg zero, first]
        exact freed
      · rw [marks₁ c, List.mem_cons]
        constructor
        · rintro ⟨⟨isUsed', ne⟩, outside⟩
          exact ⟨isUsed', by tauto⟩
        · rintro ⟨isUsed', outside⟩
          exact ⟨⟨isUsed', by rintro rfl; exact outside ⟨zero, .inl rfl⟩⟩, by tauto⟩

theorem freeAll_zero {d : Disk} : ∀ {l : List Nat}, (∀ b ∈ l, b = 0) → State.freeAll sb d l = .ok d
  | [], _ => rfl
  | b :: l, zeros => by
    rw [State.freeAll, List.foldlM_cons, if_pos (zeros b List.mem_cons_self)]
    exact freeAll_zero fun c member => zeros c (List.mem_cons_of_mem _ member)

/-- The places in the order in which `itrunc` visits them. -/
def order : List Nat :=
  List.range ndirect ++ ((List.range nindirect).map (ndirect + 1 + ·) ++ [ndirect])

theorem nodup_order : order.Nodup := by
  refine List.nodup_append.mpr ⟨List.nodup_range,
    List.nodup_append.mpr ⟨?_, List.nodup_singleton _, ?_⟩, ?_⟩
  · exact List.nodup_range.map fun _ _ => Nat.add_left_cancel
  · simp
    omega
  · simp only [List.mem_range, List.mem_append, List.mem_map, List.mem_singleton]
    rintro a lt b (⟨e, _, rfl⟩ | rfl) <;> omega

theorem mem_order : k ∈ order ↔ k < places := by
  simp only [order, List.mem_append, List.mem_range, List.mem_map, List.mem_singleton,
    places, maxfile]
  constructor
  · rintro (lt | ⟨e, lt, rfl⟩ | rfl) <;> omega
  · intro lt
    obtain below | eq | above := Nat.lt_trichotomy k ndirect
    · exact .inl below
    · exact .inr (.inr eq)
    · exact .inr (.inl ⟨k - (ndirect + 1), by omega, by omega⟩)

/-- The blocks of a file are in use, and each is in one place. -/
theorem Sound.freeable (sound : Sound sb nmeta s) (i : Ino) {l : List Nat}
    (part : l.Sublist order) :
    (∀ b ∈ l.map (s.ref i), b ≠ 0 → b < sb.size ∧ used sb s.disk b = true) ∧
    (l.map (s.ref i)).Pairwise fun a b => a ≠ 0 → a ≠ b := by
  constructor
  · intro b member some_
    obtain ⟨k, inList, rfl⟩ := List.mem_map.mp member
    have lt := mem_order.mp (part.subset inList)
    have range := sound.range i k lt some_
    exact ⟨range.2, (sound.marked _ range.2).mpr (.inr ⟨i, k, lt, rfl⟩)⟩
  · rw [List.pairwise_map]
    refine List.Pairwise.imp_of_mem (fun {a c} inList inList' ne some_ same => ne ?_)
      (nodup_order.sublist part)
    exact (sound.distinct i a i c (mem_order.mp (part.subset inList))
      (mem_order.mp (part.subset inList')) some_ same).2

/-- **The disk that `itrunc` leaves**: exactly the blocks of the file have become free. -/
theorem Sound.freed (layout : Layout sb nmeta) (sound : Sound sb nmeta s) (i : Ino) :
    ∃ d, s.itrunc sb i = .ok ⟨d, Function.update s.inode i ⟨0, fun _ => 0⟩⟩ ∧
      (∀ c, used sb d c = true ↔ used sb s.disk c = true ∧
        ¬ (c ≠ 0 ∧ ∃ k, k < places ∧ s.ref i k = c)) ∧
      ∀ c, nmeta ≤ c → d c = s.disk c := by
  obtain ⟨named, apart⟩ := sound.freeable i (List.Sublist.refl order)
  obtain ⟨d, freed, marks, same⟩ := freeAll_spec layout named apart
  obtain ⟨named₁, apart₁⟩ := sound.freeable i (List.sublist_append_left ..)
  obtain ⟨d₁, freed₁, _, same₁⟩ := freeAll_spec layout named₁ apart₁
  refine ⟨d, ?_,
    fun c => (marks c).trans (and_congr_right fun _ => not_congr (and_congr_right fun _ => ?_)),
    same⟩
  swap
  · simp only [List.mem_map, mem_order]
  have isAddr := ref_indirect s i
  have isDirect : (List.range ndirect).map (s.inode i).addrs = (List.range ndirect).map (s.ref i) :=
    List.map_congr_left fun e below => (ref_addr (List.mem_range.mp below).le).symm
  -- The direct blocks come first; what is left are the entries and the indirect block.
  have rest :
      State.freeAll sb d₁ (((List.range nindirect).map (ndirect + 1 + ·) ++ [ndirect]).map
        (s.ref i)) = .ok d := by
    rw [State.freeAll, order, List.map_append, List.foldlM_append] at freed
    rw [State.freeAll] at freed₁
    rw [freed₁] at freed
    exact freed
  have indirect : State.freeIndirect sb d₁ ((s.inode i).addrs ndirect) = .ok d := by
    rw [State.freeIndirect]
    by_cases none : (s.inode i).addrs ndirect = 0
    · rw [if_pos none, ← rest]
      refine (freeAll_zero fun b member => ?_).symm
      obtain ⟨k, inList, rfl⟩ := List.mem_map.mp member
      by_cases direct : k ≤ ndirect
      · obtain rfl : k = ndirect := by
          simp only [List.mem_append, List.mem_map, List.mem_singleton] at inList
          obtain ⟨e, _, rfl⟩ | eq := inList
          · omega
          · exact eq
        exact isAddr.trans none
      · exact ref_none direct none
    · have home := (sound.range i ndirect (by decide) (isAddr.trans_ne none)).1
      have isEntries : (List.range nindirect).map (entry d₁ ((s.inode i).addrs ndirect)) =
          ((List.range nindirect).map (ndirect + 1 + ·)).map (s.ref i) := by
        rw [List.map_map]
        refine List.map_congr_left fun e _ => ?_
        rw [Function.comp, State.ref, ref_entry (by omega) none, entry, entry,
          same₁ _ (isAddr ▸ home), Nat.add_sub_cancel_left]
      rw [if_neg none, isEntries, ← rest, List.map_append, State.freeAll, State.freeAll,
        List.foldlM_append]
      refine congrArg (Except.bind _) (funext fun d' => ?_)
      rw [List.map_singleton, List.foldlM_cons, isAddr, if_neg none]
      exact (bind_pure _).symm
  rw [State.itrunc, isDirect, freed₁, Except.bind, indirect]
  rfl

/-- **`itrunc`** empties the file and frees its blocks; other files are as before. -/
theorem itrunc_spec (layout : Layout sb nmeta) (sound : Sound sb nmeta s) (i : Ino) :
    ∃ t, s.itrunc sb i = .ok t ∧ Sound sb nmeta t ∧ (∀ j ≠ i, t.inode j = s.inode j) ∧
      (∀ j ≠ i, ∀ k, t.ref j k = s.ref j k) ∧ ∀ c, nmeta ≤ c → t.disk c = s.disk c := by
  obtain ⟨d, returns, marks, same⟩ := sound.freed layout i
  set t : State Ino := ⟨d, Function.update s.inode i ⟨0, fun _ => 0⟩⟩
  have inodeOf : ∀ j ≠ i, t.inode j = s.inode j := fun j ne => Function.update_of_ne ne ..
  have none : ∀ k, t.ref i k = 0 := by
    intro k
    show (Function.update s.inode i ⟨0, fun _ => 0⟩ i).ref d k = 0
    rw [Function.update_self, Inode.ref]
    simp
  have others : ∀ j ≠ i, ∀ k, t.ref j k = s.ref j k := by
    intro j ne k
    show (t.inode j).ref d k = (s.inode j).ref s.disk k
    rw [inodeOf j ne]
    refine ref_congr (fun some_ => same _ ?_) k
    rw [← ref_indirect s j] at some_ ⊢
    exact (sound.range j ndirect (by decide) some_).1
  have notHere : ∀ {j k}, t.ref j k ≠ 0 → j ≠ i := by
    rintro j k some_ rfl
    exact some_ (none k)
  refine ⟨_, returns, ⟨fun c lt => ?_, fun j k lt some_ => ?_, fun j k j' l lt lt' some_ eq => ?_,
    fun j bn need => ?_, fun j => ?_⟩, inodeOf, others, same⟩
  · rw [marks c, sound.marked c lt]
    constructor
    · rintro ⟨low | ⟨j, k, below, isRef⟩, outside⟩
      · exact .inl low
      by_cases zero : c = 0
      · exact .inl (zero ▸ layout.some_)
      by_cases eq : j = i
      · exact absurd ⟨zero, k, below, eq ▸ isRef⟩ outside
      · exact .inr ⟨j, k, below, (others j eq k).trans isRef⟩
    · rintro (low | ⟨j, k, below, isRef⟩)
      · refine ⟨.inl low, ?_⟩
        rintro ⟨some_, k, below, rfl⟩
        exact absurd (sound.range i k below some_).1 (Nat.not_le.mpr low)
      by_cases eq : j = i
      · rw [eq, none k] at isRef
        exact ⟨.inl (isRef ▸ layout.some_), fun here => here.1 isRef.symm⟩
      · rw [others j eq k] at isRef
        refine ⟨.inr ⟨j, k, below, isRef⟩, ?_⟩
        rintro ⟨some_, l, below', isRef'⟩
        exact eq (sound.distinct j k i l below below' (isRef.trans_ne some_)
          (isRef.trans isRef'.symm)).1
  · have ne := notHere some_
    rw [others j ne k] at some_ ⊢
    exact sound.range j k lt some_
  · have ne := notHere some_
    rw [others j' (notHere (eq ▸ some_)) l, others j ne k] at eq
    rw [others j ne k] at some_
    exact sound.distinct j k j' l lt lt' some_ eq
  · by_cases eq : j = i
    · subst eq
      exact absurd (lt_of_lt_of_eq need (congrArg Inode.size (Function.update_self ..)))
        (Nat.not_lt_zero _)
    · rw [others j eq]
      exact sound.covered j bn (lt_of_lt_of_eq need (congrArg Inode.size (inodeOf j eq)))
  · by_cases eq : j = i
    · subst eq
      exact (congrArg Inode.size (Function.update_self ..)).trans_le (Nat.zero_le _)
    · exact (congrArg Inode.size (inodeOf j eq)).trans_le (sound.small j)

end Fs

end Xv6Slab
