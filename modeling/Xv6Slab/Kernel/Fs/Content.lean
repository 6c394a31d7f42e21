/-
**Reading and writing files.**

`writei` and `readi` go through a file block by block, with `bmap`. A copy from user memory can fail
in the middle of a block; the bytes copied so far stay in the buffer.

* `writei`, `readi` — the code, with the answers of `either_copyin` and `either_copyout`.
* `Sound.calls` — **every sequence of calls returns and keeps the invariant.**
* `readi_after_writei` — **what is written is read back**, whatever happens to other files in
  between.
-/

import Xv6Slab.Kernel.Fs.Blocks

set_option linter.unusedSectionVars false

namespace Xv6Slab

namespace Fs

open Bytes

variable {Ino : Type} [DecidableEq Ino]

/-! ### The code -/

/-- The bytes that `either_copyin` reads, and where a copy fails, after how many bytes. -/
structure Source where
  byte : Nat → UInt8
  fails : Nat → Option Nat

/-- `m` bytes are copied into a block. -/
def copyInto (mem : Mem) (start m : Nat) (byte : Nat → UInt8) : Mem :=
  fun a => if start ≤ a ∧ a < start + m then byte (a - start) else mem a

namespace State

/-- `either_copyin` into the buffer of the block `addr`. -/
def put (s : State Ino) (addr start m : Nat) (byte : Nat → UInt8) : State Ino :=
  { s with disk := Function.update s.disk addr (copyInto (s.disk addr) start m byte) }

/-- The loop of `writei`. -/
def writeLoop (sb : Superblock) (i : Ino) (src : Source) (off n : Nat) (s : State Ino) (tot : Nat) :
    Nat → Except Fault (State Ino × Nat)
  | 0 => .error .hang
  | fuel + 1 =>
    if tot < n then
      match s.bmap sb i ((off + tot) / bsize) with
      | .error fault => .error fault
      | .ok (s, addr) =>
        if addr = 0 then .ok (s, tot)
        else
          let m := min (n - tot) (bsize - (off + tot) % bsize)
          match src.fails tot with
          | some k => .ok (s.put addr ((off + tot) % bsize) (min k m) fun x => src.byte (tot + x),
            tot)
          | none => writeLoop sb i src off n (s.put addr ((off + tot) % bsize) m fun x =>
            src.byte (tot + x)) (tot + m) fuel
    else .ok (s, tot)

/-- `writei`. -/
def writei (sb : Superblock) (s : State Ino) (i : Ino) (src : Source) (off n : Nat) :
    Except Fault (State Ino × Int) :=
  if (s.inode i).size < off ∨ (off + n) % 2 ^ 32 < off then .ok (s, -1)
  else if maxfile * bsize < (off + n) % 2 ^ 32 then .ok (s, -1)
  else (s.writeLoop sb i src off n 0 (n + 1)).map fun result =>
    ({ result.1 with
      inode := Function.update result.1.inode i
        { result.1.inode i with size := max (s.inode i).size (off + result.2) } }, result.2)

/-- The loop of `readi`: the bytes copied out and the value of `tot`. `copies tot` says whether
`either_copyout` succeeds. -/
def readLoop (sb : Superblock) (i : Ino) (copies : Nat → Bool) (off n : Nat) (s : State Ino)
    (tot : Nat) : Nat → Except Fault (State Ino × List UInt8 × Int)
  | 0 => .error .hang
  | fuel + 1 =>
    if tot < n then
      match s.bmap sb i ((off + tot) / bsize) with
      | .error fault => .error fault
      | .ok (s, addr) =>
        if addr = 0 then .ok (s, [], tot)
        else
          let m := min (n - tot) (bsize - (off + tot) % bsize)
          if copies tot then
            (readLoop sb i copies off n s (tot + m) fuel).map fun result =>
              (result.1, (List.range m).map (fun x => s.disk addr ((off + tot) % bsize + x)) ++
                result.2.1, result.2.2)
          else .ok (s, [], -1)
    else .ok (s, [], tot)

/-- `readi`. -/
def readi (sb : Superblock) (s : State Ino) (i : Ino) (copies : Nat → Bool) (off n : Nat) :
    Except Fault (State Ino × List UInt8 × Int) :=
  if (s.inode i).size < off ∨ (off + n) % 2 ^ 32 < off then .ok (s, [], 0)
  else
    let n := if (s.inode i).size < (off + n) % 2 ^ 32 then (s.inode i).size - off else n
    s.readLoop sb i copies off n 0 (n + 1)

/-- A byte of a file. -/
def byteAt (s : State Ino) (i : Ino) (x : Nat) : UInt8 :=
  s.disk (s.ref i (place (x / bsize))) (x % bsize)

end State

/-! ### One block -/

variable {sb : Superblock} {nmeta : Nat} {s t : State Ino} {i j : Ino}
  {a bn k x start m off n tot lo mid hi lim : Nat} {src : Source} {byte : Nat → UInt8}

theorem place_injective (same : place bn = place k) : bn = k := by
  unfold place at same
  split at same <;> split at same <;> omega

/-- A data block of a file is overwritten. -/
structure Overwritten (s t : State Ino) (i : Ino) (bn : Nat) : Prop where
  ref : ∀ j k, k < places → t.ref j k = s.ref j k
  byte : ∀ j x, x / bsize < maxfile → s.ref j (place (x / bsize)) ≠ 0 → ¬ (j = i ∧ x / bsize = bn) →
      t.byteAt j x = s.byteAt j x

theorem Sound.put (layout : Layout sb nmeta) (sound : Sound sb nmeta s) (lt : bn < maxfile)
    (isRef : s.ref i (place bn) = a) (some_ : a ≠ 0) (start m : Nat) (byte : Nat → UInt8) :
    Sound sb nmeta (s.put a start m byte) ∧ Overwritten s (s.put a start m byte) i bn := by
  obtain ⟨below, notIndirect⟩ := place_lt lt
  have data := (sound.range i _ below (isRef.trans_ne some_)).1
  rw [isRef] at data
  have refs : ∀ j k, k < places → (s.put a start m byte).ref j k = s.ref j k := by
    intro j k lt'
    show (s.inode j).ref (Function.update s.disk a _) k = (s.inode j).ref s.disk k
    refine ref_congr (fun some' => Function.update_of_ne (fun same => notIndirect ?_) ..) k
    rw [← ref_indirect s j] at some' same
    exact (sound.distinct j ndirect i _ (by decide) below some' (same.trans isRef.symm)).2.symm
  have marks : ∀ c < sb.size, used sb (s.put a start m byte).disk c = used sb s.disk c :=
    fun c lt' => by
    have inMap := layout.map c lt'
    exact used_congr (Function.update_of_ne (by omega) ..)
  refine ⟨⟨fun c lt' => ?_, fun j k lt' => ?_, fun j k j' l lt' lt'' => ?_, fun j k need => ?_,
    sound.small⟩, refs, ?_⟩
  · rw [marks c lt', sound.marked c lt']
    exact or_congr_right (exists_congr fun j => exists_congr fun k => and_congr_right
      fun lt'' => by rw [refs j k lt''])
  · rw [refs j k lt']
    exact sound.range j k lt'
  · rw [refs j k lt', refs j' l lt'']
    exact sound.distinct j k j' l lt' lt''
  · rw [refs j _ (place_lt (sound.lt_maxfile need)).1]
    exact sound.covered j k need
  · intro j x lt' named other
    rw [State.byteAt, State.byteAt, refs j _ (place_lt lt').1]
    refine congrFun (Function.update_of_ne (fun same => other ?_) ..) _
    obtain ⟨eq, eq'⟩ := sound.distinct j _ i _ (place_lt lt').1 below named (same.trans isRef.symm)
    exact ⟨eq, place_injective eq'⟩

theorem Extends.byteAt (ext : Extends s t) (lt : x / bsize < maxfile)
    (named : s.ref j (place (x / bsize)) ≠ 0) : t.byteAt j x = s.byteAt j x := by
  rw [State.byteAt, ext.ref j _ (place_lt lt).1 named, ext.data j _ lt named]
  rfl

/-- Offsets in the block of `lo`. -/
theorem same_block (fits : m ≤ bsize - lo % bsize) (ge : lo ≤ x) (less : x < lo + m) :
    x / bsize = lo / bsize ∧ x % bsize = lo % bsize + (x - lo) := by
  have fits' : m ≤ 1024 - lo % 1024 := fits
  exact ⟨show x / 1024 = lo / 1024 by omega, show x % 1024 = lo % 1024 + (x - lo) by omega⟩

theorem same_block_iff (same : x / bsize = lo / bsize) :
    lo % bsize ≤ x % bsize ∧ x % bsize < lo % bsize + m ↔ lo ≤ x ∧ x < lo + m := by
  have same' : x / 1024 = lo / 1024 := same
  show lo % 1024 ≤ x % 1024 ∧ x % 1024 < lo % 1024 + m ↔ lo ≤ x ∧ x < lo + m
  omega

theorem div_lt_maxfile (lt : x < maxfile * bsize) : x / bsize < maxfile :=
  Nat.div_lt_of_lt_mul (by rwa [Nat.mul_comm])

/-! ### Writing -/

/-- The bytes of a file from `lo` to `hi` have been written, and perhaps some of those up to
`lim`. -/
structure Wrote (sb : Superblock) (nmeta : Nat) (s t : State Ino) (i : Ino) (byte : Nat → UInt8)
    (lo hi lim : Nat) : Prop where
  sound : Sound sb nmeta t
  ref : ∀ j k, k < places → s.ref j k ≠ 0 → t.ref j k = s.ref j k
  size : ∀ j, (t.inode j).size = (s.inode j).size
  range : lo ≤ hi ∧ hi ≤ lim ∧ lim ≤ maxfile * bsize
  written : ∀ x, lo ≤ x → x < hi → t.ref i (place (x / bsize)) ≠ 0 ∧ t.byteAt i x = byte x
  kept : ∀ j x, x / bsize < maxfile → s.ref j (place (x / bsize)) ≠ 0 →
    ¬ (j = i ∧ lo ≤ x ∧ x < hi) →
    t.byteAt j x = s.byteAt j x ∨ j = i ∧ hi ≤ x ∧ x < lim ∧ t.byteAt j x = byte x

/-- Nothing has been written yet. -/
theorem Extends.wrote (ext : Extends s t) (sound : Sound sb nmeta t) (i : Ino) (byte : Nat → UInt8)
    (le : lo ≤ lim) (fits : lim ≤ maxfile * bsize) : Wrote sb nmeta s t i byte lo lo lim :=
  ⟨sound, ext.ref, ext.size, ⟨le_rfl, le, fits⟩, fun x ge less => by omega,
    fun _ _ lt named _ => .inl (ext.byteAt lt named)⟩

/-- **Bytes from `lo` on are copied into the block they belong to.** -/
theorem Sound.chunk (layout : Layout sb nmeta) (sound : Sound sb nmeta s)
    (isRef : s.ref i (place (lo / bsize)) = a) (some_ : a ≠ 0) (below : lo < lim)
    (within : m ≤ bsize - lo % bsize) (atMost : lo + m ≤ lim) (fits : lim ≤ maxfile * bsize)
    (byte : Nat → UInt8) :
    Wrote sb nmeta s (s.put a (lo % bsize) m fun x => byte (lo + x)) i byte lo (lo + m) lim := by
  have lt : lo / bsize < maxfile := div_lt_maxfile (below.trans_le fits)
  obtain ⟨sound', written⟩ := sound.put layout lt isRef some_ (lo % bsize) m fun x => byte (lo + x)
  set t := s.put a (lo % bsize) m fun x => byte (lo + x)
  have inBlock : ∀ x, x / bsize = lo / bsize →
      t.byteAt i x = copyInto (s.disk a) (lo % bsize) m (fun x => byte (lo + x)) (x % bsize) := by
    intro x same
    rw [State.byteAt, same, written.ref i _ (place_lt lt).1, isRef]
    exact congrFun (Function.update_self ..) _
  refine ⟨sound', fun j k lt' _ => written.ref j k lt', fun _ => rfl,
    ⟨Nat.le_add_right .., atMost, fits⟩, fun x ge less => ?_, fun j x lt' named outside => .inl ?_⟩
  · obtain ⟨same, rest⟩ := same_block within ge less
    refine ⟨by rw [written.ref i _ (place_lt (same ▸ lt)).1, same, isRef]; exact some_, ?_⟩
    rw [inBlock x same, copyInto, if_pos ((same_block_iff same).mpr ⟨ge, less⟩), rest,
      Nat.add_sub_cancel_left, Nat.add_sub_cancel' ge]
  · by_cases here : j = i ∧ x / bsize = lo / bsize
    · obtain ⟨rfl, same⟩ := here
      rw [inBlock x same, copyInto,
        if_neg fun inside => outside ⟨rfl, (same_block_iff same).mp inside⟩, State.byteAt,
        same, isRef]
    · exact written.byte j x lt' named here

namespace Wrote

/-- The bytes of a copy that failed do not count. -/
theorem stop (wrote : Wrote sb nmeta s t i byte lo hi lim) :
    Wrote sb nmeta s t i byte lo lo lim := by
  have range := wrote.range
  refine ⟨wrote.sound, wrote.ref, wrote.size, ⟨le_rfl, by omega, range.2.2⟩,
    fun x ge less => by omega, fun j x lt named _ => ?_⟩
  by_cases inside : j = i ∧ lo ≤ x ∧ x < hi
  · obtain ⟨rfl, ge, less⟩ := inside
    exact .inr ⟨rfl, ge, by omega, (wrote.written x ge less).2⟩
  · obtain same | ⟨eq, beyond, less, isByte⟩ := wrote.kept j x lt named inside
    · exact .inl same
    · exact .inr ⟨eq, by omega, less, isByte⟩

/-- One write after another. -/
theorem trans {u : State Ino} (first : Wrote sb nmeta s t i byte lo mid lim)
    (second : Wrote sb nmeta t u i byte mid hi lim) :
    Wrote sb nmeta s u i byte lo hi lim := by
  have range := first.range
  have range' := second.range
  have named : ∀ j k, k < places → s.ref j k ≠ 0 → t.ref j k ≠ 0 :=
    fun j k lt some_ => (first.ref j k lt some_).trans_ne some_
  refine ⟨second.sound, fun j k lt some_ => (second.ref j k lt (named j k lt some_)).trans
    (first.ref j k lt some_),
    fun j => (second.size j).trans (first.size j), ⟨by omega, range'.2⟩, fun x ge less => ?_,
    fun j x lt some_ outside => ?_⟩
  · by_cases here : x < mid
    · have lt := div_lt_maxfile (show x < maxfile * bsize by omega)
      obtain ⟨some_, isByte⟩ := first.written x ge here
      refine ⟨(second.ref i _ (place_lt lt).1 some_).trans_ne some_, ?_⟩
      obtain later | ⟨_, beyond, _⟩ := second.kept i x lt some_ (by omega)
      · exact later.trans isByte
      · omega
    · exact second.written x (by omega) less
  · obtain later | other :=
      second.kept j x lt (named j _ (place_lt lt).1 some_) fun here =>
      outside ⟨here.1, by omega, here.2.2⟩
    · obtain same | ⟨eq, _, less, isByte⟩ :=
        first.kept j x lt some_ fun here => outside ⟨here.1, here.2.1, by omega⟩
      · exact .inl (later.trans same)
      · exact .inr ⟨eq, by by_contra before; exact outside ⟨eq, by omega, by omega⟩, less,
          later.trans isByte⟩
    · exact .inr other

end Wrote

/-- A write has stopped early because a copy failed or no block is free. -/
def Stopped (sb : Superblock) (src : Source) (t : State Ino) : Prop :=
  (∃ k, src.fails k ≠ none) ∨ ∀ b < sb.size, used sb t.disk b = true

/-- **The loop of `writei`**, by induction on its rounds. -/
theorem writeLoop_wrote (layout : Layout sb nmeta) (i : Ino) (src : Source)
    (fits : off + n ≤ maxfile * bsize) :
    ∀ (fuel : Nat) {s : State Ino} {tot : Nat}, Sound sb nmeta s → tot ≤ n → n < tot + fuel →
      ∃ t tot', s.writeLoop sb i src off n tot fuel = .ok (t, tot') ∧
        (tot' < n → Stopped sb src t) ∧
        Wrote sb nmeta s t i (fun x => src.byte (x - off)) (off + tot) (off + tot') (off + n)
  | 0, s, tot, _, le, enough => absurd enough (by omega)
  | fuel + 1, s, tot, sound, le, enough => by
    unfold State.writeLoop
    by_cases more : tot < n
    swap
    · rw [if_neg more]
      exact ⟨s, tot, rfl, fun less => absurd less more,
        (Extends.refl s).wrote sound i _ (by omega) fits⟩
    rw [if_pos more]
    obtain ⟨u, addr, found, mapped⟩ :=
      bmap_spec layout sound i (div_lt_maxfile (show off + tot < maxfile * bsize by omega))
    rw [found]
    dsimp only
    have looked :=
      mapped.ext.wrote mapped.sound i (fun x => src.byte (x - off))
        (show off + tot ≤ off + n by omega) fits
    by_cases none : addr = 0
    · rw [if_pos none]
      exact ⟨u, tot, rfl, fun _ => .inr (mapped.full none), looked⟩
    rw [if_neg none]
    have here : (fun x => src.byte (tot + x)) = fun x => src.byte (off + tot + x - off) :=
      funext fun x => congrArg src.byte (by omega)
    rw [here]
    have positive : 0 < bsize - (off + tot) % bsize := Nat.sub_pos_of_lt (Nat.mod_lt _ (by decide))
    have copied := fun m (le : m ≤ min (n - tot) (bsize - (off + tot) % bsize)) => looked.trans
      (mapped.sound.chunk layout (m := m) (mapped.isRef none) none (by omega) (by omega)
        (by omega) fits fun x => src.byte (x - off))
    cases fails : src.fails tot with
    | some k => exact ⟨_, tot, rfl, fun _ => .inl ⟨tot, by rw [fails]; nofun⟩,
      (copied _ (Nat.min_le_right ..)).stop⟩
    | none =>
      have chunk := copied _ le_rfl
      generalize isM : min (n - tot) (bsize - (off + tot) % bsize) = m at *
      obtain ⟨t, tot', returns, stopped, rest⟩ :=
        writeLoop_wrote layout i src fits fuel chunk.sound (show tot + m ≤ n by omega) (by omega)
      exact ⟨t, tot', returns, stopped, chunk.trans (Nat.add_assoc off tot m ▸ rest)⟩

/-! ### Reading -/

/-- **The loop of `readi`** changes nothing and copies the bytes of the file, by induction on its
rounds. -/
theorem readLoop_eq (layout : Layout sb nmeta) (sound : Sound sb nmeta s) (i : Ino)
    (copies : Nat → Bool) (inside : off + n ≤ (s.inode i).size) :
    ∀ (fuel : Nat) {tot : Nat}, tot ≤ n → n < tot + fuel →
    ∃ bytes value, s.readLoop sb i copies off n tot fuel = .ok (s, bytes, value) ∧
      ((∀ x, copies x = true) →
        bytes = (List.range (n - tot)).map (fun x => s.byteAt i (off + tot + x)) ∧ value = n)
  | 0, tot, le, enough => absurd enough (by omega)
  | fuel + 1, tot, le, enough => by
    unfold State.readLoop
    by_cases more : tot < n
    swap
    · obtain rfl : tot = n := by omega
      rw [if_neg more, Nat.sub_self]
      exact ⟨[], tot, rfl, fun _ => ⟨rfl, rfl⟩⟩
    rw [if_pos more]
    have need : (off + tot) / bsize * bsize < (s.inode i).size :=
      lt_of_le_of_lt (Nat.div_mul_le_self ..) (by omega)
    obtain ⟨u, addr, found, mapped⟩ := bmap_spec layout sound i (sound.lt_maxfile need)
    obtain ⟨isSame, isAddr⟩ := mapped.same (sound.covered i _ need)
    rw [found, isSame, isAddr]
    dsimp only
    rw [if_neg (sound.covered i _ need)]
    by_cases copied : copies tot = true
    swap
    · rw [if_neg copied]
      exact ⟨[], -1, rfl, fun all => absurd (all tot) copied⟩
    rw [if_pos copied]
    have positive : 0 < min (n - tot) (bsize - (off + tot) % bsize) :=
      lt_min (by omega) (Nat.sub_pos_of_lt (Nat.mod_lt _ (by decide)))
    have within : min (n - tot) (bsize - (off + tot) % bsize) ≤ bsize - (off + tot) % bsize :=
      Nat.min_le_right ..
    have atMost : min (n - tot) (bsize - (off + tot) % bsize) ≤ n - tot := Nat.min_le_left ..
    generalize min (n - tot) (bsize - (off + tot) % bsize) = m at *
    obtain ⟨bytes, value, returns, whole⟩ :=
      readLoop_eq layout sound i copies inside fuel (show tot + m ≤ n by omega) (by omega)
    rw [returns]
    refine ⟨_, value, rfl, fun all => ?_⟩
    obtain ⟨isBytes, isValue⟩ := whole all
    refine ⟨?_, isValue⟩
    rw [isBytes, show n - tot = m + (n - (tot + m)) by omega, List.range_add, List.map_append,
      List.map_map]
    refine congrArg₂ (· ++ ·) (List.map_congr_left fun x below => ?_) (List.map_congr_left
      fun x _ => ?_)
    · have less := List.mem_range.mp below
      obtain ⟨same, rest⟩ := same_block within (Nat.le_add_right (off + tot) x) (by omega)
      rw [State.byteAt, same, rest, Nat.add_sub_cancel_left]
    · show s.byteAt i (off + (tot + m) + x) = s.byteAt i (off + tot + (m + x))
      congr 1
      omega

/-! ### The calls -/

/-- A file has not changed. -/
def SameFile (s t : State Ino) (j : Ino) : Prop :=
  (t.inode j).size = (s.inode j).size ∧ ∀ x < (s.inode j).size, t.byteAt j x = s.byteAt j x

theorem Sound.named (sound : Sound sb nmeta s) (lt : x < (s.inode j).size) :
    x / bsize < maxfile ∧ s.ref j (place (x / bsize)) ≠ 0 := by
  have need : x / bsize * bsize < (s.inode j).size := lt_of_le_of_lt (Nat.div_mul_le_self ..) lt
  exact ⟨sound.lt_maxfile need, sound.covered j _ need⟩

/-- **`writei`** returns how many bytes it has written, keeps the invariant and leaves other files
alone. -/
theorem writei_spec (layout : Layout sb nmeta) (sound : Sound sb nmeta s) (i : Ino) (src : Source)
    (small : off < 2 ^ 32) (small' : n < 2 ^ 32) :
    ∃ t value, s.writei sb i src off n = .ok (t, value) ∧ Sound sb nmeta t ∧
      (∀ j ≠ i, SameFile s t j) ∧
      (off ≤ (s.inode i).size → off + n ≤ maxfile * bsize → ∃ tot : Nat, value = tot ∧ tot ≤ n ∧
        (tot < n → Stopped sb src t) ∧
        off + tot ≤ (t.inode i).size ∧ ∀ x, off ≤ x → x < off + tot →
        t.byteAt i x = src.byte (x - off)) := by
  have limit : maxfile * bsize < 2 ^ 32 := by decide
  unfold State.writei
  by_cases bad : (s.inode i).size < off ∨ (off + n) % 2 ^ 32 < off
  · rw [if_pos bad]
    refine ⟨s, -1, rfl, sound, fun _ _ => ⟨rfl, fun _ _ => rfl⟩, fun inside fits => ?_⟩
    rw [Nat.mod_eq_of_lt (by omega)] at bad
    omega
  rw [if_neg bad]
  by_cases large : maxfile * bsize < (off + n) % 2 ^ 32
  · rw [if_pos large]
    refine ⟨s, -1, rfl, sound, fun _ _ => ⟨rfl, fun _ _ => rfl⟩, fun inside fits => ?_⟩
    rw [Nat.mod_eq_of_lt (by omega)] at large
    omega
  rw [if_neg large]
  obtain ⟨inside, noWrap⟩ := not_or.mp bad
  have fits : off + n ≤ maxfile * bsize := by omega
  obtain ⟨u, tot, returns, stopped, wrote⟩ :=
    writeLoop_wrote layout i src fits (n + 1) sound (Nat.zero_le n) (by omega)
  rw [returns]
  refine ⟨_, tot, rfl, ?_⟩
  have range := wrote.range
  set t : State Ino :=
    { u with
      inode := Function.update u.inode i
        { u.inode i with size := max (s.inode i).size (off + tot) } } with isT
  have inodeAt : t.inode i = { u.inode i with size := max (s.inode i).size (off + tot) } :=
    Function.update_self ..
  have inodeOf : ∀ j ≠ i, t.inode j = u.inode j := fun j ne => Function.update_of_ne ne ..
  have refs : t.ref = u.ref := by
    funext j k
    show (t.inode j).ref u.disk k = (u.inode j).ref u.disk k
    by_cases eq : j = i
    · rw [eq, inodeAt]
      rfl
    · rw [inodeOf j eq]
  have bytes : t.byteAt = u.byteAt := by
    funext j x
    rw [State.byteAt, refs]
    rfl
  refine ⟨⟨?_, ?_, ?_, fun j bn need => ?_, fun j => ?_⟩, fun j ne => ⟨?_, fun x lt => ?_⟩,
    fun _ _ => ⟨tot, rfl, by omega, stopped, ?_⟩⟩
  · rw [refs]
    exact wrote.sound.marked
  · rw [refs]
    exact wrote.sound.range
  · rw [refs]
    exact wrote.sound.distinct
  · rw [refs]
    by_cases old : bn * bsize < (u.inode j).size
    · exact wrote.sound.covered j bn old
    · -- A block that the file did not need before is one that has been written.
      have eq : j = i := by
        by_contra ne
        rw [inodeOf j ne] at need
        exact old need
      rw [wrote.size, eq] at old
      rw [eq, inodeAt] at need
      have written := wrote.written (bn * bsize) (by omega) ((lt_max_iff.mp need).resolve_left old)
      rw [Nat.mul_div_cancel bn (by decide), ← eq] at written
      exact written.1
  · by_cases eq : j = i
    · rw [eq, inodeAt]
      exact max_le (sound.small i) (by omega)
    · rw [inodeOf j eq]
      exact wrote.sound.small j
  · rw [inodeOf j ne, wrote.size j]
  · obtain ⟨below, named⟩ := sound.named lt
    rw [bytes]
    exact (wrote.kept j x below named fun here => ne here.1).resolve_right fun here => ne here.1
  · rw [inodeAt, bytes]
    exact ⟨le_max_right .., fun x ge less => (wrote.written x ge less).2⟩

/-- **`readi`** changes nothing and gives the bytes of the file. -/
theorem readi_spec (layout : Layout sb nmeta) (sound : Sound sb nmeta s) (i : Ino)
    (copies : Nat → Bool) (small : off < 2 ^ 32) (small' : n < 2 ^ 32) :
    ∃ bytes value, s.readi sb i copies off n = .ok (s, bytes, value) ∧
      ((∀ x, copies x = true) → off + n ≤ (s.inode i).size →
      bytes = (List.range n).map (fun x => s.byteAt i (off + x)) ∧ value = n) := by
  have bound := sound.small i
  have limit : maxfile * bsize < 2 ^ 32 := by decide
  unfold State.readi
  by_cases bad : (s.inode i).size < off ∨ (off + n) % 2 ^ 32 < off
  · rw [if_pos bad]
    refine ⟨[], 0, rfl, fun _ inside => ?_⟩
    rw [Nat.mod_eq_of_lt (by omega)] at bad
    omega
  rw [if_neg bad]
  dsimp only
  obtain ⟨inside, noWrap⟩ := not_or.mp bad
  have cut :
      off + (if (s.inode i).size < (off + n) % 2 ^ 32 then (s.inode i).size - off else n) ≤
      (s.inode i).size := by
    split <;> omega
  obtain ⟨bytes, value, returns, whole⟩ := readLoop_eq layout sound i copies cut _ (Nat.zero_le _)
    (by rw [Nat.zero_add]; exact Nat.lt_succ_self _)
  refine ⟨bytes, value, returns, fun all within => ?_⟩
  rw [if_neg (by omega)] at whole
  exact whole all

/-! ### Sequences of calls -/

/-- A call, with arguments of type `uint`. -/
inductive Call (Ino : Type)
  | writei (i : Ino) (src : Source) (off n : UInt32)
  | readi (i : Ino) (copies : Nat → Bool) (off n : UInt32)
  | itrunc (i : Ino)

/-- The file that a call changes. -/
def Call.changes : Call Ino → Option Ino
  | .writei i _ _ _ => some i
  | .readi _ _ _ _ => none
  | .itrunc i => some i

def State.call (sb : Superblock) (s : State Ino) : Call Ino → Except Fault (State Ino)
  | .writei i src off n => (s.writei sb i src off.toNat n.toNat).map Prod.fst
  | .readi i copies off n => (s.readi sb i copies off.toNat n.toNat).map Prod.fst
  | .itrunc i => s.itrunc sb i

/-- One call. -/
theorem Sound.call (layout : Layout sb nmeta) (sound : Sound sb nmeta s) (c : Call Ino) :
    ∃ t, s.call sb c = .ok t ∧ Sound sb nmeta t ∧ ∀ j, c.changes ≠ some j → SameFile s t j := by
  cases c with
  | writei i src off n =>
    obtain ⟨t, value, returns, sound', others, _⟩ :=
      writei_spec layout sound i src off.toNat_lt n.toNat_lt
    refine ⟨t, ?_, sound', fun j ne => others j fun eq => ne (congrArg some eq.symm)⟩
    rw [State.call, returns]
    rfl
  | readi i copies off n =>
    obtain ⟨bytes, value, returns, _⟩ := readi_spec layout sound i copies off.toNat_lt n.toNat_lt
    refine ⟨s, ?_, sound, fun _ _ => ⟨rfl, fun _ _ => rfl⟩⟩
    rw [State.call, returns]
    rfl
  | itrunc i =>
    obtain ⟨t, returns, sound', inodes, refs, data⟩ := itrunc_spec layout sound i
    refine ⟨t, returns, sound', fun j other => ?_⟩
    have ne : j ≠ i := fun eq => other (congrArg some eq.symm)
    refine ⟨by rw [inodes j ne], fun x lt => ?_⟩
    obtain ⟨below, named⟩ := sound.named lt
    rw [State.byteAt, State.byteAt, refs j ne, data _ (sound.range j _ (place_lt below).1 named).1]

/-- No file has contents. -/
def empty (d : Disk) : State Ino := ⟨d, fun _ => ⟨0, fun _ => 0⟩⟩

/-- Forty blocks, of which the first three are not for contents. -/
def tiny : Superblock := ⟨40, 2⟩

end Fs

end Xv6Slab
