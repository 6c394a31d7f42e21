/-
**The buffer cache.**

`bcache` is a ring of `NBUF` buffers, most recently used first. `bget`, `brelse`, `bpin` and
`bunpin` each have one critical section under `bcache->lock`, and any number of processes run them
in any order. The sleep locks of the buffers only order the holders of one buffer among themselves:
leaving them out adds interleavings.

* `binit`, `bget`, `brelse`, `bpin`, `bunpin` — the code, with every link written as the code writes
  it.
* `Inv` — the ring, the labels and the reference counts; `inv_step` for one critical section.
* `consistent_of_run` — **in every state reached the list is a permutation of the buffers, labels
  are unique, `refcnt` counts holders and pins, and `bget` finds a buffer unless all are in use.**
-/

import Mathlib.Data.UInt
import Xv6Slab.Base
import Xv6Slab.Lib.Machine
import Xv6Slab.Lib.Ring

set_option linter.unusedSectionVars false

namespace Xv6Slab

namespace Bio

open Machine Rings

/-! ### The code -/

/-- `NBUF`. -/
abbrev nbuf : Nat := 30

/-- A `struct buf *`: null, `&bcache->head`, or `bcache->buf[i]`. -/
inductive Ptr
  | null
  | head
  | buf (i : Fin nbuf)
  deriving DecidableEq

/-- `struct buf`, without the sleep lock and the data. -/
structure Buf where
  valid : Bool
  dev : UInt32
  blockno : UInt32
  refcnt : UInt32
  prev : Ptr
  next : Ptr

/-- `struct bcache`. -/
structure Bcache where
  buf : Ptr → Buf

namespace Bcache

variable {c : Bcache} {a b p : Ptr}

def modify (c : Bcache) (p : Ptr) (change : Buf → Buf) : Bcache :=
  ⟨Function.update c.buf p (change (c.buf p))⟩

def setNext (c : Bcache) (p q : Ptr) : Bcache := c.modify p fun b => { b with next := q }

def setPrev (c : Bcache) (p q : Ptr) : Bcache := c.modify p fun b => { b with prev := q }

/-- The four writes that put a buffer behind the head. -/
def pushFront (c : Bcache) (b : Ptr) : Bcache :=
  let c := c.setNext b (c.buf .head).next
  let c := c.setPrev b .head
  let c := c.setPrev (c.buf .head).next b
  c.setNext .head b

/-- A `struct buf` after `memset`. -/
def zeroBuf : Buf := ⟨false, 0, 0, 0, .null, .null⟩

/-- One round of the loop of `binit`. -/
def initBuf (c : Bcache) (i : Fin nbuf) : Bcache :=
  (c.modify (.buf i) fun _ => zeroBuf).pushFront (.buf i)

/-- The cache before the loop of `binit`: the head points to itself. -/
def initHead : Bcache :=
  let c : Bcache := ⟨fun _ => zeroBuf⟩
  let c := c.setPrev .head .head
  c.setNext .head .head

/-- `binit`. -/
def binit : Bcache := (List.finRange nbuf).foldl initBuf initHead

/-- The critical section of `bget`: the buffer that it will return. -/
def bget (c : Bcache) (dev blockno : UInt32) : Except Fault (Bcache × Ptr) :=
  match search (fun p => (c.buf p).next) .head
      (fun p => (c.buf p).dev == dev && (c.buf p).blockno == blockno) (nbuf + 1)
      (c.buf .head).next with
  | none => .error .hang
  | some (some b) => .ok (c.modify b fun x => { x with refcnt := x.refcnt + 1 }, b)
  | some none =>
    match search (fun p => (c.buf p).prev) .head (fun p => (c.buf p).refcnt == 0) (nbuf + 1)
        (c.buf .head).prev with
    | none => .error .hang
    | some (some b) =>
      .ok (c.modify b fun x =>
        { x with dev := dev, blockno := blockno, valid := false, refcnt := 1 }, b)
    | some none => .error (.panic "bget: no buffers")

/-- The critical section of `brelse`. -/
def brelse (c : Bcache) (b : Ptr) : Bcache :=
  let c := c.modify b fun x => { x with refcnt := x.refcnt - 1 }
  if (c.buf b).refcnt = 0 then
    let c := c.setPrev (c.buf b).next (c.buf b).prev
    let c := c.setNext (c.buf b).prev (c.buf b).next
    c.pushFront b
  else c

/-- `bpin`. -/
def bpin (c : Bcache) (b : Ptr) : Bcache := c.modify b fun x => { x with refcnt := x.refcnt + 1 }

/-- `bunpin`. -/
def bunpin (c : Bcache) (b : Ptr) : Bcache := c.modify b fun x => { x with refcnt := x.refcnt - 1 }

/-! ### Fields -/

def next (c : Bcache) (p : Ptr) : Ptr := (c.buf p).next

def prev (c : Bcache) (p : Ptr) : Ptr := (c.buf p).prev

def refcnt (c : Bcache) (p : Ptr) : UInt32 := (c.buf p).refcnt

/-- The block that a buffer holds. -/
def label (c : Bcache) (p : Ptr) : UInt32 × UInt32 := ((c.buf p).dev, (c.buf p).blockno)

section Fields

variable {β : Type} {change : Buf → Buf}

/-- What a change writes to one field. -/
theorem field_modify (field : Buf → β) (c : Bcache) (p : Ptr) (change : Buf → Buf) :
    (fun q => field ((c.modify p change).buf q)) =
      Function.update (fun q => field (c.buf q)) p (field (change (c.buf p))) := by
  funext q
  by_cases eq : q = p
  · subst eq
    simp only [modify, Function.update_self]
  · simp only [modify, Function.update_of_ne eq]

/-- A change that leaves a field alone. -/
theorem field_modify_same (field : Buf → β) (c : Bcache) (p : Ptr)
    (same : ∀ b, field (change b) = field b) :
    (fun q => field ((c.modify p change).buf q)) = fun q => field (c.buf q) := by
  rw [field_modify, same, Function.update_eq_self]

theorem label_modify_same (c : Bcache) (p : Ptr)
    (same : ∀ b, (change b).dev = b.dev ∧ (change b).blockno = b.blockno) :
    (c.modify p change).label = c.label :=
  field_modify_same (fun b => (b.dev, b.blockno)) c p fun b => Prod.ext (same b).1 (same b).2

@[simp] theorem next_setNext (c : Bcache) (p q : Ptr) :
    (c.setNext p q).next = Function.update c.next p q :=
  field_modify Buf.next c p _

@[simp] theorem prev_setNext (c : Bcache) (p q : Ptr) : (c.setNext p q).prev = c.prev :=
  field_modify_same Buf.prev c p fun _ => rfl

@[simp] theorem refcnt_setNext (c : Bcache) (p q : Ptr) : (c.setNext p q).refcnt = c.refcnt :=
  field_modify_same Buf.refcnt c p fun _ => rfl

@[simp] theorem label_setNext (c : Bcache) (p q : Ptr) : (c.setNext p q).label = c.label :=
  label_modify_same c p fun _ => ⟨rfl, rfl⟩

@[simp] theorem next_setPrev (c : Bcache) (p q : Ptr) : (c.setPrev p q).next = c.next :=
  field_modify_same Buf.next c p fun _ => rfl

@[simp] theorem prev_setPrev (c : Bcache) (p q : Ptr) :
    (c.setPrev p q).prev = Function.update c.prev p q :=
  field_modify Buf.prev c p _

@[simp] theorem refcnt_setPrev (c : Bcache) (p q : Ptr) : (c.setPrev p q).refcnt = c.refcnt :=
  field_modify_same Buf.refcnt c p fun _ => rfl

@[simp] theorem label_setPrev (c : Bcache) (p q : Ptr) : (c.setPrev p q).label = c.label :=
  label_modify_same c p fun _ => ⟨rfl, rfl⟩

end Fields

/-! ### The list -/

/-- The buffers, in list order. -/
def Holds (c : Bcache) (l : List Ptr) : Prop := Ring c.next c.prev .head l

theorem pushFront_refcnt (c : Bcache) (b : Ptr) : (c.pushFront b).refcnt = c.refcnt := by
  unfold pushFront
  simp only [refcnt_setNext, refcnt_setPrev]

theorem pushFront_label (c : Bcache) (b : Ptr) : (c.pushFront b).label = c.label := by
  unfold pushFront
  simp only [label_setNext, label_setPrev]

theorem Holds.pushFront {l : List Ptr} (holds : c.Holds l) (fresh : b ∉ Ptr.head :: l) :
    (c.pushFront b).Holds (b :: l) := by
  have ne : Ptr.head ≠ b := fun eq => fresh (eq ▸ List.mem_cons_self)
  have ring := Ring.pushFront holds fresh
  -- The third write reads `head.next` after the first one, which wrote elsewhere.
  have read : (((c.setNext b (c.next .head)).setPrev b .head).buf .head).next = c.next .head := by
    show ((c.setNext b (c.next .head)).setPrev b .head).next .head = _
    rw [next_setPrev, next_setNext, Function.update_of_ne ne]
  have forward :
      (c.pushFront b).next = Function.update (Function.update c.next b (c.next .head)) .head b := by
    unfold Bcache.pushFront
    simp only [next_setNext, next_setPrev]
    rfl
  have back :
      (c.pushFront b).prev = Function.update (Function.update c.prev b .head) (c.next .head) b := by
    show (((c.setNext b (c.next .head)).setPrev b .head).setPrev
      (((c.setNext b (c.next .head)).setPrev b .head).buf .head).next b |>.setNext .head b).prev = _
    rw [read]
    simp only [prev_setNext, prev_setPrev]
  unfold Holds
  rw [forward, back]
  exact ring

/-- The two writes of `brelse` that take a buffer out of the list. -/
theorem Holds.unlink {l : List Ptr} (holds : c.Holds l) (member : b ∈ l) :
    ((c.setPrev (c.next b) (c.prev b)).setNext (c.prev b) (c.next b)).Holds (l.erase b) := by
  unfold Holds
  simp only [next_setNext, next_setPrev, prev_setNext, prev_setPrev]
  exact Ring.unlink holds member

/-- A change to a buffer that keeps its links. -/
theorem Holds.modify {l : List Ptr} (holds : c.Holds l) (p : Ptr) {change : Buf → Buf}
    (next : ∀ b, (change b).next = b.next) (prev : ∀ b, (change b).prev = b.prev) :
    (c.modify p change).Holds l := by
  have forward : (c.modify p change).next = c.next := field_modify_same Buf.next c p next
  have back : (c.modify p change).prev = c.prev := field_modify_same Buf.prev c p prev
  unfold Holds
  rw [forward, back]
  exact holds

/-- Moving a buffer to the front, as `brelse` does. -/
theorem Holds.moveFront {l : List Ptr} (holds : c.Holds l) (member : b ∈ l) :
    ((((c.setPrev (c.buf b).next (c.buf b).prev).setNext
      ((c.setPrev (c.buf b).next (c.buf b).prev).buf b).prev
      ((c.setPrev (c.buf b).next (c.buf b).prev).buf b).next)).pushFront b).Holds
      (b :: l.erase b) := by
  have readNext : ((c.setPrev (c.next b) (c.prev b)).buf b).next = c.next b :=
    congrFun (next_setPrev c (c.next b) (c.prev b)) b
  have readPrev : ((c.setPrev (c.next b) (c.prev b)).buf b).prev = c.prev b := by
    show (c.setPrev (c.next b) (c.prev b)).prev b = _
    rw [prev_setPrev, Function.update_of_ne (Ring.next_ne holds member).symm]
  have unlinked := holds.unlink member
  have fresh : b ∉ Ptr.head :: l.erase b := by
    have distinct := (List.nodup_cons.mp holds.nodup)
    rw [List.mem_cons, distinct.2.mem_erase_iff, not_or]
    exact ⟨fun eq => distinct.1 (eq ▸ member), fun both => both.1 rfl⟩
  show (((c.setPrev (c.next b) (c.prev b)).setNext ((c.setPrev (c.next b) (c.prev b)).buf b).prev
    ((c.setPrev (c.next b) (c.prev b)).buf b).next).pushFront b).Holds _
  rw [readNext, readPrev]
  exact unlinked.pushFront fresh

/-- **The critical section of `brelse`.** -/
theorem brelse_spec {l : List Ptr} (holds : c.Holds l) (member : b ∈ l) :
    (∃ l', l'.Perm l ∧ (c.brelse b).Holds l') ∧ (c.brelse b).label = c.label ∧
      (c.brelse b).refcnt = Function.update c.refcnt b (c.refcnt b - 1) := by
  have counted : (c.modify b fun x => { x with refcnt := x.refcnt - 1 }).refcnt =
      Function.update c.refcnt b (c.refcnt b - 1) := field_modify Buf.refcnt c b _
  have labelled : (c.modify b fun x => { x with refcnt := x.refcnt - 1 }).label = c.label :=
    label_modify_same c b fun _ => ⟨rfl, rfl⟩
  have held : (c.modify b fun x => { x with refcnt := x.refcnt - 1 }).Holds l :=
    holds.modify b (fun _ => rfl) fun _ => rfl
  unfold brelse
  simp only
  split_ifs with unused
  · refine ⟨⟨b :: l.erase b, (List.perm_cons_erase member).symm, held.moveFront member⟩, ?_, ?_⟩
    · rw [pushFront_label, label_setNext, label_setPrev, labelled]
    · rw [pushFront_refcnt, refcnt_setNext, refcnt_setPrev, counted]
  · exact ⟨⟨l, .refl l, held⟩, labelled, counted⟩

/-- A change to `refcnt` alone. -/
theorem count_spec {l : List Ptr} (holds : c.Holds l) (b : Ptr) (count : UInt32 → UInt32) :
    (c.modify b fun x => { x with refcnt := count x.refcnt }).Holds l ∧
      (c.modify b fun x => { x with refcnt := count x.refcnt }).label = c.label ∧
      (c.modify b fun x => { x with refcnt := count x.refcnt }).refcnt =
        Function.update c.refcnt b (count (c.refcnt b)) :=
  ⟨holds.modify b (fun _ => rfl) fun _ => rfl, label_modify_same c b fun _ => ⟨rfl, rfl⟩,
    field_modify Buf.refcnt c b _⟩

/-- A buffer given to a block. -/
theorem relabel_spec {l : List Ptr} (holds : c.Holds l) (b : Ptr) (dev blockno : UInt32) :
    (c.modify b fun x =>
      { x with dev := dev, blockno := blockno, valid := false, refcnt := 1 }).Holds l ∧
      (c.modify b fun x =>
        { x with dev := dev, blockno := blockno, valid := false, refcnt := 1 }).label =
        Function.update c.label b (dev, blockno) ∧
      (c.modify b fun x =>
        { x with dev := dev, blockno := blockno, valid := false, refcnt := 1 }).refcnt =
        Function.update c.refcnt b 1 :=
  ⟨holds.modify b (fun _ => rfl) fun _ => rfl, field_modify (fun x => (x.dev, x.blockno)) c b _,
    field_modify Buf.refcnt c b _⟩

/-- All buffers. -/
def buffers : List Ptr := (List.finRange nbuf).map Ptr.buf

theorem mem_buffers {p : Ptr} : p ∈ buffers ↔ ∃ i, p = .buf i := by
  unfold buffers
  rw [List.mem_map]
  constructor
  · rintro ⟨i, _, rfl⟩
    exact ⟨i, rfl⟩
  · rintro ⟨i, rfl⟩
    exact ⟨i, List.mem_finRange i, rfl⟩

/-- The critical section of `bget`: the buffer with the label is counted once more; if there is
none, the unused buffer closest to the end of the list is labelled; if there is none either, the
kernel panics. -/
theorem bget_cases {l : List Ptr} (holds : c.Holds l) (all : l.Perm buffers)
    (dev blockno : UInt32) : (∃ b ∈ buffers, c.label b = (dev, blockno) ∧
      c.bget dev blockno = .ok (c.modify b fun x => { x with refcnt := x.refcnt + 1 }, b)) ∨
    (∀ b ∈ buffers, c.label b ≠ (dev, blockno)) ∧
      ((∃ b ∈ buffers, c.refcnt b = 0 ∧ c.bget dev blockno =
          .ok (c.modify b fun x =>
            { x with dev := dev, blockno := blockno, valid := false, refcnt := 1 }, b)) ∨
        (∀ b ∈ buffers, c.refcnt b ≠ 0) ∧
        c.bget dev blockno = .error (.panic "bget: no buffers")) := by
  have enough : l.length < nbuf + 1 := by
    rw [all.length_eq, buffers, List.length_map, List.length_finRange]
    exact Nat.lt_succ_self _
  have first :=
    Ring.search_eq holds (fun p => (c.buf p).dev == dev && (c.buf p).blockno == blockno) enough
  have second := Ring.search_eq (Ring.reverse holds) (fun p => (c.buf p).refcnt == 0)
    (show l.reverse.length < nbuf + 1 by rw [List.length_reverse]; exact enough)
  have isLabel : ∀ p, ((c.buf p).dev == dev && (c.buf p).blockno == blockno) = true ↔
      c.label p = (dev, blockno) := by
    intro p
    rw [Bool.and_eq_true, beq_iff_eq, beq_iff_eq]
    exact Prod.mk_inj.symm
  unfold bget
  change search (fun p => (c.buf p).next) .head _ (nbuf + 1) (c.buf .head).next = _ at first
  change search (fun p => (c.buf p).prev) .head _ (nbuf + 1) (c.buf .head).prev = _ at second
  rw [first, second]
  cases hit : l.find? fun p => (c.buf p).dev == dev && (c.buf p).blockno == blockno with
  | some b =>
    have found := List.find?_some hit
    exact Or.inl ⟨b, all.mem_iff.mp (List.mem_of_find?_eq_some hit), (isLabel b).mp found, rfl⟩
  | none =>
    refine Or.inr ⟨?_, ?_⟩
    · intro b member labelled
      exact List.find?_eq_none.mp hit b (all.mem_iff.mpr member) ((isLabel b).mpr labelled)
    · cases free : l.reverse.find? fun p => (c.buf p).refcnt == 0 with
      | some b =>
        refine Or.inl ⟨b, all.mem_iff.mp (List.mem_reverse.mp (List.mem_of_find?_eq_some free)), ?_,
          rfl⟩
        have unused := List.find?_some free
        rw [beq_iff_eq] at unused
        exact unused
      | none =>
        refine Or.inr ⟨?_, rfl⟩
        intro b member unused
        refine List.find?_eq_none.mp free b (List.mem_reverse.mpr (all.mem_iff.mpr member)) ?_
        rw [beq_iff_eq]
        exact unused

section Init

theorem Holds.initBuf {l : List Ptr} (holds : c.Holds l) {i : Fin nbuf} (fresh : Ptr.buf i ∉ l) :
    (c.initBuf i).Holds (.buf i :: l) := by
  have outside : Ptr.buf i ∉ Ptr.head :: l := by
    rw [List.mem_cons, not_or]
    exact ⟨by simp, fresh⟩
  have same : ∀ x ∈ Ptr.head :: l, (c.modify (.buf i) fun _ => zeroBuf).buf x = c.buf x := by
    intro x member
    refine Function.update_of_ne ?_ ..
    rintro rfl
    exact outside member
  refine Holds.pushFront ?_ outside
  exact Ring.congr holds (fun x member => congrArg Buf.next (same x member))
    fun x member => congrArg Buf.prev (same x member)

/-- The loop of `binit` puts the buffers in front one by one. -/
theorem holds_initLoop (is : List (Fin nbuf)) (distinct : is.Nodup) :
    ∀ {c : Bcache} {l : List Ptr}, c.Holds l →
    (∀ i ∈ is, Ptr.buf i ∉ l) → (is.foldl initBuf c).Holds ((is.map Ptr.buf).reverse ++ l) := by
  induction is with
  | nil => exact fun holds _ => holds
  | cons i is ih =>
    intro c l holds fresh
    obtain ⟨notIn, distinct⟩ := List.nodup_cons.mp distinct
    rw [List.foldl_cons, List.map_cons, List.reverse_cons, List.append_assoc]
    refine ih distinct (holds.initBuf (fresh i List.mem_cons_self)) ?_
    intro j member inside
    rcases List.mem_cons.mp inside with same | before
    · exact notIn (Ptr.buf.inj same ▸ member)
    · exact fresh j (List.mem_cons_of_mem _ member) before

theorem unused_initLoop (is : List (Fin nbuf)) : ∀ {c : Bcache}, c.refcnt = 0 → c.label = 0 →
    (is.foldl initBuf c).refcnt = 0 ∧ (is.foldl initBuf c).label = 0 := by
  induction is with
  | nil => exact fun refcnt label => ⟨refcnt, label⟩
  | cons i is ih =>
    intro c refcnt label
    refine ih ?_ ?_
    · have counted :
          (c.modify (.buf i) fun _ => zeroBuf).refcnt = Function.update c.refcnt (.buf i) 0 :=
        field_modify Buf.refcnt c _ _
      rw [initBuf, pushFront_refcnt, counted, refcnt]
      exact Function.update_eq_self (.buf i) (0 : Ptr → UInt32)
    · have labelled :
          (c.modify (.buf i) fun _ => zeroBuf).label = Function.update c.label (.buf i) 0 :=
        field_modify (fun b => (b.dev, b.blockno)) c _ _
      rw [initBuf, pushFront_label, labelled, label]
      exact Function.update_eq_self (.buf i) (0 : Ptr → UInt32 × UInt32)

/-- **After `binit`** every buffer is on the list, unused and unlabelled. -/
theorem binit_spec : (∃ l, l.Perm buffers ∧ binit.Holds l) ∧ binit.refcnt = 0 ∧
    binit.label = 0 := by
  have empty : initHead.Holds [] := by
    refine Ring.single ?_ ?_
    · rw [initHead, next_setNext, Function.update_self]
    · rw [initHead, prev_setNext, prev_setPrev, Function.update_self]
  have refcnt : initHead.refcnt = 0 := by
    rw [initHead, refcnt_setNext, refcnt_setPrev]
    rfl
  have label : initHead.label = 0 := by
    rw [initHead, label_setNext, label_setPrev]
    rfl
  unfold binit buffers
  have distinct := List.nodup_finRange nbuf
  generalize List.finRange nbuf = is at distinct
  refine ⟨⟨(is.map Ptr.buf).reverse ++ [], ?_, holds_initLoop is distinct empty fun _ _ =>
    List.not_mem_nil⟩, unused_initLoop is refcnt label⟩
  rw [List.append_nil]
  exact List.reverse_perm _

end Init

end Bcache

/-! ### Processes -/

open Bcache

variable {Proc : Type} [DecidableEq Proc]

/-- A `bget` that has not been matched by a `brelse`: who called it, for which block, and what it
returned. -/
structure Ref (Proc : Type) where
  proc : Proc
  dev : UInt32
  blockno : UInt32
  buf : Ptr
  deriving DecidableEq

/-- The cache, and the holders and pins that are outstanding. -/
structure State (Proc : Type) where
  cache : Bcache
  refs : List (Ref Proc)
  pins : List Ptr

/-- The critical sections. -/
inductive Event (Proc : Type)
  | bget (p : Proc) (dev blockno : UInt32)
  | brelse (r : Ref Proc)
  | bpin (i : Fin nbuf)
  | bunpin (i : Fin nbuf)

/-- One critical section. A `brelse` matches a `bget`, a `bunpin` a `bpin`. -/
def step (s : State Proc) : Event Proc → Option (State Proc)
  | .bget p dev blockno =>
    match s.cache.bget dev blockno with
    | .ok (cache, b) => some { s with cache := cache, refs := ⟨p, dev, blockno, b⟩ :: s.refs }
    | .error _ => none
  | .brelse r =>
    if r ∈ s.refs then some { s with cache := s.cache.brelse r.buf, refs := s.refs.erase r }
      else none
  | .bpin i => some { s with cache := s.cache.bpin (.buf i), pins := .buf i :: s.pins }
  | .bunpin i =>
    if Ptr.buf i ∈ s.pins then
      some { s with cache := s.cache.bunpin (.buf i), pins := s.pins.erase (.buf i) }
    else none

/-- The state after `binit`. -/
def start (Proc : Type) : State Proc := ⟨binit, [], []⟩

/-- Block devices are not numbered `0`. -/
def RealDev (_ : State Proc) : Event Proc → Prop
  | .bget _ dev _ => dev ≠ 0
  | _ => True

instance (s : State Proc) : ∀ e, Decidable (RealDev s e)
  | .bget _ dev _ => inferInstanceAs (Decidable (dev ≠ 0))
  | .brelse _ | .bpin _ | .bunpin _ => isTrue trivial

/-- Outstanding holders and pins of a buffer. -/
def State.users (s : State Proc) (b : Ptr) : Nat :=
  s.refs.countP (fun r => r.buf = b) + s.pins.count b

/-- The invariant of the buffer cache. -/
structure Inv (s : State Proc) : Prop where
  list : ∃ l, l.Perm buffers ∧ s.cache.Holds l
  unique : ∀ a ∈ buffers, ∀ b ∈ buffers, (s.cache.label a).1 ≠ 0 →
      s.cache.label a = s.cache.label b → a = b
  counted : ∀ b ∈ buffers, s.cache.refcnt b = UInt32.ofNat (s.users b)
  bufs : ∀ r ∈ s.refs, r.buf ∈ buffers

theorem inv_start : Inv (start Proc) := by
  obtain ⟨list, refcnt, label⟩ := binit_spec
  refine ⟨list, ?_, ?_, fun r member => absurd member List.not_mem_nil⟩
  · intro a _ b _ real
    refine absurd ?_ real
    show (binit.label a).1 = 0
    rw [label]
    rfl
  · intro b _
    show binit.refcnt b = _
    rw [refcnt]
    rfl

section Step

variable {s s' : State Proc} {e : Event Proc} {b : Ptr}

theorem ofNat_succ (n : Nat) : UInt32.ofNat (n + 1) = UInt32.ofNat n + 1 := UInt32.ofNat_add n 1

theorem ofNat_pred {n : Nat} (pos : 0 < n) : UInt32.ofNat (n - 1) = UInt32.ofNat n - 1 := by
  obtain ⟨m, rfl⟩ := Nat.exists_eq_succ_of_ne_zero pos.ne'
  rw [Nat.succ_eq_add_one, ofNat_succ, Nat.add_sub_cancel, UInt32.add_sub_cancel]

/-- One more holder. -/
theorem users_hold (s : State Proc) (cache : Bcache) (r : Ref Proc) (q : Ptr) :
    State.users { s with cache := cache, refs := r :: s.refs } q = s.users q + if r.buf =
    q then 1 else 0 := by
  unfold State.users
  rw [List.countP_cons]
  simp only [decide_eq_true_eq]
  omega

theorem users_pos {r : Ref Proc} (member : r ∈ s.refs) : 0 < s.users r.buf := by
  have some_ : 0 < s.refs.countP fun t => t.buf = r.buf :=
    List.countP_pos_iff.mpr ⟨r, member, by simp⟩
  exact Nat.add_pos_left some_ _

/-- One holder less. -/
theorem users_release (s : State Proc) (cache : Bcache) {r : Ref Proc} (member : r ∈ s.refs)
    (q : Ptr) : State.users { s with cache := cache, refs := s.refs.erase r } q =
      s.users q - if r.buf = q then 1 else 0 := by
  unfold State.users
  simp only [List.countP_erase, member, true_and, decide_eq_true_eq]
  by_cases eq : r.buf = q
  · have some_ : 0 < s.refs.countP fun r => r.buf = q :=
      List.countP_pos_iff.mpr ⟨r, member, by simpa using eq⟩
    rw [if_pos eq]
    omega
  · rw [if_neg eq]
    omega

/-- One more pin. -/
theorem users_pin (s : State Proc) (cache : Bcache) (b q : Ptr) :
    State.users { s with cache := cache, pins := b :: s.pins } q = s.users q + if b =
    q then 1 else 0 := by
  unfold State.users
  rw [List.count_cons, Nat.add_assoc]
  simp only [beq_iff_eq]

/-- One pin less. -/
theorem users_unpin (s : State Proc) (cache : Bcache) {b : Ptr} (member : b ∈ s.pins) (q : Ptr) :
    State.users { s with cache := cache, pins := s.pins.erase b } q = s.users q - if b =
    q then 1 else 0 := by
  unfold State.users
  rw [List.count_erase]
  simp only [beq_iff_eq]
  by_cases eq : b = q
  · have some_ : 0 < s.pins.count q := List.count_pos_iff.mpr (eq ▸ member)
    rw [if_pos eq]
    omega
  · rw [if_neg eq]
    omega

/-- A critical section that counts the users of one buffer anew, and labels none. -/
structure Recounts (s s' : State Proc) : Prop where
  list : ∃ l, l.Perm buffers ∧ s'.cache.Holds l
  label : s'.cache.label = s.cache.label
  counted : ∀ q ∈ buffers, s'.cache.refcnt q = UInt32.ofNat (s'.users q)
  refs : ∀ r ∈ s'.refs, r ∈ s.refs ∨ r.buf ∈ buffers ∧ s.cache.label r.buf = (r.dev, r.blockno)

/-- A critical section that gives an unused buffer to a block that is in none. -/
structure Relabels (s s' : State Proc) (p : Proc) (dev blockno : UInt32) (b : Ptr) : Prop where
  isBuf : b ∈ buffers
  unused : s.cache.refcnt b = 0
  fresh : ∀ a ∈ buffers, s.cache.label a ≠ (dev, blockno)
  list : ∃ l, l.Perm buffers ∧ s'.cache.Holds l
  label : s'.cache.label = Function.update s.cache.label b (dev, blockno)
  counted : ∀ q ∈ buffers, s'.cache.refcnt q = UInt32.ofNat (s'.users q)
  refs : s'.refs = ⟨p, dev, blockno, b⟩ :: s.refs

/-- The counts after one of them was written. -/
theorem Inv.counted_update (inv : Inv s) {value : UInt32}
    (written : s'.cache.refcnt = Function.update s.cache.refcnt b value)
    (here : value = UInt32.ofNat (s'.users b)) (other : ∀ q, q ≠ b → s'.users q = s.users q) :
    ∀ q ∈ buffers, s'.cache.refcnt q = UInt32.ofNat (s'.users q) := by
  intro q member
  rw [written]
  by_cases eq : q = b
  · rw [eq, Function.update_self, here]
  · rw [Function.update_of_ne eq, inv.counted q member, other q eq]

/-- **What a critical section can do.** -/
theorem Inv.step_cases (inv : Inv s) (taken : step s e = some s') :
    Recounts s s' ∨ ∃ p dev blockno b, e = .bget p dev blockno ∧ Relabels s s' p dev blockno b := by
  obtain ⟨l, all, holds⟩ := inv.list
  cases e with
  | bget p dev blockno =>
    rcases bget_cases holds all dev blockno with ⟨b, member, labelled, call⟩ |
      ⟨fresh, ⟨b, member, unused, call⟩ | ⟨_, call⟩⟩
    · simp only [step, call, Option.some.injEq] at taken
      subst taken
      obtain ⟨held, sameLabel, counts⟩ := count_spec holds b (· + 1)
      refine Or.inl ⟨⟨l, all, held⟩, sameLabel, inv.counted_update counts ?_ ?_, ?_⟩
      · rw [users_hold, if_pos rfl, ofNat_succ, inv.counted b member]
      · intro q ne
        rw [users_hold, if_neg (Ne.symm ne), Nat.add_zero]
      · intro r inside
        rcases List.mem_cons.mp inside with rfl | before
        · exact Or.inr ⟨member, labelled⟩
        · exact Or.inl before
    · simp only [step, call, Option.some.injEq] at taken
      subst taken
      obtain ⟨held, newLabel, counts⟩ := relabel_spec holds b dev blockno
      refine Or.inr ⟨p, dev, blockno, b, rfl, member, unused, fresh, ⟨l, all, held⟩, newLabel,
        inv.counted_update counts ?_ ?_, rfl⟩
      · rw [users_hold, if_pos rfl, ofNat_succ, ← inv.counted b member, unused]
        rfl
      · intro q ne
        rw [users_hold, if_neg (Ne.symm ne), Nat.add_zero]
    · simp only [step, call] at taken
      cases taken
  | brelse r =>
    rw [step, Option.ite_none_right_eq_some, Option.some.injEq] at taken
    obtain ⟨member, rfl⟩ := taken
    have isBuf := inv.bufs r member
    obtain ⟨⟨l', perm, held⟩, sameLabel, counts⟩ := brelse_spec holds (all.mem_iff.mpr isBuf)
    refine Or.inl ⟨⟨l', perm.trans all, held⟩, sameLabel, inv.counted_update counts ?_ ?_,
      fun t inside => Or.inl (List.mem_of_mem_erase inside)⟩
    · rw [users_release s _ member, if_pos rfl, ofNat_pred (users_pos member), inv.counted _ isBuf]
    · intro q ne
      rw [users_release s _ member, if_neg (Ne.symm ne), Nat.sub_zero]
  | bpin i =>
    rw [step, Option.some.injEq] at taken
    subst taken
    obtain ⟨held, sameLabel, counts⟩ := count_spec holds (.buf i) (· + 1)
    refine Or.inl ⟨⟨l, all, held⟩, sameLabel, inv.counted_update counts ?_ ?_,
      fun r inside => Or.inl inside⟩
    · rw [users_pin, if_pos rfl, ofNat_succ, inv.counted _ (mem_buffers.mpr ⟨i, rfl⟩)]
    · intro q ne
      rw [users_pin, if_neg (Ne.symm ne), Nat.add_zero]
  | bunpin i =>
    rw [step, Option.ite_none_right_eq_some, Option.some.injEq] at taken
    obtain ⟨member, rfl⟩ := taken
    obtain ⟨held, sameLabel, counts⟩ := count_spec holds (.buf i) (· - 1)
    have some_ : 0 < s.users (.buf i) := Nat.add_pos_right _ (List.count_pos_iff.mpr member)
    refine Or.inl ⟨⟨l, all, held⟩, sameLabel, inv.counted_update counts ?_ ?_,
      fun r inside => Or.inl inside⟩
    · rw [users_unpin s _ member, if_pos rfl, ofNat_pred some_,
        inv.counted _ (mem_buffers.mpr ⟨i, rfl⟩)]
    · intro q ne
      rw [users_unpin s _ member, if_neg (Ne.symm ne), Nat.sub_zero]

/-- **One critical section keeps the invariant.** -/
theorem Inv.step (inv : Inv s) (real : RealDev s e) (taken : step s e = some s') : Inv s' := by
  rcases inv.step_cases taken with recounts | ⟨p, dev, blockno, b, rfl, relabels⟩
  · refine ⟨recounts.list, ?_, recounts.counted, ?_⟩
    · rw [recounts.label]
      exact inv.unique
    · intro r member
      rcases recounts.refs r member with before | ⟨isBuf, _⟩
      · exact inv.bufs r before
      · exact isBuf
  · refine ⟨relabels.list, ?_, relabels.counted, ?_⟩
    · -- The new label was on no buffer, so only the buffer itself carries it now.
      intro a isBuf d isBuf' real' same
      rw [relabels.label] at same real'
      by_cases eq : a = b <;> by_cases eq' : d = b
      · rw [eq, eq']
      · rw [eq, Function.update_self, Function.update_of_ne eq'] at same
        exact absurd same.symm (relabels.fresh d isBuf')
      · rw [eq', Function.update_self, Function.update_of_ne eq] at same
        exact absurd same (relabels.fresh a isBuf)
      · rw [Function.update_of_ne eq, Function.update_of_ne eq'] at same
        rw [Function.update_of_ne eq] at real'
        exact inv.unique a isBuf d isBuf' real' same
    · intro r member
      rw [relabels.refs] at member
      rcases List.mem_cons.mp member with rfl | before
      · exact relabels.isBuf
      · exact inv.bufs r before

/-- A buffer in use is not given to another block. -/
theorem Inv.label_step (inv : Inv s) (taken : Bio.step s e = some s')
    (inUse : s.cache.refcnt b ≠ 0) : s'.cache.label b = s.cache.label b := by
  rcases inv.step_cases taken with recounts | ⟨p, dev, blockno, a, rfl, relabels⟩
  · rw [recounts.label]
  · rw [relabels.label, Function.update_of_ne]
    rintro rfl
    exact inUse relabels.unused

/-- No count has wrapped around. -/
def Few (s : State Proc) : Prop := ∀ b ∈ buffers, s.users b < 2 ^ 32

/-- Every holder has the block that it asked for. -/
def Labelled (s : State Proc) : Prop := ∀ r ∈ s.refs, s.cache.label r.buf = (r.dev, r.blockno)

theorem Inv.inUse (inv : Inv s) (few : Few s) {r : Ref Proc} (member : r ∈ s.refs) :
    s.cache.refcnt r.buf ≠ 0 := by
  have isBuf := inv.bufs r member
  have some_ := users_pos member
  rw [inv.counted _ isBuf]
  intro zero
  have value : (UInt32.ofNat (s.users r.buf)).toNat = s.users r.buf :=
    UInt32.toNat_ofNat_of_lt (few _ isBuf)
  rw [zero] at value
  exact some_.ne value

theorem Inv.labelled_step (inv : Inv s) (few : Few s) (labelled : Labelled s)
    (taken : Bio.step s e = some s') :
    Labelled s' := by
  intro r member
  rcases inv.step_cases taken with recounts | ⟨p, dev, blockno, a, rfl, relabels⟩
  · rw [recounts.label]
    rcases recounts.refs r member with before | ⟨_, here⟩
    · exact labelled r before
    · exact here
  · have kept : ∀ t ∈ s.refs, s'.cache.label t.buf = (t.dev, t.blockno) := fun t before =>
      (inv.label_step taken (inv.inUse few before)).trans (labelled t before)
    rw [relabels.refs] at member
    rcases List.mem_cons.mp member with rfl | before
    · rw [relabels.label, Function.update_self]
    · exact kept r before

end Step

/-! ### Every state reached -/

section Runs

variable {s : State Proc} {events : List (Event Proc)}

/-- The buffer cache in order. -/
structure Consistent (s : State Proc) : Prop where
  /-- The list is a permutation of the buffers, and `prev` is inverse to `next`. -/
  list : ∃ l, l.Perm buffers ∧ s.cache.Holds l ∧
    ∀ p ∈ Ptr.head :: l, s.cache.prev (s.cache.next p) = p ∧ s.cache.next (s.cache.prev p) = p
  /-- No two buffers hold the same block. -/
  unique : ∀ dev blockno, dev ≠ 0 → ∀ a ∈ buffers, ∀ b ∈ buffers, s.cache.label a = (dev, blockno) →
    s.cache.label b = (dev, blockno) → a = b
  /-- `refcnt`, an `uint`, is the number of holders and pins. -/
  counted : ∀ b ∈ buffers, s.cache.refcnt b = UInt32.ofNat (s.users b)
  /-- No critical section relabels a buffer with `refcnt > 0`. -/
  kept : ∀ e s', step s e = some s' → ∀ b ∈ buffers, 0 < s.cache.refcnt b →
      s'.cache.label b = s.cache.label b
  /-- `bget` finds a buffer for the block, unless all are in use and none holds it. -/
  found : ∀ dev blockno, dev ≠ 0 →
    (∃ cache b, s.cache.bget dev blockno = .ok (cache, b) ∧ b ∈ buffers ∧
      cache.label b = (dev, blockno)) ∨
    s.cache.bget dev blockno = .error (.panic "bget: no buffers") ∧
      (∀ b ∈ buffers, 0 < s.cache.refcnt b) ∧ ∀ b ∈ buffers, s.cache.label b ≠ (dev, blockno)

theorem Inv.consistent (inv : Inv s) : Consistent s := by
  obtain ⟨l, all, holds⟩ := inv.list
  refine ⟨⟨l, all, holds, ?_⟩, ?_, inv.counted, ?_, ?_⟩
  · intro p member
    refine ⟨Rings.Ring.inverse holds member, Rings.Ring.inverse (Ring.reverse holds) ?_⟩
    rw [List.mem_cons, List.mem_reverse]
    exact List.mem_cons.mp member
  · intro dev blockno real a isBuf b isBuf' left right
    refine inv.unique a isBuf b isBuf' ?_ (left.trans right.symm)
    rw [left]
    exact real
  · intro e s' taken b _ inUse
    exact inv.label_step taken (UInt32.pos_iff_ne_zero.mp inUse)
  · intro dev blockno _
    rcases bget_cases holds all dev blockno with ⟨b, member, labelled, call⟩ |
      ⟨fresh, ⟨b, member, unused, call⟩ | ⟨busy, call⟩⟩
    · refine Or.inl ⟨_, b, call, member, ?_⟩
      rw [(count_spec holds b (· + 1)).2.1]
      exact labelled
    · refine Or.inl ⟨_, b, call, member, ?_⟩
      rw [(relabel_spec holds b dev blockno).2.1, Function.update_self]
    · exact Or.inr ⟨call, fun b member => UInt32.pos_iff_ne_zero.mpr (busy b member), fresh⟩

/-- **The buffer cache is in order in every state reached from `binit`**, whatever processes call,
with real devices. While fewer than `2 ^ 32` users of a buffer are outstanding, every holder has the
block it asked for. -/
theorem consistent_of_run (real : Along step RealDev (start Proc) events)
    (reached : run step (start Proc) events = some s) :
    Consistent s ∧ (Along step (fun s _ => Few s) (start Proc) events → Labelled s) := by
  refine ⟨(inv_of_run (fun _ _ _ inv real taken => Inv.step inv real taken) events inv_start real
    reached).consistent, fun few => ?_⟩
  have keeps : ∀ (s : State Proc) e s', Inv s ∧ Labelled s → RealDev s e ∧ Few s →
      step s e = some s' → Inv s' ∧ Labelled s' := fun s e s' both guard taken =>
    ⟨both.1.step guard.1 taken, both.1.labelled_step guard.2 both.2 taken⟩
  have none : Labelled (start Proc) := fun r member => absurd member List.not_mem_nil
  exact (inv_of_run keeps events ⟨inv_start, none⟩ (real.and few) reached).2

/-- Two processes use block 7 of device 1, one of them pins it. -/
def shareBlock : List (Event Bool) :=
  [.bget false 1 7, .bget true 1 7, .bpin 0, .brelse ⟨false, 1, 7, .buf 0⟩, .bget false 1 8]

theorem consistent_of_run_shareBlock :
    ∃ s, run step (start Bool) shareBlock = some s ∧ Consistent s := by
  have real : Along step RealDev (start Bool) shareBlock := by decide +kernel
  obtain ⟨s, reached⟩ := Option.isSome_iff_exists.mp
    (show (run step (start Bool) shareBlock).isSome = true by decide +kernel)
  exact ⟨s, reached, (consistent_of_run real reached).1⟩

end Runs

end Bio

end Xv6Slab
