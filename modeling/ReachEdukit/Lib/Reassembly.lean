import ReachEdukit.Lib.Memory
import ReachEdukit.Lib.Run

/-!
# Reassembly of flagged fragments

A frame that does not fit one packet travels as a *train* of fragments. Each fragment carries its
place in the frame as a flag, its part of the bytes and the total length of the frame; it does not
carry an offset, so the receiver keeps one and trusts that every fragment arrived.

`accept` is such a receiver: it copies the part to the running offset, refuses a fragment that
would take the frame past its total, and hands the buffer out on the last fragment. The buffer has
a capacity; a copy past it breaks the store, which then accepts nothing any more.

## Main definitions

* `Reassembly.Fragment`, `Reassembly.Store`, `Reassembly.accept`
* `Reassembly.Holds` — the store has a given prefix of a frame
* `Reassembly.IsTrain`, `Reassembly.IsTail` — a frame cut into fragments, with and without a
  fragment that opens it
* `Reassembly.Encodes`, `Reassembly.InOrder` — the pieces of a sequence of frames
* `Reassembly.InStep` — what a receiver knows about the frame that is being sent

## Main results

* `Reassembly.outs_train` — a train hands out its frame, once, on its last fragment
* `Reassembly.outs_tail` — so does a train without an opening, from a store between frames
* `Reassembly.accept_out_of_refused` — a last fragment that is refused hands out nothing
* `Reassembly.InStep.accept` — a receiver that joins anywhere stays in step with the sender
-/

namespace Reassembly

open Memory

variable {α : Type*}

/-- The place of a fragment in its frame. -/
inductive Flag
  /-- Neither the first nor the last. -/
  | middle
  /-- The last one. -/
  | last
  /-- The first of several. -/
  | start
  /-- The only one. -/
  | whole
  deriving DecidableEq, Repr

/-- A fragment of a frame of length `total`. -/
structure Fragment (α : Type*) where
  /-- Its place. -/
  flag : Flag
  /-- Its bytes. -/
  part : List α
  /-- The length of the whole frame. -/
  total : ℕ

/-- A buffer that is being filled. -/
structure Store (α : Type*) where
  /-- The buffer. -/
  data : ℕ → α
  /-- Where the next part goes. -/
  offset : ℕ
  /-- A copy has left the buffer. -/
  broken : Bool

/-- Copy `bs` to `off` in a buffer of the given capacity, then move the offset to `next`. -/
def Store.put (capacity : ℕ) (s : Store α) (off : ℕ) (bs : List α) (next : ℕ) : Store α :=
  if off + bs.length ≤ capacity then ⟨blit s.data off bs, next, s.broken⟩
  else { s with broken := true }

/-- The frame a store hands out, if it is not broken. -/
def Store.handOut (s : Store α) (total : ℕ) : Option (List α) :=
  if s.broken then none else some (window s.data 0 total)

/-- One fragment. -/
def accept (capacity : ℕ) (s : Store α) (f : Fragment α) : Store α × Option (List α) :=
  if s.broken then (s, none)
  else
    match f.flag with
    | .start =>
      if capacity < f.total then (s, none) else (s.put capacity 0 f.part f.part.length, none)
    | .middle =>
      if f.total < s.offset + f.part.length then ({ s with offset := 0 }, none)
      else (s.put capacity s.offset f.part (s.offset + f.part.length), none)
    | .last =>
      if f.total < s.offset + f.part.length then ({ s with offset := 0 }, none)
      else
        let s' := s.put capacity s.offset f.part 0
        (s', s'.handOut f.total)
    | .whole =>
      let s' := s.put capacity 0 f.part s.offset
      (s', s'.handOut f.total)

/-- The store has the prefix `pre` of a frame, and the next part goes behind it. -/
structure Holds (s : Store α) (pre : List α) : Prop where
  /-- The next part goes behind the prefix. -/
  offset : s.offset = pre.length
  /-- The buffer starts with it. -/
  data : window s.data 0 pre.length = pre
  /-- The store takes fragments. -/
  sane : s.broken = false

variable {capacity : ℕ} {s : Store α}

/-- Between frames the store has the empty prefix. -/
theorem holds_nil (hs : s.broken = false) (h : s.offset = 0) : Holds s [] := ⟨h, rfl, hs⟩

theorem accept_start {p : List α} {n : ℕ} (hs : s.broken = false) (hn : n ≤ capacity)
    (hp : p.length ≤ n) :
    Holds (accept capacity s ⟨.start, p, n⟩).1 p ∧ (accept capacity s ⟨.start, p, n⟩).2 = none := by
  have hput : s.put capacity 0 p p.length = ⟨blit s.data 0 p, p.length, s.broken⟩ := by
    rw [Store.put, if_pos (by omega)]
  have ha : accept capacity s ⟨.start, p, n⟩ = (s.put capacity 0 p p.length, none) := by
    simp only [accept, hs, Bool.false_eq_true, if_false, if_neg (Nat.not_lt.mpr hn)]
  rw [ha, hput]
  exact ⟨⟨rfl, window_blit_self s.data 0 p, hs⟩, rfl⟩

theorem accept_middle {pre p : List α} {n : ℕ} (h : Holds s pre) (hn : n ≤ capacity)
    (hp : pre.length + p.length ≤ n) :
    Holds (accept capacity s ⟨.middle, p, n⟩).1 (pre ++ p) ∧
      (accept capacity s ⟨.middle, p, n⟩).2 = none := by
  have hput : s.put capacity s.offset p (s.offset + p.length) =
      ⟨blit s.data s.offset p, s.offset + p.length, s.broken⟩ := by
    rw [Store.put, if_pos (by rw [h.offset]; omega)]
  have ha : accept capacity s ⟨.middle, p, n⟩ =
      (s.put capacity s.offset p (s.offset + p.length), none) := by
    simp only [accept, h.sane, Bool.false_eq_true, if_false, h.offset,
      if_neg (Nat.not_lt.mpr hp)]
  rw [ha, hput, h.offset]
  refine ⟨⟨by simp, ?_, h.sane⟩, rfl⟩
  rw [List.length_append]
  exact window_blit_append h.data

theorem accept_last {pre p : List α} {n : ℕ} (h : Holds s pre) (hn : n ≤ capacity)
    (hp : pre.length + p.length = n) :
    (accept capacity s ⟨.last, p, n⟩).2 = some (pre ++ p) ∧
      (accept capacity s ⟨.last, p, n⟩).1.offset = 0 ∧
      (accept capacity s ⟨.last, p, n⟩).1.broken = false := by
  have hput : s.put capacity s.offset p 0 = ⟨blit s.data s.offset p, 0, s.broken⟩ := by
    rw [Store.put, if_pos (by rw [h.offset]; omega)]
  have ha : accept capacity s ⟨.last, p, n⟩ =
      (s.put capacity s.offset p 0, (s.put capacity s.offset p 0).handOut n) := by
    simp only [accept, h.sane, Bool.false_eq_true, if_false, h.offset,
      if_neg (Nat.not_lt.mpr hp.le)]
  rw [ha, hput, h.offset, Store.handOut, if_neg (by simp [h.sane]), ← hp]
  exact ⟨congrArg some (window_blit_append h.data), rfl, h.sane⟩

theorem accept_whole {p : List α} (hs : s.broken = false) (hn : p.length ≤ capacity) :
    (accept capacity s ⟨.whole, p, p.length⟩).2 = some p ∧
      (accept capacity s ⟨.whole, p, p.length⟩).1.offset = s.offset ∧
      (accept capacity s ⟨.whole, p, p.length⟩).1.broken = false := by
  have hput : s.put capacity 0 p s.offset = ⟨blit s.data 0 p, s.offset, s.broken⟩ := by
    rw [Store.put, if_pos (by omega)]
  have ha : accept capacity s ⟨.whole, p, p.length⟩ =
      (s.put capacity 0 p s.offset, (s.put capacity 0 p s.offset).handOut p.length) := by
    simp only [accept, hs, Bool.false_eq_true, if_false]
  rw [ha, hput, Store.handOut, if_neg (by simp [hs])]
  exact ⟨congrArg some (window_blit_self s.data 0 p), rfl, hs⟩

theorem Store.put_offset_le {off next : ℕ} {bs : List α} (hs : s.offset ≤ capacity)
    (hnext : next ≤ off + bs.length) : (s.put capacity off bs next).offset ≤ capacity := by
  rw [Store.put]
  split
  · exact hnext.trans ‹_›
  · exact hs

/-- The offset never leaves the buffer. -/
theorem accept_offset_le (hs : s.offset ≤ capacity) (f : Fragment α) :
    (accept capacity s f).1.offset ≤ capacity := by
  rw [accept]
  split
  · exact hs
  · split
    · split
      · exact hs
      · exact Store.put_offset_le hs (by omega)
    · split
      · exact Nat.zero_le _
      · exact Store.put_offset_le hs le_rfl
    · split
      · exact Nat.zero_le _
      · exact Store.put_offset_le hs (Nat.zero_le _)
    · rw [Store.put]
      split <;> exact hs

/-! ### Trains -/

/-- The fragments of a frame behind its first bytes `pre`: any number of middle ones, and the last
one. -/
def IsTail (pre frame : List α) (fs : List (Fragment α)) : Prop :=
  ∃ (mids : List (List α)) (p : List α), pre ++ mids.flatten ++ p = frame ∧
    fs = mids.map (⟨.middle, ·, frame.length⟩) ++ [⟨.last, p, frame.length⟩]

/-- The fragments of a frame: one for the whole, or one that opens it and the rest. -/
def IsTrain (frame : List α) (fs : List (Fragment α)) : Prop :=
  fs = [⟨.whole, frame, frame.length⟩] ∨
    ∃ p fs', fs = ⟨.start, p, frame.length⟩ :: fs' ∧ IsTail p frame fs'

/-- A middle fragment in front of a tail. -/
theorem IsTail.cons {pre p frame : List α} {fs : List (Fragment α)}
    (h : IsTail (pre ++ p) frame fs) : IsTail pre frame (⟨.middle, p, frame.length⟩ :: fs) := by
  obtain ⟨mids, q, hframe, rfl⟩ := h
  exact ⟨p :: mids, q, by simpa using hframe, rfl⟩

/-- A tail hands out the frame once, on its last fragment. -/
theorem outs_tail {pre frame : List α} {fs : List (Fragment α)} (h : Holds s pre)
    (hf : IsTail pre frame fs) (hn : frame.length ≤ capacity) :
    Run.outs (accept capacity) s fs = List.replicate (fs.length - 1) none ++ [some frame] ∧
      (Run.final (accept capacity) s fs).offset = 0 ∧
      (Run.final (accept capacity) s fs).broken = false := by
  obtain ⟨mids, p, hframe, rfl⟩ := hf
  induction mids generalizing s pre with
  | nil =>
    have hlen : pre.length + p.length = frame.length := by
      rw [← hframe]
      simp
    obtain ⟨hout, hoff, hb⟩ := accept_last h hn hlen
    refine ⟨?_, by simpa using hoff, by simpa using hb⟩
    simpa [hout] using hframe
  | cons m mids ih =>
    have hle : pre.length + m.length ≤ frame.length := by
      rw [← hframe]
      simp only [List.flatten_cons, List.length_append]
      omega
    obtain ⟨hholds, hout⟩ := accept_middle h hn hle
    obtain ⟨houts, hoff, hb⟩ := ih hholds (by rw [← hframe]; simp)
    simp only [List.map_cons, List.cons_append, Run.outs_cons, Run.final_cons, hout]
    refine ⟨?_, hoff, hb⟩
    rw [houts]
    simp [List.replicate_succ]

/-- **A train hands out its frame**, once, on its last fragment, whatever the store held. -/
theorem outs_train {frame : List α} {fs : List (Fragment α)} (hs : s.broken = false)
    (hf : IsTrain frame fs) (hn : frame.length ≤ capacity) :
    Run.outs (accept capacity) s fs = List.replicate (fs.length - 1) none ++ [some frame] ∧
      (s.offset = 0 → (Run.final (accept capacity) s fs).offset = 0) ∧
      (Run.final (accept capacity) s fs).broken = false := by
  rcases hf with rfl | ⟨p, fs', rfl, htail⟩
  · obtain ⟨hout, hoff, hb⟩ := accept_whole hs hn
    exact ⟨by simp [hout], fun h => hoff.trans h, hb⟩
  · have hp : p.length ≤ frame.length := by
      obtain ⟨mids, q, hframe, -⟩ := htail
      rw [← hframe]
      simp only [List.length_append]
      omega
    obtain ⟨hholds, hout⟩ := accept_start hs hn hp
    obtain ⟨houts, hoff, hb⟩ := outs_tail hholds htail hn
    obtain ⟨mids, q, -, rfl⟩ := htail
    rw [Run.outs_cons, hout, houts, Run.final_cons]
    refine ⟨?_, fun _ => hoff, hb⟩
    simp [List.replicate_succ]

/-- A fragment that is not the last or the only one hands out nothing, nor does a last one that
would take the frame past its total. -/
theorem accept_out_of_refused {f : Fragment α} (hw : f.flag ≠ .whole)
    (hl : f.flag = .last → f.total < s.offset + f.part.length) :
    (accept capacity s f).2 = none := by
  rw [accept]
  split
  · rfl
  · split
    · split <;> rfl
    · split <;> rfl
    · rename_i hflag
      rw [if_pos (hl hflag)]
    · rename_i hflag
      exact absurd hflag hw

/-! ### Joining a stream

A sender cuts one frame after the other, and a receiver may join anywhere. The position is how far
the sender is in its frame; the receiver is in step when it knows where frames end, has the
beginning of the current frame if it was there, and does not go past its buffer. -/

/-- A fragment, with the frame it is cut from. -/
structure Piece (α : Type*) where
  /-- Its place. -/
  flag : Flag
  /-- Its bytes. -/
  part : List α
  /-- The frame. -/
  frame : List α

/-- What is sent of a piece. -/
def Piece.fragment (x : Piece α) : Fragment α := ⟨x.flag, x.part, x.frame.length⟩

/-- How much has been sent of which frame; `none` between frames. -/
abbrev Position (α : Type*) := Option (List α × List α)

/-- The position behind a piece. -/
def Position.after (pos : Position α) (x : Piece α) : Position α :=
  match x.flag with
  | .start => some (x.part, x.frame)
  | .middle => pos.map fun p => (p.1 ++ x.part, p.2)
  | .last => none
  | .whole => none

/-- The piece comes next. -/
def Position.Next (pos : Position α) (x : Piece α) : Prop :=
  match x.flag with
  | .start => pos = none ∧ x.part <+: x.frame
  | .middle => ∃ pre, pos = some (pre, x.frame) ∧ pre ++ x.part <+: x.frame
  | .last => ∃ pre, pos = some (pre, x.frame) ∧ pre ++ x.part = x.frame
  | .whole => pos = none ∧ x.part = x.frame

/-- The pieces come one after the other. -/
def InOrder : Position α → List (Piece α) → Prop
  | _, [] => True
  | pos, x :: xs => pos.Next x ∧ InOrder (pos.after x) xs

/-- The pieces are those of a sequence of frames, as far as it has been sent. -/
def Encodes (xs : List (Piece α)) : Prop :=
  ∃ trains : List (List α × List (Fragment α)), (∀ t ∈ trains, IsTrain t.1 t.2) ∧
    xs <+: trains.flatMap fun t => t.2.map fun f => ⟨f.flag, f.part, t.1⟩

theorem InOrder.of_prefix {pos : Position α} {xs ys : List (Piece α)} (h : InOrder pos ys)
    (hle : xs <+: ys) : InOrder pos xs := by
  induction xs generalizing pos ys with
  | nil => trivial
  | cons x xs ih =>
    obtain ⟨zs, rfl⟩ := hle
    exact ⟨h.1, ih h.2 ⟨zs, rfl⟩⟩

/-- The pieces of a tail, and what comes behind it. -/
theorem inOrder_tail {pre frame : List α} {fs : List (Fragment α)} {rest : List (Piece α)}
    (h : IsTail pre frame fs) (hrest : InOrder none rest) :
    InOrder (some (pre, frame)) ((fs.map fun f => ⟨f.flag, f.part, frame⟩) ++ rest) := by
  obtain ⟨mids, p, hframe, rfl⟩ := h
  induction mids generalizing pre with
  | nil => exact ⟨⟨pre, rfl, by simpa using hframe⟩, hrest⟩
  | cons m mids ih =>
    refine ⟨⟨pre, rfl, ?_⟩, ?_⟩
    · exact ⟨mids.flatten ++ p, by simpa using hframe⟩
    · exact ih (by simpa using hframe)

/-- The pieces of a train, and what comes behind it. -/
theorem inOrder_train {frame : List α} {fs : List (Fragment α)} {rest : List (Piece α)}
    (h : IsTrain frame fs) (hrest : InOrder none rest) :
    InOrder none ((fs.map fun f => ⟨f.flag, f.part, frame⟩) ++ rest) := by
  rcases h with rfl | ⟨p, fs', rfl, htail⟩
  · exact ⟨⟨rfl, rfl⟩, hrest⟩
  · refine ⟨⟨rfl, ?_⟩, inOrder_tail htail hrest⟩
    obtain ⟨mids, q, hframe, -⟩ := htail
    exact ⟨mids.flatten ++ q, by simpa using hframe⟩

theorem Encodes.inOrder {xs : List (Piece α)} (h : Encodes xs) : InOrder none xs := by
  obtain ⟨trains, htrains, hle⟩ := h
  refine InOrder.of_prefix ?_ hle
  clear hle
  induction trains with
  | nil => trivial
  | cons t trains ih =>
    rw [List.flatMap_cons]
    exact inOrder_train (htrains t (List.mem_cons_self ..))
      (ih fun t ht => htrains t (List.mem_cons_of_mem _ ht))

/-- Whether the beginning of the current frame is there behind a piece, when `begun` says whether it
is there before. -/
def begunAfter (x : Piece α) (begun : Bool) : Bool :=
  match x.flag with
  | .start => true
  | .middle => begun
  | .last => false
  | .whole => false

/-- The receiver knows as much as it can about a sender at `pos`. -/
structure InStep (capacity : ℕ) (s : Store α) (begun : Bool) (pos : Position α) : Prop where
  /-- No copy has left the buffer. -/
  sane : s.broken = false
  /-- The offset has not either. -/
  low : s.offset ≤ capacity
  /-- Between frames nothing is begun. -/
  between : pos = none → s.offset = 0 ∧ begun = false
  /-- Within one the offset is not ahead. -/
  behind : ∀ pre frame, pos = some (pre, frame) → s.offset ≤ pre.length
  /-- A frame that is begun is there so far, if it fits. -/
  holds : ∀ pre frame, pos = some (pre, frame) → begun → frame.length ≤ capacity → Holds s pre

/-- A piece that a receiver can deal with: no last one without a beginning, none of a frame that
completes past the buffer, and no middle one that goes past it. -/
structure Orderly (capacity offset : ℕ) (begun : Bool) (x : Piece α) : Prop where
  /-- A middle one. -/
  middle : x.flag = .middle → offset + x.part.length ≤ capacity
  /-- The last one. -/
  last : x.flag = .last → begun ∧ x.frame.length ≤ capacity
  /-- The only one. -/
  whole : x.flag = .whole → x.frame.length ≤ capacity

/-- What is handed out on a piece: the frame, on the last one of a frame that is begun and on the
only one, and otherwise nothing. -/
def handedOut (begun : Bool) (x : Piece α) : Option (List α) :=
  match x.flag with
  | .start => none
  | .middle => none
  | .last => if begun then some x.frame else none
  | .whole => some x.frame

/-- A receiver that has just joined. -/
theorem inStep_join {begun : Bool} {pos : Position α} (hs : s.broken = false) (h : s.offset = 0)
    (hbegun : begun = false) : InStep capacity s begun pos where
  sane := hs
  low := by rw [h]; exact Nat.zero_le _
  between _ := ⟨h, hbegun⟩
  behind pre frame _ := by rw [h]; exact Nat.zero_le _
  holds pre frame _ hb := by rw [hbegun] at hb; exact absurd hb (by simp)

/-- The part of the next piece ends in its frame. -/
theorem InStep.offset_add_le {begun : Bool} {pos : Position α} {x : Piece α}
    (h : InStep capacity s begun pos) (hx : pos.Next x) :
    s.offset + x.part.length ≤ x.frame.length := by
  obtain ⟨flag, p, frame⟩ := x
  rcases flag with _ | _ | _ | _
  · obtain ⟨pre, rfl, hpre⟩ := hx
    have hle := List.IsPrefix.length_le hpre
    rw [List.length_append] at hle
    exact (Nat.add_le_add_right (h.behind pre frame rfl) _).trans hle
  · obtain ⟨pre, rfl, hframe⟩ := hx
    have hle := congrArg List.length hframe
    rw [List.length_append] at hle
    exact (Nat.add_le_add_right (h.behind pre frame rfl) _).trans hle.le
  · rw [(h.between hx.1).1, Nat.zero_add]
    exact List.IsPrefix.length_le hx.2
  · rw [(h.between hx.1).1, Nat.zero_add]
    exact (congrArg List.length hx.2).le

theorem InOrder.drop {pos : Position α} {xs ys : List (Piece α)} (h : InOrder pos (xs ++ ys)) :
    InOrder (xs.foldl Position.after pos) ys := by
  induction xs generalizing pos with
  | nil => exact h
  | cons x xs ih => exact ih h.2

/-- A piece that begins a frame: one that is too long is not begun. -/
theorem InStep.accept_start {begun : Bool} {pos : Position α} {p frame : List α}
    (h : InStep capacity s begun pos) (hx : pos.Next ⟨.start, p, frame⟩) :
    InStep capacity (accept capacity s ⟨.start, p, frame.length⟩).1 true (some (p, frame)) ∧
      (accept capacity s ⟨.start, p, frame.length⟩).2 = none := by
  obtain ⟨hpos, hp⟩ := hx
  have hlen : p.length ≤ frame.length := List.IsPrefix.length_le hp
  by_cases hn : frame.length ≤ capacity
  · obtain ⟨hholds, hout⟩ := Reassembly.accept_start h.sane hn hlen
    have hoff := hholds.offset
    refine ⟨⟨hholds.sane, hoff.trans_le (hlen.trans hn), by simp, ?_, ?_⟩, hout⟩
    · rintro pre frame' ⟨⟩
      exact hoff.le
    · rintro pre frame' ⟨⟩ - -
      exact hholds
  · have ha : Reassembly.accept capacity s ⟨.start, p, frame.length⟩ = (s, none) := by
      simp only [Reassembly.accept, h.sane, Bool.false_eq_true, if_false,
        if_pos (Nat.not_le.mp hn)]
    rw [ha]
    refine ⟨⟨h.sane, h.low, by simp, ?_, ?_⟩, rfl⟩
    · rintro pre frame' ⟨⟩
      rw [(h.between hpos).1]
      exact Nat.zero_le _
    · rintro pre frame' ⟨⟩ - hle
      exact absurd hle hn

/-- A piece in the middle of a frame goes to the offset, whether the frame is begun or not. -/
theorem InStep.accept_middle {begun : Bool} {pos : Position α} {p frame : List α}
    (h : InStep capacity s begun pos) (hx : pos.Next ⟨.middle, p, frame⟩)
    (hroom : s.offset + p.length ≤ capacity) :
    InStep capacity (accept capacity s ⟨.middle, p, frame.length⟩).1 begun
        (pos.after ⟨.middle, p, frame⟩) ∧
      (accept capacity s ⟨.middle, p, frame.length⟩).2 = none := by
  obtain ⟨pre, rfl, hpre⟩ := hx
  have hbehind : s.offset ≤ pre.length := h.behind pre frame rfl
  have hlen : pre.length + p.length ≤ frame.length := by
    rw [← List.length_append]
    exact List.IsPrefix.length_le hpre
  have ha : accept capacity s ⟨.middle, p, frame.length⟩ =
      (⟨blit s.data s.offset p, s.offset + p.length, s.broken⟩, none) := by
    simp only [accept, h.sane, Bool.false_eq_true, if_false, Store.put, if_pos hroom]
    rw [if_neg (by omega)]
  refine ⟨⟨?_, ?_, ?_, ?_, ?_⟩, by rw [ha]⟩
  · rw [ha]
    exact h.sane
  · rw [ha]
    exact hroom
  · exact fun hnone => absurd hnone (by simp [Position.after])
  · rintro pre' frame' ⟨⟩
    rw [ha, List.length_append]
    exact Nat.add_le_add_right hbehind _
  · rintro pre' frame' ⟨⟩ hb hn
    exact (Reassembly.accept_middle (h.holds pre frame rfl hb hn) hn hlen).1

/-- The last piece of a frame that is begun. -/
theorem InStep.accept_last {begun : Bool} {pos : Position α} {p frame : List α}
    (h : InStep capacity s begun pos) (hx : pos.Next ⟨.last, p, frame⟩) (hb : begun)
    (hn : frame.length ≤ capacity) :
    InStep capacity (accept capacity s ⟨.last, p, frame.length⟩).1 false none ∧
      (accept capacity s ⟨.last, p, frame.length⟩).2 = some frame := by
  obtain ⟨pre, rfl, hframe⟩ := hx
  change pre ++ p = frame at hframe
  have hlen : pre.length + p.length = frame.length := by
    rw [← hframe, List.length_append]
  obtain ⟨hout, hoff, hsane⟩ := Reassembly.accept_last (h.holds pre frame rfl hb hn) hn hlen
  exact ⟨inStep_join hsane hoff rfl, by rw [hout, hframe]⟩

/-- **A receiver stays in step** through an orderly piece, and hands out what it should. -/
theorem InStep.accept {begun : Bool} {pos : Position α} {x : Piece α}
    (h : InStep capacity s begun pos) (hx : pos.Next x)
    (ho : Orderly capacity s.offset begun x) :
    InStep capacity (accept capacity s x.fragment).1 (begunAfter x begun) (pos.after x) ∧
      (accept capacity s x.fragment).2 = handedOut begun x := by
  obtain ⟨flag, p, frame⟩ := x
  rcases flag with _ | _ | _ | _
  · exact h.accept_middle hx (ho.middle rfl)
  · obtain ⟨hb, hn⟩ := ho.last rfl
    obtain ⟨hstep, hout⟩ := h.accept_last hx hb hn
    refine ⟨hstep, hout.trans ?_⟩
    rw [handedOut, if_pos hb]
  · exact h.accept_start hx
  · obtain ⟨rfl, hpart⟩ := hx
    change p = frame at hpart
    subst hpart
    obtain ⟨hout, hoff, hsane⟩ := accept_whole h.sane (ho.whole rfl)
    exact ⟨inStep_join hsane (hoff.trans (h.between rfl).1) rfl, hout⟩

end Reassembly
