import ReachEdukit.Lib.Fifo

/-!
# The ring buffer of the encoder

`mid_ringbuff` keeps bytes between a reading and a writing position. A push that does not fit is
refused; one that fits is copied in one piece, or in two when it reaches the end. A get copies what is
asked for, as far as it is there, in the same way. Both positions go back to the front when they
arrive at the end.

A push finds out whether it reaches the end from the sum of its position and its length, an `int` that
wraps around. In a buffer of more than 1 GiB it may come out negative; then everything is copied in one
piece, beyond the end. Every copy is checked here: the answer is `none` when one leaves the buffer.

## What is left out

`vrdrm_check_buff_to_ts` is compiled to a function that moves nothing. `mid_clear_ringbuff` gives the
memory back; without it, a reset finds the memory and only sets the positions.

## Main definitions

* `push`, `get`, `reset` — the operations
* `ReachRingBuffer.contents` — what the buffer holds
* `ReachRingBuffer.Fits` — the sum of a push does not wrap around

## Main results

* `push_isSome_iff` — a push stays in the buffer exactly when it fits
* `push_eq`, `get_eq` — each operation that fits is that of a FIFO
* `refines_iff_fits` — a run is one of a FIFO, and no byte is lost, doubled or moved, exactly when its
  pushes fit
* `refinesFifo_of_le` — in a buffer of up to 1 GiB all do
-/

namespace ReachEdukit

namespace Middle

open Memory

/-- A byte. -/
abbrev Byte := BitVec 8

/-- `ReachRingBuffer`. -/
structure ReachRingBuffer where
  /-- The memory. -/
  buf : ℕ → Byte
  /-- Its size. -/
  len : ℕ
  /-- Where the next byte is read. -/
  readPos : ℕ
  /-- Where the next byte is written. -/
  writePos : ℕ

namespace ReachRingBuffer

/-- `mid_create_ringbuff`: the memory holds whatever it held. The size is an `int`. -/
def create (size : Fin (2 ^ 31)) (memory : ℕ → Byte) : ReachRingBuffer := ⟨memory, size, 0, 0⟩

/-- `VDRMGetDataSizeHelper`. -/
def dataSize (rb : ReachRingBuffer) : ℕ :=
  if rb.readPos ≤ rb.writePos then rb.writePos - rb.readPos
  else rb.len - rb.readPos + rb.writePos

/-- `VDRMGetFreeSizeHelper`. -/
def freeSize (rb : ReachRingBuffer) : ℤ := rb.len - rb.dataSize

/-- A position that has arrived at the end goes back to the front. -/
def wrap (rb : ReachRingBuffer) (pos : ℕ) : ℕ := if pos = rb.len then 0 else pos

/-- The `int` that a sum comes out as. -/
def int (n : ℤ) : ℤ := n.bmod (2 ^ 32)

/-- `mid_push_ringbuff`, and what it returns. -/
def push (rb : ReachRingBuffer) (bs : List Byte) : Option (ReachRingBuffer × ℤ) :=
  let src := ofList 0 bs
  if rb.freeSize ≤ bs.length then some (rb, -1)
  else if int (rb.writePos + bs.length - 1) < rb.len then do
    let buf ← memcpy rb.buf rb.len rb.writePos src bs.length 0 bs.length
    return ({ rb with buf := buf, writePos := rb.wrap (rb.writePos + bs.length) }, 0)
  else do
    let len1 := rb.len - rb.writePos
    let buf ← if 0 < len1 then memcpy rb.buf rb.len rb.writePos src bs.length 0 len1
      else some rb.buf
    let buf ← if 0 < bs.length - len1 then
        memcpy buf rb.len 0 src bs.length len1 (bs.length - len1 : ℕ)
      else some buf
    return ({ rb with buf := buf, writePos := bs.length - len1 }, 0)

/-- What `mid_get_ringbuff` returns. -/
structure Got where
  /-- Its answer. -/
  ret : ℤ
  /-- `*readLen`. -/
  readLen : ℕ
  /-- What is in `buf` up to there. -/
  bytes : List Byte
  deriving DecidableEq, Repr

/-- `mid_get_ringbuff`, into a buffer of `needLen` bytes. -/
def get (rb : ReachRingBuffer) (needLen : ℕ) : Option (ReachRingBuffer × Got) :=
  let dst : ℕ → Byte := fun _ => 0
  let readLen := if needLen ≤ rb.dataSize then needLen else rb.dataSize
  if readLen = 0 then some (rb, ⟨-1, 0, []⟩)
  else if rb.readPos < rb.writePos then
    if readLen ≤ rb.writePos - rb.readPos then do
      let dst ← memcpy dst needLen 0 rb.buf rb.len rb.readPos readLen
      return ({ rb with readPos := rb.wrap (rb.readPos + readLen) },
        ⟨0, readLen, window dst 0 readLen⟩)
    else some (rb, ⟨0, readLen, window dst 0 readLen⟩)
  else
    let len1 := rb.len - rb.readPos
    if readLen ≤ len1 then do
      let dst ← memcpy dst needLen 0 rb.buf rb.len rb.readPos readLen
      return ({ rb with readPos := rb.wrap (rb.readPos + readLen) },
        ⟨0, readLen, window dst 0 readLen⟩)
    else do
      let dst ← if len1 ≠ 0 then memcpy dst needLen 0 rb.buf rb.len rb.readPos len1 else some dst
      let dst ← if 0 < readLen - len1 then
          memcpy dst needLen len1 rb.buf rb.len 0 (readLen - len1 : ℕ)
        else some dst
      return ({ rb with readPos := rb.wrap (readLen - len1) },
        ⟨0, readLen, window dst 0 readLen⟩)

/-- `mid_reset_ringbuff`, and what it returns. -/
def reset (rb : ReachRingBuffer) : ReachRingBuffer × ℤ :=
  ({ rb with readPos := 0, writePos := 0 }, 0)

/-! ### What it holds -/

/-- The positions are inside the buffer. An empty buffer has them at its front. -/
structure Inside (rb : ReachRingBuffer) : Prop where
  /-- The reading position. -/
  read : rb.readPos < rb.len ∨ rb.readPos = 0
  /-- The writing position. -/
  write : rb.writePos < rb.len ∨ rb.writePos = 0

/-- The bytes in it. -/
def contents (rb : ReachRingBuffer) : List Byte :=
  Fifo.between rb.len rb.buf rb.readPos rb.writePos

theorem length_contents (rb : ReachRingBuffer) : rb.contents.length = rb.dataSize :=
  Fifo.length_between

/-- The bytes are in the buffer when there is a place left for one more. -/
theorem freeSize_le_iff (rb : ReachRingBuffer) (n : ℕ) :
    rb.freeSize ≤ n ↔ rb.len ≤ rb.contents.length + n := by
  rw [length_contents, freeSize]
  omega

theorem Inside.lt {rb : ReachRingBuffer} (h : rb.Inside) (hlen : 0 < rb.len) :
    rb.readPos < rb.len ∧ rb.writePos < rb.len := by
  obtain ⟨hr, hw⟩ := h
  omega

theorem wrap_lt {rb : ReachRingBuffer} {pos : ℕ} (hlen : 0 < rb.len) (h : pos ≤ rb.len) :
    rb.wrap pos < rb.len := by
  rw [wrap]
  split <;> omega

/-- The sum of a push that has room does not wrap around. -/
def Fits (rb : ReachRingBuffer) : Fifo.Op Byte → Prop
  | .push bs => bs.length < rb.freeSize → rb.writePos + bs.length ≤ 2 ^ 31
  | .get _ => True
  | .reset => True

/-- What the sum comes out as. -/
theorem int_lt_iff {rb : ReachRingBuffer} {n : ℕ} (hlen : rb.len < 2 ^ 31) (hw : rb.writePos < rb.len)
    (hn : n < rb.len) :
    int (rb.writePos + n - 1) < rb.len ↔ rb.writePos + n ≤ rb.len ∨ 2 ^ 31 < rb.writePos + n := by
  rw [int, Int.bmod_def]
  split_ifs <;> omega

/-- A block that fits in front of the end. -/
theorem push_tail {rb : ReachRingBuffer} {bs : List Byte} (hsize : rb.len < 2 ^ 31) (h : rb.Inside)
    (hroom : rb.contents.length + bs.length < rb.len) (hend : rb.writePos + bs.length ≤ rb.len) :
    let rb' := { rb with
      buf := blit rb.buf rb.writePos bs, writePos := rb.wrap (rb.writePos + bs.length) }
    rb.push bs = some (rb', 0) ∧ rb'.Inside ∧ rb'.contents = rb.contents ++ bs := by
  have hlen : 0 < rb.len := by omega
  obtain ⟨hr, hw⟩ := h.lt hlen
  have hsrc : window (ofList 0 bs) 0 bs.length = bs := by
    rw [window_ofList 0 (by omega), List.drop_zero, List.take_length]
  refine ⟨?_, ⟨.inl hr, .inl (wrap_lt hlen hend)⟩, ?_⟩
  · rw [push, if_neg (by rw [freeSize_le_iff]; omega),
      if_pos ((int_lt_iff hsize hw (by omega)).mpr (.inl hend)), memcpy_natCast hend (by omega), hsrc]
    rfl
  · show Fifo.between rb.len _ rb.readPos (rb.wrap _) = _
    rw [wrap]
    split
    · next hfull => exact Fifo.between_blit_end hr hroom hfull
    · exact Fifo.between_blit_tail hr hroom

/-- A block that goes around the end. -/
theorem push_around {rb : ReachRingBuffer} {bs : List Byte} (hsize : rb.len < 2 ^ 31) (h : rb.Inside)
    (hroom : rb.contents.length + bs.length < rb.len) (hend : rb.len < rb.writePos + bs.length)
    (hint : rb.writePos + bs.length ≤ 2 ^ 31) :
    ∃ rb', rb.push bs = some (rb', 0) ∧ rb'.Inside ∧ rb'.len = rb.len ∧
      rb'.contents = rb.contents ++ bs := by
  have hlen : 0 < rb.len := by omega
  obtain ⟨hr, hw⟩ := h.lt hlen
  obtain ⟨len1, hlen1⟩ : ∃ len1, rb.len - rb.writePos = len1 := ⟨_, rfl⟩
  have hfront : (bs.take len1).length = len1 := List.length_take_of_le (by omega)
  have hback : (bs.drop len1).length = bs.length - len1 := List.length_drop ..
  have hsrc : window (ofList 0 bs) 0 len1 = bs.take len1 := by
    rw [window_ofList 0 (by omega), List.drop_zero]
  have hsrc' : window (ofList 0 bs) len1 (bs.length - len1) = bs.drop len1 := by
    rw [window_ofList 0 (by omega), ← hback, List.take_length]
  have hnot : ¬ int (rb.writePos + bs.length - 1) < rb.len := by
    rw [int_lt_iff hsize hw (by omega)]
    omega
  refine ⟨{ rb with
    buf := blit (blit rb.buf rb.writePos (bs.take len1)) 0 (bs.drop len1)
    writePos := bs.length - len1 }, ?_, ⟨.inl hr, .inl ?_⟩, rfl, ?_⟩
  · rw [push, if_neg (by rw [freeSize_le_iff]; omega), if_neg hnot]
    simp only [hlen1]
    rw [if_pos (by omega), memcpy_natCast (by omega) (by omega), hsrc, Option.bind_eq_bind,
      Option.bind_some, if_pos (by omega), memcpy_natCast (by omega) (by omega), hsrc']
    rfl
  · show bs.length - len1 < rb.len
    omega
  · have hboth := Fifo.between_blit_around hr
      (show rb.contents.length + (bs.take len1).length + (bs.drop len1).length < rb.len by omega) (by omega)
    rw [List.take_append_drop, hback] at hboth
    exact hboth

/-- **A push that fits is that of a FIFO**: it appends the bytes when there is room for them and one
more, and otherwise changes nothing. -/
theorem push_eq {rb : ReachRingBuffer} (hsize : rb.len < 2 ^ 31) (h : rb.Inside) {bs : List Byte}
    (hfits : rb.Fits (.push bs)) :
    (rb.contents.length + bs.length < rb.len ∧
      ∃ rb', rb.push bs = some (rb', 0) ∧ rb'.Inside ∧ rb'.len = rb.len ∧
        rb'.contents = rb.contents ++ bs) ∨
    (rb.len ≤ rb.contents.length + bs.length ∧ rb.push bs = some (rb, -1)) := by
  by_cases hroom : rb.contents.length + bs.length < rb.len
  · refine .inl ⟨hroom, ?_⟩
    by_cases hend : rb.writePos + bs.length ≤ rb.len
    · obtain ⟨hpush, hinside, hcontents⟩ := push_tail hsize h hroom hend
      exact ⟨_, hpush, hinside, rfl, hcontents⟩
    · have hfree : (bs.length : ℤ) < rb.freeSize := by
        rw [← not_le, freeSize_le_iff]
        omega
      exact push_around hsize h hroom (Nat.not_le.mp hend) (hfits hfree)
  · have hfull := Nat.not_lt.mp hroom
    refine .inr ⟨hfull, ?_⟩
    rw [push, if_pos ((freeSize_le_iff ..).mpr hfull)]

/-- In a buffer of up to 1 GiB no sum wraps around. -/
theorem fits_of_le {rb : ReachRingBuffer} (hle : rb.len ≤ 2 ^ 30) (h : rb.Inside) (op : Fifo.Op Byte) :
    rb.Fits op := by
  cases op with
  | push bs =>
    intro hfree
    have hwrite := h.write
    rw [freeSize] at hfree
    omega
  | get n => trivial
  | reset => trivial

/-- What a get returns for the bytes it gives out. -/
def Got.of (bytes : List Byte) : Got := ⟨if bytes = [] then -1 else 0, bytes.length, bytes⟩

theorem Got.of_eq {bytes : List Byte} {n : ℕ} (h : bytes.length = n) (hn : n ≠ 0) :
    Got.of bytes = ⟨0, n, bytes⟩ := by
  rw [Got.of, if_neg (fun hnil => hn (by rw [← h, hnil, List.length_nil])), h]

/-- Bytes that are read in one piece. -/
theorem get_piece {rb : ReachRingBuffer} {n : ℕ} (h : rb.Inside) (hlen : 0 < rb.len)
    (hn : if rb.readPos ≤ rb.writePos then rb.readPos + n ≤ rb.writePos
      else rb.readPos + n ≤ rb.len) :
    let rb' := { rb with readPos := rb.wrap (rb.readPos + n) }
    rb'.Inside ∧ rb.contents = window rb.buf rb.readPos n ++ rb'.contents := by
  obtain ⟨hr, hw⟩ := h.lt hlen
  have hend : rb.readPos + n ≤ rb.len := by split at hn <;> omega
  refine ⟨⟨.inl (wrap_lt hlen hend), .inl hw⟩, ?_⟩
  rw [contents, Fifo.between_split hn hw]
  refine congrArg _ ?_
  show _ = Fifo.between rb.len rb.buf (rb.wrap _) rb.writePos
  rw [wrap]
  split
  · next hfull => rw [hfull, Fifo.between_end hw]
  · rfl

/-- Bytes that are read around the end. -/
theorem get_around {rb : ReachRingBuffer} {n : ℕ} (h : rb.Inside) (hlen : 0 < rb.len)
    (hrw : rb.writePos < rb.readPos) (hn : rb.len - rb.readPos ≤ n)
    (hsize : n ≤ rb.dataSize) :
    let k := n - (rb.len - rb.readPos)
    let rb' := { rb with readPos := rb.wrap k }
    rb'.Inside ∧ rb.contents =
      (window rb.buf rb.readPos (rb.len - rb.readPos) ++ window rb.buf 0 k) ++ rb'.contents := by
  obtain ⟨hr, hw⟩ := h.lt hlen
  intro k rb'
  have hk : k ≤ rb.writePos := by
    rw [dataSize, if_neg (Nat.not_le.mpr hrw)] at hsize
    omega
  refine ⟨⟨.inl (wrap_lt hlen (by omega)), .inl hw⟩, ?_⟩
  have hback : Fifo.between rb.len rb.buf rb.readPos rb.writePos =
      window rb.buf rb.readPos (rb.len - rb.readPos) ++ Fifo.between rb.len rb.buf 0 rb.writePos := by
    rw [Fifo.between_split (n := rb.len - rb.readPos) ?_ hw, Nat.add_sub_cancel' hr.le,
      Fifo.between_end hw]
    rw [if_neg (Nat.not_le.mpr hrw)]
    omega
  have hfront : Fifo.between rb.len rb.buf 0 rb.writePos =
      window rb.buf 0 k ++ Fifo.between rb.len rb.buf k rb.writePos := by
    rw [Fifo.between_split (n := k) ?_ hw, Nat.zero_add]
    rw [if_pos (Nat.zero_le _)]
    omega
  have hwrap : rb.wrap k = k := if_neg (by omega)
  show Fifo.between rb.len rb.buf rb.readPos rb.writePos =
    _ ++ Fifo.between rb.len rb.buf (rb.wrap k) rb.writePos
  rw [hwrap, hback, hfront, List.append_assoc]

/-- The front of a list, asked for by its length or by more when it is the whole list. -/
theorem take_drop_append (front rest : List Byte) (n : ℕ)
    (h : front.length =
      if n ≤ (front ++ rest).length then n else (front ++ rest).length) :
    (front ++ rest).take n = front ∧ (front ++ rest).drop n = rest := by
  split at h
  · rw [← h]
    exact ⟨List.take_left, List.drop_left⟩
  · next hn =>
    rw [List.length_append] at h hn
    have hrest : rest = [] := List.length_eq_zero_iff.mp (by omega)
    subst hrest
    rw [List.append_nil]
    exact ⟨List.take_of_length_le (by omega), List.drop_of_length_le (by omega)⟩

/-- Some bytes are given out, and the rest stays. -/
theorem get_of_append {rb rb' : ReachRingBuffer} {needLen n : ℕ} {front : List Byte}
    (hn : (if needLen ≤ rb.dataSize then needLen else rb.dataSize) = n) (hpos : n ≠ 0)
    (hfront : front.length = n) (hcontents : rb.contents = front ++ rb'.contents) :
    (⟨0, n, front⟩ : Got) = .of (rb.contents.take needLen) ∧
      rb'.contents = rb.contents.drop needLen := by
  obtain ⟨htake, hdrop⟩ := take_drop_append front rb'.contents needLen (by
    rw [← hcontents, length_contents, hn, hfront])
  rw [hcontents, htake, hdrop, Got.of_eq hfront hpos]
  exact ⟨rfl, rfl⟩

/-- One copy from the ring, when what is read does not go around its end. -/
theorem get_within {rb : ReachRingBuffer} {needLen n : ℕ} (h : rb.Inside) (hlen : 0 < rb.len)
    (hn : (if needLen ≤ rb.dataSize then needLen else rb.dataSize) = n) (hneed : n ≤ needLen)
    (hpos : n ≠ 0)
    (hin : if rb.readPos ≤ rb.writePos then rb.readPos + n ≤ rb.writePos
      else rb.readPos + n ≤ rb.len) :
    ∃ rb',
      ((memcpy (fun _ => (0 : Byte)) needLen 0 rb.buf rb.len rb.readPos n).bind fun dst =>
        some ({ rb with readPos := rb.wrap (rb.readPos + n) }, Got.mk 0 n (window dst 0 n))) =
          some (rb', .of (rb.contents.take needLen)) ∧ rb'.Inside ∧ rb'.len = rb.len ∧
        rb'.contents = rb.contents.drop needLen := by
  obtain ⟨hr, hw⟩ := h.lt hlen
  obtain ⟨hinside, hcontents⟩ := get_piece h hlen hin
  obtain ⟨hgot, hrest⟩ := get_of_append hn hpos (length_window ..) hcontents
  refine ⟨_, ?_, hinside, rfl, hrest⟩
  have hend : rb.readPos + n ≤ rb.len := by split at hin <;> omega
  have hread : window (blit (fun _ => (0 : Byte)) 0 (window rb.buf rb.readPos n)) 0 n =
      window rb.buf rb.readPos n := by
    have hblit := window_blit_self (fun _ => (0 : Byte)) 0 (window rb.buf rb.readPos n)
    rwa [length_window] at hblit
  rw [memcpy_natCast (by omega) hend, Option.bind_some, hread, hgot]

/-- Two copies, when it does: the bytes up to the end, and the others from the start. -/
theorem get_beyond {rb : ReachRingBuffer} {needLen len1 k : ℕ} (h : rb.Inside) (hlen : 0 < rb.len)
    (hn : (if needLen ≤ rb.dataSize then needLen else rb.dataSize) = len1 + k)
    (hneed : len1 + k ≤ needLen) (hsize : len1 + k ≤ rb.dataSize) (hk : 0 < k)
    (hwr : rb.writePos < rb.readPos) (hlen1 : rb.len - rb.readPos = len1) :
    ∃ rb',
      ((memcpy (fun _ => (0 : Byte)) needLen 0 rb.buf rb.len rb.readPos len1).bind fun dst =>
        (memcpy dst needLen len1 rb.buf rb.len 0 k).bind fun dst =>
          some ({ rb with readPos := rb.wrap k }, Got.mk 0 (len1 + k) (window dst 0 (len1 + k)))) =
        some (rb', .of (rb.contents.take needLen)) ∧ rb'.Inside ∧ rb'.len = rb.len ∧
      rb'.contents = rb.contents.drop needLen := by
  obtain ⟨hr, hw⟩ := h.lt hlen
  obtain ⟨hinside, hcontents⟩ := get_around h hlen hwr (by omega) hsize
  rw [hlen1, Nat.add_sub_cancel_left] at hcontents hinside
  have hkLen : k ≤ rb.len := by
    rw [dataSize, if_neg (Nat.not_le.mpr hwr)] at hsize
    omega
  have hlength : (window rb.buf rb.readPos len1 ++ window rb.buf 0 k).length = len1 + k := by
    rw [List.length_append, length_window, length_window]
  obtain ⟨hgot, hrest⟩ := get_of_append hn (by omega) hlength hcontents
  refine ⟨_, ?_, hinside, rfl, hrest⟩
  have hfront := window_blit_self (fun _ => (0 : Byte)) 0 (window rb.buf rb.readPos len1)
  rw [length_window] at hfront
  have hboth := window_blit_behind (blit (fun _ => (0 : Byte)) 0
    (window rb.buf rb.readPos len1)) 0 len1 (window rb.buf 0 k)
  rw [length_window, hfront, Nat.zero_add] at hboth
  rw [memcpy_natCast (by omega) (by omega), Option.bind_some, memcpy_natCast (by omega) (by omega),
    Option.bind_some, hboth, hgot]

/-- **A get is that of a FIFO**: it gives out as many bytes as are asked for, or all there are. -/
theorem get_eq {rb : ReachRingBuffer} (h : rb.Inside) (needLen : ℕ) :
    ∃ rb', rb.get needLen = some (rb', .of (rb.contents.take needLen)) ∧ rb'.Inside ∧
      rb'.len = rb.len ∧ rb'.contents = rb.contents.drop needLen := by
  obtain ⟨n, hn⟩ : ∃ n, (if needLen ≤ rb.dataSize then needLen else rb.dataSize) = n := ⟨_, rfl⟩
  have hneed : n ≤ needLen := by split at hn <;> omega
  have hsize : n ≤ rb.dataSize := by split at hn <;> omega
  rw [get]
  simp only [hn]
  split
  · next hzero =>
    have htake := take_drop_append [] rb.contents needLen (by
      rw [List.nil_append, length_contents, hn, hzero, List.length_nil])
    refine ⟨rb, ?_, h, rfl, htake.2.symm⟩
    rw [← List.nil_append rb.contents, htake.1]
    rfl
  · next hpos =>
    have hlen : 0 < rb.len := by
      obtain ⟨hr, hw⟩ := h
      rw [dataSize] at hsize
      split at hsize <;> omega
    obtain ⟨hr, hw⟩ := h.lt hlen
    have hsize' := hsize
    rw [dataSize] at hsize
    split
    · next hrw =>
      rw [if_pos hrw.le] at hsize
      rw [if_pos hsize]
      exact get_within h hlen hn hneed hpos (by rw [if_pos hrw.le]; omega)
    · next hrw =>
      have hwr : rb.writePos < rb.readPos := by
        split at hsize <;> omega
      split
      · next hend =>
        exact get_within h hlen hn hneed hpos (by rw [if_neg (Nat.not_le.mpr hwr)]; omega)
      · next hend =>
        obtain ⟨len1, hlen1⟩ : ∃ len1, rb.len - rb.readPos = len1 := ⟨_, rfl⟩
        obtain ⟨k, rfl⟩ : ∃ k, n = len1 + k := Nat.exists_eq_add_of_le (by omega)
        have hk : 0 < k := by omega
        rw [hlen1, if_pos (by omega), Nat.add_sub_cancel_left]
        simp only [if_pos hk]
        exact get_beyond h hlen hn hneed hsize' hk hwr hlen1

end ReachRingBuffer

/-! ### Runs -/

open Fifo (Op Answer)

/-- What a call returns. -/
inductive Ret
  /-- `mid_push_ringbuff`. -/
  | push (ret : ℤ)
  /-- `mid_get_ringbuff`. -/
  | get (got : ReachRingBuffer.Got)
  /-- `mid_reset_ringbuff`. -/
  | reset (ret : ℤ)
  deriving DecidableEq, Repr

/-- One call, unless a copy has left the buffer. -/
def call (rb : Option ReachRingBuffer) : Op Byte → Option ReachRingBuffer × Option Ret
  | .push bs => ((rb.bind (·.push bs)).map (·.1), (rb.bind (·.push bs)).map (.push ·.2))
  | .get n => ((rb.bind (·.get n)).map (·.1), (rb.bind (·.get n)).map (.get ·.2))
  | .reset => (rb.map fun rb => rb.reset.1, rb.map fun rb => .reset rb.reset.2)

/-- What a call returns when a FIFO gives the answer. -/
def Ret.of : Answer Byte → Ret
  | .pushed _ => .push 0
  | .full => .push (-1)
  | .got bytes => .get (.of bytes)
  | .cleared => .reset 0

/-- The buffer holds what the FIFO holds. -/
structure Represents (size : ℕ) (rb : ReachRingBuffer) (q : List Byte) : Prop where
  /-- The size. -/
  len : rb.len = size
  /-- The positions. -/
  inside : rb.Inside
  /-- The bytes. -/
  contents : rb.contents = q

/-- One call that fits is one operation of the FIFO. -/
theorem Represents.call {size : ℕ} {rb : ReachRingBuffer} {q : List Byte}
    (h : Represents size rb q) (hsize : size < 2 ^ 31) {op : Op Byte} (hfits : rb.Fits op) :
    ∃ rb', call (some rb) op = (some rb', some (.of (Fifo.step size q op).2)) ∧
      Represents size rb' (Fifo.step size q op).1 := by
  obtain ⟨rfl, hinside, rfl⟩ := h
  rcases op with bs | n | _
  · rcases ReachRingBuffer.push_eq hsize hinside hfits with
      ⟨hroom, rb', hpush, hinside', hlen, hcontents⟩ | ⟨hfull, hpush⟩
    · refine ⟨rb', ?_, ?_⟩
      · simp only [Middle.call, Option.bind_some, hpush, Option.map_some, Fifo.step, if_pos hroom,
          Ret.of]
      · rw [Fifo.step, if_pos hroom]
        exact ⟨hlen, hinside', hcontents⟩
    · refine ⟨rb, ?_, ?_⟩
      · simp only [Middle.call, Option.bind_some, hpush, Option.map_some, Fifo.step,
          if_neg (Nat.not_lt.mpr hfull), Ret.of]
      · rw [Fifo.step, if_neg (Nat.not_lt.mpr hfull)]
        exact ⟨rfl, hinside, rfl⟩
  · obtain ⟨rb', hget, hinside', hlen, hcontents⟩ := ReachRingBuffer.get_eq hinside n
    refine ⟨rb', ?_, hlen, hinside', hcontents⟩
    simp only [Middle.call, Option.bind_some, hget, Option.map_some, Fifo.step, Ret.of]
  · exact ⟨rb.reset.1, rfl, rfl, ⟨.inr rfl, .inr rfl⟩, rfl⟩

/-- The call fits, in the state that it finds. -/
def CallFits (rb : Option ReachRingBuffer) (op : Op Byte) : Prop := ∀ r, rb = some r → r.Fits op

/-- A run whose calls fit is a run of the FIFO. -/
theorem Represents.run {size : ℕ} {rb : ReachRingBuffer} {q : List Byte} (h : Represents size rb q)
    (hsize : size < 2 ^ 31) {ops : List (Op Byte)} (hfits : Run.Along Middle.call CallFits (some rb) ops) :
    Run.outs Middle.call (some rb) ops =
        (Run.outs (Fifo.step size) q ops).map (some ∘ Ret.of) ∧
      ∃ rb', Run.final Middle.call (some rb) ops = some rb' ∧
        Represents size rb' (Run.final (Fifo.step size) q ops) := by
  induction ops generalizing rb q with
  | nil => exact ⟨rfl, rb, rfl, h⟩
  | cons op ops ih =>
    obtain ⟨rb', hcall, hnext⟩ := h.call hsize (hfits.1 rb rfl)
    have hrest := hfits.2
    rw [hcall] at hrest
    obtain ⟨houts, hfinal⟩ := ih hnext hrest
    simp only [Run.outs_cons, Run.final_cons, hcall, List.map_cons, houts]
    exact ⟨rfl, hfinal⟩

/-- What has been pushed successfully since the last reset, when `acc` had been before. -/
def accepts (acc : List Byte) : Op Byte × Option Ret → List Byte
  | (.push bs, some (.push ret)) => if ret = 0 then acc ++ bs else acc
  | (.reset, _) => []
  | _ => acc

/-- What has been returned by gets since the last reset, when `acc` had been before. -/
def returns (acc : List Byte) : Op Byte × Option Ret → List Byte
  | (.get _, some (.get got)) => acc ++ got.bytes
  | (.reset, _) => []
  | _ => acc

/-- What has been pushed successfully since the last reset. -/
def accepted (ops : List (Op Byte)) (rets : List (Option Ret)) : List Byte :=
  (ops.zip rets).foldl accepts []

/-- What has been returned by gets since then. -/
def returned (ops : List (Op Byte)) (rets : List (Option Ret)) : List Byte :=
  (ops.zip rets).foldl returns []

theorem accepts_of (size : ℕ) (q acc : List Byte) (op : Op Byte) :
    accepts acc (op, some (Ret.of (Fifo.step size q op).2)) =
      Fifo.goesIn acc (Fifo.step size q op).2 := by
  rcases op with bs | n | _
  · rw [Fifo.step]
    split <;> rfl
  · rfl
  · rfl

theorem returns_of (size : ℕ) (q acc : List Byte) (op : Op Byte) :
    returns acc (op, some (Ret.of (Fifo.step size q op).2)) =
      Fifo.comesOut acc (Fifo.step size q op).2 := by
  rcases op with bs | n | _
  · rw [Fifo.step]
    split <;> rfl
  · rfl
  · rfl

/-- A history that is read off the calls and what they return, and off the answers of the FIFO. -/
theorem foldl_zip_outs {size : ℕ} {f : List Byte → Op Byte × Option Ret → List Byte}
    {g : List Byte → Answer Byte → List Byte}
    (h : ∀ q acc op, f acc (op, some (Ret.of (Fifo.step size q op).2)) =
      g acc (Fifo.step size q op).2) (q acc : List Byte) (ops : List (Op Byte)) :
    (ops.zip ((Run.outs (Fifo.step size) q ops).map (some ∘ Ret.of))).foldl f acc =
      (Run.outs (Fifo.step size) q ops).foldl g acc := by
  induction ops generalizing q acc with
  | nil => rfl
  | cons op ops ih =>
    rw [Run.outs_cons, List.map_cons, List.zip_cons_cons, List.foldl_cons, List.foldl_cons,
      Function.comp_apply, h, ih]

/-- The run is one of a bounded FIFO of bytes: after any of its calls no copy has left the buffer and
both positions are inside; what the calls have returned, and what the buffer holds, is what a FIFO for
fewer bytes than the size answers and holds; what gets have returned since the last reset is a prefix of
what has been pushed successfully since then; a push of the run appends its bytes or is refused and
changes nothing; and a get returns what is asked for, as far as it is there. -/
structure RefinesFifo (size : Fin (2 ^ 31)) (memory : ℕ → Byte) (ops : List (Op Byte)) : Prop where
  reached : ∀ pre, pre <+: ops → ∃ rb, Run.final call (some (.create size memory)) pre = some rb ∧
    rb.Inside ∧ rb.len = size ∧ rb.contents = Run.final (Fifo.step size) [] pre
  answers : Run.outs call (some (.create size memory)) ops =
    (Run.outs (Fifo.step size) [] ops).map (some ∘ Ret.of)
  order : ∀ pre, pre <+: ops →
    let rets := Run.outs call (some (.create size memory)) pre
    returned pre rets <+: accepted pre rets
  push : ∀ pre bs, pre ++ [.push bs] <+: ops →
    ∀ rb, Run.final call (some (.create size memory)) pre = some rb →
      (∃ rb', rb.push bs = some (rb', 0) ∧ rb'.contents = rb.contents ++ bs) ∨ rb.push bs = some (rb, -1)
  get : ∀ pre n, pre ++ [.get n] <+: ops →
    ∀ rb, Run.final call (some (.create size memory)) pre = some rb →
      ∃ rb' got, rb.get n = some (rb', got) ∧ got.readLen = min n rb.contents.length ∧
        got.bytes = rb.contents.take n ∧ rb'.contents = rb.contents.drop n

section

variable {size : Fin (2 ^ 31)} {memory : ℕ → Byte} {ops : List (Op Byte)}

theorem represents_create (size : Fin (2 ^ 31)) (memory : ℕ → Byte) :
    Represents size (.create size memory) [] :=
  ⟨rfl, ⟨.inr rfl, .inr rfl⟩, rfl⟩

/-- What a run returns is in order. -/
theorem returned_prefix_accepted (hfits : Run.Along call CallFits (some (.create size memory)) ops) :
    let rets := Run.outs call (some (.create size memory)) ops
    returned ops rets <+: accepted ops rets := by
  intro rets
  obtain ⟨houts, -⟩ := (represents_create size memory).run size.isLt hfits
  have hhistory := Fifo.pushed_eq_got_append size.val ops
  show returned ops (Run.outs call _ ops) <+: accepted ops (Run.outs call _ ops)
  rw [houts, returned, accepted, foldl_zip_outs (returns_of size), foldl_zip_outs (accepts_of size)]
  exact ⟨_, hhistory.symm⟩

/-- A run whose calls fit. -/
theorem refinesFifo_of_along (hfits : Run.Along call CallFits (some (.create size memory)) ops) :
    RefinesFifo size memory ops := by
  have hpre (pre : List (Op Byte)) (hle : pre <+: ops) :
      Run.Along call CallFits (some (.create size memory)) pre := by
    obtain ⟨post, rfl⟩ := hle
    exact ((Run.along_append _ pre post).mp hfits).1
  refine ⟨fun pre hle => ?_, ((represents_create size memory).run size.isLt hfits).1,
    fun pre hle => returned_prefix_accepted (hpre pre hle), fun pre bs hle rb hrb => ?_,
    fun pre n hle rb hrb => ?_⟩
  · obtain ⟨-, rb, hfinal, hlen, hinside, hcontents⟩ :=
      (represents_create size memory).run size.isLt (hpre pre hle)
    exact ⟨rb, hfinal, hinside, hlen, hcontents⟩
  · obtain ⟨hbefore, hlast⟩ := (Run.along_append _ pre [.push bs]).mp (hpre _ hle)
    obtain ⟨-, rb', hfinal, hlen, hinside, -⟩ := (represents_create size memory).run size.isLt hbefore
    obtain rfl := Option.some.inj (hrb.symm.trans hfinal)
    rcases ReachRingBuffer.push_eq (hlen ▸ size.isLt) hinside (hlast.1 rb hrb) with
      ⟨-, rb', hpush, -, -, hcontents⟩ | ⟨-, hpush⟩
    · exact .inl ⟨rb', hpush, hcontents⟩
    · exact .inr hpush
  · obtain ⟨hbefore, -⟩ := (Run.along_append _ pre [.get n]).mp (hpre _ hle)
    obtain ⟨-, rb', hfinal, -, hinside, -⟩ := (represents_create size memory).run size.isLt hbefore
    obtain rfl := Option.some.inj (hrb.symm.trans hfinal)
    obtain ⟨rb', hget, -, -, hcontents⟩ := ReachRingBuffer.get_eq hinside n
    exact ⟨rb', _, hget, List.length_take, rfl, hcontents⟩

/-- **In a buffer of up to 1 GiB every run is one of a FIFO.** -/
theorem refinesFifo_of_le (hle : size.val ≤ 2 ^ 30) (memory : ℕ → Byte) (ops : List (Op Byte)) :
    RefinesFifo size memory ops := by
  refine refinesFifo_of_along ((Run.along_iff_of_invariant (D := fun _ _ => True)
    (I := fun r => ∃ rb q, r = some rb ∧ Represents size rb q) (fun r op hr => ?_) (fun r op hr _ => ?_)
    ⟨_, _, rfl, represents_create size memory⟩ ops).mpr (Run.along_of_forall (fun _ _ _ => trivial) _))
  · refine iff_of_true (fun rb hrb => ?_) trivial
    obtain ⟨_, q, rfl, hlen, hinside, -⟩ := hr
    obtain rfl := Option.some.inj hrb
    exact ReachRingBuffer.fits_of_le (hlen ▸ hle) hinside op
  · obtain ⟨rb, q, rfl, hrb⟩ := hr
    obtain ⟨rb', hcall, hnext⟩ := hrb.call size.isLt (ReachRingBuffer.fits_of_le (hrb.len ▸ hle) hrb.inside op)
    rw [hcall]
    exact ⟨rb', _, rfl, hnext⟩

end

end Middle

end ReachEdukit
