import ReachEdukit.Lib.Loop

/-!
# The frames of the remote presentation

`remotePPTindexTask` gathers what comes from the serial line, and when the line is silent it walks over
the bytes: a frame begins with its length, big-endian, and `ProcessPPTdata` gets the frames.

The walk goes on by the length it has read, also when it does not accept it. A length of 0 thus keeps it
where it is, for ever. And a length is accepted when it is no more than all bytes there are, not those
that are left, so a frame can reach beyond them.

## What is left out

What `ProcessPPTdata` does with a frame; it does not change the bytes.

## Main definitions

* `PptBuffer.receive`, `parseTurn` — the bytes, and one turn of the walk
* `PptBuffer.Starts` — a place that the lengths lead to
* `PptBuffer.Demultiplexed` — what the walk should do

## Main results

* `ends_iff`, `inside_iff` — when the walk ends, and when it stays inside
* `demultiplexed_iff` — when it does both; frames that are well formed it always finds
-/

namespace ReachEdukit

namespace PptIndex

/-- A byte. -/
abbrev Byte := BitVec 8

/-- `BUFLEN`. -/
def bufLen : ℕ := 1024

/-- `szData` and `datacount`. -/
structure PptBuffer where
  szData : ℕ → Byte
  datacount : ℕ

/-- The bytes of a read, when there is room for them. -/
def PptBuffer.receive (b : PptBuffer) (data : List Byte) : PptBuffer :=
  if b.datacount + data.length < bufLen then
    { szData := fun j => if b.datacount ≤ j then data.getD (j - b.datacount) (b.szData j) else b.szData j
      datacount := b.datacount + data.length }
  else b

/-- `datalen`, in the byte order of the network. -/
def PptBuffer.datalen (b : PptBuffer) (i : ℕ) : ℕ :=
  256 * (b.szData i).toNat + (b.szData (i + 1)).toNat

/-- A call of `ProcessPPTdata`. -/
structure Frame where
  start : ℕ
  len : ℕ
  deriving DecidableEq, Repr

/-- One turn of the walk: the call, if it makes one, and where it goes on. -/
def parseTurn (b : PptBuffer) (i : ℕ) : Option (Option Frame × ℕ) :=
  if i < b.datacount then
    some (if 2 < b.datalen i ∧ b.datalen i ≤ b.datacount then some ⟨i, b.datalen i⟩ else none,
      i + b.datalen i)
  else none

/-- Where the walk is after `n` turns. -/
def position (b : PptBuffer) (n : ℕ) : ℕ := (Loop.upTo (parseTurn b) n 0).2

/-- The calls of `n` turns. -/
def calls (b : PptBuffer) (n : ℕ) : List Frame := (Loop.upTo (parseTurn b) n 0).1.reduceOption

/-! ### What is asked -/

/-- The bytes from a place on. -/
def PptBuffer.slice (b : PptBuffer) (start len : ℕ) : List Byte :=
  (List.range' start len).map b.szData

/-- A frame that begins with its own length. -/
structure WellFormed (frame : List Byte) : Prop where
  six_le : 6 ≤ frame.length
  length_eq : 256 * (frame.getD 0 0).toNat + (frame.getD 1 0).toNat = frame.length

/-- The walk ends, the calls are inside the bytes, and frames that are well formed are found. -/
structure PptBuffer.Demultiplexed (b : PptBuffer) : Prop where
  ends : ∃ n, b.datacount ≤ position b n
  inside : ∀ n, ∀ frame ∈ calls b n, frame.start + frame.len ≤ b.datacount
  frames : ∀ frames : List (List Byte), (∀ frame ∈ frames, WellFormed frame) →
    b.slice 0 b.datacount = frames.flatten → ∃ n, b.datacount ≤ position b n ∧
      (calls b n).map (fun frame => b.slice frame.start frame.len) = frames ∧
      (calls b n).map Frame.len = frames.map List.length

/-! ### When it is so -/

/-- A place that the lengths lead to. -/
inductive PptBuffer.Starts (b : PptBuffer) : ℕ → Prop where
  | first : b.Starts 0
  | next {i : ℕ} : b.Starts i → i < b.datacount → b.Starts (i + b.datalen i)

/-- No length in front of which the lengths lead is 0, and none that is accepted is more than is left. -/
def PptBuffer.Fits (b : PptBuffer) : Prop :=
  ∀ i, b.Starts i → i < b.datacount → b.datalen i ≠ 0 ∧
    (2 < b.datalen i → b.datalen i ≤ b.datacount → i + b.datalen i ≤ b.datacount)

/-! ### The bytes -/

variable {b : PptBuffer} {i n : ℕ}

/-- There is always room behind the bytes, for the second byte of the last length. -/
theorem datacount_receive_lt (h : b.datacount < bufLen) (data : List Byte) :
    (b.receive data).datacount < bufLen := by
  rw [PptBuffer.receive]
  split_ifs with hroom
  · exact hroom
  · exact h

/-- What is read stands behind what was read before. -/
theorem slice_receive {data : List Byte} (hroom : b.datacount + data.length < bufLen) :
    (b.receive data).slice 0 (b.receive data).datacount = b.slice 0 b.datacount ++ data := by
  rw [PptBuffer.receive, if_pos hroom, PptBuffer.slice, PptBuffer.slice, ← List.range'_append,
    List.map_append]
  congr 1
  · refine List.map_congr_left fun j hj => ?_
    rw [List.mem_range'_1] at hj
    exact if_neg (by omega)
  · refine List.ext_getElem (by simp) fun k hk hk' => ?_
    rw [List.getElem_map, List.getElem_range']
    have hplace : 0 + 1 * b.datacount + 1 * k = b.datacount + k := by omega
    dsimp only
    rw [hplace, if_pos (Nat.le_add_right _ _), Nat.add_sub_cancel_left, List.getD_eq_getElem _ _ hk']

/-! ### One turn -/

theorem parseTurn_of_lt (h : i < b.datacount) : parseTurn b i =
    some (if 2 < b.datalen i ∧ b.datalen i ≤ b.datacount then some ⟨i, b.datalen i⟩ else none,
      i + b.datalen i) := if_pos h

theorem parseTurn_of_le (h : b.datacount ≤ i) : parseTurn b i = none := if_neg (not_lt.mpr h)

/-- The walk is always at a place that the lengths lead to. -/
theorem starts_upTo (hi : b.Starts i) (n : ℕ) : b.Starts (Loop.upTo (parseTurn b) n i).2 := by
  induction n generalizing i with
  | zero => exact hi
  | succ n ih =>
    obtain hlt | hle := lt_or_ge i b.datacount
    · rw [Loop.upTo_of_some (parseTurn_of_lt hlt)]
      exact ih (hi.next hlt)
    · rw [Loop.upTo_of_none (parseTurn_of_le hle)]
      exact hi

/-- And it comes to every such place. -/
theorem exists_position (hi : b.Starts i) : ∃ n, position b n = i := by
  induction hi with
  | first => exact ⟨0, rfl⟩
  | @next i hi hlt ih =>
    obtain ⟨n, hn⟩ := ih
    refine ⟨n + 1, ?_⟩
    rw [position, Loop.upTo_add]
    change (Loop.upTo (parseTurn b) (0 + 1) (position b n)).2 = _
    rw [hn, Loop.upTo_of_some (parseTurn_of_lt hlt)]
    rfl

/-- The calls are made where the lengths lead. -/
theorem starts_of_mem_calls {frame : Frame} (hi : b.Starts i)
    (h : frame ∈ (Loop.upTo (parseTurn b) n i).1.reduceOption) :
    b.Starts frame.start ∧ frame.start < b.datacount ∧ frame.len = b.datalen frame.start ∧
      2 < frame.len ∧ frame.len ≤ b.datacount := by
  induction n generalizing i with
  | zero => exact absurd h List.not_mem_nil
  | succ n ih =>
    obtain hlt | hle := lt_or_ge i b.datacount
    · rw [Loop.upTo_of_some (parseTurn_of_lt hlt)] at h
      split_ifs at h with haccept
      · rw [List.reduceOption_cons_of_some] at h
        obtain rfl | h := List.mem_cons.mp h
        · exact ⟨hi, hlt, rfl, haccept⟩
        · exact ih (hi.next hlt) h
      · rw [List.reduceOption_cons_of_none] at h
        exact ih (hi.next hlt) h
    · rw [Loop.upTo_of_none (parseTurn_of_le hle)] at h
      exact absurd h List.not_mem_nil

/-! ### The walk -/

/-- A length of 0 keeps the walk where it is. -/
theorem position_add_of_zero (hn : position b n = i) (hlt : i < b.datacount) (hzero : b.datalen i = 0)
    (k : ℕ) : position b (n + k) = i := by
  induction k with
  | zero => exact hn
  | succ k ih =>
    rw [← Nat.add_assoc, position, Loop.upTo_add]
    change (Loop.upTo (parseTurn b) (0 + 1) (position b (n + k))).2 = i
    rw [ih, Loop.upTo_of_some (parseTurn_of_lt hlt), hzero]
    rfl

/-- Behind the bytes the walk is at its end. -/
theorem position_add_of_le (hle : b.datacount ≤ position b n) (k : ℕ) :
    position b (n + k) = position b n := by
  have hend : (Loop.upTo (parseTurn b) k (position b n)).2 = position b n := by
    rw [Loop.upTo_of_none (parseTurn_of_le hle)]
  exact (congrArg Prod.snd (Loop.upTo_add (parseTurn b) n k 0)).trans hend

/-- **When the walk ends.** -/
theorem ends_iff : (∃ n, b.datacount ≤ position b n) ↔
    ∀ i, b.Starts i → i < b.datacount → b.datalen i ≠ 0 := by
  constructor
  · rintro ⟨n, hn⟩ i hi hlt hzero
    obtain ⟨m, hm⟩ := exists_position hi
    have hstays := position_add_of_zero hm hlt hzero n
    have hends := position_add_of_le hn m
    rw [Nat.add_comm, hstays] at hends
    exact absurd hn (not_le.mpr (hends ▸ hlt))
  · intro h
    by_contra hnever
    push Not at hnever
    -- every turn goes on by one byte at least
    have hgoes : ∀ n, n ≤ position b n := by
      intro n
      induction n with
      | zero => exact Nat.zero_le _
      | succ n ih =>
        have hne := h _ (starts_upTo .first n) (hnever n)
        rw [position, Loop.upTo_add]
        change n + 1 ≤ (Loop.upTo (parseTurn b) (0 + 1) (position b n)).2
        rw [Loop.upTo_of_some (parseTurn_of_lt (hnever n))]
        change n + 1 ≤ position b n + b.datalen (position b n)
        change b.datalen (position b n) ≠ 0 at hne
        omega
    exact absurd (hgoes b.datacount) (not_le.mpr (hnever b.datacount))

/-- **When the calls are inside the bytes.** -/
theorem inside_iff : (∀ n, ∀ frame ∈ calls b n, frame.start + frame.len ≤ b.datacount) ↔
    ∀ i, b.Starts i → i < b.datacount → 2 < b.datalen i → b.datalen i ≤ b.datacount →
      i + b.datalen i ≤ b.datacount := by
  constructor
  · intro h i hi hlt htwo hle
    obtain ⟨n, hn⟩ := exists_position hi
    refine h (n + 1) ⟨i, b.datalen i⟩ ?_
    rw [calls, Loop.upTo_add, List.reduceOption_append]
    refine List.mem_append_right _ ?_
    change _ ∈ (Loop.upTo (parseTurn b) (0 + 1) (position b n)).1.reduceOption
    rw [hn, Loop.upTo_of_some (parseTurn_of_lt hlt), if_pos ⟨htwo, hle⟩,
      List.reduceOption_cons_of_some]
    exact List.mem_cons_self
  · intro h n frame hframe
    obtain ⟨hi, hlt, hlen, htwo, hle⟩ := starts_of_mem_calls .first hframe
    rw [hlen] at htwo hle ⊢
    exact h _ hi hlt htwo hle

/-! ### Frames that are well formed -/

theorem slice_add (b : PptBuffer) (start m n : ℕ) :
    b.slice start (m + n) = b.slice start m ++ b.slice (start + m) n := by
  rw [PptBuffer.slice, PptBuffer.slice, PptBuffer.slice, ← List.map_append, ← List.range'_append,
    Nat.one_mul]

theorem length_slice (b : PptBuffer) (start n : ℕ) : (b.slice start n).length = n := by
  rw [PptBuffer.slice, List.length_map, List.length_range']

theorem getD_slice (b : PptBuffer) (start : ℕ) {n j : ℕ} (hj : j < n) :
    (b.slice start n).getD j 0 = b.szData (start + j) := by
  have hget : (List.range' start n)[j]? = some (start + j) := by
    rw [List.getElem?_range' hj, Nat.one_mul]
  rw [PptBuffer.slice, List.getD_eq_getElem?_getD, List.getElem?_map, hget]
  rfl

/-- From a place on, the walk finds the frames that are left. -/
theorem frames_from {frames : List (List Byte)} (hframes : ∀ frame ∈ frames, WellFormed frame)
    (hle : i ≤ b.datacount) (hbytes : b.slice i (b.datacount - i) = frames.flatten) :
    ∃ n, (Loop.upTo (parseTurn b) n i).2 = b.datacount ∧
      (Loop.upTo (parseTurn b) n i).1.reduceOption.map (fun frame => b.slice frame.start frame.len) =
        frames ∧
      (Loop.upTo (parseTurn b) n i).1.reduceOption.map Frame.len = frames.map List.length := by
  induction frames generalizing i with
  | nil =>
    have hlength := congrArg List.length hbytes
    rw [length_slice, List.flatten_nil, List.length_nil] at hlength
    exact ⟨0, by change i = b.datacount; omega, rfl, rfl⟩
  | cons frame frames ih =>
    obtain ⟨hsix, hlen⟩ := hframes frame List.mem_cons_self
    have htotal := congrArg List.length hbytes
    rw [length_slice, List.flatten_cons, List.length_append] at htotal
    -- the bytes are the frame, and what is left
    obtain ⟨rest, hrest⟩ : ∃ rest, b.datacount - i = frame.length + rest := ⟨_, htotal⟩
    rw [hrest, slice_add, List.flatten_cons] at hbytes
    obtain ⟨hframe, hothers⟩ := List.append_inj hbytes (length_slice ..)
    have hdatalen : b.datalen i = frame.length := by
      have hzero := getD_slice b i (n := frame.length) (j := 0) (by omega)
      have hone := getD_slice b i (n := frame.length) (j := 1) (by omega)
      rw [hframe] at hzero hone
      rw [PptBuffer.datalen, ← hlen, hzero, hone]
      rfl
    have hnext : b.datacount - (i + frame.length) = rest := by omega
    obtain ⟨n, hend, hcalls, hlens⟩ := ih (i := i + frame.length) (fun f hf => hframes f (List.mem_cons_of_mem _ hf))
      (by omega) (by rw [hnext]; exact hothers)
    refine ⟨n + 1, ?_⟩
    rw [Loop.upTo_of_some (parseTurn_of_lt (by omega)), hdatalen, if_pos (by omega),
      List.reduceOption_cons_of_some, List.map_cons, List.map_cons, List.map_cons, hcalls, hlens]
    exact ⟨hend, congrArg (· :: frames) hframe, rfl⟩

/-- **When the walk does what it should**: no length that it comes to is 0, and none that it accepts is
more than what is left. -/
theorem demultiplexed_iff (b : PptBuffer) : b.Demultiplexed ↔ b.Fits := by
  constructor
  · intro h i hi hlt
    exact ⟨ends_iff.mp h.ends i hi hlt, inside_iff.mp h.inside i hi hlt⟩
  · intro h
    refine ⟨ends_iff.mpr fun i hi hlt => (h i hi hlt).1, inside_iff.mpr fun i hi hlt => (h i hi hlt).2,
      fun frames hframes hbytes => ?_⟩
    obtain ⟨n, hend, hcalls, hlens⟩ := frames_from hframes (Nat.zero_le _) hbytes
    exact ⟨n, hend.ge, hcalls, hlens⟩

/-- Six zero bytes, on which the walk does not end; and a frame of three bytes before a length of six of
which three are there. -/
theorem zero_and_overlong :
    let zeros : PptBuffer := ⟨fun _ => 0, 6⟩
    let overlong : PptBuffer := ⟨fun j => if j = 1 then 3 else if j = 4 then 6 else 0, 6⟩
    (∀ n, position zeros n = 0) ∧ ¬ zeros.Demultiplexed ∧
      calls overlong 2 = [⟨0, 3⟩, ⟨3, 6⟩] ∧ ¬ overlong.Demultiplexed := by
  intro zeros overlong
  have hstays : ∀ n, position zeros n = 0 := by
    intro n
    have h := position_add_of_zero (b := zeros) (n := 0) (i := 0) rfl (by decide) (by decide) n
    rwa [Nat.zero_add] at h
  have hcalls : calls overlong 2 = [⟨0, 3⟩, ⟨3, 6⟩] := by decide
  refine ⟨hstays, fun h => ?_, hcalls, fun h => ?_⟩
  · obtain ⟨n, hn⟩ := h.ends
    rw [hstays] at hn
    exact absurd hn (by decide)
  · have hinside := h.inside 2 ⟨3, 6⟩ (by rw [hcalls]; decide)
    exact absurd hinside (by decide)

end PptIndex

end ReachEdukit
