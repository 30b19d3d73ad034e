import Mathlib

/-!
# Hashes that eat a message block by block

A state takes the message in blocks of one size. The bytes of the message that do not fill a block
wait until more come. Whatever the pieces are that a message comes in, the state and what waits are
those of the whole message.

## Main definitions

* `BlockHash.absorb` — the state after the whole blocks of a message
* `BlockHash.rest` — what is left of it
* `BlockHash.padded` — a message with a mark, zeros and its length behind it

## Main results

* `BlockHash.absorb_append`, `BlockHash.rest_append` — more of the message
* `BlockHash.absorb_congr` — two compressions that agree on the blocks
* `BlockHash.absorb_cut` — the whole blocks of a message that is longer than the gap in a block
-/

namespace BlockHash

variable {α S : Type*}

/-- What the whole blocks of a message leave. -/
def rest (size : ℕ) (l : List α) : List α := l.drop (size * (l.length / size))

/-- The state after `n` blocks. -/
def blocks (compress : S → List α → S) (size : ℕ) : ℕ → S → List α → S
  | 0, s, _ => s
  | n + 1, s, l => blocks compress size n (compress s (l.take size)) (l.drop size)

/-- The state after the whole blocks of a message. -/
def absorb (compress : S → List α → S) (size : ℕ) (s : S) (l : List α) : S :=
  blocks compress size (l.length / size) s l

variable {compress : S → List α → S} {size : ℕ} {s : S} {l l' : List α}

/-- Blocks that a longer message starts with. -/
theorem blocks_append {n : ℕ} (h : size * n ≤ l.length) (s : S) (l' : List α) :
    blocks compress size n s (l ++ l') = blocks compress size n s l := by
  induction n generalizing s l with
  | zero => rfl
  | succ n ih =>
    rw [Nat.mul_succ] at h
    have hsize : size ≤ l.length := by omega
    rw [blocks, blocks, List.take_append_of_le_length hsize, List.drop_append_of_le_length hsize]
    refine ih ?_ _
    rw [List.length_drop]
    omega

theorem blocks_add (n m : ℕ) (s : S) (l : List α) :
    blocks compress size (n + m) s l =
      blocks compress size m (blocks compress size n s l) (l.drop (size * n)) := by
  induction n generalizing s l with
  | zero => rw [Nat.zero_add, Nat.mul_zero, List.drop_zero, blocks]
  | succ n ih =>
    rw [Nat.succ_add, blocks, blocks, ih, List.drop_drop, Nat.mul_succ, Nat.add_comm size]

/-- Compressions that agree on the blocks of a message. -/
theorem blocks_congr {T : Type*} {compress' : T → List α → T} {f : S → T}
    (hf : ∀ s block, block.length = size → f (compress s block) = compress' (f s) block) {n : ℕ}
    (h : size * n ≤ l.length) (s : S) :
    f (blocks compress size n s l) = blocks compress' size n (f s) l := by
  induction n generalizing s l with
  | zero => rfl
  | succ n ih =>
    rw [Nat.mul_succ] at h
    have hblock : (l.take size).length = size := List.length_take_of_le (by omega)
    rw [blocks, blocks, ← hf s _ hblock]
    refine ih ?_ _
    rw [List.length_drop]
    omega

/-- A compression under another name of the state. -/
theorem absorb_congr {T : Type*} {compress' : T → List α → T} {f : S → T}
    (hf : ∀ s block, block.length = size → f (compress s block) = compress' (f s) block) (s : S) (l : List α) :
    f (absorb compress size s l) = absorb compress' size (f s) l :=
  blocks_congr hf (Nat.mul_div_le _ _) s

theorem absorb_of_lt (h : l.length < size) : absorb compress size s l = s := by
  rw [absorb, Nat.div_eq_of_lt h, blocks]

theorem absorb_block (hsize : 0 < size) (h : l.length = size) :
    absorb compress size s l = compress s l := by
  rw [absorb, h, Nat.div_self hsize, blocks, blocks, ← h, List.take_length]

theorem rest_of_lt (h : l.length < size) : rest size l = l := by
  rw [rest, Nat.div_eq_of_lt h, Nat.mul_zero, List.drop_zero]

theorem length_rest (size : ℕ) (l : List α) : (rest size l).length = l.length % size := by
  rw [rest, List.length_drop, ← Nat.mod_eq_sub_mul_div]

theorem length_rest_lt (hsize : 0 < size) (l : List α) : (rest size l).length < size :=
  (length_rest size l).trans_lt (Nat.mod_lt _ hsize)

/-- The number of whole blocks when more comes. -/
theorem length_append_div (hsize : 0 < size) (l l' : List α) :
    (l ++ l').length / size = l.length / size + (rest size l ++ l').length / size := by
  have hlength : (l ++ l').length = (rest size l ++ l').length + size * (l.length / size) := by
    have := Nat.mod_add_div l.length size
    rw [List.length_append, List.length_append, length_rest]
    omega
  rw [hlength, Nat.add_mul_div_left _ _ hsize, Nat.add_comm]

/-- **More of the message**: its bytes come behind those that wait. -/
theorem absorb_append (hsize : 0 < size) (s : S) (l l' : List α) :
    absorb compress size s (l ++ l') =
      absorb compress size (absorb compress size s l) (rest size l ++ l') := by
  have hle : size * (l.length / size) ≤ l.length := Nat.mul_div_le _ _
  rw [absorb, length_append_div hsize, blocks_add, blocks_append hle,
    List.drop_append_of_le_length hle]
  rfl

/-- What waits then. -/
theorem rest_append (hsize : 0 < size) (l l' : List α) :
    rest size (l ++ l') = rest size (rest size l ++ l') := by
  have hle : size * (l.length / size) ≤ l.length := Nat.mul_div_le _ _
  rw [rest, length_append_div hsize, Nat.mul_add, ← List.drop_drop, List.drop_append_of_le_length hle]
  rfl

/-- A message that fills a first block: the block, and the message behind it. -/
theorem absorb_cut (hsize : 0 < size) (h : l.length = size) (s : S) (l' : List α) :
    absorb compress size s (l ++ l') = absorb compress size (compress s l) l' := by
  have hrest : rest size l = [] := List.length_eq_zero_iff.mp (by rw [length_rest, h, Nat.mod_self])
  rw [absorb_append hsize, absorb_block hsize h, hrest, List.nil_append]

theorem rest_cut (hsize : 0 < size) (h : l.length = size) (l' : List α) :
    rest size (l ++ l') = rest size l' := by
  have hrest : rest size l = [] := List.length_eq_zero_iff.mp (by rw [length_rest, h, Nat.mod_self])
  rw [rest_append hsize, hrest, List.nil_append]

/-! ### The padding -/

/-- The zeros between the mark and a length of `width` bytes. -/
def zeros (size width n : ℕ) : ℕ := (size - (n + 1 + width) % size) % size

/-- A message with a mark, zeros and its length behind it. -/
def padded (size : ℕ) (mark zero : α) (len : ℕ → List α) (l : List α) : List α :=
  l ++ (mark :: List.replicate (zeros size (len l.length).length l.length) zero ++ len l.length)

end BlockHash
