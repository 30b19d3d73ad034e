import Mathlib

/-!
# Masks as finite sets

The low bits of a word hold a set of small numbers. `low k m` is that set; setting and clearing a
bit insert and erase, and a test of all the low bits at once asks whether the set is empty. The bits
above `k` are free for flags: they are not touched.

## Main definitions

* `BitMask.low` — the set in the low bits

## Main results

* `BitMask.low_clear`, `BitMask.low_set` — clearing and setting a bit
* `BitMask.and_ones_eq_zero_iff` — all low bits are clear exactly when the set is empty
-/

namespace BitMask

variable {w : ℕ} {m : BitVec w} {b i k : ℕ}

/-- The set held in the bits below `k`. -/
def low (k : ℕ) (m : BitVec w) : Finset ℕ := (Finset.range k).filter fun i => m.getLsbD i = true

theorem mem_low : i ∈ low k m ↔ i < k ∧ m.getLsbD i = true := by
  rw [low, Finset.mem_filter, Finset.mem_range]

/-- The word with one bit. -/
theorem getLsbD_one_shiftLeft (hb : b < w) (i : ℕ) :
    ((1 : BitVec w) <<< b).getLsbD i = decide (i = b) := by
  have htwo : (1 : BitVec w) <<< b = BitVec.twoPow w b := rfl
  rw [htwo, BitVec.getLsbD_twoPow]
  grind

theorem getLsbD_clear (hb : b < w) (i : ℕ) :
    (m &&& ~~~((1 : BitVec w) <<< b)).getLsbD i = (m.getLsbD i && decide (i ≠ b)) := by
  rw [BitVec.getLsbD_and, BitVec.getLsbD_not, getLsbD_one_shiftLeft hb]
  by_cases hi : i < w
  · simp [hi]
  · simp [BitVec.getLsbD_of_ge m i (Nat.le_of_not_lt hi)]

theorem getLsbD_set (hb : b < w) (i : ℕ) :
    (m ||| ((1 : BitVec w) <<< b)).getLsbD i = (m.getLsbD i || decide (i = b)) := by
  rw [BitVec.getLsbD_or, getLsbD_one_shiftLeft hb]

/-- Clearing a bit erases it. -/
theorem low_clear (hb : b < w) : low k (m &&& ~~~((1 : BitVec w) <<< b)) = (low k m).erase b := by
  ext i
  rw [Finset.mem_erase, mem_low, mem_low, getLsbD_clear hb, Bool.and_eq_true, decide_eq_true_eq]
  tauto

/-- Setting a low bit inserts it. -/
theorem low_set (hb : b < w) (hk : b < k) :
    low k (m ||| ((1 : BitVec w) <<< b)) = insert b (low k m) := by
  ext i
  rw [Finset.mem_insert, mem_low, mem_low, getLsbD_set hb, Bool.or_eq_true, decide_eq_true_eq]
  constructor
  · tauto
  · rintro (rfl | h)
    · exact ⟨hk, .inr rfl⟩
    · exact ⟨h.1, .inl h.2⟩

/-- The low bits are clear exactly when the set is empty. -/
theorem and_ones_eq_zero_iff : m &&& BitVec.ofNat w (2 ^ k - 1) = 0 ↔ low k m = ∅ := by
  have hbit : ∀ i, (m &&& BitVec.ofNat w (2 ^ k - 1)).getLsbD i =
      (m.getLsbD i && decide (i < k)) := by
    intro i
    rw [BitVec.getLsbD_and, BitVec.getLsbD_ofNat, Nat.testBit_two_pow_sub_one]
    by_cases hi : i < w
    · simp [hi]
    · simp [BitVec.getLsbD_of_ge m i (Nat.le_of_not_lt hi)]
  rw [Finset.eq_empty_iff_forall_notMem]
  constructor
  · intro h i hi
    have hzero := hbit i
    rw [h] at hzero
    simp [mem_low.mp hi] at hzero
  · intro h
    refine BitVec.eq_of_getLsbD_eq fun i _ => ?_
    rw [hbit]
    have hi := h i
    rw [mem_low] at hi
    cases hm : m.getLsbD i with
    | false => simp
    | true => simpa [hm] using hi

end BitMask
