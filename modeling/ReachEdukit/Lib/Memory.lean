import Mathlib

/-!
# Memories and copies

A memory is a function from addresses to values. `blit` writes a list into it and `window` reads
one back. The lemmas say what a window sees of a blit: all of it, none of it, or the blit as the
end of a longer window — which is how a buffer filled by successive copies is read.

## Main definitions

* `Memory.blit`, `Memory.window` — write and read a block
* `Memory.memcpy` — a copy that fails when it leaves either buffer

## Main results

* `Memory.window_blit_append` — a block written behind a window extends what is read
-/

namespace Memory

variable {α : Type*}

/-- `m` with the list `bs` written from address `off` on. -/
def blit (m : ℕ → α) (off : ℕ) (bs : List α) : ℕ → α := fun i =>
  if off ≤ i then (bs[i - off]?).getD (m i) else m i

/-- The `len` values from address `off` on. -/
def window (m : ℕ → α) (off len : ℕ) : List α := (List.range len).map fun i => m (off + i)

@[simp] theorem length_window (m : ℕ → α) (off len : ℕ) : (window m off len).length = len := by
  simp [window]

@[simp] theorem window_zero (m : ℕ → α) (off : ℕ) : window m off 0 = [] := rfl

theorem window_add (m : ℕ → α) (off a b : ℕ) :
    window m off (a + b) = window m off a ++ window m (off + a) b := by
  simp [window, List.range_add, Nat.add_assoc]

theorem window_congr {m m' : ℕ → α} {off len : ℕ} (h : ∀ i < len, m (off + i) = m' (off + i)) :
    window m off len = window m' off len := by
  rw [window, window]
  exact List.map_congr_left fun i hi => h i (List.mem_range.mp hi)

@[simp] theorem blit_nil (m : ℕ → α) (off : ℕ) : blit m off [] = m := by
  funext i
  simp [blit]

theorem blit_of_lt {m : ℕ → α} {off i : ℕ} {bs : List α} (h : i < off) : blit m off bs i = m i := by
  rw [blit, if_neg (Nat.not_le.mpr h)]

theorem blit_cons_self (m : ℕ → α) (off : ℕ) (b : α) (bs : List α) :
    blit m off (b :: bs) off = b := by
  simp [blit]

/-- A window on the block just written. -/
theorem window_blit_self (m : ℕ → α) (off : ℕ) (bs : List α) :
    window (blit m off bs) off bs.length = bs := by
  refine List.ext_getElem (length_window ..) fun i h₁ h₂ => ?_
  simp [window, blit, h₂]

/-- A window below the block written. -/
theorem window_blit_of_le {m : ℕ → α} {off len o : ℕ} {bs : List α} (h : off + len ≤ o) :
    window (blit m o bs) off len = window m off len :=
  window_congr fun i hi => blit_of_lt (by omega)

/-- A window above the block written. -/
theorem window_blit_of_ge {m : ℕ → α} {off len o : ℕ} {bs : List α} (h : o + bs.length ≤ off) :
    window (blit m o bs) off len = window m off len := by
  refine window_congr fun i _ => ?_
  rw [blit, if_pos (by omega), List.getElem?_eq_none (by omega), Option.getD_none]

/-- A block written behind a window extends what is read. -/
theorem window_blit_append {m : ℕ → α} {pre bs : List α}
    (h : window m 0 pre.length = pre) :
    window (blit m pre.length bs) 0 (pre.length + bs.length) = pre ++ bs := by
  have hlow : window (blit m pre.length bs) 0 pre.length = pre := by
    rw [window_blit_of_le (by omega), h]
  rw [window_add, hlow, Nat.zero_add, window_blit_self]

/-- A block written behind a window anywhere extends it. -/
theorem window_blit_behind (m : ℕ → α) (off k : ℕ) (bs : List α) :
    window (blit m (off + k) bs) off (k + bs.length) = window m off k ++ bs := by
  rw [window_add, window_blit_of_le le_rfl, window_blit_self]

/-- What a list holds, as a memory that is `d` behind its end. -/
def ofList (d : α) (bs : List α) : ℕ → α := fun i => (bs[i]?).getD d

theorem window_ofList_append (d : α) (pre bs post : List α) :
    window (ofList d (pre ++ (bs ++ post))) pre.length bs.length = bs := by
  refine List.ext_getElem (length_window ..) fun i h₁ h₂ => ?_
  have hi : (pre ++ (bs ++ post))[pre.length + i]? = some bs[i] := by
    rw [List.getElem?_append_right (by omega), Nat.add_sub_cancel_left,
      List.getElem?_append_left h₂, List.getElem?_eq_getElem h₂]
  simp [window, ofList, hi]

theorem window_ofList (d : α) {bs : List α} {off len : ℕ} (h : off + len ≤ bs.length) :
    window (ofList d bs) off len = (bs.drop off).take len := by
  have hpre : (bs.take off).length = off := List.length_take_of_le (by omega)
  have hmid : ((bs.drop off).take len).length = len := by
    rw [List.length_take, List.length_drop]
    omega
  have hread := window_ofList_append d (bs.take off) ((bs.drop off).take len)
    ((bs.drop off).drop len)
  rwa [List.take_append_drop, List.take_append_drop, hpre, hmid] at hread

/-- `memcpy(dst + dOff, src + sOff, len)` between buffers of `dRoom` and `sRoom` values. A negative
length is a huge unsigned one, and leaves every buffer. -/
def memcpy (dst : ℕ → α) (dRoom dOff : ℕ) (src : ℕ → α) (sRoom sOff : ℕ) (len : ℤ) :
    Option (ℕ → α) :=
  if 0 ≤ len ∧ dOff + len ≤ dRoom ∧ sOff + len ≤ sRoom then
    some (blit dst dOff (window src sOff len.toNat))
  else none

theorem memcpy_eq_none_iff {dst src : ℕ → α} {dRoom dOff sRoom sOff : ℕ} {len : ℤ} :
    memcpy dst dRoom dOff src sRoom sOff len = none ↔
      ¬ (0 ≤ len ∧ dOff + len ≤ dRoom ∧ sOff + len ≤ sRoom) := by
  rw [memcpy]
  split <;> simp_all

/-- What is made of a copy is missing exactly when the copy is. -/
theorem memcpy_bind_eq_none_iff {β : Type*} {dst src : ℕ → α} {dRoom dOff sRoom sOff : ℕ} {len : ℤ}
    {g : (ℕ → α) → β} :
    ((memcpy dst dRoom dOff src sRoom sOff len).bind fun m => some (g m)) = none ↔
      ¬ (0 ≤ len ∧ dOff + len ≤ dRoom ∧ sOff + len ≤ sRoom) := by
  rw [← @memcpy_eq_none_iff α dst src]
  cases memcpy dst dRoom dOff src sRoom sOff len <;> simp

theorem memcpy_eq_some {dst src m : ℕ → α} {dRoom dOff sRoom sOff : ℕ} {len : ℤ}
    (h : memcpy dst dRoom dOff src sRoom sOff len = some m) :
    (0 ≤ len ∧ dOff + len ≤ dRoom ∧ sOff + len ≤ sRoom) ∧
      m = blit dst dOff (window src sOff len.toNat) := by
  rw [memcpy] at h
  split at h
  · exact ⟨‹_›, (Option.some.inj h).symm⟩
  · exact absurd h (by simp)

theorem memcpy_natCast {dst src : ℕ → α} {dRoom dOff sRoom sOff len : ℕ}
    (hd : dOff + len ≤ dRoom) (hs : sOff + len ≤ sRoom) :
    memcpy dst dRoom dOff src sRoom sOff len = some (blit dst dOff (window src sOff len)) := by
  rw [memcpy, if_pos ⟨by omega, by omega, by omega⟩, Int.toNat_natCast]

end Memory
