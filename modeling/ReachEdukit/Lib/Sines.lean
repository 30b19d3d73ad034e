import Mathlib

/-!
# The sines of whole numbers

The sine of `n` is a part of the power `n` of `exp i`. A point with whole coordinates over one
denominator, in the unit disc and close to `exp i`, has powers that are close to those of `exp i`, and
these are whole numbers again. So the digits of `|sin n|` are found by a calculation with whole numbers.

## Main definitions

* `Sines.gaussPow` — the powers of `a + b i`
* `Sines.Near` — `(a + b i) / d` is close to `exp i`
* `Sines.Enclosed` — the calculation that shows the first digits of `|sin n|`

## Main results

* `Sines.Near.sin_le` — the error of the power
* `Sines.Enclosed.floor_eq` — the digits
* `Sines.near_exp` — a point with eighteen digits
-/

namespace Sines

open Complex Finset

/-- The power `n` of `a + b i`: its two parts. -/
def gaussPow (a b : ℤ) : ℕ → ℤ × ℤ
  | 0 => (1, 0)
  | n + 1 =>
    let p := gaussPow a b n
    (p.1 * a - p.2 * b, p.1 * b + p.2 * a)

/-- `(a + b i) / d` lies in the unit disc, and not further than `1 / e` from `exp i`. -/
structure Near (a b : ℤ) (d e : ℕ) : Prop where
  d_pos : 0 < d
  e_pos : 0 < e
  inDisc : a ^ 2 + b ^ 2 ≤ (d : ℤ) ^ 2
  close : ‖exp I - (a + b * I) / d‖ ≤ 1 / e

/-- `t` is what is before the point of `s * |sin n|`, with room for the error of the power. -/
structure Enclosed (a b : ℤ) (d e s n t : ℕ) : Prop where
  low : t * d ^ n * e + s * n * d ^ n ≤ s * e * (gaussPow a b n).2.natAbs
  high : s * e * (gaussPow a b n).2.natAbs + s * n * d ^ n < (t + 1) * d ^ n * e

instance (a b : ℤ) (d e s n t : ℕ) : Decidable (Enclosed a b d e s n t) :=
  decidable_of_iff (t * d ^ n * e + s * n * d ^ n ≤ s * e * (gaussPow a b n).2.natAbs ∧
    s * e * (gaussPow a b n).2.natAbs + s * n * d ^ n < (t + 1) * d ^ n * e)
    ⟨fun h => ⟨h.1, h.2⟩, fun h => ⟨h.low, h.high⟩⟩

variable {a b : ℤ} {d e s n t : ℕ}

/-! ### The powers -/

theorem gaussPow_eq (a b : ℤ) (n : ℕ) :
    ((a : ℂ) + b * I) ^ n = (gaussPow a b n).1 + (gaussPow a b n).2 * I := by
  induction n with
  | zero => simp [gaussPow]
  | succ n ih =>
    rw [pow_succ, ih, gaussPow]
    push_cast
    linear_combination (gaussPow a b n).2 * (b : ℂ) * I_sq

/-- The powers of two points of the unit disc. -/
theorem norm_pow_sub_pow_le {z w : ℂ} (hz : ‖z‖ ≤ 1) (hw : ‖w‖ ≤ 1) (n : ℕ) :
    ‖z ^ n - w ^ n‖ ≤ n * ‖z - w‖ := by
  induction n with
  | zero => simp
  | succ n ih =>
    have hcut : z ^ (n + 1) - w ^ (n + 1) = z * (z ^ n - w ^ n) + (z - w) * w ^ n := by ring
    have hpow : ‖w ^ n‖ ≤ 1 := by
      rw [norm_pow]
      exact pow_le_one₀ (norm_nonneg w) hw
    calc ‖z ^ (n + 1) - w ^ (n + 1)‖
        ≤ ‖z * (z ^ n - w ^ n)‖ + ‖(z - w) * w ^ n‖ := by
          rw [hcut]
          exact norm_add_le _ _
      _ = ‖z‖ * ‖z ^ n - w ^ n‖ + ‖z - w‖ * ‖w ^ n‖ := by rw [norm_mul, norm_mul]
      _ ≤ 1 * (n * ‖z - w‖) + ‖z - w‖ * 1 := by gcongr
      _ = (n + 1 : ℕ) * ‖z - w‖ := by
          push_cast
          ring

/-- A point of the unit disc, over its denominator. -/
theorem Near.norm_le (h : Near a b d e) : ‖((a : ℂ) + b * I) / d‖ ≤ 1 := by
  have hd : (0 : ℝ) < d := Nat.cast_pos.mpr h.d_pos
  have hsq : (a : ℝ) ^ 2 + (b : ℝ) ^ 2 ≤ (d : ℝ) ^ 2 := mod_cast h.inDisc
  have hparts : ((a : ℂ) + b * I) = ((a : ℝ) : ℂ) + ((b : ℝ) : ℂ) * I := by push_cast; rfl
  rw [norm_div, norm_natCast, div_le_one hd, hparts, norm_add_mul_I]
  exact Real.sqrt_le_iff.mpr ⟨hd.le, hsq⟩

/-- **The error of the power**: `n` times that of the point. -/
theorem Near.sin_le (h : Near a b d e) (n : ℕ) :
    |Real.sin n - (gaussPow a b n).2 / (d : ℝ) ^ n| ≤ n / e := by
  have hturn : exp I ^ n = Real.cos n + Real.sin n * I := by
    rw [← exp_nat_mul, ofReal_cos, ofReal_sin, ofReal_natCast, ← exp_mul_I]
  have hpow : (((a : ℂ) + b * I) / d) ^ n =
      (((gaussPow a b n).1 / (d : ℝ) ^ n : ℝ) : ℂ) + (((gaussPow a b n).2 / (d : ℝ) ^ n : ℝ) : ℂ) * I := by
    rw [div_pow, gaussPow_eq]
    push_cast
    ring
  have hnorm : ‖exp I‖ ≤ 1 := by
    have hunit := norm_exp_I_mul_ofReal 1
    rw [ofReal_one, mul_one] at hunit
    exact hunit.le
  have hpart : (exp I ^ n - (((a : ℂ) + b * I) / d) ^ n).im =
      Real.sin n - (gaussPow a b n).2 / (d : ℝ) ^ n := by
    rw [hturn, hpow, sub_im]
    simp only [add_im, ofReal_im, mul_im, ofReal_re, I_im, I_re, mul_one, mul_zero, add_zero, zero_add]
  calc |Real.sin n - (gaussPow a b n).2 / (d : ℝ) ^ n|
      ≤ ‖exp I ^ n - (((a : ℂ) + b * I) / d) ^ n‖ := by
        rw [← hpart]
        exact abs_im_le_norm _
    _ ≤ n * ‖exp I - (a + b * I) / d‖ := norm_pow_sub_pow_le hnorm h.norm_le n
    _ ≤ n * (1 / e) := by gcongr; exact h.close
    _ = n / e := mul_one_div _ _

/-- **The digits of `|sin n|`.** -/
theorem Enclosed.floor_eq (h : Near a b d e) (ht : Enclosed a b d e s n t) :
    ⌊(s : ℝ) * |Real.sin n|⌋₊ = t := by
  have hd : (0 : ℝ) < (d : ℝ) ^ n := pow_pos (Nat.cast_pos.mpr h.d_pos) n
  have he : (0 : ℝ) < e := Nat.cast_pos.mpr h.e_pos
  have habs : |((gaussPow a b n).2 : ℝ) / (d : ℝ) ^ n| = ((gaussPow a b n).2.natAbs : ℝ) / (d : ℝ) ^ n := by
    rw [abs_div, abs_of_pos hd, Nat.cast_natAbs, Int.cast_abs]
  -- how far the sine can be from the power, without its sign
  have herror : |(|Real.sin n| - ((gaussPow a b n).2.natAbs : ℝ) / (d : ℝ) ^ n)| ≤ n / e :=
    habs ▸ (abs_abs_sub_abs_le _ _).trans (h.sin_le n)
  obtain ⟨hbelow, habove⟩ := abs_le.mp herror
  set q : ℝ := ((gaussPow a b n).2.natAbs : ℝ) / (d : ℝ) ^ n with hq
  have hqd : q * (d : ℝ) ^ n = (gaussPow a b n).2.natAbs := div_mul_cancel₀ _ hd.ne'
  have hlow : (t : ℝ) + s * (n / e) ≤ s * q := by
    have hcast : (t : ℝ) * d ^ n * e + s * n * d ^ n ≤ s * e * (gaussPow a b n).2.natAbs := mod_cast ht.low
    rw [← hqd] at hcast
    refine le_of_mul_le_mul_right (a := (d : ℝ) ^ n * e) ?_ (mul_pos hd he)
    have hfrac : s * (n / (e : ℝ)) * ((d : ℝ) ^ n * e) = s * n * d ^ n := by
      field_simp
    linarith
  have hhigh : s * q + s * (n / e) < (t : ℝ) + 1 := by
    have hcast : (s : ℝ) * e * (gaussPow a b n).2.natAbs + s * n * d ^ n < (t + 1) * d ^ n * e :=
      mod_cast ht.high
    rw [← hqd] at hcast
    refine lt_of_mul_lt_mul_right (a := (d : ℝ) ^ n * e) ?_ (mul_pos hd he).le
    have hfrac : s * (n / (e : ℝ)) * ((d : ℝ) ^ n * e) = s * n * d ^ n := by
      field_simp
    linarith
  have hs : (0 : ℝ) ≤ s := Nat.cast_nonneg s
  rw [Nat.floor_eq_iff (mul_nonneg hs (abs_nonneg _))]
  constructor
  · calc (t : ℝ) ≤ s * (q - n / e) := by linarith
      _ ≤ s * |Real.sin n| := by gcongr; linarith
  · calc (s : ℝ) * |Real.sin n| ≤ s * (q + n / e) := by gcongr; linarith
      _ < t + 1 := by linarith

/-! ### A point -/

/-- The first `k` terms of `cos 1`. -/
def cosTerms (k : ℕ) : ℚ := ∑ j ∈ range k, (-1) ^ j / ((2 * j).factorial : ℚ)

/-- The first `k` terms of `sin 1`. -/
def sinTerms (k : ℕ) : ℚ := ∑ j ∈ range k, (-1) ^ j / ((2 * j + 1).factorial : ℚ)

/-- The terms of `exp i` are those of the cosine and of the sine in turn. -/
theorem sum_exp_I (k : ℕ) :
    ∑ m ∈ range (2 * k), I ^ m / (m.factorial : ℂ) = (cosTerms k : ℂ) + (sinTerms k : ℂ) * I := by
  induction k with
  | zero => simp [cosTerms, sinTerms]
  | succ k ih =>
    have heven : I ^ (2 * k) = (-1) ^ k := by rw [pow_mul, I_sq]
    rw [Nat.mul_succ, sum_range_succ, sum_range_succ, ih, pow_succ, heven, cosTerms, sinTerms,
      cosTerms, sinTerms, sum_range_succ, sum_range_succ]
    push_cast
    ring

/-- **A point near `exp i`**, from so many terms that what they leave out and what the digits leave out
is less than `1 / e`. -/
theorem near_of_terms {k : ℕ} (hk : 0 < k) (hd : 0 < d) (he : 0 < e) (hdisc : a ^ 2 + b ^ 2 ≤ (d : ℤ) ^ 2)
    (h : |cosTerms k - a / d| + |sinTerms k - b / d| + (2 * k + 1) / ((2 * k).factorial * (2 * k)) ≤
      1 / (e : ℚ)) :
    Near a b d e where
  d_pos := hd
  e_pos := he
  inDisc := hdisc
  close := by
    have htail := exp_bound (x := I) (by rw [norm_I]) (show 0 < 2 * k by omega)
    rw [sum_exp_I, norm_I, one_pow, one_mul] at htail
    set p : ℂ := (cosTerms k : ℂ) + (sinTerms k : ℂ) * I with hp
    have hparts : p - (a + b * I) / d = ⟨cosTerms k - a / d, sinTerms k - b / d⟩ := by
      rw [hp, mk_eq_add_mul_I]
      push_cast
      ring
    have hdigits : ‖p - (a + b * I) / d‖ ≤ |(cosTerms k - a / d : ℝ)| + |(sinTerms k - b / d : ℝ)| :=
      hparts ▸ norm_le_abs_re_add_abs_im _
    have hcast := (Rat.cast_le (K := ℝ)).mpr h
    push_cast at hcast
    calc ‖exp I - (a + b * I) / d‖
        ≤ ‖exp I - p‖ + ‖p - (a + b * I) / d‖ := norm_sub_le_norm_sub_add_norm_sub _ _ _
      _ ≤ 1 / e := by
        push_cast at htail
        rw [← div_eq_mul_inv] at htail
        linarith

/-- Eighteen digits. -/
theorem near_exp : Near 540302305868139717 841470984807896506 (10 ^ 18) (5 * 10 ^ 17) :=
  near_of_terms (show 0 < 11 by decide) (by decide) (by decide) (by decide) (by decide +kernel)

end Sines
