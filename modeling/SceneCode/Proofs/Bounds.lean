import SceneCode.Number.Binary
import SceneCode.Proofs.Rounding

/-!
# Bounds of rounded numbers

A number that is at most some bound (`Binary.AtMost`) is finite. Each operation rounds once, and
what is rounded does not come out beyond a representable bound that it was not beyond
(`atMost_ofRatio`). So bounds go through all operations, as long as they stay representable.

* `AtMost.convert`, `AtMost.mul`, `AtMost.div`, `AtMost.roundHalfAway`: the bounds of results.
-/

namespace SceneCode.Binary

variable {f g : Format} {b c : ℚ} {x y : Binary f}

/-- The number is finite, and its magnitude is at most `b`. -/
def AtMost (b : ℚ) : Binary f → Prop
  | .nan => False
  | .real _ rank => rank.val < f.top ∧ f.magnitude rank ≤ b

/-- Only a finite number is at most some bound. -/
theorem AtMost.exists_eq (h : x.AtMost b) : ∃ (negative : Bool) (rank : Fin (f.top + 1)),
    x = .real negative rank ∧ rank.val < f.top ∧ f.magnitude rank ≤ b := by
  cases x with
  | nan => exact h.elim
  | real negative rank => exact ⟨negative, rank, rfl, h⟩

/-! ## Rounding -/

/-- The power of two is multiplied or divided by, as its sign tells. -/
theorem cast_ratio_scaled (significand : ℕ) (exponent : ℤ) :
    ((significand * Nat.pow 2 exponent.toNat : ℕ) : ℚ) / (Nat.pow 2 (-exponent).toNat : ℕ) =
      significand * 2 ^ exponent := by
  have hratio := cast_ratio_two_pow significand 1 (-exponent)
  rwa [neg_neg, one_mul, Nat.cast_one, div_one, zpow_neg, div_inv_eq_mul] at hratio

section Rounding

variable (hf : 2 ≤ f.digits) {negative : Bool} {num den : ℕ}
include hf

/-- What is rounded is not beyond a representable bound that the ratio is not beyond. -/
theorem atMost_ofRatio (hden : 0 < den) (hb : f.Representable b) (h : (num : ℚ) / den ≤ b) :
    (ofRatio negative num den : Binary f).AtMost b := by
  obtain ⟨bound, hbound, rfl⟩ := hb
  have hrank := Format.unboundedRank_le hf hden h
  have hnearest : (f.nearest num den).val = f.unboundedRank num den :=
    Nat.min_eq_right (hrank.trans hbound.le)
  rw [ofRatio, AtMost, hnearest]
  exact ⟨hrank.trans_lt hbound, f.magnitude_strictMono.monotone hrank⟩

/-- Rounding does not pass a number that is represented. -/
theorem atMost_ofScaled {significand : ℕ} {exponent : ℤ} (hb : f.Representable b)
    (h : (significand : ℚ) * 2 ^ exponent ≤ b) :
    (ofScaled negative significand exponent : Binary f).AtMost b :=
  atMost_ofRatio hf (Nat.two_pow_pos _) hb (by rwa [cast_ratio_scaled])

/-- What is representable is not changed by rounding. -/
theorem exists_ofRatio_eq (hden : 0 < den) (h : f.Representable (num / den)) :
    ∃ rank : Fin (f.top + 1), (ofRatio negative num den : Binary f) = .real negative rank ∧
      rank.val < f.top ∧ f.magnitude rank = num / den := by
  obtain ⟨rank, hrank, hmagnitude⟩ := h
  lift rank to Fin (f.top + 1) using by omega
  have hreads := Format.readsBack_magnitude (f := f) rank
  rw [hmagnitude] at hreads
  exact ⟨rank, congrArg _ (Format.nearest_eq hf hden hreads), hrank, hmagnitude⟩

/-- A number that is represented is not changed by rounding. -/
theorem exists_ofScaled_eq {significand : ℕ} {exponent : ℤ}
    (h : f.Representable (significand * 2 ^ exponent)) : ∃ rank : Fin (f.top + 1),
      (ofScaled negative significand exponent : Binary f) = .real negative rank ∧
        rank.val < f.top ∧ f.magnitude rank = significand * 2 ^ exponent := by
  rw [← cast_ratio_scaled] at h ⊢
  exact exists_ofRatio_eq hf (Nat.two_pow_pos _) h

end Rounding

/-! ## Operations -/

/-- A bound that the other format represents is a bound there too. -/
theorem AtMost.convert (hg : 2 ≤ g.digits) (hx : x.AtMost b) (hb : g.Representable b) :
    (x.convert g).AtMost b := by
  obtain ⟨negative, rank, rfl, hrank, hle⟩ := hx.exists_eq
  rw [Binary.convert, if_neg hrank.ne]
  exact atMost_ofScaled hg hb hle

section Arithmetic

variable {s t : Bool} {a d : Fin (f.top + 1)}

/-- Finite numbers are multiplied by their significands and exponents. -/
theorem mul_real (ha : a.val < f.top) (hd : d.val < f.top) :
    (real s a * real t d : Binary f) =
      ofScaled (s != t) (f.significand a * f.significand d) (f.exponent a + f.exponent d) :=
  if_neg (not_or.2 ⟨ha.ne, hd.ne⟩)

/-- Multiplying significands and adding exponents multiplies magnitudes. -/
theorem cast_product (a d : ℕ) :
    ((f.significand a * f.significand d : ℕ) : ℚ) * 2 ^ (f.exponent a + f.exponent d) =
      f.magnitude a * f.magnitude d := by
  rw [Format.magnitude, Format.magnitude, zpow_add₀ two_ne_zero]
  push_cast
  ring

/-- A finite number is divided by one that is not zero. -/
theorem div_real (ha : a.val < f.top) (hd : d.val < f.top) (hzero : d.val ≠ 0) :
    (real s a / real t d : Binary f) =
      ofRatio (s != t)
        (f.significand a * Nat.pow 2 (f.exponent a - f.exponent d).toNat)
        (f.significand d * Nat.pow 2 (-(f.exponent a - f.exponent d)).toNat) :=
  (if_neg ha.ne).trans ((if_neg hd.ne).trans (if_neg hzero))

/-- Dividing significands and subtracting exponents divides magnitudes. -/
theorem cast_quotient (a d : ℕ) :
    ((f.significand a * Nat.pow 2 (f.exponent a - f.exponent d).toNat : ℕ) : ℚ) /
        (f.significand d * Nat.pow 2 (-(f.exponent a - f.exponent d)).toNat : ℕ) =
      f.magnitude a / f.magnitude d := by
  have hratio := cast_ratio_two_pow (f.significand a) (f.significand d)
    (-(f.exponent a - f.exponent d))
  rw [neg_neg] at hratio
  rw [hratio, Format.magnitude, Format.magnitude, neg_sub, zpow_sub₀ two_ne_zero, div_div_div_eq]

theorem significand_pos {rank : ℕ} (h : 0 < f.magnitude rank) : 0 < f.significand rank := by
  rw [Format.magnitude] at h
  exact_mod_cast pos_of_mul_pos_left h (by positivity)

theorem ne_zero_of_magnitude_pos {rank : ℕ} (h : 0 < f.magnitude rank) : rank ≠ 0 := by
  rintro rfl
  exact h.ne' Format.magnitude_zero

variable (hf : 2 ≤ f.digits)
include hf

/-- Bounds are multiplied, if the product is represented. -/
theorem AtMost.mul (hx : x.AtMost b) (hy : y.AtMost c) (hbc : f.Representable (b * c)) :
    (x * y).AtMost (b * c) := by
  obtain ⟨s, r, rfl, hr, hrb⟩ := hx.exists_eq
  obtain ⟨t, r', rfl, hr', hrc⟩ := hy.exists_eq
  rw [mul_real hr hr']
  refine atMost_ofScaled hf hbc ?_
  rw [cast_product]
  exact mul_le_mul hrb hrc (Format.magnitude_nonneg _) ((Format.magnitude_nonneg _).trans hrb)

/-- A quotient by a finite number that is not zero. -/
theorem AtMost.div (hx : x.AtMost (b * c)) (hfinite : d.val < f.top) (hc : f.magnitude d = c)
    (hpos : 0 < c) (hb : f.Representable b) : (x / .real t d).AtMost b := by
  obtain ⟨s, r, rfl, hr, hle⟩ := hx.exists_eq
  subst hc
  rw [div_real hr hfinite (ne_zero_of_magnitude_pos hpos)]
  refine atMost_ofRatio hf (Nat.mul_pos (significand_pos hpos) (Nat.two_pow_pos _)) hb ?_
  rwa [cast_quotient, div_le_iff₀ hpos]

end Arithmetic

/-- Rounding half up does not pass a whole number. -/
theorem roundHalfUp_le {num den n : ℕ} (hden : 0 < den) (h : num ≤ n * den) :
    roundHalfUp num den ≤ n := by
  refine Nat.le_of_lt_succ (Nat.div_lt_of_lt_mul ?_)
  have hsucc : 2 * den * (n + 1) = 2 * (n * den) + 2 * den := by ring
  rw [hsucc]
  omega

/-- A number is rounded to a whole one that is not beyond a whole bound. -/
theorem AtMost.roundHalfAway (hf : 2 ≤ f.digits) {n : ℕ} (hx : x.AtMost n)
    (hn : f.Representable n) : x.roundHalfAway.AtMost n := by
  obtain ⟨s, r, rfl, hr, hle⟩ := hx.exists_eq
  rw [Binary.roundHalfAway]
  split
  · exact ⟨hr, hle⟩
  · next h =>
    obtain ⟨-, hexponent⟩ := not_or.1 h
    have hpow : (2 : ℚ) ^ (-f.exponent r).toNat * 2 ^ f.exponent r = 1 := by
      rw [← zpow_natCast, Int.toNat_of_nonneg (by omega), ← zpow_add₀ two_ne_zero, neg_add_cancel,
        zpow_zero]
    have hsignificand : f.significand r ≤ n * Nat.pow 2 (-f.exponent r).toNat := by
      have hcast : (f.significand r : ℚ) ≤ n * 2 ^ (-f.exponent r).toNat := by
        calc (f.significand r : ℚ)
            = f.magnitude r * 2 ^ (-f.exponent r).toNat := by
              rw [Format.magnitude, mul_assoc, mul_comm (2 ^ _), hpow, mul_one]
          _ ≤ n * 2 ^ (-f.exponent r).toNat := by gcongr
      exact_mod_cast hcast
    refine atMost_ofRatio hf one_pos hn ?_
    rw [Nat.cast_one, div_one, Nat.cast_le]
    exact roundHalfUp_le (Nat.two_pow_pos _) hsignificand

end SceneCode.Binary
