import Mathlib.Algebra.Order.Floor.Semifield
import Mathlib.Data.Rat.Floor
import SceneCode.Proofs.Agreement
import SceneCode.Proofs.FiniteLiterals

/-!
# Rounding to decimal places is done once

A literal is a number that has been rounded to decimal places. To round it again gives the same
literal, although neither step of the rounding is exact: the whole number `k` that a number is
scaled up to is divided by the power of ten in double precision, and the quotient is rounded to
single precision.

Let `y` be the magnitude that comes out, and `u` the power of two that it is a multiple of. Then `k`
is off from `y`, scaled up, by half of a `u` scaled up, and by a little more for the rounding to
double precision. The power of ten times `u` is not close to one, unless it is one
(`Literal.scaled_two_zpow_cases`).

If it is less than one, then `k` is off by less than a half, so it comes out again. If it is more
than one, another whole number may come out, but that one is off by a half at most, which is clearly
less than half of a `u` scaled up. So it reads back to `y`. This would fail where `y` is the first
magnitude of a binade, since the magnitudes below are closer together: there, `y` is whole when it
is scaled up (`Literal.exists_natCast_eq_first`), and comes out as it is.

* `Literal.ofSingle_ofSingle`: to round a literal again changes nothing;
* `Literal.scalar_scalar`: the same at any precision, in range or not.
-/

namespace SceneCode

/-! ## Spacing -/

namespace Format

variable {f : Format} {rank : ℕ} {t : ℚ} {n : ℤ}

/-- The spacing of numbers never falls. -/
theorem exponent_monotone {r s : ℕ} (h : r ≤ s) : f.exponent r ≤ f.exponent s := by
  have hbinade := Nat.div_le_div_right (c := f.width) h
  rw [exponent, exponent]
  omega

/-- A number is off by half the spacing at most from the magnitude that it reads back to. -/
theorem ReadsBack.abs_sub_le (h : f.ReadsBack rank t) :
    |f.magnitude rank - t| ≤ 2 ^ f.exponent rank / 2 := by
  obtain ⟨hlower, hupper⟩ := h.le
  have hpos : (0 : ℚ) < 2 ^ f.exponent rank := by positivity
  have hbelow : f.magnitude rank ≤ f.magnitude (rank - 1) + 2 ^ f.exponent rank := by
    cases rank with
    | zero => exact le_add_of_nonneg_right hpos.le
    | succ rank =>
      rw [magnitude_succ, Nat.add_sub_cancel]
      gcongr
      · exact one_le_two
      · exact exponent_monotone rank.le_succ
  rw [magnitude_succ] at hupper
  rw [abs_sub_le_iff]
  constructor <;> linarith

/-- Within a binade, what is closer than half the spacing reads back. -/
theorem readsBack_of_abs_sub_lt (hpos : 0 < rank)
    (hbinade : f.exponent (rank - 1) = f.exponent rank)
    (h : |f.magnitude rank - t| < 2 ^ f.exponent rank / 2) : f.ReadsBack rank t := by
  have hprevious := f.magnitude_succ (rank - 1)
  rw [Nat.sub_add_cancel hpos, hbinade] at hprevious
  obtain ⟨hlower, hupper⟩ := abs_sub_lt_iff.1 h
  rw [ReadsBack, magnitude_succ]
  split
  · constructor <;> linarith
  · constructor <;> linarith

/-- Where the spacing changes, a binade starts. -/
theorem significand_eq_width (hpos : 0 < rank) (h : f.exponent (rank - 1) ≠ f.exponent rank) :
    f.significand rank = f.width := by
  obtain ⟨r, rfl⟩ := Nat.exists_eq_succ_of_ne_zero hpos.ne'
  have hdvd : f.width ∣ r + 1 := by
    by_contra hdvd
    exact h (by rw [exponent, exponent, Nat.succ_sub_one, Nat.succ_div_of_not_dvd hdvd])
  rw [significand, if_neg (Nat.not_lt.2 (Nat.le_of_dvd r.succ_pos hdvd)),
    Nat.mod_eq_zero_of_dvd hdvd, add_zero]

/-- A magnitude that is not beyond a power of two is a multiple of a power that is less by the
    digits of a significand. -/
theorem exponent_add_le (h : f.magnitude rank ≤ 2 ^ n)
    (hleast : f.least + (f.digits - 1 : ℕ) ≤ n) : f.exponent rank + (f.digits - 1 : ℕ) ≤ n := by
  by_cases hfirst : rank < f.width
  · rwa [f.exponent_of_lt hfirst]
  · have hsignificand : (f.width : ℚ) ≤ f.significand rank := by
      rw [significand, if_neg hfirst]
      exact_mod_cast Nat.le_add_right _ _
    rw [← zpow_le_zpow_iff_right₀ (one_lt_two (α := ℚ)), zpow_add₀ two_ne_zero, ← cast_width,
      mul_comm]
    exact (mul_le_mul_of_nonneg_right hsignificand (by positivity)).trans h

/-- The error of rounding, where the result is not beyond a power of two. -/
theorem ReadsBack.abs_sub_le_of_le (h : f.ReadsBack rank t) (hn : f.magnitude rank ≤ 2 ^ n)
    (hleast : f.least + (f.digits - 1 : ℕ) ≤ n) :
    |f.magnitude rank - t| ≤ 2 ^ (n - (f.digits - 1 : ℕ)) / 2 := by
  have hexponent := exponent_add_le hn hleast
  have hpow : (2 : ℚ) ^ f.exponent rank ≤ 2 ^ (n - (f.digits - 1 : ℕ)) :=
    zpow_le_zpow_right₀ one_le_two (by omega)
  linarith [h.abs_sub_le]

end Format

/-! ## Whole numbers -/

theorem floor_natCast_add_half (n : ℕ) : ⌊(n : ℚ) + 1 / 2⌋₊ = n := by
  rw [Nat.floor_eq_iff (by positivity)]
  constructor <;> linarith

/-- Rounding half up is adding a half and leaving out the fraction. -/
theorem roundHalfUp_eq_floor (num : ℕ) {den : ℕ} (hden : 0 < den) :
    roundHalfUp num den = ⌊(num : ℚ) / den + 1 / 2⌋₊ := by
  have hden' : (den : ℚ) ≠ 0 := by positivity
  have hratio : (num : ℚ) / den + 1 / 2 = (2 * num + den : ℕ) / (2 * den : ℕ) := by
    push_cast
    field_simp
  rw [hratio, Nat.floor_div_eq_div, roundHalfUp]

/-! ## Powers of ten -/

namespace Swift.Literal

variable {places : ℕ}

/-- A power of ten is not close to a power of two. -/
theorem ten_pow_bounds (h : places ≤ maxPlaces) :
    64 * 10 ^ places ≤ 63 * 2 ^ ((10 ^ places).log2 + 1) ∧
      (places = 0 ∨ 65 * 2 ^ (10 ^ places).log2 ≤ 64 * 10 ^ places) := by
  have hall : ∀ p ≤ maxPlaces, 64 * 10 ^ p ≤ 63 * 2 ^ ((10 ^ p).log2 + 1) ∧
      (p = 0 ∨ 65 * 2 ^ (10 ^ p).log2 ≤ 64 * 10 ^ p) := by decide
  exact hall places h

/-- Scaled by a power of ten, a spacing below one is well away from one, on either side. -/
theorem scaled_two_zpow_cases (h : places ≤ maxPlaces) (e : ℤ) :
    (10 ^ places : ℚ) * 2 ^ e ≤ 63 / 64 ∨ 65 / 64 ≤ (10 ^ places : ℚ) * 2 ^ e ∨ 0 ≤ e := by
  obtain ⟨hless, hmore⟩ := ten_pow_bounds h
  generalize hc : (10 ^ places).log2 = c at hless hmore
  have hpow (m : ℕ) : (2 : ℚ) ^ m * 2 ^ (-m : ℤ) = 1 := by
    rw [← zpow_natCast, ← zpow_add₀ two_ne_zero, add_neg_cancel, zpow_zero]
  by_cases he : e ≤ -((c + 1 : ℕ) : ℤ)
  · left
    have hless' : (64 : ℚ) * 10 ^ places ≤ 63 * 2 ^ (c + 1) := by exact_mod_cast hless
    have hexponent : (2 : ℚ) ^ e ≤ 2 ^ (-((c + 1 : ℕ) : ℤ)) := zpow_le_zpow_right₀ one_le_two he
    calc (10 ^ places : ℚ) * 2 ^ e
        ≤ 63 / 64 * 2 ^ (c + 1) * 2 ^ (-((c + 1 : ℕ) : ℤ)) := by
          gcongr
          linarith
      _ = 63 / 64 := by rw [mul_assoc, hpow, mul_one]
  · right
    have hexponent : (2 : ℚ) ^ (-(c : ℤ)) ≤ 2 ^ e := zpow_le_zpow_right₀ one_le_two (by omega)
    rcases hmore with rfl | hmore
    · have hzero : (10 ^ 0).log2 = 0 := by decide
      exact .inr (by omega)
    · left
      have hmore' : (65 : ℚ) * 2 ^ c ≤ 64 * 10 ^ places := by exact_mod_cast hmore
      calc (65 / 64 : ℚ) = 65 / 64 * 2 ^ c * 2 ^ (-(c : ℤ)) := by rw [mul_assoc, hpow, mul_one]
        _ ≤ 10 ^ places * 2 ^ e := by
          gcongr
          linarith

/-- The first magnitude of a binade is whole when it is scaled up, unless the magnitudes are still
    close together then. -/
theorem exists_natCast_eq_first (h : places ≤ maxPlaces) {e : ℤ}
    (he : 1 ≤ (10 ^ places : ℚ) * 2 ^ e) :
    ∃ n : ℕ, (Format.binary32.width : ℚ) * 2 ^ e * (10 ^ places : ℕ) = n := by
  have hfive : (5 ^ places : ℚ) ≤ 2 ^ (21 : ℤ) := by
    calc (5 ^ places : ℚ) ≤ 5 ^ maxPlaces := pow_le_pow_right₀ (by norm_num) h
      _ ≤ 2 ^ (21 : ℤ) := by norm_num [maxPlaces]
  have hten (e : ℤ) : (10 ^ places : ℚ) * 2 ^ e = 5 ^ places * 2 ^ (places + e) := by
    rw [zpow_add₀ two_ne_zero, zpow_natCast, ← mul_assoc, ← mul_pow]
    norm_num
  have hexponent : 0 ≤ 21 + (places + e) := by
    rw [hten] at he
    rw [← zpow_le_zpow_iff_right₀ (one_lt_two (α := ℚ)), zpow_zero, zpow_add₀ two_ne_zero]
    exact he.trans (by gcongr)
  refine ⟨5 ^ places * 2 ^ (23 + (places + e)).toNat, ?_⟩
  have hwidth : (Format.binary32.width : ℚ) = 2 ^ (23 : ℤ) := by
    rw [Format.cast_width]
    rfl
  rw [hwidth, ← zpow_add₀ two_ne_zero, mul_comm]
  push_cast
  rw [hten, ← zpow_natCast (2 : ℚ), Int.toNat_of_nonneg (by omega)]
  congr 2
  ring

/-! ## Rounding twice -/

variable {y d d' k : ℕ}

/-- What a double is off from the number that it was rounded from, next to a single. -/
theorem abs_sub_le_of_readsBack {t : ℚ} (hd : Format.binary64.ReadsBack d t)
    (hle : Format.binary64.magnitude d ≤
      2 * Format.binary32.width * 2 ^ Format.binary32.exponent y) :
    |Format.binary64.magnitude d - t| ≤ 2 ^ Format.binary32.exponent y / 2 ^ 29 := by
  have hleast := Format.binary32.least_le_exponent y
  have hsingle : Format.binary32.least = -149 := rfl
  have hdouble : Format.binary64.least = -1074 := rfl
  have hdigits : ((Format.binary32.digits - 1 : ℕ) : ℤ) = 23 := rfl
  have hdigits' : ((Format.binary64.digits - 1 : ℕ) : ℤ) = 52 := rfl
  rw [Format.cast_width, hdigits, ← zpow_one_add₀ two_ne_zero, ← zpow_add₀ two_ne_zero] at hle
  refine (hd.abs_sub_le_of_le hle (by omega)).trans_eq ?_
  rw [hdigits', add_sub_right_comm, zpow_add₀ two_ne_zero]
  norm_num
  ring

/-- The spacing at a number fits into its binade. -/
theorem magnitude_add_le (y : ℕ) :
    Format.binary32.magnitude y + 2 ^ Format.binary32.exponent y ≤
      2 * Format.binary32.width * 2 ^ Format.binary32.exponent y := by
  have hsignificand : (Format.binary32.significand y + 1 : ℚ) ≤ 2 * Format.binary32.width := by
    exact_mod_cast Format.significand_lt y
  rw [Format.magnitude, ← add_one_mul]
  gcongr

/-- Where single precision is finer than the decimal places, the same whole number comes out. -/
theorem floor_eq_of_fine (hd : Format.binary64.ReadsBack d (k / (10 ^ places : ℕ)))
    (hy : Format.binary32.ReadsBack y (Format.binary64.magnitude d))
    (hfine : (10 ^ places : ℚ) * 2 ^ Format.binary32.exponent y ≤ 63 / 64) :
    ⌊Format.binary32.magnitude y * (10 ^ places : ℕ) + 1 / 2⌋₊ = k := by
  have hscale : (0 : ℚ) < 10 ^ places := by positivity
  have hsingle := hy.abs_sub_le
  have hle : Format.binary64.magnitude d ≤
      2 * Format.binary32.width * 2 ^ Format.binary32.exponent y := by
    have hnext := magnitude_add_le y
    have hpos : (0 : ℚ) < 2 ^ Format.binary32.exponent y := by positivity
    linarith [(abs_sub_le_iff.1 hsingle).2]
  have hdouble := abs_sub_le_of_readsBack hd hle
  have herror : |Format.binary32.magnitude y * 10 ^ places - k| < 1 / 2 := by
    have hk : (k : ℚ) = k / (10 ^ places : ℕ) * 10 ^ places := by
      push_cast
      rw [div_mul_cancel₀ _ hscale.ne']
    rw [hk, ← sub_mul, abs_mul, abs_of_pos hscale]
    calc |Format.binary32.magnitude y - k / (10 ^ places : ℕ)| * 10 ^ places
        ≤ (2 ^ Format.binary32.exponent y / 2 + 2 ^ Format.binary32.exponent y / 2 ^ 29) *
            10 ^ places := by
          gcongr
          exact (abs_sub_le _ _ _).trans (add_le_add hsingle hdouble)
      _ = (1 / 2 + 1 / 2 ^ 29) * (10 ^ places * 2 ^ Format.binary32.exponent y) := by ring
      _ < 1 / 2 := by linarith
  obtain ⟨hlower, hupper⟩ := abs_sub_lt_iff.1 herror
  have hpos : (0 : ℚ) ≤ Format.binary32.magnitude y * (10 ^ places : ℕ) + 1 / 2 := by
    have := Format.binary32.magnitude_nonneg y
    positivity
  rw [Nat.floor_eq_iff hpos]
  push_cast
  constructor <;> linarith

/-- A magnitude that is whole when it is scaled up comes out as it is. -/
theorem readsBack_of_whole {n : ℕ} (hy : y < Format.binary32.top)
    (hn : Format.binary32.magnitude y * (10 ^ places : ℕ) = n)
    (hd : Format.binary64.ReadsBack d
      (⌊Format.binary32.magnitude y * (10 ^ places : ℕ) + 1 / 2⌋₊ / (10 ^ places : ℕ))) :
    Format.binary32.ReadsBack y (Format.binary64.magnitude d) := by
  have hscale : ((10 ^ places : ℕ) : ℚ) ≠ 0 := by positivity
  rw [hn, floor_natCast_add_half, ← hn, mul_div_cancel_right₀ _ hscale] at hd
  obtain ⟨rank, -, hrank⟩ := representable_magnitude_mul hy (Nat.zero_le maxPlaces)
  rw [pow_zero, Nat.cast_one, mul_one] at hrank
  rw [hd.unique (hrank ▸ Format.readsBack_magnitude rank), hrank]
  exact Format.readsBack_magnitude y

/-- Where single precision is coarser than the decimal places, every whole number that may come out
    reads back. -/
theorem readsBack_of_coarse (hplaces : places ≤ maxPlaces)
    (hwhole : ∀ n : ℕ, Format.binary32.magnitude y * (10 ^ places : ℕ) ≠ n)
    (hcoarse : 65 / 64 ≤ (10 ^ places : ℚ) * 2 ^ Format.binary32.exponent y)
    (hd : Format.binary64.ReadsBack d
      (⌊Format.binary32.magnitude y * (10 ^ places : ℕ) + 1 / 2⌋₊ / (10 ^ places : ℕ))) :
    Format.binary32.ReadsBack y (Format.binary64.magnitude d) := by
  have hpos : 0 < y := by
    refine Nat.pos_of_ne_zero fun hzero => hwhole 0 ?_
    rw [hzero, Format.magnitude_zero, zero_mul, Nat.cast_zero]
  have hbinade : Format.binary32.exponent (y - 1) = Format.binary32.exponent y := by
    by_contra hfirst
    obtain ⟨n, hn⟩ := exists_natCast_eq_first hplaces (by linarith)
    rw [← Format.significand_eq_width hpos hfirst, ← Format.magnitude] at hn
    exact hwhole n hn
  have hscale : (0 : ℚ) < (10 ^ places : ℕ) := by positivity
  have hnonneg := Format.binary32.magnitude_nonneg y
  have hlower := Nat.floor_le (show
    0 ≤ Format.binary32.magnitude y * (10 ^ places : ℕ) + 1 / 2 by positivity)
  have hupper := Nat.lt_floor_add_one (Format.binary32.magnitude y * (10 ^ places : ℕ) + 1 / 2)
  generalize ⌊Format.binary32.magnitude y * (10 ^ places : ℕ) + 1 / 2⌋₊ = n at hd hlower hupper
  have hsingle : |(n : ℚ) / (10 ^ places : ℕ) - Format.binary32.magnitude y| ≤
      32 / 65 * 2 ^ Format.binary32.exponent y := by
    have hcoarse' : 65 / 64 ≤ ((10 ^ places : ℕ) : ℚ) * 2 ^ Format.binary32.exponent y := by
      exact_mod_cast hcoarse
    rw [div_sub' hscale.ne', abs_div, abs_of_pos hscale, div_le_iff₀ hscale, abs_sub_le_iff]
    constructor <;> linarith
  have hspacing : (0 : ℚ) < 2 ^ Format.binary32.exponent y := by positivity
  have hle : Format.binary64.magnitude d ≤
      2 * Format.binary32.width * 2 ^ Format.binary32.exponent y := by
    obtain ⟨bound, hbound⟩ := Format.exists_magnitude_eq (f := .binary64)
      (show 2 * Format.binary32.width ≤ 2 * Format.binary64.width by decide)
      (show Format.binary64.least ≤ Format.binary32.exponent y by
        have hleast := Format.binary32.least_le_exponent y
        have hsingle : Format.binary32.least = -149 := rfl
        have hdouble : Format.binary64.least = -1074 := rfl
        omega)
    push_cast at hbound
    rw [← hbound]
    refine Format.binary64.magnitude_strictMono.monotone
      (hd.mono (Format.readsBack_magnitude bound) ?_)
    rw [hbound]
    linarith [magnitude_add_le y, (abs_sub_le_iff.1 hsingle).1]
  have hdouble := abs_sub_le_of_readsBack hd hle
  refine Format.readsBack_of_abs_sub_lt hpos hbinade ?_
  rw [abs_sub_comm]
  calc |Format.binary64.magnitude d - Format.binary32.magnitude y|
      ≤ 2 ^ Format.binary32.exponent y / 2 ^ 29 + 32 / 65 * 2 ^ Format.binary32.exponent y :=
        (abs_sub_le _ _ _).trans (add_le_add hdouble hsingle)
    _ < 2 ^ Format.binary32.exponent y / 2 := by linarith

/-- A magnitude that was rounded to decimal places comes out when it is rounded again. -/
theorem readsBack_again (hplaces : places ≤ maxPlaces) (hfinite : y < Format.binary32.top)
    (hd : Format.binary64.ReadsBack d (k / (10 ^ places : ℕ)))
    (hy : Format.binary32.ReadsBack y (Format.binary64.magnitude d))
    (hd' : Format.binary64.ReadsBack d'
      (⌊Format.binary32.magnitude y * (10 ^ places : ℕ) + 1 / 2⌋₊ / (10 ^ places : ℕ))) :
    Format.binary32.ReadsBack y (Format.binary64.magnitude d') := by
  by_cases hwhole : ∃ n : ℕ, Format.binary32.magnitude y * (10 ^ places : ℕ) = n
  · obtain ⟨n, hn⟩ := hwhole
    exact readsBack_of_whole hfinite hn hd'
  · rcases scaled_two_zpow_cases hplaces (Format.binary32.exponent y) with
      hfine | hcoarse | hnonneg
    · rw [floor_eq_of_fine hd hy hfine] at hd'
      rwa [hd'.unique hd]
    · exact readsBack_of_coarse hplaces (not_exists.1 hwhole) hcoarse hd'
    · refine (hwhole ⟨Format.binary32.significand y * 2 ^ (Format.binary32.exponent y).toNat *
        10 ^ places, ?_⟩).elim
      rw [Format.binary32.magnitude_eq_natCast hnonneg, ← Nat.cast_mul]

end Swift.Literal

/-! ## The steps of rounding -/

namespace Binary

variable {f g : Format} {s t : Bool} {a d : Fin (f.top + 1)}

/-- A number that the other format represents is converted exactly. -/
theorem exists_convert_eq (hg : 2 ≤ g.digits) (ha : a.val < f.top)
    (h : g.Representable (f.magnitude a)) : ∃ c : Fin (g.top + 1),
      (real s a).convert g = real s c ∧ c.val < g.top ∧ g.magnitude c = f.magnitude a := by
  rw [convert, if_neg ha.ne]
  exact exists_ofScaled_eq hg h

section Rounding

variable (hf : 2 ≤ f.digits)
include hf

/-- A product that is represented is exact. -/
theorem exists_mul_eq (ha : a.val < f.top) (hd : d.val < f.top)
    (h : f.Representable (f.magnitude a * f.magnitude d)) : ∃ c : Fin (f.top + 1),
      real s a * real t d = real (s != t) c ∧ c.val < f.top ∧
        f.magnitude c = f.magnitude a * f.magnitude d := by
  rw [mul_real ha hd]
  rw [← cast_product] at h ⊢
  exact exists_ofScaled_eq hf h

/-- A number is rounded to the whole number that its magnitude and a half is cut down to. -/
theorem exists_roundHalfAway_eq (hwhole : ∀ n : ℕ, n ≤ 2 * f.width → f.Representable n)
    (ha : a.val < f.top) : ∃ c : Fin (f.top + 1), (real s a).roundHalfAway = real s c ∧
      c.val < f.top ∧ f.magnitude c = ⌊f.magnitude a + 1 / 2⌋₊ := by
  rw [roundHalfAway]
  split
  · next h =>
    refine ⟨a, rfl, ha, ?_⟩
    rw [f.magnitude_eq_natCast (h.resolve_left ha.ne), floor_natCast_add_half]
  · next h =>
    obtain ⟨-, hexponent⟩ := not_or.1 h
    have hden : 0 < Nat.pow 2 (-f.exponent a).toNat := Nat.two_pow_pos _
    have hmagnitude : f.magnitude a = f.significand a / (Nat.pow 2 (-f.exponent a).toNat : ℕ) := by
      rw [Format.magnitude, ← cast_ratio_scaled, Int.toNat_of_nonpos (by omega), Nat.pow_eq,
        pow_zero, mul_one]
    rw [hmagnitude, ← roundHalfUp_eq_floor _ hden]
    have hle : roundHalfUp (f.significand a) (Nat.pow 2 (-f.exponent a).toNat) ≤ 2 * f.width :=
      (roundHalfUp_le hden (Nat.le_mul_of_pos_right _ hden)).trans (Format.significand_lt _).le
    generalize roundHalfUp (f.significand a) _ = n at hle ⊢
    have hratio : (n : ℚ) / (1 : ℕ) = n := by rw [Nat.cast_one, div_one]
    obtain ⟨c, heq, hc, hmagnitude⟩ : ∃ c, ofRatio s n 1 = (real s c : Binary f) ∧ c.val < f.top ∧
        f.magnitude c = n / (1 : ℕ) := exists_ofRatio_eq hf one_pos (hratio.symm ▸ hwhole n hle)
    exact ⟨c, heq, hc, hmagnitude.trans hratio⟩

/-- A ratio reads back to the finite number that it is rounded to. -/
theorem readsBack_of_ofRatio_eq {num den : ℕ} (hden : 0 < den)
    (h : (ofRatio s num den : Binary f) = real t d) (hd : d.val < f.top) :
    t = s ∧ f.ReadsBack d (num / den) := by
  obtain ⟨rfl, hrank⟩ := real.inj h
  have hreads := Format.readsBack_unboundedRank hf num hden
  have hmin : min f.top (f.unboundedRank num den) = d.val := congrArg Fin.val hrank
  rw [show f.unboundedRank num den = d.val by omega] at hreads
  exact ⟨rfl, hreads⟩

/-- The exact quotient reads back to what a quotient is rounded to. -/
theorem readsBack_of_div_eq {u : Bool} {c : Fin (f.top + 1)} (ha : a.val < f.top)
    (hd : d.val < f.top) (hpos : 0 < f.magnitude d) (h : real s a / real t d = real u c)
    (hc : c.val < f.top) : u = (s != t) ∧ f.ReadsBack c (f.magnitude a / f.magnitude d) := by
  rw [div_real ha hd (ne_zero_of_magnitude_pos hpos)] at h
  rw [← cast_quotient]
  exact readsBack_of_ofRatio_eq hf
    (Nat.mul_pos (significand_pos hpos) (Nat.two_pow_pos _)) h hc

end Rounding

/-- What a number is converted to is closest to it. -/
theorem readsBack_of_convert_eq {c : Fin (g.top + 1)} (hg : 2 ≤ g.digits) (ha : a.val < f.top)
    (h : (real s a).convert g = real t c) (hc : c.val < g.top) :
    t = s ∧ g.ReadsBack c (f.magnitude a) := by
  rw [convert, if_neg ha.ne] at h
  rw [Format.magnitude, ← cast_ratio_scaled]
  exact readsBack_of_ofRatio_eq hg (Nat.two_pow_pos _) h hc

/-! Infinity stays infinity. -/

theorem convert_infinity : (infinity s : Binary f).convert g = infinity s := if_pos rfl

theorem infinity_mul (hf : f.top ≠ 0) (hzero : d.val ≠ 0) :
    (infinity s * real t d : Binary f) = infinity (s != t) :=
  (if_pos (.inl rfl)).trans (if_neg (not_or.2 ⟨hf, hzero⟩))

theorem roundHalfAway_infinity : (infinity s : Binary f).roundHalfAway = infinity s :=
  if_pos (.inl rfl)

theorem infinity_div (hfinite : d.val < f.top) :
    (infinity s / real t d : Binary f) = infinity (s != t) :=
  (if_pos rfl).trans (if_neg hfinite.ne)

theorem unsignedZero_infinity (hf : f.top ≠ 0) :
    (infinity s : Binary f).unsignedZero = infinity s :=
  if_neg fun h => hf (congrArg Fin.val (isZero_real.1 h))

end Binary

namespace Swift.Literal

variable {places : ℕ}

theorem representable_natCast {n : ℕ} (h : n ≤ 2 * Format.binary64.width) :
    Format.binary64.Representable n := by
  have hresult := Format.representable_mul_zpow (f := .binary64) (e := 0) h (by decide) (by decide)
  rwa [zpow_zero, mul_one] at hresult

/-- A finite number is scaled up exactly, and then rounded to a whole number. -/
theorem exists_scaledUp_eq (hplaces : places ≤ maxPlaces) (negative : Bool)
    {rank : Fin (Format.binary32.top + 1)} (hrank : rank.val < Format.binary32.top) :
    ∃ c : Fin (Format.binary64.top + 1),
      ((Binary.real negative rank).convert .binary64 *
          .ofScaled false (Nat.pow 10 places) 0).roundHalfAway = .real negative c ∧
        c.val < Format.binary64.top ∧
          Format.binary64.magnitude c =
            ⌊Format.binary32.magnitude rank * (10 ^ places : ℕ) + 1 / 2⌋₊ := by
  obtain ⟨scale, hscale, hfinite, hten⟩ := exists_scale_eq hplaces
  have hdouble := representable_magnitude_mul hrank (Nat.zero_le maxPlaces)
  rw [pow_zero, Nat.cast_one, mul_one] at hdouble
  obtain ⟨a, hconvert, ha, hamag⟩ := Binary.exists_convert_eq (s := negative)
    Format.two_le_digits_binary64 hrank hdouble
  have hproduct := representable_magnitude_mul hrank hplaces
  rw [← hamag, ← hten] at hproduct
  obtain ⟨b, hmul, hb, hbmag⟩ := Binary.exists_mul_eq (s := negative) (t := false)
    Format.two_le_digits_binary64 ha hfinite hproduct
  obtain ⟨c, hround, hc, hcmag⟩ := Binary.exists_roundHalfAway_eq (s := negative)
    Format.two_le_digits_binary64 (fun n => representable_natCast) hb
  rw [hbmag, hamag, hten] at hcmag
  rw [hconvert, hscale, hmul, Bool.bne_false]
  exact ⟨c, hround, hc, hcmag⟩

/-- The whole number is scaled down, and rounded to double and to single precision. The sign of a
    zero is lost. -/
theorem exists_ofSingle_eq (hplaces : places ≤ maxPlaces) (negative : Bool)
    {rank : Fin (Format.binary32.top + 1)} (hrank : rank.val < Format.binary32.top) :
    ∃ (d : Fin (Format.binary64.top + 1)) (y : Fin (Format.binary32.top + 1)),
      Format.binary64.ReadsBack d
          (⌊Format.binary32.magnitude rank * (10 ^ places : ℕ) + 1 / 2⌋₊ / (10 ^ places : ℕ)) ∧
        Format.binary32.ReadsBack y (Format.binary64.magnitude d) ∧ y.val < Format.binary32.top ∧
          ofSingle places (.real negative rank) = ⟨(Binary.real negative y).unsignedZero⟩ := by
  have hfinite : (Binary.real negative rank).isFinite = true := decide_eq_true hrank
  obtain ⟨scale, hscale, hscaleFinite, hten⟩ := exists_scale_eq hplaces
  obtain ⟨c, hup, hc, hcmag⟩ := exists_scaledUp_eq hplaces negative hrank
  have hpos : 0 < Format.binary64.magnitude scale := by
    rw [hten]
    positivity
  have hdown := atMost_scaledDown hplaces hfinite
  have hsingle := atMost_rounded hplaces hfinite
  rw [hscale] at hup
  simp only [hscale, hup] at hdown hsingle
  obtain ⟨s, d, hdiv, hd, -⟩ := hdown.exists_eq
  rw [hdiv] at hsingle
  obtain ⟨t, y, hnarrow, hy, -⟩ := hsingle.exists_eq
  obtain ⟨rfl, hreads⟩ := Binary.readsBack_of_div_eq Format.two_le_digits_binary64 hc hscaleFinite
    hpos hdiv hd
  obtain ⟨rfl, hreads'⟩ := Binary.readsBack_of_convert_eq Format.two_le_digits_binary32 hd hnarrow
    hy
  rw [hcmag, hten] at hreads
  refine ⟨d, y, hreads, hreads', hy, ?_⟩
  rw [Bool.bne_false] at hdiv hnarrow
  simp only [ofSingle, hscale, hup, hdiv, hnarrow]

/-- The sign of zero is lost in any case. -/
theorem ofSingle_unsignedZero (places : ℕ) (x : Single) :
    ofSingle places x.unsignedZero = ofSingle places x := by
  rw [Binary.unsignedZero]
  split
  · next h =>
    obtain ⟨negative, rfl⟩ := Binary.exists_eq_of_isZero h
    exact ofSingle_eq_of_equals places _ _ (by cases negative <;> decide)
  · rfl

/-- Infinities have literals of their own. -/
theorem ofSingle_infinity (hplaces : places ≤ maxPlaces) (negative : Bool) :
    ofSingle places (.infinity negative) = ⟨.infinity negative⟩ := by
  obtain ⟨scale, hscale, hfinite, hten⟩ := exists_scale_eq hplaces
  have hpos : 0 < Format.binary64.magnitude scale := by
    rw [hten]
    positivity
  have hdouble : Format.binary64.top ≠ 0 := by decide
  rw [ofSingle, hscale, Binary.convert_infinity,
    Binary.infinity_mul hdouble (Binary.ne_zero_of_magnitude_pos hpos),
    Binary.roundHalfAway_infinity, Binary.infinity_div hfinite, Binary.convert_infinity,
    Bool.bne_false, Bool.bne_false, Binary.unsignedZero_infinity (by decide)]

/-- A number that has been rounded to decimal places does not change when it is rounded again. -/
theorem ofSingle_ofSingle (hplaces : places ≤ maxPlaces) (x : Single) :
    ofSingle places (ofSingle places x).value = ofSingle places x := by
  cases x with
  | nan => rfl
  | real negative rank =>
    by_cases hrank : rank.val < Format.binary32.top
    · obtain ⟨d, y, hd, hy, hfinite, heq⟩ := exists_ofSingle_eq hplaces negative hrank
      obtain ⟨d', y', hd', hy', -, heq'⟩ := exists_ofSingle_eq hplaces negative hfinite
      have hagain := readsBack_again hplaces hfinite hd hy hd'
      rw [heq, ofSingle_unsignedZero, heq', Fin.ext (hy'.unique hagain)]
    · obtain rfl : rank = Fin.last _ :=
        Fin.ext (Nat.le_antisymm (Nat.le_of_lt_succ rank.isLt) (Nat.not_lt.1 hrank))
      have hinfinity := ofSingle_infinity hplaces negative
      rw [Binary.infinity] at hinfinity
      rw [hinfinity, hinfinity]

/-- Rounding to the decimal places of a precision is idempotent. -/
theorem scalar_scalar (precision : ℕ) (x : Single) :
    (representation precision).scalar ((representation precision).scalar x).value =
      (representation precision).scalar x :=
  ofSingle_ofSingle (Nat.min_le_right _ _) x

end Swift.Literal

end SceneCode
