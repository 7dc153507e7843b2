import Mathlib.Algebra.Order.Field.Basic
import Mathlib.Algebra.Order.Field.Power
import Mathlib.Algebra.Order.Field.Rat
import Mathlib.Tactic.Linarith
import Mathlib.Tactic.Positivity
import Mathlib.Tactic.Ring
import SceneCode.Number.Decimal

/-!
# The shortest decimal of a magnitude

The magnitudes of a format increase with their ranks (`Format.magnitude_strictMono`). A number reads
back to a magnitude if it lies between the middles to the two neighbours of that magnitude, where a
middle belongs to the neighbour of even rank (`Format.ReadsBack`). So a number reads back to one
magnitude at most (`Format.ReadsBack.unique`).

The shortest decimal of a magnitude is tried in whole numbers, in units that are so small that the
middles are whole as well. It reads back to its magnitude (`Format.readsBack_shortest`), whichever
grid it has been found on. So different magnitudes have different decimals.
-/

namespace SceneCode

/-- The number that a decimal stands for. -/
def Decimal.value (d : Decimal) : ℚ := d.digits * 10 ^ d.exponent

namespace Format

variable (f : Format)

/-! ## Magnitudes -/

/-- The magnitude of a rank. -/
def magnitude (rank : ℕ) : ℚ := f.significand rank * 2 ^ f.exponent rank

/-- Where the exponent is not negative, magnitudes are whole numbers. -/
theorem magnitude_eq_natCast {rank : ℕ} (h : 0 ≤ f.exponent rank) :
    f.magnitude rank = (f.significand rank * 2 ^ (f.exponent rank).toNat : ℕ) := by
  rw [magnitude]
  push_cast
  rw [← zpow_natCast, Int.toNat_of_nonneg h]

theorem width_pos : 0 < f.width := Nat.two_pow_pos _

/-- Below the width of a binade, numbers are subnormal and have the least exponent. -/
theorem exponent_of_lt {rank : ℕ} (h : rank < f.width) : f.exponent rank = f.least := by
  simp [exponent, Nat.div_eq_of_lt h]

theorem least_le_exponent (rank : ℕ) : f.least ≤ f.exponent rank := by
  rw [exponent]
  omega

/-- The next rank is in the same binade, or is the first one of the next. -/
theorem significand_exponent_succ (rank : ℕ) :
    (f.exponent (rank + 1) = f.exponent rank ∧
        f.significand (rank + 1) = f.significand rank + 1) ∨
      (f.exponent (rank + 1) = f.exponent rank + 1 ∧
        f.significand rank + 1 = 2 * f.significand (rank + 1)) := by
  have hw := f.width_pos
  have hsplit := Nat.div_add_mod rank f.width
  have hmod := Nat.mod_lt rank hw
  by_cases hfirst : rank < f.width
  · left
    have hq : (rank + 1) / f.width - 1 = 0 := by
      have : (rank + 1) / f.width ≤ 1 := Nat.div_le_of_le_mul (by omega)
      omega
    refine ⟨by rw [exponent, hq, f.exponent_of_lt hfirst, Nat.cast_zero, add_zero], ?_⟩
    rcases Nat.lt_or_eq_of_le hfirst with hlt | heq
    · rw [significand, significand, if_pos hfirst, if_pos hlt]
    · have heq' : rank + 1 = f.width := heq
      rw [significand, significand, if_pos hfirst, if_neg (by omega), heq', Nat.mod_self, add_zero]
  · have hq : 1 ≤ rank / f.width := (Nat.one_le_div_iff hw).2 (by omega)
    have hnext : rank + 1 = f.width * (rank / f.width) + (rank % f.width + 1) := by omega
    rw [significand, significand, exponent, exponent, if_neg hfirst, if_neg (by omega), hnext,
      Nat.mul_add_div hw, Nat.mul_add_mod]
    rcases Nat.lt_or_eq_of_le (Nat.succ_le_of_lt hmod) with hlt | heq
    · left
      rw [Nat.div_eq_of_lt hlt, Nat.mod_eq_of_lt hlt]
      omega
    · right
      rw [Nat.succ_eq_add_one] at heq
      rw [heq, Nat.div_self hw, Nat.mod_self]
      omega

/-- The magnitudes of a binade are as far apart as the power of two that they are multiples of. -/
theorem magnitude_succ (rank : ℕ) :
    f.magnitude (rank + 1) = f.magnitude rank + 2 ^ f.exponent rank := by
  rcases f.significand_exponent_succ rank with ⟨he, hs⟩ | ⟨he, hs⟩
  · rw [magnitude, magnitude, he, hs]
    push_cast
    ring
  · have hs' : (f.significand rank : ℚ) + 1 = 2 * f.significand (rank + 1) := by exact_mod_cast hs
    rw [magnitude, magnitude, he, zpow_add_one₀ two_ne_zero]
    calc (f.significand (rank + 1) : ℚ) * (2 ^ f.exponent rank * 2)
        = 2 * f.significand (rank + 1) * 2 ^ f.exponent rank := by ring
      _ = f.significand rank * 2 ^ f.exponent rank + 2 ^ f.exponent rank := by rw [← hs']; ring

theorem magnitude_lt_succ (rank : ℕ) : f.magnitude rank < f.magnitude (rank + 1) := by
  have hpos : (0 : ℚ) < 2 ^ f.exponent rank := by positivity
  rw [magnitude_succ]
  exact lt_add_of_pos_right _ hpos

/-- Numbers are ordered by their ranks. -/
theorem magnitude_strictMono : StrictMono f.magnitude :=
  strictMono_nat_of_lt_succ f.magnitude_lt_succ

/-! ## Reading back -/

/-- The number reads back to the magnitude of a rank. Below the least magnitude there is none. -/
def ReadsBack (rank : ℕ) (x : ℚ) : Prop :=
  let lower := (f.magnitude (rank - 1) + f.magnitude rank) / 2
  let upper := (f.magnitude rank + f.magnitude (rank + 1)) / 2
  if rank % 2 = 0 then lower ≤ x ∧ x ≤ upper else lower < x ∧ x < upper

variable {f} {x y : ℚ} {rank r s : ℕ}

/-- What reads back to a number is not farther from it than half way to its neighbours. -/
theorem ReadsBack.le (h : f.ReadsBack rank x) :
    (f.magnitude (rank - 1) + f.magnitude rank) / 2 ≤ x ∧
      x ≤ (f.magnitude rank + f.magnitude (rank + 1)) / 2 := by
  rw [ReadsBack] at h
  split at h
  · exact h
  · exact ⟨h.1.le, h.2.le⟩

/-- Ties are read back to the even one. -/
theorem ReadsBack.lt (h : f.ReadsBack rank x) (hodd : rank % 2 = 1) :
    (f.magnitude (rank - 1) + f.magnitude rank) / 2 < x ∧
      x < (f.magnitude rank + f.magnitude (rank + 1)) / 2 := by
  rwa [ReadsBack, if_neg (by omega)] at h

/-- Of two numbers, the lesser one does not read back to the greater magnitude. -/
theorem ReadsBack.mono (hr : f.ReadsBack r x) (hs : f.ReadsBack s y) (hxy : x ≤ y) : r ≤ s := by
  by_contra hlt
  have hmono := f.magnitude_strictMono.monotone
  have hlower : f.magnitude s ≤ f.magnitude (r - 1) := hmono (by omega)
  have hupper : f.magnitude (s + 1) ≤ f.magnitude r := hmono (by omega)
  -- Only neighbours have a middle in common, and of these one is odd.
  by_cases hnext : r = s + 1
  · subst hnext
    have hbelow := hs.le.2
    have habove := hr.le.1
    rw [Nat.add_sub_cancel] at habove
    rcases Nat.mod_two_eq_zero_or_one s with heven | hodd
    · have habove' := (hr.lt (by omega)).1
      rw [Nat.add_sub_cancel] at habove'
      exact ((hxy.trans hbelow).trans_lt habove').false
    · exact ((hxy.trans_lt (hs.lt hodd).2).trans_le habove).false
  · have hgap := f.magnitude_strictMono (show s < r - 1 by omega)
    linarith [hs.le.2, hr.le.1]

/-- A number reads back to one magnitude only. -/
theorem ReadsBack.unique (hr : f.ReadsBack r x) (hs : f.ReadsBack s x) : r = s :=
  Nat.le_antisymm (hr.mono hs le_rfl) (hs.mono hr le_rfl)

/-- A magnitude reads back to its own rank. -/
theorem readsBack_magnitude (rank : ℕ) : f.ReadsBack rank (f.magnitude rank) := by
  have hnext := f.magnitude_lt_succ rank
  rw [ReadsBack]
  split
  · have hprevious := f.magnitude_strictMono.monotone (Nat.sub_le rank 1)
    constructor <;> linarith
  · have hprevious := f.magnitude_strictMono (show rank - 1 < rank by omega)
    constructor <;> linarith

/-! ## Decimals -/

/-- A power of which only the positive exponents are whole, in whole powers. -/
theorem pow_toNat_eq {a : ℚ} (ha : a ≠ 0) (n : ℤ) : a ^ n.toNat = a ^ n * a ^ (-n).toNat := by
  rw [← zpow_natCast, ← zpow_natCast, ← zpow_add₀ ha]
  congr 1
  omega

variable (f)

/-- Every magnitude has a finite decimal form. -/
theorem value_exactDecimal (rank : ℕ) : (f.exactDecimal rank).value = f.magnitude rank := by
  rw [exactDecimal, magnitude]
  split
  · have htwo : (2 : ℚ) ^ (f.exponent rank).toNat = 2 ^ f.exponent rank := by
      rw [← zpow_natCast, Int.toNat_of_nonneg ‹_›]
    rw [Decimal.value, Nat.pow_eq, zpow_zero, mul_one, ← htwo]
    push_cast
    rfl
  · -- Ten to a negative power is two to that power, and five to that power is made whole.
    have hten : (10 : ℚ) ^ f.exponent rank = 5 ^ f.exponent rank * 2 ^ f.exponent rank := by
      rw [← mul_zpow]
      norm_num
    have hfive : (5 : ℚ) ^ (-f.exponent rank).toNat * 5 ^ f.exponent rank = 1 := by
      rw [← zpow_natCast, Int.toNat_of_nonneg (by omega), ← zpow_add₀ (by norm_num), neg_add_cancel,
        zpow_zero]
    rw [Decimal.value, Nat.pow_eq, hten]
    push_cast
    rw [mul_assoc, ← mul_assoc (5 ^ _) _ (2 ^ _), hfive, one_mul]

/-- A magnitude as a multiple of a smaller unit. -/
theorem multiple_mul_zpow {unit : ℤ} (h : unit ≤ f.exponent rank) :
    (f.multiple rank unit : ℚ) * 2 ^ unit = f.magnitude rank := by
  have hexponent : ((f.exponent rank - unit).toNat : ℤ) + unit = f.exponent rank := by omega
  rw [multiple, magnitude, ← hexponent, zpow_add₀ two_ne_zero, hexponent, zpow_natCast, Nat.pow_eq]
  push_cast
  ring

/-- The middle of two magnitudes is whole in a unit that is smaller than both. -/
theorem middle_mul_zpow {unit : ℤ} (hr : unit < f.exponent r) (hs : unit < f.exponent s) :
    ((f.multiple r unit + f.multiple s unit) / 2 : ℕ) * (2 : ℚ) ^ unit =
      (f.magnitude r + f.magnitude s) / 2 := by
  have heven {rank : ℕ} (h : unit < f.exponent rank) :
      f.multiple rank unit = 2 * f.multiple rank (unit + 1) := by
    have hsucc : (f.exponent rank - unit).toNat = (f.exponent rank - (unit + 1)).toNat + 1 := by
      omega
    rw [multiple, multiple, hsucc, Nat.pow_eq, Nat.pow_eq, pow_succ]
    ring
  have hhalf : (f.multiple r unit + f.multiple s unit) / 2 =
      f.multiple r (unit + 1) + f.multiple s (unit + 1) := by
    rw [heven hr, heven hs]
    omega
  rw [hhalf, ← f.multiple_mul_zpow hr.le, ← f.multiple_mul_zpow hs.le, heven hr, heven hs]
  push_cast
  ring

/-- Points of a grid and multiples of a unit, scaled alike to whole numbers. -/
theorem exists_scale (unit grid : ℤ) : ∃ c : ℚ, 0 < c ∧
    (∀ n : ℕ, ((n * (Nat.pow 10 (-grid).toNat * Nat.pow 2 unit.toNat) : ℕ) : ℚ) =
      n * 2 ^ unit * c) ∧
    ∀ d : ℕ, ((d * (Nat.pow 10 grid.toNat * Nat.pow 2 (-unit).toNat) : ℕ) : ℚ) =
      Decimal.value ⟨d, grid⟩ * c := by
  refine ⟨10 ^ (-grid).toNat * 2 ^ (-unit).toNat, by positivity, fun n => ?_, fun d => ?_⟩
  · rw [Nat.pow_eq, Nat.pow_eq]
    push_cast
    rw [pow_toNat_eq two_ne_zero unit]
    ring
  · rw [Nat.pow_eq, Nat.pow_eq, Decimal.value]
    push_cast
    rw [pow_toNat_eq (by norm_num) grid]
    ring

/-- From one rank to the next, the exponent never falls, and grows by one at most. -/
theorem exponent_sub_one_le (rank : ℕ) :
    f.exponent rank - 1 ≤ f.exponent (rank - 1) ∧ f.exponent rank ≤ f.exponent (rank + 1) := by
  refine ⟨?_, ?_⟩
  · cases rank with
    | zero => rw [Nat.zero_sub]; omega
    | succ rank => rcases f.significand_exponent_succ rank with h | h <;> simp [h.1]
  · rcases f.significand_exponent_succ rank with h | h <;> simp [h.1]

/-- Whether a point of a grid reads back can be told in whole numbers. -/
theorem readsBack_iff_scaled (rank digits : ℕ) (grid : ℤ) :
    let unit := f.exponent rank - 2
    let lower := (f.multiple (rank - 1) unit + f.multiple rank unit) / 2
    let upper := (f.multiple rank unit + f.multiple (rank + 1) unit) / 2
    let step := Nat.pow 10 grid.toNat * Nat.pow 2 (-unit).toNat
    let scale := Nat.pow 10 (-grid).toNat * Nat.pow 2 unit.toNat
    f.ReadsBack rank (Decimal.value ⟨digits, grid⟩) ↔
      if rank % 2 = 0 then lower * scale ≤ digits * step ∧ digits * step ≤ upper * scale
      else lower * scale < digits * step ∧ digits * step < upper * scale := by
  intro unit lower upper step scale
  obtain ⟨hbelow, habove⟩ := f.exponent_sub_one_le rank
  have hunit : unit = f.exponent rank - 2 := rfl
  have hlower : (lower : ℚ) * 2 ^ unit = (f.magnitude (rank - 1) + f.magnitude rank) / 2 :=
    f.middle_mul_zpow (by omega) (by omega)
  have hupper : (upper : ℚ) * 2 ^ unit = (f.magnitude rank + f.magnitude (rank + 1)) / 2 :=
    f.middle_mul_zpow (by omega) (by omega)
  obtain ⟨c, hc, hmiddle, hpoint⟩ := exists_scale unit grid
  -- Both sides of a comparison are scaled by the same positive number.
  have hle {m n : ℕ} {x y : ℚ} (hm : (m : ℚ) = x * c) (hn : (n : ℚ) = y * c) : m ≤ n ↔ x ≤ y := by
    rw [← mul_le_mul_iff_left₀ hc, ← hm, ← hn, Nat.cast_le]
  have hlt {m n : ℕ} {x y : ℚ} (hm : (m : ℚ) = x * c) (hn : (n : ℚ) = y * c) : m < n ↔ x < y := by
    rw [← Nat.not_le, hle hn hm, not_le]
  rw [ReadsBack, ← hlower, ← hupper, hle (hmiddle lower) (hpoint digits),
    hle (hpoint digits) (hmiddle upper), hlt (hmiddle lower) (hpoint digits),
    hlt (hpoint digits) (hmiddle upper)]

/-- Digits that are found on a grid have been checked to read back. -/
theorem readsBack_of_nearestOnGrid {grid : ℤ} {digits : ℕ}
    (h : f.nearestOnGrid? rank grid = some digits) :
    f.ReadsBack rank (Decimal.value ⟨digits, grid⟩) := by
  unfold nearestOnGrid? at h
  extract_lets unit value lower upper step scale readsBack floor at h
  -- Of two points that read back, either may be the nearer one.
  have hdigits : readsBack digits = true := by
    split at h
    · split at h <;> obtain rfl := Option.some.inj h <;> assumption
    · obtain rfl := Option.some.inj h
      assumption
    · obtain rfl := Option.some.inj h
      assumption
    · cases h
  refine (f.readsBack_iff_scaled rank digits grid).2 ?_
  by_cases heven : rank % 2 = 0
  · simp only [readsBack, if_pos heven, Bool.and_eq_true, decide_eq_true_eq] at hdigits
    rwa [if_pos heven]
  · simp only [readsBack, if_neg heven, Bool.and_eq_true, decide_eq_true_eq] at hdigits
    rwa [if_neg heven]

/-- The search for the shortest digits ends with digits that read back, by induction on its steps.
    -/
theorem readsBack_shortestFrom (steps : ℕ) (grid : ℤ) :
    f.ReadsBack rank (f.shortestFrom rank steps grid).value := by
  induction steps generalizing grid with
  | zero =>
    rw [shortestFrom, value_exactDecimal]
    exact readsBack_magnitude rank
  | succ steps ih =>
    rw [shortestFrom]
    split
    · exact f.readsBack_of_nearestOnGrid ‹_›
    · exact ih (grid - 1)

/-- The shortest decimal reads back to its magnitude. -/
theorem readsBack_shortest (rank : ℕ) : f.ReadsBack rank (f.shortest rank).value :=
  f.readsBack_shortestFrom _ _

end Format

end SceneCode
