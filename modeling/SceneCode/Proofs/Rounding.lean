import SceneCode.Proofs.Magnitudes

/-!
# Rounding

A ratio is rounded on the grid of its binade (`roundHalfEven`), whose exponent is found by the
lengths of numerator and denominator (`binaryOrder`). The ranks of a binade are the points of its
grid, up to the first rank of the next binade (`Format.magnitude_add`), so the ratio reads back to
the rank that it is rounded to.

A number is *representable* if it is a finite magnitude. Whole multiples of the powers of two are
representable, within the range of the format, if they have no more digits than a significand.

* `Format.readsBack_unboundedRank`: a ratio reads back to the rank that it is rounded to;
* `Format.unboundedRank_eq`, `Format.unboundedRank_le`: this is the only such rank, and it is not
  beyond any magnitude that the ratio is not beyond;
* `Format.representable_mul_zpow`: the representable multiples of powers of two.
-/

namespace SceneCode

/-! ## Integers -/

/-- The error is at most a half, and less than that if the result is odd. -/
theorem roundHalfEven_mul_bounds (num : ℕ) {den : ℕ} (hden : 0 < den) :
    2 * (roundHalfEven num den * den) ≤ 2 * num + den ∧
      2 * num ≤ 2 * (roundHalfEven num den * den) + den ∧
      (roundHalfEven num den % 2 = 1 → 2 * (roundHalfEven num den * den) < 2 * num + den ∧
        2 * num < 2 * (roundHalfEven num den * den) + den) := by
  have hsplit := Nat.div_add_mod' num den
  have hmod := Nat.mod_lt num hden
  have hnext : (num / den + 1) * den = num / den * den + den := Nat.succ_mul _ _
  simp only [roundHalfEven]
  split
  · omega
  · split
    · omega
    · rcases Nat.mod_two_eq_zero_or_one (num / den) with heven | hodd
      · rw [heven, add_zero]
        omega
      · rw [hodd]
        omega

/-- Rounding to an integer moves a ratio by a half at most, and by less if the integer is odd. -/
theorem roundHalfEven_bounds (num : ℕ) {den : ℕ} (hden : 0 < den) :
    (roundHalfEven num den : ℚ) ≤ num / den + 1 / 2 ∧
      (num : ℚ) / den ≤ roundHalfEven num den + 1 / 2 ∧
      (roundHalfEven num den % 2 = 1 → (roundHalfEven num den : ℚ) < num / den + 1 / 2 ∧
        (num : ℚ) / den < roundHalfEven num den + 1 / 2) := by
  have hden' : (0 : ℚ) < den := by exact_mod_cast hden
  obtain ⟨hlower, hupper, hodd⟩ := roundHalfEven_mul_bounds num hden
  rw [← sub_le_iff_le_add, ← sub_lt_iff_lt_add, le_div_iff₀ hden', lt_div_iff₀ hden',
    div_le_iff₀ hden', div_lt_iff₀ hden']
  generalize roundHalfEven num den = n at hlower hupper hodd ⊢
  have hlower' : 2 * ((n : ℚ) * den) ≤ 2 * num + den := by exact_mod_cast hlower
  have hupper' : 2 * (num : ℚ) ≤ 2 * (n * den) + den := by exact_mod_cast hupper
  refine ⟨by linarith, by linarith, fun hone => ?_⟩
  have hlower'' : 2 * ((n : ℚ) * den) < 2 * num + den := by exact_mod_cast (hodd hone).1
  have hupper'' : 2 * (num : ℚ) < 2 * (n * den) + den := by exact_mod_cast (hodd hone).2
  exact ⟨by linarith, by linarith⟩

/-- A ratio is scaled by a power of two in whole numbers. -/
theorem cast_ratio_two_pow (num den : ℕ) (n : ℤ) :
    ((num * Nat.pow 2 (-n).toNat : ℕ) : ℚ) / (den * Nat.pow 2 n.toNat : ℕ) = num / den / 2 ^ n := by
  have hpos : (0 : ℚ) < 2 ^ (-n).toNat := by positivity
  rw [Nat.pow_eq, Nat.pow_eq]
  push_cast
  rw [Format.pow_toNat_eq two_ne_zero n, ← mul_assoc, mul_div_mul_right _ _ hpos.ne', div_div]

/-- The order of a ratio is the exponent of the last power of two that it reaches. -/
theorem binaryOrder_bounds {num den : ℕ} (hnum : 0 < num) (hden : 0 < den) :
    (2 : ℚ) ^ binaryOrder num den ≤ num / den ∧
      (num : ℚ) / den < 2 ^ (binaryOrder num den + 1) := by
  have hden' : (0 : ℚ) < den := by exact_mod_cast hden
  have hnumLower : (2 : ℚ) ^ (num.log2 : ℤ) ≤ num := by
    exact_mod_cast Nat.log2_self_le hnum.ne'
  have hnumUpper : (num : ℚ) < 2 ^ (num.log2 + 1 : ℤ) := by exact_mod_cast Nat.lt_log2_self
  have hdenLower : (2 : ℚ) ^ (den.log2 : ℤ) ≤ den := by
    exact_mod_cast Nat.log2_self_le hden.ne'
  have hdenUpper : (den : ℚ) < 2 ^ (den.log2 + 1 : ℤ) := by exact_mod_cast Nat.lt_log2_self
  have hpow (n : ℤ) : (0 : ℚ) < 2 ^ n := by positivity
  have hguess (guess : ℤ) : num * Nat.pow 2 (-guess).toNat < den * Nat.pow 2 guess.toNat ↔
      (num : ℚ) < 2 ^ guess * den := by
    have hscaled : 0 < den * Nat.pow 2 guess.toNat := Nat.mul_pos hden (Nat.two_pow_pos _)
    rw [← @Nat.cast_lt ℚ, ← div_lt_one (by exact_mod_cast hscaled), cast_ratio_two_pow,
      div_lt_one (by positivity), div_lt_iff₀ hden']
  rw [le_div_iff₀ hden', div_lt_iff₀ hden', binaryOrder]
  split
  · next h =>
    rw [hguess] at h
    rw [sub_add_cancel]
    refine ⟨?_, h⟩
    calc (2 : ℚ) ^ ((num.log2 : ℤ) - den.log2 - 1) * den
        ≤ 2 ^ ((num.log2 : ℤ) - den.log2 - 1) * 2 ^ (den.log2 + 1 : ℤ) := by gcongr
      _ = 2 ^ (num.log2 : ℤ) := by rw [← zpow_add₀ two_ne_zero]; congr 1; omega
      _ ≤ num := hnumLower
  · next h =>
    rw [hguess, not_lt] at h
    refine ⟨h, ?_⟩
    calc (num : ℚ) < 2 ^ (num.log2 + 1 : ℤ) := hnumUpper
      _ = 2 ^ ((num.log2 : ℤ) - den.log2 + 1) * 2 ^ (den.log2 : ℤ) := by
        rw [← zpow_add₀ two_ne_zero]; congr 1; omega
      _ ≤ 2 ^ ((num.log2 : ℤ) - den.log2 + 1) * den := by gcongr

namespace Format

variable {f : Format}

/-! ## The grid of a binade -/

theorem magnitude_zero : f.magnitude 0 = 0 := by
  simp [magnitude, significand, f.width_pos]

theorem magnitude_nonneg (rank : ℕ) : 0 ≤ f.magnitude rank := by
  rw [magnitude]
  positivity

/-- The ranks of a binade, and the first one of the next, are the points of its grid. In the first
    binade the grid goes on to zero. -/
theorem magnitude_add {k n : ℕ} (hn : n ≤ 2 * f.width) (hk : k = 0 ∨ f.width ≤ n) :
    f.magnitude (k * f.width + n) = n * 2 ^ (f.least + k) := by
  have hw := f.width_pos
  rw [magnitude, significand, exponent]
  by_cases hfirst : n < f.width
  · obtain rfl := hk.resolve_right (by omega)
    rw [zero_mul, zero_add, if_pos hfirst, Nat.div_eq_of_lt hfirst]
  · obtain ⟨m, rfl⟩ := Nat.exists_eq_add_of_le (Nat.le_of_not_lt hfirst)
    have hrank : k * f.width + (f.width + m) = f.width * (k + 1) + m := by ring
    rw [hrank, if_neg (by nlinarith), Nat.mul_add_div hw, Nat.mul_add_mod]
    rcases Nat.lt_or_eq_of_le (show m ≤ f.width by omega) with hlt | heq
    · rw [Nat.div_eq_of_lt hlt, Nat.mod_eq_of_lt hlt]
      rfl
    · -- The first rank of the next binade, whose exponent is greater by one.
      have hexponent : f.least + ((k + 1 + m / f.width - 1 : ℕ) : ℤ) = f.least + k + 1 := by
        rw [heq, Nat.div_self hw]
        omega
      rw [hexponent, zpow_add_one₀ two_ne_zero, heq, Nat.mod_self]
      push_cast
      ring

/-- From one binade to the next, ranks grow at least as fast as on the grid of the first. -/
theorem le_magnitude_add_succ {k n : ℕ} (hn : n ≤ 2 * f.width) (hk : k = 0 ∨ f.width ≤ n) :
    (n + 1 : ℚ) * 2 ^ (f.least + k) ≤ f.magnitude (k * f.width + n + 1) := by
  have hw := f.width_pos
  rcases Nat.lt_or_eq_of_le hn with hlt | rfl
  · rw [Nat.add_assoc, magnitude_add (by omega) (hk.imp_right fun h => h.trans n.le_succ)]
    push_cast
    rfl
  · -- The next binade has a coarser grid.
    have hrank : k * f.width + 2 * f.width + 1 = (k + 1) * f.width + (f.width + 1) := by ring
    have hexponent : f.least + ((k + 1 : ℕ) : ℤ) = f.least + k + 1 := by push_cast; ring
    have hpos : (0 : ℚ) < 2 ^ (f.least + k) := by positivity
    rw [hrank, magnitude_add (by omega) (.inr (by omega)), hexponent, zpow_add_one₀ two_ne_zero]
    push_cast
    nlinarith

theorem even_width (hf : 2 ≤ f.digits) : f.width % 2 = 0 := by
  obtain ⟨digits, hdigits⟩ := Nat.exists_eq_add_of_le' hf
  rw [width, hdigits, Nat.pow_eq, show digits + 2 - 1 = digits + 1 from rfl, pow_succ,
    Nat.mul_mod_left]

/-- A number of a binade is not below the middle to the rank before the one it is nearest to. -/
theorem middle_le {k n : ℕ} {t : ℚ} (ht : 0 ≤ t) (hbinade : k = 0 ∨ (f.width : ℚ) ≤ t)
    (hn : n ≤ 2 * f.width) (hk : k = 0 ∨ f.width ≤ n) (hlower : n ≤ t + 1 / 2) :
    (f.magnitude (k * f.width + n - 1) + f.magnitude (k * f.width + n)) / 2 ≤
        t * 2 ^ (f.least + k) ∧
      (n % 2 = 1 → n < t + 1 / 2 →
        (f.magnitude (k * f.width + n - 1) + f.magnitude (k * f.width + n)) / 2 <
          t * 2 ^ (f.least + k)) := by
  have hw := f.width_pos
  have hpos : (0 : ℚ) < 2 ^ (f.least + k) := by positivity
  have hmagnitude := magnitude_add hn hk
  rcases Nat.eq_zero_or_pos n with rfl | hnpos
  · -- Zero has no rank before it.
    obtain rfl := hk.resolve_right (by omega)
    rw [zero_mul, zero_add, Nat.cast_zero, zero_mul] at hmagnitude
    have hnonneg := mul_nonneg ht hpos.le
    simp only [zero_mul, zero_add, Nat.zero_sub, hmagnitude, zero_div]
    exact ⟨hnonneg, by omega⟩
  · by_cases hinner : k = 0 ∨ f.width ≤ n - 1
    · have hrank : k * f.width + n - 1 = k * f.width + (n - 1) := by omega
      have hcast : ((n - 1 : ℕ) : ℚ) = n - 1 := by push_cast [hnpos]; ring
      rw [hmagnitude, hrank, magnitude_add (by omega) hinner, hcast]
      exact ⟨by nlinarith, fun _ hlt => by nlinarith⟩
    · -- The grid is finer below the first rank of a binade, and the number is not below it.
      obtain ⟨hzero, hfirst⟩ := not_or.1 hinner
      have heq : n = f.width := by have := hk.resolve_left hzero; omega
      have hwidth : (n : ℚ) ≤ t := by rw [heq]; exact hbinade.resolve_left hzero
      have hbefore : f.magnitude (k * f.width + n - 1) < f.magnitude (k * f.width + n) :=
        f.magnitude_strictMono (by omega)
      rw [hmagnitude] at hbefore ⊢
      have hle : (n : ℚ) * 2 ^ (f.least + k) ≤ t * 2 ^ (f.least + k) := by gcongr
      exact ⟨by linarith, fun _ _ => by linarith⟩

/-- A number reads back to the point of the grid of its binade that it is nearest to. -/
theorem readsBack_add (hf : 2 ≤ f.digits) {k n : ℕ} {t : ℚ} (ht : 0 ≤ t)
    (hbinade : k = 0 ∨ (f.width : ℚ) ≤ t) (hn : n ≤ 2 * f.width) (hlower : n ≤ t + 1 / 2)
    (hupper : t ≤ n + 1 / 2) (hodd : n % 2 = 1 → n < t + 1 / 2 ∧ t < n + 1 / 2) :
    f.ReadsBack (k * f.width + n) (t * 2 ^ (f.least + k)) := by
  have hpos : (0 : ℚ) < 2 ^ (f.least + k) := by positivity
  have hk : k = 0 ∨ f.width ≤ n := by
    refine hbinade.imp_right fun hwidth => ?_
    by_contra hlt
    have hlt' : (n : ℚ) + 1 ≤ f.width := by exact_mod_cast Nat.lt_of_not_le hlt
    linarith
  have hparity : (k * f.width + n) % 2 = n % 2 := by
    rw [Nat.add_mod, Nat.mul_mod, even_width hf, mul_zero, Nat.zero_mod, zero_add, Nat.mod_mod]
  have hmagnitude := magnitude_add hn hk
  have hnext := le_magnitude_add_succ hn hk
  obtain ⟨hbelow, hbelow'⟩ := middle_le ht hbinade hn hk hlower
  rw [ReadsBack, hparity]
  split
  · exact ⟨hbelow, by nlinarith⟩
  · next hone =>
    obtain ⟨hlower', hupper'⟩ := hodd (by omega)
    exact ⟨hbelow' (by omega) hlower', by nlinarith⟩

/-! ## Ratios -/

theorem cast_width : (f.width : ℚ) = 2 ^ ((f.digits - 1 : ℕ) : ℤ) := by
  rw [width, Nat.pow_eq]
  push_cast
  rw [zpow_natCast]

/-- A ratio reads back to the rank that it is rounded to. -/
theorem readsBack_unboundedRank (hf : 2 ≤ f.digits) (num : ℕ) {den : ℕ} (hden : 0 < den) :
    f.ReadsBack (f.unboundedRank num den) (num / den) := by
  rw [unboundedRank]
  split
  · next hzero =>
    rw [hzero, Nat.cast_zero, zero_div, ← magnitude_zero]
    exact readsBack_magnitude 0
  · next hnum =>
    extract_lets exponent
    obtain ⟨horderLower, horderUpper⟩ := binaryOrder_bounds (Nat.pos_of_ne_zero hnum) hden
    have hexponent : exponent = max f.least (binaryOrder num den - (f.digits - 1 : ℕ)) := rfl
    have hpos : (0 : ℚ) < 2 ^ exponent := by positivity
    have hbinade : f.least + ((exponent - f.least).toNat : ℤ) = exponent := by omega
    have hscaled : 0 < den * Nat.pow 2 exponent.toNat := Nat.mul_pos hden (Nat.two_pow_pos _)
    have hratio := cast_ratio_two_pow num den exponent
    obtain ⟨hlower, hupper, hodd⟩ :=
      roundHalfEven_bounds (num * Nat.pow 2 (-exponent).toNat) hscaled
    rw [hratio] at hlower hupper hodd
    generalize roundHalfEven _ _ = n at hlower hupper hodd ⊢
    have hless : (num : ℚ) / den / 2 ^ exponent < 2 * f.width := by
      rw [div_lt_iff₀ hpos]
      calc (num : ℚ) / den < 2 ^ (binaryOrder num den + 1) := horderUpper
        _ ≤ 2 ^ (((f.digits - 1 : ℕ) : ℤ) + 1 + exponent) :=
          zpow_le_zpow_right₀ one_le_two (by omega)
        _ = 2 * f.width * 2 ^ exponent := by
          rw [cast_width, zpow_add₀ two_ne_zero, zpow_add_one₀ two_ne_zero]
          ring
    -- Only in the first binade there are numbers below the width.
    have hwidth : (exponent - f.least).toNat = 0 ∨ (f.width : ℚ) ≤ num / den / 2 ^ exponent := by
      by_cases hfirst : exponent = f.least
      · exact .inl (by omega)
      · refine .inr ((le_div_iff₀ hpos).2 ?_)
        rwa [cast_width, ← zpow_add₀ two_ne_zero,
          show ((f.digits - 1 : ℕ) : ℤ) + exponent = binaryOrder num den by omega]
    have hn : n ≤ 2 * f.width := by
      by_contra hlt
      have hlt' : (2 * f.width : ℚ) + 1 ≤ n := by exact_mod_cast Nat.lt_of_not_le hlt
      linarith
    have hreads := readsBack_add hf (by positivity) hwidth hn hlower hupper hodd
    rwa [hbinade, div_mul_cancel₀ _ hpos.ne'] at hreads

/-- A ratio is rounded to the only rank that it reads back to. -/
theorem unboundedRank_eq (hf : 2 ≤ f.digits) {num den rank : ℕ} (hden : 0 < den)
    (h : f.ReadsBack rank (num / den)) : f.unboundedRank num den = rank :=
  (readsBack_unboundedRank hf num hden).unique h

/-- A ratio that reads back to a rank is rounded to it. -/
theorem nearest_eq (hf : 2 ≤ f.digits) {num den : ℕ} {rank : Fin (f.top + 1)} (hden : 0 < den)
    (h : f.ReadsBack rank (num / den)) : f.nearest num den = rank :=
  Fin.ext ((congrArg (min f.top) (unboundedRank_eq hf hden h)).trans
    (Nat.min_eq_right (Nat.le_of_lt_succ rank.isLt)))

/-- A ratio below a magnitude is not rounded above it. -/
theorem unboundedRank_le (hf : 2 ≤ f.digits) {num den bound : ℕ} (hden : 0 < den)
    (h : (num : ℚ) / den ≤ f.magnitude bound) : f.unboundedRank num den ≤ bound :=
  (readsBack_unboundedRank hf num hden).mono (readsBack_magnitude bound) h

/-! ## Representable numbers -/

variable (f) in
/-- The number is a finite magnitude. -/
def Representable (b : ℚ) : Prop := ∃ rank < f.top, f.magnitude rank = b

/-- A number with a small enough significand is represented, if its exponent is not too small. -/
theorem exists_magnitude_eq {m : ℕ} {e : ℤ} (hm : m ≤ 2 * f.width) (he : f.least ≤ e) :
    ∃ rank, f.magnitude rank = m * 2 ^ e := by
  obtain ⟨k, rfl⟩ : ∃ k : ℕ, e = f.least + k := ⟨(e - f.least).toNat, by omega⟩
  clear he
  induction k generalizing m with
  | zero => exact ⟨_, magnitude_add hm (.inl rfl)⟩
  | succ k ih =>
    by_cases hwidth : f.width ≤ m
    · exact ⟨_, magnitude_add hm (.inr hwidth)⟩
    · obtain ⟨rank, hrank⟩ := ih (show 2 * m ≤ 2 * f.width by omega)
      refine ⟨rank, hrank.trans ?_⟩
      rw [Nat.cast_succ, ← add_assoc, zpow_add_one₀ two_ne_zero]
      push_cast
      ring

/-- Infinity stands at the magnitude that would come next. -/
theorem magnitude_top (h : 1 ≤ f.binades) :
    f.magnitude f.top = f.width * 2 ^ (f.least + (f.binades - 1 : ℕ)) := by
  have htop : f.top = (f.binades - 1) * f.width + f.width := by
    rw [top, ← Nat.succ_mul, Nat.succ_eq_add_one, Nat.sub_add_cancel h]
  rw [htop, magnitude_add (by omega) (.inr le_rfl)]

/-- A number with a small enough significand is finite if its exponent is in range. -/
theorem representable_mul_zpow {m : ℕ} {e : ℤ} (hm : m ≤ 2 * f.width) (hleast : f.least ≤ e)
    (htop : e + 1 < f.least + (f.binades - 1 : ℕ)) : f.Representable (m * 2 ^ e) := by
  obtain ⟨rank, hrank⟩ := exists_magnitude_eq hm hleast
  refine ⟨rank, f.magnitude_strictMono.lt_iff_lt.1 ?_, hrank⟩
  have hwidth : (0 : ℚ) < f.width := by exact_mod_cast f.width_pos
  have hm' : (m : ℚ) ≤ 2 * f.width := by exact_mod_cast hm
  have hpow : (2 : ℚ) ^ (e + 1) < 2 ^ (f.least + (f.binades - 1 : ℕ)) :=
    zpow_lt_zpow_right₀ one_lt_two htop
  calc f.magnitude rank = m * 2 ^ e := hrank
    _ ≤ 2 * f.width * 2 ^ e := by gcongr
    _ = f.width * 2 ^ (e + 1) := by rw [zpow_add_one₀ two_ne_zero]; ring
    _ < f.width * 2 ^ (f.least + (f.binades - 1 : ℕ)) := mul_lt_mul_of_pos_left hpow hwidth
    _ = f.magnitude f.top := (magnitude_top (by omega)).symm

end Format

end SceneCode
