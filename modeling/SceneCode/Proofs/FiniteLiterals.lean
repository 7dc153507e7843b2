import SceneCode.Proofs.Bounds
import SceneCode.Proofs.Literals
import SceneCode.Swift.Resource

/-!
# The literals of finite numbers

A number is scaled up, rounded and scaled down in double precision. The greatest finite number of
single precision, scaled by any power of ten that is used, is still representable in double
precision, so no finite number gets beyond it on the way (`atMost_rounded`), and its literal is
finite.

A finite literal that is not whole is below twice the width of its format, where the whole numbers
are magnitudes themselves. So no whole number reads back to it, and its shortest decimal has a
fraction (`Format.exponent_shortest_neg`). A whole one is written with a fraction anyway.

* `Literal.pointed_and_read_text`: the literals of finite numbers are finite, have a point between
  digits, and can be read back.
-/

namespace SceneCode

theorem Format.two_le_digits_binary32 : 2 ≤ binary32.digits := by decide

theorem Format.two_le_digits_binary64 : 2 ≤ binary64.digits := by decide

/-- A significand has one digit more than the width at most. -/
theorem Format.significand_lt {f : Format} (rank : ℕ) : f.significand rank < 2 * f.width := by
  have hmod := Nat.mod_lt rank f.width_pos
  rw [significand]
  split <;> omega

/-! ## Finiteness -/

namespace Swift.Literal

/-- The greatest finite number of single precision. -/
def greatest : ℕ := (Nat.pow 2 24 - 1) * Nat.pow 2 104

/-- The last rank below infinity is that of the greatest number. -/
theorem magnitude_pred_top :
    Format.binary32.magnitude (Format.binary32.top - 1) = greatest := by
  have hrank : Format.binary32.top - 1 = 253 * Format.binary32.width + (Nat.pow 2 24 - 1) := by
    decide
  rw [hrank, Format.magnitude_add (by decide) (.inr (by decide)), greatest]
  have hexponent : Format.binary32.least + (253 : ℕ) = 104 := by decide
  rw [hexponent]
  norm_num

/-- Finite numbers are at most the greatest one. -/
theorem atMost_greatest {x : Single} (h : x.isFinite = true) : x.AtMost greatest := by
  cases x with
  | nan => cases h
  | real negative rank =>
    have hrank : rank.val < Format.binary32.top := of_decide_eq_true h
    rw [← magnitude_pred_top]
    exact ⟨hrank, Format.binary32.magnitude_strictMono.monotone (by omega)⟩

theorem representable_greatest : Format.binary32.Representable greatest :=
  ⟨_, by decide, magnitude_pred_top⟩

theorem exponent_le {rank : ℕ} (h : rank < Format.binary32.top) :
    Format.binary32.exponent rank ≤ 104 := by
  have hbinade : rank / Format.binary32.width < 255 := Nat.div_lt_of_lt_mul (by rwa [mul_comm])
  have hleast : Format.binary32.least = -149 := rfl
  rw [Format.exponent]
  omega

/-- A number scaled by a power of ten has no more digits than doubles have. -/
theorem representable_magnitude_mul {rank places : ℕ} (hrank : rank < Format.binary32.top)
    (h : places ≤ maxPlaces) :
    Format.binary64.Representable (Format.binary32.magnitude rank * (10 ^ places : ℕ)) := by
  have hscaled : Format.binary32.magnitude rank * (10 ^ places : ℕ) =
      (Format.binary32.significand rank * 5 ^ places : ℕ) *
        2 ^ (Format.binary32.exponent rank + places) := by
    have hten : (10 : ℕ) ^ places = 5 ^ places * 2 ^ places := Nat.mul_pow 5 2 places
    rw [Format.magnitude, hten, zpow_add₀ two_ne_zero, zpow_natCast]
    push_cast
    ring
  have hsignificand : Format.binary32.significand rank ≤ Nat.pow 2 24 :=
    (Format.significand_lt rank).le
  have hdigits : Format.binary32.significand rank * 5 ^ places ≤ 2 * Format.binary64.width := by
    calc Format.binary32.significand rank * 5 ^ places ≤ Nat.pow 2 24 * 5 ^ maxPlaces :=
          Nat.mul_le_mul hsignificand (Nat.pow_le_pow_right (by decide) h)
      _ ≤ 2 * Format.binary64.width := by decide
  have hexponent := exponent_le hrank
  have hleast := Format.binary32.least_le_exponent rank
  have hplaces : (places : ℤ) ≤ 9 := by exact_mod_cast h
  have hsingle : Format.binary32.least = -149 := rfl
  have hdouble : Format.binary64.least = -1074 := rfl
  have hbinades : Format.binary64.binades = 2047 := rfl
  rw [hscaled]
  exact Format.representable_mul_zpow hdigits (by omega) (by omega)

/-- Up to nine decimal places, the greatest number can be scaled without overflow. -/
theorem representable_greatest_mul {places : ℕ} (h : places ≤ maxPlaces) :
    Format.binary64.Representable (greatest * (10 ^ places : ℕ)) := by
  rw [← magnitude_pred_top]
  exact representable_magnitude_mul (by decide) h

/-- The powers of ten that numbers are scaled by are doubles. -/
theorem exists_scale_eq {places : ℕ} (h : places ≤ maxPlaces) :
    ∃ rank : Fin (Format.binary64.top + 1),
      (.ofScaled false (Nat.pow 10 places) 0 : Double) = .real false rank ∧
        rank.val < Format.binary64.top ∧
          Format.binary64.magnitude rank = (10 ^ places : ℕ) := by
  have hdigits : 10 ^ places ≤ 2 * Format.binary64.width :=
    (Nat.pow_le_pow_right (by decide) h).trans (by decide)
  have hscale : Format.binary64.Representable ((10 ^ places : ℕ) * 2 ^ (0 : ℤ)) :=
    Format.representable_mul_zpow hdigits (by decide) (by decide)
  obtain ⟨rank, heq, hrank, hmagnitude⟩ :=
    Binary.exists_ofScaled_eq Format.two_le_digits_binary64 hscale
  exact ⟨rank, heq, hrank, by rwa [zpow_zero, mul_one] at hmagnitude⟩

/-- What a number is scaled up, rounded and scaled down to, in double precision. -/
theorem atMost_scaledDown {places : ℕ} (hplaces : places ≤ maxPlaces) {x : Single}
    (hx : x.isFinite = true) :
    let scale : Double := .ofScaled false (Nat.pow 10 places) 0
    ((x.convert .binary64 * scale).roundHalfAway / scale).AtMost greatest := by
  intro scale
  obtain ⟨rank, hscale, hrank, hmagnitude⟩ := exists_scale_eq hplaces
  have hbound := representable_greatest_mul (Nat.zero_le maxPlaces)
  have hscaledBound := representable_greatest_mul hplaces
  rw [pow_zero, Nat.cast_one, mul_one] at hbound
  rw [show scale = .real false rank from hscale]
  have hdouble := (atMost_greatest hx).convert Format.two_le_digits_binary64 hbound
  have hfactor : (Binary.real false rank).AtMost (10 ^ places : ℕ) := ⟨hrank, hmagnitude.le⟩
  have hproduct := hdouble.mul Format.two_le_digits_binary64 hfactor hscaledBound
  have hrounded : (x.convert .binary64 * .real false rank).roundHalfAway.AtMost
      (greatest * (10 ^ places : ℕ)) := by
    rw [← Nat.cast_mul] at hproduct hscaledBound ⊢
    exact hproduct.roundHalfAway Format.two_le_digits_binary64 hscaledBound
  exact hrounded.div Format.two_le_digits_binary64 hrank hmagnitude (by positivity) hbound

/-- Scaling, rounding and scaling back keep a finite number finite: each stage is at most a number
    that is representable there. -/
theorem atMost_rounded {places : ℕ} (hplaces : places ≤ maxPlaces) {x : Single}
    (hx : x.isFinite = true) :
    let scale : Double := .ofScaled false (Nat.pow 10 places) 0
    (((x.convert .binary64 * scale).roundHalfAway / scale).convert .binary32 : Single).AtMost
      greatest :=
  (atMost_scaledDown hplaces hx).convert Format.two_le_digits_binary32 representable_greatest

/-- A finite number has a finite literal, whose value is not the negative zero. -/
theorem exists_value_ofSingle {places : ℕ} (hplaces : places ≤ maxPlaces) {x : Single}
    (hx : x.isFinite = true) : ∃ (negative : Bool) (rank : Fin (Format.binary32.top + 1)),
      (ofSingle places x).value = .real negative rank ∧ rank.val < Format.binary32.top ∧
        (rank.val = 0 → negative = false) := by
  obtain ⟨negative, rank, heq, hrank, -⟩ := (atMost_rounded hplaces hx).exists_eq
  rw [ofSingle, heq, Binary.unsignedZero]
  by_cases hzero : (Binary.real negative rank).isZero = true
  · rw [if_pos hzero]
    exact ⟨false, 0, rfl, by decide, fun _ => rfl⟩
  · rw [if_neg hzero]
    exact ⟨negative, rank, rfl, hrank, fun h => absurd (beq_iff_eq.2 h) hzero⟩

end Swift.Literal

/-! ## Text -/

/-- A text of digits with a point among them. -/
def Decimal.Pointed (text : List Char) : Prop :=
  ∃ whole fraction, text = whole ++ '.' :: fraction ∧ whole ≠ [] ∧ fraction ≠ [] ∧
    ∀ c ∈ whole ++ fraction, c.isDigit = true

theorem Decimal.pointed_chars {d : Decimal} (h : d.exponent < 0) : Pointed d.chars := by
  rw [chars, if_neg (by omega)]
  refine ⟨_, _, rfl, ?_, ?_, fun c hc => ?_⟩
  · rw [ne_eq, ← List.length_eq_zero_iff]
    simp
    omega
  · rw [ne_eq, ← List.length_eq_zero_iff]
    simp
    omega
  · rw [List.take_append_drop, List.mem_append] at hc
    exact hc.elim (isDigit_of_mem_replicate c) (isDigit_of_mem_digitChars c)

namespace Format

variable {f : Format} {rank : ℕ}

/-- Whole numbers up to twice the width are represented. -/
theorem exists_magnitude_eq_natCast (hleast : f.least ≤ 0) {n : ℕ} (hn : n ≤ 2 * f.width) :
    ∃ rank, f.magnitude rank = n := by
  obtain ⟨rank, hrank⟩ := exists_magnitude_eq hn hleast
  exact ⟨rank, by rwa [zpow_zero, mul_one] at hrank⟩

/-- A whole number that reads back to a magnitude below twice the width is that magnitude itself. -/
theorem ReadsBack.magnitude_eq {n : ℕ} (h : f.ReadsBack rank n) (hleast : f.least ≤ 0)
    (hlt : f.magnitude rank < 2 * f.width) : f.magnitude rank = n := by
  have hn : n ≤ 2 * f.width := by
    by_contra hgreater
    obtain ⟨bound, hbound⟩ := exists_magnitude_eq_natCast hleast (le_refl (2 * f.width))
    have hle : f.magnitude bound ≤ n := by
      rw [hbound]
      exact_mod_cast (Nat.lt_of_not_le hgreater).le
    have hrank := f.magnitude_strictMono.monotone ((readsBack_magnitude bound).mono h hle)
    rw [hbound] at hrank
    push_cast at hrank
    linarith
  obtain ⟨other, hother⟩ := exists_magnitude_eq_natCast hleast hn
  have hreads := readsBack_magnitude (f := f) other
  rw [hother] at hreads
  rw [h.unique hreads, hother]

/-- The shortest decimal of a magnitude that is not whole is not whole either. -/
theorem exponent_shortest_neg (hleast : f.least ≤ 0) (h : ∀ n : ℕ, f.magnitude rank ≠ n) :
    (f.shortest rank).exponent < 0 := by
  by_contra hexponent
  have hvalue : (f.shortest rank).value =
      ((f.shortest rank).digits * 10 ^ (f.shortest rank).exponent.toNat : ℕ) := by
    rw [Decimal.value]
    push_cast
    rw [← zpow_natCast, Int.toNat_of_nonneg (by omega)]
  have hreads := f.readsBack_shortest rank
  rw [hvalue] at hreads
  refine h _ (hreads.magnitude_eq hleast ?_)
  -- A significand is less than twice the width, and here it is scaled down.
  have hnegative : f.exponent rank < 0 := by
    by_contra hnonneg
    exact h _ (f.magnitude_eq_natCast (Int.not_lt.1 hnonneg))
  have hsignificand : (f.significand rank : ℚ) < 2 * f.width := by
    exact_mod_cast significand_lt rank
  calc f.magnitude rank ≤ f.significand rank * 1 := by
        rw [magnitude]
        gcongr
        exact zpow_le_one_of_nonpos₀ one_le_two hnegative.le
    _ < 2 * f.width := by rwa [mul_one]

end Format

/-- A number whose magnitude is whole has a whole part. -/
theorem Binary.wholePart?_ne_none {f : Format} {negative : Bool} {rank : Fin (f.top + 1)} {n : ℕ}
    (hrank : rank.val ≠ f.top) (h : f.magnitude rank = n) :
    (Binary.real negative rank).wholePart? ≠ none := by
  have hratio := (cast_ratio_scaled (f.significand rank) (f.exponent rank)).trans h
  have hpos : (0 : ℚ) < (Nat.pow 2 (-f.exponent rank).toNat : ℕ) := by
    exact_mod_cast Nat.two_pow_pos _
  rw [div_eq_iff hpos.ne', ← Nat.cast_mul, Nat.cast_inj] at hratio
  rw [wholePart?, if_neg hrank, hratio]
  simp

namespace Swift.Literal

variable {rank : Fin (Format.binary32.top + 1)}

/-- Finite numbers are printed with a point, and with digits on both sides of it. -/
theorem pointed_magnitudeChars (h : rank.val ≠ Format.binary32.top) :
    Decimal.Pointed (magnitudeChars rank) := by
  cases hwhole : (Binary.real false rank).wholePart? with
  | some whole =>
    have hchars : magnitudeChars rank = Decimal.digitChars whole ++ ['.', '0'] := by
      simp [magnitudeChars, chars, hwhole, Binary.signed]
    refine ⟨Decimal.digitChars whole, ['0'], hchars, Nat.toDigits_ne_nil, List.cons_ne_nil _ _, ?_⟩
    exact List.forall_mem_append.2
      ⟨Decimal.isDigit_of_mem_digitChars, List.forall_mem_singleton.2 rfl⟩
  | none =>
    have hnot (n : ℕ) : Format.binary32.magnitude rank ≠ n := fun heq =>
      Binary.wholePart?_ne_none h heq hwhole
    rcases magnitudeChars_cases h with ⟨whole, -, heq⟩ | hchars
    · exact absurd heq.symm (hnot whole)
    · rw [hchars]
      exact Decimal.pointed_chars (Format.exponent_shortest_neg (by decide) hnot)

end Swift.Literal

/-! ## Reading -/

/-- The number nearest to a ratio that is not negative, with the given sign. -/
def Binary.nearestTo {f : Format} (negative : Bool) (x : ℚ) : Binary f :=
  .ofRatio negative x.num.natAbs x.den

/-- A number that reads back to a rank is rounded to that rank. -/
theorem Binary.nearestTo_eq {f : Format} (hf : 2 ≤ f.digits) {negative : Bool} {x : ℚ} (hx : 0 ≤ x)
    {rank : Fin (f.top + 1)} (h : f.ReadsBack rank x) :
    nearestTo negative x = .real negative rank := by
  have hratio : (x.num.natAbs : ℚ) / x.den = x := by
    rw [Nat.cast_natAbs, abs_of_nonneg (Rat.num_nonneg.2 hx), Rat.num_div_den]
  rw [← hratio] at h
  rw [nearestTo, ofRatio, Format.nearest_eq hf x.den_pos h]

namespace Swift.Literal

variable {rank : Fin (Format.binary32.top + 1)}

/-- Reads a decimal with or without a minus sign, and rounds it to single precision. -/
def read (text : List Char) : Single :=
  if text.head? = some '-' then .nearestTo true (Decimal.read text.tail)
  else .nearestTo false (Decimal.read text)

/-- What is printed for a finite number is read as the same number. -/
theorem read_chars (negative : Bool) (h : rank.val ≠ Format.binary32.top) :
    read (chars ⟨.real negative rank⟩) = .real negative rank := by
  have hnonneg : 0 ≤ Decimal.read (magnitudeChars rank) := by
    rw [Decimal.read]
    positivity
  have hreads := (readsBack_read h).1
  rw [chars_real]
  cases negative with
  | true =>
    exact Binary.nearestTo_eq Format.two_le_digits_binary32 hnonneg hreads
  | false =>
    have hsign : (magnitudeChars rank).head? ≠ some '-' := fun hhead =>
      (ne_of_mem_magnitudeChars (List.mem_of_mem_head? hhead)).1 rfl
    rw [Binary.signed, if_neg Bool.false_ne_true, read, if_neg hsign]
    exact Binary.nearestTo_eq Format.two_le_digits_binary32 hnonneg hreads

/-- A finite number has a finite literal, at every precision. Its text is made of digits with a
    point between them and a sign before them, if any, and it is never that of the negative zero.
    Reading the text gives back the literal, and literals are equal exactly if their texts are. -/
theorem pointed_and_read_text (precision : ℕ) {x : Single} (hx : x.isFinite = true) :
    let l : Literal := (representation precision).scalar x
    l.value.isFinite = true ∧
      (∃ negative digits, l.text.toList = Binary.signed negative digits ∧ Decimal.Pointed digits) ∧
      l.text ≠ "-0.0" ∧ read l.text.toList = l.value ∧
      ∀ (other : ℕ) (y : Single), (representation other).scalar y = l ↔
        Literal.text ((representation other).scalar y) = l.text := by
  intro l
  have hplaces : min precision maxPlaces ≤ maxPlaces := Nat.min_le_right _ _
  obtain ⟨negative, rank, hvalue, hrank, hzero⟩ := exists_value_ofSingle hplaces hx
  have hl : l = ⟨.real negative rank⟩ := congrArg Literal.mk hvalue
  have htext : l.text.toList = l.chars := String.toList_ofList
  have hnegative : text ⟨.real true 0⟩ = "-0.0" := by decide
  rw [htext, hl]
  refine ⟨decide_eq_true hrank,
    ⟨negative, _, chars_real negative rank, pointed_magnitudeChars hrank.ne⟩, fun heq => ?_,
    read_chars negative hrank.ne, fun other y => text_injective.eq_iff.symm⟩
  -- Literals are told apart by their texts, and a zero has no sign.
  obtain ⟨rfl, rfl⟩ := Binary.real.inj
    (congrArg Literal.value (text_injective (heq.trans hnegative.symm)))
  exact Bool.noConfusion (hzero rfl)

/-- The greatest number is printed in full. -/
theorem pointed_and_read_text_greatest :
    let x : Single := .real true ⟨Format.binary32.top - 1, by decide⟩
    let l : Literal := (representation 12).scalar x
    x.isFinite = true ∧ l.value.isFinite = true ∧ read l.text.toList = l.value ∧
      (Literal.text ((representation 3).scalar x) = l.text → (representation 3).scalar x = l) := by
  intro x l
  have hx : x.isFinite = true := by decide
  obtain ⟨hfinite, _, _, hread, heq⟩ := pointed_and_read_text 12 hx
  exact ⟨hx, hfinite, hread, (heq 3 x).2⟩

end Swift.Literal

end SceneCode
