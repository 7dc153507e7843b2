import Mathlib.Data.List.TakeWhile
import Mathlib.Data.Nat.Cast.Field
import Mathlib.Tactic.NormNum
import SceneCode.Proofs.Magnitudes
import SceneCode.Swift.Literal

/-!
# Literals are told apart by their texts

The text of a decimal is made of digits, with a point among them or not, and is read by moving the
point (`Decimal.read`). Zeros that fill up places on either side of the digits do not change the
number that is read (`Decimal.read_chars`).

The text of a finite literal has a sign in front of such a text, from which a number is read that
reads back to its magnitude: the magnitude itself if that is whole, and otherwise its shortest
decimal (`Literal.readsBack_read`). So the text determines the magnitude and the sign. The other
literals have letters in their texts.

* `Literal.text_injective`: two literals with the same text are the same.
-/

namespace SceneCode

/-! ## Reading decimals -/

namespace Decimal

/-- The number that a text of digits, with or without a point among them, stands for. -/
def read (text : List Char) : ℚ :=
  let whole := text.takeWhile (· ≠ '.')
  let fraction := (text.dropWhile (· ≠ '.')).tail
  Nat.ofDigitChars 10 (whole ++ fraction) 0 / 10 ^ fraction.length

variable {whole fraction : List Char}

/-- Digits without a point are a whole number. -/
theorem read_of_no_point (h : ∀ c ∈ whole, c ≠ '.') :
    read whole = Nat.ofDigitChars 10 whole 0 := by
  have h' : ∀ c ∈ whole, decide (c ≠ '.') = true := by simpa using h
  rw [read, List.takeWhile_eq_self_iff.2 h', List.dropWhile_eq_nil_iff.2 h', List.tail_nil,
    List.append_nil, List.length_nil, pow_zero, div_one]

/-- Digits after the point are divided by a power of ten. -/
theorem read_point (h : ∀ c ∈ whole, c ≠ '.') :
    read (whole ++ '.' :: fraction) =
      Nat.ofDigitChars 10 (whole ++ fraction) 0 / 10 ^ fraction.length := by
  have h' : ∀ c ∈ whole, decide (c ≠ '.') = true := by simpa using h
  have htake : (whole ++ '.' :: fraction).takeWhile (· ≠ '.') = whole := by
    rw [List.takeWhile_append_of_pos h']
    simp
  have hdrop : (whole ++ '.' :: fraction).dropWhile (· ≠ '.') = '.' :: fraction := by
    rw [List.dropWhile_append_of_pos h']
    simp
  simp only [read, htake, hdrop, List.tail_cons]

theorem isDigit_of_mem_digitChars {n : ℕ} : ∀ c ∈ digitChars n, c.isDigit = true :=
  fun _ => Nat.isDigit_of_mem_toDigits (by decide) (by decide)

theorem ne_point_of_isDigit {c : Char} (h : c.isDigit = true) : c ≠ '.' := by
  rintro rfl
  cases h

theorem isDigit_of_mem_replicate {n : ℕ} : ∀ c ∈ List.replicate n '0', c.isDigit = true :=
  fun c hc => by rw [List.eq_of_mem_replicate hc]; rfl

/-- A text is either digits with zeros after them, or digits with zeros before them and a point in
    between. -/
theorem chars_cases (d : Decimal) :
    (0 ≤ d.exponent ∧
        d.chars = digitChars d.digits ++ List.replicate d.exponent.toNat '0') ∨
      (d.exponent < 0 ∧ ∃ zeros whole fraction : List Char,
        d.chars = whole ++ '.' :: fraction ∧ fraction.length = (-d.exponent).toNat ∧
          (∃ n, zeros = List.replicate n '0') ∧
            whole ++ fraction = zeros ++ digitChars d.digits) := by
  rw [chars]
  split
  · exact .inl ⟨‹_›, rfl⟩
  · refine .inr ⟨by omega, _, _, _, rfl, ?_, ⟨_, rfl⟩, List.take_append_drop _ _⟩
    simp only [List.length_drop, List.length_append, List.length_replicate]
    omega

/-- The text of a decimal stands for it. -/
theorem read_chars (d : Decimal) : read d.chars = d.value := by
  rcases d.chars_cases with
    ⟨hexponent, h⟩ | ⟨hexponent, zeros, whole, fraction, h, hlength, ⟨n, rfl⟩, heq⟩
  · have hdigits : ∀ c ∈ digitChars d.digits ++ List.replicate d.exponent.toNat '0', c ≠ '.' :=
      fun c hc => ne_point_of_isDigit ((List.mem_append.1 hc).elim (isDigit_of_mem_digitChars c)
        (isDigit_of_mem_replicate c))
    rw [h, read_of_no_point hdigits, Nat.ofDigitChars_append, Nat.ofDigitChars_replicate_zero,
      digitChars, Nat.ofDigitChars_ten_toDigits, value]
    nth_rewrite 2 [← Int.toNat_of_nonneg hexponent]
    rw [zpow_natCast]
    push_cast
    ring
  · have hwhole : ∀ c ∈ whole, c ≠ '.' := fun c hc => ne_point_of_isDigit <|
      (List.mem_append.1 (heq ▸ List.mem_append_left fraction hc)).elim
        (isDigit_of_mem_replicate c) (isDigit_of_mem_digitChars c)
    rw [h, read_point hwhole, heq, Nat.ofDigitChars_append, Nat.ofDigitChars_replicate_zero,
      mul_zero, digitChars, Nat.ofDigitChars_ten_toDigits, hlength, value, ← zpow_natCast,
      Int.toNat_of_nonneg (by omega), zpow_neg, div_inv_eq_mul]

/-- A decimal is written with digits and a point. -/
theorem isDigit_or_point_of_mem_chars (d : Decimal) :
    ∀ c ∈ d.chars, c.isDigit = true ∨ c = '.' := by
  intro c hc
  rcases d.chars_cases with ⟨_, h⟩ | ⟨_, zeros, whole, fraction, h, _, ⟨n, rfl⟩, heq⟩
  · rw [h] at hc
    exact .inl ((List.mem_append.1 hc).elim (isDigit_of_mem_digitChars c)
      (isDigit_of_mem_replicate c))
  · rw [h, List.mem_append, List.mem_cons, or_left_comm, ← List.mem_append, heq] at hc
    rcases hc with hc | hc
    · exact .inr hc
    · exact .inl ((List.mem_append.1 hc).elim (isDigit_of_mem_replicate c)
        (isDigit_of_mem_digitChars c))

theorem chars_ne_nil (d : Decimal) : d.chars ≠ [] := by
  rcases d.chars_cases with ⟨_, h⟩ | ⟨_, zeros, whole, fraction, h, _⟩
  · rw [h]
    exact List.append_ne_nil_of_left_ne_nil Nat.toDigits_ne_nil _
  · rw [h]
    exact List.append_ne_nil_of_right_ne_nil _ (List.cons_ne_nil _ _)

end Decimal

/-! ## Literals -/

/-- The whole part of a whole number is the number itself. -/
theorem Binary.cast_wholePart {f : Format} {negative : Bool} {rank : Fin (f.top + 1)} {whole : ℕ}
    (h : (Binary.real negative rank).wholePart? = some whole) : (whole : ℚ) = f.magnitude rank := by
  rw [wholePart?] at h
  split at h
  · cases h
  · simp only [Option.ite_none_right_eq_some, Option.some.injEq] at h
    obtain ⟨hdvd, rfl⟩ := h
    rw [Nat.pow_eq, Nat.pow_eq] at hdvd ⊢
    rw [Nat.cast_div (Nat.dvd_of_mod_eq_zero hdvd) (by positivity), Format.magnitude]
    push_cast
    rw [Format.pow_toNat_eq two_ne_zero, div_eq_iff (by positivity)]
    ring

namespace Swift.Literal

variable {rank rank' : Fin (Format.binary32.top + 1)}

/-- The text of a magnitude, which is that of the literal without a sign. -/
def magnitudeChars (rank : Fin (Format.binary32.top + 1)) : List Char := chars ⟨.real false rank⟩

theorem chars_real (negative : Bool) (rank : Fin (Format.binary32.top + 1)) :
    chars ⟨.real negative rank⟩ = Binary.signed negative (magnitudeChars rank) := by
  have hwhole : (Binary.real negative rank).wholePart? = (Binary.real false rank).wholePart? := rfl
  cases h : (Binary.real false rank).wholePart? with
  | some whole => simp only [magnitudeChars, chars, hwhole, h, Binary.signed, Bool.false_eq_true,
      if_false]
  | none =>
    simp only [magnitudeChars, chars, hwhole, h, Binary.plainChars, Binary.wordChars]
    split <;> [rfl; split <;> rfl]

theorem magnitudeChars_top (h : rank.val = Format.binary32.top) :
    magnitudeChars rank = ['i', 'n', 'f'] := by
  simp [magnitudeChars, chars, Binary.wholePart?, h, Binary.plainChars, Binary.wordChars,
    Binary.signed]

/-- What is not a whole number is written by its shortest decimal. -/
theorem magnitudeChars_cases (h : rank.val ≠ Format.binary32.top) :
    (∃ whole : ℕ, magnitudeChars rank = Decimal.digitChars whole ++ ['.', '0'] ∧
        (whole : ℚ) = Format.binary32.magnitude rank) ∨
      magnitudeChars rank = (Format.binary32.shortest rank).chars := by
  cases hwhole : (Binary.real false rank).wholePart? with
  | some whole =>
    refine .inl ⟨whole, ?_, Binary.cast_wholePart hwhole⟩
    simp [magnitudeChars, chars, hwhole, Binary.signed]
  | none =>
    right
    have hzero : rank.val ≠ 0 := by
      -- Zero is a whole number.
      intro hzero
      have htop : ¬0 = Format.binary32.top := by decide
      simp [Binary.wholePart?, hzero, htop, Format.significand, Format.width_pos] at hwhole
    simp [magnitudeChars, chars, hwhole, Binary.plainChars, h, hzero, Binary.signed]

/-- What is printed for a finite number reads back to its magnitude. -/
theorem readsBack_read (h : rank.val ≠ Format.binary32.top) :
    Format.binary32.ReadsBack rank (Decimal.read (magnitudeChars rank)) ∧
      ∀ c ∈ magnitudeChars rank, c.isDigit = true ∨ c = '.' := by
  rcases magnitudeChars_cases h with ⟨whole, hchars, hwhole⟩ | hchars
  · have hdigits := Decimal.isDigit_of_mem_digitChars (n := whole)
    have hread : Decimal.read (magnitudeChars rank) = whole := by
      rw [hchars, Decimal.read_point fun c hc => Decimal.ne_point_of_isDigit (hdigits c hc),
        Nat.ofDigitChars_append, Decimal.digitChars, Nat.ofDigitChars_ten_toDigits]
      simp [Nat.ofDigitChars_cons]
    rw [hread, hwhole, hchars]
    refine ⟨Format.readsBack_magnitude _, fun c hc => ?_⟩
    simp only [List.mem_append, List.mem_cons, List.not_mem_nil, or_false] at hc
    rcases hc with hc | rfl | rfl
    · exact .inl (hdigits c hc)
    · exact .inr rfl
    · exact .inl rfl
  · rw [hchars, Decimal.read_chars]
    exact ⟨Format.readsBack_shortest _ _, Decimal.isDigit_or_point_of_mem_chars _⟩

theorem magnitudeChars_ne_nil (rank : Fin (Format.binary32.top + 1)) :
    magnitudeChars rank ≠ [] := by
  by_cases htop : rank.val = Format.binary32.top
  · rw [magnitudeChars_top htop]
    exact List.cons_ne_nil _ _
  · rcases magnitudeChars_cases htop with ⟨whole, hchars, _⟩ | hchars
    · rw [hchars]
      exact List.append_ne_nil_of_right_ne_nil _ (List.cons_ne_nil _ _)
    · rw [hchars]
      exact Decimal.chars_ne_nil _

/-- Only infinity is written with letters, and no magnitude with a sign. -/
theorem ne_of_mem_magnitudeChars {c : Char} (h : c ∈ magnitudeChars rank) : c ≠ '-' ∧ c ≠ 'N' := by
  by_cases htop : rank.val = Format.binary32.top
  · rw [magnitudeChars_top htop] at h
    rcases List.mem_cons.1 h with rfl | h
    · decide
    · rcases List.mem_pair.1 h with rfl | rfl <;> decide
  · rcases (readsBack_read htop).2 c h with hdigit | rfl
    · constructor <;> (rintro rfl; cases hdigit)
    · decide

/-- The text of a magnitude determines it. -/
theorem magnitudeChars_injective : Function.Injective magnitudeChars := by
  have hinf {rank rank' : Fin (Format.binary32.top + 1)}
      (h : magnitudeChars rank = magnitudeChars rank')
      (htop : rank.val = Format.binary32.top) : rank'.val = Format.binary32.top := by
    by_contra htop'
    have hletter : 'i' ∈ magnitudeChars rank' := by
      rw [← h, magnitudeChars_top htop]
      exact List.mem_cons_self
    rcases (readsBack_read htop').2 'i' hletter with h | h <;> cases h
  intro rank rank' h
  by_cases htop : rank.val = Format.binary32.top
  · exact Fin.ext (htop.trans (hinf h htop).symm)
  · have htop' : rank'.val ≠ Format.binary32.top := fun htop' => htop (hinf h.symm htop')
    have hread := (readsBack_read htop).1
    rw [h] at hread
    exact Fin.ext (hread.unique (readsBack_read htop').1)

theorem chars_nan_ne (negative : Bool) : chars ⟨.nan⟩ ≠ chars ⟨.real negative rank⟩ := by
  intro h
  have hletter : 'N' ∈ chars ⟨.real negative rank⟩ := h ▸ List.mem_cons_self
  rw [chars_real] at hletter
  cases negative with
  | false => exact (ne_of_mem_magnitudeChars hletter).2 rfl
  | true =>
    rcases List.mem_cons.1 hletter with h | h
    · cases h
    · exact (ne_of_mem_magnitudeChars h).2 rfl

/-- No magnitude starts with a sign, so the sign can be told from the magnitude. -/
theorem signed_inj {negative negative' : Bool}
    (h : Binary.signed negative (magnitudeChars rank) =
      Binary.signed negative' (magnitudeChars rank')) :
    negative = negative' ∧ magnitudeChars rank = magnitudeChars rank' := by
  have hsign {rank rank' : Fin (Format.binary32.top + 1)} :
      '-' :: magnitudeChars rank ≠ magnitudeChars rank' := fun h => by
    have hmem : '-' ∈ magnitudeChars rank' := h ▸ List.mem_cons_self
    exact (ne_of_mem_magnitudeChars hmem).1 rfl
  cases negative <;> cases negative'
  · exact ⟨rfl, h⟩
  · exact absurd h.symm hsign
  · exact absurd h hsign
  · exact ⟨rfl, List.tail_eq_of_cons_eq h⟩

/-- Different numbers are printed differently. -/
theorem chars_injective : Function.Injective chars := by
  rintro ⟨x⟩ ⟨y⟩ h
  cases x with
  | nan =>
    cases y with
    | nan => rfl
    | real negative rank => exact absurd h (chars_nan_ne negative)
  | real negative rank =>
    cases y with
    | nan => exact absurd h.symm (chars_nan_ne negative)
    | real negative' rank' =>
      rw [chars_real, chars_real] at h
      obtain ⟨rfl, hrank⟩ := signed_inj h
      rw [magnitudeChars_injective hrank]

/-- Literals with the same text are the same. -/
theorem text_injective : Function.Injective text := fun _ _ h =>
  chars_injective (String.ofList_injective h)

end Swift.Literal

end SceneCode
