import Mathlib.Algebra.Group.Nat.Defs
import SceneCode.Text.Base64

/-!
# Bytes are told apart by their text in base 64

The digits of a group determine its bits, and with them its bytes (`digits_inj`). A group of one or
two bytes is told apart by the characters that it is filled up with, which are no digits.

* `encode_injective`: different bytes have different texts.
-/

namespace SceneCode.Base64

/-- Different numbers have different digits. -/
theorem digit_inj : ∀ m < 64, ∀ n < 64, digit m = digit n → m = n := by decide +kernel

/-- The sign of padding is no digit. -/
theorem digit_mod_ne (n : Nat) : digit (n % 64) ≠ '=' := by
  have h : ∀ m < 64, digit m ≠ '=' := by decide
  exact h _ (Nat.mod_lt _ (by decide))

/-! ## Groups -/

theorem length_digits (n : Nat) : (digits n).length = 4 := rfl

section Groups

variable {m n : Nat} (hm : m < 2 ^ 24) (hn : n < 2 ^ 24)
include hm hn

/-- The first two digits are those of the first twelve bits. -/
theorem div_eq_of_take_two (h : (digits m).take 2 = (digits n).take 2) :
    m / 2 ^ 12 = n / 2 ^ 12 := by
  simp only [digits, List.take, List.cons.injEq, and_true, Nat.shiftRight_eq_div_pow] at h
  have h1 := digit_inj _ (by omega) _ (by omega) h.1
  have h2 := digit_inj _ (by omega) _ (by omega) h.2
  omega

/-- Three digits give all but the last six bits. -/
theorem div_eq_of_take_three (h : (digits m).take 3 = (digits n).take 3) :
    m / 2 ^ 6 = n / 2 ^ 6 := by
  simp only [digits, List.take, List.cons.injEq, and_true, Nat.shiftRight_eq_div_pow] at h
  have h1 := digit_inj _ (by omega) _ (by omega) h.1
  have h2 := digit_inj _ (by omega) _ (by omega) h.2.1
  have h3 := digit_inj _ (by omega) _ (by omega) h.2.2
  omega

/-- Four digits give all bits of a group. -/
theorem digits_inj (h : digits m = digits n) : m = n := by
  have hdiv := div_eq_of_take_three hm hn (congrArg (List.take 3) h)
  simp only [digits, List.cons.injEq, and_true] at h
  have h4 := digit_inj _ (by omega) _ (by omega) h.2.2.2
  omega

end Groups

section Bytes

variable {a b c d e f : UInt8}

/-- A single byte at the end has two digits. -/
theorem encode_one_inj (h : encode [a] = encode [b]) : a = b := by
  have ha := a.toNat_lt
  have hb := b.toNat_lt
  have hdigits := List.append_cancel_right h
  simp only [Nat.shiftLeft_eq] at hdigits
  have hdiv := div_eq_of_take_two (by omega) (by omega) hdigits
  exact UInt8.toNat_inj.1 (by omega)

/-- Two bytes at the end have three digits. -/
theorem encode_two_inj (h : encode [a, b] = encode [c, d]) : [a, b] = [c, d] := by
  have ha := a.toNat_lt
  have hb := b.toNat_lt
  have hc := c.toNat_lt
  have hd := d.toNat_lt
  have hdigits := List.append_cancel_right h
  simp only [Nat.shiftLeft_eq] at hdigits
  have hdiv := div_eq_of_take_three (by omega) (by omega) hdigits
  rw [UInt8.toNat_inj.1 (show a.toNat = c.toNat by omega),
    UInt8.toNat_inj.1 (show b.toNat = d.toNat by omega)]

/-- Three bytes are the bits of a group. -/
theorem bytes_inj (h : digits (a.toNat <<< 16 + b.toNat <<< 8 + c.toNat) =
    digits (d.toNat <<< 16 + e.toNat <<< 8 + f.toNat)) : a = d ∧ b = e ∧ c = f := by
  have ha := a.toNat_lt
  have hb := b.toNat_lt
  have hc := c.toNat_lt
  have hd := d.toNat_lt
  have he := e.toNat_lt
  have hf := f.toNat_lt
  simp only [Nat.shiftLeft_eq] at h
  have hbits := digits_inj (by omega) (by omega) h
  exact ⟨UInt8.toNat_inj.1 (by omega), UInt8.toNat_inj.1 (by omega), UInt8.toNat_inj.1 (by omega)⟩

/-- A group of three bytes has four digits of its own, whatever comes after it. -/
theorem encode_three_inj {rest rest' : List UInt8}
    (h : encode (a :: b :: c :: rest) = encode (d :: e :: f :: rest')) :
    (a = d ∧ b = e ∧ c = f) ∧ encode rest = encode rest' := by
  rw [encode, encode] at h
  obtain ⟨hdigits, hrest⟩ := List.append_inj h (by rw [length_digits, length_digits])
  exact ⟨bytes_inj hdigits, hrest⟩

end Bytes

/-! ## Texts -/

/-- Bytes can be read back group by group: the padding tells how many bytes the last group has. -/
theorem encode_inj : ∀ bytes bytes' : List UInt8, encode bytes = encode bytes' → bytes = bytes'
  | [], [], _ => rfl
  | [_], [_], h => congrArg ([·]) (encode_one_inj h)
  | [_, _], [_, _], h => encode_two_inj h
  | _ :: _ :: _ :: rest, _ :: _ :: _ :: rest', h => by
    obtain ⟨⟨rfl, rfl, rfl⟩, hrest⟩ := encode_three_inj h
    rw [encode_inj rest rest' hrest]
  -- Only an empty text has no digit, and only what is filled up has a character that is none.
  | [], [_], h | [], [_, _], h | [], _ :: _ :: _ :: _, h => by simp [encode, digits] at h
  | [_], [], h | [_, _], [], h | _ :: _ :: _ :: _, [], h => by simp [encode, digits] at h
  | [_], [_, _], h | [_], _ :: _ :: _ :: _, h | [_, _], _ :: _ :: _ :: _, h => by
    simp [encode, digits, (digit_mod_ne _).symm] at h
  | [_, _], [_], h | _ :: _ :: _ :: _, [_], h | _ :: _ :: _ :: _, [_, _], h => by
    simp [encode, digits, digit_mod_ne] at h

/-- Different bytes have different texts. -/
theorem encode_injective : Function.Injective encode := encode_inj

end SceneCode.Base64
