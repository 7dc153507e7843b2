import SceneCode.Swift.Code

/-!
# Names are told apart by their texts

The text of a name is made of letters and of digits after them. The digits of a numbered name are
those of its index, without leading zeros, and the first name of a family has none. So letters and
digits can be told apart in the text, and from the digits the index can be read off. Since no two
families have the same letters, and none of them has those of another name, two names with the
same text are the same (`Name.text_injective`).
-/

namespace SceneCode.Swift

theorem Family.base_injective : Function.Injective Family.base := by
  intro f g h
  cases f <;> cases g <;> first | rfl | exact absurd h (by decide)

theorem ColorSpace.name_injective : Function.Injective ColorSpace.name := by
  intro s t h
  cases s <;> cases t <;> first | rfl | exact absurd h (by decide)

namespace Name

/-- The letters at the start of a name. -/
def letters : Name → String
  | numbered family _ => family.base
  | space s => s.name
  | patternAlpha => "patternAlpha"
  | context => "ctx"

/-- The digits at the end of a name. -/
def digits : Name → List Char
  | numbered _ (k + 1) => Nat.toDigits 10 (k + 1)
  | _ => []

/-- A name is letters, and then digits. -/
theorem toList_text (n : Name) : n.text.toList = n.letters.toList ++ n.digits := by
  match n with
  | numbered family 0 => simp [text, letters, digits]
  | numbered family (k + 1) =>
    simp [text, letters, digits]
    rfl
  | space _ | patternAlpha | context => simp [text, letters, digits]

theorem not_isDigit_of_mem_letters (n : Name) : ∀ c ∈ n.letters.toList, c.isDigit = false := by
  cases n with
  | numbered family k => cases family <;> simp [letters, Family.base, Char.isDigit]
  | space s => cases s <;> simp [letters, ColorSpace.name, Char.isDigit]
  | patternAlpha | context => simp [letters, Char.isDigit]

theorem isDigit_of_mem_digits (n : Name) : ∀ c ∈ n.digits, c.isDigit = true := by
  intro c hc
  match n with
  | numbered _ (k + 1) => exact Nat.isDigit_of_mem_toDigits (by decide) (by decide) hc
  | numbered _ 0 | space _ | patternAlpha | context => exact absurd hc List.not_mem_nil

/-- The letters of a name end where its digits start. -/
theorem takeWhile_text (n : Name) :
    n.text.toList.takeWhile (fun c => !c.isDigit) = n.letters.toList := by
  rw [toList_text, List.takeWhile_append_of_pos fun c hc => by
    rw [n.not_isDigit_of_mem_letters c hc]; rfl]
  have : n.digits.takeWhile (fun c => !c.isDigit) = [] := by
    cases h : n.digits with
    | nil => rfl
    | cons c cs =>
      have := n.isDigit_of_mem_digits c (h ▸ List.mem_cons_self)
      simp [this]
  rw [this, List.append_nil]

/-- The first name of a family has no digits, and all others have different ones. -/
theorem index_eq_of_digits_eq {f g : Family} {i j : Nat}
    (h : (numbered f i).digits = (numbered g j).digits) : i = j := by
  match i, j with
  -- Only the first name of a family is without digits.
  | 0, 0 => rfl
  | 0, j + 1 => exact absurd h.symm Nat.toDigits_ne_nil
  | i + 1, 0 => exact absurd h Nat.toDigits_ne_nil
  | i + 1, j + 1 =>
    calc i + 1 = Nat.ofDigitChars 10 (Nat.toDigits 10 (i + 1)) 0 :=
          Nat.ofDigitChars_ten_toDigits.symm
      _ = Nat.ofDigitChars 10 (Nat.toDigits 10 (j + 1)) 0 := congrArg (Nat.ofDigitChars 10 · 0) h
      _ = j + 1 := Nat.ofDigitChars_ten_toDigits

/-- A numbered name has other letters than a name that is not numbered. -/
theorem base_ne_letters (f : Family) {n : Name} (hn : ∀ g k, n ≠ numbered g k) :
    f.base ≠ n.letters := by
  cases n with
  | numbered g k => exact absurd rfl (hn g k)
  | space s => cases f <;> cases s <;> decide
  | patternAlpha | context => cases f <;> decide

/-- Letters and digits determine a name. -/
theorem eq_of_letters_eq_of_digits_eq {m n : Name} (hl : m.letters = n.letters)
    (hd : m.digits = n.digits) : m = n := by
  cases m with
  | numbered f i =>
    cases n with
    | numbered g j => rw [Family.base_injective hl, index_eq_of_digits_eq hd]
    | space _ | patternAlpha | context => exact absurd hl (base_ne_letters f nofun)
  | space s =>
    cases n with
    | numbered g j => exact absurd hl.symm (base_ne_letters g nofun)
    | space t => rw [ColorSpace.name_injective hl]
    | patternAlpha | context => cases s <;> exact absurd hl (by decide)
  | patternAlpha =>
    cases n with
    | numbered g j => exact absurd hl.symm (base_ne_letters g nofun)
    | space t => cases t <;> exact absurd hl (by decide)
    | patternAlpha => rfl
    | context => exact absurd hl (by decide)
  | context =>
    cases n with
    | numbered g j => exact absurd hl.symm (base_ne_letters g nofun)
    | space t => cases t <;> exact absurd hl (by decide)
    | patternAlpha => exact absurd hl (by decide)
    | context => rfl

/-- Different names have different texts: letters give the family and digits the index. -/
theorem text_injective : Function.Injective Name.text := by
  intro m n h
  have hl : m.letters.toList = n.letters.toList := by
    rw [← takeWhile_text, ← takeWhile_text, h]
  refine eq_of_letters_eq_of_digits_eq (String.toList_inj.1 hl) ?_
  have ht : m.letters.toList ++ m.digits = n.letters.toList ++ n.digits := by
    rw [← toList_text, ← toList_text, h]
  rwa [hl, List.append_cancel_left_eq] at ht

end Name

end SceneCode.Swift
