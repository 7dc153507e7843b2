import Mathlib.Data.List.Basic
import SceneCode.Text.TypeName

/-!
# The characters of type names

The name for a title is made of its words (`words`), each with its first character in upper case
(`typeNameChars_eq`). All characters of the words are alphanumeric, but the upper case of some
letters is another letter with marks after it, and some marks are not alphanumeric. There are 26
such letters (`markedLetters`), and eight such marks (`marks`).

The tables of characters are too long to compare them character by character. So sets of characters
are made into numbers, one bit for each character (`mask`), and compared as numbers: the first
characters of the upper cases (`uppercaseHeads`) are alphanumeric, and none of them has another
upper case itself.

* `typeName_eq_self_iff`: a name has alphanumeric characters only, and is its own name, exactly if
  no word of the title starts with one of the 26 letters; all other characters are marks.
-/

namespace SceneCode

/-- The letters whose upper case has marks that are not alphanumeric. -/
def markedLetters : List Nat := [
  0x1F0, 0x390, 0x3B0, 0x1E96, 0x1E97, 0x1E98, 0x1E99, 0x1F50, 0x1F52, 0x1F54, 0x1F56, 0x1FB6,
  0x1FB7, 0x1FC6, 0x1FC7, 0x1FD2, 0x1FD3, 0x1FD6, 0x1FD7, 0x1FE2, 0x1FE3, 0x1FE4, 0x1FE6, 0x1FE7,
  0x1FF6, 0x1FF7]

/-- The marks that are not alphanumeric in the upper case of some letter. -/
def marks : List Nat := [0x300, 0x301, 0x308, 0x30A, 0x30C, 0x313, 0x331, 0x342]

/-! ## Sets of characters as numbers -/

/-- The number with a bit for each of the characters. -/
def mask (codes : List Nat) : Nat := codes.foldr (fun code rest => 1 <<< code ||| rest) 0

/-- The number with a bit for each character of the ranges. -/
def rangeMask (ranges : List (Nat × Nat)) : Nat :=
  ranges.foldr (fun range rest => (1 <<< (range.2 + 1 - range.1) - 1) <<< range.1 ||| rest) 0

/-- A set of characters is a number with one bit for each of them. -/
theorem testBit_mask {codes : List Nat} {code : Nat} :
    (mask codes).testBit code = true ↔ code ∈ codes := by
  induction codes with
  | nil => simp [mask]
  | cons first rest ih =>
    rw [mask, List.foldr_cons, Nat.testBit_or, Nat.one_shiftLeft, Nat.testBit_two_pow, ← mask,
      Bool.or_eq_true, ih, decide_eq_true_eq, List.mem_cons, eq_comm]

/-- Ranges of characters are sets of characters too. -/
theorem testBit_rangeMask {ranges : List (Nat × Nat)} {code : Nat} :
    (rangeMask ranges).testBit code = true ↔
      ∃ range ∈ ranges, range.1 ≤ code ∧ code ≤ range.2 := by
  induction ranges with
  | nil => simp [rangeMask]
  | cons range rest ih =>
    have hrange : range.1 ≤ code ∧ code - range.1 < range.2 + 1 - range.1 ↔
        range.1 ≤ code ∧ code ≤ range.2 := by omega
    rw [rangeMask, List.foldr_cons, Nat.testBit_or, Nat.testBit_shiftLeft, Nat.one_shiftLeft,
      Nat.testBit_two_pow_sub_one, ← rangeMask, Bool.or_eq_true, ih, Bool.and_eq_true,
      decide_eq_true_eq, decide_eq_true_eq, ge_iff_le, hrange, List.exists_mem_cons_iff]

/-- A set is part of another one if nothing is lost in the bitwise and. -/
theorem testBit_of_and_eq {a b code : Nat} (h : a &&& b = a) (ha : a.testBit code = true) :
    b.testBit code = true := by
  rw [← h, Nat.testBit_and, Bool.and_eq_true] at ha
  exact ha.2

/-- Sets are disjoint if nothing is left in the bitwise and. -/
theorem not_testBit_of_and_eq_zero {a b code : Nat} (h : a &&& b = 0)
    (ha : a.testBit code = true) : b.testBit code = false := by
  have hand : (a &&& b).testBit code = false := by rw [h, Nat.zero_testBit]
  rwa [Nat.testBit_and, ha, Bool.true_and] at hand

/-! ## The tables -/

/-- The characters of a range, in order. -/
def CaseRange.codes (r : CaseRange) : List Nat :=
  (List.range ((r.last - r.first) / r.step + 1)).map fun k => r.first + k * r.step

/-- The characters that are not their own upper case. -/
def uppercaseDomain : List Nat :=
  uppercaseSpecials.map Prod.fst ++ uppercaseRanges.flatMap CaseRange.codes

/-- The first characters of their upper cases. -/
def uppercaseHeads : List Nat :=
  uppercaseSpecials.map (fun entry => entry.2.headD 0) ++
    uppercaseRanges.flatMap fun r => r.codes.map fun code : Nat => (code + r.shift).toNat

theorem CaseRange.mem_codes {r : CaseRange} {code : Nat} (h : r.holds code = true) :
    code ∈ r.codes := by
  simp only [holds, Bool.and_eq_true, decide_eq_true_eq, beq_iff_eq] at h
  obtain ⟨⟨hfirst, hlast⟩, hstep⟩ := h
  have hdvd : (code - r.first) / r.step * r.step = code - r.first :=
    Nat.div_mul_cancel (Nat.dvd_of_mod_eq_zero hstep)
  have hle : (code - r.first) / r.step ≤ (r.last - r.first) / r.step :=
    Nat.div_le_div_right (by omega)
  refine List.mem_map.2 ⟨(code - r.first) / r.step, List.mem_range.2 (by omega), ?_⟩
  omega

theorem isAlphanumeric_iff {c : Char} :
    isAlphanumeric c = true ↔ (rangeMask alphanumericRanges).testBit c.toNat = true := by
  simp [isAlphanumeric, testBit_rangeMask]

theorem toNat_ofNat {code : Nat} (h : code.isValidChar) : (Char.ofNat code).toNat = code := by
  rw [Char.ofNat, dif_pos h]
  rfl

/-- What is found by going through the tables once, where sets of characters are compared as
    numbers. -/
structure TablesFit : Prop where
  isValidChar_ranges : ∀ range ∈ alphanumericRanges,
    range.2 < 0xD800 ∨ 0xDFFF < range.1 ∧ range.2 < 0x110000
  isValidChar_marks : ∀ code ∈ marks, code.isValidChar
  heads_alphanumeric :
    mask uppercaseHeads &&& rangeMask alphanumericRanges = mask uppercaseHeads
  heads_uppercase : mask uppercaseHeads &&& mask uppercaseDomain = 0
  /-- In an upper case of several characters, all are alphanumeric but the marks. -/
  specials_alphanumeric :
    let codes := (uppercaseSpecials.flatMap Prod.snd).filter (· ∉ marks)
    mask codes &&& rangeMask alphanumericRanges = mask codes
  marks_not_alphanumeric : mask marks &&& rangeMask alphanumericRanges = 0
  mem_markedLetters_iff : ∀ entry ∈ uppercaseSpecials,
    (entry.1 ∈ markedLetters ↔ ∃ code ∈ entry.2, code ∈ marks)
  lookup_markedLetters : ∀ code ∈ markedLetters, uppercaseSpecials.lookup code ≠ none
  specials_ne_nil : ∀ entry ∈ uppercaseSpecials, entry.2 ≠ []

/-- All conditions are checked at once on the numbers that the tables are. -/
theorem tablesFit : TablesFit := by
  constructor <;> decide +kernel

/-! ## The upper case of one character -/

theorem mem_of_lookup_uppercaseSpecials {code : Nat} {codes : List Nat}
    (h : uppercaseSpecials.lookup code = some codes) : (code, codes) ∈ uppercaseSpecials := by
  obtain ⟨before, after, heq, -⟩ := List.lookup_eq_some_iff.1 h
  rw [heq]
  exact List.mem_append_right _ List.mem_cons_self

theorem isAlphanumeric_ofNat {code : Nat}
    (h : (rangeMask alphanumericRanges).testBit code = true) :
    isAlphanumeric (Char.ofNat code) = true ∧ (Char.ofNat code).toNat = code := by
  obtain ⟨range, hmem, hfirst, hlast⟩ := testBit_rangeMask.1 h
  have hvalid : code.isValidChar := by
    have := tablesFit.isValidChar_ranges range hmem
    simp only [Nat.isValidChar]
    omega
  have heq := toNat_ofNat hvalid
  exact ⟨isAlphanumeric_iff.2 (by rwa [heq]), heq⟩

/-- Marks are neither letters nor digits. -/
theorem not_isAlphanumeric_of_mem_marks {c : Char} (h : c.toNat ∈ marks) :
    isAlphanumeric c = false := by
  rw [Bool.eq_false_iff, ne_eq, isAlphanumeric_iff,
    not_testBit_of_and_eq_zero tablesFit.marks_not_alphanumeric (testBit_mask.2 h)]
  exact Bool.false_ne_true

/-- What no table mentions is its own upper case. -/
theorem uppercase_eq_self {c : Char} (h : c.toNat ∉ uppercaseDomain) : uppercase c = [c] := by
  simp only [uppercaseDomain, List.mem_append, List.mem_map, List.mem_flatMap, not_or, not_exists,
    not_and] at h
  have hlookup : uppercaseSpecials.lookup c.toNat = none :=
    List.lookup_eq_none_iff.2 fun entry hentry => bne_iff_ne.2 fun heq => h.1 entry hentry heq.symm
  have hfind : uppercaseRanges.find? (·.holds c.toNat) = none :=
    List.find?_eq_none.2 fun r hr hholds => h.2 r hr (CaseRange.mem_codes hholds)
  rw [uppercase, hlookup, hfind]

/-- A first character of an upper case is alphanumeric, and its own upper case. -/
theorem isAlphanumeric_head {code : Nat} (h : code ∈ uppercaseHeads) :
    isAlphanumeric (Char.ofNat code) = true ∧ uppercase (Char.ofNat code) = [Char.ofNat code] := by
  obtain ⟨halphanumeric, htoNat⟩ :=
    isAlphanumeric_ofNat (testBit_of_and_eq tablesFit.heads_alphanumeric (testBit_mask.2 h))
  refine ⟨halphanumeric, uppercase_eq_self fun hdomain => ?_⟩
  have hnot := not_testBit_of_and_eq_zero tablesFit.heads_uppercase (testBit_mask.2 h)
  rw [← htoNat, testBit_mask.2 hdomain] at hnot
  exact Bool.noConfusion hnot

/-- A further character of an upper case is alphanumeric, unless it is a mark. -/
theorem isAlphanumeric_special {letter code : Nat} {codes : List Nat}
    (hentry : (letter, codes) ∈ uppercaseSpecials) (hcode : code ∈ codes) :
    if code ∈ marks then (Char.ofNat code).toNat ∈ marks ∧ isAlphanumeric (Char.ofNat code) = false
    else isAlphanumeric (Char.ofNat code) = true := by
  split
  · next hmark =>
    have htoNat := toNat_ofNat (tablesFit.isValidChar_marks code hmark)
    rw [htoNat]
    exact ⟨hmark, not_isAlphanumeric_of_mem_marks (by rwa [htoNat])⟩
  · next hmark =>
    refine (isAlphanumeric_ofNat
      (testBit_of_and_eq tablesFit.specials_alphanumeric (testBit_mask.2 ?_))).1
    exact List.mem_filter.2 ⟨List.mem_flatMap.2 ⟨_, hentry, hcode⟩, decide_eq_true hmark⟩

/-- What the upper case of an alphanumeric character `c` is: an alphanumeric character that is its
own upper case, and others after it, which are alphanumeric or marks. -/
structure Capital (c first : Char) (rest : List Char) : Prop where
  eq : uppercase c = first :: rest
  first_alphanumeric : isAlphanumeric first = true
  first_uppercase : uppercase first = [first]
  rest_marks : ∀ d ∈ rest, isAlphanumeric d = true ∨ d.toNat ∈ marks
  rest_alphanumeric : (∀ d ∈ rest, isAlphanumeric d = true) ↔ c.toNat ∉ markedLetters

theorem capital_of_lookup {c : Char} {codes : List Nat}
    (h : uppercaseSpecials.lookup c.toNat = some codes) : ∃ first rest, Capital c first rest := by
  have hentry := mem_of_lookup_uppercaseSpecials h
  obtain ⟨head, tail, rfl⟩ := List.exists_cons_of_ne_nil (tablesFit.specials_ne_nil _ hentry)
  have hhead := isAlphanumeric_head (List.mem_append_left _ (List.mem_map_of_mem hentry))
  have hspecial (code : Nat) (hcode : code ∈ head :: tail) :=
    isAlphanumeric_special hentry hcode
  have hmarked := tablesFit.mem_markedLetters_iff _ hentry
  refine ⟨Char.ofNat head, tail.map Char.ofNat, by rw [uppercase, h]; rfl, hhead.1, hhead.2,
    fun d hd => ?_, ?_⟩
  · obtain ⟨code, hcode, rfl⟩ := List.mem_map.1 hd
    have heither := hspecial code (List.mem_cons_of_mem _ hcode)
    split at heither
    · exact .inr heither.1
    · exact .inl heither
  · rw [hmarked, not_exists, List.forall_mem_map]
    constructor
    · rintro hall code ⟨hcode, hmark⟩
      have hdropped := hspecial code hcode
      rw [if_pos hmark] at hdropped
      obtain rfl | hcode := List.mem_cons.1 hcode
      · exact Bool.noConfusion (hdropped.2.symm.trans hhead.1)
      · exact Bool.noConfusion (hdropped.2.symm.trans (hall code hcode))
    · intro hnone code hcode
      have hcode := List.mem_cons_of_mem head hcode
      have hkept := hspecial code hcode
      rwa [if_neg fun hmark => hnone code ⟨hcode, hmark⟩] at hkept

/-- Every letter and every digit has an upper case that starts with a letter or a digit. -/
theorem exists_capital {c : Char} (h : isAlphanumeric c = true) :
    ∃ first rest, Capital c first rest := by
  cases hcodes : uppercaseSpecials.lookup c.toNat with
  | some codes => exact capital_of_lookup hcodes
  | none =>
    have hmarked : c.toNat ∉ markedLetters :=
      fun hmem => tablesFit.lookup_markedLetters _ hmem hcodes
    cases hrange : uppercaseRanges.find? (·.holds c.toNat) with
    | some r =>
      have hholds : r.holds c.toNat = true := by simpa using List.find?_some hrange
      have hhead := isAlphanumeric_head (List.mem_append_right _ (List.mem_flatMap.2
        ⟨r, List.mem_of_find?_eq_some hrange, List.mem_map_of_mem (CaseRange.mem_codes hholds)⟩))
      exact ⟨_, [], by rw [uppercase, hcodes, hrange], hhead.1, hhead.2, by simp,
        by simpa using hmarked⟩
    | none =>
      have heq : uppercase c = [c] := by rw [uppercase, hcodes, hrange]
      exact ⟨c, [], heq, h, heq, by simp, by simpa using hmarked⟩

/-! ## Names by words -/

/-- The words of a text. -/
def words (text : List Char) : List (List Char) := text.splitOnP (!isAlphanumeric ·)

/-- A word with its first character in upper case. -/
def capitalized : List Char → List Char
  | [] => []
  | first :: rest => uppercase first ++ rest

/-- A letter or digit continues the word after it, and anything else ends a word. -/
theorem words_cons (c : Char) (rest : List Char) : words (c :: rest) =
    if isAlphanumeric c then (words rest).modifyHead (List.cons c) else [] :: words rest := by
  rw [words, List.splitOnP_cons_eq_if_modifyHead]
  cases isAlphanumeric c <;> rfl

theorem words_ne_nil (text : List Char) : words text ≠ [] := List.splitOnP_ne_nil _ _

theorem isAlphanumeric_of_mem_words {text word : List Char} {c : Char} (hword : word ∈ words text)
    (hc : c ∈ word) : isAlphanumeric c = true := by
  induction text generalizing word with
  | nil =>
    rw [words, List.splitOnP_nil, List.mem_singleton] at hword
    rw [hword] at hc
    cases hc
  | cons d rest ih =>
    rw [words_cons] at hword
    obtain ⟨first, others, heq⟩ := List.exists_cons_of_ne_nil (words_ne_nil rest)
    rw [heq] at hword ih
    split at hword
    · next halphanumeric =>
      rw [List.modifyHead_cons] at hword
      obtain rfl | hword := List.mem_cons.1 hword
      · obtain rfl | hc := List.mem_cons.1 hc
        · exact halphanumeric
        · exact ih List.mem_cons_self hc
      · exact ih (List.mem_cons_of_mem _ hword) hc
    · obtain rfl | hword := List.mem_cons.1 hword
      · cases hc
      · exact ih hword hc

/-- A name is its words, capitalised; the first one is left as it is where `wordStart` is unset. -/
theorem typeNameChars_eq (wordStart : Bool) (text : List Char) :
    ∃ first rest, words text = first :: rest ∧ typeNameChars wordStart text =
      (if wordStart then capitalized first else first) ++ rest.flatMap capitalized := by
  induction text generalizing wordStart with
  | nil => exact ⟨[], [], rfl, by cases wordStart <;> rfl⟩
  | cons c text ih =>
    rw [words_cons]
    cases halphanumeric : isAlphanumeric c with
    | true =>
      obtain ⟨first, rest, heq, hchars⟩ := ih false
      refine ⟨c :: first, rest, by rw [heq]; rfl, ?_⟩
      rw [typeNameChars, if_pos halphanumeric, hchars]
      cases wordStart <;> simp [capitalized]
    | false =>
      obtain ⟨first, rest, heq, hchars⟩ := ih true
      refine ⟨[], words text, rfl, ?_⟩
      rw [typeNameChars, halphanumeric, if_neg Bool.false_ne_true, hchars, heq]
      cases wordStart <;> rfl

/-- A title becomes a name word by word. -/
theorem toList_typeName (title : String) :
    (typeName title).toList = (words title.toList).flatMap capitalized := by
  obtain ⟨first, rest, heq, hchars⟩ := typeNameChars_eq true title.toList
  rw [typeName, String.toList_ofList, hchars, heq]
  rfl

/-! ## Clean names -/

/-- Only the upper case of the first letter can bring marks into a word. -/
theorem capitalized_alphanumeric_iff {word : List Char}
    (h : ∀ c ∈ word, isAlphanumeric c = true) :
    (∀ d ∈ capitalized word, isAlphanumeric d = true) ↔
      ∀ c ∈ word.head?, c.toNat ∉ markedLetters := by
  cases word with
  | nil => simp [capitalized]
  | cons c rest =>
    obtain ⟨first, further, hcapital⟩ := exists_capital (h c List.mem_cons_self)
    rw [capitalized, hcapital.eq, List.forall_mem_append, List.forall_mem_cons,
      hcapital.rest_alphanumeric]
    simpa [hcapital.first_alphanumeric] using
      fun _ d hd => h d (List.mem_cons_of_mem _ hd)

/-- All that is in a capitalized word is a letter, a digit or a mark. -/
theorem mem_marks_of_mem_capitalized {word : List Char} {d : Char}
    (h : ∀ c ∈ word, isAlphanumeric c = true) (hd : d ∈ capitalized word) :
    isAlphanumeric d = true ∨ d.toNat ∈ marks := by
  cases word with
  | nil => cases hd
  | cons c rest =>
    obtain ⟨first, further, hcapital⟩ := exists_capital (h c List.mem_cons_self)
    rw [capitalized, hcapital.eq, List.cons_append, List.mem_cons, List.mem_append] at hd
    obtain rfl | hd | hd := hd
    · exact .inl hcapital.first_alphanumeric
    · exact hcapital.rest_marks d hd
    · exact .inl (h d (List.mem_cons_of_mem _ hd))

/-- All that is in a name is a letter, a digit or a mark. -/
theorem mem_typeName {title : String} {d : Char} (h : d ∈ (typeName title).toList) :
    isAlphanumeric d = true ∨ d.toNat ∈ marks := by
  rw [toList_typeName, List.mem_flatMap] at h
  obtain ⟨word, hword, hd⟩ := h
  exact mem_marks_of_mem_capitalized (fun c => isAlphanumeric_of_mem_words hword) hd

/-- A name starts with an alphanumeric character that is its own upper case. -/
theorem typeNameChars_head {text rest : List Char} {d : Char}
    (h : typeNameChars true text = d :: rest) : isAlphanumeric d = true ∧ uppercase d = [d] := by
  induction text with
  | nil => cases h
  | cons c text ih =>
    rw [typeNameChars] at h
    split at h
    · next halphanumeric =>
      obtain ⟨first, further, hcapital⟩ := exists_capital halphanumeric
      rw [if_pos rfl, hcapital.eq] at h
      cases h
      exact ⟨hcapital.first_alphanumeric, hcapital.first_uppercase⟩
    · exact ih h

/-- Inside a word, exactly the texts without other characters are left as they are. A text after
another character starts anew, with a character that is not that one. -/
theorem typeNameChars_eq_self_iff {text : List Char} :
    typeNameChars false text = text ↔ ∀ d ∈ text, isAlphanumeric d = true := by
  induction text with
  | nil => simp [typeNameChars]
  | cons c text ih =>
    rw [typeNameChars, List.forall_mem_cons, ← ih]
    split
    · next halphanumeric => simp [halphanumeric]
    · next halphanumeric =>
      exact iff_of_false (fun h => halphanumeric (typeNameChars_head h).1)
        fun h => halphanumeric h.1

/-- A name is its own name exactly if no mark has come into it. -/
theorem typeName_eq_self_iff_alphanumeric {title : String} :
    typeName (typeName title) = typeName title ↔
      ∀ d ∈ (typeName title).toList, isAlphanumeric d = true := by
  rw [← String.toList_inj, typeName, String.toList_ofList, typeName, String.toList_ofList]
  cases hchars : typeNameChars true title.toList with
  | nil => simp [typeNameChars]
  | cons d rest =>
    obtain ⟨halphanumeric, hupper⟩ := typeNameChars_head hchars
    rw [typeNameChars, if_pos halphanumeric, if_pos rfl, hupper, List.singleton_append,
      List.cons_inj_right, typeNameChars_eq_self_iff, List.forall_mem_cons,
      and_iff_right halphanumeric]

/-- The name for a title has alphanumeric characters only exactly if no word of the title starts
with a letter whose upper case has marks, and exactly then it is its own name. The marks are the
only other characters a name can have. -/
theorem typeName_eq_self_iff (title : String) :
    let name := typeName title
    let unmarked := ∀ word ∈ words title.toList, ∀ c ∈ word.head?, c.toNat ∉ markedLetters
    ((∀ d ∈ name.toList, isAlphanumeric d = true) ↔ unmarked) ∧
      (typeName name = name ↔ unmarked) ∧
      ∀ d ∈ name.toList, isAlphanumeric d = true ∨ d.toNat ∈ marks := by
  have hunmarked : (∀ d ∈ (typeName title).toList, isAlphanumeric d = true) ↔
      ∀ word ∈ words title.toList, ∀ c ∈ word.head?, c.toNat ∉ markedLetters := by
    rw [toList_typeName, List.forall_mem_flatMap]
    exact forall₂_congr fun word hword =>
      capitalized_alphanumeric_iff fun c => isAlphanumeric_of_mem_words hword
  exact ⟨hunmarked, typeName_eq_self_iff_alphanumeric.trans hunmarked, fun d => mem_typeName⟩

/-- The upper case of `ǰ` is a `J` and a mark, which the name keeps and the name of the name
drops. -/
theorem typeName_marked :
    (typeName "ǰ").toList = ['J', '\u030C'] ∧ isAlphanumeric '\u030C' = false ∧
      typeName (typeName "ǰ") = "J" ∧
      ¬ (∀ title, (∀ d ∈ (typeName title).toList, isAlphanumeric d = true) ∧
        typeName (typeName title) = typeName title) := by
  have hchars : (typeName "ǰ").toList = ['J', '\u030C'] := by decide +kernel
  have hmark : isAlphanumeric '\u030C' = false := by decide +kernel
  refine ⟨hchars, hmark, by decide +kernel, fun h => ?_⟩
  have halphanumeric := (h "ǰ").1 '\u030C' (by rw [hchars]; simp)
  exact Bool.noConfusion (hmark.symm.trans halphanumeric)

end SceneCode
