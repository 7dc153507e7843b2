import SceneCode.Command.Lowering
import SceneCode.Proofs.Balance

/-!
# The fault that the check reports

Some commands leave brackets open (`openAfter`), unless one of them closes a bracket that is not
open, or not of its kind. What may come after them depends on the open brackets only
(`closes_append_iff`). So as long as there is no such command, the stream so far can still be
completed to a balanced one, by closing the open brackets and in no shorter way; and after such a
command it cannot (`completable_iff`).

The check keeps the open brackets. It stops at the first command of that kind, which is thereby the
first one that takes the stream out of all balanced streams (`FirstFault`), and it tells by the
open brackets what is wrong: a command that closes a bracket when none is open stands after a
balanced stream.

* `checkBalance_spec`: which streams the check accepts, and which fault it reports for the others.
-/

namespace SceneCode

variable {R : Resources} {Mask Pattern : Type} {s t : List (Command R Mask Pattern)}
  {opened left : List Bracket} {index : Nat}

/-- Further commands make the stream balanced. -/
def Completable (s : List (Command R Mask Pattern)) : Prop := ∃ rest, Balanced (s ++ rest)

/-- The command at the index is the first one with which the stream cannot be completed. -/
def FirstFault (s : List (Command R Mask Pattern)) (index : Nat) : Prop :=
  Completable (s.take index) ∧ ¬Completable (s.take (index + 1))

/-- What can be completed can be completed from every prefix. -/
theorem Completable.of_isPrefix (h : Completable t) (hst : s <+: t) : Completable s := by
  obtain ⟨middle, rfl⟩ := hst
  obtain ⟨rest, hrest⟩ := h
  exact ⟨middle ++ rest, by rwa [← List.append_assoc]⟩

/-- There is at most one first fault, since what comes before it can be completed. -/
theorem FirstFault.eq {i j : Nat} (hi : FirstFault s i) (hj : FirstFault s j) : i = j := by
  have hle {i j : Nat} (hi : FirstFault s i) (hj : FirstFault s j) : ¬i < j := fun hlt =>
    hi.2 (hj.1.of_isPrefix (List.take_prefix_take_left hlt))
  have := hle hi hj
  have := hle hj hi
  omega

theorem Completable.not_firstFault (h : Completable s) : ¬FirstFault s index :=
  fun hfault => hfault.2 (h.of_isPrefix (List.take_prefix _ _))

/-! ## Open brackets -/

/-- The brackets that are open after some commands, given those that are open before them, unless a
    command closes a bracket that it cannot close. -/
def openAfter : List Bracket → List (Command R Mask Pattern) → Option (List Bracket)
  | opened, [] => some opened
  | opened, .push bracket :: rest => openAfter (bracket :: opened) rest
  | [], .pop _ :: _ => none
  | innermost :: opened, .pop bracket :: rest =>
    if bracket = innermost then openAfter opened rest else none
  | opened, _ :: rest => openAfter opened rest

/-- What may follow some commands is what closes the brackets that they leave open. -/
theorem closes_append_iff :
    Closes opened (s ++ t) ↔ ∃ left, openAfter opened s = some left ∧ Closes left t := by
  induction s generalizing opened with
  | nil => simp [openAfter]
  | cons c s ih =>
    rw [List.cons_append]
    cases c with
    | push b => rw [closes_push_iff, ih, openAfter]
    | pop b =>
      cases opened with
      | nil => simp [openAfter]
      | cons a opened =>
        rw [closes_pop_cons_iff, openAfter, ih]
        by_cases hb : b = a
        · simp [hb]
        · simp [hb]
    | transform step | set setting | mark mark =>
      rw [closes_other_iff rfl rfl, ih]
      cases opened <;> rfl

/-- The commands that close some brackets, the innermost first. -/
def closing (opened : List Bracket) : List (Command R Mask Pattern) := opened.map .pop

/-- The pops of the open brackets, the innermost first, close all of them. -/
theorem closes_closing (opened : List Bracket) :
    Closes opened (closing opened : List (Command R Mask Pattern)) := by
  induction opened with
  | nil => exact .nil
  | cons b opened ih => exact .pop ih

/-- Every open bracket takes a command of its own. -/
theorem Closes.length_le (h : Closes opened s) : opened.length ≤ s.length := by
  induction h with
  | nil => exact Nat.le_refl _
  | push _ ih =>
    simp only [List.length_cons] at ih ⊢
    omega
  | pop _ ih => exact Nat.succ_le_succ ih
  | other _ _ _ ih => exact Nat.le_succ_of_le ih

/-- A stream is balanced if what is left open by its start is closed by its end. -/
theorem balanced_append_iff :
    Balanced (s ++ t) ↔ ∃ left, openAfter [] s = some left ∧ Closes left t :=
  closes_nil_iff.symm.trans closes_append_iff

theorem balanced_iff : Balanced s ↔ openAfter [] s = some [] := by
  rw [← List.append_nil s, balanced_append_iff, List.append_nil]
  constructor
  · rintro ⟨left, h, hleft⟩
    cases hleft
    exact h
  · exact fun h => ⟨[], h, .nil⟩

/-- A stream can be completed exactly if every pop in it has found its push. -/
theorem completable_iff : Completable s ↔ ∃ left, openAfter [] s = some left := by
  constructor
  · rintro ⟨rest, h⟩
    obtain ⟨left, hleft, _⟩ := balanced_append_iff.1 h
    exact ⟨left, hleft⟩
  · rintro ⟨left, h⟩
    exact ⟨closing left, balanced_append_iff.2 ⟨left, h, closes_closing left⟩⟩

/-! ## The check -/

/-- The check goes on with the brackets that some commands leave open. -/
theorem checkBalanceFrom_append (h : openAfter opened s = some left) :
    checkBalanceFrom index opened (s ++ t) = checkBalanceFrom (index + s.length) left t := by
  induction s generalizing index opened with
  | nil =>
    obtain rfl : opened = left := Option.some.inj h
    rfl
  | cons c s ih =>
    have hlength : index + (c :: s).length = index + 1 + s.length := by
      rw [List.length_cons]
      omega
    rw [hlength]
    cases c with
    | push b =>
      rw [List.cons_append, checkBalanceFrom]
      exact ih h
    | pop b =>
      cases opened with
      | nil => simp [openAfter] at h
      | cons a opened =>
        rw [openAfter] at h
        by_cases hb : b = a
        · rw [List.cons_append, checkBalanceFrom, if_pos hb]
          exact ih (by simpa [hb] using h)
        · simp [hb] at h
    | transform step | set setting | mark mark =>
      have hs : openAfter opened s = some left := by
        cases opened <;> exact h
      rw [← ih hs]
      cases opened <;> rfl

/-- Where the open brackets cannot be told, a command closes a bracket that it cannot close. -/
theorem exists_pop_of_openAfter_eq_none (h : openAfter opened s = none) :
    ∃ before b after left, s = before ++ .pop b :: after ∧
      openAfter opened before = some left ∧ left.head? ≠ some b := by
  induction s generalizing opened with
  | nil => cases h
  | cons c s ih =>
    have hlater (opened' : List Bracket) (hs : openAfter opened' s = none)
        (hc : ∀ rest, openAfter opened (c :: rest) = openAfter opened' rest) :
        ∃ before b after left, c :: s = before ++ .pop b :: after ∧
          openAfter opened before = some left ∧ left.head? ≠ some b := by
      obtain ⟨before, b, after, left, rfl, hleft, hb⟩ := ih hs
      exact ⟨c :: before, b, after, left, rfl, (hc before).trans hleft, hb⟩
    cases c with
    | push b => exact hlater (b :: opened) h fun _ => rfl
    | pop b =>
      cases opened with
      | nil => exact ⟨[], b, s, [], rfl, rfl, nofun⟩
      | cons a opened =>
        by_cases hb : b = a
        · refine hlater opened (by simpa [openAfter, hb] using h) fun rest => ?_
          simp [openAfter, hb]
        · exact ⟨[], b, s, a :: opened, rfl, rfl, by simpa using Ne.symm hb⟩
    | transform step | set setting | mark mark =>
      refine hlater opened ?_ fun rest => ?_
      · cases opened <;> exact h
      · cases opened <;> rfl

/-- If every pop has found its push, the check counts what is left open. -/
theorem checkBalance_of_openAfter (h : openAfter [] s = some left) :
    checkBalance s = if left = [] then .ok () else .error (.unclosed left.length) := by
  have happend : checkBalanceFrom 0 [] (s ++ []) = checkBalanceFrom (0 + s.length) left [] :=
    checkBalanceFrom_append h
  rw [List.append_nil] at happend
  rw [checkBalance, happend]
  cases left <;> rfl

/-- The first pop that does not find its push decides what the check reports. -/
theorem checkBalance_of_pop {b : Bracket} (h : openAfter [] s = some left)
    (hb : left.head? ≠ some b) :
    checkBalance (s ++ .pop b :: t) =
      .error (if left = [] then .unmatchedPop s.length else .mismatchedPop s.length) := by
  rw [checkBalance, checkBalanceFrom_append h, Nat.zero_add]
  cases left with
  | nil => rfl
  | cons a left =>
    rw [checkBalanceFrom, if_neg fun hba => hb (by rw [hba]; rfl)]
    rfl

theorem firstFault_of_pop {b : Bracket} (h : openAfter [] s = some left)
    (hb : left.head? ≠ some b) : FirstFault (s ++ .pop b :: t) s.length := by
  have hbefore : (s ++ .pop b :: t).take s.length = s := List.take_left
  have hpop : (s ++ .pop b :: t).take (s.length + 1) = s ++ [.pop b] := by
    rw [List.take_length_add_append]
    rfl
  rw [FirstFault, hbefore, hpop]
  refine ⟨completable_iff.2 ⟨left, h⟩, ?_⟩
  rintro ⟨rest, hrest⟩
  -- What is open before the command would have to be closed by it.
  rw [List.append_assoc, balanced_append_iff] at hrest
  obtain ⟨left', hleft', hcloses⟩ := hrest
  obtain rfl : left = left' := Option.some.inj (h.symm.trans hleft')
  cases left with
  | nil => exact not_closes_nil_pop hcloses
  | cons a left => exact hb (congrArg some (closes_pop_cons_iff.1 hcloses).1.symm)

/-- There is only one first fault. -/
theorem firstFault_pop_iff {b : Bracket} {index : Nat} (h : openAfter [] s = some left)
    (hb : left.head? ≠ some b) : FirstFault (s ++ .pop b :: t) index ↔ s.length = index :=
  ⟨(firstFault_of_pop h hb).eq, fun heq => heq ▸ firstFault_of_pop h hb⟩

/-- Nothing shorter than what closes the open brackets completes the stream. -/
theorem completes_least (h : openAfter [] s = some left) :
    (∃ rest, rest.length = left.length ∧ Balanced (s ++ rest)) ∧
      ∀ rest, Balanced (s ++ rest) → left.length ≤ rest.length := by
  refine ⟨⟨closing left, List.length_map _, ?_⟩, fun rest hrest => ?_⟩
  · exact balanced_append_iff.2 ⟨left, h, closes_closing left⟩
  · obtain ⟨left', hleft', hcloses⟩ := balanced_append_iff.1 hrest
    obtain rfl : left = left' := Option.some.inj (h.symm.trans hleft')
    exact hcloses.length_le

/-- The check accepts the balanced streams. Otherwise it reports the first command with which the
    stream cannot be completed to a balanced one: as unmatched if the commands before it are
    balanced, and else as mismatched. If there is no such command, it reports the number of
    commands that the stream lacks at least. -/
theorem checkBalance_spec (commands : List (Command R Mask Pattern)) :
    (checkBalance commands = .ok () ↔ Balanced commands) ∧
      (∀ index, (checkBalance commands = .error (.unmatchedPop index) ∨
        checkBalance commands = .error (.mismatchedPop index)) ↔ FirstFault commands index) ∧
      (∀ index, checkBalance commands = .error (.unmatchedPop index) ↔
        FirstFault commands index ∧ Balanced (commands.take index)) ∧
      ((∃ count, checkBalance commands = .error (.unclosed count)) ↔
        ¬Balanced commands ∧ Completable commands) ∧
      (∀ count, checkBalance commands = .error (.unclosed count) →
        (∃ rest, rest.length = count ∧ Balanced (commands ++ rest)) ∧
          ∀ rest, Balanced (commands ++ rest) → count ≤ rest.length) := by
  refine ⟨checkBalance_eq_ok_iff, ?_⟩
  cases h : openAfter [] commands with
  | some left =>
    -- The stream can be completed, so none of its commands is a fault.
    have hcompletable : Completable commands := completable_iff.2 ⟨left, h⟩
    have hfault (index : Nat) : ¬FirstFault commands index := hcompletable.not_firstFault
    have hbalanced : Balanced commands ↔ left = [] := by simp [balanced_iff, h]
    rw [checkBalance_of_openAfter h]
    refine ⟨fun index => ?_, fun index => ?_, ?_, fun count hcount => ?_⟩
    · split <;> simp [hfault]
    · split <;> simp [hfault]
    · by_cases hleft : left = []
      · simp [hleft, hbalanced]
      · simp [hleft, hbalanced, hcompletable]
    · obtain rfl : left.length = count := by
        by_cases hleft : left = []
        · simp [hleft] at hcount
        · simpa [hleft] using hcount
      exact completes_least h
  | none =>
    obtain ⟨before, b, after, left, rfl, hleft, hb⟩ := exists_pop_of_openAfter_eq_none h
    have hcompletable : ¬Completable (before ++ .pop b :: after) := by simp [completable_iff, h]
    rw [checkBalance_of_pop hleft hb]
    refine ⟨fun index => ?_, fun index => ?_, ?_, fun count hcount => ?_⟩
    · rw [firstFault_pop_iff hleft hb]
      split <;> simp
    · have hbefore : before.length = index →
          (Balanced ((before ++ .pop b :: after).take index) ↔ left = []) := by
        rintro rfl
        rw [List.take_left]
        simp [balanced_iff, hleft]
      rw [firstFault_pop_iff hleft hb, and_congr_right hbefore]
      by_cases hl : left = [] <;> simp [hl]
    · split <;> simp [hcompletable]
    · split at hcount <;> simp at hcount

/-- A bracket that is closed again is the beginning of a longer balanced stream; but it is balanced
    itself, so the check accepts it. -/
theorem checkBalance_closed_bracket :
    ¬((∃ count, checkBalance (bracketed .state [] : Drawing .scene) = .error (.unclosed count)) ↔
      ∃ rest : Drawing .scene, rest ≠ [] ∧ Balanced (bracketed .state [] ++ rest)) := by
  intro h
  have hbalanced : Balanced (bracketed .state [] : Drawing .scene) := Balanced.nil.wrap
  obtain ⟨count, hcount⟩ := h.2
    ⟨bracketed .state [], by simp [bracketed], hbalanced.append hbalanced⟩
  rw [checkBalance_eq_ok_iff.2 hbalanced] at hcount
  cases hcount

end SceneCode
