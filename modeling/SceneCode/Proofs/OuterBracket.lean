import Mathlib.Data.Nat.SuccPred
import Mathlib.Logic.Function.Iterate
import SceneCode.Proofs.Simplify

/-!
# The outer bracket

A stream may stand in a saved state as a whole, and that in another one, and so on
(`WrappedTimes`). Each time that the outer bracket is removed, one of these saved states goes, and
when there is none left, nothing more. In a balanced stream the first command is closed by the last
one exactly if what stands between them is balanced, so brackets side by side are never taken for
one around both (`Balanced.dropOuterBracket_eq_self_iff`).

* `iterate_apply_outerBracket`: what is removed by the simplification, used once or any number of
  times.
-/

namespace SceneCode

variable {R : Resources} {Mask Pattern : Type} {s t : List (Command R Mask Pattern)}

/-- The stream is a balanced stream in so many saved states, one directly inside the other. -/
def WrappedTimes (count : Nat) (s : List (Command R Mask Pattern)) : Prop :=
  ∃ inside, Balanced inside ∧ s = (bracketed .state)^[count] inside

/-! ## Brackets around streams -/

theorem length_bracketed (b : Bracket) (s : List (Command R Mask Pattern)) :
    (bracketed b s).length = s.length + 2 := by
  simp [bracketed]

theorem bracketed_ne_self (b : Bracket) (s : List (Command R Mask Pattern)) :
    bracketed b s ≠ s := by
  intro h
  have hlength := congrArg List.length h
  rw [length_bracketed] at hlength
  omega

theorem length_iterate_bracketed (b : Bracket) (count : Nat) (s : List (Command R Mask Pattern)) :
    ((bracketed b)^[count] s).length = s.length + 2 * count := by
  induction count with
  | zero => rfl
  | succ count ih =>
    rw [Function.iterate_succ_apply', length_bracketed, ih]
    omega

theorem Balanced.iterate_bracketed (h : Balanced s) (b : Bracket) (count : Nat) :
    Balanced ((bracketed b)^[count] s) := by
  induction count with
  | zero => exact h
  | succ count ih =>
    rw [Function.iterate_succ_apply']
    exact ih.wrap

/-! ## Removing the outer bracket -/

theorem Balanced.dropOuterBracket_eq_self_iff (h : Balanced s) :
    SceneCode.dropOuterBracket s = s ↔
      ¬∃ inside, Balanced inside ∧ s = bracketed .state inside := by
  constructor
  · rintro hs ⟨inside, hinside, rfl⟩
    rw [hinside.dropOuterBracket_bracketed] at hs
    exact bracketed_ne_self .state inside hs.symm
  · intro hs
    obtain heq | ⟨inside, heq, hinside, _⟩ := h.dropOuterBracket_cases
    · exact heq
    · exact absurd ⟨inside, hinside, heq⟩ hs

/-- Brackets are removed from the outside, as long as there are any. -/
theorem iterate_dropOuterBracket_iterate_bracketed (h : Balanced t)
    (ht : dropOuterBracket t = t) (k count : Nat) :
    dropOuterBracket^[k] ((bracketed .state)^[count] t) = (bracketed .state)^[count - k] t := by
  induction k generalizing count with
  | zero => rfl
  | succ k ih =>
    rw [Function.iterate_succ_apply]
    cases count with
    | zero =>
      -- Nothing is left that could be removed.
      rw [Function.iterate_zero_apply, ht, Function.iterate_fixed ht, Nat.zero_sub]
      rfl
    | succ count =>
      rw [Function.iterate_succ_apply',
        (h.iterate_bracketed .state count).dropOuterBracket_bracketed, ih, Nat.add_sub_add_right]

/-- There are only so many saved states around a stream, since each takes two commands. -/
theorem Balanced.exists_isGreatest_wrappedTimes (h : Balanced s) :
    ∃ count, IsGreatest {n | WrappedTimes n s} count := by
  refine BddAbove.exists_isGreatest_of_nonempty ⟨s.length, ?_⟩ ⟨0, s, h, rfl⟩
  rintro count ⟨inside, _, rfl⟩
  rw [length_iterate_bracketed]
  omega

/-- Inside of all saved states around a stream, there is none. -/
theorem dropOuterBracket_eq_self_of_isGreatest {count : Nat}
    (hcount : IsGreatest {n | WrappedTimes n ((bracketed .state)^[count] t)} count)
    (ht : Balanced t) : dropOuterBracket t = t := by
  rw [ht.dropOuterBracket_eq_self_iff]
  rintro ⟨inside, hinside, rfl⟩
  have hle : count + 1 ≤ count :=
    hcount.2 ⟨inside, hinside, (Function.iterate_succ_apply _ count inside).symm⟩
  omega

/-- From a balanced stream something is removed exactly if it is a saved state around a balanced
    stream, and then that stream is left. If there are so many saved states around it, one directly
    inside the other, then so many of them are removed at most, one each time that the
    simplification is used. From any stream, nothing is removed but a saved state in front together
    with a command at the end that closes a bracket. -/
theorem iterate_apply_outerBracket (commands : List (Command R Mask Pattern)) :
    let apply : List (Command R Mask Pattern) → List (Command R Mask Pattern) :=
      (⟨false, true⟩ : Simplifications).apply
    (Balanced commands →
      (apply commands ≠ commands ↔
        ∃ inside, Balanced inside ∧ commands = bracketed .state inside) ∧
      (∀ inside, Balanced inside → commands = bracketed .state inside →
        apply commands = inside) ∧
      ∃ count, IsGreatest {n | WrappedTimes n commands} count ∧ ∀ k,
        commands = (bracketed .state)^[min k count] (apply^[k] commands) ∧
          (apply^[k] commands).length + 2 * min k count = commands.length) ∧
      (apply commands = commands ∨ ∃ inside closing,
        commands = .push .state :: (inside ++ [.pop closing]) ∧ apply commands = inside) := by
  intro apply
  have happly : apply = dropOuterBracket := rfl
  rw [happly]
  refine ⟨fun h => ⟨?_, ?_, ?_⟩, dropOuterBracket_eq_or_exists commands⟩
  · rw [Ne, h.dropOuterBracket_eq_self_iff, not_not]
  · rintro inside hinside rfl
    exact hinside.dropOuterBracket_bracketed
  · obtain ⟨count, hcount⟩ := h.exists_isGreatest_wrappedTimes
    obtain ⟨t, ht, rfl⟩ := hcount.1
    have hinnermost := dropOuterBracket_eq_self_of_isGreatest hcount ht
    refine ⟨count, hcount, fun k => ?_⟩
    have hsplit : min k count + (count - k) = count := by omega
    rw [iterate_dropOuterBracket_iterate_bracketed ht hinnermost, ← Function.iterate_add_apply,
      hsplit, length_iterate_bracketed, length_iterate_bracketed]
    refine ⟨rfl, ?_⟩
    omega

/-- Of the two saved states around an outline, the simplification removes the outer one. -/
theorem iterate_apply_outerBracket_outline :
    let apply : Drawing .scene → Drawing .scene := (⟨false, true⟩ : Simplifications).apply
    let outline : Drawing .scene := [.mark (.stroke (Shape.lines []))]
    let commands : Drawing .scene := bracketed .state (bracketed .state outline)
    Balanced commands ∧ Balanced (bracketed .state outline) ∧
      apply commands ≠ commands ∧ apply commands = bracketed .state outline ∧
      ∃ count, IsGreatest {n | WrappedTimes n commands} count ∧
        ∀ k, commands = (bracketed .state)^[min k count] (apply^[k] commands) := by
  intro apply outline commands
  have inside : Balanced (bracketed .state outline) := (Balanced.other rfl rfl .nil).wrap
  obtain ⟨hchanges, hleft, count, hcount, hremoved⟩ :=
    (iterate_apply_outerBracket commands).1 inside.wrap
  exact ⟨inside.wrap, inside, hchanges.2 ⟨_, inside, rfl⟩, hleft _ inside rfl, count, hcount,
    fun k => (hremoved k).1⟩

end SceneCode
