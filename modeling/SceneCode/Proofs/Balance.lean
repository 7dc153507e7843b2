import SceneCode.Command.Balance

/-!
# The grammar of balanced streams

A stream is balanced (`Balanced`) if it can be derived from

    S ::= nothing | command S | push b S pop b S

where `command` stands for any command that is no bracket, and `b` for either kind of bracket.

The check goes through a stream once and keeps the brackets that are open. What it accepts in the
middle of a stream are the commands that close those brackets (`Closes`), that is, a balanced
stream for each of them, the command that closes it, and a balanced stream at the end
(`Segmented`). So it accepts exactly the balanced streams (`checkBalance_eq_ok_iff`).
-/

namespace SceneCode

variable {R : Resources} {Mask Pattern : Type}

/-- The balanced streams. -/
inductive Balanced : List (Command R Mask Pattern) → Prop
  | nil : Balanced []
  | other {c : Command R Mask Pattern} {rest : List (Command R Mask Pattern)} :
      c.opens? = none → c.closes? = none → Balanced rest → Balanced (c :: rest)
  | bracket {b : Bracket} {inside rest : List (Command R Mask Pattern)} :
      Balanced inside → Balanced rest → Balanced (.push b :: (inside ++ .pop b :: rest))

/-- The commands close the open brackets, the innermost first, and all that they open
    themselves. -/
inductive Closes : List Bracket → List (Command R Mask Pattern) → Prop
  | nil : Closes [] []
  | push {b : Bracket} {opened : List Bracket} {rest : List (Command R Mask Pattern)} :
      Closes (b :: opened) rest → Closes opened (.push b :: rest)
  | pop {b : Bracket} {opened : List Bracket} {rest : List (Command R Mask Pattern)} :
      Closes opened rest → Closes (b :: opened) (.pop b :: rest)
  | other {c : Command R Mask Pattern} {opened : List Bracket}
      {rest : List (Command R Mask Pattern)} :
      c.opens? = none → c.closes? = none → Closes opened rest → Closes opened (c :: rest)

/-- One balanced stream for each open bracket, before the command that closes it, and a balanced
    stream at the end. -/
def Segmented : List Bracket → List (Command R Mask Pattern) → Prop
  | [], s => Balanced s
  | b :: opened, s => ∃ t rest, s = t ++ .pop b :: rest ∧ Balanced t ∧ Segmented opened rest

variable {c : Command R Mask Pattern} {s t : List (Command R Mask Pattern)}
  {opened : List Bracket} {b : Bracket}

/-! ## Balanced streams -/

/-- Balanced streams may be put together. -/
theorem Balanced.append (hs : Balanced s) (ht : Balanced t) : Balanced (s ++ t) := by
  induction hs with
  | nil => exact ht
  | other ho hc _ ih => exact .other ho hc ih
  | bracket h _ _ ih =>
    rw [List.cons_append, List.append_assoc, List.cons_append]
    exact .bracket h ih

/-- A bracket around a balanced stream. -/
theorem Balanced.wrap (h : Balanced s) : Balanced (.push b :: (s ++ [.pop b])) :=
  .bracket h .nil

/-- The bracket that a balanced stream stands in ends with the first command that cannot be part of
    the stream. So there is only one such stream. -/
theorem Balanced.append_pop_inj {a : Bracket} {u v : List (Command R Mask Pattern)}
    (hs : Balanced s) (ht : Balanced t) (h : s ++ .pop a :: u = t ++ .pop b :: v) :
    s = t ∧ a = b ∧ u = v := by
  induction hs generalizing t a b u v with
  | nil =>
    cases ht with
    | nil => simpa using h
    | other _ hc => cases (List.cons.inj h).1; cases hc
    | bracket => cases (List.cons.inj h).1
  | other ho hc _ ih =>
    cases ht with
    | nil => cases (List.cons.inj h).1; cases hc
    | other _ _ ht =>
      obtain ⟨rfl, htail⟩ := List.cons.inj h
      obtain ⟨rfl, hend⟩ := ih ht htail
      exact ⟨rfl, hend⟩
    | bracket => cases (List.cons.inj h).1; cases ho
  | bracket _ _ ihInside ihRest =>
    cases ht with
    | nil => cases (List.cons.inj h).1
    | other ho => cases (List.cons.inj h).1; cases ho
    | bracket hinside hrest =>
      simp only [List.cons_append, List.append_assoc] at h
      -- First the brackets around the insides end, then those around the streams.
      obtain ⟨rfl, rfl, htail⟩ := ihInside hinside (List.cons.inj h).2
      obtain ⟨rfl, hend⟩ := ihRest hrest htail
      exact ⟨rfl, hend⟩

/-! ## Closing what is open -/

@[simp]
theorem closes_push_iff : Closes opened (.push b :: s) ↔ Closes (b :: opened) s := by
  refine ⟨fun h => ?_, .push⟩
  cases h with
  | push h => exact h
  | other ho => exact absurd ho (by simp [Command.opens?])

/-- A pop has to close the bracket that was opened last. -/
@[simp]
theorem closes_pop_cons_iff {a : Bracket} :
    Closes (a :: opened) (.pop b :: s) ↔ b = a ∧ Closes opened s := by
  refine ⟨fun h => ?_, fun ⟨hb, h⟩ => hb ▸ .pop h⟩
  cases h with
  | pop h => exact ⟨rfl, h⟩
  | other _ hc => exact absurd hc (by simp [Command.closes?])

@[simp]
theorem not_closes_nil_pop : ¬Closes [] (.pop b :: s) := by
  intro h
  cases h with
  | other _ hc => exact absurd hc (by simp [Command.closes?])

theorem closes_other_iff (ho : c.opens? = none) (hc : c.closes? = none) :
    Closes opened (c :: s) ↔ Closes opened s := by
  refine ⟨fun h => ?_, .other ho hc⟩
  cases h with
  | push h => exact absurd ho (by simp [Command.opens?])
  | pop h => exact absurd hc (by simp [Command.closes?])
  | other _ _ h => exact h

/-- A balanced stream leaves the open brackets to what comes after it. -/
theorem Balanced.closes_append (hs : Balanced s) (ht : Closes opened t) :
    Closes opened (s ++ t) := by
  induction hs generalizing t opened with
  | nil => exact ht
  | other ho hc _ ih => exact .other ho hc (ih ht)
  | bracket _ _ inside rest =>
    rw [List.cons_append, List.append_assoc, List.cons_append]
    exact .push (inside (.pop (rest ht)))

/-- A balanced stream may come before anything. -/
theorem Segmented.prepend (hs : Balanced s) (ht : Segmented opened t) :
    Segmented opened (s ++ t) := by
  cases opened with
  | nil => exact hs.append ht
  | cons b opened =>
    obtain ⟨u, rest, rfl, hu, hrest⟩ := ht
    exact ⟨s ++ u, rest, (List.append_assoc _ _ _).symm, hs.append hu, hrest⟩

/-- What closes the brackets that are open is balanced between their pops. -/
theorem Closes.segmented (h : Closes opened s) : Segmented opened s := by
  induction h with
  | nil => exact .nil
  | @push b opened _ _ ih =>
    -- The bracket that is opened here is the innermost one of what follows: with the first
    -- segment inside, it extends the second.
    obtain ⟨t, rest, rfl, ht, hrest⟩ := ih
    have h := hrest.prepend (ht.wrap (b := b))
    rwa [List.cons_append, List.append_assoc, List.singleton_append] at h
  | pop _ ih => exact ⟨[], _, rfl, .nil, ih⟩
  | other ho hc _ ih => exact ih.prepend (.other ho hc .nil)

theorem closes_iff_segmented : Closes opened s ↔ Segmented opened s := by
  refine ⟨Closes.segmented, fun h => ?_⟩
  induction opened generalizing s with
  | nil => simpa using Balanced.closes_append h .nil
  | cons b opened ih =>
    obtain ⟨t, rest, rfl, ht, hrest⟩ := h
    exact ht.closes_append (.pop (ih hrest))

/-- Where no bracket is open, to close is to be balanced. -/
theorem closes_nil_iff : Closes [] s ↔ Balanced s := closes_iff_segmented

/-- From anywhere in a stream, the rest of it closes some brackets. -/
theorem Closes.of_append (h : Closes opened (s ++ t)) : ∃ opened', Closes opened' t := by
  induction s generalizing opened with
  | nil => exact ⟨opened, h⟩
  | cons c s ih =>
    cases h with
    | push h => exact ih h
    | pop h => exact ih h
    | other _ _ h => exact ih h

/-- A bracket that is opened in a balanced stream is closed in it. -/
theorem Balanced.exists_bracketed (h : Balanced (s ++ .push b :: t)) :
    ∃ inside rest, t = inside ++ .pop b :: rest ∧ Balanced inside := by
  obtain ⟨opened, hrest⟩ := (closes_nil_iff.2 h).of_append
  obtain ⟨inside, rest, rfl, hinside, _⟩ := (closes_push_iff.1 hrest).segmented
  exact ⟨inside, rest, rfl, hinside⟩

/-! ## The check -/

/-- The check accepts what closes the open brackets, whatever index it starts at. -/
theorem checkBalanceFrom_eq_ok_iff {index : Nat} :
    checkBalanceFrom index opened s = .ok () ↔ Closes opened s := by
  induction s generalizing index opened with
  | nil =>
    cases opened with
    | nil => exact ⟨fun _ => .nil, fun _ => rfl⟩
    | cons b opened => exact ⟨fun h => by simp [checkBalanceFrom] at h, fun h => by cases h⟩
  | cons c s ih =>
    cases c with
    | push b => rw [checkBalanceFrom, ih, closes_push_iff]
    | pop b =>
      cases opened with
      | nil => simp [checkBalanceFrom]
      | cons a opened =>
        rw [checkBalanceFrom, closes_pop_cons_iff]
        by_cases hb : b = a
        · simp [ih, hb]
        · simp [hb]
    | transform step | set setting | mark mark =>
      rw [closes_other_iff rfl rfl, ← @ih opened (index + 1)]
      cases opened <;> rfl

/-- The check accepts exactly the balanced streams. -/
theorem checkBalance_eq_ok_iff : checkBalance s = .ok () ↔ Balanced s :=
  checkBalanceFrom_eq_ok_iff.trans closes_nil_iff

end SceneCode
