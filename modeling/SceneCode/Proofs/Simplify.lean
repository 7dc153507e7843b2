import SceneCode.Command.Lowering
import SceneCode.Command.Simplify
import SceneCode.Proofs.Replay

/-!
# Simplifying keeps the drawing

A bracket with nothing inside can be removed from anywhere in a stream: opening and closing it
leaves the machine as it is, whatever is on its stack. So removing the empty brackets changes no
replay, of no stream (`run_dropEmptyBrackets`). If the stream is balanced it stays so, because in
it the two commands are of one kind.

The outer bracket is removed only where the last command closes the first. Then a balanced stream
is left between the two (`dropOuterBracket_cases`), which draws the same on its own, but whose
last state is no longer undone.

* `checkBalance_apply_and_replay_apply`: simplifying a balanced stream leads to a balanced stream
  with the same events, and if the outer bracket is kept, also to the same state.
-/

namespace SceneCode

section Streams

variable {R : Resources} {Mask Pattern : Type} {l : Layering R Mask Pattern}
  {s : List (Command R Mask Pattern)}

/-! ## Empty brackets -/

/-- The only case in which a command is dropped. -/
theorem consDropping_cases (c : Command R Mask Pattern) (s : List (Command R Mask Pattern)) :
    consDropping c s = c :: s ∨
      ∃ a b rest, c = .push a ∧ s = .pop b :: rest ∧ consDropping c s = rest := by
  cases s with
  | nil => exact .inl rfl
  | cons d rest =>
    by_cases h : c.isPush && d.isPop
    · cases c <;> cases d <;> simp [Command.isPush, Command.isPop, Command.opens?,
        Command.closes?] at h
      exact .inr ⟨_, _, _, rfl, rfl, rfl⟩
    · exact .inl (by rw [consDropping, if_neg h])

/-- Where empty layers are not kept, an empty bracket in front does nothing. -/
theorem run_consDropping (hl : ∀ t, l.keepsEmpty t = false) (r : Replay R Mask Pattern)
    (c : Command R Mask Pattern) :
    r.run l (consDropping c s) = r.run l (c :: s) := by
  obtain h | ⟨a, b, rest, rfl, rfl, h⟩ := consDropping_cases c s
  · rw [h]
  · rw [h, Replay.run_cons, Replay.run_cons, r.step_push_pop hl]

/-- Removing the empty brackets changes no replay. -/
theorem run_dropEmptyBrackets (hl : ∀ t, l.keepsEmpty t = false) (r : Replay R Mask Pattern) :
    r.run l (dropEmptyBrackets s) = r.run l s := by
  induction s generalizing r with
  | nil => rfl
  | cons c s ih =>
    calc r.run l (dropEmptyBrackets (c :: s))
        = r.run l (c :: dropEmptyBrackets s) := run_consDropping hl r c
      _ = (r.step l c).run l (dropEmptyBrackets s) := rfl
      _ = r.run l (c :: s) := ih (r.step l c)

/-- An empty bracket in front opens nothing that it does not close. -/
theorem Closes.consDropping {opened : List Bracket} {c : Command R Mask Pattern}
    (h : Closes opened (c :: s)) : Closes opened (consDropping c s) := by
  obtain h' | ⟨a, b, rest, rfl, rfl, h'⟩ := consDropping_cases c s
  · rwa [h']
  · rw [closes_push_iff, closes_pop_cons_iff] at h
    rw [h']
    exact h.2

theorem Closes.dropEmptyBrackets {opened : List Bracket} (h : Closes opened s) :
    Closes opened (dropEmptyBrackets s) := by
  induction h with
  | nil => exact .nil
  | push _ ih => exact ih.push.consDropping
  | pop _ ih => exact ih.pop.consDropping
  | other ho hc _ ih => exact (ih.other ho hc).consDropping

/-- Dropping empty brackets keeps a stream balanced. -/
theorem Balanced.dropEmptyBrackets (h : Balanced s) : Balanced (dropEmptyBrackets s) :=
  closes_nil_iff.1 (closes_nil_iff.2 h).dropEmptyBrackets

theorem consDropping_of_opens?_eq_none {c : Command R Mask Pattern} (h : c.opens? = none)
    (s : List (Command R Mask Pattern)) : consDropping c s = c :: s := by
  obtain h' | ⟨a, _, _, rfl, _, _⟩ := consDropping_cases c s
  · exact h'
  · cases h

/-- Commands that open no bracket stay where they are. -/
theorem dropEmptyBrackets_append_of_opens?_eq_none (h : ∀ c ∈ s, c.opens? = none)
    (t : List (Command R Mask Pattern)) :
    dropEmptyBrackets (s ++ t) = s ++ dropEmptyBrackets t := by
  induction s with
  | nil => rfl
  | cons c rest ih =>
    obtain ⟨hc, hrest⟩ := List.forall_mem_cons.1 h
    calc dropEmptyBrackets (c :: rest ++ t)
        = consDropping c (dropEmptyBrackets (rest ++ t)) := rfl
      _ = c :: (rest ++ dropEmptyBrackets t) := by
          rw [ih hrest, consDropping_of_opens?_eq_none hc]

theorem dropEmptyBrackets_of_opens?_eq_none (h : ∀ c ∈ s, c.opens? = none) :
    dropEmptyBrackets s = s := by
  have happend := dropEmptyBrackets_append_of_opens?_eq_none h []
  rw [List.append_nil] at happend
  exact happend.trans (List.append_nil s)

/-- A bracket around a balanced stream is dropped exactly if the stream is empty. -/
theorem Balanced.consDropping_push (h : Balanced s) (opening closing : Bracket)
    (t : List (Command R Mask Pattern)) :
    SceneCode.consDropping (.push opening) (s ++ .pop closing :: t) =
      if s.isEmpty then t else .push opening :: (s ++ .pop closing :: t) := by
  cases h with
  | nil => rfl
  | @other c rest ho hc _ =>
    rw [List.cons_append, SceneCode.consDropping, Command.isPop, hc]
    rfl
  | bracket => rfl

/-- A bracket goes if nothing is left inside it, provided that what is left inside does not depend
    on what comes after it. -/
theorem Balanced.dropEmptyBrackets_bracket (h : Balanced s)
    (hlocal : ∀ t, SceneCode.dropEmptyBrackets (s ++ t) =
      SceneCode.dropEmptyBrackets s ++ SceneCode.dropEmptyBrackets t)
    (b : Bracket) (t : List (Command R Mask Pattern)) :
    SceneCode.dropEmptyBrackets (.push b :: (s ++ .pop b :: t)) =
      if (SceneCode.dropEmptyBrackets s).isEmpty then SceneCode.dropEmptyBrackets t
      else .push b :: (SceneCode.dropEmptyBrackets s ++
        .pop b :: SceneCode.dropEmptyBrackets t) := by
  have hpop : SceneCode.dropEmptyBrackets (.pop b :: t) = .pop b :: SceneCode.dropEmptyBrackets t :=
    consDropping_of_opens?_eq_none (c := .pop b) rfl _
  rw [← h.dropEmptyBrackets.consDropping_push, ← hpop, ← hlocal]
  rfl

/-- Which brackets of a balanced stream are removed does not depend on what comes after it. -/
theorem Balanced.dropEmptyBrackets_append (h : Balanced s) (t : List (Command R Mask Pattern)) :
    SceneCode.dropEmptyBrackets (s ++ t) =
      SceneCode.dropEmptyBrackets s ++ SceneCode.dropEmptyBrackets t := by
  induction h generalizing t with
  | nil => rfl
  | @other c rest ho _ _ ih =>
    calc SceneCode.dropEmptyBrackets (c :: rest ++ t)
        = SceneCode.consDropping c (SceneCode.dropEmptyBrackets (rest ++ t)) := rfl
      _ = c :: (SceneCode.dropEmptyBrackets rest ++ SceneCode.dropEmptyBrackets t) := by
          rw [ih, consDropping_of_opens?_eq_none ho]
      _ = SceneCode.dropEmptyBrackets (c :: rest) ++ SceneCode.dropEmptyBrackets t := by
          rw [← List.cons_append, ← consDropping_of_opens?_eq_none ho]
          rfl
  | @bracket b inside rest hinside _ ihInside ihRest =>
    rw [List.cons_append, List.append_assoc, List.cons_append,
      hinside.dropEmptyBrackets_bracket ihInside, hinside.dropEmptyBrackets_bracket ihInside,
      ihRest]
    split
    · rfl
    · rw [List.cons_append, List.append_assoc, List.cons_append]

/-- A bracket around a balanced stream stays unless nothing is left inside. -/
theorem Balanced.dropEmptyBrackets_bracketed (h : Balanced s) (b : Bracket) :
    SceneCode.dropEmptyBrackets (bracketed b s) =
      if (SceneCode.dropEmptyBrackets s).isEmpty then []
      else bracketed b (SceneCode.dropEmptyBrackets s) :=
  h.dropEmptyBrackets_bracket h.dropEmptyBrackets_append b []

/-! ## The outer bracket -/

/-- The outer bracket is closed by the last command, or not at the end. -/
theorem closesAtEnd_pop (depth : Nat) (b : Bracket) (s : List (Command R Mask Pattern)) :
    closesAtEnd depth (.pop b :: s) =
      if depth ≤ 1 then s.isEmpty else closesAtEnd (depth - 1) s :=
  rfl

/-- If the outermost of the open brackets is closed by the last command, the commands before it
    close the others. -/
theorem Closes.of_closesAtEnd {opened : List Bracket} {a : Bracket}
    (hs : Closes (opened ++ [a]) s) (h : closesAtEnd (opened.length + 1) s = true) :
    ∃ t, s = t ++ [.pop a] ∧ Closes opened t := by
  induction s generalizing opened with
  | nil => simp [closesAtEnd] at h
  | cons c s ih =>
    cases c with
    | push b =>
      -- One more bracket is open, inside the others.
      obtain ⟨t, rfl, ht⟩ := @ih (b :: opened) (closes_push_iff.1 hs) h
      exact ⟨.push b :: t, rfl, .push ht⟩
    | pop b =>
      cases opened with
      | nil =>
        -- The outermost bracket itself is closed, so this has to be the last command.
        obtain ⟨rfl, _⟩ := closes_pop_cons_iff.1 hs
        rw [closesAtEnd_pop, if_pos (by simp), List.isEmpty_iff] at h
        exact ⟨[], by rw [h]; rfl, .nil⟩
      | cons o opened =>
        obtain ⟨rfl, hrest⟩ := closes_pop_cons_iff.1 hs
        rw [closesAtEnd_pop, if_neg (by simp)] at h
        obtain ⟨t, rfl, ht⟩ := ih hrest h
        exact ⟨.pop b :: t, rfl, .pop ht⟩
    | transform step | set setting | mark mark =>
      obtain ⟨t, rfl, ht⟩ := ih ((closes_other_iff rfl rfl).1 hs) h
      exact ⟨_ :: t, rfl, ht.other rfl rfl⟩

/-- A balanced stream closes none of the brackets that are open before it. -/
theorem Balanced.closesAtEnd_append (h : Balanced s) (depth : Nat)
    (t : List (Command R Mask Pattern)) :
    closesAtEnd (depth + 1) (s ++ t) = closesAtEnd (depth + 1) t := by
  induction h generalizing depth t with
  | nil => rfl
  | @other c _ ho hc _ ih =>
    rw [List.cons_append, closesAtEnd, Command.isPush, Command.isPop, ho, hc]
    exact ih depth t
  | @bracket b inside rest _ _ ihInside ihRest =>
    rw [List.cons_append, List.append_assoc, List.cons_append]
    calc closesAtEnd (depth + 1) (.push b :: (inside ++ .pop b :: (rest ++ t)))
        = closesAtEnd (depth + 2) (inside ++ .pop b :: (rest ++ t)) := rfl
      _ = closesAtEnd (depth + 2) (.pop b :: (rest ++ t)) := ihInside (depth + 1) _
      _ = closesAtEnd (depth + 1) (rest ++ t) := rfl
      _ = closesAtEnd (depth + 1) t := ihRest depth t

/-- A saved state around a balanced stream is removed. -/
theorem Balanced.dropOuterBracket_bracketed (h : Balanced s) :
    SceneCode.dropOuterBracket (bracketed .state s) = s := by
  have hend : closesAtEnd 1 (s ++ [.pop .state]) = true := h.closesAtEnd_append 0 _
  rw [bracketed, SceneCode.dropOuterBracket, if_pos hend, List.dropLast_concat]

/-- Either nothing is removed, or a saved state around a balanced stream. -/
theorem Balanced.dropOuterBracket_cases (h : Balanced s) :
    dropOuterBracket s = s ∨
      ∃ t, s = bracketed .state t ∧ Balanced t ∧ dropOuterBracket s = t := by
  rw [← closes_nil_iff] at h
  cases h with
  | nil => exact .inl rfl
  | @push b _ rest h =>
    cases b with
    | layer => exact .inl rfl
    | state =>
      rw [dropOuterBracket]
      by_cases hend : closesAtEnd 1 rest = true
      · -- The bracket of the first command is the only one that is open, hence the outermost.
        have h : Closes ([] ++ [Bracket.state]) rest := h
        obtain ⟨t, rfl, ht⟩ := h.of_closesAtEnd hend
        refine .inr ⟨t, rfl, closes_nil_iff.1 ht, ?_⟩
        rw [if_pos hend, List.dropLast_concat]
      · exact .inl (if_neg hend)
  | @other c _ rest ho hc h =>
    cases c with
    | push b => cases ho
    | _ => exact .inl rfl

/-- Dropping the outer bracket keeps a stream balanced. -/
theorem Balanced.dropOuterBracket (h : Balanced s) : Balanced (dropOuterBracket s) := by
  obtain hs | ⟨t, _, ht, hs⟩ := h.dropOuterBracket_cases
  · rwa [hs]
  · rwa [hs]

/-- A saved state around a balanced stream changes none of its events. -/
theorem Balanced.events_dropOuterBracket (h : Balanced s) (state : DrawingState R Mask Pattern) :
    (replay l state (SceneCode.dropOuterBracket s)).events = (replay l state s).events := by
  obtain hs | ⟨t, rfl, ht, hs⟩ := h.dropOuterBracket_cases
  · rw [hs]
  · rw [hs, ht.replay_bracketed]
    rfl

/-! ## Simplifications -/

/-- What is left to the second simplification is balanced and replays as the stream does. -/
theorem Balanced.exists_apply_eq (h : Balanced s) (use : Simplifications)
    (hl : ∀ t, l.keepsEmpty t = false) :
    ∃ dropped, Balanced dropped ∧ (∀ state, replay l state dropped = replay l state s) ∧
      use.apply s = if use.outerBracket then SceneCode.dropOuterBracket dropped else dropped := by
  by_cases he : use.emptyBrackets = true
  · refine ⟨SceneCode.dropEmptyBrackets s, h.dropEmptyBrackets, fun state => ?_, ?_⟩
    · exact run_dropEmptyBrackets hl _
    · rw [Simplifications.apply, if_pos he]
  · refine ⟨s, h, fun _ => rfl, ?_⟩
    rw [Simplifications.apply, if_neg he]

/-- Simplifying a balanced stream leads to a balanced stream, which draws the same from every
    state; and it leads to the same state, unless the outer bracket is removed. -/
theorem checkBalance_apply_and_replay_apply (alpha : R.Scalar) (blendMode : R.BlendMode)
    (use : Simplifications) (commands : List (Command R Mask Pattern))
    (h : checkBalance commands = .ok ()) (state : DrawingState R Mask Pattern) :
    checkBalance (use.apply commands) = .ok () ∧
      (replay (.paintedOnly alpha blendMode) state (use.apply commands)).events =
        (replay (.paintedOnly alpha blendMode) state commands).events ∧
      (use.outerBracket = false →
        (replay (.paintedOnly alpha blendMode) state (use.apply commands)).state =
          (replay (.paintedOnly alpha blendMode) state commands).state) := by
  rw [checkBalance_eq_ok_iff] at h ⊢
  have hl : ∀ t, (.paintedOnly alpha blendMode : Layering R Mask Pattern).keepsEmpty t = false :=
    fun _ => rfl
  obtain ⟨dropped, hb, hr, happly⟩ := h.exists_apply_eq use hl
  rw [← hr state, happly]
  by_cases ho : use.outerBracket = true
  · rw [if_pos ho]
    refine ⟨hb.dropOuterBracket, hb.events_dropOuterBracket state, fun hn => ?_⟩
    exact absurd ho (by simp [hn])
  · rw [if_neg ho]
    exact ⟨hb, rfl, fun _ => rfl⟩

/-! ## The commands that are left -/

/-- The second list is the first one without some of its items, all of which have the property. -/
inductive Omits {α : Type} (P : α → Prop) : List α → List α → Prop
  | nil : Omits P [] []
  | keep (a : α) {first second : List α} : Omits P first second → Omits P (a :: first) (a :: second)
  | drop {a : α} {first second : List α} : P a → Omits P first second → Omits P (a :: first) second

namespace Omits

variable {α : Type} {P : α → Prop} {first second third : List α}

theorem refl (first : List α) : Omits P first first := by
  induction first with
  | nil => exact .nil
  | cons a _ ih => exact ih.keep a

/-- What is omitted in two steps is omitted. -/
theorem trans (h : Omits P first second) (h' : Omits P second third) : Omits P first third := by
  induction h generalizing third with
  | nil => exact h'
  | keep a _ ih =>
    cases h' with
    | keep _ h' => exact (ih h').keep a
    | drop ha h' => exact (ih h').drop ha
  | drop ha _ ih => exact (ih h').drop ha

/-- The last item is omitted. -/
theorem concat {a : α} (ha : P a) (first : List α) : Omits P (first ++ [a]) first := by
  induction first with
  | nil => exact .drop ha .nil
  | cons b _ ih => exact ih.keep b

theorem sublist (h : Omits P first second) : second.Sublist first := by
  induction h with
  | nil => exact .slnil
  | keep a _ ih => exact ih.cons_cons a
  | drop _ _ ih => exact ih.cons _

/-- If nothing is left, all has been omitted. -/
theorem forall_of_nil (h : Omits P first []) : ∀ a ∈ first, P a := by
  induction first with
  | nil => exact List.forall_mem_nil P
  | cons a first ih =>
    cases h with
    | drop ha h => exact List.forall_mem_cons.2 ⟨ha, ih h⟩

end Omits

/-- The command opens or closes a bracket. -/
def Command.IsBracket (c : Command R Mask Pattern) : Prop := ∃ b, c = .push b ∨ c = .pop b

theorem omits_consDropping (c : Command R Mask Pattern) (s : List (Command R Mask Pattern)) :
    Omits Command.IsBracket (c :: s) (consDropping c s) := by
  obtain h | ⟨a, b, rest, rfl, rfl, h⟩ := consDropping_cases c s
  · exact h ▸ .refl _
  · rw [h]
    exact .drop ⟨a, .inl rfl⟩ (.drop ⟨b, .inr rfl⟩ (.refl rest))

/-- Only brackets are dropped. -/
theorem omits_dropEmptyBrackets (s : List (Command R Mask Pattern)) :
    Omits Command.IsBracket s (dropEmptyBrackets s) := by
  induction s with
  | nil => exact .nil
  | cons c s ih => exact (ih.keep c).trans (omits_consDropping c _)

/-- Nothing is left of a balanced stream if there is nothing but brackets in it. -/
theorem Balanced.dropEmptyBrackets_eq_nil_iff (h : Balanced s) :
    SceneCode.dropEmptyBrackets s = [] ↔ ∀ c ∈ s, c.IsBracket := by
  refine ⟨fun hs => Omits.forall_of_nil (hs ▸ omits_dropEmptyBrackets s), fun hs => ?_⟩
  induction h with
  | nil => rfl
  | other ho hc _ _ =>
    obtain ⟨b, rfl | rfl⟩ := hs _ List.mem_cons_self
    · cases ho
    · cases hc
  | bracket hinside _ ihInside ihRest =>
    have hleft := ihInside fun c hc => hs c (by simp [hc])
    rw [hinside.dropEmptyBrackets_bracket hinside.dropEmptyBrackets_append, hleft]
    exact ihRest fun c hc => hs c (by simp [hc])

/-- Only a command that closes a bracket can close the outermost one. -/
theorem exists_pop_of_closesAtEnd {depth : Nat} (h : closesAtEnd depth s = true) :
    ∃ t b, s = t ++ [.pop b] := by
  induction s generalizing depth with
  | nil => simp [closesAtEnd] at h
  | cons c s ih =>
    have hrest : (∃ d, closesAtEnd d s = true) → ∃ t b, c :: s = t ++ [.pop b] := by
      rintro ⟨d, hd⟩
      obtain ⟨t, b, rfl⟩ := ih hd
      exact ⟨c :: t, b, rfl⟩
    cases c with
    | pop b =>
      rw [closesAtEnd_pop] at h
      split at h
      · exact ⟨[], b, by rw [List.isEmpty_iff.1 h]; rfl⟩
      · exact hrest ⟨depth - 1, h⟩
    | push b => exact hrest ⟨depth + 1, h⟩
    | transform | set | mark => exact hrest ⟨depth, h⟩

/-- Either nothing is removed, or the first command and the last one: a saved state, and a command
    that closes a bracket. -/
theorem dropOuterBracket_eq_or_exists (s : List (Command R Mask Pattern)) :
    dropOuterBracket s = s ∨ ∃ inside closing,
      s = .push .state :: (inside ++ [.pop closing]) ∧ dropOuterBracket s = inside := by
  rw [dropOuterBracket.eq_def]
  split
  · next rest =>
    split
    · next hend =>
      obtain ⟨inside, closing, rfl⟩ := exists_pop_of_closesAtEnd hend
      exact .inr ⟨inside, closing, rfl, List.dropLast_concat⟩
    · exact .inl rfl
  · exact .inl rfl

/-- Only a bracket is dropped around the stream. -/
theorem omits_dropOuterBracket (s : List (Command R Mask Pattern)) :
    Omits Command.IsBracket s (dropOuterBracket s) := by
  obtain h | ⟨inside, closing, rfl, h⟩ := dropOuterBracket_eq_or_exists s
  · rw [h]
    exact .refl s
  · rw [h]
    exact .drop ⟨.state, .inl rfl⟩ (.concat ⟨closing, .inr rfl⟩ inside)

/-- Simplifying only removes commands, and only brackets. -/
theorem Simplifications.omits_apply (use : Simplifications) (s : List (Command R Mask Pattern)) :
    Omits Command.IsBracket s (use.apply s) := by
  have hdropped :
      Omits Command.IsBracket s (if use.emptyBrackets then dropEmptyBrackets s else s) := by
    split
    · exact omits_dropEmptyBrackets s
    · exact .refl s
  rw [Simplifications.apply]
  split
  · exact hdropped.trans (omits_dropOuterBracket _)
  · exact hdropped

theorem Simplifications.apply_sublist (use : Simplifications)
    (s : List (Command R Mask Pattern)) : (use.apply s).Sublist s :=
  (use.omits_apply s).sublist

theorem Command.opens?_eq_some_iff {c : Command R Mask Pattern} {b : Bracket} :
    c.opens? = some b ↔ c = .push b := by
  cases c <;> simp [Command.opens?]

/-! Which commands are removed depends on the brackets alone. So it makes no difference whether
the commands are changed before or after, as long as their brackets stay what they are. -/

section Map

variable {S : Resources} {Mask' Pattern' : Type}

/-- The function keeps the brackets that commands open and close. -/
structure KeepsBrackets (g : Command R Mask Pattern → Command S Mask' Pattern') : Prop where
  opens : ∀ c, (g c).opens? = c.opens?
  closes : ∀ c, (g c).closes? = c.closes?

variable {g : Command R Mask Pattern → Command S Mask' Pattern'}

namespace KeepsBrackets

theorem isPush_eq (h : KeepsBrackets g) (c : Command R Mask Pattern) :
    (g c).isPush = c.isPush :=
  congrArg Option.isSome (h.opens c)

theorem isPop_eq (h : KeepsBrackets g) (c : Command R Mask Pattern) : (g c).isPop = c.isPop :=
  congrArg Option.isSome (h.closes c)

theorem eq_push_iff (h : KeepsBrackets g) {c : Command R Mask Pattern} {b : Bracket} :
    g c = .push b ↔ c = .push b := by
  rw [← Command.opens?_eq_some_iff, h.opens, Command.opens?_eq_some_iff]

/-- Whether a bracket is empty does not depend on other commands. -/
theorem consDropping_map (h : KeepsBrackets g) (c : Command R Mask Pattern)
    (s : List (Command R Mask Pattern)) :
    consDropping (g c) (s.map g) = (consDropping c s).map g := by
  cases s with
  | nil => rfl
  | cons d rest =>
    rw [List.map_cons, consDropping, consDropping, h.isPush_eq, h.isPop_eq]
    by_cases hd : (c.isPush && d.isPop) = true
    · rw [if_pos hd, if_pos hd]
    · rw [if_neg hd, if_neg hd]
      rfl

/-- Empty brackets are in the same places before and after. -/
theorem dropEmptyBrackets_map (h : KeepsBrackets g) (s : List (Command R Mask Pattern)) :
    dropEmptyBrackets (s.map g) = (dropEmptyBrackets s).map g := by
  induction s with
  | nil => rfl
  | cons c s ih =>
    calc dropEmptyBrackets ((c :: s).map g)
        = consDropping (g c) (dropEmptyBrackets (s.map g)) := rfl
      _ = consDropping (g c) ((dropEmptyBrackets s).map g) := by rw [ih]
      _ = (dropEmptyBrackets (c :: s)).map g := h.consDropping_map c _

/-- Where a bracket closes does not depend on other commands. -/
theorem closesAtEnd_map (h : KeepsBrackets g) (depth : Nat)
    (s : List (Command R Mask Pattern)) : closesAtEnd depth (s.map g) = closesAtEnd depth s := by
  induction s generalizing depth with
  | nil => rfl
  | cons c s ih =>
    rw [List.map_cons, closesAtEnd, closesAtEnd, h.isPush_eq, h.isPop_eq, ih, ih, ih,
      List.isEmpty_map]

/-- The outer bracket is in the same place before and after. -/
theorem dropOuterBracket_map (h : KeepsBrackets g) (s : List (Command R Mask Pattern)) :
    dropOuterBracket (s.map g) = (dropOuterBracket s).map g := by
  cases s with
  | nil => rfl
  | cons c rest =>
    by_cases hc : c = .push .state
    · have hg : g c = .push .state := h.eq_push_iff.2 hc
      rw [List.map_cons, hg, hc, dropOuterBracket, dropOuterBracket, h.closesAtEnd_map]
      by_cases hend : closesAtEnd 1 rest = true
      · rw [if_pos hend, if_pos hend, List.map_dropLast]
      · rw [if_neg hend, if_neg hend, List.map_cons, ← hc, hg]
    · have hg : g c ≠ .push .state := fun hg => hc (h.eq_push_iff.1 hg)
      rw [List.map_cons, dropOuterBracket, dropOuterBracket, List.map_cons]
      · exact fun _ h' => hc (List.cons.inj h').1
      · exact fun _ h' => hg (List.cons.inj h').1

/-- Simplifying and mapping commands may change places. -/
theorem apply_map (h : KeepsBrackets g) (use : Simplifications)
    (s : List (Command R Mask Pattern)) : use.apply (s.map g) = (use.apply s).map g := by
  simp only [Simplifications.apply]
  cases use.emptyBrackets <;> cases use.outerBracket <;>
    simp [h.dropEmptyBrackets_map, h.dropOuterBracket_map]

end KeepsBrackets

end Map

end Streams

/-- A layer of a scene starts opaque, and blends as usual. -/
def Layering.scene : Layering .scene (Mask .scene) (Pattern .scene) :=
  .paintedOnly (1 : Single) BlendMode.normal

/-- The state of a fresh context: black, opaque and without clips. -/
def DrawingState.fresh : DrawingState .scene (Mask .scene) (Pattern .scene) where
  transforms := []
  clips := []
  fill := .color (.gray 0 1)
  stroke := .gray 0 1
  lineWidth := (1 : Single)
  lineCap := .butt
  lineJoin := .miter
  miterLimit := (10 : Single)
  alpha := (1 : Single)
  blendMode := .normal

/-- An outline in a layer that is composited at half its alpha, before an empty layer, and all of
    it in a bracket that saves the state. -/
def fadedOutline : Drawing .scene :=
  bracketed .state
    (.set (.alpha (1 / 2 : Single)) :: bracketed .layer [.mark (.stroke (Shape.lines []))] ++
      bracketed .layer [])

/-- Both the empty layer and the outer bracket of the faded outline can be removed. -/
theorem checkBalance_apply_and_replay_apply_fadedOutline :
    checkBalance fadedOutline = .ok () ∧
      fadedOutline.length = 8 ∧
      (Simplifications.all.apply fadedOutline).length = 4 ∧
      checkBalance (Simplifications.all.apply fadedOutline) = .ok () ∧
      (replay .scene .fresh (Simplifications.all.apply fadedOutline)).events =
        (replay .scene .fresh fadedOutline).events ∧
      (replay .scene .fresh ((⟨true, false⟩ : Simplifications).apply fadedOutline)).state =
        (replay .scene .fresh fadedOutline).state := by
  have balanced : checkBalance fadedOutline = .ok () := rfl
  obtain ⟨hbalance, hevents, _⟩ := checkBalance_apply_and_replay_apply
    (1 : Single) BlendMode.normal .all fadedOutline balanced .fresh
  obtain ⟨_, _, hstate⟩ := checkBalance_apply_and_replay_apply
    (1 : Single) BlendMode.normal ⟨true, false⟩ fadedOutline balanced .fresh
  exact ⟨balanced, rfl, rfl, hbalance, hevents, hstate rfl⟩

end SceneCode
