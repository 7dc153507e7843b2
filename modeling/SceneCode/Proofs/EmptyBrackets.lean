import Mathlib.Data.List.Chain
import Mathlib.Logic.Relation
import SceneCode.Proofs.Simplify

/-!
# Empty brackets can be removed in any order

An empty bracket is a command that opens a bracket with one that closes a bracket right after it,
of whatever kinds. Removing one of them (`DeletesPair`) may bring about another. Still the order
is of no importance: each removal leaves a stream with the same result
(`DeletesPair.dropEmptyBrackets_eq`), and the result is the only stream without empty brackets that
can be reached. None of this asks for a balanced stream.

The result can also be had in one pass from the left (`sweep`), which keeps the places, in what has
been kept so far, of the brackets that are still open. A command that closes a bracket removes the
innermost of these if there is nothing behind it. Places and kept commands stay in step, even
though brackets may be closed that were never opened (`Sweep.Tracks`).

* `apply_eq_iff_deletesPairs`: the simplification gives the one stream in which all removals end,
  and what follows from that.
-/

namespace SceneCode

variable {R : Resources} {Mask Pattern : Type} {c d : Command R Mask Pattern}
  {s t u : List (Command R Mask Pattern)}

/-! ## Removing one empty bracket -/

/-- The second stream is the first one without a command that opens a bracket, and the one right
    after it, which closes a bracket. -/
inductive DeletesPair : List (Command R Mask Pattern) → List (Command R Mask Pattern) → Prop
  | intro {c d : Command R Mask Pattern} (before after : List (Command R Mask Pattern)) :
      c.isPush = true → d.isPop = true → DeletesPair (before ++ c :: d :: after) (before ++ after)

/-- The second stream is the first one after any number of removals. -/
abbrev DeletesPairs :
    List (Command R Mask Pattern) → List (Command R Mask Pattern) → Prop :=
  Relation.ReflTransGen DeletesPair

/-- No command that opens a bracket comes right before one that closes a bracket. -/
def NoEmptyBracket (s : List (Command R Mask Pattern)) : Prop :=
  s.IsChain fun c d => ¬(c.isPush = true ∧ d.isPop = true)

theorem Command.isPop_eq_false_of_isPush (h : c.isPush = true) : c.isPop = false := by
  cases c with
  | push b => rfl
  | _ => cases h

/-- Without an empty bracket there is no pair to delete. -/
theorem noEmptyBracket_iff : NoEmptyBracket s ↔ ∀ t, ¬DeletesPair s t := by
  rw [NoEmptyBracket, List.isChain_iff_forall_rel_of_append_cons_cons]
  constructor
  · intro h t ht
    cases ht with
    | intro before after hc hd => exact h rfl ⟨hc, hd⟩
  · rintro h c d before after rfl ⟨hc, hd⟩
    exact h _ (.intro before after hc hd)

namespace DeletesPair

/-- A pair may be deleted after other commands. -/
theorem append_left (h : DeletesPair s t) (u : List (Command R Mask Pattern)) :
    DeletesPair (u ++ s) (u ++ t) := by
  cases h with
  | intro before after hc hd =>
    rw [← List.append_assoc, ← List.append_assoc]
    exact .intro (u ++ before) after hc hd

/-- A pair may be deleted before other commands. -/
theorem append_right (h : DeletesPair s t) (u : List (Command R Mask Pattern)) :
    DeletesPair (s ++ u) (t ++ u) := by
  cases h with
  | intro before after hc hd =>
    rw [List.append_assoc, List.append_assoc]
    exact .intro before (after ++ u) hc hd

/-- Every step deletes two commands. -/
theorem length_eq (h : DeletesPair s t) : s.length = t.length + 2 := by
  cases h with
  | intro before after _ _ =>
    simp only [List.length_append, List.length_cons]
    omega

/-- What is left in the end does not depend on an empty bracket that is removed before. -/
theorem dropEmptyBrackets_eq (h : DeletesPair s t) :
    dropEmptyBrackets s = dropEmptyBrackets t := by
  cases h with
  | @intro c d before after hc hd =>
    have hdropped : dropEmptyBrackets (c :: d :: after) = dropEmptyBrackets after := by
      have hkept : dropEmptyBrackets (d :: after) = d :: dropEmptyBrackets after := by
        refine consDropping_of_opens?_eq_none ?_ _
        cases d with
        | pop b => rfl
        | _ => cases hd
      calc dropEmptyBrackets (c :: d :: after)
          = consDropping c (d :: dropEmptyBrackets after) := congrArg (consDropping c) hkept
        _ = dropEmptyBrackets after := if_pos (by rw [hc, hd]; rfl)
    calc dropEmptyBrackets (before ++ c :: d :: after)
        = before.foldr consDropping (dropEmptyBrackets (c :: d :: after)) := List.foldr_append
      _ = before.foldr consDropping (dropEmptyBrackets after) := by rw [hdropped]
      _ = dropEmptyBrackets (before ++ after) := List.foldr_append.symm

/-- A removal takes one command that opens a bracket, one that closes a bracket, and nothing
    else. -/
theorem counts (h : DeletesPair s t) :
    s.countP Command.isPush = t.countP Command.isPush + 1 ∧
      s.countP Command.isPop = t.countP Command.isPop + 1 ∧
      s.filter (fun c => !c.isPush && !c.isPop) = t.filter fun c => !c.isPush && !c.isPop := by
  cases h with
  | @intro c d before after hc hd =>
    have hc' : c.isPop = false := Command.isPop_eq_false_of_isPush hc
    have hd' : d.isPush = false := by
      cases hpush : d.isPush with
      | false => rfl
      | true => exact absurd (Command.isPop_eq_false_of_isPush hpush) (by simp [hd])
    refine ⟨?_, ?_, ?_⟩
    · simp only [List.countP_append, List.countP_cons, hc, hd']
      simp [Nat.add_assoc]
    · simp only [List.countP_append, List.countP_cons, hc', hd]
      simp [Nat.add_assoc]
    · simp [hc, hd]

/-- Every removal makes the stream shorter. -/
theorem not_exists_infinite :
    ¬∃ f : Nat → List (Command R Mask Pattern), ∀ n, DeletesPair (f n) (f (n + 1)) := by
  rintro ⟨f, hf⟩
  have hlength (n : Nat) : (f n).length + 2 * n = (f 0).length := by
    induction n with
    | zero => rfl
    | succ n ih =>
      have := (hf n).length_eq
      omega
  have := hlength (f 0).length
  have := (hf (f 0).length).length_eq
  omega

end DeletesPair

/-! ## Removing them all -/

namespace DeletesPairs

theorem dropEmptyBrackets_eq (h : DeletesPairs s t) :
    dropEmptyBrackets s = dropEmptyBrackets t := by
  induction h with
  | refl => rfl
  | tail _ h ih => exact ih.trans h.dropEmptyBrackets_eq

theorem append_left (h : DeletesPairs s t) (u : List (Command R Mask Pattern)) :
    DeletesPairs (u ++ s) (u ++ t) :=
  h.lift (u ++ ·) fun _ _ hstep => hstep.append_left u

theorem append_right (h : DeletesPairs s t) (u : List (Command R Mask Pattern)) :
    DeletesPairs (s ++ u) (t ++ u) :=
  h.lift (· ++ u) fun _ _ hstep => hstep.append_right u

theorem counts (h : DeletesPairs s t) :
    ∃ pairs, s.countP Command.isPush = t.countP Command.isPush + pairs ∧
      s.countP Command.isPop = t.countP Command.isPop + pairs ∧
      s.filter (fun c => !c.isPush && !c.isPop) = t.filter fun c => !c.isPush && !c.isPop := by
  induction h with
  | refl => exact ⟨0, rfl, rfl, rfl⟩
  | tail _ h ih =>
    obtain ⟨pairs, hpush, hpop, hother⟩ := ih
    obtain ⟨hpush', hpop', hother'⟩ := h.counts
    exact ⟨pairs + 1, by omega, by omega, hother.trans hother'⟩

end DeletesPairs

/-- A command in front deletes one pair or none. -/
theorem deletesPairs_consDropping (c : Command R Mask Pattern)
    (s : List (Command R Mask Pattern)) : DeletesPairs (c :: s) (consDropping c s) := by
  obtain h | ⟨a, b, rest, rfl, rfl, h⟩ := consDropping_cases c s
  · exact h ▸ .refl
  · exact h ▸ .single (.intro [] rest rfl rfl)

/-- The simplification removes empty brackets one after the other. -/
theorem deletesPairs_dropEmptyBrackets (s : List (Command R Mask Pattern)) :
    DeletesPairs s (dropEmptyBrackets s) := by
  induction s with
  | nil => exact .refl
  | cons c s ih =>
    have htail : DeletesPairs ([c] ++ s) ([c] ++ dropEmptyBrackets s) := ih.append_left [c]
    exact htail.trans (deletesPairs_consDropping c (dropEmptyBrackets s))

/-- A command in front leaves no empty bracket. -/
theorem NoEmptyBracket.consDropping (h : NoEmptyBracket s) (c : Command R Mask Pattern) :
    NoEmptyBracket (consDropping c s) := by
  cases s with
  | nil => exact .singleton c
  | cons d rest =>
    rw [SceneCode.consDropping]
    split
    · exact List.IsChain.tail h
    · next hcd => exact .cons_cons (by simpa using hcd) h

/-- What is left has no empty bracket. -/
theorem noEmptyBracket_dropEmptyBrackets (s : List (Command R Mask Pattern)) :
    NoEmptyBracket (dropEmptyBrackets s) := by
  induction s with
  | nil => exact .nil
  | cons c s ih => exact ih.consDropping c

/-- Without an empty bracket, no step is possible. -/
theorem NoEmptyBracket.eq_of_deletesPairs (h : NoEmptyBracket s) (hst : DeletesPairs s t) :
    s = t := by
  cases hst.cases_head with
  | inl heq => exact heq
  | inr hstep =>
    obtain ⟨u, hsu, _⟩ := hstep
    exact absurd hsu (noEmptyBracket_iff.1 h u)

theorem NoEmptyBracket.dropEmptyBrackets_eq (h : NoEmptyBracket s) : dropEmptyBrackets s = s :=
  (h.eq_of_deletesPairs (deletesPairs_dropEmptyBrackets s)).symm

/-- The only stream without empty brackets that can be reached. -/
theorem dropEmptyBrackets_eq_iff :
    dropEmptyBrackets s = t ↔ DeletesPairs s t ∧ NoEmptyBracket t := by
  constructor
  · rintro rfl
    exact ⟨deletesPairs_dropEmptyBrackets s, noEmptyBracket_dropEmptyBrackets s⟩
  · rintro ⟨hst, ht⟩
    rw [hst.dropEmptyBrackets_eq, ht.dropEmptyBrackets_eq]

/-- Whatever has been removed, the rest can still be. -/
theorem DeletesPairs.dropEmptyBrackets (h : DeletesPairs s t) :
    DeletesPairs t (dropEmptyBrackets s) := by
  rw [h.dropEmptyBrackets_eq]
  exact deletesPairs_dropEmptyBrackets t

/-- The empty brackets of a part of a stream can be removed first. -/
theorem dropEmptyBrackets_part (before part after : List (Command R Mask Pattern)) :
    dropEmptyBrackets (before ++ dropEmptyBrackets part ++ after) =
      dropEmptyBrackets (before ++ part ++ after) := by
  have hpart := deletesPairs_dropEmptyBrackets part
  exact ((hpart.append_left before).append_right after).dropEmptyBrackets_eq.symm

/-! ## One pass from the left -/

/-- How far a pass has come: the commands that have been kept, and the places in them of the
    brackets that are still open, the innermost first. -/
structure Sweep (R : Resources) (Mask Pattern : Type) where
  kept : List (Command R Mask Pattern) := []
  opened : List Nat := []

/-- The next command is kept, unless it closes a bracket with nothing behind it. -/
def Sweep.step (s : Sweep R Mask Pattern) (c : Command R Mask Pattern) :
    Sweep R Mask Pattern :=
  if c.isPush then ⟨s.kept ++ [c], s.kept.length :: s.opened⟩
  else if c.isPop then
    match s.opened with
    | [] => ⟨s.kept ++ [c], []⟩
    | place :: opened =>
      if place + 1 = s.kept.length then ⟨s.kept.dropLast, opened⟩ else ⟨s.kept ++ [c], opened⟩
  else ⟨s.kept ++ [c], s.opened⟩

/-- What is kept of a stream in one pass. -/
def sweep (commands : List (Command R Mask Pattern)) : List (Command R Mask Pattern) :=
  (commands.foldl Sweep.step {}).kept

namespace Sweep

/-- The places are those of the brackets that the kept commands leave open. A command that closes a
    bracket when none is open leaves it at that. -/
inductive Tracks : List (Command R Mask Pattern) → List Nat → Prop
  | nil : Tracks [] []
  | push {c : Command R Mask Pattern} {kept : List (Command R Mask Pattern)}
      {opened : List Nat} : c.isPush = true → Tracks kept opened →
        Tracks (kept ++ [c]) (kept.length :: opened)
  | pop {c : Command R Mask Pattern} {kept : List (Command R Mask Pattern)}
      {opened : List Nat} : c.isPop = true → Tracks kept opened →
        Tracks (kept ++ [c]) opened.tail
  | other {c : Command R Mask Pattern} {kept : List (Command R Mask Pattern)}
      {opened : List Nat} : c.isPush = false → c.isPop = false → Tracks kept opened →
        Tracks (kept ++ [c]) opened

variable {kept : List (Command R Mask Pattern)} {opened : List Nat}

/-- The indices of open brackets are those of commands that are kept. -/
theorem Tracks.lt_length (h : Tracks kept opened) : ∀ place ∈ opened, place < kept.length := by
  induction h with
  | nil => exact List.forall_mem_nil _
  | push _ _ ih =>
    rw [List.forall_mem_cons, List.length_append, List.length_singleton]
    exact ⟨Nat.lt_succ_self _, fun place hplace => Nat.lt_succ_of_lt (ih place hplace)⟩
  | pop _ _ ih =>
    intro place hplace
    rw [List.length_append, List.length_singleton]
    exact Nat.lt_succ_of_lt (ih place (List.mem_of_mem_tail hplace))
  | other _ _ _ ih =>
    intro place hplace
    rw [List.length_append, List.length_singleton]
    exact Nat.lt_succ_of_lt (ih place hplace)

/-- If a bracket was opened last, its place comes first. -/
theorem Tracks.of_concat_push (h : Tracks (kept ++ [c]) opened) (hc : c.isPush = true) :
    ∃ outer, opened = kept.length :: outer ∧ Tracks kept outer := by
  generalize hall : kept ++ [c] = all at h
  cases h with
  | nil => simp at hall
  | push _ h =>
    obtain ⟨rfl, _⟩ := List.append_inj' hall rfl
    exact ⟨_, rfl, h⟩
  | pop hpop _ =>
    obtain ⟨_, hcd⟩ := List.append_inj' hall rfl
    rw [← List.singleton_inj.1 hcd, Command.isPop_eq_false_of_isPush hc] at hpop
    cases hpop
  | other hpush _ _ =>
    obtain ⟨_, hcd⟩ := List.append_inj' hall rfl
    rw [← List.singleton_inj.1 hcd, hc] at hpush
    cases hpush

/-- If the first place is the last of all, a bracket was opened there. -/
theorem Tracks.exists_concat_push {place : Nat} (h : Tracks kept (place :: opened))
    (hlast : place + 1 = kept.length) :
    ∃ before c, kept = before ++ [c] ∧ c.isPush = true ∧ Tracks before opened := by
  generalize hall : place :: opened = all at h
  cases h with
  | nil => cases hall
  | push hc h =>
    obtain ⟨_, rfl⟩ := List.cons.inj hall
    exact ⟨_, _, rfl, hc, h⟩
  -- Any other command stands behind all brackets that are open.
  | pop _ h =>
    have := h.lt_length place (List.mem_of_mem_tail (hall ▸ List.mem_cons_self))
    rw [List.length_append, List.length_singleton] at hlast
    omega
  | other _ _ h =>
    have := h.lt_length place (hall ▸ List.mem_cons_self)
    rw [List.length_append, List.length_singleton] at hlast
    omega

end Sweep

theorem NoEmptyBracket.concat (h : NoEmptyBracket s)
    (hc : c.isPop = true → ∀ before d, s = before ++ [d] → d.isPush = false) :
    NoEmptyBracket (s ++ [c]) := by
  refine List.IsChain.append h (.singleton c) fun d hd e he => ?_
  rintro ⟨hpush, hpop⟩
  obtain rfl : c = e := Option.some.inj he
  obtain ⟨before, rfl⟩ := List.getLast?_eq_some_iff.1 hd
  rw [hc hpop before d rfl] at hpush
  cases hpush

/-- A command that closes the bracket that was opened last is removed along with it. -/
theorem NoEmptyBracket.dropEmptyBrackets_concat_concat (h : NoEmptyBracket (s ++ [c]))
    (hc : c.isPush = true) (hd : d.isPop = true) : dropEmptyBrackets (s ++ [c] ++ [d]) = s := by
  have hpair : DeletesPair (s ++ [c] ++ [d]) (s ++ []) := by
    rw [List.append_assoc]
    exact .intro s [] hc hd
  have hs : NoEmptyBracket s := List.IsChain.left_of_append h
  rw [hpair.dropEmptyBrackets_eq, List.append_nil, hs.dropEmptyBrackets_eq]

namespace Sweep

/-- What has been kept is what the simplification leaves, and the places are known. -/
structure Keeps (commands : List (Command R Mask Pattern)) (s : Sweep R Mask Pattern) : Prop where
  kept_eq : s.kept = dropEmptyBrackets commands
  tracks : Tracks s.kept s.opened

/-- Each command of the sweep keeps what is left in step with the indices on the stack. -/
theorem Keeps.step {s : Sweep R Mask Pattern} (h : Keeps t s) (c : Command R Mask Pattern) :
    Keeps (t ++ [c]) (s.step c) := by
  obtain ⟨kept, opened⟩ := s
  obtain ⟨hkept, htracks⟩ : kept = dropEmptyBrackets t ∧ Tracks kept opened :=
    ⟨h.kept_eq, h.tracks⟩
  have hnone : NoEmptyBracket kept := hkept ▸ noEmptyBracket_dropEmptyBrackets t
  have hnext : dropEmptyBrackets (t ++ [c]) = dropEmptyBrackets (kept ++ [c]) := by
    rw [hkept]
    exact (dropEmptyBrackets_part [] t [c]).symm
  have hkeep (hfree : NoEmptyBracket (kept ++ [c])) :
      kept ++ [c] = dropEmptyBrackets (t ++ [c]) := by
    rw [hnext, hfree.dropEmptyBrackets_eq]
  cases hpush : c.isPush with
  | true =>
    have hpop := Command.isPop_eq_false_of_isPush hpush
    rw [Sweep.step, if_pos hpush]
    exact ⟨hkeep (hnone.concat (by simp [hpop])), .push hpush htracks⟩
  | false =>
    cases hpop : c.isPop with
    | false =>
      rw [Sweep.step, hpush, hpop]
      exact ⟨hkeep (hnone.concat (by simp [hpop])), .other hpush hpop htracks⟩
    | true =>
      rw [Sweep.step, hpush, hpop]
      cases opened with
      | nil =>
        refine ⟨hkeep (hnone.concat fun _ before d heq => ?_), .pop hpop htracks⟩
        subst heq
        cases hd : d.isPush with
        | false => rfl
        | true =>
          obtain ⟨outer, houter, _⟩ := htracks.of_concat_push hd
          cases houter
      | cons place opened =>
        by_cases hlast : place + 1 = kept.length
        · -- Nothing stands behind the innermost open bracket.
          obtain ⟨before, d, rfl, hd, hbefore⟩ := htracks.exists_concat_push hlast
          simp only [Bool.false_eq_true, if_false, if_true, if_pos hlast]
          refine ⟨?_, ?_⟩
          · rw [hnext, hnone.dropEmptyBrackets_concat_concat hd hpop, List.dropLast_concat]
          · rwa [List.dropLast_concat]
        · simp only [Bool.false_eq_true, if_false, if_true, if_neg hlast]
          refine ⟨hkeep (hnone.concat fun _ before d heq => ?_), .pop hpop htracks⟩
          subst heq
          cases hd : d.isPush with
          | false => rfl
          | true =>
            obtain ⟨outer, houter, _⟩ := htracks.of_concat_push hd
            rw [(List.cons.inj houter).1, List.length_append] at hlast
            exact absurd rfl hlast

/-- After any number of commands, the sweep has what is left of them. -/
theorem keeps_foldl (commands : List (Command R Mask Pattern)) :
    Keeps commands (commands.foldl step {}) := by
  induction commands using List.reverseRecOn with
  | nil => exact ⟨rfl, .nil⟩
  | append_singleton commands c ih =>
    rw [List.foldl_append]
    exact ih.step c

end Sweep

/-- Without its empty brackets, a stream is what all ways of removing them one by one lead to, in
    the end: the only stream without empty brackets that can be reached, which can be reached from
    wherever one is, and which is reached since nothing can be removed for ever. So only brackets
    are missing from it, as many that open as that close; removing the empty brackets again, or
    those of a part of the stream before, makes no difference; and one pass from the left is
    enough. -/
theorem apply_eq_iff_deletesPairs (commands : List (Command R Mask Pattern)) :
    let apply : List (Command R Mask Pattern) → List (Command R Mask Pattern) :=
      (⟨true, false⟩ : Simplifications).apply
    (∀ left, apply commands = left ↔ DeletesPairs commands left ∧ NoEmptyBracket left) ∧
      (∀ left, DeletesPairs commands left → DeletesPairs left (apply commands)) ∧
      (¬∃ f : Nat → List (Command R Mask Pattern),
        f 0 = commands ∧ ∀ n, DeletesPair (f n) (f (n + 1))) ∧
      NoEmptyBracket (apply commands) ∧
      (apply commands).Sublist commands ∧
      ((apply commands).filter fun c => !c.isPush && !c.isPop) =
        (commands.filter fun c => !c.isPush && !c.isPop) ∧
      (∃ pairs, commands.countP Command.isPush = (apply commands).countP Command.isPush + pairs ∧
        commands.countP Command.isPop = (apply commands).countP Command.isPop + pairs) ∧
      apply (apply commands) = apply commands ∧
      (∀ before part after, commands = before ++ part ++ after →
        apply (before ++ apply part ++ after) = apply commands) ∧
      apply commands = sweep commands := by
  intro apply
  have hdeletes : DeletesPairs commands (apply commands) := deletesPairs_dropEmptyBrackets commands
  have hnone : NoEmptyBracket (apply commands) := noEmptyBracket_dropEmptyBrackets commands
  obtain ⟨pairs, hpush, hpop, hother⟩ := hdeletes.counts
  refine ⟨fun left => dropEmptyBrackets_eq_iff, fun left h => h.dropEmptyBrackets, ?_, hnone,
    Simplifications.apply_sublist _ commands, hother.symm, ⟨pairs, hpush, hpop⟩,
    hnone.dropEmptyBrackets_eq, ?_, (Sweep.keeps_foldl commands).kept_eq.symm⟩
  · rintro ⟨f, _, hf⟩
    exact DeletesPair.not_exists_infinite ⟨f, hf⟩
  · rintro before part after rfl
    exact dropEmptyBrackets_part before part after

end SceneCode
