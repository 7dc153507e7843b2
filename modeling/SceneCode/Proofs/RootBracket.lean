import SceneCode.Proofs.EmptyBrackets
import SceneCode.Proofs.Pruning

/-!
# The bracket of the root

In general it makes a difference which simplification is used first: without an empty bracket at its
start, a stream may turn out to stand in a saved state as a whole. The stream of a node stands in a
saved state from the first, with a balanced stream inside, and both simplifications keep to that.
Removing the empty brackets goes on inside, and takes the saved state away only if it leaves nothing
there. So in either order the saved state of the node goes, and the empty brackets inside it.

All other brackets stay if there is anything in them but brackets. Such a bracket parts the stream:
what comes before it and what comes after it is simplified by itself
(`Balanced.dropEmptyBrackets_around`). The streams of all descendants stand inside as such brackets
(`Node.Descendant.lower_isInfix_inside`), which are kept unless the descendant is trivial.

* `apply_all_lower`: the simplifications of the stream of a node, in either order, and which
  brackets go.
-/

namespace SceneCode

variable {R : Resources} {Mask Pattern : Type}

/-! ## Brackets that stay -/

section Streams

variable {s t : List (Command R Mask Pattern)}

/-- Streams can be simplified apart if this brings no empty bracket about where they meet. -/
theorem dropEmptyBrackets_append
    (h : ∀ c ∈ (dropEmptyBrackets s).getLast?, ∀ d ∈ (dropEmptyBrackets t).head?,
      ¬(c.isPush = true ∧ d.isPop = true)) :
    dropEmptyBrackets (s ++ t) = dropEmptyBrackets s ++ dropEmptyBrackets t := by
  refine dropEmptyBrackets_eq_iff.2 ⟨?_, ?_⟩
  · have hs := (deletesPairs_dropEmptyBrackets s).append_right t
    exact hs.trans ((deletesPairs_dropEmptyBrackets t).append_left (dropEmptyBrackets s))
  · exact List.isChain_append.2
      ⟨noEmptyBracket_dropEmptyBrackets s, noEmptyBracket_dropEmptyBrackets t, h⟩

/-- A bracket goes if there is nothing in it but brackets. Otherwise it stays, and the stream is
    simplified before it, inside it and after it. -/
theorem Balanced.dropEmptyBrackets_around (h : Balanced s) (b : Bracket)
    (before after : List (Command R Mask Pattern)) :
    SceneCode.dropEmptyBrackets (before ++ bracketed b s ++ after) =
      if (SceneCode.dropEmptyBrackets s).isEmpty then
        SceneCode.dropEmptyBrackets (before ++ after)
      else
        SceneCode.dropEmptyBrackets before ++ bracketed b (SceneCode.dropEmptyBrackets s) ++
          SceneCode.dropEmptyBrackets after := by
  have hpart := h.dropEmptyBrackets_bracketed b
  split at hpart
  · next hempty =>
    rw [if_pos hempty, ← dropEmptyBrackets_part, hpart, List.append_nil]
  · next hempty =>
    rw [if_neg hempty, ← hpart]
    -- A bracket that stays starts with a command that opens one, and ends with one that closes one.
    have hbefore : SceneCode.dropEmptyBrackets (before ++ bracketed b s) =
        SceneCode.dropEmptyBrackets before ++ SceneCode.dropEmptyBrackets (bracketed b s) := by
      refine SceneCode.dropEmptyBrackets_append fun c _ d hd => ?_
      rw [hpart] at hd
      obtain rfl : .push b = d := Option.some.inj hd
      exact fun hcd => Bool.false_ne_true hcd.2
    rw [SceneCode.dropEmptyBrackets_append, hbefore]
    intro c hc d _
    rw [hbefore, hpart, bracketed, ← List.cons_append, ← List.append_assoc,
      List.getLast?_concat] at hc
    obtain rfl : .pop b = c := Option.some.inj hc
    exact fun hcd => Bool.false_ne_true hcd.1

theorem Balanced.dropOuterBracket_dropEmptyBrackets_bracketed (h : Balanced s) :
    SceneCode.dropOuterBracket (SceneCode.dropEmptyBrackets (bracketed .state s)) =
      SceneCode.dropEmptyBrackets s := by
  rw [h.dropEmptyBrackets_bracketed]
  split
  · next hempty => rw [List.isEmpty_iff.1 hempty]; rfl
  · exact h.dropEmptyBrackets.dropOuterBracket_bracketed

/-- Where no saved state is around the stream, the order may matter. -/
example :
    let outline : Drawing .scene := [.mark (.stroke (Shape.lines []))]
    let commands := bracketed .state [] ++ bracketed .state outline
    dropOuterBracket (dropEmptyBrackets commands) = outline ∧
      dropEmptyBrackets (dropOuterBracket commands) = bracketed .state outline :=
  ⟨rfl, rfl⟩

end Streams

/-! ## Descendants -/

/-- The second node is a child of the first one, or of a child, and so on. -/
abbrev Node.Descendant : Node → Node → Prop :=
  Relation.TransGen fun parent child => child ∈ parent.children

variable (b : Backend R Mask Pattern)

theorem Node.inside_isInfix_lower (n : Node) : n.inside b <:+: n.lower b :=
  ⟨[.push .state], [.pop .state], (n.lower_eq b).symm⟩

theorem Node.lower_isInfix_inside {n child : Node} (h : child ∈ n.children) :
    child.lower b <:+: n.inside b := by
  have hchildren : child.lower b <:+: lowerAll b n.children := by
    rw [lowerAll_eq_flatMap]
    exact List.infix_of_mem_flatten (List.mem_map_of_mem h)
  have hdrawn : child.lower b <:+: n.drawnCommands b :=
    hchildren.trans (List.prefix_append _ _).isInfix
  have hlayer : n.drawnCommands b <:+: bracketed .layer (n.drawnCommands b) :=
    ⟨[.push .layer], [.pop .layer], rfl⟩
  rw [inside_eq]
  refine List.IsInfix.trans ?_ (List.suffix_append _ _).isInfix
  split
  · exact hdrawn.trans hlayer
  · exact hdrawn

/-- The stream of a descendant stands inside that of the node. -/
theorem Node.Descendant.lower_isInfix_inside {n d : Node} (h : n.Descendant d) :
    d.lower b <:+: n.inside b := by
  induction h with
  | single h => exact n.lower_isInfix_inside b h
  | tail _ h ih =>
    exact ((Node.lower_isInfix_inside b h).trans (Node.inside_isInfix_lower b _)).trans ih

/-- Without its empty brackets, the inside of every node is that of the pruned node. -/
theorem Node.dropEmptyBrackets_inside (n : Node) :
    SceneCode.dropEmptyBrackets (n.inside b) = n.prune.inside b :=
  SceneCode.dropEmptyBrackets_inside
    (dropEmptyBrackets_lowerAll fun child _ => dropEmptyBrackets_lower b child)

/-- The stream of a node goes if the node is trivial. Otherwise it stays, as that of the pruned
    node, and what is around it is simplified apart. -/
theorem Node.dropEmptyBrackets_around_lower (d : Node)
    (before after : List (Command R Mask Pattern)) :
    dropEmptyBrackets (before ++ d.lower b ++ after) =
      if d.isTrivial then dropEmptyBrackets (before ++ after)
      else dropEmptyBrackets before ++ d.prune.lower b ++ dropEmptyBrackets after := by
  have hinside := ((parametric_recordsBalanced b).inside d).balanced
  have hempty : (d.prune.inside b).isEmpty = d.isTrivial := by
    rw [Bool.eq_iff_iff, List.isEmpty_iff, Node.inside_prune_eq_nil_iff]
  rw [d.lower_eq, hinside.dropEmptyBrackets_around, d.dropEmptyBrackets_inside, hempty,
    d.prune.lower_eq]

/-- The stream of a node is a saved state around a balanced stream. With both simplifications, in
    whichever order, this saved state goes, and of what is inside the empty brackets, one after the
    other until there are none. Of the brackets inside, those go that have nothing but brackets in
    them. All others stay in their places, with what is left inside them, before them and after
    them. So the stream of a descendant goes if the descendant is trivial, and otherwise it becomes
    that of the pruned descendant, with a saved state around it. -/
theorem apply_all_lower (n : Node) :
    let dropEmpty : List (Command R Mask Pattern) → List (Command R Mask Pattern) :=
      (⟨true, false⟩ : Simplifications).apply
    let dropOuter : List (Command R Mask Pattern) → List (Command R Mask Pattern) :=
      (⟨false, true⟩ : Simplifications).apply
    let inside := (n.lower b).tail.dropLast
    let left := Simplifications.all.apply (n.lower b)
    dropOuter (dropEmpty (n.lower b)) = left ∧ dropEmpty (dropOuter (n.lower b)) = left ∧
      left = dropEmpty inside ∧ n.lower b = bracketed .state inside ∧
      DeletesPairs inside left ∧ NoEmptyBracket left ∧
      (∀ before kind inner after, inside = before ++ bracketed kind inner ++ after →
        Balanced inner →
          ((∀ c ∈ inner, c.IsBracket) → left = dropEmpty (before ++ after)) ∧
          (¬(∀ c ∈ inner, c.IsBracket) →
            left = dropEmpty before ++ bracketed kind (dropEmpty inner) ++ dropEmpty after)) ∧
      ∀ d, n.Descendant d → ∃ before after, inside = before ++ d.lower b ++ after ∧
        left = if d.isTrivial then dropEmpty (before ++ after)
          else dropEmpty before ++ d.prune.lower b ++ dropEmpty after := by
  intro dropEmpty dropOuter inside left
  have hbalanced := ((parametric_recordsBalanced b).inside n).balanced
  have hinside : inside = n.inside b := by
    show (n.lower b).tail.dropLast = n.inside b
    rw [n.lower_eq, bracketed, List.tail_cons, List.dropLast_concat]
  have hlower : n.lower b = bracketed .state inside := hinside ▸ n.lower_eq b
  have hboth : dropOuter (dropEmpty (n.lower b)) = dropEmpty inside := by
    rw [hinside, n.lower_eq]
    exact hbalanced.dropOuterBracket_dropEmptyBrackets_bracketed
  have hswapped : dropEmpty (dropOuter (n.lower b)) = dropEmpty inside := by
    rw [hinside, n.lower_eq]
    exact congrArg dropEmpty hbalanced.dropOuterBracket_bracketed
  have hleft : left = dropEmpty inside := hboth
  refine ⟨rfl, hswapped.trans hleft.symm, hleft, hlower, ?_, ?_, ?_, ?_⟩
  · rw [hleft]
    exact deletesPairs_dropEmptyBrackets inside
  · rw [hleft]
    exact noEmptyBracket_dropEmptyBrackets inside
  · intro before kind inner after heq hinner
    have haround := hinner.dropEmptyBrackets_around kind before after
    rw [← heq] at haround
    rw [← hinner.dropEmptyBrackets_eq_nil_iff, ← List.isEmpty_iff]
    refine ⟨fun hempty => ?_, fun hempty => ?_⟩
    · exact hleft.trans (haround.trans (if_pos hempty))
    · exact hleft.trans (haround.trans (if_neg hempty))
  · intro d hd
    obtain ⟨before, after, heq⟩ := hd.lower_isInfix_inside b
    refine ⟨before, after, hinside.trans heq.symm, ?_⟩
    rw [hleft, hinside, ← heq]
    exact d.dropEmptyBrackets_around_lower b before after

/-- Of a group with an empty layer and a group with a dot in it, the brackets of the dot and of the
    group around it are left. -/
theorem apply_all_lower_nestedDot :
    let dot : Node := .withFillColor (.opaqueRgb 0 0 0) (.ofShape (.ellipse ⟨⟨0, 0⟩, ⟨4, 4⟩⟩))
    let root : Node := .group [.isolate (.group []), .group [dot]]
    let left : Drawing .scene := Simplifications.all.apply (root.commands true)
    let after : Drawing .scene := (Node.group [dot]).commands true
    root.Descendant dot ∧
      (∃ before after, left = dropEmptyBrackets before ++ dot.commands true ++
        dropEmptyBrackets after) ∧
      (root.commands true).tail.dropLast =
        [] ++ bracketed .state (bracketed .layer []) ++ after ∧
      Balanced (bracketed .layer [] : Drawing .scene) ∧
      (∀ c ∈ (bracketed .layer [] : Drawing .scene), c.IsBracket) ∧
      left = dropEmptyBrackets after ∧ left.length = 6 := by
  intro dot root left after
  obtain ⟨_, _, _, _, _, _, hbrackets, hdescendants⟩ := apply_all_lower (.values true) root
  have descendant : root.Descendant dot := by
    refine .tail (.single (b := .group [dot]) ?_) ?_
    · exact .tail _ (.head _)
    · exact .head _
  have layer : Balanced (bracketed .layer [] : Drawing .scene) := Balanced.nil.wrap
  have brackets : ∀ c ∈ (bracketed .layer [] : Drawing .scene), c.IsBracket :=
    List.forall_mem_cons.2 ⟨⟨.layer, .inl rfl⟩, List.forall_mem_singleton.2 ⟨.layer, .inr rfl⟩⟩
  obtain ⟨before, rest, _, hleft⟩ := hdescendants dot descendant
  exact ⟨descendant, ⟨before, rest, hleft⟩, rfl, layer, brackets,
    (hbrackets [] .state _ after rfl layer).1 brackets, rfl⟩

end SceneCode
