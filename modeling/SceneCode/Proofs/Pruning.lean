import SceneCode.Proofs.Backends

/-!
# Pruning scenes

A node of which nothing is seen need not be lowered at all. A node is trivial (`Node.isTrivial`) if
nothing is set for it, and if neither it nor any of its descendants draws something; a shape without
fill and stroke is nothing that is drawn. Pruning a node (`Node.prune`) takes the trivial nodes out
of the tree, and from the nodes that are left the shapes that are not drawn. What is then left with
nothing to draw is no longer isolated. Masks and patterns stay as they are.

Removing the empty brackets from a stream does the same after lowering. It goes on inside each
bracket alone (`Balanced.dropEmptyBrackets_append`), so it can be followed along the tree. The layer
of a node is the critical case, since whether there is one is decided before anything is removed: a
layer in which nothing is left goes, and the others are those that the pruned node wants.

* `apply_lower_eq_lower_prune`: without its empty brackets, the stream of a node is that of the
  pruned node; it is empty exactly if the node is trivial.
-/

namespace SceneCode

/-! ## Pruned nodes -/

def Content.isShape : Content → Bool
  | .shape _ => true
  | _ => false

mutual

/-- Nothing is set for the node, it draws at most a shape, with neither fill nor stroke, and all its
    children are trivial. It may be isolated. -/
def Node.isTrivial : Node → Bool
  | ⟨transforms, clip, opacity, blendMode, _, fill, stroke, content, children⟩ =>
    transforms.isEmpty && clip.isNone && !decide (opacity < 1) && decide (blendMode = .normal) &&
      fill.isNone && stroke.isNone && content.all Content.isShape && allTrivial children
termination_by structural n => n

def allTrivial : List Node → Bool
  | [] => true
  | n :: rest => n.isTrivial && allTrivial rest
termination_by structural ns => ns

end

mutual

/-- The node without its trivial descendants, and without a shape that is neither filled nor
    stroked; if it is left with nothing to draw it is not isolated. -/
def Node.prune : Node → Node
  | ⟨transforms, clip, opacity, blendMode, isolated, fill, stroke, content, children⟩ =>
    let content := if fill.isNone && stroke.isNone then content.filter (!·.isShape) else content
    let children := pruneAll children
    { transforms, clip, opacity, blendMode, fill, stroke, content, children
      isolated := isolated && (!children.isEmpty || content.isSome) }
termination_by structural n => n

/-- The nodes that are not trivial, pruned. -/
def pruneAll : List Node → List Node
  | [] => []
  | n :: rest => if n.isTrivial then pruneAll rest else n.prune :: pruneAll rest
termination_by structural ns => ns

end

theorem allTrivial_iff (ns : List Node) :
    allTrivial ns = true ↔ ∀ n ∈ ns, n.isTrivial = true := by
  induction ns with
  | nil => simp [allTrivial]
  | cons n rest ih => rw [allTrivial, Bool.and_eq_true, ih, List.forall_mem_cons]

/-- A node is trivial if it has no style of its own, no content to draw, and trivial children only.
    -/
theorem Node.isTrivial_iff (n : Node) :
    n.isTrivial = true ↔
      (n.transforms = [] ∧ n.clip = none ∧ ¬ n.opacity < 1 ∧ n.blendMode = .normal ∧
        n.fill = none ∧ n.stroke = none) ∧
      (∀ child ∈ n.children, child.isTrivial = true) ∧
        ∀ content, n.content = some content → content.isShape = true := by
  obtain ⟨_, _, _, _, _, _, _, content, _⟩ := n
  rw [← allTrivial_iff]
  cases content <;> simp [isTrivial, and_assoc, and_comm (a := allTrivial _ = true)]

/-- Nothing is left exactly of trivial nodes. -/
theorem pruneAll_eq_nil_iff (ns : List Node) :
    pruneAll ns = [] ↔ ∀ n ∈ ns, n.isTrivial = true := by
  induction ns with
  | nil => simp [pruneAll]
  | cons n rest ih => cases h : n.isTrivial <;> simp [pruneAll, h, ih]

/-- Where there is neither a fill nor a stroke, shapes are pruned. -/
theorem Node.content_prune_eq_none_iff {n : Node} (hfill : n.fill = none)
    (hstroke : n.stroke = none) :
    n.prune.content = none ↔ ∀ content, n.content = some content → content.isShape = true := by
  obtain ⟨_, _, _, _, _, fill, stroke, content, _⟩ := n
  obtain rfl : fill = none := hfill
  obtain rfl : stroke = none := hstroke
  cases content <;> simp [prune]

variable {R : Resources} {Mask Pattern : Type} (b : Backend R Mask Pattern)

/-! ## The stream of a node -/

namespace Node

/-- The commands that set the state of a node. -/
def styleCommands (n : Node) : List (Command R Mask Pattern) :=
  n.transforms.map (fun step =>
      .transform (step.map b.represent.scalar b.represent.matrix)) ++
    clipCommands b n.clip ++ b.opacityCommands n.opacity ++ b.blendCommands n.blendMode ++
    fillCommands b n.fill ++ n.stroke.toList.flatMap b.strokeCommands

/-- The commands that draw the children and the content of a node. -/
def drawnCommands (n : Node) : List (Command R Mask Pattern) :=
  lowerAll b n.children ++ (n.contentMarks b).map .mark

/-- The layer of a node is wanted, where layers can be used. -/
def layered (n : Node) : Bool :=
  wantsLayer n.isolated n.opacity n.content n.children && b.layers

/-- Inside the bracket of a node are its style and what it draws, perhaps in a layer. -/
theorem inside_eq (n : Node) :
    n.inside b = n.styleCommands b ++
      if n.layered b then bracketed .layer (n.drawnCommands b) else n.drawnCommands b := by
  rw [inside, contentMarks_eq]
  rfl

/-- The style of a node has no brackets. -/
theorem opens?_eq_none_of_mem_styleCommands (n : Node) :
    ∀ c ∈ n.styleCommands b, c.opens? = none := by
  have hclip : ∀ c ∈ clipCommands b n.clip, c.opens? = none := by
    rcases n.clip with _ | _ | _
    · exact List.forall_mem_nil _
    · exact List.forall_mem_singleton.2 rfl
    · exact List.forall_mem_singleton.2 rfl
  have hopacity : ∀ c ∈ b.opacityCommands n.opacity, c.opens? = none := by
    rw [Backend.opacityCommands]
    split
    · exact List.forall_mem_singleton.2 rfl
    · exact List.forall_mem_nil _
  have hblend : ∀ c ∈ b.blendCommands n.blendMode, c.opens? = none := by
    rw [Backend.blendCommands]
    split
    · exact List.forall_mem_nil _
    · exact List.forall_mem_singleton.2 rfl
  have hfill : ∀ c ∈ fillCommands b n.fill, c.opens? = none := by
    rcases n.fill with _ | ⟨_ | _, _⟩
    · exact List.forall_mem_nil _
    · exact List.forall_mem_singleton.2 rfl
    · exact List.forall_mem_singleton.2 rfl
  have htransforms : ∀ c ∈ n.transforms.map (fun step =>
      (.transform (step.map b.represent.scalar b.represent.matrix) : Command R Mask Pattern)),
      c.opens? = none :=
    List.forall_mem_map.2 fun _ _ => rfl
  have hstroke : ∀ c ∈ n.stroke.toList.flatMap b.strokeCommands, c.opens? = none := by
    cases n.stroke <;> simp [Backend.strokeCommands, Command.opens?]
  simp only [styleCommands, List.forall_mem_append]
  exact ⟨⟨⟨⟨⟨htransforms, hclip⟩, hopacity⟩, hblend⟩, hfill⟩, hstroke⟩

/-- Pruning leaves the style of a node. -/
theorem styleCommands_prune (n : Node) : n.prune.styleCommands b = n.styleCommands b := by
  cases n
  rfl

/-- Every part of a style has a command of its own. -/
theorem styleCommands_eq_nil_iff (n : Node) :
    n.styleCommands b = [] ↔
      n.transforms = [] ∧ n.clip = none ∧ ¬ n.opacity < 1 ∧ n.blendMode = .normal ∧
        n.fill = none ∧ n.stroke = none := by
  have hclip : clipCommands b n.clip = [] ↔ n.clip = none := by
    rcases n.clip with _ | _ | _ <;> simp [clipCommands]
  have hopacity : b.opacityCommands n.opacity = [] ↔ ¬ n.opacity < 1 := by
    by_cases h : n.opacity < 1 <;> simp [Backend.opacityCommands, h]
  have hblend : b.blendCommands n.blendMode = [] ↔ n.blendMode = .normal := by
    by_cases h : n.blendMode = .normal <;> simp [Backend.blendCommands, h]
  have hfill : fillCommands b n.fill = [] ↔ n.fill = none := by
    rcases n.fill with _ | ⟨_ | _, _⟩ <;> simp [fillCommands]
  have hstroke : n.stroke.toList.flatMap b.strokeCommands = [] ↔ n.stroke = none := by
    cases n.stroke <;> simp [Backend.strokeCommands]
  simp only [styleCommands, List.append_eq_nil_iff, List.map_eq_nil_iff, hclip, hopacity, hblend,
    hfill, hstroke, and_assoc]

/-- Only content that is not drawn is pruned. -/
theorem contentMarks_prune (n : Node) : n.prune.contentMarks b = n.contentMarks b := by
  obtain ⟨_, _, _, _, _, fill, stroke, content, _⟩ := n
  cases content with
  | none => cases fill <;> cases stroke <;> rfl
  | some content => cases content <;> cases fill <;> cases stroke <;> rfl

/-- Content is pruned exactly where it has no marks. -/
theorem contentMarks_eq_nil_iff (n : Node) : n.contentMarks b = [] ↔ n.prune.content = none := by
  obtain ⟨_, _, _, _, _, fill, stroke, content, _⟩ := n
  cases content with
  | none => cases fill <;> cases stroke <;> simp [contentMarks, prune]
  | some content =>
    cases content <;> cases fill <;> cases stroke <;>
      simp [contentMarks, prune, Content.isShape]

theorem children_prune (n : Node) : n.prune.children = pruneAll n.children := by
  cases n
  rfl

end Node

theorem lowerAll_eq_nil_iff (ns : List Node) : lowerAll b ns = [] ↔ ns = [] := by
  cases ns with
  | nil => exact ⟨fun _ => rfl, fun _ => rfl⟩
  | cons n rest => simp [lowerAll, Node.lower_eq, bracketed]

theorem balanced_lowerAll (ns : List Node) : Balanced (lowerAll b ns) := by
  induction ns with
  | nil => exact .nil
  | cons n rest ih => exact ((parametric_recordsBalanced b).lower n).balanced.append ih

/-- What a node draws is balanced, with a layer or without. -/
theorem balanced_drawnCommands (n : Node) : Balanced (n.drawnCommands b) := by
  have hmarks : ∀ marks : List (Mark R),
      Balanced (marks.map .mark : List (Command R Mask Pattern)) := by
    intro marks
    induction marks with
    | nil => exact .nil
    | cons mark rest ih => exact .other rfl rfl ih
  exact (balanced_lowerAll b n.children).append (hmarks (n.contentMarks b))

/-! ## What is left of a stream -/

section Node

variable {b} {n : Node}

/-- If the children are pruned, so is what the node draws. -/
theorem dropEmptyBrackets_drawnCommands
    (h : dropEmptyBrackets (lowerAll b n.children) = lowerAll b (pruneAll n.children)) :
    dropEmptyBrackets (n.drawnCommands b) = n.prune.drawnCommands b := by
  have hmarks : dropEmptyBrackets ((n.contentMarks b).map .mark : List (Command R Mask Pattern)) =
      (n.contentMarks b).map .mark :=
    dropEmptyBrackets_of_opens?_eq_none (List.forall_mem_map.2 fun _ _ => rfl)
  rw [Node.drawnCommands, (balanced_lowerAll b n.children).dropEmptyBrackets_append, h, hmarks,
    Node.drawnCommands, Node.children_prune, Node.contentMarks_prune]

/-- A node draws nothing if it has neither children nor content. -/
theorem Node.drawnCommands_prune_eq_nil_iff :
    n.prune.drawnCommands b = [] ↔ n.prune.children = [] ∧ n.prune.content = none := by
  rw [drawnCommands, List.append_eq_nil_iff, lowerAll_eq_nil_iff, List.map_eq_nil_iff,
    contentMarks_prune, contentMarks_eq_nil_iff]

/-- The layers in which something is left are those that are wanted after pruning. -/
theorem Node.layered_prune :
    n.prune.layered b = (n.layered b && !(n.prune.drawnCommands b).isEmpty) := by
  have hopacity : n.prune.opacity = n.opacity := by
    cases n
    rfl
  have hisolated : n.prune.isolated =
      (n.isolated && (!n.prune.children.isEmpty || n.prune.content.isSome)) := by
    cases n
    rfl
  have hdrawn : (!(n.prune.drawnCommands b).isEmpty) =
      (!n.prune.children.isEmpty || n.prune.content.isSome) := by
    rw [Bool.eq_iff_iff, Bool.not_eq_true', List.isEmpty_eq_false_iff, Ne,
      drawnCommands_prune_eq_nil_iff]
    cases n.prune.children <;> cases n.prune.content <;> simp
  -- What is drawn after pruning was there before.
  have hbefore : (!n.prune.children.isEmpty || n.prune.content.isSome) = true →
      (!n.children.isEmpty || n.content.isSome) = true := by
    obtain ⟨_, _, _, _, _, fill, stroke, content, children⟩ := n
    cases children <;> cases content <;> simp [prune, pruneAll]
  rw [layered, layered, wantsLayer, wantsLayer, hopacity, hisolated, hdrawn]
  cases h : (!n.prune.children.isEmpty || n.prune.content.isSome)
  · simp
  · simp [hbefore h]

/-- Without its empty brackets, the inside of a node is that of the pruned node. -/
theorem dropEmptyBrackets_inside
    (h : dropEmptyBrackets (lowerAll b n.children) = lowerAll b (pruneAll n.children)) :
    dropEmptyBrackets (n.inside b) = n.prune.inside b := by
  have hdrawn := dropEmptyBrackets_drawnCommands h
  rw [Node.inside_eq, Node.inside_eq,
    dropEmptyBrackets_append_of_opens?_eq_none (n.opens?_eq_none_of_mem_styleCommands b),
    Node.styleCommands_prune, Node.layered_prune]
  by_cases hlayer : n.layered b = true
  · rw [if_pos hlayer, (balanced_drawnCommands b n).dropEmptyBrackets_bracketed, hdrawn, hlayer]
    cases hempty : (n.prune.drawnCommands b).isEmpty
    · rfl
    · rw [List.isEmpty_iff.1 hempty]
      rfl
  · rw [Bool.not_eq_true] at hlayer
    rw [hlayer]
    exact congrArg (n.styleCommands b ++ ·) hdrawn

/-- Nothing is left inside the trivial nodes, and only there. -/
theorem Node.inside_prune_eq_nil_iff : n.prune.inside b = [] ↔ n.isTrivial = true := by
  have hdrawn : (if n.prune.layered b then bracketed .layer (n.prune.drawnCommands b)
      else n.prune.drawnCommands b) = [] ↔ n.prune.drawnCommands b = [] := by
    rw [layered_prune]
    by_cases h : n.prune.drawnCommands b = []
    · simp [h]
    · split <;> simp [h, bracketed]
  rw [inside_eq, List.append_eq_nil_iff, hdrawn, drawnCommands_prune_eq_nil_iff, children_prune,
    pruneAll_eq_nil_iff, styleCommands_prune, styleCommands_eq_nil_iff, isTrivial_iff]
  refine and_congr_right fun hstyle => ?_
  obtain ⟨_, _, _, _, hfill, hstroke⟩ := hstyle
  rw [content_prune_eq_none_iff hfill hstroke]

/-- Whether the bracket of a node is empty is decided by its style and by what is left of its
    children. -/
theorem dropEmptyBrackets_lower_of_children
    (h : dropEmptyBrackets (lowerAll b n.children) = lowerAll b (pruneAll n.children)) :
    dropEmptyBrackets (n.lower b) = if n.isTrivial then [] else n.prune.lower b := by
  have hinside := ((parametric_recordsBalanced b).inside n).balanced
  have hempty : (n.prune.inside b).isEmpty = n.isTrivial := by
    rw [Bool.eq_iff_iff, List.isEmpty_iff, Node.inside_prune_eq_nil_iff]
  rw [Node.lower_eq, hinside.dropEmptyBrackets_bracketed, dropEmptyBrackets_inside h,
    Node.lower_eq, hempty]

/-- Balanced streams are simplified one by one. -/
theorem dropEmptyBrackets_lowerAll {ns : List Node}
    (h : ∀ n ∈ ns,
      dropEmptyBrackets (n.lower b) = if n.isTrivial then [] else n.prune.lower b) :
    dropEmptyBrackets (lowerAll b ns) = lowerAll b (pruneAll ns) := by
  induction ns with
  | nil => rfl
  | cons n rest ih =>
    obtain ⟨hn, hrest⟩ := List.forall_mem_cons.1 h
    have hbalanced := ((parametric_recordsBalanced b).lower n).balanced
    rw [lowerAll, hbalanced.dropEmptyBrackets_append, hn, ih hrest, pruneAll]
    split
    · rfl
    · rfl

end Node

/-- Dropping empty brackets is pruning, by recursion on the children. -/
theorem dropEmptyBrackets_lower (n : Node) :
    dropEmptyBrackets (n.lower b) = if n.isTrivial then [] else n.prune.lower b := by
  induction n using Node.parts_induction with
  | step n ih =>
    refine dropEmptyBrackets_lower_of_children (dropEmptyBrackets_lowerAll fun child hchild => ?_)
    exact ih child (List.mem_append_right _ hchild)

/-- Without its empty brackets, the stream of a node is that of the pruned node, unless the node is
    trivial: exactly then nothing is left of its stream. -/
theorem apply_lower_eq_lower_prune (n : Node) :
    ((⟨true, false⟩ : Simplifications).apply (n.lower b) = [] ↔ n.isTrivial = true) ∧
      (⟨true, false⟩ : Simplifications).apply (n.lower b) =
        if n.isTrivial then [] else n.prune.lower b := by
  have happly : (⟨true, false⟩ : Simplifications).apply (n.lower b) =
      if n.isTrivial then [] else n.prune.lower b := dropEmptyBrackets_lower b n
  refine ⟨?_, happly⟩
  rw [happly]
  cases n.isTrivial <;> simp [Node.lower_eq, bracketed]

end SceneCode
