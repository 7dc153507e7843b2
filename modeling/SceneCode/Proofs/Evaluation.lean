import SceneCode.Command.Lowering
import SceneCode.Proofs.Replay

/-!
# What a scene draws

What a node draws can be read off the tree, without any stream of commands (`Node.events`). A
node draws in the state of its parent, changed by its own transformations, clip and style
(`Node.environment`); first its children are drawn in that state, one over the other, and then
its own content. Around all of that there may be a layer (`Node.IsLayer`). The state is handed
down only: nothing that a node does to it is seen by its siblings.

Lowering has no such scopes. It sets the state of a node on the machine before the children run,
and draws the node's own content after them. This comes to the same because every node restores
the state that it found: replaying a lowered node draws the events of the node, and leads back to
the state it started from (`replay_lower_eq`).
-/

namespace SceneCode

variable {R : Resources} {Mask Pattern : Type} (b : Backend R Mask Pattern)

/-! ## The state of a node -/

/-- What a clip lets through. A mask is what the backend makes of the stream of its content. -/
def Clip.source : Clip Node → ClipSource R Mask
  | .shape outline rule => .path (b.represent.path outline) (b.represent.fillRule rule)
  | .mask content frame => .mask (b.mask (content.lower b) frame.size) (b.represent.rect frame)

/-- What a paint fills with. A pattern is what the backend makes of the stream of its content. -/
def Paint.source : Paint Node → FillSource R Pattern
  | .color c => .color (b.represent.color c)
  | .pattern tile content => .pattern (b.pattern tile content (lowerAll b content))

namespace Node

/-- The state in which a node draws, by that of its parent. The clip is set after the node's own
    transformations. -/
def environment (n : Node) (s : DrawingState R Mask Pattern) : DrawingState R Mask Pattern :=
  let transforms := s.transforms ++
    n.transforms.map fun step => step.map b.represent.scalar b.represent.matrix
  { transforms
    clips := s.clips ++ (n.clip.map fun clip => ⟨clip.source b, transforms⟩).toList
    alpha := if n.opacity < 1 then b.represent.scalar n.opacity else s.alpha
    blendMode := if n.blendMode = .normal then s.blendMode else b.represent.blendMode n.blendMode
    fill := (n.fill.map fun fill => fill.paint.source b).getD s.fill
    stroke := (n.stroke.map fun stroke => b.represent.color stroke.color).getD s.stroke
    lineWidth := (n.stroke.map fun stroke => b.represent.scalar stroke.width).getD s.lineWidth
    lineCap := (n.stroke.map fun stroke => b.represent.lineCap stroke.cap).getD s.lineCap
    lineJoin := (n.stroke.map fun stroke => b.represent.lineJoin stroke.join).getD s.lineJoin
    miterLimit :=
      (n.stroke.map fun stroke => b.represent.scalar stroke.miterLimit).getD s.miterLimit }

/-- A node is drawn as a layer, where layers can be used, if it is isolated, or if it is not
    opaque and has anything to draw. -/
def IsLayer (n : Node) : Prop :=
  n.isolated = true ∨ n.opacity < 1 ∧ (n.children ≠ [] ∨ n.content ≠ none)

/-- The marks of a node's own content. A shape is filled if the node has a fill, by the rule of
    the fill, and after that stroked if the node has a stroke. -/
def contentMarks (n : Node) : List (Mark R) :=
  match n.content with
  | none => []
  | some (.shape shape) =>
    let path := b.represent.path shape
    (n.fill.map fun fill => .fill path (b.represent.fillRule fill.rule)).toList ++
      (n.stroke.map fun _ => .stroke path).toList
  | some (.image image frame) => [.image (b.represent.image image) (b.represent.rect frame)]
  | some (.linearGradient gradient start stop) =>
    [.linearGradient (b.represent.gradient gradient) (b.represent.point start)
      (b.represent.point stop)]
  | some (.radialGradient gradient startCenter startRadius endCenter endRadius) =>
    [.radialGradient (b.represent.gradient gradient) (b.represent.point startCenter)
      (b.represent.scalar startRadius) (b.represent.point endCenter)
      (b.represent.scalar endRadius)]

instance (n : Node) : Decidable n.IsLayer := by
  unfold IsLayer
  infer_instance

end Node

/-! ## Events -/

/-- Layers start at alpha one and in the normal blend mode, as the backend represents them. -/
def Backend.layering (keepsEmpty : DrawingState R Mask Pattern → Bool) :
    Layering R Mask Pattern where
  alpha := b.represent.scalar 1
  blendMode := b.represent.blendMode .normal
  keepsEmpty

mutual

/-- What a node draws, given the state of its parent. -/
def Node.events (l : Layering R Mask Pattern) (s : DrawingState R Mask Pattern) :
    Node → List (Event R Mask Pattern)
  | ⟨transforms, clip, opacity, blendMode, isolated, fill, stroke, content, children⟩ =>
    let n : Node :=
      ⟨transforms, clip, opacity, blendMode, isolated, fill, stroke, content, children⟩
    let bracket : Bracket := if b.layers ∧ n.IsLayer then .layer else .state
    let outer := n.environment b s
    let inner := l.inside outer bracket
    l.enclose outer
      (eventsAll l inner children ++ (n.contentMarks b).map (.mark · inner)) bracket
termination_by structural n => n

/-- What some nodes draw, one after the other, given the state of their parent. -/
def eventsAll (l : Layering R Mask Pattern) (s : DrawingState R Mask Pattern) :
    List Node → List (Event R Mask Pattern)
  | [] => []
  | n :: rest => n.events l s ++ eventsAll l s rest
termination_by structural ns => ns

end

/-! ## Setting the state of a node -/

section Run

variable {l : Layering R Mask Pattern} {s : DrawingState R Mask Pattern}
  {opened : List (OpenBracket R Mask Pattern)} {events : List (Event R Mask Pattern)}

/-- Steps of transformation are added to the state in their order. -/
theorem run_transforms (steps : List (Transform Single (Affine Single))) :
    Replay.run l ⟨s, opened, events⟩
        (steps.map fun step => .transform (step.map b.represent.scalar b.represent.matrix)) =
      ⟨{ s with transforms := s.transforms ++
          steps.map fun step => step.map b.represent.scalar b.represent.matrix },
        opened, events⟩ := by
  induction steps generalizing s with
  | nil => rw [List.map_nil, List.map_nil, List.append_nil, Replay.run_nil]
  | cons step steps ih =>
    rw [List.map_cons, Replay.run_cons, Replay.step, ih, DrawingState.transform]
    simp

/-- A clip is added to the state, and nothing is drawn. -/
theorem run_clipCommands (clip : Option (Clip Node)) :
    Replay.run l ⟨s, opened, events⟩ (clipCommands b clip) =
      ⟨{ s with clips := s.clips ++ (clip.map fun c => ⟨c.source b, s.transforms⟩).toList },
        opened, events⟩ := by
  cases clip with
  | none => simp [clipCommands]
  | some clip => cases clip <;> rfl

theorem run_opacityCommands (opacity : Single) :
    Replay.run l ⟨s, opened, events⟩ (b.opacityCommands opacity) =
      ⟨{ s with alpha := if opacity < 1 then b.represent.scalar opacity else s.alpha },
        opened, events⟩ := by
  by_cases h : opacity < 1
  · rw [Backend.opacityCommands, if_pos h, if_pos h]
    rfl
  · rw [Backend.opacityCommands, if_neg h, if_neg h]
    rfl

theorem run_blendCommands (mode : BlendMode) :
    Replay.run l ⟨s, opened, events⟩ (b.blendCommands mode) =
      ⟨{ s with blendMode := if mode = .normal then s.blendMode else b.represent.blendMode mode },
        opened, events⟩ := by
  by_cases h : mode = .normal
  · rw [Backend.blendCommands, if_pos h, if_pos h]
    rfl
  · rw [Backend.blendCommands, if_neg h, if_neg h]
    rfl

/-- A fill replaces the one of the state. -/
theorem run_fillCommands (fill : Option (Fill Node)) :
    Replay.run l ⟨s, opened, events⟩ (fillCommands b fill) =
      ⟨{ s with fill := (fill.map fun f => f.paint.source b).getD s.fill }, opened, events⟩ := by
  match fill with
  | none => rfl
  | some ⟨.color _, _⟩ => rfl
  | some ⟨.pattern _ _, _⟩ => rfl

/-- The commands that set the state of a node lead to that state. -/
theorem run_style (n : Node) :
    Replay.run l ⟨s, opened, events⟩
        (n.transforms.map (fun step =>
            .transform (step.map b.represent.scalar b.represent.matrix)) ++
          clipCommands b n.clip ++ b.opacityCommands n.opacity ++ b.blendCommands n.blendMode ++
          fillCommands b n.fill ++ n.stroke.toList.flatMap b.strokeCommands) =
      ⟨n.environment b s, opened, events⟩ := by
  simp only [Replay.run_append, run_transforms, run_clipCommands, run_opacityCommands,
    run_blendCommands, run_fillCommands]
  cases h : n.stroke <;> simp [Node.environment, h] <;> rfl

end Run

/-! ## Drawing -/

/-- From every state, the commands draw the events of that state, and restore the state and the
    stack. -/
def Draws (l : Layering R Mask Pattern) (commands : List (Command R Mask Pattern))
    (drawn : DrawingState R Mask Pattern → List (Event R Mask Pattern)) : Prop :=
  ∀ s opened events,
    Replay.run l ⟨s, opened, events⟩ commands = ⟨s, opened, events ++ drawn s⟩

namespace Draws

variable {l : Layering R Mask Pattern} {first second : List (Command R Mask Pattern)}
  {drawn drawn' : DrawingState R Mask Pattern → List (Event R Mask Pattern)}

theorem nil : Draws l ([] : List (Command R Mask Pattern)) fun _ => [] :=
  fun _ _ _ => by rw [Replay.run_nil, List.append_nil]

/-- Streams draw one after the other, from the same state. -/
theorem append (h : Draws l first drawn) (h' : Draws l second drawn') :
    Draws l (first ++ second) fun s => drawn s ++ drawn' s := by
  intro s opened events
  rw [Replay.run_append, h, h', List.append_assoc]

theorem marks (marks : List (Mark R)) :
    Draws l (marks.map .mark : List (Command R Mask Pattern)) fun s => marks.map (.mark · s) := by
  induction marks with
  | nil => exact nil
  | cons mark marks ih =>
    have hmark : Draws l [(.mark mark : Command R Mask Pattern)] fun s => [.mark mark s] :=
      fun _ _ _ => rfl
    exact hmark.append ih

/-- What is drawn in a layer is drawn in the state that layers start with, and composed with what is
    around it. -/
theorem layer (h : Draws l first drawn) :
    Draws l (bracketed .layer first) fun s =>
      l.enclose s (drawn (l.inside s .layer)) .layer :=
  fun s _ _ => Replay.run_bracketed (h (l.inside s .layer) _ [])

/-- In a saved state, commands can be drawn in a state that is set before them. -/
theorem saved {style : List (Command R Mask Pattern)}
    {set : DrawingState R Mask Pattern → DrawingState R Mask Pattern}
    (hstyle : ∀ s opened events,
      Replay.run l ⟨s, opened, events⟩ style = ⟨set s, opened, events⟩)
    (h : Draws l first drawn) :
    Draws l (bracketed .state (style ++ first)) fun s => drawn (set s) := by
  intro s opened events
  have hinside : Replay.run l ⟨s, ⟨.state, s, events⟩ :: opened, []⟩ (style ++ first) =
      ⟨set s, ⟨.state, s, events⟩ :: opened, drawn (set s)⟩ := by
    rw [Replay.run_append, hstyle, h, List.nil_append]
  exact Replay.run_bracketed hinside

end Draws

/-! ## Lowered nodes -/

/-- The marks of the content are those that the evaluator draws. -/
theorem contentMarks_eq (n : Node) :
    n.content.toList.flatMap (b.marks (n.fill.map Fill.rule) n.stroke.isSome) =
      n.contentMarks b := by
  rw [Node.contentMarks]
  match n.content with
  | none => rfl
  | some (.shape _) => cases n.fill <;> cases n.stroke <;> rfl
  | some (.image _ _) => rfl
  | some (.linearGradient _ _ _) => rfl
  | some (.radialGradient _ _ _ _ _) => rfl

/-- Lowering uses a layer where the evaluator does. -/
theorem wantsLayer_iff (n : Node) :
    (wantsLayer n.isolated n.opacity n.content n.children && b.layers) = true ↔
      b.layers ∧ n.IsLayer := by
  rw [wantsLayer, Node.IsLayer]
  cases n.children <;> cases n.content <;> simp [and_comm]

/-- What is inside the saved state of a node: its state is set, and then its children and its
    content are drawn, in a layer or not. -/
def Node.inside (n : Node) : List (Command R Mask Pattern) :=
  (n.transforms.map (fun step =>
      .transform (step.map b.represent.scalar b.represent.matrix)) ++
    clipCommands b n.clip ++ b.opacityCommands n.opacity ++ b.blendCommands n.blendMode ++
    fillCommands b n.fill ++ n.stroke.toList.flatMap b.strokeCommands) ++
  let drawn := lowerAll b n.children ++
    (n.content.toList.flatMap (b.marks (n.fill.map Fill.rule) n.stroke.isSome)).map .mark
  if wantsLayer n.isolated n.opacity n.content n.children && b.layers then bracketed .layer drawn
  else drawn

/-- The stream of a node is a saved state. -/
theorem Node.lower_eq (n : Node) : n.lower b = bracketed .state (n.inside b) := by
  cases n
  rfl

/-- A node draws what is inside, in its own state, and in a layer if it has one. -/
theorem Node.events_eq (l : Layering R Mask Pattern) (n : Node)
    (s : DrawingState R Mask Pattern) :
    n.events b l s =
      let bracket : Bracket := if b.layers ∧ n.IsLayer then .layer else .state
      let inner := l.inside (n.environment b s) bracket
      l.enclose (n.environment b s)
        (eventsAll b l inner n.children ++ (n.contentMarks b).map (.mark · inner)) bracket := by
  cases n
  rfl

/-- A lowered node draws what the node draws, if its lowered children do. -/
theorem draws_lower_of_children (l : Layering R Mask Pattern) (n : Node)
    (h : Draws l (lowerAll b n.children) fun s => eventsAll b l s n.children) :
    Draws l (n.lower b) fun s => n.events b l s := by
  have hdrawn : Draws l (lowerAll b n.children ++
      (n.content.toList.flatMap (b.marks (n.fill.map Fill.rule) n.stroke.isSome)).map .mark)
      fun s => eventsAll b l s n.children ++ (n.contentMarks b).map (.mark · s) := by
    rw [contentMarks_eq]
    exact h.append (.marks _)
  intro s opened events
  change _ = (⟨s, opened, events ++ n.events b l s⟩ : Replay R Mask Pattern)
  rw [Node.lower_eq, Node.inside, Node.events_eq]
  by_cases hlayer : b.layers ∧ n.IsLayer
  -- The layer is opened in the state of the node, after its style has been set.
  · rw [if_pos ((wantsLayer_iff b n).2 hlayer), if_pos hlayer]
    exact Draws.saved (fun _ _ _ => run_style b n) hdrawn.layer s opened events
  · rw [if_neg fun h => hlayer ((wantsLayer_iff b n).1 h), if_neg hlayer]
    exact Draws.saved (fun _ _ _ => run_style b n) hdrawn s opened events

mutual

/-- A lowered node draws what the node draws. -/
theorem draws_lower (l : Layering R Mask Pattern) :
    ∀ n : Node, Draws l (n.lower b) fun s => n.events b l s
  | ⟨transforms, clip, opacity, blendMode, isolated, fill, stroke, content, children⟩ =>
    draws_lower_of_children b l
      ⟨transforms, clip, opacity, blendMode, isolated, fill, stroke, content, children⟩
      (draws_lowerAll l children)

/-- Nodes draw one after the other, by recursion on the nodes. -/
theorem draws_lowerAll (l : Layering R Mask Pattern) :
    ∀ ns : List Node, Draws l (lowerAll b ns) fun s => eventsAll b l s ns
  | [] => Draws.nil
  | n :: rest => (draws_lower l n).append (draws_lowerAll l rest)

end

/-- Replaying a lowered node draws what the node draws, and leads back to the state that it
    started from; whichever layers are recorded. -/
theorem replay_lower_eq (keepsEmpty : DrawingState R Mask Pattern → Bool) (n : Node)
    (s : DrawingState R Mask Pattern) :
    replay (b.layering keepsEmpty) s (n.lower b) =
      { state := s, opened := [], events := n.events b (b.layering keepsEmpty) s } :=
  draws_lower b (b.layering keepsEmpty) n s [] []

end SceneCode
