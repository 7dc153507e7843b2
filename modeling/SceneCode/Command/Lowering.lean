import SceneCode.Command.Nested

/-!
# Lowering scenes

Lowering flattens the tree of a scene to a stream of commands. Each node becomes one saved
state: in it the node's transforms, clip and style are set, and then its children and its own
content are drawn. What is set for a node thus never reaches its siblings.

Setting the alpha replaces the alpha in force, it does not multiply with it. So a node that is
not opaque draws its children and content in a layer, which starts at alpha one and is
composited as a whole; so does a node that is isolated. On a backend without layers, alpha and
blend mode apply to each mark by itself.

A backend says how scene values are represented in commands, and what becomes of the streams of
masks and patterns, which are lowered by themselves.
-/

namespace SceneCode

/-- A target of lowering. -/
structure Backend (R : Resources) (Mask Pattern : Type) where
  /-- Whether layers can be used. -/
  layers : Bool
  /-- How scene values are represented. -/
  represent : Representation .scene R
  /-- A mask, of a stream and the size of the surface it is drawn on. -/
  mask : List (Command R Mask Pattern) → Size Single → Mask
  /-- A pattern, of its tile and its nodes in the scene, and the stream that they are lowered to. -/
  pattern : Rect Single → List Node → List (Command R Mask Pattern) → Pattern

/-- The backend that keeps the streams of masks and patterns. -/
def Backend.nesting {R : Resources} (layers : Bool) (represent : Representation .scene R) :
    Backend R (Mask R) (Pattern R) where
  layers
  represent
  mask contents size := .of contents (represent.size size)
  pattern tile _ contents := .of (represent.rect tile) contents

variable {R : Resources} {Mask Pattern : Type} (b : Backend R Mask Pattern)

namespace Backend

/-- The commands that set up a stroke. -/
def strokeCommands (stroke : Stroke) : List (Command R Mask Pattern) :=
  [.set (.stroke (b.represent.color stroke.color)),
    .set (.lineWidth (b.represent.scalar stroke.width)),
    .set (.lineCap (b.represent.lineCap stroke.cap)),
    .set (.lineJoin (b.represent.lineJoin stroke.join)),
    .set (.miterLimit (b.represent.scalar stroke.miterLimit))]

/-- The command for an opacity: none for an opaque node. -/
def opacityCommands (opacity : Single) : List (Command R Mask Pattern) :=
  if opacity < 1 then [.set (.alpha (b.represent.scalar opacity))] else []

/-- The command for a blend mode: none for the normal one. -/
def blendCommands (mode : BlendMode) : List (Command R Mask Pattern) :=
  if mode = .normal then [] else [.set (.blendMode (b.represent.blendMode mode))]

/-- The marks of some content: a shape is filled if there is a rule for that, and then its
    outline drawn if it is stroked. -/
def marks (fillRule? : Option FillRule) (stroked : Bool) : Content → List (Mark R)
  | .shape shape =>
    let path := b.represent.path shape
    (fillRule?.map fun rule => .fill path (b.represent.fillRule rule)).toList ++
      if stroked then [.stroke path] else []
  | .image image frame => [.image (b.represent.image image) (b.represent.rect frame)]
  | .linearGradient gradient start stop =>
    [.linearGradient (b.represent.gradient gradient) (b.represent.point start)
      (b.represent.point stop)]
  | .radialGradient gradient startCenter startRadius endCenter endRadius =>
    [.radialGradient (b.represent.gradient gradient) (b.represent.point startCenter)
      (b.represent.scalar startRadius) (b.represent.point endCenter)
      (b.represent.scalar endRadius)]

end Backend

/-- Whether a node with the given parts is drawn as a layer, where layers can be used: if it is
    isolated, or is not opaque and has something to draw. -/
def wantsLayer (isolated : Bool) (opacity : Single) (content : Option Content)
    (children : List Node) : Bool :=
  isolated || (opacity < 1 && (!children.isEmpty || content.isSome))

/-- Commands in a bracket. -/
def bracketed (bracket : Bracket) (commands : List (Command R Mask Pattern)) :
    List (Command R Mask Pattern) :=
  .push bracket :: (commands ++ [.pop bracket])

mutual

/-- The stream of commands that draws a node. -/
def Node.lower : Node → List (Command R Mask Pattern)
  | ⟨transforms, clip, opacity, blendMode, isolated, fill, stroke, content, children⟩ =>
    let style :=
      transforms.map (fun step => .transform (step.map b.represent.scalar b.represent.matrix)) ++
      clipCommands clip ++
      b.opacityCommands opacity ++
      b.blendCommands blendMode ++
      fillCommands fill ++
      stroke.toList.flatMap b.strokeCommands
    let drawn :=
      lowerAll children ++
      (content.toList.flatMap (b.marks (fill.map Fill.rule) stroke.isSome)).map .mark
    bracketed .state
      (style ++
        if wantsLayer isolated opacity content children && b.layers then bracketed .layer drawn
        else drawn)
termination_by structural n => n

/-- The stream of commands that draws some nodes, one after the other. -/
def lowerAll : List Node → List (Command R Mask Pattern)
  | [] => []
  | n :: rest => n.lower ++ lowerAll rest
termination_by structural ns => ns

/-- The command for a clip. A mask is drawn in coordinates of its own, so it has a stream of
    its own. -/
def clipCommands : Option (Clip Node) → List (Command R Mask Pattern)
  | none => []
  | some (.shape shape rule) =>
    [.set (.clip (b.represent.path shape) (b.represent.fillRule rule))]
  | some (.mask content frame) =>
    [.set (.clipMask (b.mask content.lower frame.size) (b.represent.rect frame))]
termination_by structural c => c

/-- The command for a fill. -/
def fillCommands : Option (Fill Node) → List (Command R Mask Pattern)
  | none => []
  | some ⟨.color color, _⟩ => [.set (.fill (b.represent.color color))]
  | some ⟨.pattern tile content, _⟩ =>
    [.set (.fillPattern (b.pattern tile content (lowerAll content)))]
termination_by structural f => f

end

end SceneCode
