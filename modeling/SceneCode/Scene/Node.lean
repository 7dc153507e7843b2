import SceneCode.Scene.Shape
import SceneCode.Scene.Style

/-!
# Scenes

A scene is a tree of nodes. Every length is absolute and every style stands on the node that
uses it, so a node can be drawn without looking at its ancestors.

Nodes occur inside nodes in four places: as children, as the content of a mask, and as the
content of a pattern. What holds nodes is a type over the type of nodes, so that the tree is a
single recursive type.
-/

namespace SceneCode

/-- What a node is clipped to: the inside of a shape, or what a drawing lets through when it is
    laid over a frame. -/
inductive Clip (Node : Type)
  | shape (shape : Shape) (rule : FillRule)
  | mask (content : Node) (frame : Rect Single)

/-- What an area is filled with: a colour, or a tile that is repeated in both directions. -/
inductive Paint (Node : Type)
  | color (color : Color)
  | pattern (tile : Rect Single) (content : List Node)

structure Fill (Node : Type) where
  paint : Paint Node
  rule : FillRule := .nonZero

/-- What a node draws by itself. A shape is painted with the fill and the stroke of the node. -/
inductive Content
  | shape (shape : Shape)
  | image (image : Image) (frame : Rect Single)
  | linearGradient (gradient : Gradient) (start stop : Point Single)
  | radialGradient (gradient : Gradient) (startCenter : Point Single) (startRadius : Single)
      (endCenter : Point Single) (endRadius : Single)

/-- A node of a scene: its style, and what is drawn with it. -/
structure Node where
  transforms : List (Transform Single (Affine Single)) := []
  clip : Option (Clip Node) := none
  opacity : Single := 1
  blendMode : BlendMode := .normal
  isolated : Bool := false
  fill : Option (Fill Node) := none
  stroke : Option Stroke := none
  content : Option Content := none
  children : List Node := []

structure Scene where
  size : Size Single
  root : Node

namespace Node

/-- A node that draws its children one over the other. -/
def group (children : List Node) : Node := { children }

/-- A node that draws some content. -/
def ofContent (content : Content) : Node := { content := some content }

/-- A node that draws a shape. -/
def ofShape (shape : Shape) : Node := ofContent (.shape shape)

def withFill (fill : Fill Node) (n : Node) : Node := { n with fill := some fill }

def withFillColor (color : Color) (n : Node) : Node := n.withFill ⟨.color color, .nonZero⟩

def withStroke (stroke : Stroke) (n : Node) : Node := { n with stroke := some stroke }

/-- Transforms the node by a further step, inside the steps before it. -/
def withTransform (step : Transform Single (Affine Single)) (n : Node) : Node :=
  { n with transforms := n.transforms ++ [step] }

def withClip (clip : Clip Node) (n : Node) : Node := { n with clip := some clip }

def withOpacity (opacity : Single) (n : Node) : Node := { n with opacity }

def withBlendMode (blendMode : BlendMode) (n : Node) : Node := { n with blendMode }

/-- Composites the node as a whole. -/
def isolate (n : Node) : Node := { n with isolated := true }

end Node

end SceneCode
