import SceneCode.Scene.Node

/-!
# Drawing commands

A drawing is a flat stream of commands. Brackets in the stream save and restore the drawing
state (`Bracket.state`), or enclose what is composited as a whole (`Bracket.layer`); between
them, commands transform the coordinate system, set the drawing state, or make marks.

What a colour or a path is, each backend decides for itself: commands are over a family of
types (`Resources`), and over the types of masks and patterns, which hold streams themselves.
The family of the scene's own values is `Resources.scene`.
-/

namespace SceneCode

/-- The types by which the values in commands are represented. -/
structure Resources where
  Scalar : Type
  Point : Type
  Size : Type
  Rect : Type
  Matrix : Type
  Color : Type
  Gradient : Type
  Path : Type
  Image : Type
  BlendMode : Type
  FillRule : Type
  LineCap : Type
  LineJoin : Type

/-- Scene values, each represented by itself. -/
@[reducible] def Resources.scene : Resources where
  Scalar := Single
  Point := SceneCode.Point Single
  Size := SceneCode.Size Single
  Rect := SceneCode.Rect Single
  Matrix := Affine Single
  Color := SceneCode.Color
  Gradient := SceneCode.Gradient
  Path := Shape
  Image := SceneCode.Image
  BlendMode := SceneCode.BlendMode
  FillRule := SceneCode.FillRule
  LineCap := SceneCode.LineCap
  LineJoin := SceneCode.LineJoin

/-- The kinds of brackets. -/
inductive Bracket
  | state
  | layer
  deriving DecidableEq

/-- A part of the drawing state that a command sets. -/
inductive Setting (R : Resources) (Mask Pattern : Type)
  | fill (color : R.Color)
  | fillPattern (pattern : Pattern)
  | stroke (color : R.Color)
  | lineWidth (width : R.Scalar)
  | lineCap (cap : R.LineCap)
  | lineJoin (join : R.LineJoin)
  | miterLimit (limit : R.Scalar)
  | clip (path : R.Path) (rule : R.FillRule)
  | clipMask (mask : Mask) (frame : R.Rect)
  | alpha (alpha : R.Scalar)
  | blendMode (mode : R.BlendMode)

/-- A mark on the drawing. -/
inductive Mark (R : Resources)
  | stroke (path : R.Path)
  | fill (path : R.Path) (rule : R.FillRule)
  | image (image : R.Image) (frame : R.Rect)
  | linearGradient (gradient : R.Gradient) (start stop : R.Point)
  | radialGradient (gradient : R.Gradient) (startCenter : R.Point) (startRadius : R.Scalar)
      (endCenter : R.Point) (endRadius : R.Scalar)

/-- A drawing command. What it changes lasts until the enclosing bracket is closed. -/
inductive Command (R : Resources) (Mask Pattern : Type)
  | push (bracket : Bracket)
  | pop (bracket : Bracket)
  | transform (step : Transform R.Scalar R.Matrix)
  | set (setting : Setting R Mask Pattern)
  | mark (mark : Mark R)

namespace Command

variable {R : Resources} {Mask Pattern : Type}

/-- The bracket that a command opens. -/
def opens? : Command R Mask Pattern → Option Bracket
  | push bracket => some bracket
  | _ => none

/-- The bracket that a command closes. -/
def closes? : Command R Mask Pattern → Option Bracket
  | pop bracket => some bracket
  | _ => none

def isPush (c : Command R Mask Pattern) : Bool := c.opens?.isSome

def isPop (c : Command R Mask Pattern) : Bool := c.closes?.isSome

/-- Whether a command makes a mark. -/
def isMark : Command R Mask Pattern → Bool
  | mark _ => true
  | _ => false

end Command

end SceneCode
