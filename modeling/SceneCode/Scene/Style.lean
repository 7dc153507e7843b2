import SceneCode.Geometry

/-!
# Styles

The values that say how something is painted. Colours and gradients agree when the numbers in
them are equal as values: zeros are alike, and a colour with a NaN in it agrees with nothing.
-/

namespace SceneCode

/-- How what is painted combines with what is already there. -/
inductive BlendMode
  | normal
  | copy
  | sourceIn
  | destinationIn
  deriving DecidableEq

/-- Which points a path that crosses itself encloses. -/
inductive FillRule
  | nonZero
  | evenOdd
  deriving DecidableEq

/-- The shape of the two ends of a line. -/
inductive LineCap
  | butt
  | round
  | square
  deriving DecidableEq

/-- The shape of the corners of a line. -/
inductive LineJoin
  | bevel
  | round
  | miter
  deriving DecidableEq

/-- A colour: none at all, red, green and blue in 255ths, or a shade of gray. -/
inductive Color
  | clear
  | rgb (red green blue : UInt8) (alpha : Single)
  | gray (white alpha : Single)
  deriving DecidableEq

/-- A colour of a gradient, at an offset along it. -/
structure GradientStop where
  offset : Single
  color : Color
  deriving DecidableEq

structure Gradient where
  stops : List GradientStop
  deriving DecidableEq

/-- How an outline is drawn. The miter limit is the greatest length of a mitered corner, as a
    multiple of the width. -/
structure Stroke where
  color : Color
  width : Single
  cap : LineCap := .butt
  join : LineJoin := .miter
  miterLimit : Single := 4
  deriving DecidableEq

/-- A picture in some file format, which is not looked into. -/
structure Image where
  bytes : List UInt8
  deriving DecidableEq

namespace Color

/-- The opaque colour. -/
def opaqueRgb (red green blue : UInt8) : Color := .rgb red green blue 1

def agree : Color → Color → Bool
  | .clear, .clear => true
  | .rgb r g b a, .rgb r' g' b' a' => r == r' && g == g' && b == b' && a.equals a'
  | .gray w a, .gray w' a' => w.equals w' && a.equals a'
  | _, _ => false

end Color

def GradientStop.agree (s t : GradientStop) : Bool :=
  s.offset.equals t.offset && s.color.agree t.color

def Gradient.agree (g h : Gradient) : Bool := g.stops.isEqv h.stops GradientStop.agree

end SceneCode
