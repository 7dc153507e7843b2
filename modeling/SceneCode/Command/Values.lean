import SceneCode.Command.Lowering

/-!
# Commands over scene values

The backend that keeps every scene value as it is: what a rasteriser would draw, and the
reference for every other backend. Numbers are compared as values, so `-0` agrees with `0`
and NaN with nothing.
-/

namespace SceneCode

/-- Keeps scene values; without layers if they are not wanted. -/
def Backend.values (layers : Bool) :
    Backend .scene (Mask .scene) (Pattern .scene) :=
  .nesting layers (.identity .scene)

/-- Scene values agree when the numbers in them are equal as values. -/
def Comparison.numeric : Comparison .scene where
  scalar := Binary.equals
  point := Point.agree Binary.equals
  size := Size.agree Binary.equals
  rect := Rect.agree Binary.equals
  matrix := Affine.agree Binary.equals
  color := Color.agree
  gradient := Gradient.agree
  path := Shape.agree
  image a b := decide (a = b)
  blendMode a b := decide (a = b)
  fillRule a b := decide (a = b)
  lineCap a b := decide (a = b)
  lineJoin a b := decide (a = b)

/-- The commands of a node over scene values. -/
def Node.commands (layers : Bool) (n : Node) : Drawing .scene :=
  n.lower (.values layers)

end SceneCode
