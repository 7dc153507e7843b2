import SceneCode.Geometry

/-!
# Shapes

The outlines that can be painted or clipped to. Shapes agree when the numbers in them are equal
as values.
-/

namespace SceneCode

/-- A piece of a path. -/
inductive Segment
  | move (target : Point Single)
  | line (target : Point Single)
  | cubic (target control1 control2 : Point Single)
  | close
  deriving DecidableEq

inductive Shape
  | lines (points : List (Point Single))
  | rect (frame : Rect Single) (radii : Size Single)
  | ellipse (frame : Rect Single)
  | path (segments : List Segment)
  | polygon (points : List (Point Single))
  deriving DecidableEq

/-- The points that define a segment. -/
def Segment.points : Segment → List (Point Single)
  | .move p => [p]
  | .line p => [p]
  | .cubic p c1 c2 => [c1, c2, p]
  | .close => []

/-- The smallest rectangle around the points that define a shape, control points included. -/
def Shape.controlBounds? : Shape → Option (Rect Single)
  | .lines points => Rect.around? points
  | .polygon points => Rect.around? points
  | .rect frame _ => some frame
  | .ellipse frame => some frame
  | .path segments => Rect.around? (segments.flatMap Segment.points)

def Segment.agree : Segment → Segment → Bool
  | .move p, .move q => p.agree Binary.equals q
  | .line p, .line q => p.agree Binary.equals q
  | .cubic p c1 c2, .cubic q d1 d2 =>
    p.agree Binary.equals q && c1.agree Binary.equals d1 && c2.agree Binary.equals d2
  | .close, .close => true
  | _, _ => false

def Shape.agree : Shape → Shape → Bool
  | .lines ps, .lines qs => ps.isEqv qs (Point.agree Binary.equals)
  | .rect r radii, .rect s radii' => r.agree Binary.equals s && radii.agree Binary.equals radii'
  | .ellipse r, .ellipse s => r.agree Binary.equals s
  | .path ss, .path ts => ss.isEqv ts Segment.agree
  | .polygon ps, .polygon qs => ps.isEqv qs (Point.agree Binary.equals)
  | _, _ => false

end SceneCode
