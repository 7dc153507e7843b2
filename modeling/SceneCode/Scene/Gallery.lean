import SceneCode.Number.Trigonometry
import SceneCode.Scene.Node

/-!
# A gallery of scenes

Small scenes, each of which shows another part of what scenes can hold.
-/

namespace SceneCode.Gallery

private def point (x y : Single) : Point Single := ⟨x, y⟩

private def rect (x y width height : Single) : Rect Single := ⟨⟨x, y⟩, ⟨width, height⟩⟩

/-- A rectangle without rounded corners. -/
private def plainRect (x y width height : Single) : Shape := .rect (rect x y width height) ⟨0, 0⟩

/-- Nothing at all, in a group in a group. -/
def empty : Scene where
  size := ⟨10, 10⟩
  root := .group [.group []]

/-- Two squares of the same translucent colour. -/
def twoSquares : Scene where
  size := ⟨30, 10⟩
  root := .group (([0, 20] : List Single).map fun x =>
    (Node.ofShape (plainRect x 0 10 10)).withFillColor (.rgb 255 128 0 0.5))

/-- From red to white. -/
private def twoStops : Gradient := ⟨[⟨0, .opaqueRgb 255 0 0⟩, ⟨1, .gray 1 1⟩]⟩

def linearGradient : Scene where
  size := ⟨100, 50⟩
  root := .group [
    (Node.ofContent (.linearGradient twoStops (point 0 0) (point 100 0))).withClip
      (.shape (.rect (rect 0 0 100 50) ⟨8, 8⟩) .nonZero)]

def radialGradient : Scene where
  size := ⟨64, 64⟩
  root := .group [
    (Node.ofContent (.radialGradient twoStops (point 32 32) 0 (point 32 32) 32)).withClip
      (.shape (.ellipse (rect 0 0 64 64)) .nonZero)]

/-- A board filled with a pattern of two squares. -/
def checkerboard : Scene where
  size := ⟨32, 32⟩
  root :=
    let cell (x y : Single) :=
      (Node.ofShape (plainRect x y 4 4)).withFillColor (.opaqueRgb 0 0 0)
    .group [
      ((Node.ofShape (plainRect 0 0 32 32)).withFill
        ⟨.pattern (rect 0 0 8 8) [cell 0 0, cell 4 4], .nonZero⟩).withStroke
          { color := .opaqueRgb 0 0 0, width := 1 }]

/-- Half a turn. -/
def halfTurn : Single := 3.14159265358979323846

/-- Two circles with every style that a group can have. -/
def fadedBadge : Scene where
  size := ⟨40, 30⟩
  root :=
    let circle (x : Single) (color : Color) :=
      (Node.ofShape (.ellipse (rect x 0 20 20))).withFillColor color
    let circles :=
      Node.group [circle 0 (.opaqueRgb 200 0 0), circle 10 (.opaqueRgb 0 0 200)]
    .group [
      (circles
        |>.withTransform (.matrix ⟨1, 0, 0, 1, 5, 5⟩)
        |>.withTransform (.rotate (halfTurn / 12))
        |>.withClip (.shape (plainRect 0 0 25 20) .evenOdd)
        |>.withOpacity 0.5
        |>.withBlendMode .sourceIn
        |>.isolate)]

/-- An image behind a mask. The image is the signature of a file format and nothing more. -/
def maskedPhoto : Scene where
  size := ⟨32, 32⟩
  root :=
    let frame := rect 0 0 16 16
    let lens := (Node.ofShape (.ellipse frame)).withFillColor (.gray 1 1)
    let signature : Image := ⟨[0x89, 0x50, 0x4E, 0x47, 0x0D, 0x0A, 0x1A, 0x0A]⟩
    .group [
      (Node.ofContent (.image signature frame)
        |>.withTransform (.scale 2 2)
        |>.withClip (.mask lens frame))]

/-! ## Stars -/

/-- A corner of a star with so many points: the even ones are the points, the odd ones lie
    between them. The first point is at the top. -/
def starCorner (points i : Nat) : Point Single :=
  let radius : Single := if i % 2 = 0 then 20 else 8
  let angle := halfTurn * .ofScaled false i 0 / .ofScaled false points 0 - halfTurn / 2
  ⟨radius * Trigonometry.cosine angle, radius * Trigonometry.sine angle⟩

/-- The side between two corners, bent outwards a little. -/
def starSide (a b : Point Single) : Segment :=
  let bend (x y : Single) : Single := (x + y) * 0.5 * 1.1
  let control : Point Single := ⟨bend a.x b.x, bend a.y b.y⟩
  .cubic b control control

/-- The outline of a star through its corners. -/
def starOutline : List (Point Single) → List Segment
  | [] => []
  | first :: rest =>
    .move first :: (List.zipWith starSide (first :: rest) rest ++ [.close])

/-- A star with so many points, moved to the origin; a star has at least one point. -/
def star? (points : Nat) : Option Scene :=
  if points = 0 then none
  else
    let shape := Shape.path (starOutline ((List.range (2 * points)).map (starCorner points)))
    shape.controlBounds?.map fun bounds =>
      { size := bounds.size
        root := .group [
          (Node.ofShape shape
            |>.withFillColor (.opaqueRgb 255 215 0)
            |>.withStroke
              { color := .opaqueRgb 120 80 0, width := 1.5, cap := .round, join := .round }
            |>.withTransform (.translate (-bounds.origin.x) (-bounds.origin.y)))] }

/-- All scenes, with their titles. -/
def all : List (String × Scene) := [
  ("empty", empty),
  ("two squares", twoSquares),
  ("linear gradient", linearGradient),
  ("radial gradient", radialGradient),
  ("checkerboard", checkerboard),
  ("faded badge", fadedBadge),
  ("masked photo", maskedPhoto)] ++
  (star? 5).toList.map fun scene => ("star", scene)

end SceneCode.Gallery
