import SceneCode.Command.Lowering
import SceneCode.Swift.Literal
import SceneCode.Text.Base64

/-!
# Drawing resources of the generated code

Colours, gradients and paths as the drawing library takes them, with the expressions of what they
are made of, and how scene values are represented by them. Coordinates are literals, rounded
when they are represented. Blend modes and the like are keywords: texts that stand in the code as
they are.

The drawing library knows a colour by its space and components. All colours of a gradient have
to be in one space, so there a shade of gray is given by its three equal components.
-/

namespace SceneCode.Swift

/-- The texts, with a separator between them. -/
def joined (separator : String) : List String → String
  | [] => ""
  | [text] => text
  | text :: rest => text ++ separator ++ joined separator rest

/-- The texts as a list in source text. -/
def listText (items : List String) : String := "[" ++ joined ", " items ++ "]"

/-! ## Expressions of geometry -/

def pointText (p : Point Literal) : String := s!"CGPoint(x: {p.x}, y: {p.y})"

def sizeText (s : Size Literal) : String := s!"CGSize(width: {s.width}, height: {s.height})"

def rectText (r : Rect Literal) : String :=
  s!"CGRect(x: {r.origin.x}, y: {r.origin.y}, width: {r.size.width}, height: {r.size.height})"

def matrixText (m : Affine Literal) : String :=
  s!"CGAffineTransform(a: {m.a}, b: {m.b}, c: {m.c}, d: {m.d}, tx: {m.tx}, ty: {m.ty})"

/-! ## Colours and gradients -/

inductive ColorSpace
  | rgb
  | gray
  | pattern
  deriving DecidableEq

/-- The name by which a space is referred to. -/
def ColorSpace.name : ColorSpace → String
  | rgb => "rgb"
  | gray => "gray"
  | pattern => "patternSpace"

structure Color where
  space : ColorSpace
  components : List Literal
  deriving DecidableEq

/-- The colours of a gradient, and where they stand along it. -/
structure Gradient where
  colors : List Color
  locations : List Literal
  deriving DecidableEq

/-! ## Paths -/

/-- A step of building a path. -/
inductive PathStep
  | move (target : Point Literal)
  | line (target : Point Literal)
  | curve (target control1 control2 : Point Literal)
  | close
  | lines (points : List (Point Literal))
  | rect (frame : Rect Literal)
  | roundedRect (frame : Rect Literal) (corner : Size Literal)
  | ellipse (frame : Rect Literal)
  deriving DecidableEq

/-- The call that extends a path by a step. -/
def PathStep.text : PathStep → String
  | move p => s!"move(to: {pointText p})"
  | line p => s!"addLine(to: {pointText p})"
  | curve p c1 c2 =>
    s!"addCurve(to: {pointText p}, control1: {pointText c1}, control2: {pointText c2})"
  | close => "closeSubpath()"
  | lines points => s!"addLines(between: {listText (points.map pointText)})"
  | rect frame => s!"addRect({rectText frame})"
  | roundedRect frame corner =>
    s!"addRoundedRect(in: {rectText frame}, cornerWidth: {corner.width}, " ++
      s!"cornerHeight: {corner.height})"
  | ellipse frame => s!"addEllipse(in: {rectText frame})"

structure Path where
  steps : List PathStep
  deriving DecidableEq

/-! ## Keywords and images -/

/-- A member of an enumeration of the drawing library, by its text. Nothing looks into the text. -/
abbrev Keyword := String

/-- An image, by its bytes in base 64. -/
structure Image where
  base64 : String
  deriving DecidableEq

/-! ## Representing scene values -/

/-- The resources of the generated code. -/
@[reducible] def resources : Resources where
  Scalar := Literal
  Point := SceneCode.Point Literal
  Size := SceneCode.Size Literal
  Rect := SceneCode.Rect Literal
  Matrix := Affine Literal
  Color := Swift.Color
  Gradient := Swift.Gradient
  Path := Swift.Path
  Image := Swift.Image
  BlendMode := Keyword
  FillRule := Keyword
  LineCap := Keyword
  LineJoin := Keyword

def blendModeKeyword : BlendMode → Keyword
  | .normal => ".normal"
  | .copy => ".copy"
  | .sourceIn => ".sourceIn"
  | .destinationIn => ".destinationIn"

def fillRuleKeyword : FillRule → Keyword
  | .nonZero => ".winding"
  | .evenOdd => ".evenOdd"

def lineCapKeyword : LineCap → Keyword
  | .butt => ".butt"
  | .round => ".round"
  | .square => ".square"

def lineJoinKeyword : LineJoin → Keyword
  | .bevel => ".bevel"
  | .round => ".round"
  | .miter => ".miter"

def representImage (image : SceneCode.Image) : Image := ⟨String.ofList (Base64.encode image.bytes)⟩

section Represent

variable (places : Nat)

/-- The components of a colour in the space of red, green and blue. -/
def rgbComponents (c : SceneCode.Color) : List Literal :=
  let components : List Single :=
    match c with
    | .clear => [0, 0, 0, 0]
    | .rgb red green blue alpha =>
      let channel (n : UInt8) : Single := .ofScaled false n.toNat 0 / 255
      [channel red, channel green, channel blue, alpha]
    | .gray white alpha => [white, white, white, alpha]
  components.map (.ofSingle places)

/-- A shade of gray is in the space of grays, every other colour in that of red, green and
    blue. -/
def representColor : SceneCode.Color → Color
  | .gray white alpha => ⟨.gray, [.ofSingle places white, .ofSingle places alpha]⟩
  | c => ⟨.rgb, rgbComponents places c⟩

def representGradient (g : SceneCode.Gradient) : Gradient where
  colors := g.stops.map fun stop => ⟨.rgb, rgbComponents places stop.color⟩
  locations := g.stops.map fun stop => .ofSingle places stop.offset

def representSegment : Segment → PathStep
  | .move p => .move (p.map (.ofSingle places))
  | .line p => .line (p.map (.ofSingle places))
  | .cubic p c1 c2 =>
    .curve (p.map (.ofSingle places)) (c1.map (.ofSingle places)) (c2.map (.ofSingle places))
  | .close => .close

/-- A rectangle whose radii both round to zero has no rounded corners. -/
def representShape : Shape → Path
  | .lines points => ⟨[.lines (points.map (Point.map (.ofSingle places)))]⟩
  | .polygon points => ⟨[.lines (points.map (Point.map (.ofSingle places))), .close]⟩
  | .rect frame radii =>
    let corner := radii.map (.ofSingle places)
    let frame := frame.map (.ofSingle places)
    if corner.width.value.isZero && corner.height.value.isZero then ⟨[.rect frame]⟩
    else ⟨[.roundedRect frame corner]⟩
  | .ellipse frame => ⟨[.ellipse (frame.map (.ofSingle places))]⟩
  | .path segments => ⟨segments.map (representSegment places)⟩

/-- Scene values, with numbers rounded to decimal places. -/
def represent : Representation .scene resources where
  scalar := .ofSingle places
  point := Point.map (.ofSingle places)
  size := Size.map (.ofSingle places)
  rect := Rect.map (.ofSingle places)
  matrix := Affine.map (.ofSingle places)
  color := representColor places
  gradient := representGradient places
  path := representShape places
  image := representImage
  blendMode := blendModeKeyword
  fillRule := fillRuleKeyword
  lineCap := lineCapKeyword
  lineJoin := lineJoinKeyword

end Represent

/-- Numbers rounded to the given decimal places, or to the most there can be. -/
def representation (precision : Nat) : Representation .scene resources :=
  represent (min precision maxPlaces)

/-- The backend of the generated code, which can use layers. -/
def backend (precision : Nat) : Backend resources (Mask resources) (Pattern resources) :=
  .nesting true (representation precision)

/-! ## Equality -/

/-- Resources are compared for equality. -/
def comparison : Comparison resources where
  scalar a b := decide (a = b)
  point a b := decide (a = b)
  size a b := decide (a = b)
  rect a b := decide (a = b)
  matrix a b := decide (a = b)
  color a b := decide (a = b)
  gradient a b := decide (a = b)
  path a b := decide (a = b)
  image a b := decide (a = b)
  blendMode a b := decide (a = b)
  fillRule a b := decide (a = b)
  lineCap a b := decide (a = b)
  lineJoin a b := decide (a = b)

theorem comparison_exact : comparison.Exact := by
  constructor <;> simp [comparison]

instance : DecidableEq (Pattern resources) := fun p q =>
  decidable_of_iff _ (Pattern.agree_iff comparison_exact p q)

instance : DecidableEq (DrawingCommand resources) := fun c d =>
  decidable_of_iff _ (DrawingCommand.agree_iff comparison_exact c d)

end SceneCode.Swift
