import SceneCode.Swift.Code

/-!
# Statements of the generated code

The body of a drawing function, of a pattern's callback or of a mask's closure is a list of
statements. A statement declares a name, extends the path declared last, or calls the drawing
context. Callbacks and closures hold statements in turn, a scope of their own.

Statements give resources by their index. Only `Statement.code` turns indices into names, and a
statement into one or more lines of code.
-/

namespace SceneCode.Swift

/-! ## Statements -/

/-- A call on the drawing context. Resources are given by their index. -/
inductive Call
  | push (bracket : Bracket)
  | pop (bracket : Bracket)
  | transform (step : Transform Literal Nat)
  | setFillColor (color : Nat)
  | setFillColorSpace (space : ColorSpace)
  | setFillPattern (pattern : Nat)
  | setStrokeColor (color : Nat)
  | setLineWidth (width : Literal)
  | setLineCap (cap : Keyword)
  | setLineJoin (join : Keyword)
  | setMiterLimit (limit : Literal)
  | setAlpha (alpha : Literal)
  | setBlendMode (mode : Keyword)
  | addPath (path : Nat)
  | clip (rule : Keyword)
  | clipToMask (frame : Rect Literal) (mask : Nat)
  | strokePath
  | fillPath (rule : Keyword)
  | drawImage (image : Nat) (frame : Rect Literal)
  | drawLinearGradient (gradient : Nat) (start stop : Point Literal)
  | drawRadialGradient (gradient : Nat) (startCenter : Point Literal) (startRadius : Literal)
      (endCenter : Point Literal) (endRadius : Literal)
  deriving DecidableEq

/-- A statement of generated code. -/
inductive Statement
  /-- Declares a colour space. -/
  | space (space : ColorSpace)
  /-- Declares the alpha with which patterns are painted. -/
  | patternAlpha
  | color (index : Nat) (color : Color)
  /-- Declares a path, still empty. -/
  | path (index : Nat)
  /-- Extends a path. -/
  | extendPath (index : Nat) (step : PathStep)
  | transform (index : Nat) (matrix : Affine Literal)
  | locations (index : Nat) (locations : List Literal)
  /-- Declares a gradient, whose locations have the same index. -/
  | gradient (index : Nat) (colors : List Color)
  | image (index : Nat) (image : Image)
  /-- Declares a mask, drawn in a closure on a surface of some size. -/
  | mask (index : Nat) (size : Size Literal) (body : List Statement)
  /-- Declares the function that draws a pattern. -/
  | patternDraw (index : Nat) (body : List Statement)
  /-- Declares the callbacks of a pattern, its drawing function of the same index. -/
  | patternCallback (index : Nat)
  /-- Declares a pattern, with the callbacks of the same index. -/
  | pattern (index : Nat) (tile : Rect Literal)
  | call (call : Call)

/-! ## Code -/

/-- How far a gradient is continued: beyond both of its ends. -/
def gradientOptions : String := "[.drawsAfterEndLocation, .drawsBeforeStartLocation]"

/-- The call, without the context it is made on. -/
def Call.suffix : Call → Line
  | push .state => [.plain "saveGState()"]
  | push .layer => [.plain "beginTransparencyLayer(auxiliaryInfo: nil)"]
  | pop .state => [.plain "restoreGState()"]
  | pop .layer => [.plain "endTransparencyLayer()"]
  | transform (.matrix k) =>
    [.plain "concatenate(", .reference (.numbered .transform k), .plain ")"]
  | transform (.translate dx dy) => [.plain s!"translateBy(x: {dx}, y: {dy})"]
  | transform (.scale sx sy) => [.plain s!"scaleBy(x: {sx}, y: {sy})"]
  | transform (.rotate angle) => [.plain s!"rotate(by: {angle})"]
  | setFillColor k => [.plain "setFillColor(", .reference (.numbered .color k), .plain ")"]
  | setFillColorSpace s => [.plain "setFillColorSpace(", .reference (.space s), .plain ")"]
  | setFillPattern k =>
    [.plain "setFillPattern(", .reference (.numbered .pattern k), .plain ", colorComponents: &",
      .reference .patternAlpha, .plain ")"]
  | setStrokeColor k => [.plain "setStrokeColor(", .reference (.numbered .color k), .plain ")"]
  | setLineWidth width => [.plain s!"setLineWidth({width})"]
  | setLineCap cap => [.plain s!"setLineCap({cap})"]
  | setLineJoin join => [.plain s!"setLineJoin({join})"]
  | setMiterLimit limit => [.plain s!"setMiterLimit({limit})"]
  | setAlpha alpha => [.plain s!"setAlpha({alpha})"]
  | setBlendMode mode => [.plain s!"setBlendMode({mode})"]
  | addPath k => [.plain "addPath(", .reference (.numbered .path k), .plain ")"]
  | clip rule => [.plain s!"clip(using: {rule})"]
  | clipToMask frame k =>
    [.plain s!"clip(to: {rectText frame}, mask: ", .reference (.numbered .mask k), .plain ")"]
  | strokePath => [.plain "strokePath()"]
  | fillPath rule => [.plain s!"fillPath(using: {rule})"]
  | drawImage k frame =>
    [.plain "draw(", .reference (.numbered .image k), .plain s!", in: {rectText frame})"]
  | drawLinearGradient k start stop =>
    [.plain "drawLinearGradient(", .reference (.numbered .gradient k),
      .plain (s!", start: {pointText start}, end: {pointText stop}, " ++
        s!"options: {gradientOptions})")]
  | drawRadialGradient k startCenter startRadius endCenter endRadius =>
    [.plain "drawRadialGradient(", .reference (.numbered .gradient k),
      .plain (s!", startCenter: {pointText startCenter}, startRadius: {startRadius}, " ++
        s!"endCenter: {pointText endCenter}, endRadius: {endRadius}, " ++
        s!"options: {gradientOptions})")]

def Call.line (c : Call) : Line := .reference .context :: .plain "." :: c.suffix

/-- The context that a mask is drawn on, turned so that the origin is at the top. -/
def maskContextLines (size : Size Literal) : List Line :=
  [[.constant .context,
      .plain (s!" = CGContext(data: nil, width: Int({size.width}), " ++
        s!"height: Int({size.height}), bitsPerComponent: 8, bytesPerRow: 0, " ++
        "space: CGColorSpaceCreateDeviceGray(), bitmapInfo: CGImageAlphaInfo.none.rawValue)!")],
    (Call.transform (.translate ⟨0⟩ size.height)).line,
    (Call.transform (.scale ⟨1⟩ ⟨-1⟩)).line]

/-- The image of what has been drawn on the context of a mask. -/
def maskImageLine : Line := [.plain "return ", .reference .context, .plain ".makeImage()!"]

/-- The arguments of a pattern's declaration. -/
def patternArgumentLines (index : Nat) (tile : Rect Literal) : List Line :=
  [[.plain "info: nil,"],
    [.plain s!"bounds: {rectText tile},"],
    [.plain "matrix: .identity,"],
    [.plain s!"xStep: {tile.size.width},"],
    [.plain s!"yStep: {tile.size.height},"],
    [.plain "tiling: .constantSpacing,"],
    [.plain "isColored: true,"],
    [.plain "callbacks: &", .reference (.numbered .patternCallback index)]]

/-- The expression that makes a colour space. -/
def spaceText : ColorSpace → String
  | .rgb => "CGColorSpaceCreateDeviceRGB()"
  | .gray => "CGColorSpaceCreateDeviceGray()"
  | .pattern => "CGColorSpace(patternBaseSpace: nil)!"

mutual

/-- The code of a statement. -/
def Statement.code : Statement → List Code
  | .space s => [.line [.constant (.space s), .plain s!" = {spaceText s}"]]
  | .patternAlpha => [.line [.assignable .patternAlpha, .plain ": CGFloat = 1.0"]]
  | .color k c => [.line (.constant (.numbered .color k) :: .plain " = " :: c.line)]
  | .path k => [.line [.constant (.numbered .path k), .plain " = CGMutablePath()"]]
  | .extendPath k step =>
    [.line [.reference (.numbered .path k), .plain s!".{step.text}"]]
  | .transform k m =>
    [.line [.constant (.numbered .transform k), .plain s!" = {matrixText m}"]]
  | .locations k values =>
    [.line [.assignable (.numbered .locations k),
      .plain s!": [CGFloat] = {listText (values.map Literal.text)}"]]
  | .gradient k colors =>
    [.line ([.constant (.numbered .gradient k), .plain " = CGGradient(colorsSpace: ",
        .reference (.space .rgb), .plain ", colors: "] ++ listLine (colors.map Color.line) ++
      [.plain " as CFArray, locations: &", .reference (.numbered .locations k), .plain ")!"])]
  | .image k picture =>
    [.line [.constant (.numbered .image k),
      .plain s!" = UIImage(data: Data(base64Encoded: \"{picture.base64}\")!)!.cgImage!"]]
  | .mask k size body =>
    [.closure [.constant (.numbered .mask k), .plain " = \x7b () -> CGImage in"]
      ((maskContextLines size).map .line ++ Statement.allCode body ++ [.line maskImageLine])
      [.plain "\x7d()"]]
  | .patternDraw k body =>
    [.closure [.constant (.numbered .patternDraw k),
        .plain ": CGPatternDrawPatternCallback = \x7b _, ", .parameter .context, .plain " in"]
      (Statement.allCode body) [.plain "\x7d"]]
  | .patternCallback k =>
    [.line [.assignable (.numbered .patternCallback k),
      .plain " = CGPatternCallbacks(version: 0, drawPattern: ",
      .reference (.numbered .patternDraw k), .plain ", releaseInfo: nil)"]]
  | .pattern k tile =>
    .line [.constant (.numbered .pattern k), .plain " = CGPattern("] ::
      ((patternArgumentLines k tile).map fun line => .line (.plain "  " :: line)) ++
      [.line [.plain ")!"]]
  | .call c => [.line c.line]
termination_by structural s => s

/-- The code of some statements. -/
def Statement.allCode : List Statement → List Code
  | [] => []
  | s :: rest => s.code ++ Statement.allCode rest
termination_by structural ss => ss

end

end SceneCode.Swift
