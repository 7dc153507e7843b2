import SceneCode.Command.Simplify
import SceneCode.Swift.Statement

/-!
# Rendering commands as statements

Each resource is declared once, when it is first used, and referred to by its name from then
on. The *tables* (`Tables`) hold the distinct resources of each kind in the order of their first
use: the place of a resource in its table is the index of its name. Patterns are declared in a
preamble, everything else just before its use.

What a command does to the tables (`Tables.after`) and the statements it becomes
(`Tables.output`) are two functions of the tables before it. Rendering a stream threads the
tables through it.

The streams of masks and patterns are scopes of their own: without their empty and outermost
brackets, and from empty tables. They do not depend on the tables around them, so they are
rendered first (`drawAll`), which is structural recursion, and a command is then rendered with
its inner scope at hand.
-/

namespace SceneCode.Swift

/-- What has been declared in a scope. -/
structure Tables where
  spaces : List ColorSpace := []
  colors : List Color := []
  paths : List Path := []
  matrices : List (Affine Literal) := []
  gradients : List Gradient := []
  images : List Image := []
  patterns : List (Pattern resources) := []
  /-- The number of masks, each of which is declared where it is used. -/
  masks : Nat := 0

/-- A mask whose scope has been rendered. -/
structure DrawnMask where
  size : Size Literal
  body : List Statement

/-- A pattern whose scope has been rendered. -/
structure DrawnPattern where
  pattern : Pattern resources
  body : List Statement

/-- A command whose inner scope has been rendered. -/
abbrev DrawnCommand := Command resources DrawnMask DrawnPattern

/-- Statements before the body of a scope, and in it. -/
structure Output where
  preamble : List Statement := []
  body : List Statement := []

/-- All statements of a scope, the preamble first. -/
def Output.statements (o : Output) : List Statement := o.preamble ++ o.body

instance : Append Output := ⟨fun a b => ⟨a.preamble ++ b.preamble, a.body ++ b.body⟩⟩

/-- A value at the end of a table, unless the table has it already. -/
def enter {α : Type} [DecidableEq α] (a : α) (table : List α) : List α :=
  if a ∈ table then table else table ++ [a]

namespace Tables

/-! ## Tables after a command -/

def enterColor (c : Color) (t : Tables) : Tables :=
  if c ∈ t.colors then t
  else { t with spaces := enter c.space t.spaces, colors := t.colors ++ [c] }

def enterPath (p : Path) (t : Tables) : Tables := { t with paths := enter p t.paths }

def enterMatrix (m : Affine Literal) (t : Tables) : Tables :=
  { t with matrices := enter m t.matrices }

def enterGradient (g : Gradient) (t : Tables) : Tables :=
  if g ∈ t.gradients then t
  else { t with spaces := enter .rgb t.spaces, gradients := t.gradients ++ [g] }

def enterImage (i : Image) (t : Tables) : Tables := { t with images := enter i t.images }

/-- Every use of a pattern needs the space of patterns. -/
def enterPattern (p : Pattern resources) (t : Tables) : Tables :=
  { t with spaces := enter .pattern t.spaces, patterns := enter p t.patterns }

/-- The tables after a command. -/
def after (t : Tables) : DrawnCommand → Tables
  | .transform (.matrix m) => t.enterMatrix m
  | .set (.fill c) => t.enterColor c
  | .set (.fillPattern p) => t.enterPattern p.pattern
  | .set (.stroke c) => t.enterColor c
  | .set (.clip p _) => t.enterPath p
  | .set (.clipMask _ _) => { t with masks := t.masks + 1 }
  | .mark (.stroke p) => t.enterPath p
  | .mark (.fill p _) => t.enterPath p
  | .mark (.image i _) => t.enterImage i
  | .mark (.linearGradient g _ _) => t.enterGradient g
  | .mark (.radialGradient g _ _ _ _) => t.enterGradient g
  | _ => t

/-! ## Declarations -/

/-- Declares a colour space, if it is not yet declared. -/
def declareSpace (t : Tables) (s : ColorSpace) : List Statement :=
  if s ∈ t.spaces then []
  else .space s :: if s = .pattern then [.patternAlpha] else []

def declareColor (t : Tables) (c : Color) : List Statement :=
  if c ∈ t.colors then [] else t.declareSpace c.space ++ [.color t.colors.length c]

def declarePath (t : Tables) (p : Path) : List Statement :=
  if p ∈ t.paths then []
  else .path t.paths.length :: p.steps.map (.extendPath t.paths.length)

def declareMatrix (t : Tables) (m : Affine Literal) : List Statement :=
  if m ∈ t.matrices then [] else [.transform t.matrices.length m]

def declareGradient (t : Tables) (g : Gradient) : List Statement :=
  if g ∈ t.gradients then []
  else
    t.declareSpace .rgb ++
      [.locations t.gradients.length g.locations, .gradient t.gradients.length g.colors]

def declareImage (t : Tables) (i : Image) : List Statement :=
  if i ∈ t.images then [] else [.image t.images.length i]

/-- The declaration of a pattern with a given index. -/
def patternStatements (index : Nat) (p : DrawnPattern) : List Statement :=
  [.patternDraw index p.body, .patternCallback index, .pattern index p.pattern.tile]

def declarePattern (t : Tables) (p : DrawnPattern) : List Statement :=
  if p.pattern ∈ t.patterns then [] else patternStatements t.patterns.length p

/-! ## Statements of a command -/

/-- The statements of a step of transformation. -/
def transformStatements (t : Tables) : Transform Literal (Affine Literal) → List Statement
  | .matrix m => t.declareMatrix m ++ [.call (.transform (.matrix (t.matrices.idxOf m)))]
  | .translate dx dy => [.call (.transform (.translate dx dy))]
  | .scale sx sy => [.call (.transform (.scale sx sy))]
  | .rotate angle => [.call (.transform (.rotate angle))]

/-- The output of a setting. -/
def settingOutput (t : Tables) : Setting resources DrawnMask DrawnPattern → Output
  | .fill c => { body := t.declareColor c ++ [.call (.setFillColor (t.colors.idxOf c))] }
  | .fillPattern p =>
    { preamble := t.declarePattern p
      body := t.declareSpace .pattern ++
        [.call (.setFillColorSpace .pattern),
          .call (.setFillPattern (t.patterns.idxOf p.pattern))] }
  | .stroke c => { body := t.declareColor c ++ [.call (.setStrokeColor (t.colors.idxOf c))] }
  | .lineWidth width => { body := [.call (.setLineWidth width)] }
  | .lineCap cap => { body := [.call (.setLineCap cap)] }
  | .lineJoin join => { body := [.call (.setLineJoin join)] }
  | .miterLimit limit => { body := [.call (.setMiterLimit limit)] }
  | .clip p rule =>
    { body := t.declarePath p ++ [.call (.addPath (t.paths.idxOf p)), .call (.clip rule)] }
  | .clipMask m frame =>
    { body := [.mask t.masks m.size m.body, .call (.clipToMask frame t.masks)] }
  | .alpha value => { body := [.call (.setAlpha value)] }
  | .blendMode mode => { body := [.call (.setBlendMode mode)] }

/-- The statements of a mark. -/
def markStatements (t : Tables) : Mark resources → List Statement
  | .stroke p => t.declarePath p ++ [.call (.addPath (t.paths.idxOf p)), .call .strokePath]
  | .fill p rule =>
    t.declarePath p ++ [.call (.addPath (t.paths.idxOf p)), .call (.fillPath rule)]
  | .image i frame => t.declareImage i ++ [.call (.drawImage (t.images.idxOf i) frame)]
  | .linearGradient g start stop =>
    t.declareGradient g ++ [.call (.drawLinearGradient (t.gradients.idxOf g) start stop)]
  | .radialGradient g startCenter startRadius endCenter endRadius =>
    t.declareGradient g ++
      [.call (.drawRadialGradient (t.gradients.idxOf g) startCenter startRadius endCenter
        endRadius)]

/-- What a command becomes. -/
def output (t : Tables) : DrawnCommand → Output
  | .push bracket => { body := [.call (.push bracket)] }
  | .pop bracket => { body := [.call (.pop bracket)] }
  | .transform step => { body := t.transformStatements step }
  | .set setting => t.settingOutput setting
  | .mark mark => { body := t.markStatements mark }

/-! ## Streams -/

/-- The tables after a stream. -/
def afterAll (t : Tables) (commands : List DrawnCommand) : Tables := commands.foldl after t

/-- What a stream becomes. -/
def outputAll (t : Tables) : List DrawnCommand → Output
  | [] => {}
  | c :: rest => t.output c ++ (t.after c).outputAll rest

end Tables

/-- The statements of a scope of its own. -/
def scope (commands : List DrawnCommand) : List Statement :=
  (Tables.outputAll {} (Simplifications.all.apply commands)).statements

mutual

/-- Renders the scope of a mask. -/
def drawMask : Mask resources → DrawnMask
  | .of contents size => ⟨size, scope (drawAll contents)⟩
termination_by structural m => m

/-- Renders the scope of a pattern. -/
def drawPattern : Pattern resources → DrawnPattern
  | .of tile contents => ⟨.of tile contents, scope (drawAll contents)⟩
termination_by structural p => p

/-- Renders the inner scopes of a stream. -/
def drawAll : List (DrawingCommand resources) → List DrawnCommand
  | [] => []
  | c :: rest => drawCommand c :: drawAll rest
termination_by structural cs => cs

/-- Renders the inner scope of a command. -/
def drawCommand : Command resources (Mask resources) (Pattern resources) → DrawnCommand
  | .push bracket => .push bracket
  | .pop bracket => .pop bracket
  | .transform step => .transform step
  | .set setting => .set (drawSetting setting)
  | .mark mark => .mark mark
termination_by structural c => c

/-- Renders the inner scope of a setting. -/
def drawSetting :
    Setting resources (Mask resources) (Pattern resources) →
      Setting resources DrawnMask DrawnPattern
  | .fill color => .fill color
  | .fillPattern pattern => .fillPattern (drawPattern pattern)
  | .stroke color => .stroke color
  | .lineWidth width => .lineWidth width
  | .lineCap cap => .lineCap cap
  | .lineJoin join => .lineJoin join
  | .miterLimit limit => .miterLimit limit
  | .clip path rule => .clip path rule
  | .clipMask mask frame => .clipMask (drawMask mask) frame
  | .alpha value => .alpha value
  | .blendMode mode => .blendMode mode
termination_by structural s => s

end

/-- A drawing as far as it has been rendered: what has been declared, and the statements. -/
structure Rendering where
  tables : Tables := {}
  output : Output := {}

/-- Renders a further stream after what has been rendered. -/
def Rendering.render (r : Rendering) (commands : Drawing resources) : Rendering where
  tables := r.tables.afterAll (drawAll commands)
  output := r.output ++ r.tables.outputAll (drawAll commands)

/-- The code of all statements. -/
def Rendering.code (r : Rendering) : List Code := Statement.allCode r.output.statements

/-- The lines of the preamble. -/
def Rendering.preambleLines (r : Rendering) : List String :=
  Code.allLines (Statement.allCode r.output.preamble)

/-- The lines of the body. -/
def Rendering.bodyLines (r : Rendering) : List String :=
  Code.allLines (Statement.allCode r.output.body)

/-- All lines, the preamble first. -/
def Rendering.lines (r : Rendering) : List String := Code.allLines r.code

end SceneCode.Swift
