import SceneCode.Swift.Resource

/-!
# Code

Generated code is a list of lines, some of which open a closure. A line is a list of pieces, in
which names stand apart from other text, and each says what the line does with the name: declare
it, bind it as the parameter of a closure, or refer to it. What is inside a closure is a scope of
its own, and is indented.
-/

namespace SceneCode.Swift

/-! ## Names -/

/-- The families of numbered names. -/
inductive Family
  | color
  | path
  | transform
  | gradient
  | locations
  | image
  | mask
  | pattern
  | patternDraw
  | patternCallback
  deriving DecidableEq

/-- The first name of a family. -/
def Family.base : Family → String
  | color => "rgba"
  | path => "path"
  | transform => "transform"
  | gradient => "gradient"
  | locations => "locations"
  | image => "image"
  | mask => "mask"
  | pattern => "pattern"
  | patternDraw => "patternDraw"
  | patternCallback => "patternCallback"

/-- The names in generated code. -/
inductive Name
  | numbered (family : Family) (index : Nat)
  | space (space : ColorSpace)
  | patternAlpha
  | context
  deriving DecidableEq

/-- The first name of a family is without a number. -/
def Name.text : Name → String
  | numbered family 0 => family.base
  | numbered family (n + 1) => s!"{family.base}{n + 1}"
  | space s => s.name
  | patternAlpha => "patternAlpha"
  | context => "ctx"

instance : ToString Name := ⟨Name.text⟩

/-! ## Lines -/

/-- A piece of a line. -/
inductive Piece
  /-- Text without names. -/
  | plain (text : String)
  /-- The declaration of a name that keeps its value. -/
  | constant (name : Name)
  /-- The declaration of a name that can be assigned to. -/
  | assignable (name : Name)
  /-- The parameter of a closure. -/
  | parameter (name : Name)
  | reference (name : Name)

def Piece.text : Piece → String
  | plain text => text
  | constant name => s!"let {name}"
  | assignable name => s!"var {name}"
  | parameter name => name.text
  | reference name => name.text

abbrev Line := List Piece

def Line.text (line : Line) : String := joined "" (line.map Piece.text)

/-- A list of expressions as an expression. -/
def listLine (items : List Line) : Line :=
  [.plain "["] ++ (items.intersperse [.plain ", "]).flatten ++ [.plain "]"]

/-- The expression of a colour. -/
def Color.line (c : Color) : Line :=
  [.plain "CGColor(colorSpace: ", .reference (.space c.space),
    .plain s!", components: {listText (c.components.map Literal.text)})!"]

def Color.text (c : Color) : String := c.line.text

/-! ## Closures -/

/-- A line of code, or several with a closure. -/
inductive Code
  | line (content : Line)
  | closure (opening : Line) (body : List Code) (closing : Line)

/-- A line one level deeper. An empty line stays empty. -/
def indent (line : String) : String := if line = "" then "" else "  " ++ line

/-- Lines one level deeper. -/
def indented (lines : List String) : List String := lines.map indent

mutual

/-- The text of a piece of code. -/
def Code.lines : Code → List String
  | .line content => [content.text]
  | .closure opening body closing =>
    opening.text :: (indented (Code.allLines body) ++ [closing.text])
termination_by structural c => c

/-- The text of some code. -/
def Code.allLines : List Code → List String
  | [] => []
  | c :: rest => c.lines ++ Code.allLines rest
termination_by structural cs => cs

end

end SceneCode.Swift
