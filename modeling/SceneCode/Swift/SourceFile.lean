import SceneCode.Settings
import SceneCode.Swift.Renderer
import SceneCode.Text.TypeName

/-!
# Source files

The file that draws a scene: an extension of the image type by a function that makes the image,
named for its title, and a private one with the statements that draw it.
-/

namespace SceneCode.Swift

/-- The file for a title, a size and the lines that draw. -/
def sourceFile (title : String) (size : Size Literal) (lines : List String) : String :=
  "extension UIImage \x7b\n" ++
  s!"  static func svg{typeName title}() -> UIImage \x7b\n" ++
  "    let f = UIGraphicsImageRendererFormat.preferred()\n" ++
  "    f.opaque = false\n" ++
  s!"    return UIGraphicsImageRenderer(size: {sizeText size}, format: f).image \x7b\n" ++
  "      drawSVG(in: $0.cgContext)\n" ++
  "    \x7d\n" ++
  "  \x7d\n" ++
  "\n" ++
  "  private static func drawSVG(in ctx: CGContext) \x7b\n" ++
  joined "\n" (indented (indented lines)) ++ "\n" ++
  "  \x7d\n" ++
  "\x7d\n"

/-- The file for what has been rendered. -/
def Rendering.sourceFile (r : Rendering) (title : String) (size : Size Literal) : String :=
  Swift.sourceFile title size r.lines

end SceneCode.Swift

namespace SceneCode

/-- The commands of a scene in generated code. -/
def Scene.swiftCommands (s : Scene) (settings : Settings) : Drawing Swift.resources :=
  settings.simplifications.apply (s.root.lower (Swift.backend settings.precision))

/-- The source file that draws a scene. -/
def Scene.swiftSource (s : Scene) (title : String) (settings : Settings) : String :=
  ((({} : Swift.Rendering).render (s.swiftCommands settings)).sourceFile title
    ((Swift.representation settings.precision).size s.size))

end SceneCode
