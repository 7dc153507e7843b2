import SceneCode.Command.Balance
import SceneCode.Command.Values
import SceneCode.Scene.Gallery
import SceneCode.Swift.SourceFile
import SceneCode.Proofs.Simplify
import SceneCode.Proofs.Evaluation
import SceneCode.Proofs.Names
import SceneCode.Proofs.Nested
import SceneCode.Proofs.Represented
import SceneCode.Proofs.Execution
import SceneCode.Proofs.Rendering
import SceneCode.Proofs.WellScoped
import SceneCode.Proofs.Backends
import SceneCode.Proofs.Opacity
import SceneCode.Proofs.Brackets
import SceneCode.Proofs.Layers
import SceneCode.Proofs.Pruning
import SceneCode.Proofs.Removal
import SceneCode.Proofs.Compositing
import SceneCode.Proofs.EmptyBrackets
import SceneCode.Proofs.Faults
import SceneCode.Proofs.Interning
import SceneCode.Proofs.Magnitudes
import SceneCode.Proofs.Literals
import SceneCode.Proofs.Base64
import SceneCode.Proofs.Readable
import SceneCode.Proofs.Lines
import SceneCode.Proofs.Readback
import SceneCode.Proofs.Patterns
import SceneCode.Proofs.OuterBracket
import SceneCode.Proofs.RootBracket
import SceneCode.Proofs.Declarations
import SceneCode.Proofs.Agreement
import SceneCode.Proofs.Sharing
import SceneCode.Proofs.Confinement
import SceneCode.Proofs.TypeNames
import SceneCode.Proofs.Layout
import SceneCode.Proofs.SourceLines
import SceneCode.Proofs.Rounding
import SceneCode.Proofs.Bounds
import SceneCode.Proofs.FiniteLiterals
import SceneCode.Proofs.Quantizing
import SceneCode.Proofs.BoundingBox
import SceneCode.Proofs.DistinctKeys
import SceneCode.Proofs.Outcomes
