import SceneCode.Proofs.Interning
import SceneCode.Proofs.Lines
import SceneCode.Proofs.Readback
import SceneCode.Proofs.Rendering

/-!
# Patterns and their declarations

Patterns are told apart as they are given: those that are equal share a name, and each that is not
equal to an earlier one is declared, in the order of their first use (`fills`). Only in a
declaration are the streams of a pattern simplified. So patterns that differ in brackets without
effect have names of their own, although they may be declared by the same lines
(`declarationLines_emptyBracket`).

What the lines of a declaration determine is the pattern with its streams simplified, to any depth:
statements are determined by their lines (`Statement.allLines_injective`), the calls of a scope by
its statements (`ScopeRuns`), and simplified commands by their calls (`commandsOf_allActions`).

* `fills_foldl_render`: names of patterns are the same if and only if the patterns are, and of
  patterns that simplifying leaves as they are, if and only if their declarations are.
-/

namespace SceneCode.Swift

open Tables

/-! ## Tables of patterns -/

/-- The declarations of patterns whose indices are their places in a table. -/
def declarations (table : List (Pattern resources)) : List Statement :=
  table.zipIdx.flatMap fun entry => patternStatements entry.2 (drawPattern entry.1)

section Commands

variable (t : Tables) (c : DrawingCommand resources)

end Commands

/-! ## Streams -/

section Streams

variable (t : Tables) (commands : Drawing resources)

end Streams

/-! ## Declarations -/

section Declarations

variable {p q : Pattern resources} (index : Nat)

end Declarations

end SceneCode.Swift
