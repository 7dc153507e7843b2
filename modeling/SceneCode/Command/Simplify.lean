import SceneCode.Command.Basic

/-!
# Simplifying streams

Two simplifications remove brackets that have no effect: those with nothing inside
(`dropEmptyBrackets`), and a saved state around the whole stream (`dropOuterBracket`).

Neither looks at the kinds of brackets beyond the first command, and neither needs the stream
to be balanced.
-/

namespace SceneCode

/-- Which simplifications to use. -/
structure Simplifications where
  emptyBrackets : Bool := false
  outerBracket : Bool := false
  deriving DecidableEq

def Simplifications.all : Simplifications := ⟨true, true⟩

variable {R : Resources} {Mask Pattern : Type}

/-- A command before a stream without empty brackets; the two together have none either. -/
def consDropping (c : Command R Mask Pattern) :
    List (Command R Mask Pattern) → List (Command R Mask Pattern)
  | [] => [c]
  | d :: rest => if c.isPush && d.isPop then rest else c :: d :: rest

/-- Removes adjacent pairs of an opening and a closing command, until there are none. -/
def dropEmptyBrackets (commands : List (Command R Mask Pattern)) :
    List (Command R Mask Pattern) :=
  commands.foldr consDropping []

/-- Whether the last command, and none before it, closes the outermost of `depth` brackets that
    are open. -/
def closesAtEnd : Nat → List (Command R Mask Pattern) → Bool
  | _, [] => false
  | depth, c :: rest =>
    if c.isPush then closesAtEnd (depth + 1) rest
    else if c.isPop then
      if depth ≤ 1 then rest.isEmpty else closesAtEnd (depth - 1) rest
    else closesAtEnd depth rest

/-- Removes the first and the last command, if they save the state and close that bracket. -/
def dropOuterBracket : List (Command R Mask Pattern) → List (Command R Mask Pattern)
  | .push .state :: rest =>
    if closesAtEnd 1 rest then rest.dropLast else .push .state :: rest
  | commands => commands

/-- Uses the simplifications, empty brackets first. -/
def Simplifications.apply (use : Simplifications) (commands : List (Command R Mask Pattern)) :
    List (Command R Mask Pattern) :=
  let commands := if use.emptyBrackets then dropEmptyBrackets commands else commands
  if use.outerBracket then dropOuterBracket commands else commands

end SceneCode
