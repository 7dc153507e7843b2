import SceneCode.Command.Basic

/-!
# Balanced streams

A stream is balanced if every bracket is closed by a command of its kind, and only brackets that
are open are closed. `checkBalance` reports the first command that can be part of no balanced
stream, or else how many brackets are left open.
-/

namespace SceneCode

/-- Why a stream is not balanced. -/
inductive BalanceError
  /-- The command at the index closes a bracket while none is open. -/
  | unmatchedPop (index : Nat)
  /-- The command at the index closes a bracket of the other kind. -/
  | mismatchedPop (index : Nat)
  /-- So many brackets are still open at the end. -/
  | unclosed (count : Nat)
  deriving DecidableEq

def BalanceError.message : BalanceError → String
  | unmatchedPop index =>
    s!"unbalanced command stream: pop at command {index} has no matching push"
  | mismatchedPop index =>
    s!"unbalanced command stream: pop at command {index} closes a bracket opened by a " ++
      "different kind of push"
  | unclosed count =>
    s!"unbalanced command stream: {count} bracket(s) still open at the end of the stream"

variable {R : Resources} {Mask Pattern : Type}

/-- Checks the rest of a stream, from the command at the index on, given the brackets that are
    open, the innermost first. -/
def checkBalanceFrom (index : Nat) :
    List Bracket → List (Command R Mask Pattern) → Except BalanceError Unit
  | [], [] => .ok ()
  | opened, [] => .error (.unclosed opened.length)
  | opened, .push bracket :: rest => checkBalanceFrom (index + 1) (bracket :: opened) rest
  | [], .pop _ :: _ => .error (.unmatchedPop index)
  | innermost :: opened, .pop bracket :: rest =>
    if bracket = innermost then checkBalanceFrom (index + 1) opened rest
    else .error (.mismatchedPop index)
  | opened, _ :: rest => checkBalanceFrom (index + 1) opened rest

/-- Checks that a stream is balanced. -/
def checkBalance (commands : List (Command R Mask Pattern)) : Except BalanceError Unit :=
  checkBalanceFrom 0 [] commands

end SceneCode
