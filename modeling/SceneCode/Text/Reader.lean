/-!
# Readers

A reader takes a value off the front of a text, and leaves the rest of the text; or it fails.
A choice between readers tries the second on the text the first one was given.
-/

namespace SceneCode

/-- Takes a value off the front of a text. -/
abbrev Reader := StateT (List Char) Option

namespace Reader

variable {α β : Type}

/-- One character that passes a test. -/
def charWhere (test : Char → Bool) : Reader Char := fun
  | [] => none
  | c :: rest => if test c then some (c, rest) else none

/-- A given character. -/
def char (expected : Char) : Reader Char := charWhere (· == expected)

/-- Given characters, one after the other. -/
def chars : List Char → Reader Unit
  | [] => pure ()
  | c :: rest => do
    let _ ← char c
    chars rest

/-- As many characters as pass a test, perhaps none. -/
def charsWhile (test : Char → Bool) : Reader (List Char) := fun text =>
  some (text.takeWhile test, text.dropWhile test)

/-- At most `count` values, as many as the reader finds. -/
def atMost (count : Nat) (r : Reader α) : Reader (List α) :=
  match count with
  | 0 => pure []
  | count + 1 => do
    match ← optional r with
    | some a => return a :: (← atMost count r)
    | none => return []

/-- As many values as the reader finds. A reader that takes something off the text each time
    finds no more than there are characters. -/
def many (r : Reader α) : Reader (List α) := do
  atMost (← get).length r

/-- Exactly `count` values. -/
def exactly (count : Nat) (r : Reader α) : Reader (List α) :=
  match count with
  | 0 => pure []
  | count + 1 => do
    let a ← r
    return a :: (← exactly count r)

/-- One or more values with a separator between them. -/
def separated (separator : Reader β) (r : Reader α) : Reader (List α) := do
  let a ← r
  let rest ← many (do let _ ← separator; r)
  return a :: rest

/-- The end of the text. -/
def atEnd : Reader Unit := fun
  | [] => some ((), [])
  | _ :: _ => none

/-- The value of a whole text. -/
def run? (r : Reader α) (text : List Char) : Option α :=
  match r text with
  | some (a, []) => some a
  | _ => none

end Reader

end SceneCode
