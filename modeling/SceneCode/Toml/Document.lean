import SceneCode.Toml.Lexical

/-!
# Configuration files

A file is a list of lines: assignments to keys, and headers, which say to which table the
assignments after them belong. Values and lines are read first (`value`, `lines`); then the
lines are carried out one after the other (`Block.enter?`), which fails where a key is assigned
to twice, or a table is added to in a way that its origin does not allow.
-/

namespace SceneCode.Toml

open Reader

/-! ## Tables -/

/-- Gives a key another value, in its place. -/
def replaceEntry (key : String) (value : Value) (entries : Entries) : Entries :=
  entries.map fun entry => if entry.1 = key then (key, value) else entry

/-- Assigns a value to a dotted key. The parts of the key but the last lead through tables,
    which are made if they do not exist. A table with a header of its own, or in braces, is not
    entered; and the last table on the way has to be one made by dotted keys. -/
def assign? (value : Value) : List String → Entries → Option Entries
  | [], _ => none
  | [key], entries =>
    if (entries.lookup key).isSome then none else some (entries ++ [(key, value)])
  | key :: next :: rest, entries =>
    match entries.lookup key with
    | none => do
      return entries ++ [(key, .table .dotted (← assign? value (next :: rest) []))]
    | some (.table .dotted inner) => do
      return replaceEntry key (.table .dotted (← assign? value (next :: rest) inner)) entries
    | some (.table .path inner) =>
      if rest.isEmpty then none
      else do
        return replaceEntry key (.table .path (← assign? value (next :: rest) inner)) entries
    | some (.tables elements) =>
      match elements.getLast? with
      | some (.table origin inner) =>
        if rest.isEmpty then none
        else do
          let inner ← assign? value (next :: rest) inner
          return replaceEntry key (.tables (elements.dropLast ++ [.table origin inner])) entries
      | _ => none
    | some _ => none

/-- Values assigned to dotted keys, one after the other. -/
def assignAll? (assignments : List (List String × Value)) (entries : Entries) :
    Option Entries :=
  assignments.foldlM (fun entries (key, value) => assign? value key entries) entries

/-- Changes the entries of the table that a path leads to, all but the last part of it through
    tables that exist or are made. The last part is left to the change. -/
def enterPath? (change : String → Entries → Option Entries) :
    List String → Entries → Option Entries
  | [], _ => none
  | [key], entries => change key entries
  | key :: next :: rest, entries =>
    match entries.lookup key with
    | none => do
      return entries ++ [(key, .table .path (← enterPath? change (next :: rest) []))]
    | some (.table .braces _) => none
    | some (.table origin inner) => do
      return replaceEntry key (.table origin (← enterPath? change (next :: rest) inner)) entries
    | some (.tables elements) =>
      match elements.getLast? with
      | some (.table origin inner) => do
        let inner ← enterPath? change (next :: rest) inner
        return replaceEntry key (.tables (elements.dropLast ++ [.table origin inner])) entries
      | _ => none
    | some _ => none

/-- A header, with the assignments up to the next one. -/
structure Block where
  path : List String
  /-- Whether the header is in double brackets: then it makes a further table every time. -/
  further : Bool
  assignments : List (List String × Value)

/-- Carries out the lines of a block. -/
def Block.enter? (block : Block) (entries : Entries) : Option Entries :=
  let change (key : String) (entries : Entries) : Option Entries :=
    if block.further then
      match entries.lookup key with
      | none => do
        return entries ++ [(key, .tables [.table .header (← assignAll? block.assignments [])])]
      | some (.tables elements) => do
        let element := .table .header (← assignAll? block.assignments [])
        return replaceEntry key (.tables (elements ++ [element])) entries
      | some _ => none
    else
      match entries.lookup key with
      | none => do
        return entries ++ [(key, .table .header (← assignAll? block.assignments []))]
      | some (.table .path inner) => do
        return replaceEntry key (.table .header (← assignAll? block.assignments inner)) entries
      | some _ => none
  enterPath? change block.path entries

/-! ## Values -/

/-- How deep values may be nested. -/
def maxDepth : Nat := 79

/-- A value that holds no other values. -/
def simpleValue : Reader Value :=
  (Value.string <$> stringText) <|>
  (Value.moment <$> moment) <|>
  (Value.float <$> decimal) <|>
  (Value.integer <$> integer) <|>
  (Value.float <$> namedFloat) <|>
  (Value.boolean <$> boolean)

/-- An array of values in brackets. After the last one there may be a comma. -/
def arrayOf (item : Reader Value) : Reader Value := do
  let _ ← char '['
  let items ← optional (do
    let items ← separated (char ',') (spaceAndLines *> item <* spaceAndLines)
    let _ ← optional (char ',')
    return items)
  spaceAndLines
  let _ ← char ']'
  return .array (items.getD [])

/-- A table in braces, on one line. -/
def tableOf (item : Reader Value) : Reader Value := do
  let _ ← char '\x7b'
  let assignments ← optional (separated (char ',') (do
    let key ← key
    let _ ← char '='
    let value ← blanks *> item <* blanks
    return (key, value)))
  let _ ← blanks
  let _ ← char '\x7d'
  match assignAll? (assignments.getD []) [] with
  | some entries => return .table .braces entries
  | none => failure

/-- A value, nested at most to the given depth. -/
def value : Nat → Reader Value
  | 0 => simpleValue
  | depth + 1 => simpleValue <|> arrayOf (value depth) <|> tableOf (value depth)

/-! ## Lines -/

/-- A line that says something. -/
inductive Line
  | assignment (key : List String) (value : Value)
  | header (path : List String) (further : Bool)

def line : Reader Line :=
  (chars ['[', '['] *> ((.header · true) <$> key) <* chars [']', ']']) <|>
  (char '[' *> ((.header · false) <$> key) <* char ']') <|>
  (do
    let key ← key
    let _ ← char '='
    let value ← blanks *> value maxDepth
    return .assignment key value)

/-- The lines of a text, in at most `count` steps. -/
def lines : Nat → Reader (List Line)
  | 0 => failure
  | count + 1 => do
    if (← get).isEmpty then return []
    let _ ← blanks
    let first ← optional line
    lineEnd
    return first.toList ++ (← lines count)

/-! ## Files -/

/-- The assignments before the first header, and the blocks. -/
def blocks : List Line → List (List String × Value) × List Block
  | [] => ([], [])
  | .assignment key value :: rest => ((key, value) :: (blocks rest).1, (blocks rest).2)
  | .header path further :: rest => ([], ⟨path, further, (blocks rest).1⟩ :: (blocks rest).2)

/-- The entries of a file, which may begin with a byte order mark. -/
def read? (text : String) : Option Entries := do
  let text := text.toList
  let text := if text.head? = some '\uFEFF' then text.tail else text
  let (assignments, blocks) := blocks (← (lines (text.length + 1)).run? text)
  blocks.foldlM (fun entries block => block.enter? entries) (← assignAll? assignments [])

end SceneCode.Toml
