import SceneCode.Command.Simplify
import SceneCode.Swift.Literal
import SceneCode.Toml.Document

/-!
# Settings

How code is generated: the decimal places of numbers, and the simplifications to use. Settings
can be read from a configuration file, in which all other keys are ignored.

Without an `optimize` table all simplifications are used, but in such a table those that are not
mentioned are off. The table may also be an array of truth values, in the order of the
simplifications; those beyond its end are off. Faults of the file and of the types of its values
come before the check that the precision is in range.
-/

namespace SceneCode

structure Settings where
  precision : Nat := 3
  simplifications : Simplifications := .all
  deriving DecidableEq

/-- Why settings cannot be read. -/
inductive SettingsError
  /-- The file is not well formed, or a value is not of the type it should be. -/
  | malformed
  /-- The precision is greater than the most decimal places there can be. -/
  | precision (places : Nat)
  deriving DecidableEq

/-- The explanation of an error; what is wrong with a malformed file is not explained. -/
def SettingsError.message : SettingsError → Option String
  | malformed => none
  | precision places =>
    some s!"precision of {places} decimal places is more than the maximum of {Swift.maxPlaces}"

/-- A truth value, off if it is missing. -/
def flag? : Option Toml.Value → Except SettingsError Bool
  | none => .ok false
  | some (.boolean value) => .ok value
  | some _ => .error .malformed

/-- The simplifications that a value stands for. A date is taken for a table without known keys. -/
def Simplifications.ofValue? : Toml.Value → Except SettingsError Simplifications
  | .table _ entries => do
    let emptyBrackets ← flag? (entries.lookup "skip_redundant_state")
    let outerBracket ← flag? (entries.lookup "skip_initial_save_state")
    return ⟨emptyBrackets, outerBracket⟩
  | .array items => do
    let emptyBrackets ← flag? items[0]?
    let outerBracket ← flag? items[1]?
    return ⟨emptyBrackets, outerBracket⟩
  | .moment _ => .ok ⟨false, false⟩
  | _ => .error .malformed

/-- The decimal places that a value stands for: an integer of 32 bits, without a sign. -/
def places? : Toml.Value → Except SettingsError Nat
  | .integer n => if 0 ≤ n ∧ n < Int.pow 2 32 then .ok n.toNat else .error .malformed
  | _ => .error .malformed

/-- The settings in a table. -/
def Settings.ofEntries? (entries : Toml.Entries) : Except SettingsError Settings := do
  let simplifications ←
    match entries.lookup "optimize" with
    | none => .ok .all
    | some value => Simplifications.ofValue? value
  let precision ←
    match entries.lookup "precision" with
    | none => .ok 3
    | some value => places? value
  if Swift.maxPlaces < precision then .error (.precision precision)
  else .ok { precision, simplifications }

/-- The settings in a text, given the tables that texts stand for. -/
def Settings.ofText? (table? : String → Option Toml.Entries) (text : String) :
    Except SettingsError Settings :=
  match table? text with
  | some entries => ofEntries? entries
  | none => .error .malformed

/-- The settings in a configuration file. -/
def Settings.ofToml? : String → Except SettingsError Settings := ofText? Toml.read?

end SceneCode
