import SceneCode.Number.Decimal

/-!
# Number literals

Numbers in source text are rounded to some decimal places. The rounding is done in double
precision: the number is scaled up by a power of ten, rounded to a whole number, a half away
from zero, and scaled down again. A zero comes out without a sign, so numbers that are equal as
numbers have the same literal.

A literal has a decimal point, by which the compiler tells that it is no integer: a whole
number is written out in full and followed by `.0`, every other number is written with the
fewest digits that read back.
-/

namespace SceneCode.Swift

/-- A number in source text. -/
structure Literal where
  value : Single
  deriving DecidableEq

/-- The greatest number of decimal places that can be asked for. -/
def maxPlaces : Nat := 9

namespace Literal

/-- Rounds to decimal places. -/
def ofSingle (places : Nat) (x : Single) : Literal :=
  let scale : Double := .ofScaled false (Nat.pow 10 places) 0
  let rounded := (x.convert .binary64 * scale).roundHalfAway / scale
  ⟨(rounded.convert .binary32).unsignedZero⟩

def chars (l : Literal) : List Char :=
  match l.value, l.value.wholePart? with
  | .real negative _, some whole =>
    Binary.signed negative (Decimal.digitChars whole ++ ['.', '0'])
  | x, _ => x.plainChars

def text (l : Literal) : String := String.ofList l.chars

instance : ToString Literal := ⟨text⟩

end Literal

end SceneCode.Swift
