import SceneCode.Number.Binary

/-!
# Decimal text of numbers

The *plain* text of a number is its shortest decimal: the fewest digits that read back to the
same number, the nearest of those, a tie going up. It is written positionally, without an
exponent and without a superfluous point.

The numbers that read back to a magnitude form an interval, from the middle between it and its
lower neighbour to the middle between it and its upper neighbour; the ends belong to it exactly
when the significand is even. The decimals of a given exponent form a grid, and the shortest
decimal lies on the coarsest grid that meets the interval. If a grid meets it at all, then in
one of the two points of the grid around the magnitude, so only these are tried
(`nearestOnGrid?`), from a grid too coarse to meet the interval down to one that holds the
magnitude itself.
-/

namespace SceneCode

/-- The number `digits * 10 ^ exponent`. -/
structure Decimal where
  digits : Nat
  exponent : Int
  deriving DecidableEq

namespace Decimal

/-- The digits in base ten, most significant first. -/
def digitChars (n : Nat) : List Char := Nat.toDigits 10 n

/-- Positional text: zeros fill the places up to the point, and there is a point only before
    a fraction. -/
def chars (d : Decimal) : List Char :=
  let whole := digitChars d.digits
  if 0 ≤ d.exponent then whole ++ List.replicate d.exponent.toNat '0'
  else
    let places := (-d.exponent).toNat
    let padded := List.replicate (places + 1 - whole.length) '0' ++ whole
    padded.take (padded.length - places) ++ '.' :: padded.drop (padded.length - places)

end Decimal

namespace Format

variable (f : Format)

/-- The decimal `significand * 2 ^ exponent` itself. -/
def exactDecimal (rank : Nat) : Decimal :=
  let exponent := f.exponent rank
  if 0 ≤ exponent then ⟨f.significand rank * Nat.pow 2 exponent.toNat, 0⟩
  else ⟨f.significand rank * Nat.pow 5 (-exponent).toNat, exponent⟩

/-- The point of the grid `10 ^ grid` that reads back to a positive magnitude and is the
    nearest to it, if the grid has one. -/
def nearestOnGrid? (rank : Nat) (grid : Int) : Option Nat :=
  -- Four times the precision, so that the ends of the interval are whole.
  let unit := f.exponent rank - 2
  let value := f.multiple rank unit
  let lower := (f.multiple (rank - 1) unit + value) / 2
  let upper := (value + f.multiple (rank + 1) unit) / 2
  -- The point `d` has to be compared as `d * step` with the magnitudes times `scale`.
  let step := Nat.pow 10 grid.toNat * Nat.pow 2 (-unit).toNat
  let scale := Nat.pow 10 (-grid).toNat * Nat.pow 2 unit.toNat
  let readsBack (d : Nat) : Bool :=
    if rank % 2 = 0 then lower * scale ≤ d * step && d * step ≤ upper * scale
    else lower * scale < d * step && d * step < upper * scale
  let floor := value * scale / step
  match readsBack floor, readsBack (floor + 1) with
  | true, true => some (if 2 * value * scale < (2 * floor + 1) * step then floor else floor + 1)
  | true, false => some floor
  | false, true => some (floor + 1)
  | false, false => none

/-- The point of the coarsest grid that reads back to a magnitude, among `steps` grids from
    `10 ^ grid` on; the decimal expansion of the magnitude if none does. -/
def shortestFrom (rank : Nat) : Nat → Int → Decimal
  | 0, _ => f.exactDecimal rank
  | steps + 1, grid =>
    match f.nearestOnGrid? rank grid with
    | some digits => ⟨digits, grid⟩
    | none => shortestFrom rank steps (grid - 1)

/-- The shortest decimal that reads back to a positive magnitude. -/
def shortest (rank : Nat) : Decimal :=
  let coarsest := max 0 (f.exponent rank + f.digits)
  f.shortestFrom rank (coarsest - min 0 (f.exponent rank)).toNat coarsest

end Format

namespace Binary

variable {f : Format}

/-- A minus sign before the text of a negative number. -/
def signed (negative : Bool) (text : List Char) : List Char :=
  if negative then '-' :: text else text

/-- Text of the numbers that have no digits. -/
def wordChars : Binary f → List Char
  | .nan => ['N', 'a', 'N']
  | .real negative _ => signed negative ['i', 'n', 'f']

/-- Plain text. -/
def plainChars : Binary f → List Char
  | .nan => wordChars (f := f) .nan
  | .real negative rank =>
    if rank.val = f.top then wordChars (.real negative rank)
    else if rank.val = 0 then signed negative ['0']
    else signed negative (f.shortest rank).chars

/-- Plain text: the shortest digits that read back, in positional form. -/
def plainText (x : Binary f) : String := String.ofList x.plainChars

/-- The whole number that a finite number is, leaving its sign aside. -/
def wholePart? : Binary f → Option Nat
  | .nan => none
  | .real _ rank =>
    if rank.val = f.top then none
    else
      let num := f.significand rank * Nat.pow 2 (f.exponent rank).toNat
      let den := Nat.pow 2 (-f.exponent rank).toNat
      if num % den = 0 then some (num / den) else none

end Binary

end SceneCode
