import SceneCode.Number.Binary

/-!
# Sine and cosine

The angle is reduced to its nearest quarter turn, in double precision: what remains lies
between an eighth of a turn to either side, where a polynomial in its square gives sine or
cosine to well below half a unit in the last place of single precision. The quarter turn
decides which of the two polynomials is used, and the signs. The result is rounded to single
precision once, at the end.

The reduction is good for angles of a few turns, which is all that drawing needs.
-/

namespace SceneCode.Trigonometry

/-- The double precision number `significand * 2 ^ exponent`. -/
private def double (significand : Nat) (exponent : Int) : Double :=
  .ofScaled false significand exponent

/-- The length of a quarter turn. -/
def quarterTurn : Double := double 0x1921FB54442D18 (-52)

/-- Quarter turns per unit of angle, in units of `2 ^ -24`. -/
def quarterTurnsPerUnit : Double := double 0x145F306DC9C883 (-29)

/-- The nearest quarter turn, counted from angle zero, and the angle that remains. -/
def reduce (x : Double) : Int × Double :=
  let n := ((x * quarterTurnsPerUnit).truncate + Int.pow 2 23) / Int.pow 2 24
  (n, x - .ofScaled (n < 0) n.natAbs 0 * quarterTurn)

/-- Sine of an angle of at most an eighth of a turn. -/
def sinePolynomial (x : Double) : Double :=
  let square := x * x
  let cube := x * square
  let low := x + cube * -double 0x1555545995A603 (-55)
  let high := double 0x11107605230BC4 (-59) + square * -double 0x1994EB3774CF24 (-65)
  low + cube * square * high

/-- Cosine of an angle of at most an eighth of a turn. -/
def cosinePolynomial (x : Double) : Double :=
  let square := x * x
  let fourth := square * square
  let low := double 1 0 + square * -double 0x1FFFFFFD0C621C (-54) +
    fourth * double 0x155553E1068F19 (-57)
  let high := -double 0x16C087E89A359D (-62) + square * double 0x199343027BF8C3 (-68)
  low + fourth * square * high

/-- Sine of a remaining angle and a number of quarter turns. -/
def sineAt (quarters : Int) (x : Double) : Double :=
  match quarters % 4 with
  | 0 => sinePolynomial x
  | 1 => cosinePolynomial x
  | 2 => sinePolynomial (-x)
  | _ => -cosinePolynomial x

/-- The sine of an angle. -/
def sine (x : Single) : Single :=
  let (n, rest) := reduce (x.convert .binary64)
  (sineAt n rest).convert .binary32

/-- The cosine of an angle, a quarter turn ahead of its sine. -/
def cosine (x : Single) : Single :=
  let (n, rest) := reduce (x.convert .binary64)
  (sineAt (n + 1) rest).convert .binary32

end SceneCode.Trigonometry
