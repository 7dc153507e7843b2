/-!
# Binary formats

A binary format has finitely many magnitudes. They are numbered in increasing order: the
*rank* of zero is `0`, that of the least positive magnitude is `1`, and the rank `top` stands
for infinity. A magnitude is `significand * 2 ^ exponent` of its rank, so a rank is always a
canonical form: two magnitudes are equal exactly when their ranks are.

The ranks fall into *binades* of `width` ranks each. The magnitudes of a binade share their
exponent; the first binade holds zero and the subnormal magnitudes, and has the exponent of the
second one.

Rounding (`nearest`) sends a ratio of natural numbers to the rank of the nearest magnitude, a
tie to the one with the even significand. A rounded significand may be as large as the first
one of the next binade: its rank is then the next binade's first rank, so nothing has to be
renormalised.
-/

namespace SceneCode

/-- A binary format: the digits of a significand, the leading one included, the number of
    binades of finite magnitudes, and the exponent of the least binade. -/
structure Format where
  digits : Nat
  binades : Nat
  least : Int
  deriving DecidableEq

/-- The integer nearest to `num / den`, a tie going to the even one. -/
def roundHalfEven (num den : Nat) : Nat :=
  let floor := num / den
  if 2 * (num % den) < den then floor
  else if den < 2 * (num % den) then floor + 1
  else floor + floor % 2

/-- The integer nearest to `num / den`, a tie going up. -/
def roundHalfUp (num den : Nat) : Nat :=
  (2 * num + den) / (2 * den)

/-- The exponent `e` with `2 ^ e ≤ num / den < 2 ^ (e + 1)`, for positive arguments. -/
def binaryOrder (num den : Nat) : Int :=
  let guess : Int := num.log2 - den.log2
  if num * Nat.pow 2 (-guess).toNat < den * Nat.pow 2 guess.toNat then guess - 1 else guess

namespace Format

/-- Single precision. -/
def binary32 : Format := ⟨24, 255, -149⟩

/-- Double precision. -/
def binary64 : Format := ⟨53, 2047, -1074⟩

variable (f : Format)

/-- The number of ranks in a binade. -/
def width : Nat := Nat.pow 2 (f.digits - 1)

/-- The rank of infinity. -/
def top : Nat := f.binades * f.width

/-- The significand of the magnitude of a rank. -/
def significand (rank : Nat) : Nat :=
  if rank < f.width then rank else f.width + rank % f.width

/-- The exponent of the magnitude of a rank: the first two binades share theirs. -/
def exponent (rank : Nat) : Int :=
  f.least + (rank / f.width - 1 : Nat)

/-- The rank of the magnitude nearest to `num / den`, were there no greatest finite one. -/
def unboundedRank (num den : Nat) : Nat :=
  if num = 0 then 0
  else
    let exponent := max f.least (binaryOrder num den - (f.digits - 1 : Nat))
    (exponent - f.least).toNat * f.width +
      roundHalfEven (num * Nat.pow 2 (-exponent).toNat) (den * Nat.pow 2 exponent.toNat)

/-- The rank of the magnitude nearest to `num / den`; what is too large goes to infinity. -/
def nearest (num den : Nat) : Fin (f.top + 1) :=
  ⟨min f.top (f.unboundedRank num den), by omega⟩

/-- The magnitude of a rank as a multiple of `2 ^ unit`, for a `unit` no greater than the
    exponent of the rank. -/
def multiple (rank : Nat) (unit : Int) : Nat :=
  f.significand rank * Nat.pow 2 (f.exponent rank - unit).toNat

end Format

end SceneCode
