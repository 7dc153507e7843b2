import SceneCode.Number.Format

/-!
# Binary numbers

A binary number of a format is NaN, or a sign with the rank of a magnitude; the rank `top` is
infinity. There is one NaN, and the two zeros are two numbers: `x = y` says that the numbers
are the same, while `x.equals y` compares them as values, for which the zeros are alike and NaN
differs from everything, itself included. Likewise `x < y` compares values, and never holds of
NaN.

Each operation computes its exact result, as a ratio of natural numbers, and rounds once
(`ofRatio`).
-/

namespace SceneCode

/-- A number of a binary format. -/
inductive Binary (f : Format)
  | nan
  | real (negative : Bool) (rank : Fin (f.top + 1))
  deriving DecidableEq

/-- Single precision numbers, in which scenes are measured. -/
abbrev Single := Binary .binary32

/-- Double precision numbers, used in between. -/
abbrev Double := Binary .binary64

namespace Binary

variable {f : Format}

/-- The number nearest to `num / den`, with the given sign. -/
def ofRatio (negative : Bool) (num den : Nat) : Binary f :=
  .real negative (f.nearest num den)

/-- The number nearest to `significand * 2 ^ exponent`, with the given sign. -/
def ofScaled (negative : Bool) (significand : Nat) (exponent : Int) : Binary f :=
  ofRatio negative (significand * Nat.pow 2 exponent.toNat) (Nat.pow 2 (-exponent).toNat)

/-- The number nearest to `significand * 10 ^ exponent`, with the given sign. Beyond some
    exponent every significand gives infinity, or zero, so the exponent is cut off there. -/
def ofDecimal (negative : Bool) (significand : Nat) (exponent : Int) : Binary f :=
  let high : Int := (f.digits + f.binades : Nat)
  let low : Int := f.least - significand.log2 - 2
  let exponent := max low (min high exponent)
  ofRatio negative (significand * Nat.pow 10 exponent.toNat) (Nat.pow 10 (-exponent).toNat)

instance (n : Nat) : OfNat (Binary f) n := ⟨ofRatio false n 1⟩

instance : OfScientific (Binary f) where
  ofScientific significand negativeExponent exponent :=
    ofDecimal false significand (if negativeExponent then -(exponent : Int) else exponent)

/-- Infinity, with the given sign. -/
def infinity (negative : Bool) : Binary f := .real negative (Fin.last f.top)

def isNaN : Binary f → Bool
  | .nan => true
  | .real _ _ => false

def isZero : Binary f → Bool
  | .nan => false
  | .real _ rank => rank.val == 0

def isFinite : Binary f → Bool
  | .nan => false
  | .real _ rank => rank.val < f.top

/-! ## Comparison -/

/-- The place of a number on the line, on which the zeros coincide; NaN has none. -/
def place? : Binary f → Option Int
  | .nan => none
  | .real negative rank => some (if negative then -(rank.val : Int) else rank.val)

/-- Equality as values. -/
def equals (x y : Binary f) : Bool :=
  match x.place?, y.place? with
  | some a, some b => a == b
  | _, _ => false

/-- Order as values. -/
def less (x y : Binary f) : Bool :=
  match x.place?, y.place? with
  | some a, some b => a < b
  | _, _ => false

instance : LT (Binary f) := ⟨fun x y => x.less y = true⟩

instance (x y : Binary f) : Decidable (x < y) := inferInstanceAs (Decidable (x.less y = true))

/-- The lesser of two numbers; NaN gives way to the other, and of two equal numbers the first
    is taken. -/
def lesser (x y : Binary f) : Binary f :=
  if x.isNaN || y < x then y else x

/-- The greater of two numbers; NaN gives way to the other, and of two equal numbers the first
    is taken. -/
def greater (x y : Binary f) : Binary f :=
  if x.isNaN || x < y then y else x

/-! ## Arithmetic -/

def neg : Binary f → Binary f
  | .nan => .nan
  | .real negative rank => .real (!negative) rank

/-- The sum. Infinities of opposite signs have none, and a sum that is exactly zero is the
    positive zero, unless both terms are negative. -/
def add : Binary f → Binary f → Binary f
  | .nan, _ => .nan
  | .real _ _, .nan => .nan
  | .real s a, .real t b =>
    if a.val = f.top then
      if b.val = f.top ∧ s ≠ t then .nan else .real s a
    else if b.val = f.top then .real t b
    else
      let unit := min (f.exponent a) (f.exponent b)
      let signed (negative : Bool) (n : Nat) : Int := if negative then -n else n
      let sum := signed s (f.multiple a unit) + signed t (f.multiple b unit)
      if sum = 0 then .real (s && t) 0 else ofScaled (sum < 0) sum.natAbs unit

/-- The product. Zero times infinity has none. -/
def mul : Binary f → Binary f → Binary f
  | .nan, _ => .nan
  | .real _ _, .nan => .nan
  | .real s a, .real t b =>
    if a.val = f.top ∨ b.val = f.top then
      if a.val = 0 ∨ b.val = 0 then .nan else infinity (s != t)
    else
      ofScaled (s != t) (f.significand a * f.significand b) (f.exponent a + f.exponent b)

/-- The quotient. Zero by zero and infinity by infinity have none. -/
def div : Binary f → Binary f → Binary f
  | .nan, _ => .nan
  | .real _ _, .nan => .nan
  | .real s a, .real t b =>
    if a.val = f.top then
      if b.val = f.top then .nan else infinity (s != t)
    else if b.val = f.top then .real (s != t) 0
    else if b.val = 0 then
      if a.val = 0 then .nan else infinity (s != t)
    else
      let shift := f.exponent a - f.exponent b
      ofRatio (s != t) (f.significand a * Nat.pow 2 shift.toNat)
        (f.significand b * Nat.pow 2 (-shift).toNat)

instance : Neg (Binary f) := ⟨neg⟩
instance : Add (Binary f) := ⟨add⟩
instance : Sub (Binary f) := ⟨fun x y => x + -y⟩
instance : Mul (Binary f) := ⟨mul⟩
instance : Div (Binary f) := ⟨div⟩

/-- The whole number nearest to a number, a half going away from zero. -/
def roundHalfAway : Binary f → Binary f
  | .nan => .nan
  | .real negative rank =>
    if rank.val = f.top ∨ 0 ≤ f.exponent rank then .real negative rank
    else ofRatio negative (roundHalfUp (f.significand rank) (Nat.pow 2 (-f.exponent rank).toNat)) 1

/-- The whole part of a finite number. -/
def truncate : Binary f → Int
  | .nan => 0
  | .real negative rank =>
    let whole :=
      f.significand rank * Nat.pow 2 (f.exponent rank).toNat / Nat.pow 2 (-f.exponent rank).toNat
    if negative then -whole else whole

/-- The number of another format nearest to a number. -/
def convert (g : Format) : Binary f → Binary g
  | .nan => .nan
  | .real negative rank =>
    if rank.val = f.top then infinity negative
    else ofScaled negative (f.significand rank) (f.exponent rank)

/-- Zero loses its sign. -/
def unsignedZero (x : Binary f) : Binary f :=
  if x.isZero then 0 else x

end Binary

/-- A decimal is read to double precision first, and then narrowed. -/
def Single.ofDecimal (negative : Bool) (significand : Nat) (exponent : Int) : Single :=
  (Binary.ofDecimal negative significand exponent : Double).convert .binary32

end SceneCode
