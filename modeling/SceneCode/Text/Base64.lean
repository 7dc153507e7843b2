/-!
# Base 64

Bytes as text: three bytes are four digits of six bits each. One or two bytes that are left over
are filled up with zero bits, and the digits without any bit of theirs are written as `=`.
-/

namespace SceneCode.Base64

/-- The digit of a value below 64. -/
def digit (value : Nat) : Char :=
  if value < 26 then Char.ofNat ('A'.toNat + value)
  else if value < 52 then Char.ofNat ('a'.toNat + (value - 26))
  else if value < 62 then Char.ofNat ('0'.toNat + (value - 52))
  else if value = 62 then '+'
  else '/'

/-- The four digits of 24 bits, most significant first. -/
def digits (bits : Nat) : List Char :=
  [digit (bits >>> 18), digit (bits >>> 12 % 64), digit (bits >>> 6 % 64), digit (bits % 64)]

/-- The text of some bytes. -/
def encode : List UInt8 → List Char
  | [] => []
  | [a] => (digits (a.toNat <<< 16)).take 2 ++ ['=', '=']
  | [a, b] => (digits (a.toNat <<< 16 + b.toNat <<< 8)).take 3 ++ ['=']
  | a :: b :: c :: rest =>
    digits (a.toNat <<< 16 + b.toNat <<< 8 + c.toNat) ++ encode rest

end SceneCode.Base64
