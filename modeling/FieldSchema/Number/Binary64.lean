/-!
# Binary floating-point numbers

A `Binary64` is a sign, a whole mantissa and a power of two. Every finite one is a multiple of
`2 ^ (-1074)`, so `Binary64.units` counts it exactly and comparison is comparison of integers.
`Binary64.ofRatio` rounds a quotient to the nearest, a half to the even mantissa.
-/

namespace FieldSchema

/-- A binary64 number: `mantissa * 2 ^ exponent` with a sign, an infinity, or not a number. -/
inductive Binary64 where
  | nan
  | infinite (negative : Bool)
  | finite (negative : Bool) (mantissa : Nat) (exponent : Int)
  deriving DecidableEq, Inhabited

/-- The quotient rounded to the nearest whole number, a half to the even neighbour. -/
def roundQuotient (num den : Nat) : Nat :=
  let q := num / den
  let r := num % den
  if 2 * r < den then q else if den < 2 * r then q + 1 else q + q % 2

namespace Binary64

def minExponent : Int := -1074

def maxExponent : Int := 971

/-- `num / den` times `2 ^ k`, as a quotient. -/
def scaleRatio (num den : Nat) (k : Int) : Nat × Nat :=
  if 0 ≤ k then (num * Nat.pow 2 k.toNat, den) else (num, den * Nat.pow 2 (-k).toNat)

/-- The `k` with `2 ^ k ≤ num / den < 2 ^ (k + 1)`, for positive `num` and `den`. -/
def floorLog (num den : Nat) : Int :=
  let k : Int := (Nat.log2 num : Int) - (Nat.log2 den : Int)
  let (n, d) := scaleRatio num den (-k)
  if n < d then k - 1 else k

/-- The number nearest to `num / den`, an infinity where no finite one is near. -/
def ofRatio (negative : Bool) (num den : Nat) : Binary64 :=
  if num = 0 then .finite negative 0 minExponent
  else
    let exponent := max (floorLog num den - 52) minExponent
    let (n, d) := scaleRatio num den (-exponent)
    let mantissa := roundQuotient n d
    let (mantissa, exponent) :=
      if mantissa = Nat.pow 2 53 then (Nat.pow 2 52, exponent + 1) else (mantissa, exponent)
    if maxExponent < exponent then .infinite negative
    else .finite negative mantissa exponent

def decimalLength (n : Nat) : Nat := (Nat.toDigits 10 n).length

/-- The number nearest to `digits * 10 ^ exponent`. Where the decimal point stands far to the right
or to the left, the answer is an infinity or zero whatever the digits are. -/
def ofDecimal (negative : Bool) (digits : Nat) (exponent : Int) : Binary64 :=
  let point : Int := decimalLength digits + exponent
  if digits = 0 ∨ point < -330 then .finite negative 0 minExponent
  else if 320 < point then .infinite negative
  else if 0 ≤ exponent then ofRatio negative (digits * Nat.pow 10 exponent.toNat) 1
  else ofRatio negative digits (Nat.pow 10 (-exponent).toNat)

/-- A finite number counted in units of `2 ^ (-1074)`. -/
def units (negative : Bool) (mantissa : Nat) (exponent : Int) : Int :=
  let size : Int := (mantissa * Nat.pow 2 (exponent - minExponent).toNat : Nat)
  if negative then -size else size

def unitsPerOne : Nat := Nat.pow 2 1074

/-- The whole number that a finite number is equal to, if any. -/
def toInt? : Binary64 → Option Int
  | .finite negative mantissa exponent =>
    let n := units negative mantissa exponent
    if n % unitsPerOne = 0 then some (n / unitsPerOne) else none
  | _ => none

/-- Whether the number has no fraction. Infinities and not-a-number are not whole. -/
def isWhole (x : Binary64) : Bool := x.toInt?.isSome

def isFinite : Binary64 → Bool
  | .finite .. => true
  | _ => false

end Binary64

end FieldSchema
