import FieldSchema.Number.Binary64

/-!
# Shortest decimal text of a binary number

The decimal written is the one with the fewest digits among those that round back to the number,
and of these the nearest. It is found in exact arithmetic: for one digit, two digits and so on,
the two neighbours of the number on that decimal grid are tried.
-/

namespace FieldSchema

/-- The decimal `digits * 10 ^ exponent`. -/
structure Decimal where
  digits : Nat
  exponent : Int
  deriving DecidableEq, Inhabited

namespace Binary64

/-- `num / den` divided by `10 ^ k`, as a quotient. -/
def overPowerOfTen (num den : Nat) (k : Int) : Nat × Nat :=
  if 0 ≤ k then (num, den * Nat.pow 10 k.toNat) else (num * Nat.pow 10 (-k).toNat, den)

/-- The reals that round to a positive number: their bounds and the number itself over one
denominator, and whether the bounds belong to them. -/
structure Rounding where
  low : Nat
  value : Nat
  high : Nat
  den : Nat
  closed : Bool

/-- The rounding interval of `mantissa * 2 ^ exponent`. Below a power of two the lower neighbour is
only half as far away. -/
def Rounding.of (mantissa : Nat) (exponent : Int) : Rounding :=
  let below := if mantissa = Nat.pow 2 52 ∧ minExponent < exponent then 1 else 2
  let (scale, den) := scaleRatio 1 1 (exponent - 2)
  { low := (4 * mantissa - below) * scale
    value := 4 * mantissa * scale
    high := (4 * mantissa + 2) * scale
    den := den
    closed := mantissa % 2 = 0 }

/-- Whether `c * 10 ^ k` rounds to the number. -/
def Rounding.holds (r : Rounding) (c : Nat) (k : Int) : Bool :=
  let (num, den) := overPowerOfTen c 1 (-k)
  let (low, point, high) := (r.low * den, num * r.den, r.high * den)
  if r.closed then low ≤ point && point ≤ high else low < point && point < high

/-- The number of places before the decimal point: `10 ^ (p - 1) ≤ value < 10 ^ p`. The guess starts
from below and is raised. -/
def Rounding.places (r : Rounding) : Int :=
  let start : Int := Int.fdiv (floorLog r.value r.den * 30103) 100000 - 1
  let raise (p : Int) : Int :=
    let (num, den) := overPowerOfTen r.value r.den p
    if den ≤ num then p + 1 else p
  raise (raise (raise (raise start)))

/-- The decimal of `count` digits that rounds to the number and is nearest to it, if there is one.
A tie goes to the even last digit. -/
def Rounding.nearest? (r : Rounding) (places : Int) (count : Nat) : Option Decimal :=
  let k := places - count
  let (num, den) := overPowerOfTen r.value r.den k
  let down := num / den
  let rest := num % den
  match r.holds down k, rest ≠ 0 && r.holds (down + 1) k with
  | true, true =>
    if 2 * rest < den then some ⟨down, k⟩
    else if den < 2 * rest then some ⟨down + 1, k⟩
    else some ⟨down + down % 2, k⟩
  | true, false => some ⟨down, k⟩
  | false, true => some ⟨down + 1, k⟩
  | false, false => none

/-- The shortest decimal that rounds to `mantissa * 2 ^ exponent`. Seventeen digits always do. -/
def shortest (mantissa : Nat) (exponent : Int) : Decimal :=
  let r := Rounding.of mantissa exponent
  let places := r.places
  ((List.range 17).findSome? fun n => r.nearest? places (n + 1)).getD ⟨mantissa, 0⟩

/-- Digits with their trailing zeros dropped, and how many were dropped. -/
def dropTrailingZeros (digits : List Char) : List Char × Nat :=
  let kept := (digits.reverse.dropWhile (· == '0')).reverse
  (kept, digits.length - kept.length)

/-- Exponents are written with a sign and at least two digits. -/
def exponentText (e : Int) : List Char :=
  let digits := Nat.toDigits 10 e.natAbs
  (if e < 0 then '-' else '+') :: (if digits.length < 2 then '0' :: digits else digits)

/-- A decimal is written positionally from `0.0001` to just below `10 ^ 16`, always with a point,
and with an exponent elsewhere. -/
def decimalText (d : Decimal) : List Char :=
  let (digits, dropped) := dropTrailingZeros (Nat.toDigits 10 d.digits)
  let point : Int := digits.length + dropped + d.exponent
  if -4 < point ∧ point ≤ 16 then
    if point ≤ 0 then '0' :: '.' :: (List.replicate (-point).toNat '0' ++ digits)
    else if digits.length ≤ point.toNat then
      digits ++ List.replicate (point.toNat - digits.length) '0' ++ ['.', '0']
    else digits.take point.toNat ++ '.' :: digits.drop point.toNat
  else
    let fraction := if digits.length ≤ 1 then [] else '.' :: digits.drop 1
    digits.take 1 ++ fraction ++ 'e' :: exponentText (point - 1)

/-- The text of a number: its shortest decimal, or `inf` or `nan`. -/
def text : Binary64 → String
  | .nan => "nan"
  | .infinite negative => if negative then "-inf" else "inf"
  | .finite negative mantissa exponent =>
    let size := if mantissa = 0 then ['0', '.', '0'] else decimalText (shortest mantissa exponent)
    String.ofList (if negative then '-' :: size else size)

end Binary64

end FieldSchema
