import TrafficLab.Decimal.Binary

/-!
# Reading decimals

`nearest negative digits exponent` is the floating-point number closest to `digits * 10 ^
exponent`, of two equally close the one with an even significand; there is none when that is beyond
the greatest.

`read?` takes the texts of numbers that a command line may hold.
-/

namespace TrafficLab.Decimal

/-! ## Algorithm -/

/-- The whole power of two with `2 ^ e ≤ num / den < 2 ^ (e + 1)`. -/
def binaryExponent (num den : Nat) : Int :=
  let e := Int.ofNat num.log2 - Int.ofNat den.log2
  let below := if 0 ≤ e then num < den * 2 ^ e.toNat else num * 2 ^ (-e).toNat < den
  if below then e - 1 else e

/-- The floating-point number nearest to `num / den`, if there is one. -/
def nearestRatio? (negative : Bool) (num den : Nat) : Option Float :=
  if num = 0 then some (assemble negative 0 leastExponent)
  else
    let q := max (binaryExponent num den - 52) leastExponent
    let m := if 0 ≤ q then roundDiv num (den * 2 ^ q.toNat) else roundDiv (num * 2 ^ (-q).toNat) den
    let (m, q) := if m = 2 * implicitBit then (implicitBit, q + 1) else (m, q)
    if greatestExponent < q then none else some (assemble negative m q)

/-- The floating-point number nearest to `digits * 10 ^ exponent`, if there is one.  Numbers with
more than 400 digits before or zeros behind the point are settled without computing the power. -/
def nearest? (negative : Bool) (digits : Nat) (exponent : Int) : Option Float :=
  let size := if digits = 0 then 0 else (Nat.toDigits 10 digits).length
  if digits = 0 then some (assemble negative 0 leastExponent)
  else if 400 < Int.ofNat size + exponent then none
  else if Int.ofNat size + exponent < -400 then some (assemble negative 0 leastExponent)
  else if 0 ≤ exponent then nearestRatio? negative (digits * 10 ^ exponent.toNat) 1
  else nearestRatio? negative digits (10 ^ (-exponent).toNat)

/-- The whole number nearest to a floating-point number's magnitude; of two, the even one. -/
def roundHalfEven (m : Nat) (q : Int) : Nat :=
  if 0 ≤ q then m * 2 ^ q.toNat else roundDiv m (2 ^ (-q).toNat)

/-! ## Texts -/

/-- The digits at the front of a text, as a number and how many they are, and the rest. -/
def takeDigits : Nat → Nat → List Char → Nat × Nat × List Char
  | value, count, c :: cs =>
    if c.isDigit then takeDigits (value * 10 + (c.toNat - 48)) (count + 1) cs
    else (value, count, c :: cs)
  | value, count, [] => (value, count, [])

/-- A sign at the front of a text: whether it is a minus, and the rest. -/
def takeSign : List Char → Bool × List Char
  | '-' :: rest => (true, rest)
  | '+' :: rest => (false, rest)
  | cs => (false, cs)

/-- The exponent at the end of a text: a letter `e`, a sign if need be, and digits. -/
def exponent? : List Char → Option Int
  | [] => some 0
  | c :: rest =>
    if c = 'e' ∨ c = 'E' then
      let (negative, rest) := takeSign rest
      match takeDigits 0 0 rest with
      | (_, 0, _) => none
      | (value, _, []) => some (if negative then -Int.ofNat value else Int.ofNat value)
      | _ => none
    else none

/-- Reads a number: a sign if need be, then `inf`, `infinity` or `nan` in any case of letters, or
digits with a point among, before or after them and an exponent if need be.  What is too large is
infinite. -/
def read? (text : String) : Option Float :=
  let (negative, body) := takeSign text.toList
  let lower := String.ofList (body.map Char.toLower)
  if lower = "inf" ∨ lower = "infinity" then some (infinity negative)
  else if lower = "nan" then some (0.0 / 0.0)
  else
    let (whole, wholeCount, rest) := takeDigits 0 0 body
    let (value, places, rest) :=
      match rest with
      | '.' :: rest =>
        let (value, places, rest) := takeDigits whole 0 rest
        (value, places, rest)
      | rest => (whole, 0, rest)
    if wholeCount + places = 0 then none
    else (exponent? rest).map fun e =>
      (nearest? negative value (e - Int.ofNat places)).getD (infinity negative)

end TrafficLab.Decimal
