import TrafficLab.Power

/-!
# Binary floating-point numbers as exact numbers

A finite 64-bit floating-point number is `m * 2 ^ q` with a whole `m` below 2^53.  Reading and
writing decimals is done on `m` and `q`, in whole numbers.

    2 * |num - roundDiv num den * den| ≤ den, and a tie goes to the even quotient
-/

namespace TrafficLab.Decimal

/-- A floating-point number taken apart. -/
inductive Parts
  | nan
  | infinite (negative : Bool)
  /-- The number `m * 2 ^ q`, or its opposite. -/
  | finite (negative : Bool) (m : Nat) (q : Int)
  deriving Repr

/-- The significand of the least number with a full exponent range. -/
def implicitBit : Nat := 2 ^ 52

/-- The least exponent of two. -/
def leastExponent : Int := -1074

/-- The greatest exponent of two. -/
def greatestExponent : Int := 971

def parts (x : Float) : Parts :=
  let bits := x.toBits.toNat
  let negative := 2 ^ 63 ≤ bits
  let exponent := bits / 2 ^ 52 % 2048
  let fraction := bits % 2 ^ 52
  if exponent = 2047 then
    if fraction = 0 then .infinite negative else .nan
  else if exponent = 0 then .finite negative fraction leastExponent
  else .finite negative (implicitBit + fraction) (Int.ofNat exponent - 1075)

/-- The floating-point number `m * 2 ^ q` for `m < 2 ^ 53`, where small `m` only go with the least
exponent. -/
def assemble (negative : Bool) (m : Nat) (q : Int) : Float :=
  let magnitude :=
    if m < implicitBit then m else (q + 1075).toNat * 2 ^ 52 + (m - implicitBit)
  Float.ofBits (UInt64.ofNat (if negative then 2 ^ 63 + magnitude else magnitude))

def infinity (negative : Bool) : Float :=
  Float.ofBits (UInt64.ofNat (if negative then 2 ^ 63 + 2047 * 2 ^ 52 else 2047 * 2 ^ 52))

/-- The whole number nearest to `num / den`; of two, the even one. -/
def roundDiv (num den : Nat) : Nat :=
  let d := num / den
  let r := num % den
  if 2 * r < den then d
  else if den < 2 * r then d + 1
  else if d % 2 = 0 then d else d + 1

/-- The whole number nearest to `m * 2 ^ q`; of two, the greater one. -/
def roundHalfUp (m : Nat) (q : Int) : Nat :=
  if 0 ≤ q then m * 2 ^ q.toNat
  else (2 * m + 2 ^ (-q).toNat) / 2 ^ ((-q).toNat + 1)

end TrafficLab.Decimal
