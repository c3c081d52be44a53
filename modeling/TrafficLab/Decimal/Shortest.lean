import TrafficLab.Decimal.Reading

/-!
# Shortest decimals

A floating-point number is written with the fewest digits that read back as the same number; of two
such decimals with equally many digits, the one nearer to it.  The text is always positional.
-/

namespace TrafficLab.Decimal

/-! ## Digits -/

/-- The decimals that read back as a number lie between two ratios over one denominator, ends
included or not. -/
structure Interval where
  low : Nat
  value : Nat
  high : Nat
  den : Nat
  closed : Bool

/-- The numbers that round to `m * 2 ^ q`.  Below a power of two the next number is half as far
away. -/
def Interval.around (m : Nat) (q : Int) : Interval :=
  let halfStep := if m = implicitBit ∧ leastExponent < q then 1 else 2
  let scale := if 0 ≤ q - 2 then 2 ^ (q - 2).toNat else 1
  let den := if 0 ≤ q - 2 then 1 else 2 ^ (2 - q).toNat
  ⟨(4 * m - halfStep) * scale, 4 * m * scale, (4 * m + 2) * scale, den, m % 2 = 0⟩

/-- Whether `digits * unit / den` is in the interval, for a `unit` in numerators. -/
def Interval.holds (i : Interval) (numerator : Nat) : Bool :=
  if i.closed then i.low ≤ numerator && numerator ≤ i.high
  else i.low < numerator && numerator < i.high

/-- The number of zeros by which `num / den < 1` has to be moved to reach 1, at most `limit`. -/
def leadingPlaces (num den : Nat) : Nat → Nat
  | 0 => 0
  | limit + 1 => if den ≤ num then 0 else leadingPlaces (num * 10) den limit + 1

/-- The place of the first digit of `num / den`: 0 for the ones. -/
def firstPlace (num den : Nat) : Int :=
  if den ≤ num then Int.ofNat ((Nat.toDigits 10 (num / den)).length - 1)
  else -Int.ofNat (leadingPlaces num den 400)

/-- The multiple of `10 ^ place` in the interval that is nearest to its value, of two the greater.
-/
def Interval.atPlace? (i : Interval) (place : Int) : Option Nat :=
  let scale := 10 ^ (-place).toNat
  let unit := i.den * 10 ^ place.toNat
  let i : Interval :=
    { i with low := i.low * scale, value := i.value * scale, high := i.high * scale }
  let d := i.value / unit
  let down := d * unit
  let up := (d + 1) * unit
  match i.holds down, i.holds up with
  | true, true => some (if up - i.value ≤ i.value - down then d + 1 else d)
  | true, false => some d
  | false, true => some (d + 1)
  | false, false => none

/-- The first place, from `place` downwards, that has a decimal in the interval. -/
def Interval.search (i : Interval) : Nat → Int → Nat × Int
  | 0, place => ((i.atPlace? place).getD 0, place)
  | n + 1, place =>
    match i.atPlace? place with
    | some d => (d, place)
    | none => i.search n (place - 1)

/-- The digits and the place of the last of them: the shortest decimal of `m * 2 ^ q`. -/
def shortest (m : Nat) (q : Int) : Nat × Int :=
  let i := Interval.around m q
  i.search 17 (firstPlace i.value i.den)

/-! ## Texts -/

/-- `digits * 10 ^ place` in positional notation, without needless zeros. -/
def positional (digits : Nat) (place : Int) : String :=
  if 0 ≤ place then
    toString digits ++ String.ofList (List.replicate place.toNat '0')
  else
    let places := (-place).toNat
    let cs := Nat.toDigits 10 digits
    let cs := List.replicate (places + 1 - cs.length) '0' ++ cs
    let whole := cs.take (cs.length - places)
    let fraction := (cs.drop (cs.length - places)).reverse.dropWhile (· == '0') |>.reverse
    if fraction.isEmpty then String.ofList whole
    else String.ofList whole ++ "." ++ String.ofList fraction

/-- The text of a floating-point number: the shortest decimal, without an exponent. -/
def text (x : Float) : String :=
  match parts x with
  | .nan => "NaN"
  | .infinite negative => if negative then "-inf" else "inf"
  | .finite negative m q =>
    let magnitude :=
      if m = 0 then "0" else
        let (digits, place) := shortest m q
        positional digits place
    if negative then "-" ++ magnitude else magnitude

/-- The text of a floating-point number rounded to a whole one, halves to the even side. -/
def wholeText (x : Float) : String :=
  match parts x with
  | .nan => "NaN"
  | .infinite negative => if negative then "-inf" else "inf"
  | .finite negative m q =>
    let magnitude := toString (roundHalfEven m q)
    if negative then "-" ++ magnitude else magnitude

end TrafficLab.Decimal
