/-!
# Quantities

Times, memory sizes and tick counts are 64-bit counts of a measure.  The measure is part of the
type.

Arithmetic is checked: `add?` and `sub?` have no value where the count would leave its 64 bits.
-/

namespace TrafficLab

/-- What a quantity counts. -/
inductive Measure
  | nanosecond
  | microsecond
  | millisecond
  | byte
  | tick
  deriving DecidableEq, Repr

/-- A count of `m`. -/
structure Quantity (m : Measure) where
  count : UInt64
  deriving DecidableEq, Repr

abbrev Nanosecs := Quantity .nanosecond
abbrev Microsecs := Quantity .microsecond
abbrev Millisecs := Quantity .millisecond
abbrev Bytes := Quantity .byte
abbrev Ticks := Quantity .tick

/-- How a count of the measure is marked in text. -/
def Measure.mark : Measure → String
  | nanosecond => "ns"
  | microsecond => "us"
  | millisecond => "ms"
  | byte => "B"
  | tick => " ticks"

namespace Quantity

variable {m : Measure}

instance : Inhabited (Quantity m) := ⟨⟨0⟩⟩

instance : ToString (Quantity m) := ⟨fun q => toString q.count.toNat ++ m.mark⟩

def toNat (q : Quantity m) : Nat := q.count.toNat

def toFloat (q : Quantity m) : Float := q.count.toFloat

/-- The quantity of a count that fits in 64 bits. -/
def ofNat? (n : Nat) : Option (Quantity m) :=
  if n < UInt64.size then some ⟨UInt64.ofNat n⟩ else none

def ofNat (n : Nat) : Quantity m := ⟨UInt64.ofNat n⟩

def add? (a b : Quantity m) : Option (Quantity m) := ofNat? (a.toNat + b.toNat)

def sub? (a b : Quantity m) : Option (Quantity m) :=
  if b.toNat ≤ a.toNat then some ⟨a.count - b.count⟩ else none

def sum? (qs : List (Quantity m)) : Option (Quantity m) :=
  qs.foldlM add? ⟨0⟩

end Quantity

/-! ## Conversions to nanoseconds -/

def Microsecs.toNanosecs? (t : Microsecs) : Option Nanosecs := Quantity.ofNat? (t.toNat * 1000)

def Millisecs.toNanosecs? (t : Millisecs) : Option Nanosecs := Quantity.ofNat? (t.toNat * 1000000)

/-! ## Reading numbers -/

/-- Why a text is not the number it should be. -/
inductive NumeralError
  | empty
  | invalidDigit
  | tooLarge
  deriving DecidableEq, Repr

def NumeralError.message : NumeralError → String
  | empty => "cannot parse integer from empty string"
  | invalidDigit => "invalid digit found in string"
  | tooLarge => "number too large to fit in target type"

/-- The value of decimal digits, read from the left onto `acc`; a value of `size` or more is
reported where it arises, before the digits after it are looked at. -/
def readDigits (size : Nat) : Nat → List Char → Except NumeralError Nat
  | acc, [] => .ok acc
  | acc, c :: cs =>
    if c.isDigit then
      let acc := acc * 10 + (c.toNat - 48)
      if acc < size then readDigits size acc cs else .error .tooLarge
    else .error .invalidDigit

/-- Reads a number below `size`: decimal digits, after an optional plus sign. -/
def readNumeral (size : Nat) (text : String) : Except NumeralError Nat :=
  match text.toList with
  | [] => .error .empty
  | ['+'] | ['-'] => .error .invalidDigit
  | '+' :: digits => readDigits size 0 digits
  | digits => readDigits size 0 digits

/-- Reads a quantity. -/
def Quantity.read (m : Measure) (text : String) : Except NumeralError (Quantity m) :=
  (readNumeral UInt64.size text).map fun n => ⟨UInt64.ofNat n⟩

/-- Reads an identifier or a key. -/
def readWord32 (text : String) : Except NumeralError UInt32 :=
  (readNumeral UInt32.size text).map UInt32.ofNat

/-! ## Durations

How long an attempt may take and how long to wait are given to the nanosecond. -/

/-- A span of time on the clock, in nanoseconds.  Its whole seconds fit in 64 bits. -/
structure Duration where
  nanos : Nat
  isShort : nanos / 1000000000 < UInt64.size
  deriving DecidableEq, Repr

namespace Duration

/-- The duration of so many nanoseconds, if there is one. -/
def ofNanos? (n : Nat) : Option Duration :=
  if h : n / 1000000000 < UInt64.size then some ⟨n, h⟩ else none

def longest : Duration := ⟨UInt64.size * 1000000000 - 1, by decide⟩

/-- The duration of so many nanoseconds, or the longest. -/
def ofNanos (n : Nat) : Duration := (ofNanos? n).getD longest

def ofSeconds (s : Nat) : Duration := ofNanos (s * 1000000000)

def ofMillis (ms : Nat) : Duration := ofNanos (ms * 1000000)

def add? (a b : Duration) : Option Duration := ofNanos? (a.nanos + b.nanos)

def seconds (d : Duration) : Nat := d.nanos / 1000000000

def subsecNanos (d : Duration) : Nat := d.nanos % 1000000000

/-- `width` decimal digits of `n`. -/
def padded (width n : Nat) : String :=
  let digits := Nat.toDigits 10 n
  String.ofList (List.replicate (width - digits.length) '0' ++ digits)

/-- A whole part and a fraction of `width` digits, without the fraction's trailing zeros. -/
def fractional (whole fraction width : Nat) : String :=
  let digits := (padded width fraction).toList.reverse.dropWhile (· == '0') |>.reverse
  if digits.isEmpty then toString whole else toString whole ++ "." ++ String.ofList digits

/-- The text of a duration, in the largest unit of which it holds at least one. -/
def text (d : Duration) : String :=
  let n := d.subsecNanos
  if 0 < d.seconds then fractional d.seconds n 9 ++ "s"
  else if 1000000 ≤ n then fractional (n / 1000000) (n % 1000000) 6 ++ "ms"
  else if 1000 ≤ n then fractional (n / 1000) (n % 1000) 3 ++ "µs"
  else toString n ++ "ns"

end Duration

def Nanosecs.toDuration (t : Nanosecs) : Duration :=
  ⟨t.toNat, Nat.lt_of_le_of_lt (Nat.div_le_self ..) t.count.toNat_lt⟩

end TrafficLab
