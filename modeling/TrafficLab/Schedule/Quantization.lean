import TrafficLab.Decimal.Binary
import TrafficLab.Schedule
import TrafficLab.Flow

/-!
# Quantization

Rates and times are rounded to the timestep that all cores share: rates to an interval or a
threshold, burst windows and start times to whole ticks.

    roundTicks: the nearest tick, halves up        ceilTicks: the first tick that is not before
-/

namespace TrafficLab

/-- Why a rate cannot be kept to. -/
inductive QuantizeError
  /-- The timestep is too coarse for it. -/
  | tooHigh
  /-- It would round to no packets at all, or its interval has too many ticks. -/
  | tooLow
  deriving DecidableEq, Repr

namespace Nanosecs

/-- The tick nearest to a time. -/
def roundTicks (timestep t : Nanosecs) : Nat := (t.toNat + timestep.toNat / 2) / timestep.toNat

/-- The first tick that is not before a time. -/
def ceilTicks (timestep t : Nanosecs) : Nat := (t.toNat + (timestep.toNat - 1)) / timestep.toNat

end Nanosecs

namespace Quantization

/-- The packets per tick at a rate. -/
def perTick (timestep : Nanosecs) (rate : Float) : Float := rate * timestep.toFloat / 1e9

/-- The count nearest to a floating-point number, halves up.  Below zero, and for what is not a
number, it is zero; infinity has none. -/
def nearest? (x : Float) : Option Nat :=
  match Decimal.parts x with
  | .nan => some 0
  | .infinite negative => if negative then some 0 else none
  | .finite negative m q => some (if negative then 0 else Decimal.roundHalfUp m q)

def interval (timestep : Nanosecs) (rate : Float) : Except QuantizeError UInt32 :=
  let ticks := 1.0 / perTick timestep rate
  match nearest? ticks with
  | none => .error .tooLow
  | some n =>
    if n = 0 ∧ !ticks.isNaN then .error .tooHigh
    else if UInt32.size ≤ n then .error .tooLow
    else .ok (UInt32.ofNat n)

def threshold (timestep : Nanosecs) (rate : Float) : Except QuantizeError UInt32 :=
  let p := perTick timestep rate
  if 1.0 < p then .error .tooHigh
  else
    let word :=
      match nearest? (p * Schedule.thresholds) with
      | some n => UInt32.ofNat (min n (UInt32.size - 1))
      | none => 0xFFFFFFFF
    if word = 0 then .error .tooLow else .ok word

/-- The ticks nearest to a number of nanoseconds. -/
def ticks (timestep : Nanosecs) (nanos : Float) : Except QuantizeError UInt32 :=
  match nearest? (nanos / timestep.toFloat) with
  | none => .error .tooLow
  | some n => if UInt32.size ≤ n then .error .tooLow else .ok (UInt32.ofNat n)

def window (timestep : Nanosecs) (burst : Burst) : Except QuantizeError BurstWindow := do
  let period := burst.period.toFloat
  let w : BurstWindow := ⟨← ticks timestep period, ← ticks timestep (period * burst.duty),
    ← ticks timestep (period * burst.phase)⟩
  if w.period = 0 then .error .tooHigh else .ok w

end Quantization

open Quantization in
/-- The schedule that a generation policy comes to. -/
def Generation.schedule (timestep : Nanosecs) : Generation → Except QuantizeError Schedule
  | periodic rate => do .ok (.interval (← interval timestep rate))
  | poisson rate => do .ok (.bernoulli (← threshold timestep rate) none)
  | bursty rate burst => do
    .ok (.bernoulli (← threshold timestep rate) (some (← window timestep burst)))

end TrafficLab
