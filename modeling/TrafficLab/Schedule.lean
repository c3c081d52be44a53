import TrafficLab.Datum

/-!
# Schedules

When a source sends, counted in ticks: one packet every so many ticks, or one trial in each tick, of
which `threshold` in 2^32 succeed, perhaps only while a burst window is open.

    the window is open at tick t  iff  (t + phase) % period < duty
-/

namespace TrafficLab

/-- A repeating window, in ticks. -/
structure BurstWindow where
  period : UInt32
  duty : UInt32
  phase : UInt32
  deriving DecidableEq, Repr, Inhabited

namespace BurstWindow

def isOpen (w : BurstWindow) (tick : Nat) : Bool :=
  (tick + w.phase.toNat) % w.period.toNat < w.duty.toNat

/-- Whether the window is open, which a window without a period does not say. -/
def isOpen? (w : BurstWindow) (tick : Nat) : Option Bool :=
  if w.period = 0 then none else some (w.isOpen tick)

end BurstWindow

inductive Schedule
  /-- One packet every `ticks` ticks. -/
  | interval (ticks : UInt32)
  /-- One trial in each tick. -/
  | bernoulli (threshold : UInt32) (burst : Option BurstWindow)
  deriving DecidableEq, Repr

namespace Schedule

/-- The number of thresholds: a trial succeeds with probability `threshold / 2 ^ 32`. -/
def thresholds : Float := 4294967296.0

/-- The number of whole intervals in `ticks` ticks. -/
def wholeIntervals (interval : UInt32) (ticks : UInt64) : UInt64 := ticks / interval.toUInt64

/-- How many packets to expect in `ticks` ticks.  An interval of no ticks has no answer. -/
def expectedPackets? (s : Schedule) (ticks : UInt64) : Option Float :=
  match s with
  | interval every => if every = 0 then none else some (wholeIntervals every ticks).toFloat
  | bernoulli threshold burst =>
    let p := threshold.toFloat / thresholds
    let duty :=
      match burst with
      | some w => w.duty.toFloat / w.period.toFloat
      | none => 1.0
    some (p * duty * ticks.toFloat)

end Schedule

/-! ## Stored form -/

instance : ToDatum BurstWindow where
  toDatum w := .record [("period", toDatum w.period), ("duty", toDatum w.duty),
    ("phase", toDatum w.phase)]

instance : OfDatum BurstWindow where
  ofDatum? d := do
    let f ← d.fields? ["period", "duty", "phase"]
    some ⟨← f.required "period", ← f.required "duty", ← f.required "phase"⟩

instance : ToDatum Schedule where
  toDatum
    | .interval ticks => .record [("kind", .text "interval"), ("ticks", toDatum ticks)]
    | .bernoulli threshold burst =>
      .record [("kind", .text "bernoulli"), ("threshold", toDatum threshold),
        ("burst", toDatum burst)]

instance : OfDatum Schedule where
  ofDatum? d := do
    let (kind, body) ← d.tagged? "kind"
    match kind with
    | "interval" =>
      let f ← body.fields? ["ticks"]
      some (.interval (← f.required "ticks"))
    | "bernoulli" =>
      let f ← body.fields? ["threshold", "burst"]
      some (.bernoulli (← f.required "threshold") (← f.nullable "burst"))
    | _ => none

end TrafficLab
