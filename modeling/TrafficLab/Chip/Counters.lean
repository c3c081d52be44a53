import TrafficLab.Chip.Setup
import TrafficLab.Dump

/-!
# Counters of a core

What a core has counted, kept by source, by sink and by router counter, and the rows recorded so
far.  A row lists the values in the order of the slots of a setup.  It exists only if every slot
belongs to a role that the counters have, so counters cannot be read through the setup of another
program with more roles.

The values are numbers.  A machine keeps the counters of a run only if every value fits in a 64-bit
word, for it breaks otherwise, and a dump lays out words.
-/

namespace TrafficLab

structure Counters where
  sent : Array Nat
  blocked : Array Nat
  received : Array Nat
  latencySum : Array Nat
  latencySumSq : Array Nat
  /-- The router counters in the order of their bits. -/
  router : Array Nat
  /-- The values recorded before the end of the run, row after row. -/
  recorded : Array Nat
  deriving DecidableEq

namespace Counters

/-- The value of a slot.  A router counter that is not recorded reads as zero. -/
def slot? (c : Counters) (record : CounterSet) (m : Metric) (role : UInt8) : Option Nat :=
  match m with
  | .sent => c.sent[role.toNat]?
  | .blocked => c.blocked[role.toNat]?
  | .received => c.received[role.toNat]?
  | .latencySum => c.latencySum[role.toNat]?
  | .latencySumSq => c.latencySumSq[role.toNat]?
  | .router counter => if record.contains counter then c.router[counter.index]? else some 0

/-- The values in the order of the slots. -/
def row? (c : Counters) (s : Setup) : Option (List Nat) :=
  s.counters.toList.mapM fun (m, role) => c.slot? s.record m role

/-- All recorded rows and the current one, as they are laid out in a dump. -/
def dumpValues? (c : Counters) (s : Setup) : Option (List Nat) :=
  (c.row? s).map fun row => c.recorded.toList ++ row

/-- The counters with the current row recorded. -/
def record? (c : Counters) (s : Setup) : Option Counters :=
  (c.row? s).map fun row => { c with recorded := c.recorded ++ row.toArray }

/-- The bytes of the dump. -/
def dump? (c : Counters) (s : Setup) : Option (List UInt8) :=
  (c.dumpValues? s).map fun values =>
    Dump.layout s.tag (UInt32.ofNat s.counters.size) (values.map UInt64.ofNat)

end Counters

end TrafficLab
