import TrafficLab.Program

/-!
# Counter dumps

A dump is what is read back from a core after a run: a magic word, the tag of the program, the
number of slots, and then one row of 64-bit values for each record of the counters, the last of
them made at the end of the run.

Reading a dump never fails: what cannot be trusted is left out, and the status says how much that
is.
-/

namespace TrafficLab

/-- The bytes read back from a core. -/
structure CounterDump where
  core : CoreId
  bytes : List UInt8
  deriving DecidableEq

namespace Dump

/-! ## Writing -/

def magic : UInt32 := 0x4E544354

/-- The bytes of a dump of the given values, row after row. -/
def layout (tag slots : UInt32) (values : List UInt64) : List UInt8 :=
  LittleEndian.bytes32 magic ++ LittleEndian.bytes32 tag ++ LittleEndian.bytes32 slots
  ++ values.flatMap LittleEndian.bytes64

end Dump

/-- The dump that a core with the program makes of the given values. -/
def Program.dump (p : Program) (values : List UInt64) : CounterDump :=
  ⟨p.core, Dump.layout p.tag (UInt32.ofNat p.slots.length) values⟩

/-! ## Reading -/

/-- Why a dump is not one of the program's. -/
inductive DumpFault
  | noHeader
  | badMagic (found : UInt32)
  | tagMismatch (expected found : UInt32)
  | slotCountMismatch (expected found : UInt32)
  deriving DecidableEq, Repr

/-- How much of a dump can be trusted. -/
inductive DumpStatus
  /-- All of it. -/
  | decoded
  /-- The first `words` values; the rest is missing. -/
  | truncated (words : Nat)
  /-- Nothing. -/
  | unknown (fault : DumpFault)
  deriving DecidableEq, Repr

/-- The values that one core contributes: a row for each record, an entry for each slot. -/
structure Contribution where
  core : CoreId
  status : DumpStatus
  rows : List (List (Option UInt64))
  deriving DecidableEq

namespace Dump

/-- Cuts a list into rows. -/
def cut {α : Type} : Nat → Nat → List α → List (List α)
  | 0, _, _ => []
  | rows + 1, n, values => values.take n :: cut rows n (values.drop n)

/-- What is wrong with the header of a dump, if anything is. -/
def headerFault? (p : Program) (bytes : List UInt8) : Option DumpFault :=
  let slots := UInt32.ofNat p.slots.length
  match LittleEndian.words32 (bytes.take headerSize) with
  | [found, tag, count] =>
    if found ≠ magic then some (.badMagic found)
    else if tag ≠ p.tag then some (.tagMismatch p.tag tag)
    else if count ≠ slots then some (.slotCountMismatch slots count)
    else none
  | _ => some .noHeader

/-- Reads a dump of the program's. -/
def read (p : Program) (dump : CounterDump) : Contribution :=
  let expected := p.slots.length * p.samples
  match headerFault? p dump.bytes with
  | some fault =>
    ⟨p.core, .unknown fault, cut p.samples p.slots.length (List.replicate expected none)⟩
  | none =>
    let values := (LittleEndian.words64 (dump.bytes.drop headerSize)).take expected
    let found := values.length
    let padded := values.map some ++ List.replicate (expected - found) none
    ⟨p.core, if found = expected then .decoded else .truncated found,
      cut p.samples p.slots.length padded⟩

end Dump

namespace Contribution

variable (c : Contribution) (p : Program)

/-- The value of a slot at the end of the run. -/
def value? (slot : Nat) : Option UInt64 :=
  c.rows.getLast?.bind fun row => (row[slot]?).join

/-- Whether every slot of a flow has a value. -/
def hasFlow (flow : FlowId) : Bool :=
  p.slots.zipIdx.all fun (s, i) => s.flow != some flow || (c.value? i).isSome

/-- The slot that holds a metric of a flow. -/
def slotOf? (flow : FlowId) (metric : Metric) : Option Nat :=
  p.slots.findIdx? fun s => s.flow == some flow && s.metric == metric

/-- A metric of a flow at the end of the run, if every slot of the flow has a value. -/
def flowMetric? (flow : FlowId) (metric : Metric) : Option UInt64 :=
  if c.hasFlow p flow then (slotOf? p flow metric).bind c.value? else none

/-- A metric of a flow at every record, if every slot of the flow has a value at the end. -/
def flowSeries? (flow : FlowId) (metric : Metric) : Option (List UInt64) :=
  if c.hasFlow p flow then
    (slotOf? p flow metric).bind fun slot => c.rows.mapM fun row => (row[slot]?).join
  else none

/-- The router counters that have a value, in the order of their slots. -/
def routerCounters : List (RouterCounter × UInt64) :=
  p.slots.zipIdx.filterMap fun (s, i) =>
    match s.metric with
    | .router counter => (c.value? i).map fun v => (counter, v)
    | _ => none

end Contribution

/-! ## Stored form -/

instance : ToDatum CounterDump where
  toDatum d := .record [("core", toDatum d.core), ("bytes", toDatum d.bytes)]

instance : OfDatum CounterDump where
  ofDatum? d := do
    let f ← d.fields? ["core", "bytes"]
    some ⟨← f.required "core", ← f.required "bytes"⟩

instance : ToDatum DumpFault where
  toDatum
    | .noHeader => .text "no_header"
    | .badMagic found => .record [("bad_magic", toDatum found)]
    | .tagMismatch expected found =>
      .record [("tag_mismatch", .record [("expected", toDatum expected), ("found", toDatum found)])]
    | .slotCountMismatch expected found =>
      .record [("slot_count_mismatch",
        .record [("expected", toDatum expected), ("found", toDatum found)])]

instance : ToDatum DumpStatus where
  toDatum
    | .decoded => .text "decoded"
    | .truncated words => .record [("truncated", .record [("slots", .int words)])]
    | .unknown fault => .record [("unknown", toDatum fault)]

end TrafficLab
