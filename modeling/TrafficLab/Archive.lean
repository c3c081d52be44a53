import TrafficLab.MessagePack.Reader
import TrafficLab.MessagePack.Writer
import TrafficLab.Report.Merge

/-!
# Archives

An archive keeps what a run's report is made from, so that the report can be made again:
`Archive.load?` reads back what `Archive.save` wrote, and `Archive.replay` makes the report.
-/

namespace TrafficLab

structure Archive where
  programs : Table CoreId Program
  dumps : Table CoreId CounterDump
  /-- The cores whose programs could not be loaded. -/
  unreachable : KeySet CoreId
  deriving DecidableEq

instance : ToDatum Archive where
  toDatum a := .record [("programs", toDatum a.programs), ("dumps", toDatum a.dumps),
    ("unreachable", a.unreachable.toDatum)]

instance : OfDatum Archive where
  ofDatum? d := do
    let f ← d.fields? ["programs", "dumps", "unreachable"]
    some ⟨← f.required "programs", ← f.required "dumps",
      ← (f.get? "unreachable").bind KeySet.ofDatum?⟩

namespace Archive

/-- The report of the run. -/
def replay (a : Archive) : Report := .ofDumps a.programs a.dumps a.unreachable

def save (a : Archive) : List UInt8 := MessagePack.write (toDatum a)

def load? (bytes : List UInt8) : Option Archive := (MessagePack.read? bytes).bind ofDatum?

end Archive

end TrafficLab
