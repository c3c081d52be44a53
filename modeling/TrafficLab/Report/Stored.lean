import TrafficLab.Json.Printer
import TrafficLab.Json.Reader
import TrafficLab.Report

/-!
# Stored reports

The stored form of a report.  Tables are maps; in JSON their keys are the texts of the
identifiers.  An empty timeline is left out.

`Report.write` is a report as a JSON text and `Report.read?` reads one back.
-/

namespace TrafficLab

/-! ## Writing -/

instance : ToDatum LatencySummary where
  toDatum l := .record [("samples", toDatum l.samples), ("mean", toDatum l.mean),
    ("jitter", toDatum l.jitter)]

instance : ToDatum ResultStatus where
  toDatum
    | .complete => .record [("status", .text "complete")]
    | .partially missing => .record [("status", .text "partial"), ("missing", missing.toDatum)]

instance : ToDatum FlowSample where
  toDatum s := .record [("tick", toDatum s.tick), ("sent", toDatum s.sent),
    ("received", toDatum s.received)]

instance : ToDatum FlowResult where
  toDatum r := .record ([("flow", toDatum r.flow), ("sent", toDatum r.sent),
    ("blocked", toDatum r.blocked), ("received", toDatum r.received),
    ("dropped", toDatum r.dropped), ("latency", toDatum r.latency), ("status", toDatum r.status)]
    ++ if r.timeline.isEmpty then [] else [("timeline", toDatum r.timeline)])

instance : ToDatum CoreStatus := ⟨fun s => .text s.name⟩

instance : ToDatum CoreReport where
  toDatum r := .record [("status", toDatum r.status), ("router", toDatum r.router)]

instance : ToDatum Report where
  toDatum r := .record [("flows", toDatum r.flows), ("cores", toDatum r.cores)]

def Report.write (r : Report) : String := Json.pretty (toDatum r)

/-! ## Reading -/

/-- Keys that can be read from a text. -/
class OfKey (κ : Type) where
  ofKey? : String → Option κ

instance {k : Named} : OfKey (Id k) :=
  ⟨fun s => (readWord32 s).toOption.map Id.mk⟩

instance : OfKey RouterCounter := ⟨RouterCounter.ofName?⟩

/-- A table whose keys are texts. -/
def Table.ofTexts? {κ α : Type} [Keyed κ] [OfKey κ] [OfDatum α] : Datum → Option (Table κ α)
  | .map entries => (entries.mapM fun (k, d) => do
      match k with
      | Datum.text s => some (← OfKey.ofKey? s, ← ofDatum? d)
      | _ => none).map Table.ofList
  | _ => none

instance : OfDatum LatencySummary where
  ofDatum? d := do
    let f ← d.fields? ["samples", "mean", "jitter"]
    some ⟨← f.required "samples", ← f.required "mean", ← f.required "jitter"⟩

instance : OfDatum ResultStatus where
  ofDatum? d := do
    let (kind, body) ← d.tagged? "status"
    match kind with
    | "complete" => some .complete
    | "partial" =>
      let f ← body.fields? ["missing"]
      some (.partially (← (f.get? "missing").bind KeySet.ofDatum?))
    | _ => none

instance : OfDatum FlowSample where
  ofDatum? d := do
    let f ← d.fields? ["tick", "sent", "received"]
    some ⟨← f.required "tick", ← f.required "sent", ← f.required "received"⟩

instance : OfDatum FlowResult where
  ofDatum? d := do
    let f ← d.fields? ["flow", "sent", "blocked", "received", "dropped", "latency", "status",
      "timeline"]
    some ⟨← f.required "flow", ← f.required "sent", ← f.required "blocked",
      ← (f.get? "received").bind Table.ofTexts?, ← f.required "dropped", ← f.nullable "latency",
      ← f.required "status", ← f.withDefault "timeline" []⟩

instance : OfDatum CoreStatus where
  ofDatum? d := do
    let name ← d.plainChoice?
    [CoreStatus.decoded, .truncated, .unknown, .unreachable, .missing].find? fun s => s.name == name

instance : OfDatum CoreReport where
  ofDatum? d := do
    let f ← d.fields? ["status", "router"]
    some ⟨← f.required "status", ← (f.get? "router").bind Table.ofTexts?⟩

instance : OfDatum Report where
  ofDatum? d := do
    let f ← d.fields? ["flows", "cores"]
    some ⟨← (f.get? "flows").bind Table.ofTexts?, ← (f.get? "cores").bind Table.ofTexts?⟩

def Report.read? (text : String) : Option Report := (Json.read? text).bind ofDatum?

end TrafficLab
