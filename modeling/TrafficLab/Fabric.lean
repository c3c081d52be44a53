import TrafficLab.Fabric.Route

/-!
# Fabrics

A fabric is a placement with nothing wrong with it, and answers the questions that routing asks:
where an endpoint is, which region a core is in, and which regions a packet passes through.
-/

namespace TrafficLab

/-- A placement without faults. -/
structure Fabric where
  placement : Placement
  faultless : placement.fault? = none

namespace Fabric

def ofPlacement (p : Placement) : Except TopologyError Fabric :=
  match h : p.fault? with
  | some e => .error e
  | none => .ok ⟨p, h⟩

variable (f : Fabric)

def coreCount : Nat := f.placement.cores.length

/-- The core that an endpoint is on. -/
def coreOf (e : EndpointId) : Option CoreId :=
  (f.placement.endpoints.find? fun x => x.id = e).map (·.core)

/-- The region that a core is in. -/
def regionOf (c : CoreId) : Option RegionId :=
  (f.placement.cores.find? fun x => x.id = c).map (·.region)

/-- The key bits of a region. -/
def keyBits (r : RegionId) : Option UInt8 :=
  (f.placement.regions.find? fun x => x.id = r).map (·.keyBits)

/-- The regions that a packet passes through from one core to another. -/
def regionsBetween (src dst : CoreId) : Option (List RegionId) := do
  let a ← f.regionOf src
  let b ← f.regionOf dst
  Route.between f.placement.regionIds f.placement.links a b

/-- The regions that a multicast from one core to others passes through. -/
def multicastRegions (src : CoreId) (dsts : List CoreId) : Option (KeySet RegionId) := do
  let a ← f.regionOf src
  let routes ← dsts.mapM (f.regionsBetween src)
  some (KeySet.ofList (a :: routes.flatten))

end Fabric

end TrafficLab
