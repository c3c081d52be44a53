import TrafficLab.Datum

/-!
# Placements

A placement says which core hosts each endpoint, which region each core's router belongs to, and
which regions are connected.  It comes from outside; `Placement.fault?` is the first thing that is
wrong with it, looked for in the regions, the links, the cores and the endpoints, each in the order
they are listed.
-/

namespace TrafficLab

/-- The routers that share one multicast key space. -/
structure Region where
  id : RegionId
  /-- How many bits of a key index can be told apart in this region. -/
  keyBits : UInt8
  deriving DecidableEq, Repr

/-- A connection between two regions, usable both ways. -/
structure Link where
  a : RegionId
  b : RegionId
  deriving DecidableEq, Repr

structure Core where
  id : CoreId
  region : RegionId
  deriving DecidableEq, Repr

/-- A sender or receiver of flows and the core it runs on. -/
structure Endpoint where
  id : EndpointId
  core : CoreId
  deriving DecidableEq, Repr

structure Placement where
  regions : List Region
  links : List Link
  cores : List Core
  endpoints : List Endpoint
  deriving DecidableEq, Repr

/-! ## Faults -/

inductive TopologyError
  | duplicateRegion (id : RegionId)
  | keyWidth (region : RegionId) (bits : UInt8)
  | selfLink (region : RegionId)
  | undeclaredRegion (region : RegionId)
  | duplicateLink (a b : RegionId)
  | duplicateCore (id : CoreId)
  | undeclaredCore (core : CoreId)
  | duplicateEndpoint (id : EndpointId)
  deriving DecidableEq, Repr

def TopologyError.message : TopologyError → String
  | duplicateRegion id => s!"Duplicate region ID {id}"
  | keyWidth region bits =>
    s!"Region {region} has an unsupported key width of {bits.toNat} bits"
  | selfLink region => s!"Region {region} is linked to itself"
  | undeclaredRegion region => s!"Region {region} is not declared"
  | duplicateLink a b => s!"Duplicate links between {a} and {b}"
  | duplicateCore id => s!"Duplicate core ID {id}"
  | undeclaredCore core => s!"Core {core} is not declared"
  | duplicateEndpoint id => s!"Duplicate endpoint ID {id}"

/-- The widest key index that a command can carry: the low eight bits of a key are not part of it.
-/
def maxKeyBits : UInt8 := 24

/-- Whether two links connect the same two regions. -/
def Link.sameEnds (l m : Link) : Bool := (l.a = m.a ∧ l.b = m.b) ∨ (l.a = m.b ∧ l.b = m.a)

/-- The first region with a bad key width, or with the identifier of an earlier one. -/
def regionFault? (seen : List RegionId) : List Region → Option TopologyError
  | [] => none
  | r :: rest =>
    if r.keyBits = 0 ∨ maxKeyBits < r.keyBits then some (.keyWidth r.id r.keyBits)
    else if r.id ∈ seen then some (.duplicateRegion r.id)
    else regionFault? (r.id :: seen) rest

/-- The first link that does not join two declared regions, or joins the same two as an earlier
one. -/
def linkFault? (declared : List RegionId) (seen : List Link) : List Link → Option TopologyError
  | [] => none
  | l :: rest =>
    if l.a = l.b then some (.selfLink l.a)
    else if l.a ∉ declared then some (.undeclaredRegion l.a)
    else if l.b ∉ declared then some (.undeclaredRegion l.b)
    else if seen.any l.sameEnds then some (.duplicateLink l.a l.b)
    else linkFault? declared (l :: seen) rest

/-- The first core in an undeclared region, or with the identifier of an earlier one. -/
def coreFault? (declared : List RegionId) (seen : List CoreId) : List Core → Option TopologyError
  | [] => none
  | c :: rest =>
    if c.region ∉ declared then some (.undeclaredRegion c.region)
    else if c.id ∈ seen then some (.duplicateCore c.id)
    else coreFault? declared (c.id :: seen) rest

/-- The first endpoint on an undeclared core, or with the identifier of an earlier one. -/
def endpointFault? (declared : List CoreId) (seen : List EndpointId) :
    List Endpoint → Option TopologyError
  | [] => none
  | e :: rest =>
    if e.core ∉ declared then some (.undeclaredCore e.core)
    else if e.id ∈ seen then some (.duplicateEndpoint e.id)
    else endpointFault? declared (e.id :: seen) rest

namespace Placement

def regionIds (p : Placement) : List RegionId := p.regions.map (·.id)

def coreIds (p : Placement) : List CoreId := p.cores.map (·.id)

/-- What is wrong with a placement, if anything is. -/
def fault? (p : Placement) : Option TopologyError :=
  (regionFault? [] p.regions).or <|
  (linkFault? p.regionIds [] p.links).or <|
  (coreFault? p.regionIds [] p.cores).or <|
  endpointFault? p.coreIds [] p.endpoints

end Placement

/-! ## Stored form -/

instance : ToDatum Region where
  toDatum r := .record [("id", toDatum r.id), ("key_bits", toDatum r.keyBits)]

instance : OfDatum Region where
  ofDatum? d := do
    let f ← d.fields? ["id", "key_bits"]
    some ⟨← f.required "id", ← f.required "key_bits"⟩

instance : ToDatum Link := ⟨fun l => .record [("a", toDatum l.a), ("b", toDatum l.b)]⟩

instance : OfDatum Link where
  ofDatum? d := do
    let f ← d.fields? ["a", "b"]
    some ⟨← f.required "a", ← f.required "b"⟩

instance : ToDatum Core := ⟨fun c => .record [("id", toDatum c.id), ("region", toDatum c.region)]⟩

instance : OfDatum Core where
  ofDatum? d := do
    let f ← d.fields? ["id", "region"]
    some ⟨← f.required "id", ← f.required "region"⟩

instance : ToDatum Endpoint := ⟨fun e => .record [("id", toDatum e.id), ("core", toDatum e.core)]⟩

instance : OfDatum Endpoint where
  ofDatum? d := do
    let f ← d.fields? ["id", "core"]
    some ⟨← f.required "id", ← f.required "core"⟩

instance : ToDatum Placement where
  toDatum p := .record [("regions", toDatum p.regions), ("links", toDatum p.links),
    ("cores", toDatum p.cores), ("endpoints", toDatum p.endpoints)]

instance : OfDatum Placement where
  ofDatum? d := do
    let f ← d.fields? ["regions", "links", "cores", "endpoints"]
    some ⟨← f.required "regions", ← f.withDefault "links" [], ← f.required "cores",
      ← f.required "endpoints"⟩

end TrafficLab
