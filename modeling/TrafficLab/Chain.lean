import TrafficLab.Spec

/-!
# Chain experiments

A chain of regions with equally many cores in each.  Every core, but for those of the last region,
sends one flow to all cores of the next region.

    core c is in region c / cores
    the flow of core c goes to the cores of region c / cores + 1
-/

namespace TrafficLab

structure Chain where
  regions : Nat
  /-- The cores in each region. -/
  cores : Nat
  generation : Generation
  duration : Nanosecs
  timestep : Nanosecs
  recordInterval : Nanosecs
  seed : UInt32

namespace Chain

/-- The key bits of every region. -/
def keyBits : UInt8 := 16

def ident {k : Named} (n : Nat) : Id k := ⟨UInt32.ofNat n⟩

variable (c : Chain)

def coreCount : Nat := c.regions * c.cores

def placement : Placement where
  regions := (List.range c.regions).map fun r => ⟨ident r, keyBits⟩
  links := (List.range (c.regions - 1)).map fun r => ⟨ident r, ident (r + 1)⟩
  cores := (List.range c.coreCount).map fun n => ⟨ident n, ident (n / c.cores)⟩
  endpoints := (List.range c.coreCount).map fun n => ⟨ident n, ident n⟩

/-- The flow of a core. -/
def flow (n : Nat) : Flow where
  id := ident n
  source := ident n
  sinks := (List.range c.cores).map fun i => ident ((n / c.cores + 1) * c.cores + i)
  generation := c.generation
  payload := .withPayload
  start := ⟨0⟩
  group := none

def spec : Spec where
  placement := c.placement
  flows := (List.range (c.coreCount - c.cores)).map c.flow
  duration := c.duration
  timestep := c.timestep
  seed := c.seed
  record := .full
  recordInterval := c.recordInterval
  consume := true
  memoryBudget := Spec.defaultBudget

end Chain

end TrafficLab
