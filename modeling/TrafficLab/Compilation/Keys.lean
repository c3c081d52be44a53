import TrafficLab.Compilation.Error
import TrafficLab.Power
import TrafficLab.Spec.Validation

/-!
# Routing keys

Flows get their keys in the order of their identifiers.  A flow gets the least index that no
earlier flow has with which it shares a region, so packets of different flows never meet under one
key.

    assignKeys fails at a flow  iff  every index of its narrowest region is taken
-/

namespace TrafficLab

/-- A flow with its key. -/
structure KeyedFlow extends RoutedFlow where
  key : RoutingKey

namespace Keys

/-- An index that a flow has, and the regions where it has it. -/
structure Holding where
  regions : KeySet RegionId
  index : Nat

def overlap (s t : KeySet RegionId) : Bool := s.keys.any t.contains

/-- The indices that are taken in some of the regions. -/
def taken (held : List Holding) (regions : KeySet RegionId) : List Nat :=
  (held.filter fun h => overlap h.regions regions).map (·.index)

/-- The least number below `limit` that is not in the list.  Of one number more than the list is
long, at least one is free. -/
def leastFree? (taken : List Nat) (limit : Nat) : Option Nat :=
  (List.range (min limit (taken.length + 1))).find? fun i => !taken.contains i

/-- The region with the fewest key bits; of several, the lowest-numbered. -/
def narrowest? (keyBits : RegionId → Option UInt8) : List RegionId → Option (RegionId × UInt8)
  | [] => none
  | r :: rest =>
    match keyBits r, narrowest? keyBits rest with
    | none, best => best
    | some bits, none => some (r, bits)
    | some bits, some (s, fewest) => if bits ≤ fewest then some (r, bits) else some (s, fewest)

/-- The index of a flow, given those of earlier flows. -/
def choose (fabric : Fabric) (held : List Holding) (flow : RoutedFlow) : Except CompileError Nat :=
  match narrowest? fabric.keyBits flow.route.regions.keys with
  | none => .error (.keySpaceExhausted flow.id ⟨0⟩ 0)
  | some (region, bits) =>
    match leastFree? (taken held flow.route.regions) (2 ^ bits.toNat) with
    | none => .error (.keySpaceExhausted flow.id region bits)
    | some index => .ok index

/-- Gives every flow its key. -/
def assign (fabric : Fabric) (held : List Holding) :
    List RoutedFlow → Except CompileError (List KeyedFlow)
  | [] => .ok []
  | flow :: rest => do
    let index ← choose fabric held flow
    let keyed ← assign fabric (⟨flow.route.regions, index⟩ :: held) rest
    .ok ({ flow with key := .ofIndex (UInt32.ofNat index) } :: keyed)

end Keys

end TrafficLab
