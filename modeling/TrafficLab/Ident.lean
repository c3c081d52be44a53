/-!
# Identifiers

Flows, endpoints, cores, regions and groups are named by 32-bit numbers.  One type, indexed by what
it names, keeps a core from being taken for a region.

`Keyed` is what the finite maps of this library need of a key: a rank that tells keys apart.

    rank_inj : rank a = rank b → a = b
-/

namespace TrafficLab

/-- What an identifier names. -/
inductive Named
  | flow
  | endpoint
  | core
  | region
  | group
  deriving DecidableEq, Repr

/-- The identifier of a `k`. -/
structure Id (k : Named) where
  val : UInt32
  deriving DecidableEq, Repr

abbrev FlowId := Id .flow
abbrev EndpointId := Id .endpoint
abbrev CoreId := Id .core
abbrev RegionId := Id .region
abbrev GroupId := Id .group

namespace Id

variable {k : Named}

instance : Inhabited (Id k) := ⟨⟨0⟩⟩

instance : ToString (Id k) := ⟨fun a => toString a.val.toNat⟩

instance : LawfulBEq (Id k) := inferInstance

end Id

/-- Keys that are ordered by a natural number. -/
class Keyed (κ : Type) where
  rank : κ → Nat
  rank_inj : ∀ {a b : κ}, rank a = rank b → a = b

instance (k : Named) : Keyed (Id k) where
  rank a := a.val.toNat
  rank_inj {a b} h := by
    cases a; cases b
    simpa [UInt32.toNat_inj] using h

namespace Id

variable {k : Named}

@[simp] theorem rank_eq (a : Id k) : Keyed.rank a = a.val.toNat := rfl

end Id

/-! ## Routing keys -/

/-- The key a multicast packet is routed by.  The low eight bits belong to the cores. -/
structure RoutingKey where
  val : UInt32
  deriving DecidableEq, Repr, Inhabited

namespace RoutingKey

/-- The key of the `index`-th allocation. -/
def ofIndex (index : UInt32) : RoutingKey := ⟨index <<< 8⟩

def index (key : RoutingKey) : UInt32 := key.val >>> 8

/-- The bits of a key that a command stream carries. -/
def carried : UInt32 := 0xFFFFFF00

instance : ToString RoutingKey := ⟨fun key => toString key.val.toNat⟩

end RoutingKey

end TrafficLab
