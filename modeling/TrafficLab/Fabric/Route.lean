import TrafficLab.Fabric.Placement

/-!
# Routes between regions

The route from `a` to `b` is a shortest chain of links, at each step to the lowest-numbered region
from which a shortest chain goes on.

`levels` spreads out from `b`: level `n` holds the regions that are `n` links away.  When `a` is
met, the route steps down through the levels.
-/

namespace TrafficLab.Route

/-! ## Algorithm -/

/-- The region that a link leads to from `r`. -/
def across (r : RegionId) (l : Link) : Option RegionId :=
  if l.a = r then some l.b else if l.b = r then some l.a else none

def neighbours (links : List Link) (r : RegionId) : List RegionId := links.filterMap (across r)

def adjacent (links : List Link) (r s : RegionId) : Bool :=
  links.any fun l => (l.a = r ∧ l.b = s) ∨ (l.b = r ∧ l.a = s)

/-- The lowest-numbered of some regions. -/
def lowest? : List RegionId → Option RegionId
  | [] => none
  | r :: rest =>
    match lowest? rest with
    | some s => some (if s.val < r.val then s else r)
    | none => some r

/-- The regions next to a level that have not been seen, each once. -/
def nextLevel (links : List Link) (seen level : List RegionId) : List RegionId :=
  ((level.flatMap (neighbours links)).filter fun r => !seen.contains r).eraseDups

/-- The way from `r` down through levels, each nearer to the target than the one before. -/
def descend (links : List Link) (r : RegionId) : List (List RegionId) → List RegionId
  | [] => [r]
  | level :: nearer =>
    match lowest? (level.filter (adjacent links r)) with
    | some s => r :: descend links s nearer
    | none => [r]

/-- Spreads out from the target until the start is met.  `inner` holds the levels inside `level`,
the outermost first. -/
def levels (links : List Link) (start : RegionId) :
    Nat → List RegionId → List (List RegionId) → List RegionId → Option (List RegionId)
  | 0, _, _, _ => none
  | fuel + 1, seen, inner, level =>
    if start ∈ level then some (descend links start inner)
    else
      match nextLevel links seen level with
      | [] => none
      | next => levels links start fuel (next ++ seen) (level :: inner) next

/-- The regions on the route from `a` to `b`, both included.  There are at most as many levels as
regions. -/
def between (regions : List RegionId) (links : List Link) (a b : RegionId) :
    Option (List RegionId) :=
  levels links a (regions.length + 1) [b] [] [b]

end TrafficLab.Route
