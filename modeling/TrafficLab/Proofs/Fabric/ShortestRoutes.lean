import TrafficLab.Proofs.Fabric.Reachability
import TrafficLab.Proofs.Fabric.Relisting

/-!
# Routes are shortest, and the lowest of the shortest

Of all chains of links from one region to another, the route between them is one with the fewest
links and, of those, the one that comes first when chains are compared region by region.

A search keeps its levels apart by distance: the level around `n` others holds the regions that are
`n` links away from the target, no more and no fewer.  So every step down through the levels brings
a route one link nearer, no region is met twice, and the lowest-numbered next region is the lowest
that any shortest chain can take.

    r is in the level around `inner` ↔ r is `inner.length` links away     (Layered.next)
    a step down is the lowest of all steps that come nearer               (descend_succ)
    between … = some path → path is canonical                             (routes_are_canonical)
-/

namespace TrafficLab

namespace Route

/-! ## Chains and distances -/

/-- The list is a chain of links from `a` to `b`, both included. -/
structure Leads (links : List Link) (a b : RegionId) (path : List RegionId) : Prop where
  first : path.head? = some a
  last : path.getLast? = some b
  linked : path.IsChain (Linked links)

/-- The shortest chains from `r` to `b` have `n` links. -/
structure Away (links : List Link) (b : RegionId) (n : Nat) (r : RegionId) : Prop where
  reached : ∃ path, Leads links r b path ∧ path.length = n + 1
  least : ∀ path, Leads links r b path → n + 1 ≤ path.length

variable {links : List Link} {b : RegionId}

theorem leads_singleton (r : RegionId) : Leads links r r [r] := ⟨rfl, rfl, .singleton r⟩

theorem Leads.cons {r s : RegionId} {path : List RegionId} (hlink : Linked links r s)
    (h : Leads links s b path) : Leads links r b (r :: path) := by
  cases path with
  | nil => exact nomatch h.first
  | cons t rest =>
    obtain rfl : t = s := Option.some_inj.1 h.first
    exact ⟨rfl, by rw [List.getLast?_cons_cons]; exact h.last, .cons_cons hlink h.linked⟩

/-- A chain ends where it begins, or goes over a link to the beginning of another. -/
theorem Leads.cases {r : RegionId} {path : List RegionId} (h : Leads links r b path) :
    path = [r] ∧ r = b ∨ ∃ s rest, path = r :: rest ∧ Linked links r s ∧ Leads links s b rest := by
  cases path with
  | nil => exact nomatch h.first
  | cons t rest =>
    obtain rfl : t = r := Option.some_inj.1 h.first
    cases rest with
    | nil => exact .inl ⟨rfl, Option.some_inj.1 h.last⟩
    | cons s rest =>
      obtain ⟨hlink, hlinked⟩ := List.isChain_cons_cons.1 h.linked
      have hlast : (s :: rest).getLast? = some b := by
        rw [← List.getLast?_cons_cons]
        exact h.last
      exact .inr ⟨s, s :: rest, rfl, hlink, rfl, hlast, hlinked⟩

theorem Leads.length_pos {r : RegionId} {path : List RegionId} (h : Leads links r b path) :
    0 < path.length := by
  rcases h.cases with ⟨rfl, -⟩ | ⟨s, rest, rfl, -, -⟩ <;> simp

namespace Away

variable {n m : Nat} {r : RegionId}

theorem zero_iff : Away links b 0 r ↔ r = b := by
  constructor
  · rintro ⟨⟨path, hpath, hlen⟩, -⟩
    rcases hpath.cases with ⟨-, h⟩ | ⟨s, rest, rfl, -, hrest⟩
    · exact h
    · have := hrest.length_pos
      rw [List.length_cons] at hlen
      omega
  · rintro rfl
    exact ⟨⟨[r], leads_singleton r, rfl⟩, fun path hpath => hpath.length_pos⟩

theorem unique (h : Away links b m r) (h' : Away links b n r) : m = n := by
  obtain ⟨path, hpath, hlen⟩ := h.reached
  obtain ⟨path', hpath', hlen'⟩ := h'.reached
  have hle := h.least path' hpath'
  have hle' := h'.least path hpath
  omega

/-- A shortest chain goes on over a region that is one link nearer. -/
theorem tail (h : Away links b (n + 1) r) {path : List RegionId} (hpath : Leads links r b path)
    (hlen : path.length = n + 2) :
    ∃ s rest, path = r :: rest ∧ Linked links r s ∧ Leads links s b rest ∧ Away links b n s := by
  rcases hpath.cases with ⟨rfl, -⟩ | ⟨s, rest, rfl, hlink, hrest⟩
  · simp at hlen
  · have hrestlen : rest.length = n + 1 := by simpa using hlen
    refine ⟨s, rest, rfl, hlink, hrest, ⟨rest, hrest, hrestlen⟩, fun other hother => ?_⟩
    have hle := h.least (r :: other) (hother.cons hlink)
    simp at hle
    omega

end Away

/-! ## Levels -/

/-- Lists of regions, each of those that are as far away as there are lists after it. -/
inductive Layers (links : List Link) (b : RegionId) : List (List RegionId) → Prop
  | nil : Layers links b []
  | cons {level : List RegionId} {inner : List (List RegionId)}
      (level_iff : ∀ r, r ∈ level ↔ Away links b inner.length r)
      (inner_layers : Layers links b inner) :
      Layers links b (level :: inner)

/-- Where a search stands: its levels are told apart by distance, and what it has seen is what it
could have reached. -/
structure Layered (links : List Link) (b : RegionId) (seen level : List RegionId)
    (inner : List (List RegionId)) : Prop where
  layers : Layers links b (level :: inner)
  seen_iff : ∀ r, r ∈ seen ↔ ∃ path, Leads links r b path ∧ path.length ≤ inner.length + 1

theorem layered_init : Layered links b [b] [b] [] where
  layers := .cons (fun r => List.mem_singleton.trans Away.zero_iff.symm) .nil
  seen_iff := by
    intro r
    rw [List.mem_singleton]
    constructor
    · rintro rfl
      exact ⟨[r], leads_singleton r, by simp⟩
    · rintro ⟨path, hpath, hlen⟩
      refine Away.zero_iff.1 ⟨⟨path, hpath, ?_⟩, fun other hother => hother.length_pos⟩
      have := hpath.length_pos
      simp at hlen
      omega

namespace Layered

variable {seen level : List RegionId} {inner : List (List RegionId)}
  (h : Layered links b seen level inner)

include h

theorem level_iff (r : RegionId) : r ∈ level ↔ Away links b inner.length r := by
  cases h.layers with
  | cons hlevel _ => exact hlevel r

/-- What is one link farther away than a level is what its links lead to and has not been seen. -/
theorem next_iff (r : RegionId) :
    r ∈ nextLevel links seen level ↔ Away links b (inner.length + 1) r := by
  rw [mem_nextLevel, h.seen_iff]
  constructor
  · rintro ⟨⟨s, hs, hlink⟩, hnew⟩
    obtain ⟨path, hpath, hlen⟩ := ((h.level_iff s).1 hs).reached
    refine ⟨⟨r :: path, hpath.cons hlink.symm, by simp [hlen]⟩, fun other hother => ?_⟩
    -- a shorter chain would have been found before
    by_contra hlt
    exact hnew ⟨other, hother, by omega⟩
  · intro haway
    obtain ⟨path, hpath, hlen⟩ := haway.reached
    obtain ⟨s, rest, rfl, hlink, -, hs⟩ := haway.tail hpath hlen
    refine ⟨⟨s, (h.level_iff s).2 hs, hlink.symm⟩, ?_⟩
    rintro ⟨other, hother, hle⟩
    have := haway.least other hother
    omega

theorem next : Layered links b (nextLevel links seen level ++ seen) (nextLevel links seen level)
    (level :: inner) where
  layers := .cons h.next_iff h.layers
  seen_iff := by
    intro r
    rw [List.mem_append, h.next_iff, h.seen_iff, List.length_cons]
    constructor
    · rintro (haway | ⟨path, hpath, hlen⟩)
      · obtain ⟨path, hpath, hlen⟩ := haway.reached
        exact ⟨path, hpath, by omega⟩
      · exact ⟨path, hpath, by omega⟩
    · rintro ⟨path, hpath, hlen⟩
      by_cases hseen : ∃ other, Leads links r b other ∧ other.length ≤ inner.length + 1
      · exact .inr hseen
      · have hfar : ∀ other, Leads links r b other → inner.length + 2 ≤ other.length := by
          intro other hother
          by_contra hlt
          exact hseen ⟨other, hother, by omega⟩
        have := hfar path hpath
        exact .inl ⟨⟨path, hpath, by omega⟩, hfar⟩

end Layered

/-! ## Stepping down -/

section
variable {level : List RegionId} {inner : List (List RegionId)} {r : RegionId}

/-- A step down goes to the lowest of all regions from which a shortest chain goes on. -/
theorem descend_succ (h : Layers links b (level :: inner))
    (hr : Away links b (inner.length + 1) r) :
    ∃ s, descend links r (level :: inner) = r :: descend links s inner ∧ Linked links r s ∧
      Away links b inner.length s ∧
      ∀ t, Linked links r t → Away links b inner.length t → s.val ≤ t.val := by
  have hlevel : ∀ t, t ∈ level ↔ Away links b inner.length t := by
    cases h with
    | cons hlevel _ => exact hlevel
  have hmem : ∀ t, t ∈ level.filter (adjacent links r) ↔
      Away links b inner.length t ∧ Linked links r t := by
    intro t
    rw [List.mem_filter, hlevel, adjacent_iff]
    rfl
  rw [descend]
  split
  · next s hs =>
    obtain ⟨haway, hlink⟩ := (hmem s).1 (lowest?_mem hs)
    exact ⟨s, rfl, hlink, haway, fun t hlink ht => lowest?_le hs t ((hmem t).2 ⟨ht, hlink⟩)⟩
  · next hnone =>
    obtain ⟨path, hpath, hlen⟩ := hr.reached
    obtain ⟨s, rest, -, hlink, -, hs⟩ := hr.tail hpath hlen
    have hstep := (hmem s).2 ⟨hs, hlink⟩
    rw [lowest?_eq_none.1 hnone] at hstep
    exact absurd hstep List.not_mem_nil

theorem leads_descend (h : Layers links b inner) (hr : Away links b inner.length r) :
    Leads links r b (descend links r inner) ∧
      (descend links r inner).length = inner.length + 1 := by
  induction h generalizing r with
  | nil =>
    obtain rfl : r = b := Away.zero_iff.1 hr
    exact ⟨leads_singleton r, rfl⟩
  | cons hlevel hinner ih =>
    obtain ⟨s, hdescend, hlink, hs, -⟩ := descend_succ (.cons hlevel hinner) hr
    obtain ⟨hleads, hlen⟩ := ih hs
    rw [hdescend]
    exact ⟨hleads.cons hlink, by simp [hlen]⟩

/-- Regions on the way down are no farther away than where it starts. -/
theorem away_of_mem_descend (h : Layers links b inner) (hr : Away links b inner.length r)
    {t : RegionId} (ht : t ∈ descend links r inner) : ∃ n ≤ inner.length, Away links b n t := by
  induction h generalizing r with
  | nil =>
    obtain rfl : t = r := List.mem_singleton.1 ht
    exact ⟨0, Nat.le_refl 0, hr⟩
  | @cons level inner hlevel hinner ih =>
    obtain ⟨s, hdescend, -, hs, -⟩ := descend_succ (.cons hlevel hinner) hr
    rw [hdescend] at ht
    rcases List.mem_cons.1 ht with rfl | ht
    · exact ⟨_, Nat.le_refl _, hr⟩
    · obtain ⟨n, hn, haway⟩ := ih hs ht
      exact ⟨n, Nat.le_succ_of_le hn, haway⟩

theorem nodup_descend (h : Layers links b inner) (hr : Away links b inner.length r) :
    (descend links r inner).Nodup := by
  induction h generalizing r with
  | nil => exact List.nodup_singleton r
  | @cons level inner hlevel hinner ih =>
    obtain ⟨s, hdescend, -, hs, -⟩ := descend_succ (.cons hlevel hinner) hr
    rw [hdescend, List.nodup_cons]
    refine ⟨fun hmem => ?_, ih hs⟩
    obtain ⟨n, hn, haway⟩ := away_of_mem_descend hinner hs hmem
    have := haway.unique hr
    simp at this
    omega

/-- Of two chains, the one with the lower region where they part. -/
def Lower : List RegionId → List RegionId → Prop := List.Lex fun r s => r.val < s.val

/-- No other shortest chain is lower. -/
theorem lower_descend (h : Layers links b inner) (hr : Away links b inner.length r)
    {other : List RegionId} (hother : Leads links r b other)
    (hlen : other.length = inner.length + 1) :
    other = descend links r inner ∨ Lower (descend links r inner) other := by
  induction h generalizing r other with
  | nil =>
    rcases hother.cases with ⟨rfl, -⟩ | ⟨s, rest, rfl, -, hrest⟩
    · exact .inl rfl
    · have := hrest.length_pos
      rw [List.length_cons, List.length_nil] at hlen
      omega
  | @cons level inner hlevel hinner ih =>
    obtain ⟨s, hdescend, -, hs, hlowest⟩ := descend_succ (.cons hlevel hinner) hr
    obtain ⟨t, rest, rfl, hlink, hrest, ht⟩ := hr.tail hother hlen
    rw [hdescend]
    by_cases he : s = t
    · subst he
      rcases ih hs hrest (by simpa using hlen) with rfl | hlower
      · exact .inl rfl
      · exact .inr (.cons hlower)
    · -- the chains part here, and the route takes the lower region
      have hlt : s.val < t.val :=
        UInt32.lt_of_le_of_ne (hlowest t hlink ht) fun e => he (congrArg Id.mk e)
      obtain ⟨route, hroute⟩ : ∃ route, descend links s inner = s :: route := by
        rcases (leads_descend hinner hs).1.cases with ⟨e, -⟩ | ⟨_, route, e, -⟩
        · exact ⟨[], e⟩
        · exact ⟨route, e⟩
      obtain ⟨others, rfl⟩ : ∃ others, rest = t :: others := by
        rcases hrest.cases with ⟨e, -⟩ | ⟨_, others, e, -⟩
        · exact ⟨[], e⟩
        · exact ⟨others, e⟩
      rw [hroute]
      exact .inr (.cons (.rel hlt))

end

/-! ## Main result -/

/-- The one chain of links that packets take from `a` to `b`. -/
structure Canonical (links : List Link) (a b : RegionId) (path : List RegionId) : Prop where
  leads : Leads links a b path
  nodup : path.Nodup
  shortest : ∀ other, Leads links a b other → path.length ≤ other.length
  lowest : ∀ other, Leads links a b other → other.length = path.length →
    other = path ∨ Lower path other

theorem canonical_descend {inner : List (List RegionId)} {r : RegionId} (h : Layers links b inner)
    (hr : Away links b inner.length r) : Canonical links r b (descend links r inner) := by
  obtain ⟨hleads, hlen⟩ := leads_descend h hr
  refine ⟨hleads, nodup_descend h hr, fun other hother => ?_, fun other hother heq => ?_⟩
  · rw [hlen]
    exact hr.least other hother
  · exact lower_descend h hr hother (heq.trans hlen)

/-- What a search finds is the way down from the start through the levels inside its own. -/
theorem exists_layers_of_levels {start : RegionId} {fuel : Nat} {seen level path : List RegionId}
    {inner : List (List RegionId)} (h : Layered links b seen level inner)
    (hpath : levels links start fuel seen inner level = some path) :
    ∃ inner, Layers links b inner ∧ Away links b inner.length start ∧
      path = descend links start inner := by
  induction fuel generalizing seen inner level with
  | zero => exact nomatch hpath
  | succ fuel ih =>
    unfold levels at hpath
    split at hpath
    · next hstart =>
      cases hpath
      cases h.layers with
      | cons hlevel hinner => exact ⟨inner, hinner, (hlevel start).1 hstart, rfl⟩
    · split at hpath
      · exact nomatch hpath
      · exact ih h.next hpath

theorem canonical_levels {start : RegionId} {fuel : Nat} {seen level path : List RegionId}
    {inner : List (List RegionId)} (h : Layered links b seen level inner)
    (hpath : levels links start fuel seen inner level = some path) :
    Canonical links start b path := by
  obtain ⟨inner, hlayers, hstart, rfl⟩ := exists_layers_of_levels h hpath
  exact canonical_descend hlayers hstart

/-- On regions and links without a fault, there is a route to a declared region from those that are
connected to it, and it is the lowest of the shortest chains of links. -/
theorem routes_are_canonical {p : Placement}
    (h : (regionFault? [] p.regions).or (linkFault? p.regionIds [] p.links) = none)
    {a b : RegionId} (hb : b ∈ p.regionIds) :
    ((between p.regionIds p.links a b).isSome ↔ Connected p.links a b) ∧
      ∀ path, between p.regionIds p.links a b = some path → Canonical p.links a b path := by
  obtain ⟨-, hlinks⟩ := Option.or_eq_none_iff.1 h
  have hdeclared := (linkFault?_eq_none.1 hlinks).1
  exact ⟨isSome_between (fun l hl => (hdeclared l hl).2) hb,
    fun path hpath => canonical_levels layered_init hpath⟩

/-- Four regions in a ring, listed against their order. -/
def ring : Placement where
  regions := [⟨⟨3⟩, 8⟩, ⟨⟨2⟩, 8⟩, ⟨⟨1⟩, 8⟩, ⟨⟨0⟩, 8⟩]
  links := [⟨⟨2⟩, ⟨3⟩⟩, ⟨⟨0⟩, ⟨2⟩⟩, ⟨⟨3⟩, ⟨1⟩⟩, ⟨⟨1⟩, ⟨0⟩⟩]
  cores := []
  endpoints := []

/-- Across the ring there are two shortest chains; the route is the one over the lower region. -/
theorem routes_are_canonical_ring :
    (regionFault? [] ring.regions).or (linkFault? ring.regionIds [] ring.links) = none ∧
      ⟨3⟩ ∈ ring.regionIds ∧ Connected ring.links ⟨0⟩ ⟨3⟩ ∧
      between ring.regionIds ring.links ⟨0⟩ ⟨3⟩ = some [⟨0⟩, ⟨1⟩, ⟨3⟩] ∧
      Canonical ring.links ⟨0⟩ ⟨3⟩ [⟨0⟩, ⟨1⟩, ⟨3⟩] := by
  have hfault : (regionFault? [] ring.regions).or (linkFault? ring.regionIds [] ring.links) =
      none := by decide
  have hdeclared : (⟨3⟩ : RegionId) ∈ ring.regionIds := by decide
  have hroute : between ring.regionIds ring.links ⟨0⟩ ⟨3⟩ = some [⟨0⟩, ⟨1⟩, ⟨3⟩] := by decide
  obtain ⟨hconnected, hcanonical⟩ := routes_are_canonical hfault hdeclared (a := ⟨0⟩)
  exact ⟨hfault, hdeclared, hconnected.1 (Option.isSome_of_eq_some hroute), hroute,
    hcanonical _ hroute⟩

end Route

end TrafficLab
