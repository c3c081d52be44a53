import Mathlib.Algebra.Group.Defs
import TrafficLab.CommandLine
import TrafficLab.Proofs.Compilation.LeastKeys
import TrafficLab.Proofs.Fabric.ShortestRoutes
import TrafficLab.Proofs.Spec.WellFormed

/-!
# Chain experiments

Whatever the number of regions, the number of cores in each, the times and the rate of a chain are:
if they make sense, then so does the specification that is made of them.

A flow passes through two neighbouring regions, as the shortest route over one link is that link.
So of the flows with lower identifiers only those from its own region and from the one before it
share a region with it.  These are fewer than twice the cores of a region, and so is the least index
that they leave.

    the shortest route between linked regions is their link            (regionsBetween_of_linked)
    the least free index ≤ the earlier flows that share a region       (LeastKey.index_le)
    c.WellFormed → c.spec.WellFormed                                   (wellFormed_spec)
    … and each of its flows goes from one region to the next           (hop)
    o.Sensible → chainSpec o = .ok s → ∃ v, s.validate = .ok v ∧ …     (chains_are_valid)
-/

namespace TrafficLab

open Checked

/-! ## Neighbouring regions -/

/-- The only shortest chain of links between two linked regions is their link. -/
theorem Fabric.regionsBetween_of_linked (fabric : Fabric) {src dst : CoreId} {a b : RegionId}
    (ha : ⟨src, a⟩ ∈ fabric.placement.cores) (hb : ⟨dst, b⟩ ∈ fabric.placement.cores)
    (hlink : Route.Linked fabric.placement.links a b) (hne : a ≠ b) :
    fabric.regionsBetween src dst = some [a, b] := by
  have hconnected : fabric.placement.Connects src dst := ⟨a, b, ha, hb, .single hlink⟩
  obtain ⟨path, hpath⟩ := Option.isSome_iff_exists.1 (fabric.isSome_regionsBetween.2 hconnected)
  obtain ⟨a', b', ha', hb', hbetween⟩ := fabric.regionsBetween_eq_some.1 hpath
  rw [← fabric.regionOf_eq_some] at ha hb ha' hb'
  rw [ha] at ha'
  rw [hb] at hb'
  cases ha'
  cases hb'
  have hcanonical := Route.canonical_levels Route.layered_init hbetween
  have hshort := hcanonical.shortest [a, b] ((Route.leads_singleton b).cons hlink)
  have hleads := hcanonical.leads
  rw [hpath]
  rcases hleads.cases with ⟨-, e⟩ | ⟨s, rest, rfl, -, hrest⟩
  · exact absurd e hne
  rcases hrest.cases with ⟨rfl, rfl⟩ | ⟨t, rest, rfl, -, hrest⟩
  · rfl
  · have hpos := hrest.length_pos
    simp only [List.length_cons, List.length_nil] at hshort
    omega

/-- There is only one core for each endpoint of a flow. -/
theorem Fabric.placedOn_unique (fabric : Fabric) {flow : Flow} {source source' : CoreId}
    {sinks sinks' : List CoreId} (h : flow.PlacedOn fabric.placement source sinks)
    (h' : flow.PlacedOn fabric.placement source' sinks') : source = source' ∧ sinks = sinks' := by
  have hunique : Relator.RightUnique fun (e : EndpointId) (core : CoreId) =>
      ⟨e, core⟩ ∈ fabric.placement.endpoints := by
    intro e core core' hcore hcore'
    rw [← fabric.coreOf_eq_some] at hcore hcore'
    rw [hcore] at hcore'
    exact Option.some.inj hcore'
  exact ⟨hunique h.1 h'.1, List.right_unique_forall₂' hunique h.2 h'.2⟩

/-! ## Keys -/

namespace Keys

/-- The earlier flows that share a region with a flow. -/
def rivals (earlier : List KeyedFlow) (f : RoutedFlow) : List KeyedFlow :=
  earlier.filter fun g => overlap g.route.regions f.route.regions

theorem mem_rivals_of_not_free {earlier : List KeyedFlow} {f : RoutedFlow} {i : Nat}
    (h : ¬Free earlier f i) : i ∈ (rivals earlier f).map fun g => g.key.index.toNat := by
  unfold Free at h
  push Not at h
  obtain ⟨g, hg, hshared, hi⟩ := h
  exact List.mem_map.2 ⟨g, List.mem_filter.2 ⟨hg, overlap_iff.2 hshared⟩, hi⟩

theorem LeastKey.index_le {fabric : Fabric} {earlier : List KeyedFlow} {f : KeyedFlow}
    (h : LeastKey fabric earlier f) :
    f.key.index.toNat ≤ (rivals earlier f.toRoutedFlow).length := by
  obtain ⟨region, bits, -, ⟨hlt, -⟩, hleast⟩ := h.least
  have htaken : ∀ i < f.key.index.toNat,
      i ∈ (rivals earlier f.toRoutedFlow).map fun g => g.key.index.toNat := by
    intro i hi
    refine mem_rivals_of_not_free fun hfree => ?_
    have hle := hleast ⟨Nat.lt_trans hi hlt, hfree⟩
    omega
  have hle := le_length_of_forall_mem htaken
  rwa [List.length_map] at hle

theorem Exhausted.limit_le {fabric : Fabric} {earlier : List KeyedFlow} {f : RoutedFlow}
    {region : RegionId} {bits : UInt8} (h : Exhausted fabric earlier f region bits) :
    2 ^ bits.toNat ≤ (rivals earlier f).length := by
  have hle := le_length_of_forall_mem fun i hi => mem_rivals_of_not_free (h.none_free i hi)
  rwa [List.length_map] at hle

end Keys

namespace Chain

/-! ## Identifiers -/

theorem toNat_ident {k : Named} {n : Nat} (hn : n < 2 ^ 32) : (ident n : Id k).val.toNat = n :=
  UInt32.toNat_ofNat_of_lt' hn

theorem ident_inj {k : Named} {m n : Nat} (hm : m < 2 ^ 32) (hn : n < 2 ^ 32)
    (h : (ident m : Id k) = ident n) : m = n := by
  rw [← toNat_ident (k := k) hm, h, toNat_ident hn]

theorem nodup_idents {k : Named} {n : Nat} (hn : n ≤ 2 ^ 32) :
    ((List.range n).map (ident : Nat → Id k)).Nodup := by
  refine List.nodup_range.map_on fun a ha b hb h => ident_inj ?_ ?_ h
  · exact Nat.lt_of_lt_of_le (List.mem_range.1 ha) hn
  · exact Nat.lt_of_lt_of_le (List.mem_range.1 hb) hn

/-! ## What a chain lists -/

section
variable (c : Chain)

theorem regionIds_placement : c.placement.regionIds = (List.range c.regions).map ident := by
  unfold Placement.regionIds placement
  rw [List.map_map]
  rfl

theorem coreIds_placement : c.placement.coreIds = (List.range c.coreCount).map ident := by
  unfold Placement.coreIds placement
  rw [List.map_map]
  rfl

theorem endpointIds_placement :
    c.placement.endpoints.map (·.id) = (List.range c.coreCount).map ident := by
  unfold placement
  rw [List.map_map]
  rfl

variable {c}

theorem mem_regionIds {r : Nat} (hr : r < c.regions) : ident r ∈ c.placement.regionIds := by
  rw [regionIds_placement]
  exact List.mem_map.2 ⟨r, List.mem_range.2 hr, rfl⟩

theorem linked_next {r : Nat} (hr : r + 1 < c.regions) :
    Route.Linked c.placement.links (ident r) (ident (r + 1)) :=
  List.mem_map.2 ⟨⟨ident r, ident (r + 1)⟩,
    List.mem_map.2 ⟨r, List.mem_range.2 (Nat.lt_sub_of_add_lt hr), rfl⟩, rfl⟩

theorem core_div {r i : Nat} (hi : i < c.cores) : (r * c.cores + i) / c.cores = r := by
  rw [Nat.mul_comm, Nat.mul_add_div (Nat.zero_lt_of_lt hi), Nat.div_eq_of_lt hi, Nat.add_zero]

theorem core_lt {r i : Nat} (hr : r < c.regions) (hi : i < c.cores) :
    r * c.cores + i < c.coreCount :=
  calc
    r * c.cores + i < r * c.cores + c.cores := Nat.add_lt_add_left hi _
    _ = (r + 1) * c.cores := (Nat.succ_mul r c.cores).symm
    _ ≤ c.regions * c.cores := Nat.mul_le_mul_right _ hr

theorem exists_core {n : Nat} (hn : n < c.coreCount) :
    ∃ r i, r < c.regions ∧ i < c.cores ∧ n = r * c.cores + i := by
  have hpos : 0 < c.cores := Nat.pos_of_ne_zero fun h => by simp [coreCount, h] at hn
  exact ⟨n / c.cores, n % c.cores, (Nat.div_lt_iff_lt_mul hpos).2 hn, Nat.mod_lt n hpos,
    (Nat.div_add_mod' n c.cores).symm⟩

theorem mem_cores {r i : Nat} (hr : r < c.regions) (hi : i < c.cores) :
    ⟨ident (r * c.cores + i), ident r⟩ ∈ c.placement.cores := by
  refine List.mem_map.2 ⟨r * c.cores + i, List.mem_range.2 (core_lt hr hi), ?_⟩
  rw [core_div hi]

theorem mem_endpoints {r i : Nat} (hr : r < c.regions) (hi : i < c.cores) :
    ⟨ident (r * c.cores + i), ident (r * c.cores + i)⟩ ∈ c.placement.endpoints :=
  List.mem_map.2 ⟨r * c.cores + i, List.mem_range.2 (core_lt hr hi), rfl⟩

/-- The cores of all regions but the last have flows. -/
theorem mem_flows {flow : Flow} : flow ∈ c.spec.flows ↔
    ∃ r i, r + 1 < c.regions ∧ i < c.cores ∧ flow = c.flow (r * c.cores + i) := by
  have hcount : c.coreCount - c.cores = (c.regions - 1) * c.cores := by
    rw [coreCount, Nat.sub_mul, Nat.one_mul]
  unfold spec
  rw [List.mem_map]
  constructor
  · rintro ⟨n, hn, rfl⟩
    have hn := List.mem_range.1 hn
    obtain ⟨r, i, hr, hi, rfl⟩ := exists_core (Nat.lt_of_lt_of_le hn (Nat.sub_le _ _))
    refine ⟨r, i, ?_, hi, rfl⟩
    rw [hcount, ← Nat.div_lt_iff_lt_mul (Nat.zero_lt_of_lt hi), core_div hi] at hn
    exact Nat.add_lt_of_lt_sub hn
  · rintro ⟨r, i, hr, hi, rfl⟩
    refine ⟨r * c.cores + i, List.mem_range.2 ?_, rfl⟩
    rw [hcount, ← Nat.div_lt_iff_lt_mul (Nat.zero_lt_of_lt hi), core_div hi]
    exact Nat.lt_sub_of_add_lt hr

theorem flow_sinks {r i : Nat} (hi : i < c.cores) :
    (c.flow (r * c.cores + i)).sinks =
      (List.range c.cores).map fun j => ident ((r + 1) * c.cores + j) := by
  unfold flow
  rw [core_div hi]

theorem flow_placedOn {r i : Nat} (hr : r + 1 < c.regions) (hi : i < c.cores) :
    (c.flow (r * c.cores + i)).PlacedOn c.placement (ident (r * c.cores + i))
      ((List.range c.cores).map fun j => ident ((r + 1) * c.cores + j)) := by
  refine ⟨mem_endpoints (Nat.lt_of_succ_lt hr) hi, ?_⟩
  rw [flow_sinks hi, List.forall₂_map_left_iff, List.forall₂_map_right_iff, List.forall₂_same]
  exact fun j hj => mem_endpoints hr (List.mem_range.1 hj)

end

/-! ## Well-formed chains -/

structure WellFormed (c : Chain) : Prop where
  regions : 2 ≤ c.regions
  cores : 1 ≤ c.cores
  /-- Every core has an identifier. -/
  fits : c.coreCount < 2 ^ 32
  timestep_pos : 0 < c.timestep.toNat
  timestep_le : c.timestep.toNat ≤ c.duration.toNat
  generation : c.generation.WellFormed

/-- With so many cores in each region, the flow from core `i` of region `r` goes to all cores of the
next region, through these two regions and no others. -/
structure Hop (cores : Nat) (fabric : Fabric) (r i : Nat) (f : RoutedFlow) : Prop where
  id : f.id = ident (r * cores + i)
  source : f.route.source = ident (r * cores + i)
  source_region : fabric.regionOf f.route.source = some (ident r)
  sinks : f.route.sinks = (List.range cores).map fun j => ident ((r + 1) * cores + j)
  mem_sinks : ∀ core, core ∈ f.route.sinks ↔ fabric.regionOf core = some (ident (r + 1))
  regions : ∀ s, s ∈ f.route.regions.keys ↔ s = ident r ∨ s = ident (r + 1)

namespace WellFormed

variable {c : Chain} (h : c.WellFormed)

include h

theorem regions_lt : c.regions < 2 ^ 32 :=
  Nat.lt_of_le_of_lt (Nat.le_mul_of_pos_right c.regions h.cores) h.fits

theorem core_inj {k : Named} {r i s j : Nat} (hr : r < c.regions) (hi : i < c.cores)
    (hs : s < c.regions) (hj : j < c.cores)
    (e : (ident (r * c.cores + i) : Id k) = ident (s * c.cores + j)) : r = s ∧ i = j := by
  have e := ident_inj (Nat.lt_trans (core_lt hr hi) h.fits) (Nat.lt_trans (core_lt hs hj) h.fits) e
  have hrow := congrArg (· / c.cores) e
  simp only [core_div hi, core_div hj] at hrow
  subst hrow
  exact ⟨rfl, Nat.add_left_cancel e⟩

theorem toNat_core {k : Named} {r i : Nat} (hr : r < c.regions) (hi : i < c.cores) :
    (ident (r * c.cores + i) : Id k).val.toNat = r * c.cores + i :=
  toNat_ident (Nat.lt_trans (core_lt hr hi) h.fits)

theorem ident_ne_next {k : Named} {r : Nat} (hr : r + 1 < c.regions) :
    (ident r : Id k) ≠ ident (r + 1) := by
  intro e
  have hlt := h.regions_lt
  have := ident_inj (by omega) (by omega) e
  omega

theorem placement_sound : c.placement.Sound where
  keyBits r hr := by
    obtain ⟨i, -, rfl⟩ := List.mem_map.1 hr
    exact ⟨(by decide : keyBits ≠ 0), (by decide : keyBits ≤ maxKeyBits)⟩
  regions := by
    rw [regionIds_placement]
    exact nodup_idents (Nat.le_of_lt h.regions_lt)
  links l hl := by
    obtain ⟨r, hr, rfl⟩ := List.mem_map.1 hl
    have hr : r + 1 < c.regions := Nat.add_lt_of_lt_sub (List.mem_range.1 hr)
    exact ⟨h.ident_ne_next hr, mem_regionIds (Nat.lt_of_succ_lt hr), mem_regionIds hr⟩
  ends := by
    have hlt := h.regions_lt
    unfold placement
    rw [List.map_map]
    refine List.nodup_range.map_on fun r hr s hs e => ?_
    have hr := List.mem_range.1 hr
    have hs := List.mem_range.1 hs
    have hpair : s((ident r : RegionId), ident (r + 1)) = s(ident s, ident (s + 1)) := e
    rcases Sym2.eq_iff.1 hpair with ⟨e, -⟩ | ⟨e, e'⟩
    · exact ident_inj (by omega) (by omega) e
    · have := ident_inj (by omega) (by omega) e
      have := ident_inj (by omega) (by omega) e'
      omega
  cores core hcore := by
    obtain ⟨n, hn, rfl⟩ := List.mem_map.1 hcore
    exact mem_regionIds ((Nat.div_lt_iff_lt_mul h.cores).2 (List.mem_range.1 hn))
  coreIds := by
    rw [coreIds_placement]
    exact nodup_idents (Nat.le_of_lt h.fits)
  endpoints e he := by
    obtain ⟨n, hn, rfl⟩ := List.mem_map.1 he
    rw [coreIds_placement]
    exact List.mem_map.2 ⟨n, hn, rfl⟩
  endpointIds := by
    rw [endpointIds_placement]
    exact nodup_idents (Nat.le_of_lt h.fits)

/-! ### The specification -/

theorem flow_routable {r i : Nat} (hr : r + 1 < c.regions) (hi : i < c.cores) :
    (c.flow (r * c.cores + i)).Routable c.placement := by
  refine ⟨?_, _, _, flow_placedOn hr hi, ?_, fun core hcore => ?_⟩
  · rw [flow_sinks hi, Ne, List.map_eq_nil_iff, List.range_eq_nil]
    exact Nat.ne_of_gt h.cores
  · refine List.nodup_range.map_on fun j hj l hl e => ?_
    exact (h.core_inj hr (List.mem_range.1 hj) hr (List.mem_range.1 hl) e).2
  · obtain ⟨j, hj, rfl⟩ := List.mem_map.1 hcore
    exact ⟨ident r, ident (r + 1), mem_cores (Nat.lt_of_succ_lt hr) hi,
      mem_cores hr (List.mem_range.1 hj), .single (linked_next hr)⟩

theorem wellFormed_spec : c.spec.WellFormed where
  timestep_pos := h.timestep_pos
  timestep_le := h.timestep_le
  placement := h.placement_sound
  ids := by
    have hids : c.spec.flows.map (·.id) = (List.range (c.coreCount - c.cores)).map ident := by
      unfold spec
      rw [List.map_map]
      rfl
    rw [hids]
    exact nodup_idents (Nat.le_of_lt (Nat.lt_of_le_of_lt (Nat.sub_le _ _) h.fits))
  flow flow hflow := by
    obtain ⟨r, i, hr, hi, rfl⟩ := mem_flows.1 hflow
    exact ⟨h.flow_routable hr hi, h.generation, Nat.lt_of_lt_of_le h.timestep_pos h.timestep_le⟩

/-! ### Its flows -/

section
variable {fabric : Fabric} (hfabric : fabric.placement = c.placement)

include hfabric

theorem regionOf_eq_some {r : Nat} (hr : r < c.regions) {core : CoreId} :
    fabric.regionOf core = some (ident r) ↔ ∃ i < c.cores, core = ident (r * c.cores + i) := by
  rw [fabric.regionOf_eq_some, hfabric]
  constructor
  · intro hcore
    obtain ⟨n, hn, e⟩ := List.mem_map.1 hcore
    obtain ⟨s, i, hs, hi, rfl⟩ := exists_core (List.mem_range.1 hn)
    rw [core_div hi] at e
    obtain ⟨rfl, hregion⟩ := Core.mk.inj e
    have hlt := h.regions_lt
    obtain rfl : s = r := ident_inj (by omega) (by omega) hregion
    exact ⟨i, hi, rfl⟩
  · rintro ⟨i, hi, rfl⟩
    exact mem_cores hr hi

theorem hop {r i : Nat} (hr : r + 1 < c.regions) (hi : i < c.cores) {f : RoutedFlow}
    (hflow : f.toFlow = c.flow (r * c.cores + i)) (hf : f.Resolves fabric) :
    Hop c.cores fabric r i f := by
  have hplaced := flow_placedOn hr hi
  rw [← hflow, ← hfabric] at hplaced
  obtain ⟨hsource, hsinks⟩ := fabric.placedOn_unique hf.placed hplaced
  have hregion : fabric.regionOf f.route.source = some (ident r) :=
    (h.regionOf_eq_some hfabric (Nat.lt_of_succ_lt hr)).2 ⟨i, hi, hsource⟩
  have hmem : ∀ core, core ∈ f.route.sinks ↔ fabric.regionOf core = some (ident (r + 1)) := by
    intro core
    rw [h.regionOf_eq_some hfabric hr, hsinks, List.mem_map]
    simp only [List.mem_range, eq_comm]
  refine ⟨by rw [hflow]; rfl, hsource, hregion, hsinks, hmem, fun s => ?_⟩
  have hbetween : ∀ core ∈ f.route.sinks,
      fabric.regionsBetween f.route.source core = some [ident r, ident (r + 1)] := by
    intro core hcore
    refine fabric.regionsBetween_of_linked (fabric.regionOf_eq_some.1 hregion)
      (fabric.regionOf_eq_some.1 ((hmem core).1 hcore)) ?_ (h.ident_ne_next hr)
    rw [hfabric]
    exact linked_next hr
  rw [hf.regions]
  constructor
  · rintro ⟨core, hcore, path, hpath, hs⟩
    rw [hbetween core hcore] at hpath
    cases hpath
    simpa using hs
  · intro hs
    obtain ⟨core, hcore⟩ : ∃ core, core ∈ f.route.sinks :=
      ⟨ident ((r + 1) * c.cores + 0), (hmem _).2
        ((h.regionOf_eq_some hfabric hr).2 ⟨0, h.cores, rfl⟩)⟩
    exact ⟨core, hcore, _, hbetween core hcore, by simpa using hs⟩

end

/-- Flows that share a region start from the same region or from neighbouring ones. -/
theorem near {fabric : Fabric} {r i s j : Nat} (hr : r + 1 < c.regions) (hs : s + 1 < c.regions)
    {f g : RoutedFlow} (hf : Hop c.cores fabric r i f) (hg : Hop c.cores fabric s j g)
    (hshared : ∃ t, t ∈ g.route.regions.keys ∧ t ∈ f.route.regions.keys) : r ≤ s + 1 := by
  have hlt := h.regions_lt
  obtain ⟨t, ht, ht'⟩ := hshared
  rcases (hg.regions t).1 ht with rfl | rfl <;> rcases (hf.regions _).1 ht' with e | e <;>
    · have := ident_inj (by omega) (by omega) e
      omega

section
variable {v : ValidSpec} (hv : c.spec.validate = .ok v)

include hv

theorem exists_hop {f : RoutedFlow} (hf : f ∈ v.flows.values) :
    ∃ r i, r + 1 < c.regions ∧ i < c.cores ∧ Hop c.cores v.fabric r i f := by
  obtain ⟨checked, hchecked⟩ := Spec.validate_eq_ok.1 hv
  obtain ⟨-, hsound⟩ := Spec.sound_of_validate hv
  have hlisted := (hchecked.perm_toFlow hsound).mem_iff.1 (List.mem_map_of_mem hf)
  obtain ⟨r, i, hr, hi, hflow⟩ := mem_flows.1 hlisted
  exact ⟨r, i, hr, hi, h.hop hchecked.placement hr hi hflow (hsound.sound_of_mem hf).resolves⟩

theorem exists_flow {r i : Nat} (hr : r + 1 < c.regions) (hi : i < c.cores) :
    ∃ f ∈ v.flows.values, Hop c.cores v.fabric r i f := by
  obtain ⟨checked, hchecked⟩ := Spec.validate_eq_ok.1 hv
  obtain ⟨-, hsound⟩ := Spec.sound_of_validate hv
  have hlisted := (hchecked.perm_toFlow hsound).mem_iff.2 (mem_flows.2 ⟨r, i, hr, hi, rfl⟩)
  obtain ⟨f, hf, hflow⟩ := List.mem_map.1 hlisted
  exact ⟨f, hf, h.hop hchecked.placement hr hi hflow (hsound.sound_of_mem hf).resolves⟩

omit h in
theorem size_flows : v.flows.size = (c.regions - 1) * c.cores := by
  obtain ⟨checked, hchecked⟩ := Spec.validate_eq_ok.1 hv
  obtain ⟨-, hsound⟩ := Spec.sound_of_validate hv
  have hlength := (hchecked.perm_toFlow hsound).length_eq
  have hcount : c.spec.flows.length = c.coreCount - c.cores := by simp [spec]
  have hsize : v.flows.values.length = v.flows.size := List.length_map _
  rw [List.length_map, hsize, hcount] at hlength
  rw [hlength, coreCount, Nat.sub_mul, Nat.one_mul]

/-! ### Their keys -/

/-- Only flows from the region of a flow and from the one before it can be its rivals. -/
theorem length_rivals_lt {before : List KeyedFlow} {f : RoutedFlow} {after : List RoutedFlow}
    (hsplit : v.flows.values = before.map (·.toRoutedFlow) ++ f :: after) :
    (Keys.rivals before f).length < 2 * c.cores := by
  obtain ⟨-, hsound⟩ := Spec.sound_of_validate hv
  have hascending := hsound.ascending
  rw [hsplit, List.pairwise_append, List.pairwise_map] at hascending
  obtain ⟨hbefore, -, hlower⟩ := hascending
  have hmem : ∀ g ∈ before, g.toRoutedFlow ∈ v.flows.values := fun g hg => by
    rw [hsplit]
    exact List.mem_append_left _ (List.mem_map_of_mem hg)
  obtain ⟨r, i, hr, hi, hf⟩ := h.exists_hop hv (f := f) (by rw [hsplit]; simp)
  let number (g : KeyedFlow) := g.id.val.toNat
  have hnodup : ((Keys.rivals before f).map number).Nodup := by
    refine List.pairwise_map.2 ((hbefore.sublist List.filter_sublist).imp fun hlt => ?_)
    exact Nat.ne_of_lt (UInt32.lt_iff_toNat_lt.1 hlt)
  have hwithin : (Keys.rivals before f).map number ⊆
      List.range' ((r - 1) * c.cores) (r * c.cores + i - (r - 1) * c.cores) := by
    intro n hn
    obtain ⟨g, hg, rfl⟩ := List.mem_map.1 hn
    obtain ⟨hg, hshared⟩ := List.mem_filter.1 hg
    obtain ⟨s, j, hs, hj, hhop⟩ := h.exists_hop hv (hmem g hg)
    have hlt := hlower _ (List.mem_map_of_mem hg) f List.mem_cons_self
    rw [UInt32.lt_iff_toNat_lt, hhop.id, hf.id, h.toNat_core (Nat.lt_of_succ_lt hs) hj,
      h.toNat_core (Nat.lt_of_succ_lt hr) hi] at hlt
    have hnear := h.near hr hs hf hhop (Keys.overlap_iff.1 hshared)
    have hfirst : (r - 1) * c.cores ≤ s * c.cores + j :=
      Nat.le_trans (Nat.mul_le_mul_right _ (Nat.sub_le_of_le_add hnear)) (Nat.le_add_right _ j)
    have hnumber : number g = s * c.cores + j := by
      show g.toRoutedFlow.id.val.toNat = _
      rw [hhop.id, h.toNat_core (Nat.lt_of_succ_lt hs) hj]
    rw [hnumber, List.mem_range'_1]
    omega
  have hlength := (hnodup.subperm hwithin).length_le
  rw [List.length_map, List.length_range'] at hlength
  have hspan : r * c.cores ≤ (r - 1) * c.cores + c.cores := by
    rw [← Nat.succ_mul]
    exact Nat.mul_le_mul_right _ (Nat.le_succ_of_pred_le (Nat.le_refl _))
  have hpos := h.cores
  omega

/-- As long as the keys of a region are enough for two regions, each flow gets one of these. -/
theorem assigns_keys (hkeys : 2 * c.cores ≤ 65536) :
    ∃ keyed, Keys.assign v.fabric [] v.flows.values = .ok keyed ∧
      keyed.map (·.toRoutedFlow) = v.flows.values ∧
        ∀ f ∈ keyed, f.key.index.toNat < 2 * c.cores := by
  obtain ⟨checked, hchecked⟩ := Spec.validate_eq_ok.1 hv
  obtain ⟨-, hsound⟩ := Spec.sound_of_validate hv
  have hplaced : ∀ f ∈ v.flows.values, f.route.Placed v.fabric :=
    fun f hf => (hsound.sound_of_mem hf).placed
  cases hassign : Keys.assign v.fabric [] v.flows.values with
  | ok keyed =>
    obtain ⟨hmap, hgreedy⟩ := (Keys.assign_eq_ok_iff hplaced Keys.holds_nil).1 hassign
    refine ⟨keyed, rfl, hmap, fun f hf => ?_⟩
    obtain ⟨before, after, rfl⟩ := List.append_of_mem hf
    rw [List.map_append, List.map_cons] at hmap
    exact Nat.lt_of_le_of_lt (hgreedy before f after rfl).index_le (h.length_rivals_lt hv hmap.symm)
  | error e =>
    obtain ⟨keyed, f, later, region, bits, hsplit, -, hexhausted, -⟩ :=
      (Keys.assign_eq_error_iff hplaced Keys.holds_nil).1 hassign
    rw [List.nil_append] at hexhausted
    have hbits := v.fabric.keyBits_eq_some.1 hexhausted.narrowest.keyBits
    rw [hchecked.placement] at hbits
    obtain ⟨r, -, hr⟩ := List.mem_map.1 hbits
    obtain ⟨-, rfl⟩ := Region.mk.inj hr
    have hle := hexhausted.limit_le
    have hlt := h.length_rivals_lt hv hsplit
    have hlimit : 2 ^ keyBits.toNat = 65536 := by decide
    omega

end

end WellFormed

end Chain

/-! ## Options -/

namespace CommandLine

/-- The regions, the cores, the times and the rate are those of a chain that can be run. -/
structure Options.Sensible (o : Options) : Prop where
  regions : 2 ≤ o.regions.toNat
  cores : 1 ≤ o.cores.toNat
  fits : o.regions.toNat * o.cores.toNat < 2 ^ 32
  timestep_pos : 0 < o.timestep.toNat
  timestep_le : o.timestep.toNat * 1000 ≤ o.duration.toNat * 1000000
  duration : o.duration.toNat * 1000000 < 2 ^ 64
  finite : o.rate.isFinite = true
  positive : 0 < o.rate

namespace Options.Sensible

variable {o : Options} (h : o.Sensible)

include h

theorem enough_regions : ¬o.regions < 2 :=
  UInt32.not_lt.2 (UInt32.le_iff_toNat_le.2 h.regions)

theorem exists_chainSpec (hrecord : o.recordInterval.toNat * 1000 < 2 ^ 64) :
    ∃ s, chainSpec o = .ok s := by
  obtain ⟨duration, hduration⟩ : ∃ q, o.duration.toNanosecs? = some q :=
    Quantity.exists_ofNat? h.duration
  obtain ⟨timestep, htimestep⟩ : ∃ q, o.timestep.toNanosecs? = some q :=
    Quantity.exists_ofNat? (Nat.lt_of_le_of_lt h.timestep_le h.duration)
  obtain ⟨interval, hinterval⟩ : ∃ q, o.recordInterval.toNanosecs? = some q :=
    Quantity.exists_ofNat? hrecord
  unfold chainSpec
  rw [if_neg h.enough_regions, hduration, htimestep, hinterval]
  exact ⟨_, rfl⟩

theorem exists_chain {s : Spec} (hs : chainSpec o = .ok s) :
    ∃ c : Chain, c.WellFormed ∧ c.regions = o.regions.toNat ∧ c.cores = o.cores.toNat ∧
      s = c.spec := by
  unfold chainSpec at hs
  rw [if_neg h.enough_regions] at hs
  split at hs
  · next duration timestep recordInterval hduration htimestep _ =>
    cases hs
    have hduration : duration.toNat = _ := Quantity.ofNat?_eq_some.1 hduration
    have htimestep : timestep.toNat = _ := Quantity.ofNat?_eq_some.1 htimestep
    refine ⟨_, ⟨?regions, ?cores, ?fits, ?_, ?_, ?_⟩, rfl, rfl, rfl⟩
    · exact h.regions
    · exact h.cores
    · exact h.fits
    · rw [htimestep]
      exact Nat.mul_pos h.timestep_pos (by decide)
    · rw [htimestep, hduration]
      exact h.timestep_le
    · show (if o.poisson then Generation.poisson o.rate else .periodic o.rate).WellFormed
      split
      · exact ⟨h.finite, h.positive, nofun⟩
      · exact ⟨h.finite, h.positive, nofun⟩
  · cases hs

end Options.Sensible

/-! ## Main result -/

/-- Whatever is recorded, the specification of a chain that can be run is valid, and every core but
those of the last region has one flow in it, from its region to the next; keys are given out if
those of a region are enough for two of them, and then no more than these are used. -/
theorem chains_are_valid {o : Options} (h : o.Sensible) :
    (o.recordInterval.toNat * 1000 < 2 ^ 64 → ∃ s, chainSpec o = .ok s) ∧
    ∀ s, chainSpec o = .ok s → ∃ v, s.validate = .ok v ∧
      v.flows.size = (o.regions.toNat - 1) * o.cores.toNat ∧
      (∀ r i, r + 1 < o.regions.toNat → i < o.cores.toNat →
        ∃ f ∈ v.flows.values, Chain.Hop o.cores.toNat v.fabric r i f) ∧
      (2 * o.cores.toNat ≤ 65536 → ∃ keyed, Keys.assign v.fabric [] v.flows.values = .ok keyed ∧
        keyed.map (·.toRoutedFlow) = v.flows.values ∧
          ∀ f ∈ keyed, f.key.index.toNat < 2 * o.cores.toNat) := by
  refine ⟨h.exists_chainSpec, fun s hs => ?_⟩
  obtain ⟨c, hc, hregions, hcores, rfl⟩ := h.exists_chain hs
  rw [← hregions, ← hcores]
  obtain ⟨v, hv⟩ := Spec.validate_succeeds.2 hc.wellFormed_spec
  exact ⟨v, hv, Chain.WellFormed.size_flows hv, fun r i hr hi => hc.exists_flow hv hr hi,
    hc.assigns_keys hv⟩

/-- Four regions with four cores in each, which is what is run if no options are given. -/
theorem chains_are_valid_standard :
    ∃ s v keyed, chainSpec .standard = .ok s ∧ s.validate = .ok v ∧ v.flows.size = 12 ∧
      Keys.assign v.fabric [] v.flows.values = .ok keyed ∧
      keyed.map (·.toRoutedFlow) = v.flows.values ∧ ∀ f ∈ keyed, f.key.index.toNat < 8 := by
  have hstandard : Options.standard.Sensible := by
    refine ⟨by decide, by decide, by decide, by decide, by decide, by decide, ?_, ?_⟩
    · decide +kernel
    · decide +kernel
  obtain ⟨hbuilds, hvalid⟩ := chains_are_valid hstandard
  obtain ⟨s, hs⟩ := hbuilds (by decide)
  obtain ⟨v, hv, hsize, -, hkeys⟩ := hvalid s hs
  obtain ⟨keyed, hassign, hmap, hbelow⟩ := hkeys (by decide)
  exact ⟨s, v, keyed, hs, hv, hsize, hassign, hmap, hbelow⟩

end CommandLine

end TrafficLab
