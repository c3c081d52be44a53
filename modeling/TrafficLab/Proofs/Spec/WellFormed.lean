import TrafficLab.Proofs.Compilation
import TrafficLab.Proofs.Fabric.Reachability

/-!
# Well-formed specifications

A specification is accepted if and only if it is well formed.  What that means is said here of what
the specification lists and of the chains of links between its regions, and not of how it is
checked.  The flows of an accepted specification are those that it lists, in the order of their
identifiers, and each has the cores of its source and of its sinks and all regions on the routes
between them.

    g.check = .ok () ↔ g.WellFormed                                       (check_eq_ok)
    (∃ r, flow.route fabric = .ok r) ↔ flow.Routable fabric.placement     (route_succeeds)
    (∃ v, s.validate = .ok v) ↔ s.WellFormed                              (validate_succeeds)
    … ∧ ∀ v, s.validate = .ok v → v.Resolves s                            (accepts_well_formed)
-/

namespace TrafficLab

open Checked

/-! ## Generation -/

open Float.Model in
theorem pos_iff_not_le_zero {x : Float} (h : x.isFinite = true) : 0 < x ↔ ¬x ≤ 0 := by
  have hz : (0 : Float).toModel.unpack = .zero .positive := rfl
  have hlt : 0 < x ↔ (0 : Float).toModel.unpack.lt x.toModel.unpack = true := decide_eq_true_iff
  have hle : x ≤ 0 ↔ x.toModel.unpack.le (0 : Float).toModel.unpack = true := decide_eq_true_iff
  unfold Float.isFinite Float.Model.isFinite at h
  rw [hlt, hle, hz]
  cases hu : x.toModel.unpack with
  | notANumber | infinity s =>
    rw [hu] at h
    cases h
  | zero s => exact ⟨fun hpos => (nomatch hpos), fun hnot => absurd rfl hnot⟩
  | finite s m e hm =>
    cases s with
    | positive => exact ⟨fun _ => nofun, fun _ => rfl⟩
    | negative => exact ⟨fun hpos => (nomatch hpos), fun hnot => absurd rfl hnot⟩

theorem isFraction_eq_true {x : Float} : isFraction x = true ↔ 0 ≤ x ∧ x ≤ 1 := by
  unfold isFraction
  rw [Bool.and_eq_true, decide_eq_true_iff, decide_eq_true_iff]

structure Burst.WellFormed (b : Burst) : Prop where
  period : 0 < b.period.toNat
  duty : 0 ≤ b.duty ∧ b.duty ≤ 1
  phase : 0 ≤ b.phase ∧ b.phase ≤ 1

structure Generation.WellFormed (g : Generation) : Prop where
  finite : g.rate.isFinite = true
  positive : 0 < g.rate
  burst : ∀ b ∈ g.burst?, b.WellFormed

theorem Generation.check_eq_ok {g : Generation} : g.check = .ok () ↔ g.WellFormed := by
  have hrate : ¬(!g.rate.isFinite || decide (g.rate ≤ 0)) = true ↔
      g.rate.isFinite = true ∧ 0 < g.rate := by
    cases hfinite : g.rate.isFinite with
    | false => simp
    | true => simp [pos_iff_not_le_zero hfinite]
  unfold Generation.check
  split
  · next hbad =>
    constructor
    · intro h
      cases h
    · intro h
      exact absurd ⟨h.finite, h.positive⟩ (mt hrate.2 (not_not_intro hbad))
  next hgood =>
  obtain ⟨hfinite, hpos⟩ := hrate.1 hgood
  split
  · next hnone =>
    refine ⟨fun _ => ⟨hfinite, hpos, fun b hb => ?_⟩, fun _ => rfl⟩
    rw [hnone] at hb
    cases hb
  next b hb =>
  constructor
  · intro h
    split at h
    · cases h
    next hperiod =>
    split at h
    · cases h
    next hduty =>
    split at h
    · cases h
    next hphase =>
    simp only [Bool.not_eq_true', Bool.not_eq_false, isFraction_eq_true] at hduty hphase
    refine ⟨hfinite, hpos, fun b' hb' => ?_⟩
    obtain rfl : b = b' := Option.some.inj (hb.symm.trans hb')
    exact ⟨Quantity.pos_iff.2 hperiod, hduty, hphase⟩
  · intro h
    have hb := h.burst b hb
    rw [if_neg (Quantity.pos_iff.1 hb.period), isFraction_eq_true.2 hb.duty,
      isFraction_eq_true.2 hb.phase]
    rfl

/-! ## Flows -/

/-- The source and the sinks of a flow are placed on these cores. -/
def Flow.PlacedOn (flow : Flow) (p : Placement) (source : CoreId) (sinks : List CoreId) : Prop :=
  ⟨flow.source, source⟩ ∈ p.endpoints ∧
    List.Forall₂ (fun sink core => ⟨sink, core⟩ ∈ p.endpoints) flow.sinks sinks

theorem Flow.PlacedOn.sinks_ne_nil {flow : Flow} {p : Placement} {source : CoreId}
    {sinks : List CoreId} (h : flow.PlacedOn p source sinks) (hsinks : flow.sinks ≠ []) :
    sinks ≠ [] := by
  rintro rfl
  exact hsinks (List.forall₂_nil_right_iff.1 h.2)

/-- A flow has sinks, each on a core of its own in a region that is connected to the source's. -/
def Flow.Routable (flow : Flow) (p : Placement) : Prop :=
  flow.sinks ≠ [] ∧ ∃ source sinks, flow.PlacedOn p source sinks ∧ sinks.Nodup ∧
    ∀ core ∈ sinks, p.Connects source core

structure Flow.WellFormed (flow : Flow) (p : Placement) (duration : Nanosecs) : Prop where
  routable : flow.Routable p
  generation : flow.generation.WellFormed
  start : flow.start.toNat < duration.toNat

/-- Cores are those of the sinks and all reached if each is that of its sink and connected. -/
theorem Fabric.forall₂_reaches {fabric : Fabric} {source : CoreId} {sinks : List EndpointId}
    {cores : List CoreId} : List.Forall₂ (fabric.Reaches source) sinks cores ↔
      List.Forall₂ (fun sink core => ⟨sink, core⟩ ∈ fabric.placement.endpoints) sinks cores ∧
        ∀ core ∈ cores, fabric.placement.Connects source core := by
  unfold Reaches
  simp only [fabric.coreOf_eq_some, fabric.isSome_regionsBetween]
  constructor
  · intro h
    refine ⟨h.imp fun _ _ hboth => hboth.1, fun core hcore => ?_⟩
    obtain ⟨sink, -, -, hconnects⟩ := exists_of_forall₂ h hcore
    exact hconnects
  · rintro ⟨hplaced, hconnects⟩
    induction hplaced with
    | nil => exact .nil
    | cons hcore _ ih =>
      exact .cons ⟨hcore, hconnects _ List.mem_cons_self⟩
        (ih fun core hm => hconnects core (List.mem_cons_of_mem _ hm))

theorem Flow.placedOn_of_route {fabric : Fabric} {flow : Flow} {r : FlowRoute}
    (h : flow.route fabric = .ok r) : flow.PlacedOn fabric.placement r.source r.sinks := by
  obtain ⟨-, hsource, hreached, -⟩ := Flow.route_eq_ok.1 h
  exact ⟨fabric.coreOf_eq_some.1 hsource, (Fabric.forall₂_reaches.1 hreached).1⟩

theorem Flow.route_succeeds {fabric : Fabric} {flow : Flow} :
    (∃ r, flow.route fabric = .ok r) ↔ flow.Routable fabric.placement := by
  constructor
  · rintro ⟨r, hr⟩
    obtain ⟨hsinks, -, hreached, hnodup, -⟩ := Flow.route_eq_ok.1 hr
    exact ⟨hsinks, r.source, r.sinks, Flow.placedOn_of_route hr, hnodup,
      (Fabric.forall₂_reaches.1 hreached).2⟩
  · rintro ⟨hsinks, source, cores, hplaced, hnodup, hconnects⟩
    obtain ⟨regions, hregions⟩ :=
      fabric.exists_multicastRegions (hplaced.sinks_ne_nil hsinks) hconnects
    exact ⟨⟨source, cores, regions⟩, Flow.route_eq_ok.2 ⟨hsinks, fabric.coreOf_eq_some.2 hplaced.1,
      Fabric.forall₂_reaches.2 ⟨hplaced.2, hconnects⟩, hnodup, hregions⟩⟩

theorem Flow.check_succeeds {fabric : Fabric} {duration : Nanosecs} {flow : Flow} :
    (∃ f, flow.check fabric duration = .ok f) ↔ flow.WellFormed fabric.placement duration := by
  constructor
  · rintro ⟨f, hf⟩
    obtain ⟨rfl, hsound⟩ := Flow.check_eq_ok.1 hf
    exact ⟨Flow.route_succeeds.1 ⟨f.route, hsound.route⟩,
      Generation.check_eq_ok.1 hsound.generation, hsound.start⟩
  · intro h
    obtain ⟨r, hr⟩ := Flow.route_succeeds.2 h.routable
    exact ⟨{ flow with route := r }, Flow.check_eq_ok.2
      ⟨rfl, hr, Generation.check_eq_ok.2 h.generation, h.start⟩⟩

/-! ## Specifications -/

structure Spec.WellFormed (s : Spec) : Prop where
  timestep_pos : 0 < s.timestep.toNat
  timestep_le : s.timestep.toNat ≤ s.duration.toNat
  placement : s.placement.Sound
  ids : (s.flows.map (·.id)).Nodup
  flow : ∀ flow ∈ s.flows, flow.WellFormed s.placement s.duration

theorem Spec.validate_succeeds {s : Spec} : (∃ v, s.validate = .ok v) ↔ s.WellFormed := by
  constructor
  · rintro ⟨v, hv⟩
    obtain ⟨checked, h⟩ := Spec.validate_eq_ok.1 hv
    obtain ⟨hpos, hle⟩ := Spec.checkTiming_eq_ok.1 h.timing
    have hsound := v.fabric.sound
    rw [h.placement] at hsound
    refine ⟨hpos, hle, hsound, h.ids, fun flow hflow => ?_⟩
    obtain ⟨f, -, hf⟩ := exists_of_forall₂ h.flow.flip hflow
    rw [← h.placement]
    exact Flow.check_succeeds.1 ⟨f, hf⟩
  · intro h
    let fabric : Fabric := ⟨s.placement, Placement.fault?_eq_none.2 h.placement⟩
    have hflow : ∀ flow ∈ s.flows, ∃ f, flow.check fabric s.duration = .ok f :=
      fun flow hflow => Flow.check_succeeds.2 (h.flow flow hflow)
    obtain ⟨checked, hchecked⟩ := forall₂_of_exists hflow
    refine ⟨⟨s, fabric, .ofList (checked.map fun f => (f.id, f))⟩,
      Spec.validate_eq_ok.2 ⟨checked, rfl, ?_, rfl, h.ids, hchecked, rfl⟩⟩
    exact Spec.checkTiming_eq_ok.2 ⟨h.timestep_pos, h.timestep_le⟩

/-- What a flow's route holds. -/
structure RoutedFlow.Resolves (f : RoutedFlow) (fabric : Fabric) : Prop where
  placed : f.toFlow.PlacedOn fabric.placement f.route.source f.route.sinks
  regions : ∀ r, r ∈ f.route.regions.keys ↔ ∃ core ∈ f.route.sinks, ∃ path,
    fabric.regionsBetween f.route.source core = some path ∧ r ∈ path

/-- The flows that a specification lists, in the order of their identifiers. -/
structure ValidSpec.Resolves (v : ValidSpec) (s : Spec) : Prop where
  spec : v.spec = s
  placement : v.fabric.placement = s.placement
  flows : (v.flows.values.map (·.toFlow)).Perm s.flows
  ascending : v.flows.values.Pairwise fun f g => f.id.val < g.id.val
  route : ∀ f ∈ v.flows.values, f.Resolves v.fabric

theorem Spec.Validates.perm {s : Spec} {v : ValidSpec} {checked : List RoutedFlow}
    (h : s.Validates v checked) (hv : v.Sound) : v.flows.values.Perm checked := by
  refine (List.perm_ext_iff_of_nodup hv.ids_nodup.of_map h.ids_nodup.of_map).2 fun f => ?_
  rw [hv.mem_flows, h.get?_flows]
  simp

theorem Spec.Validates.perm_toFlow {s : Spec} {v : ValidSpec} {checked : List RoutedFlow}
    (h : s.Validates v checked) (hv : v.Sound) : (v.flows.values.map (·.toFlow)).Perm s.flows := by
  rw [← h.map_toFlow]
  exact (h.perm hv).map _

theorem RoutedFlow.Sound.resolves {fabric : Fabric} {duration : Nanosecs} {f : RoutedFlow}
    (h : f.Sound fabric duration) : f.Resolves fabric := by
  obtain ⟨hsinks, -, -, -, hregions⟩ := Flow.route_eq_ok.1 h.route
  have hplaced := Flow.placedOn_of_route h.route
  exact ⟨hplaced, fun r => fabric.mem_multicastRegions (hplaced.sinks_ne_nil hsinks) hregions⟩

theorem accepts_well_formed (s : Spec) :
    ((∃ v, s.validate = .ok v) ↔ s.WellFormed) ∧ ∀ v, s.validate = .ok v → v.Resolves s := by
  refine ⟨Spec.validate_succeeds, fun v hv => ?_⟩
  obtain ⟨checked, h⟩ := Spec.validate_eq_ok.1 hv
  obtain ⟨rfl, hsound⟩ := Spec.sound_of_validate hv
  exact ⟨rfl, h.placement, h.perm_toFlow hsound, hsound.ascending,
    fun f hf => (hsound.sound_of_mem hf).resolves⟩

theorem accepts_well_formed_twoCores :
    ∃ v, Spec.twoCores.validate = .ok v ∧ Spec.twoCores.WellFormed ∧ v.Resolves Spec.twoCores := by
  obtain ⟨v, c, -, -, hv, -⟩ := Spec.twoCores_compiles
  obtain ⟨haccepts, hresolves⟩ := accepts_well_formed Spec.twoCores
  exact ⟨v, hv, haccepts.1 ⟨v, hv⟩, hresolves v hv⟩

end TrafficLab
