import Mathlib.Data.List.Nodup
import TrafficLab.Proofs.Fabric.Placement
import TrafficLab.Spec.Validation

/-!
# Valid specifications

What later stages rely on once a specification has been checked: a timestep that is not zero and not
longer than the run, flows kept under their own identifiers, and for each flow a route from its core
to different cores, within declared regions.

    s.validate = .ok v ↔ every check of it succeeds                 (validate_eq_ok)
    s.validate = .ok v → v.spec = s ∧ v.Sound                       (sound_of_validate)
-/

namespace TrafficLab

open Checked

/-! ## Routes of flows -/

/-- A sink is on a core that can be reached from the source. -/
def Fabric.Reaches (fabric : Fabric) (source : CoreId) (sink : EndpointId) (core : CoreId) : Prop :=
  fabric.coreOf sink = some core ∧ (fabric.regionsBetween source core).isSome

/-- The cores that are found are those of the sinks, each reached and none found twice. -/
theorem sinkCores_eq_ok {fabric : Fabric} {source : CoreId} {found : List CoreId}
    {sinks : List EndpointId} {cores : List CoreId} :
    sinkCores fabric source found sinks = .ok cores ↔
      ∃ others, cores = found.reverse ++ others ∧
        List.Forall₂ (fabric.Reaches source) sinks others ∧ others.Nodup ∧
        ∀ c ∈ others, c ∉ found := by
  induction sinks generalizing found with
  | nil =>
    constructor
    · intro h
      cases h
      exact ⟨[], by simp, .nil, List.nodup_nil, by simp⟩
    · rintro ⟨others, rfl, hreached, -⟩
      cases hreached
      simp [sinkCores]
  | cons sink rest ih =>
    unfold sinkCores
    constructor
    · intro h
      split at h
      · cases h
      next core hcore =>
      split at h
      · cases h
      next hnew =>
      split at h
      · cases h
      next path hpath =>
      -- the sinks that follow avoid the core of this one, as it counts as found for them
      obtain ⟨others, rfl, hreached, hnodup, hfound⟩ := ih.1 h
      have hself : core ∉ others := fun hc => hfound core hc List.mem_cons_self
      have hreach : fabric.Reaches source sink core := ⟨hcore, Option.isSome_of_eq_some hpath⟩
      refine ⟨core :: others, by simp, .cons hreach hreached,
        List.nodup_cons.2 ⟨hself, hnodup⟩, ?_⟩
      intro c hc
      rcases List.mem_cons.1 hc with rfl | hc
      · exact hnew
      · exact fun hm => hfound c hc (List.mem_cons_of_mem _ hm)
    · rintro ⟨others, rfl, hreached, hnodup, hfound⟩
      obtain ⟨core, others, ⟨hcore, hpath⟩, hrest, rfl⟩ := List.forall₂_cons_left_iff.1 hreached
      obtain ⟨path, hpath⟩ := Option.isSome_iff_exists.1 hpath
      rw [List.nodup_cons] at hnodup
      simp only [hcore, hpath, hfound core List.mem_cons_self, if_false]
      refine ih.2 ⟨others, by simp, hrest, hnodup.2, ?_⟩
      intro c hc hm
      rcases List.mem_cons.1 hm with rfl | hm
      · exact hnodup.1 hc
      · exact hfound c (List.mem_cons_of_mem _ hc) hm

theorem Flow.route_eq_ok {fabric : Fabric} {flow : Flow} {r : FlowRoute} :
    flow.route fabric = .ok r ↔
      flow.sinks ≠ [] ∧ fabric.coreOf flow.source = some r.source ∧
        List.Forall₂ (fabric.Reaches r.source) flow.sinks r.sinks ∧ r.sinks.Nodup ∧
        fabric.multicastRegions r.source r.sinks = some r.regions := by
  unfold Flow.route
  constructor
  · intro h
    split at h
    · cases h
    next first others hsinks =>
    split at h
    · cases h
    next source hsource =>
    obtain ⟨cores, hcores, h⟩ := bind_eq_ok.1 h
    split at h
    · cases h
    next regions hregions =>
    cases h
    obtain ⟨_, rfl, hreached, hnodup, -⟩ := sinkCores_eq_ok.1 hcores
    exact ⟨by simp [hsinks], hsource, hreached, hnodup, hregions⟩
  · rintro ⟨hsinks, hsource, hreached, hnodup, hregions⟩
    have hcores : sinkCores fabric r.source [] flow.sinks = .ok r.sinks :=
      sinkCores_eq_ok.2 ⟨r.sinks, rfl, hreached, hnodup, by simp⟩
    split
    · next hnil => exact absurd hnil hsinks
    · simp only [hsource]
      refine bind_eq_ok.2 ⟨r.sinks, hcores, ?_⟩
      rw [hregions]

/-- Where a flow that has been checked runs. -/
structure FlowRoute.Placed (fabric : Fabric) (r : FlowRoute) : Prop where
  sinks_nodup : r.sinks.Nodup
  /-- The packets pass through the region that they start from. -/
  source_region : ∃ a ∈ r.regions.keys, fabric.regionOf r.source = some a
  declared : ∀ a ∈ r.regions.keys, a ∈ fabric.placement.regionIds

theorem Flow.placed_of_route {fabric : Fabric} {flow : Flow} {r : FlowRoute}
    (h : flow.route fabric = .ok r) : r.Placed fabric := by
  obtain ⟨-, -, -, hnodup, hregions⟩ := Flow.route_eq_ok.1 h
  obtain ⟨hsource, hdeclared⟩ := fabric.multicastRegions_eq_some hregions
  exact ⟨hnodup, hsource, hdeclared⟩

/-- What holds of a flow that has been checked. -/
structure RoutedFlow.Sound (fabric : Fabric) (duration : Nanosecs) (f : RoutedFlow) : Prop where
  route : f.toFlow.route fabric = .ok f.route
  generation : f.generation.check = .ok ()
  start : f.start.toNat < duration.toNat

theorem Flow.check_eq_ok {fabric : Fabric} {duration : Nanosecs} {flow : Flow} {f : RoutedFlow} :
    flow.check fabric duration = .ok f ↔ f.toFlow = flow ∧ f.Sound fabric duration := by
  unfold Flow.check
  constructor
  · intro h
    obtain ⟨r, hr, h⟩ := bind_eq_ok.1 h
    obtain ⟨⟨⟩, hg, h⟩ := bind_eq_ok.1 h
    split at h
    · cases h
    · next hs =>
      cases h
      exact ⟨rfl, hr, hg, UInt64.lt_iff_toNat_lt.1 (UInt64.not_le.1 hs)⟩
  · rintro ⟨rfl, hsound⟩
    refine bind_eq_ok.2 ⟨f.route, hsound.route, ?_⟩
    refine bind_eq_ok.2 ⟨(), hsound.generation, ?_⟩
    have hstart : ¬duration.count ≤ f.start.count :=
      UInt64.not_le.2 (UInt64.lt_iff_toNat_lt.2 hsound.start)
    rw [if_neg hstart]

theorem RoutedFlow.Sound.placed {fabric : Fabric} {duration : Nanosecs} {f : RoutedFlow}
    (h : f.Sound fabric duration) : f.route.Placed fabric :=
  Flow.placed_of_route h.route

/-! ## Specifications -/

/-- What holds of a specification that has been checked. -/
structure ValidSpec.Sound (v : ValidSpec) : Prop where
  timestep_pos : 0 < v.spec.timestep.toNat
  timestep_le : v.spec.timestep.toNat ≤ v.spec.duration.toNat
  id_eq : ∀ {id f}, v.flows.get? id = some f → f.id = id
  flow : ∀ {id f}, v.flows.get? id = some f → f.Sound v.fabric v.spec.duration

theorem Quantity.pos_iff {m : Measure} {q : Quantity m} : 0 < q.toNat ↔ q.count ≠ 0 := by
  have hzero : q.toNat = 0 ↔ q.count = 0 := UInt64.toNat_inj (a := q.count) (b := 0)
  rw [Nat.pos_iff_ne_zero, Ne, hzero]

theorem Quantity.ofNat?_eq_some {m : Measure} {n : Nat} {q : Quantity m} :
    Quantity.ofNat? n = some q ↔ q.toNat = n := by
  unfold Quantity.ofNat?
  constructor
  · intro h
    obtain ⟨hlt, h⟩ := Option.ite_none_right_eq_some.1 h
    cases h
    exact UInt64.toNat_ofNat_of_lt' hlt
  · rintro rfl
    have hlt : q.toNat < UInt64.size := q.count.toNat_lt
    rw [if_pos hlt, toNat, UInt64.ofNat_toNat]

theorem Quantity.exists_ofNat? {m : Measure} {n : Nat} (h : n < 2 ^ 64) :
    ∃ q : Quantity m, Quantity.ofNat? n = some q :=
  ⟨⟨UInt64.ofNat n⟩, Quantity.ofNat?_eq_some.2 (UInt64.toNat_ofNat_of_lt' h)⟩

theorem Spec.checkTiming_eq_ok {s : Spec} : s.checkTiming = .ok () ↔
    0 < s.timestep.toNat ∧ s.timestep.toNat ≤ s.duration.toNat := by
  unfold Spec.checkTiming
  constructor
  · intro h
    split at h
    · cases h
    next hz =>
    split at h
    · cases h
    split at h
    · cases h
    next hlt => exact ⟨Quantity.pos_iff.2 hz, UInt64.le_iff_toNat_le.1 (UInt64.not_lt.1 hlt)⟩
  · rintro ⟨hpos, hle⟩
    have hduration : 0 < s.duration.toNat := Nat.lt_of_lt_of_le hpos hle
    have hnot : ¬s.duration.count < s.timestep.count :=
      UInt64.not_lt.2 (UInt64.le_iff_toNat_le.2 hle)
    rw [if_neg (Quantity.pos_iff.1 hpos), if_neg (Quantity.pos_iff.1 hduration), if_neg hnot]

theorem addFlow_eq_ok {fabric : Fabric} {duration : Nanosecs} {t u : Table FlowId RoutedFlow}
    {flow : Flow} :
    addFlow fabric duration t flow = .ok u ↔
      flow.id ∉ t.keys ∧ ∃ f, flow.check fabric duration = .ok f ∧ u = t.insert f.id f := by
  unfold addFlow
  split
  · next hold =>
    rw [Table.contains_eq_true] at hold
    simp [hold]
  · next hnew =>
    rw [Table.contains_eq_true] at hnew
    simp only [hnew, not_false_eq_true, true_and]
    split
    · next fault hfault => simp [hfault]
    · next f hf =>
      have hid : f.id = flow.id := congrArg Flow.id (Flow.check_eq_ok.1 hf).1
      simp [hf, hid, eq_comm]

/-- Flows can all be added if each passes its check and no identifier comes twice. -/
theorem foldlM_addFlow_eq_ok {fabric : Fabric} {duration : Nanosecs}
    {t u : Table FlowId RoutedFlow} {flows : List Flow} :
    flows.foldlM (addFlow fabric duration) t = .ok u ↔
      (flows.map (·.id)).Nodup ∧ (∀ flow ∈ flows, flow.id ∉ t.keys) ∧
        ∃ checked, List.Forall₂ (fun flow f => flow.check fabric duration = .ok f) flows checked ∧
          u = checked.foldl (fun t f => t.insert f.id f) t := by
  induction flows generalizing t with
  | nil =>
    rw [List.foldlM_nil]
    constructor
    · intro h
      cases h
      exact ⟨List.nodup_nil, by simp, [], .nil, rfl⟩
    · rintro ⟨-, -, checked, hchecked, rfl⟩
      cases hchecked
      rfl
  | cons flow rest ih =>
    rw [List.foldlM_cons, bind_eq_ok, List.map_cons, List.nodup_cons]
    constructor
    · rintro ⟨w, hw, h⟩
      obtain ⟨hnew, f, hf, rfl⟩ := addFlow_eq_ok.1 hw
      obtain ⟨hnodup, hothers, checked, hchecked, rfl⟩ := ih.1 h
      have hid : f.id = flow.id := congrArg Flow.id (Flow.check_eq_ok.1 hf).1
      refine ⟨⟨fun hm => ?_, hnodup⟩, fun other hother => ?_, f :: checked, .cons hf hchecked, rfl⟩
      · obtain ⟨other, hother, he⟩ := List.mem_map.1 hm
        exact hothers other hother (Table.mem_keys_insert.2 (.inl (he.trans hid.symm)))
      · rcases List.mem_cons.1 hother with rfl | hother
        · exact hnew
        · exact fun hm => hothers other hother (Table.mem_keys_insert.2 (.inr hm))
    · rintro ⟨⟨hfirst, hnodup⟩, hnew, checked, hchecked, rfl⟩
      obtain ⟨f, others, hf, hrest, rfl⟩ := List.forall₂_cons_left_iff.1 hchecked
      have hid : f.id = flow.id := congrArg Flow.id (Flow.check_eq_ok.1 hf).1
      refine ⟨_, addFlow_eq_ok.2 ⟨hnew flow List.mem_cons_self, f, hf, rfl⟩, ih.2 ?_⟩
      refine ⟨hnodup, fun other hother hm => ?_, others, hrest, rfl⟩
      rcases Table.mem_keys_insert.1 hm with he | hm
      · exact hfirst (List.mem_map.2 ⟨other, hother, he.trans hid⟩)
      · exact hnew other (List.mem_cons_of_mem _ hother) hm

/-- A specification that passes all checks, with its flows as they have been checked. -/
structure Spec.Validates (s : Spec) (v : ValidSpec) (checked : List RoutedFlow) : Prop where
  spec : v.spec = s
  timing : s.checkTiming = .ok ()
  placement : v.fabric.placement = s.placement
  ids : (s.flows.map (·.id)).Nodup
  flow : List.Forall₂ (fun flow f => flow.check v.fabric s.duration = .ok f) s.flows checked
  flows : v.flows = .ofList (checked.map fun f => (f.id, f))

theorem Spec.validate_eq_ok {s : Spec} {v : ValidSpec} :
    s.validate = .ok v ↔ ∃ checked, s.Validates v checked := by
  have htable : ∀ checked : List RoutedFlow,
      checked.foldl (fun t f => t.insert f.id f) Table.empty =
        Table.ofList (checked.map fun f => (f.id, f)) :=
    fun checked => (Table.ofList_map (·.id) id checked).symm
  unfold Spec.validate
  constructor
  · intro h
    obtain ⟨⟨⟩, htiming, h⟩ := bind_eq_ok.1 h
    obtain ⟨fabric, hfabric, h⟩ := bind_eq_ok.1 h
    obtain ⟨flows, hflows, h⟩ := bind_eq_ok.1 h
    cases h
    rw [mapError_eq_ok, Fabric.ofPlacement_eq_ok] at hfabric
    obtain ⟨hids, -, checked, hchecked, rfl⟩ := foldlM_addFlow_eq_ok.1 hflows
    exact ⟨checked, rfl, htiming, hfabric, hids, hchecked, htable checked⟩
  · rintro ⟨checked, h⟩
    refine bind_eq_ok.2 ⟨(), h.timing, ?_⟩
    refine bind_eq_ok.2 ⟨v.fabric, mapError_eq_ok.2 (Fabric.ofPlacement_eq_ok.2 h.placement), ?_⟩
    have hflows : s.flows.foldlM (addFlow v.fabric s.duration) Table.empty = .ok v.flows :=
      foldlM_addFlow_eq_ok.2
        ⟨h.ids, by simp, checked, h.flow, h.flows.trans (htable checked).symm⟩
    refine bind_eq_ok.2 ⟨v.flows, hflows, ?_⟩
    rw [← h.spec]

/-- Validation looks at the placement, the flows and the lengths of the run and of a tick alone. -/
theorem Spec.validate_congr {s t : Spec} {v : ValidSpec} (hv : s.validate = .ok v)
    (hplacement : t.placement = s.placement) (hflows : t.flows = s.flows)
    (hduration : t.duration = s.duration) (htimestep : t.timestep = s.timestep) :
    t.validate = .ok { v with spec := t } := by
  obtain ⟨checked, h⟩ := validate_eq_ok.1 hv
  have htiming : t.checkTiming = s.checkTiming := by
    unfold checkTiming
    rw [hduration, htimestep]
  exact validate_eq_ok.2 ⟨checked, rfl, htiming.trans h.timing, h.placement.trans hplacement.symm,
    hflows ▸ h.ids, hflows ▸ hduration ▸ h.flow, h.flows⟩

namespace Spec.Validates

variable {s : Spec} {v : ValidSpec} {checked : List RoutedFlow} (h : s.Validates v checked)

include h

theorem map_toFlow : checked.map (·.toFlow) = s.flows :=
  map_eq_of_forall₂ h.flow fun _ _ _ hf => (Flow.check_eq_ok.1 hf).1

theorem ids_nodup : (checked.map (·.id)).Nodup := by
  have hids := h.ids
  rw [← h.map_toFlow, List.map_map] at hids
  exact hids

/-- The flows are kept under their own identifiers. -/
theorem get?_flows {id : FlowId} {f : RoutedFlow} :
    v.flows.get? id = some f ↔ f ∈ checked ∧ f.id = id := by
  have hkeys : ((checked.map fun f => (f.id, f)).map (·.1)).Nodup := by
    rw [List.map_map]
    exact h.ids_nodup
  rw [h.flows, Table.get?_ofList hkeys, List.mem_map]
  constructor
  · rintro ⟨g, hg, he⟩
    cases he
    exact ⟨hg, rfl⟩
  · rintro ⟨hf, rfl⟩
    exact ⟨f, hf, rfl⟩

theorem mem_keys_flows {id : FlowId} : id ∈ v.flows.keys ↔ id ∈ s.flows.map (·.id) := by
  rw [← h.map_toFlow, List.map_map, List.mem_map, Table.mem_keys]
  simp only [h.get?_flows, Function.comp_apply]

end Spec.Validates

theorem Spec.sound_of_validate {s : Spec} {v : ValidSpec} (h : s.validate = .ok v) :
    v.spec = s ∧ v.Sound := by
  obtain ⟨checked, h⟩ := Spec.validate_eq_ok.1 h
  obtain ⟨hpos, hle⟩ := Spec.checkTiming_eq_ok.1 h.timing
  obtain rfl := h.spec
  refine ⟨rfl, hpos, hle, fun hf => (h.get?_flows.1 hf).2, fun hf => ?_⟩
  obtain ⟨flow, -, hflow⟩ := exists_of_forall₂ h.flow (h.get?_flows.1 hf).1
  exact (Flow.check_eq_ok.1 hflow).2

/-! ## The flows of a valid specification -/

namespace ValidSpec.Sound

variable {v : ValidSpec} (h : v.Sound)

include h

theorem mem_flows {f : RoutedFlow} : f ∈ v.flows.values ↔ v.flows.get? f.id = some f := by
  rw [Table.mem_values]
  constructor
  · rintro ⟨id, hf⟩
    rw [h.id_eq hf]
    exact hf
  · intro hf
    exact ⟨f.id, hf⟩

theorem sound_of_mem {f : RoutedFlow} (hf : f ∈ v.flows.values) :
    f.Sound v.fabric v.spec.duration :=
  h.flow (h.mem_flows.1 hf)

/-- The flows are listed under their identifiers. -/
theorem ids_eq : v.flows.values.map (·.id) = v.flows.keys := by
  unfold Table.values Table.keys
  rw [List.map_map]
  refine List.map_congr_left fun e he => ?_
  exact h.id_eq (Table.mem_entries.1 he)

theorem ids_nodup : (v.flows.values.map (·.id)).Nodup := by
  rw [h.ids_eq]
  exact v.flows.keys_nodup

/-- The flows are listed in the order of their identifiers. -/
theorem ascending : v.flows.values.Pairwise fun f g => f.id.val < g.id.val := by
  have hids := v.flows.pairwise_keys
  rw [← h.ids_eq, List.pairwise_map] at hids
  exact hids

end ValidSpec.Sound

theorem ValidSpec.mem_participants {v : ValidSpec} {core : CoreId} :
    core ∈ v.participants.keys ↔ ∃ f ∈ v.flows.values, core ∈ f.route.cores := by
  unfold ValidSpec.participants
  rw [KeySet.mem_keys_ofList, List.mem_flatMap]

end TrafficLab
