import TrafficLab.Proofs.Fabric.Relisting
import TrafficLab.Proofs.Spec.Validation

/-!
# Specifications listed in another order

A specification says the same in whatever order it lists its flows, the sinks of a flow and the
parts of its placement.  If it is valid in one order it is in any other, and its flows then run
from the same cores through the same regions to the same sinks; only the sinks keep the order in
which they are declared.

    s.Relisted t → s.validate = .ok v → ∃ w, t.validate = .ok w ∧ v.Relisted w     (exists_validate)
-/

namespace TrafficLab

open Checked

/-! ## Flows -/

/-- Flows that differ at most by the order of their sinks. -/
structure Flow.Relisted (f g : Flow) : Prop where
  id : f.id = g.id
  source : f.source = g.source
  sinks : f.sinks.Perm g.sinks
  generation : f.generation = g.generation
  payload : f.payload = g.payload
  start : f.start = g.start
  group : f.group = g.group

/-- Routes that differ at most by the order of the sinks' cores. -/
structure FlowRoute.Relisted (r s : FlowRoute) : Prop where
  source : r.source = s.source
  sinks : r.sinks.Perm s.sinks
  regions : r.regions = s.regions

/-- Flows that differ, with where they run, at most by the order of their sinks. -/
structure RoutedFlow.Relisted (f g : RoutedFlow) : Prop where
  flow : f.toFlow.Relisted g.toFlow
  route : f.route.Relisted g.route

theorem Flow.Relisted.symm {f g : Flow} (h : f.Relisted g) : g.Relisted f :=
  ⟨h.id.symm, h.source.symm, h.sinks.symm, h.generation.symm, h.payload.symm, h.start.symm,
    h.group.symm⟩

section
variable {fabric fabric' : Fabric} (hf : fabric.placement.Relisted fabric'.placement)

include hf

theorem Fabric.reaches_congr (source : CoreId) :
    fabric.Reaches source = fabric'.Reaches source := by
  funext sink core
  unfold Reaches
  rw [coreOf_congr hf, regionsBetween_congr hf]

theorem Flow.exists_route {flow flow' : Flow} {r : FlowRoute} (h : flow.Relisted flow')
    (hr : flow.route fabric = .ok r) : ∃ s, flow'.route fabric' = .ok s ∧ r.Relisted s := by
  obtain ⟨hsinks, hsource, hreached, hnodup, hregions⟩ := Flow.route_eq_ok.1 hr
  -- the cores are found in the new order of the sinks
  obtain ⟨cores, hcores, hperm⟩ := List.perm_comp_forall₂ h.sinks.symm hreached
  have hsinks' : flow'.sinks ≠ [] := fun hnil => hsinks (hnil ▸ h.sinks).eq_nil
  have hsource' : fabric'.coreOf flow'.source = some r.source := by
    rw [← h.source, ← Fabric.coreOf_congr hf]
    exact hsource
  rw [Fabric.reaches_congr hf] at hcores
  refine ⟨⟨r.source, cores, r.regions⟩, Flow.route_eq_ok.2 ?_, rfl, hperm.symm, rfl⟩
  exact ⟨hsinks', hsource', hcores, hperm.nodup_iff.2 hnodup,
    Fabric.multicastRegions_congr hf hperm.symm hregions⟩

/-- A flow that passes its check does so in whatever order its sinks are declared. -/
theorem Flow.exists_check {duration : Nanosecs} {flow flow' : Flow} {f : RoutedFlow}
    (h : flow.Relisted flow') (hc : flow.check fabric duration = .ok f) :
    ∃ g, flow'.check fabric' duration = .ok g ∧ f.Relisted g := by
  obtain ⟨rfl, hsound⟩ := Flow.check_eq_ok.1 hc
  obtain ⟨s, hs, hroute⟩ := Flow.exists_route hf h hsound.route
  refine ⟨{ flow' with route := s }, Flow.check_eq_ok.2 ⟨rfl, hs, ?_, ?_⟩, h, hroute⟩
  · show flow'.generation.check = .ok ()
    rw [← h.generation]
    exact hsound.generation
  · show flow'.start.toNat < duration.toNat
    rw [← h.start]
    exact hsound.start

end

/-! ## Specifications -/

/-- Specifications that say the same and differ at most by the order in which they list regions,
links, cores, endpoints, flows and the sinks of a flow, and by the ends of links that they name
first. -/
structure Spec.Relisted (s t : Spec) : Prop where
  placement : s.placement.Relisted t.placement
  flows : ∃ flows, s.flows.Perm flows ∧ List.Forall₂ Flow.Relisted flows t.flows
  duration : s.duration = t.duration
  timestep : s.timestep = t.timestep
  seed : s.seed = t.seed
  record : s.record = t.record
  recordInterval : s.recordInterval = t.recordInterval
  consume : s.consume = t.consume
  memoryBudget : s.memoryBudget = t.memoryBudget

/-- Valid specifications that have been made from relisted ones. -/
structure ValidSpec.Relisted (v w : ValidSpec) : Prop where
  spec : v.spec.Relisted w.spec
  fabric : v.fabric.placement.Relisted w.fabric.placement
  flows : List.Forall₂ RoutedFlow.Relisted v.flows.values w.flows.values

namespace Spec.Relisted

variable {s t : Spec} (h : s.Relisted t)

include h

theorem symm : t.Relisted s := by
  obtain ⟨flows, hperm, hflows⟩ := h.flows
  obtain ⟨others, hothers, hperm'⟩ := List.perm_comp_forall₂ hperm hflows
  have hback : List.Forall₂ Flow.Relisted others s.flows :=
    (hothers.imp fun _ _ hf => hf.symm).flip
  exact ⟨h.placement.symm, ⟨others, hperm'.symm, hback⟩, h.duration.symm, h.timestep.symm,
    h.seed.symm, h.record.symm, h.recordInterval.symm, h.consume.symm, h.memoryBudget.symm⟩

theorem map_id : (s.flows.map (·.id)).Perm (t.flows.map (·.id)) := by
  obtain ⟨flows, hperm, hflows⟩ := h.flows
  rw [← map_congr_of_forall₂ hflows fun _ _ hf => hf.id]
  exact hperm.map _

theorem checkTiming : s.checkTiming = t.checkTiming := by
  unfold Spec.checkTiming
  rw [h.timestep, h.duration]

/-- A specification is valid in any order that it is listed in. -/
theorem exists_validate {v : ValidSpec} (hv : s.validate = .ok v) :
    ∃ w, t.validate = .ok w ∧ v.Relisted w := by
  obtain ⟨checked, hv⟩ := Spec.validate_eq_ok.1 hv
  obtain ⟨flows, hperm, hflows⟩ := h.flows
  have hplacement : v.fabric.placement.Relisted t.placement := hv.placement ▸ h.placement
  obtain ⟨fabric, hfabric, hf⟩ := Fabric.exists_ofPlacement hplacement
  -- the flows that have been checked, in the order of `t`
  obtain ⟨ordered, hordered, hsame⟩ := List.perm_comp_forall₂ hperm.symm hv.flow
  obtain ⟨others, hothers, hrelisted⟩ :=
    exists_forall₂ hflows hordered fun _ _ _ hr hc => Flow.exists_check hf hr hc
  have hw : t.Validates ⟨t, fabric, .ofList (others.map fun f => (f.id, f))⟩ others :=
    { spec := rfl
      timing := h.checkTiming ▸ hv.timing
      placement := Fabric.ofPlacement_eq_ok.1 hfabric
      ids := h.map_id.nodup_iff.1 hv.ids
      flow := h.duration ▸ hothers
      flows := rfl }
  refine ⟨_, Spec.validate_eq_ok.2 ⟨others, hw⟩, hv.spec ▸ h, hf, ?_⟩
  -- both tables list their flows by identifier, so no trace of either order is left
  refine Table.forall₂_values (KeySet.keys_eq_of_mem fun id => ?_) fun id f g hfound hfound' => ?_
  · rw [hv.mem_keys_flows, hw.mem_keys_flows, h.map_id.mem_iff]
  · obtain ⟨hmem, hid⟩ := hv.get?_flows.1 hfound
    obtain ⟨hmem', hid'⟩ := hw.get?_flows.1 hfound'
    obtain ⟨g', hg', hr⟩ := exists_of_forall₂ hrelisted.flip (hsame.mem_iff.2 hmem)
    have hfg : f.Relisted g' := hr
    have he : g'.id = g.id := hfg.flow.id.symm.trans (hid.trans hid'.symm)
    rwa [← List.inj_on_of_nodup_map hw.ids_nodup hg' hmem' he]

end Spec.Relisted

namespace Spec

/-- A specification with all that it lists in the reverse order, and its links turned around. -/
def reversed (s : Spec) : Spec :=
  { s with
    placement :=
      { regions := s.placement.regions.reverse
        links := s.placement.links.reverse.map fun l => ⟨l.b, l.a⟩
        cores := s.placement.cores.reverse
        endpoints := s.placement.endpoints.reverse }
    flows := s.flows.reverse.map fun f => { f with sinks := f.sinks.reverse } }

theorem relisted_reversed (s : Spec) : s.Relisted s.reversed := by
  have hends : ∀ l : Link, (Link.mk l.b l.a).ends = l.ends := fun l => Sym2.eq_swap
  have hsinks : ∀ f : Flow, f.Relisted { f with sinks := f.sinks.reverse } := fun f =>
    ⟨rfl, rfl, f.sinks.reverse_perm.symm, rfl, rfl, rfl, rfl⟩
  have hplacement : s.placement.Relisted s.reversed.placement := by
    refine ⟨(List.reverse_perm _).symm, ?_, (List.reverse_perm _).symm, (List.reverse_perm _).symm⟩
    show (s.placement.links.map Link.ends).Perm
      ((s.placement.links.reverse.map fun l => Link.mk l.b l.a).map Link.ends)
    rw [List.map_map]
    simp only [Function.comp_def, hends]
    exact ((List.reverse_perm _).map _).symm
  have hflows : List.Forall₂ Flow.Relisted s.flows.reverse s.reversed.flows := by
    unfold reversed
    rw [List.forall₂_map_right_iff, List.forall₂_same]
    exact fun f _ => hsinks f
  exact ⟨hplacement, ⟨_, (List.reverse_perm _).symm, hflows⟩, rfl, rfl, rfl, rfl, rfl, rfl, rfl⟩

end Spec

end TrafficLab
