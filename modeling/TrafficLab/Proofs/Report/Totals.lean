import Mathlib.Data.List.Forall2
import TrafficLab.Proofs.Checked
import TrafficLab.Report.Merge

/-!
# Totals

All of a flow's result but its timeline is merged from the roles of each core and from the values
that its slots have at the end of the run.  Where these slots are in the dump, how often they were
recorded, and what else is in it, make no difference.

    same totals of each core → the same sinks, with the same counts        (decodedSinks_same)
    same totals of each core → the same result, but for the timeline          (mergeFlow_same)
-/

namespace TrafficLab

open List

/-- Readouts of a core that say the same of its roles, and of their counts at the end. -/
structure Readout.SameTotals (r r' : Readout) : Prop where
  core : r.core = r'.core
  sources : r.program.sources = r'.program.sources
  sinks : r.program.sinks = r'.program.sinks
  timestep : r.program.timestep = r'.program.timestep
  metric : ∀ flow m, r.metric? flow m = r'.metric? flow m

/-- Sinks that contribute the same. -/
structure SameSink (s s' : (Readout × SinkRole) × UInt64) : Prop where
  readout : s.1.1.SameTotals s'.1.1
  role : s.1.2 = s'.1.2
  received : s.2 = s'.2

/-- Results of a flow that are the same but for the timeline. -/
structure FlowResult.SameTotals (r r' : FlowResult) : Prop where
  sent : r.sent = r'.sent
  blocked : r.blocked = r'.blocked
  received : r.received = r'.received
  dropped : r.dropped = r'.dropped
  latency : r.latency = r'.latency
  status : r.status = r'.status

theorem Readout.SameTotals.sourceCounts {r r' : Readout} (h : r.SameTotals r') (flow : FlowId) :
    r.sourceCounts? flow = r'.sourceCounts? flow := by
  unfold sourceCounts?
  rw [h.metric, h.metric]

theorem forall₂_filter {α β : Type} {R : α → β → Prop} {p : α → Bool} {q : β → Bool} {l : List α}
    {m : List β} (h : Forall₂ R l m) (hpq : ∀ a b, R a b → p a = q b) :
    Forall₂ R (l.filter p) (m.filter q) := by
  refine rel_filter (fun a b hab => ?_) h
  show p a = true ↔ q b = true
  rw [hpq a b hab]

section
variable (flow : FlowId) {rs rs' : List Readout} (h : Forall₂ Readout.SameTotals rs rs')

include h

theorem sourceReadouts_same :
    Forall₂ Readout.SameTotals (sourceReadouts flow rs) (sourceReadouts flow rs') := by
  refine rel_flatMap h fun r r' hr => ?_
  rw [← hr.sources, forall₂_map_left_iff, forall₂_map_right_iff, forall₂_same]
  exact fun _ _ => hr

theorem sinkReadouts_same :
    Forall₂ (fun s s' => s.1.SameTotals s'.1 ∧ s.2 = s'.2) (sinkReadouts flow rs)
      (sinkReadouts flow rs') := by
  refine rel_flatMap h fun r r' hr => ?_
  rw [← hr.sinks, forall₂_map_left_iff, forall₂_map_right_iff, forall₂_same]
  exact fun _ _ => ⟨hr, rfl⟩

/-- The sinks that contribute are the same, and have received as much. -/
theorem decodedSinks_same :
    Forall₂ SameSink (decodedSinks flow rs) (decodedSinks flow rs') := by
  refine rel_filterMap (fun s s' hs => ?_) (sinkReadouts_same flow h)
  rw [hs.1.metric]
  cases s'.1.metric? flow .received with
  | none => exact .none
  | some n => exact .some ⟨hs.1, hs.2, rfl⟩

theorem sourceTotals_same : sourceTotals flow rs = sourceTotals flow rs' := by
  have hcounts : Forall₂ Eq ((sourceReadouts flow rs).filterMap fun r => r.sourceCounts? flow)
      ((sourceReadouts flow rs').filterMap fun r => r.sourceCounts? flow) := by
    refine rel_filterMap (fun r r' hr => ?_) (sourceReadouts_same flow h)
    rw [hr.sourceCounts]
    cases r'.sourceCounts? flow with
    | none => exact .none
    | some x => exact .some rfl
  rw [forall₂_eq_eq_eq] at hcounts
  unfold sourceTotals
  rw [hcounts]

theorem receivedByCore_same : receivedByCore flow rs = receivedByCore flow rs' := by
  unfold receivedByCore
  rw [Checked.map_congr_of_forall₂ (decodedSinks_same flow h) fun s s' hs => by
    rw [hs.readout.core, hs.received]]

theorem missingCores_same : missingCores flow rs = missingCores flow rs' := by
  have hsources := forall₂_filter (sourceReadouts_same flow h) fun r r' hr =>
    congrArg Option.isNone (hr.sourceCounts flow)
  have hsinks := forall₂_filter (sinkReadouts_same flow h) fun s s' hs =>
    congrArg Option.isNone (hs.1.metric flow .received)
  unfold missingCores
  rw [Checked.map_congr_of_forall₂ hsources fun r r' hr => hr.core,
    Checked.map_congr_of_forall₂ hsinks fun s s' hs => hs.1.core]

theorem latencySummary_same : latencySummary? flow rs = latencySummary? flow rs' := by
  have hsinks := forall₂_filter (p := fun s => s.1.2.latency) (q := fun s => s.1.2.latency)
    (decodedSinks_same flow h) fun s s' hs => congrArg SinkRole.latency hs.role
  unfold latencySummary?
  revert hsinks
  generalize (decodedSinks flow rs).filter (fun s => s.1.2.latency) = sinks
  generalize (decodedSinks flow rs').filter (fun s => s.1.2.latency) = sinks'
  intro hsinks
  cases hsinks with
  | nil => rfl
  | @cons s s' rest rest' hs hrest =>
    have hall : Forall₂ SameSink (s :: rest) (s' :: rest') := .cons hs hrest
    have hsum : ∀ m, sinkSum flow (s :: rest) m = sinkSum flow (s' :: rest') m := by
      intro m
      unfold sinkSum
      rw [Checked.map_congr_of_forall₂ hall fun x x' hx => by rw [hx.readout.metric]]
    simp only [hsum, hs.readout.timestep,
      Checked.map_congr_of_forall₂ hall fun x x' hx => hx.received]

/-- The result of a flow is the same but for the timeline. -/
theorem mergeFlow_same : (mergeFlow flow rs).SameTotals (mergeFlow flow rs') := by
  have htotals := sourceTotals_same flow h
  have hreceived := receivedByCore_same flow h
  have hmissing := missingCores_same flow h
  unfold mergeFlow
  rw [htotals, hreceived, hmissing]
  exact ⟨rfl, rfl, rfl, rfl, latencySummary_same flow h, rfl⟩

end

end TrafficLab
