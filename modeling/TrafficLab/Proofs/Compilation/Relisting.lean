import TrafficLab.Proofs.Compilation
import TrafficLab.Proofs.Spec.Relisting

/-!
# What is compiled does not depend on the order of a listing

The stages of compilation take the flows in the order of their identifiers, and of a flow they use
nothing that the order of its sinks could change: the regions of its route, how often a core is
among its sinks, and what it says of itself.  Relisted specifications therefore give every flow the
same key and every core the same program.

    flows relisted → the same keys, loads, plans and slots     (exists_assign, check_congr, …)
    s.Relisted t → s and t compile to the same                 (compiles_alike)
-/

namespace TrafficLab

open Checked Compilation

/-- What is taken from related entries of two lists is the same if it is so for each. -/
theorem map_filter_congr {α β γ : Type} {R : α → β → Prop} {l : List α} {m : List β}
    {p : α → Bool} {q : β → Bool} {f : α → γ} {g : β → γ} (h : List.Forall₂ R l m)
    (hp : ∀ a b, R a b → p a = q b) (hf : ∀ a b, R a b → f a = g b) :
    (l.filter p).map f = (m.filter q).map g := by
  have hfilter : List.Forall₂ R (l.filter p) (m.filter q) :=
    List.rel_filter (fun a b hab => iff_of_eq (congrArg (· = true) (hp a b hab))) h
  exact map_congr_of_forall₂ hfilter hf

/-- Flows that differ at most by the order of their sinks and have the same key. -/
structure KeyedFlow.Relisted (f g : KeyedFlow) : Prop where
  routed : f.toRoutedFlow.Relisted g.toRoutedFlow
  key : f.key = g.key

/-- Flows that differ at most by the order of their sinks and send at the same times. -/
structure PlannedFlow.Relisted (f g : PlannedFlow) : Prop where
  keyed : f.toKeyedFlow.Relisted g.toKeyedFlow
  schedule : f.schedule = g.schedule
  firstTick : f.firstTick = g.firstTick

/-! ## Keys -/

namespace Keys

variable {fabric fabric' : Fabric} (hbits : fabric.keyBits = fabric'.keyBits)

include hbits

theorem choose_congr {f g : RoutedFlow} (h : f.Relisted g) (held : List Holding) :
    choose fabric held f = choose fabric' held g := by
  unfold choose
  rw [hbits, h.route.regions, h.flow.id]

theorem exists_assign {held : List Holding} {flows flows' : List RoutedFlow}
    {keyed : List KeyedFlow} (h : List.Forall₂ RoutedFlow.Relisted flows flows')
    (ha : assign fabric held flows = .ok keyed) :
    ∃ others, assign fabric' held flows' = .ok others ∧
      List.Forall₂ KeyedFlow.Relisted keyed others := by
  induction h generalizing held keyed with
  | nil =>
    cases ha
    exact ⟨[], rfl, .nil⟩
  | @cons f g rest rest' hfg _ ih =>
    unfold assign at ha
    obtain ⟨index, hindex, ha⟩ := bind_eq_ok.1 ha
    obtain ⟨keyed, hkeyed, ha⟩ := bind_eq_ok.1 ha
    cases ha
    obtain ⟨others, hothers, hrelisted⟩ := ih hkeyed
    rw [choose_congr hbits hfg] at hindex
    rw [hfg.route.regions] at hothers
    refine ⟨_, bind_eq_ok.2 ⟨index, hindex, bind_eq_ok.2 ⟨others, hothers, rfl⟩⟩, ?_⟩
    exact .cons ⟨hfg, rfl⟩ hrelisted

end Keys

/-! ## Layouts -/

namespace RoutedFlow.Relisted

variable {f g : RoutedFlow} (h : f.Relisted g) (core : CoreId)

include h

theorem sentBy : f.sentBy core = g.sentBy core := by
  unfold RoutedFlow.sentBy
  rw [h.route.source]

theorem receivedBy : f.receivedBy core = g.receivedBy core := by
  unfold RoutedFlow.receivedBy
  rw [Bool.eq_iff_iff, List.contains_iff_mem, List.contains_iff_mem, h.route.sinks.mem_iff]

end RoutedFlow.Relisted

theorem FlowRoute.Relisted.cores {r s : FlowRoute} (h : r.Relisted s) : r.cores.Perm s.cores := by
  unfold FlowRoute.cores
  rw [h.source]
  exact h.sinks.cons _

/-- The same cores take part in relisted flows, as often. -/
theorem perm_flatMap_cores {flows flows' : List RoutedFlow}
    (h : List.Forall₂ RoutedFlow.Relisted flows flows') :
    (flows.flatMap fun f => f.route.cores).Perm (flows'.flatMap fun f => f.route.cores) := by
  induction h with
  | nil => exact .nil
  | @cons f g rest rest' hfg _ ih =>
    rw [List.flatMap_cons, List.flatMap_cons]
    exact hfg.route.cores.append ih

namespace Layout

variable {flows flows' : List RoutedFlow} (h : List.Forall₂ RoutedFlow.Relisted flows flows')

include h

theorem flowSlots_congr (core : CoreId) (sources sinks : Nat) :
    flowSlots core sources sinks flows = flowSlots core sources sinks flows' := by
  induction h generalizing sources sinks with
  | nil => rfl
  | @cons f g rest rest' hfg _ ih =>
    unfold flowSlots
    rw [hfg.sentBy, hfg.receivedBy, hfg.flow.id, hfg.flow.payload, ih]

/-- The check looks only at how many sources and sinks every core has. -/
theorem check_congr {loads loads' : Table CoreId Load}
    (hloads : ∀ core, loadOf loads core = loadOf loads' core) (hc : check loads flows = .ok ()) :
    check loads' flows' = .ok () := by
  induction h generalizing loads loads' with
  | nil => rfl
  | @cons f g rest rest' hfg _ ih =>
    have hadd : ∀ core, loadOf (addFlow loads f) core = loadOf (addFlow loads' g) core := by
      intro core
      rw [loadOf_addFlow, loadOf_addFlow, hloads, hfg.sentBy, hfg.route.sinks.count_eq]
    unfold check at hc ⊢
    simp only at hc ⊢
    split at hc
    · cases hc
    next hnone =>
    have hnone' : (g.route.cores.find? fun core => overloaded (loadOf (addFlow loads' g) core)) =
        none := by
      rw [List.find?_eq_none] at hnone ⊢
      intro core hcore
      rw [← hadd]
      exact hnone core (hfg.route.cores.mem_iff.2 hcore)
    rw [hnone']
    exact ih hadd hc

end Layout

/-! ## Plans -/

section
variable {flows flows' : List RoutedFlow} (h : List.Forall₂ RoutedFlow.Relisted flows flows')

include h

theorem groupStart_congr (group : GroupId) : groupStart flows group = groupStart flows' group := by
  have hstarts : (flows.filter fun f => f.group == some group).map (·.start) =
      (flows'.filter fun f => f.group == some group).map (·.start) :=
    map_filter_congr h (fun f g hfg => by rw [hfg.flow.group]) fun f g hfg => hfg.flow.start
  have hfold : ∀ l : List RoutedFlow,
      l.foldl (fun latest f => if latest.count < f.start.count then f.start else latest) ⟨0⟩ =
        (l.map (·.start)).foldl (fun latest s => if latest.count < s.count then s else latest)
          (⟨0⟩ : Nanosecs) := by
    intro l
    rw [List.foldl_map]
  unfold groupStart
  rw [hfold, hfold, hstarts]

theorem startTick_congr (timestep : Nanosecs) {f g : Flow} (hfg : f.Relisted g) :
    startTick timestep flows f = startTick timestep flows' g := by
  unfold startTick
  rw [hfg.group, hfg.start]
  simp only [groupStart_congr h]

theorem exists_plan {timestep : Nanosecs} {runTicks : Nat} {f g : KeyedFlow} {p : PlannedFlow}
    (hfg : f.Relisted g) (hp : plan timestep runTicks flows f = .ok p) :
    ∃ q, plan timestep runTicks flows' g = .ok q ∧ p.Relisted q := by
  unfold plan at hp ⊢
  rw [← hfg.routed.flow.generation, ← startTick_congr h timestep hfg.routed.flow]
  split at hp
  · cases hp
  · cases hp
  next schedule hschedule =>
  simp only at hp ⊢
  split at hp
  · cases hp
  next hstart =>
  cases hp
  rw [if_neg hstart]
  exact ⟨_, rfl, hfg, rfl, rfl⟩

end

/-! ## Programs -/

namespace ValidSpec.Relisted

variable {v w : ValidSpec} (h : v.Relisted w)

include h

theorem runTicks : v.spec.runTicks = w.spec.runTicks := by
  unfold Spec.runTicks
  rw [h.spec.timestep, h.spec.duration]

theorem recordTicks : v.spec.recordTicks = w.spec.recordTicks := by
  unfold Spec.recordTicks
  rw [h.spec.timestep, h.spec.recordInterval]

/-- The same cores take part. -/
theorem participants : v.participants = w.participants := by
  unfold ValidSpec.participants
  refine KeySet.ext_keys fun core => ?_
  rw [KeySet.mem_keys_ofList, KeySet.mem_keys_ofList, (perm_flatMap_cores h.flows).mem_iff]

/-- A core has the same to do. -/
theorem corePlan {flows flows' : List PlannedFlow}
    (hflows : List.Forall₂ PlannedFlow.Relisted flows flows') (core : CoreId) :
    v.corePlan flows core = w.corePlan flows' core := by
  have hsources : (flows.filter (·.sentBy core)).map sourceRole =
      (flows'.filter (·.sentBy core)).map sourceRole := by
    refine map_filter_congr hflows (fun f g hfg => hfg.keyed.routed.sentBy core) fun f g hfg => ?_
    unfold sourceRole
    rw [hfg.keyed.routed.flow.id, hfg.keyed.key, hfg.keyed.routed.flow.payload, hfg.schedule,
      hfg.firstTick]
  have hsinks : (flows.filter (·.receivedBy core)).map sinkRole =
      (flows'.filter (·.receivedBy core)).map sinkRole := by
    refine map_filter_congr hflows (fun f g hfg => hfg.keyed.routed.receivedBy core)
      fun f g hfg => ?_
    unfold sinkRole
    rw [hfg.keyed.routed.flow.id, hfg.keyed.key, hfg.keyed.routed.route.source,
      hfg.keyed.routed.flow.payload]
  have hrouted : List.Forall₂ RoutedFlow.Relisted (flows.map (·.toRoutedFlow))
      (flows'.map (·.toRoutedFlow)) := by
    rw [List.forall₂_map_left_iff, List.forall₂_map_right_iff]
    exact hflows.imp fun _ _ hfg => hfg.keyed.routed
  unfold ValidSpec.corePlan Compilation.corePlan Layout.slots
  rw [hsources, hsinks, Layout.flowSlots_congr hrouted, h.runTicks, h.recordTicks, h.spec.seed,
    h.spec.timestep, h.spec.record, h.spec.consume]

/-- Relisted specifications go through the stages of compilation with the same result. -/
theorem exists_stages {keyed : List KeyedFlow} {flows : List PlannedFlow} {c : Compiled}
    (hs : Stages v keyed flows c) : ∃ keyed' flows', Stages w keyed' flows' c := by
  obtain ⟨keyed', hassigned, hkeyed⟩ :=
    Keys.exists_assign (Fabric.keyBits_congr h.fabric) h.flows hs.assigned
  obtain ⟨flows', hplanned, hflows⟩ :=
    exists_forall₂ hkeyed (mapM_eq_ok.1 hs.planned) fun _ _ _ hfg hp => exists_plan h.flows hfg hp
  have hplans : ∀ core, v.corePlan flows core = w.corePlan flows' core := h.corePlan hflows
  have hkeys : keyed.map (fun f => (f.id, f.key)) = keyed'.map fun f => (f.id, f.key) :=
    map_congr_of_forall₂ hkeyed fun f g hfg => by rw [hfg.routed.flow.id, hfg.key]
  rw [h.spec.timestep, h.runTicks] at hplanned
  refine ⟨keyed', flows', ?_⟩
  exact
    { timestep_lt := h.spec.timestep ▸ hs.timestep_lt
      runTicks_lt := h.runTicks ▸ hs.runTicks_lt
      recordTicks_ne := by
        rw [← h.spec.recordInterval, ← h.recordTicks]
        exact hs.recordTicks_ne
      recordTicks_lt := h.recordTicks ▸ hs.recordTicks_lt
      assigned := hassigned
      roles := Layout.check_congr h.flows (fun _ => rfl) hs.roles
      planned := mapM_eq_ok.2 hplanned
      within := by
        intro core hcore
        rw [← hplans, ← h.spec.memoryBudget]
        exact hs.within core (h.participants ▸ hcore)
      keys := hkeys ▸ hs.keys
      programs := by
        rw [← h.participants]
        simp only [← hplans]
        exact hs.programs }

end ValidSpec.Relisted

namespace Spec

theorem Relisted.compile_eq_ok {s t : Spec} (h : s.Relisted t) {v w : ValidSpec} {c : Compiled}
    (hv : s.validate = .ok v) (hw : t.validate = .ok w) (hc : compile v = .ok c) :
    compile w = .ok c := by
  obtain ⟨u, hu, hvu⟩ := h.exists_validate hv
  rw [hw] at hu
  cases hu
  obtain ⟨keyed, flows, hs⟩ := TrafficLab.compile_eq_ok.1 hc
  exact TrafficLab.compile_eq_ok.2 (hvu.exists_stages hs)

/-- Compilation depends on what a specification says, not on how it is listed.  Of two that differ
by the order of regions, links, cores, endpoints, flows and sinks, or by the ends of links that come
first, one is valid if the other is, and compiles if the other does, to the same keys and the same
programs. -/
theorem compiles_alike {s t : Spec} (h : s.Relisted t) :
    ((∃ v, s.validate = .ok v) ↔ ∃ w, t.validate = .ok w) ∧
      ∀ v w, s.validate = .ok v → t.validate = .ok w →
        ∀ c, compile v = .ok c ↔ compile w = .ok c := by
  constructor
  · constructor
    · rintro ⟨v, hv⟩
      obtain ⟨w, hw, -⟩ := h.exists_validate hv
      exact ⟨w, hw⟩
    · rintro ⟨w, hw⟩
      obtain ⟨v, hv, -⟩ := h.symm.exists_validate hw
      exact ⟨v, hv⟩
  · intro v w hv hw c
    exact ⟨h.compile_eq_ok hv hw, h.symm.compile_eq_ok hw hv⟩

theorem compiles_alike_twoCores : twoCores.Relisted twoCores.reversed ∧
    ∃ v w c, twoCores.validate = .ok v ∧ twoCores.reversed.validate = .ok w ∧
      compile v = .ok c ∧ compile w = .ok c := by
  obtain ⟨v, c, -, -, hv, hc, -, -⟩ := twoCores_compiles
  obtain ⟨hvalid, hsame⟩ := compiles_alike twoCores.relisted_reversed
  obtain ⟨w, hw⟩ := hvalid.1 ⟨v, hv⟩
  exact ⟨twoCores.relisted_reversed, v, w, c, hv, hw, hc, (hsame v w hv hw c).1 hc⟩

end Spec

end TrafficLab
