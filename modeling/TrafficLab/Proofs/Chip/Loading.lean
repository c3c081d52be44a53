import TrafficLab.Proofs.Chip.Setup
import TrafficLab.Proofs.Compilation

/-!
# Loading compiled programs

The checks that a specification goes through are enough for the commands of every program to carry
its plan, so each core is set up with exactly what the compiler meant.

    c.From v flows → (v.corePlan flows core).Playable               (playable)
    p ∈ c.programs.values → ∃ s, play p.core p.bytes = .ok s ∧ s.Realizes p     (loads_as_compiled)
-/

namespace TrafficLab

/-! ## What a setup has to have of a program -/

/-- A source that does what its role says. -/
structure SourceSetup.Realizes (x : SourceSetup) (r : SourceRole) : Prop where
  key : x.key = r.key.val
  payload : x.payload = r.payload
  start : x.start.toNat = r.start.toNat
  schedule : match r.schedule with
    | .interval ticks => x.emission = .every ticks ∧ x.burst = none
    | .bernoulli threshold burst => x.emission = .bernoulli threshold ∧ x.burst = burst

/-- A sink that watches for the packets of its role. -/
structure SinkSetup.Realizes (x : SinkSetup) (r : SinkRole) : Prop where
  key : x.key = r.key.val
  source : x.source = r.source

/-- A setup that has all that a program says about its core. -/
structure Setup.Realizes (s : Setup) (p : Program) : Prop where
  core : s.core = p.core
  tag : s.tag = p.tag
  timestep : s.timestep.toNat = p.timestep.toNat
  seed : s.seed = p.seed
  runTicks : s.runTicks = p.runTicks.toNat
  record : s.record = p.record
  recordInterval : s.recordInterval.toNat = p.recordInterval.toNat
  consume : s.consume = p.consume
  sources : List.Forall₂ SourceSetup.Realizes s.sources.toList p.sources
  sinks : List.Forall₂ SinkSetup.Realizes s.sinks.toList p.sinks
  counters : s.counters.toList = p.slots.map fun x => (x.metric, x.role)

/-- The numbers of a plan keep their values in the narrower words of its commands. -/
structure CorePlan.Lossless (p : CorePlan) : Prop where
  timestep : p.timestep.count.toUInt32.toNat = p.timestep.toNat
  runTicks : p.runTicks.count.toUInt32.toNat = p.runTicks.toNat
  recordInterval : p.recordInterval.count.toUInt32.toNat = p.recordInterval.toNat
  sources : (UInt8.ofNat p.sources.length).toNat = p.sources.length
  sinks : (UInt8.ofNat p.sinks.length).toNat = p.sinks.length
  start : ∀ r ∈ p.sources, r.start.count.toUInt32.toNat = r.start.toNat
  source_number : ∀ i < p.sources.length, (UInt16.ofNat i).toNat = i
  sink_number : ∀ j < p.sinks.length, (UInt16.ofNat j).toNat = j
  slot_number : ∀ k < p.slots.length, (UInt16.ofNat k).toNat = k

namespace CorePlan.Playable

variable {p : CorePlan} (h : p.Playable)

include h

theorem lossless : p.Lossless where
  timestep := Quantity.toNat_toUInt32 h.timestep_lt
  runTicks := Quantity.toNat_toUInt32 h.runTicks_lt
  recordInterval := Quantity.toNat_toUInt32 h.recordInterval_lt
  sources := UInt8.toNat_ofNat_of_lt' h.sources_lt
  sinks := UInt8.toNat_ofNat_of_lt' h.sinks_lt
  start r hr := Quantity.toNat_toUInt32 (h.start_lt r hr)
  source_number i hi := UInt16.toNat_ofNat_of_lt' (by
    have := h.sources_lt
    show i < 65536
    omega)
  sink_number j hj := UInt16.toNat_ofNat_of_lt' (by
    have := h.sinks_lt
    show j < 65536
    omega)
  slot_number k hk := UInt16.toNat_ofNat_of_lt' (Nat.lt_trans hk h.slots_lt)

theorem realizes : p.setup.Realizes p.assemble where
  core := rfl
  tag := rfl
  timestep := h.lossless.timestep
  seed := rfl
  runTicks := rfl
  record := rfl
  recordInterval := h.lossless.recordInterval
  consume := rfl
  sources := by
    show List.Forall₂ _ (p.sources.map (·.setup)) p.sources
    rw [List.forall₂_map_left_iff, List.forall₂_same]
    intro r hr
    refine ⟨rfl, rfl, h.lossless.start r hr, ?_⟩
    show match r.schedule with
      | .interval ticks => r.schedule.emission = .every ticks ∧ r.schedule.burst = none
      | .bernoulli t burst => r.schedule.emission = .bernoulli t ∧ r.schedule.burst = burst
    cases r.schedule <;> exact ⟨rfl, rfl⟩
  sinks := by
    show List.Forall₂ _ (p.sinks.map (·.setup)) p.sinks
    rw [List.forall₂_map_left_iff, List.forall₂_same]
    exact fun r _ => ⟨rfl, rfl⟩
  counters := rfl

end CorePlan.Playable

/-! ## Compiled plans -/

namespace Compiled.From

variable {v : ValidSpec} {flows : List PlannedFlow} {c : Compiled} (h : c.From v flows)
  (core : CoreId)

include h

/-- The sources of a core are numbered as in its layout. -/
theorem length_sources : (v.corePlan flows core).sources.length =
    (v.flows.values.filter (·.sentBy core)).length := by
  rw [← h.routed, List.filter_map, List.length_map]
  exact List.length_map _

theorem length_sinks : (v.corePlan flows core).sinks.length =
    (v.flows.values.filter (·.receivedBy core)).length := by
  rw [← h.routed, List.filter_map, List.length_map]
  exact List.length_map _

theorem slots_eq : (v.corePlan flows core).slots =
    Layout.slots core v.spec.record v.flows.values := by
  rw [← h.routed]
  rfl

/-- A slot is for the flow that has the slot's role as its number among the sources, or among the
sinks, of the core; otherwise it is the router's. -/
theorem role_of_slot {x : Slot} (hx : x ∈ (v.corePlan flows core).slots) :
    (x.metric.ofSource = true ∧ ∃ f,
      (flows.filter fun g => g.sentBy core)[x.role.toNat]? = some f ∧ x.flow = some f.id) ∨
    (x.metric.ofSink = true ∧ ∃ f,
      (flows.filter fun g => g.receivedBy core)[x.role.toNat]? = some f ∧ x.flow = some f.id) ∨
    (x.flow = none ∧ x.role = 0 ∧ ∃ counter, x.metric = .router counter) := by
  -- the flows of the layout are the planned ones
  have hplanned : ∀ {role : RoutedFlow → Bool} {i : Nat} {g : RoutedFlow},
      (v.flows.values.filter role)[i]? = some g →
      ∃ f, (flows.filter fun g => role g.toRoutedFlow)[i]? = some f ∧ f.toRoutedFlow = g := by
    intro role i g hg
    rw [← h.routed, List.filter_map, List.getElem?_map, Option.map_eq_some_iff] at hg
    exact hg
  rw [h.slots_eq] at hx
  rcases Layout.role_of_mem_slots h.roles hx with
    ⟨hsource, g, hg, hflow⟩ | ⟨hsink, g, hg, hflow⟩ | hrouter
  · obtain ⟨f, hf, rfl⟩ := hplanned hg
    exact .inl ⟨hsource, f, hf, hflow⟩
  · obtain ⟨f, hf, rfl⟩ := hplanned hg
    exact .inr (.inl ⟨hsink, f, hf, hflow⟩)
  · exact .inr (.inr hrouter)

/-- A role has its number as its byte. -/
theorem role_lt {x : Slot} (hx : x ∈ (v.corePlan flows core).slots) :
    x.role.toNat < (v.corePlan flows core).roles x.metric := by
  have hlength : ∀ {ρ : Type} {role : PlannedFlow → Bool} {mk : PlannedFlow → ρ} {f : PlannedFlow},
      (flows.filter role)[x.role.toNat]? = some f →
      x.role.toNat < ((flows.filter role).map mk).length := by
    intro ρ role mk f hf
    rw [List.length_map]
    exact (List.getElem?_eq_some_iff.1 hf).1
  unfold CorePlan.roles
  rcases h.role_of_slot core hx with ⟨hsource, f, hf, -⟩ | ⟨hsink, f, hf, -⟩ | ⟨-, hrole, c, hc⟩
  · rw [if_pos hsource]
    exact hlength hf
  · rw [Layout.not_ofSource_of_ofSink hsink, if_neg Bool.false_ne_true, if_pos hsink]
    exact hlength hf
  · rw [hc, hrole]
    exact Nat.one_pos

theorem runTicks_eq : (v.corePlan flows core).runTicks.toNat = v.spec.runTicks :=
  UInt64.toNat_ofNat_of_lt' (Nat.lt_trans h.runTicks_lt (by decide))

theorem recordInterval_eq : (v.corePlan flows core).recordInterval.toNat = v.spec.recordTicks :=
  UInt64.toNat_ofNat_of_lt' (Nat.lt_trans h.recordTicks_lt (by decide))

/-- Commands can carry the plan of every core. -/
theorem playable : (v.corePlan flows core).Playable := by
  have hsources := Layout.sources_le h.roles core
  have hsinks := Layout.sinks_le h.roles core
  unfold Layout.maxRoles at hsources hsinks
  have hsource : ∀ r ∈ (v.corePlan flows core).sources, ∃ f ∈ flows, Compilation.sourceRole f = r :=
    fun r hr => by
      obtain ⟨f, hf, e⟩ := List.mem_map.1 hr
      exact ⟨f, (List.mem_filter.1 hf).1, e⟩
  have hsink : ∀ r ∈ (v.corePlan flows core).sinks, ∃ f ∈ flows, Compilation.sinkRole f = r :=
    fun r hr => by
      obtain ⟨f, hf, e⟩ := List.mem_map.1 hr
      exact ⟨f, (List.mem_filter.1 hf).1, e⟩
  have hkey : ∀ f ∈ flows, f.key.val &&& RoutingKey.carried = f.key.val := by
    intro f hf
    rw [(h.fits f hf).key]
    exact RoutingKey.ofIndex_carried _
  have hslots : (v.corePlan flows core).slots.length < 65536 := by
    have hflows := Layout.length_flowSlots_le core 0 0 v.flows.values
    have hrouter := Layout.length_routerSlots_le v.spec.record
    rw [h.slots_eq, Layout.slots, List.length_append]
    omega
  refine ⟨h.valid.timestep_pos, h.timestep_lt, ?_, ?_, ?_, ?_, hslots, ?_, ?_, ?_, ?_,
    fun x hx => h.role_lt core hx⟩
  · rw [h.runTicks_eq]
    exact h.runTicks_lt
  · rw [h.recordInterval_eq]
    exact h.recordTicks_lt
  · rw [h.length_sources]
    omega
  · rw [h.length_sinks]
    omega
  · intro r hr
    obtain ⟨f, hf, rfl⟩ := hsource r hr
    exact Nat.lt_trans (h.timed f hf).within h.runTicks_lt
  · intro r hr
    obtain ⟨f, hf, rfl⟩ := hsource r hr
    exact h.repeats hf
  · intro r hr
    obtain ⟨f, hf, rfl⟩ := hsource r hr
    exact hkey f hf
  · intro r hr
    obtain ⟨f, hf, rfl⟩ := hsink r hr
    exact hkey f hf

/-- A core that loads its program has the setup of its plan. -/
theorem play_program {core : CoreId} {p : Program} (hp : c.programs.get? core = some p) :
    Setup.play core p.bytes = .ok (v.corePlan flows core).setup := by
  obtain ⟨-, rfl⟩ := h.get?_programs.1 hp
  exact CorePlan.play_assemble (h.playable core)

end Compiled.From

/-! ## Main result -/

/-- Every compiled program loads, and sets its core up with exactly what it says. -/
theorem loads_as_compiled {s : Spec} {v : ValidSpec} {c : Compiled} (hv : s.validate = .ok v)
    (hc : compile v = .ok c) {p : Program} (hp : p ∈ c.programs.values) :
    (∃ setup, Setup.play p.core p.bytes = .ok setup ∧ setup.Realizes p) ∧ p.Lossless := by
  obtain ⟨flows, h⟩ := Compiled.from_of_compile (Spec.sound_of_validate hv).2 hc
  obtain ⟨core, -, rfl⟩ := h.mem_programs.1 hp
  have hplay := h.playable core
  exact ⟨⟨_, CorePlan.play_assemble hplay, hplay.realizes⟩, hplay.lossless⟩

theorem loads_as_compiled_twoCores :
    ∃ v c p, Spec.twoCores.validate = .ok v ∧ compile v = .ok c ∧ p ∈ c.programs.values ∧
      (∃ setup, Setup.play p.core p.bytes = .ok setup ∧ setup.Realizes p) ∧ p.Lossless := by
  obtain ⟨v, c, p, -, hv, hc, hp, -⟩ := Spec.twoCores_compiles
  exact ⟨v, c, p, hv, hc, hp, loads_as_compiled hv hc hp⟩

end TrafficLab
