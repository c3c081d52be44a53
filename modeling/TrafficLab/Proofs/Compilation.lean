import TrafficLab.Compilation
import TrafficLab.Proofs.Compilation.Keys
import TrafficLab.Proofs.Compilation.Layout
import TrafficLab.Proofs.Schedule.Quantization

/-!
# What compilation has done

When a specification compiles, every flow has its key, its schedule and its first tick, and every
core that takes part has the program of its plan.  Later results start from `Compiled.From` and
never look at how the compiler got there.

    compile v = .ok c ↔ every stage of it succeeds                    (compile_eq_ok)
    compile v = .ok c → ∃ flows, c.From v flows                     (from_of_compile)
    p ∈ c.programs.values ↔ p is the program of a core that takes part   (mem_programs)
-/

namespace TrafficLab

open Checked Compilation

/-! ## The length of a run -/

namespace Spec

variable (s : Spec)

/-- The ticks of a run. -/
def runTicks : Nat := Nanosecs.roundTicks s.timestep s.duration

/-- The ticks between two records of the counters. -/
def recordTicks : Nat := Nanosecs.roundTicks s.timestep s.recordInterval

end Spec

/-- A run that is not shorter than a tick has a tick. -/
theorem ValidSpec.Sound.runTicks_pos {v : ValidSpec} (h : v.Sound) : 0 < v.spec.runTicks := by
  unfold Spec.runTicks Nanosecs.roundTicks
  have hpos := h.timestep_pos
  have hle := h.timestep_le
  exact Nat.div_pos (by omega) hpos

/-! ## Planned flows -/

/-- A flow that begins within the run and keeps to the schedule of its rate. -/
structure PlannedFlow.Timed (s : Spec) (flows : List RoutedFlow) (f : PlannedFlow) : Prop where
  schedule : f.generation.schedule s.timestep = .ok f.schedule
  first : f.firstTick.toNat = startTick s.timestep flows f.toFlow
  within : f.firstTick.toNat < s.runTicks

theorem plan_eq_ok {s : Spec} {flows : List RoutedFlow} {f : KeyedFlow} {g : PlannedFlow}
    (hrun : s.runTicks < UInt32.size) (h : plan s.timestep s.runTicks flows f = .ok g) :
    g.toKeyedFlow = f ∧ g.Timed s flows := by
  unfold plan at h
  split at h
  · cases h
  · cases h
  next schedule hschedule =>
  simp only at h
  split at h
  · cases h
  next hlt =>
  cases h
  rw [Nat.not_le] at hlt
  have hfit : startTick s.timestep flows f.toFlow < UInt64.size :=
    Nat.lt_trans (Nat.lt_trans hlt hrun) (by decide)
  have hfirst : (Quantity.ofNat (m := .tick) (startTick s.timestep flows f.toFlow)).toNat
      = startTick s.timestep flows f.toFlow :=
    UInt64.toNat_ofNat_of_lt' hfit
  refine ⟨rfl, hschedule, hfirst, ?_⟩
  show (Quantity.ofNat (m := .tick) (startTick s.timestep flows f.toFlow)).toNat < _
  rw [hfirst]
  exact hlt

theorem word_eq_ok {what : Extent} {n : Nat} {u : Unit} :
    word what n = .ok u ↔ n < UInt32.size := by
  unfold word
  split
  · next hlt => simp [hlt]
  · next hle => simp [hle]

/-- A plan has a program if there is room for it. -/
theorem program_eq_ok {budget : Bytes} {plan : CorePlan} {p : Program} :
    program budget plan = .ok p ↔
      plan.assemble.footprint ≤ budget.toNat ∧ plan.assemble = p := by
  unfold program
  simp only
  split
  · next hlt => simp [Nat.not_le.2 hlt]
  · next hle => simp [Nat.not_lt.1 hle]

theorem program_eq_error {budget : Bytes} {plan : CorePlan} {e : CompileError} :
    program budget plan = .error e ↔ budget.toNat < plan.assemble.footprint ∧
      e = .programTooLarge plan.core plan.assemble.footprint budget := by
  unfold program
  simp only
  split
  · next hlt => simp [hlt, eq_comm]
  · next hle => simp [hle]

/-! ## Compiled specifications -/

/-- The plan of a core. -/
def ValidSpec.corePlan (v : ValidSpec) (flows : List PlannedFlow) (core : CoreId) : CorePlan :=
  Compilation.corePlan v.spec v.spec.runTicks v.spec.recordTicks flows core

/-- The stages of a compilation before programs are built, each with its result. -/
structure Compilation.Planned (v : ValidSpec) (keyed : List KeyedFlow)
    (flows : List PlannedFlow) : Prop where
  timestep_lt : v.spec.timestep.toNat < UInt32.size
  runTicks_lt : v.spec.runTicks < UInt32.size
  recordTicks_ne : ¬(v.spec.recordInterval.count ≠ 0 ∧ v.spec.recordTicks = 0)
  recordTicks_lt : v.spec.recordTicks < UInt32.size
  assigned : Keys.assign v.fabric [] v.flows.values = .ok keyed
  roles : Layout.check .empty v.flows.values = .ok ()
  planned : keyed.mapM (plan v.spec.timestep v.spec.runTicks v.flows.values) = .ok flows

/-- The stages of a compilation that succeeds. -/
structure Compilation.Stages (v : ValidSpec) (keyed : List KeyedFlow) (flows : List PlannedFlow)
    (c : Compiled) : Prop extends Planned v keyed flows where
  within : ∀ core ∈ v.participants.keys,
    (v.corePlan flows core).assemble.footprint ≤ v.spec.memoryBudget.toNat
  keys : c.keys = .ofList (keyed.map fun f => (f.id, f.key))
  programs : c.programs =
    .ofList (v.participants.keys.map fun core => (core, (v.corePlan flows core).assemble))

/-- What is left of a compilation when all flows are planned. -/
theorem Compilation.Planned.compile_eq {v : ValidSpec} {keyed : List KeyedFlow}
    {flows : List PlannedFlow} (h : Planned v keyed flows) :
    compile v = (v.participants.keys.mapM fun core =>
        (program v.spec.memoryBudget (v.corePlan flows core)).map fun p => (core, p)).map
      fun programs => ⟨.ofList (keyed.map fun f => (f.id, f.key)), .ofList programs⟩ := by
  have hstep : word .timestep v.spec.timestep.toNat = .ok () := word_eq_ok.2 h.timestep_lt
  have hrun : word .runLength v.spec.runTicks = .ok () := word_eq_ok.2 h.runTicks_lt
  have hrecord : word .recordInterval v.spec.recordTicks = .ok () := word_eq_ok.2 h.recordTicks_lt
  have hinterval := h.recordTicks_ne
  have hplanned := h.planned
  unfold Spec.runTicks at hrun hplanned
  unfold Spec.recordTicks at hrecord hinterval
  unfold compile
  simp only [hstep, hrun, hrecord, if_neg hinterval, h.assigned, h.roles, bind, Except.bind,
    hplanned]
  rfl

/-- The programs of some cores, each of which has room for its own. -/
theorem mapM_program_eq_ok {budget : Bytes} {planOf : CoreId → CorePlan} {cores : List CoreId}
    {programs : List (CoreId × Program)} :
    (cores.mapM fun core => (program budget (planOf core)).map fun p => (core, p)) = .ok programs ↔
      (∀ core ∈ cores, (planOf core).assemble.footprint ≤ budget.toNat) ∧
        programs = cores.map fun core => (core, (planOf core).assemble) := by
  have hone : ∀ core e, ((program budget (planOf core)).map fun p => (core, p)) = .ok e ↔
      (planOf core).assemble.footprint ≤ budget.toNat ∧ (core, (planOf core).assemble) = e := by
    intro core e
    rw [map_eq_ok]
    constructor
    · rintro ⟨p, hp, rfl⟩
      obtain ⟨hle, rfl⟩ := program_eq_ok.1 hp
      exact ⟨hle, rfl⟩
    · rintro ⟨hle, rfl⟩
      exact ⟨_, program_eq_ok.2 ⟨hle, rfl⟩, rfl⟩
  rw [mapM_eq_ok]
  simp only [hone]
  constructor
  · intro h
    refine ⟨fun core hcore => ?_, ?_⟩
    · obtain ⟨e, -, hle, -⟩ := exists_of_forall₂ h.flip hcore
      exact hle
    · exact (map_eq_of_forall₂ h.flip fun e core _ he => he.2).symm
  · rintro ⟨hle, rfl⟩
    rw [List.forall₂_map_right_iff, List.forall₂_same]
    exact fun core hcore => ⟨hle core hcore, rfl⟩

theorem compile_eq_ok {v : ValidSpec} {c : Compiled} :
    compile v = .ok c ↔ ∃ keyed flows, Stages v keyed flows c := by
  constructor
  · intro h
    unfold compile at h
    simp only at h
    obtain ⟨_, hstep, h⟩ := bind_eq_ok.1 h
    obtain ⟨_, hrun, h⟩ := bind_eq_ok.1 h
    split at h
    · cases h
    next hinterval =>
    obtain ⟨_, hrecord, h⟩ := bind_eq_ok.1 h
    obtain ⟨keyed, hkeyed, h⟩ := bind_eq_ok.1 h
    obtain ⟨⟨⟩, hlayout, h⟩ := bind_eq_ok.1 h
    obtain ⟨flows, hflows, h⟩ := bind_eq_ok.1 h
    obtain ⟨programs, hprograms, h⟩ := bind_eq_ok.1 h
    cases h
    obtain ⟨hwithin, rfl⟩ := mapM_program_eq_ok.1 hprograms
    have hplan : Planned v keyed flows := ⟨word_eq_ok.1 hstep, word_eq_ok.1 hrun, hinterval,
      word_eq_ok.1 hrecord, hkeyed, hlayout, hflows⟩
    exact ⟨keyed, flows, hplan, hwithin, rfl, rfl⟩
  · rintro ⟨keyed, flows, h⟩
    obtain ⟨keys, programs⟩ := c
    rw [h.compile_eq, map_eq_ok]
    refine ⟨_, mapM_program_eq_ok.2 ⟨h.within, rfl⟩, ?_⟩
    rw [show keys = _ from h.keys, show programs = _ from h.programs]

/-- Every program has room within the budget. -/
theorem Compiled.footprint_le {v : ValidSpec} {c : Compiled} (h : compile v = .ok c) {core : CoreId}
    {p : Program} (hp : c.programs.get? core = some p) :
    p.footprint ≤ v.spec.memoryBudget.toNat := by
  obtain ⟨keyed, flows, hstages⟩ := compile_eq_ok.1 h
  rw [hstages.programs] at hp
  have hcore : core ∈ v.participants.keys :=
    Table.mem_keys_ofList_map.1 (Table.mem_keys.2 ⟨p, hp⟩)
  rw [Table.get?_ofList_map (fun d => (v.corePlan flows d).assemble) hcore] at hp
  cases hp
  exact hstages.within core hcore

/-- How a compiled specification has come about: the flows as they were planned, and what holds of
them. -/
structure Compiled.From (v : ValidSpec) (flows : List PlannedFlow) (c : Compiled) : Prop where
  valid : v.Sound
  routed : flows.map (·.toRoutedFlow) = v.flows.values
  fits : ∀ f ∈ flows, Keys.Fits v.fabric f.toKeyedFlow
  /-- Flows that share a region have different keys. -/
  apart : flows.Pairwise fun f g =>
    Keys.overlap f.route.regions g.route.regions = true → f.key ≠ g.key
  timed : ∀ f ∈ flows, f.Timed v.spec v.flows.values
  roles : Layout.check .empty v.flows.values = .ok ()
  timestep_lt : v.spec.timestep.toNat < UInt32.size
  runTicks_lt : v.spec.runTicks < UInt32.size
  recordTicks_lt : v.spec.recordTicks < UInt32.size
  keys : c.keys = .ofList (flows.map fun f => (f.id, f.key))
  programs : c.programs =
    .ofList (v.participants.keys.map fun core => (core, (v.corePlan flows core).assemble))

theorem Compiled.from_of_stages {v : ValidSpec} {c : Compiled} (hv : v.Sound)
    {keyed : List KeyedFlow} {flows : List PlannedFlow} (hstages : Stages v keyed flows c) :
    c.From v flows := by
  obtain ⟨hrouted, hfits, -, hapart⟩ :=
    Keys.assign_eq_ok (fun f hf => (hv.sound_of_mem hf).placed) hstages.assigned
  have hplans := mapM_eq_ok.1 hstages.planned
  have hkeys : flows.map (·.toKeyedFlow) = keyed :=
    map_eq_of_forall₂ hplans fun f g _ hg => (plan_eq_ok hstages.runTicks_lt hg).1
  have htimed : ∀ g ∈ flows, g.Timed v.spec v.flows.values := by
    intro g hg
    obtain ⟨f, -, hf⟩ := exists_of_forall₂ hplans hg
    exact (plan_eq_ok hstages.runTicks_lt hf).2
  refine ⟨hv, ?_, ?_, ?_, htimed, hstages.roles, hstages.timestep_lt, hstages.runTicks_lt,
    hstages.recordTicks_lt, ?_, hstages.programs⟩
  · rw [← hrouted, ← hkeys, List.map_map]
    rfl
  · intro f hf
    exact hfits _ (hkeys ▸ List.mem_map_of_mem hf)
  · rw [← hkeys, List.pairwise_map] at hapart
    exact hapart
  · rw [hstages.keys, ← hkeys, List.map_map]
    rfl

theorem Compiled.from_of_compile {v : ValidSpec} {c : Compiled} (hv : v.Sound)
    (h : compile v = .ok c) : ∃ flows, c.From v flows := by
  obtain ⟨keyed, flows, hstages⟩ := compile_eq_ok.1 h
  exact ⟨flows, Compiled.from_of_stages hv hstages⟩

namespace Compiled.From

variable {v : ValidSpec} {flows : List PlannedFlow} {c : Compiled} (h : c.From v flows)

include h

/-! ## Flows -/

theorem mem_values {f : PlannedFlow} (hf : f ∈ flows) : f.toRoutedFlow ∈ v.flows.values := by
  rw [← h.routed]
  exact List.mem_map_of_mem hf

theorem exists_planned {f : RoutedFlow} (hf : f ∈ v.flows.values) :
    ∃ g ∈ flows, g.toRoutedFlow = f := by
  rw [← h.routed] at hf
  exact List.mem_map.1 hf

theorem ids_nodup : (flows.map (·.id)).Nodup := by
  have hids := h.valid.ids_nodup
  rw [← h.routed, List.map_map] at hids
  exact hids

theorem eq_of_id {f g : PlannedFlow} (hf : f ∈ flows) (hg : g ∈ flows) (e : f.id = g.id) : f = g :=
  List.inj_on_of_nodup_map h.ids_nodup hf hg e

/-- A flow has one place among those in which a core has a certain role. -/
theorem place_eq {role : PlannedFlow → Bool} {i j : Nat} {f g : PlannedFlow}
    (hi : (flows.filter role)[i]? = some f) (hj : (flows.filter role)[j]? = some g)
    (hid : g.id = f.id) : j = i := by
  have hf := (List.mem_filter.1 (List.mem_of_getElem? hi)).1
  have hg := (List.mem_filter.1 (List.mem_of_getElem? hj)).1
  have hnodup : (flows.filter role).Nodup := (List.Nodup.of_map _ h.ids_nodup).filter _
  rw [h.eq_of_id hg hf hid] at hj
  obtain ⟨hlt, hi⟩ := List.getElem?_eq_some_iff.1 hi
  obtain ⟨hlt', hj⟩ := List.getElem?_eq_some_iff.1 hj
  exact (List.Nodup.getElem_inj_iff hnodup).1 (hj.trans hi.symm)

theorem placed {f : PlannedFlow} (hf : f ∈ flows) : f.route.Placed v.fabric :=
  (h.valid.sound_of_mem (h.mem_values hf)).placed

theorem repeats {f : PlannedFlow} (hf : f ∈ flows) : f.schedule.Repeats :=
  Generation.repeats_of_schedule (h.valid.sound_of_mem (h.mem_values hf)).generation
    (h.timed f hf).schedule

theorem get?_keys {f : PlannedFlow} (hf : f ∈ flows) : c.keys.get? f.id = some f.key := by
  rw [h.keys, Table.get?_ofList]
  · exact List.mem_map_of_mem hf
  · rw [List.map_map]
    exact h.ids_nodup

/-! ## Programs -/

theorem entries_programs : c.programs.entries =
    v.participants.keys.map fun core => (core, (v.corePlan flows core).assemble) := by
  rw [h.programs]
  refine Table.entries_ofList (Table.ascending_of_keys (t := v.participants) ?_)
  rw [List.map_map]
  exact List.map_id _

theorem keys_programs : c.programs.keys = v.participants.keys := by
  unfold Table.keys
  rw [h.entries_programs, List.map_map]
  exact List.map_id _

theorem values_programs :
    c.programs.values = v.participants.keys.map fun core => (v.corePlan flows core).assemble := by
  unfold Table.values
  rw [h.entries_programs, List.map_map]
  rfl

theorem get?_programs {core : CoreId} {p : Program} :
    c.programs.get? core = some p ↔
      core ∈ v.participants.keys ∧ (v.corePlan flows core).assemble = p := by
  rw [← Table.mem_entries, h.entries_programs, List.mem_map]
  constructor
  · rintro ⟨d, hd, e⟩
    cases e
    exact ⟨hd, rfl⟩
  · rintro ⟨hc, rfl⟩
    exact ⟨core, hc, rfl⟩

theorem mem_programs {p : Program} :
    p ∈ c.programs.values ↔ ∃ core ∈ v.participants.keys, (v.corePlan flows core).assemble = p := by
  rw [h.values_programs, List.mem_map]

/-- Every core of a flow takes part. -/
theorem mem_participants {f : PlannedFlow} {core : CoreId} (hf : f ∈ flows)
    (hc : core ∈ f.route.cores) : core ∈ v.participants.keys :=
  ValidSpec.mem_participants.2 ⟨f.toRoutedFlow, h.mem_values hf, hc⟩

end Compiled.From

/-! ## A specification that compiles -/

namespace Spec

/-- Two cores on two regions.  The first sends to the second at a steady rate; the second sends to
both at random. -/
def twoCores : Spec where
  placement :=
    { regions := [⟨⟨0⟩, 8⟩, ⟨⟨1⟩, 8⟩]
      links := [⟨⟨0⟩, ⟨1⟩⟩]
      cores := [⟨⟨0⟩, ⟨0⟩⟩, ⟨⟨1⟩, ⟨1⟩⟩]
      endpoints := [⟨⟨0⟩, ⟨0⟩⟩, ⟨⟨1⟩, ⟨1⟩⟩] }
  flows :=
    [⟨⟨0⟩, ⟨0⟩, [⟨1⟩], .periodic 1e8, .withPayload, ⟨0⟩, none⟩,
      ⟨⟨1⟩, ⟨1⟩, [⟨0⟩, ⟨1⟩], .poisson 1e8, .keyOnly, ⟨0⟩, none⟩]
  duration := ⟨40⟩
  timestep := ⟨5⟩
  seed := 1
  record := .empty
  recordInterval := ⟨10⟩
  consume := true
  memoryBudget := ⟨8192⟩

/-- The cores of the programs of a specification, if it is valid and compiles, with the numbers of
their sources and sinks. -/
def shape? (s : Spec) : Option (List (CoreId × Nat × Nat)) :=
  match s.validate with
  | .error _ => none
  | .ok v =>
    match compile v with
    | .error _ => none
    | .ok c => some (c.programs.values.map fun p => (p.core, p.sources.length, p.sinks.length))

theorem exists_of_shape? {s : Spec} {shape : List (CoreId × Nat × Nat)}
    (h : s.shape? = some shape) :
    ∃ v c, s.validate = .ok v ∧ compile v = .ok c ∧
      (c.programs.values.map fun p => (p.core, p.sources.length, p.sinks.length)) = shape := by
  unfold shape? at h
  split at h
  · cases h
  next v hv =>
  split at h
  · cases h
  next c hc =>
  cases h
  exact ⟨v, c, hv, hc, rfl⟩

/-- What is seen of a core's program, if the specification is valid and compiles to one. -/
def view? {α : Type} (s : Spec) (core : CoreId) (view : ValidSpec → Program → α) : Option α :=
  s.validate.toOption.bind fun v => (compile v).toOption.bind fun c =>
    (c.programs.get? core).map (view v)

theorem exists_of_view? {α : Type} {s : Spec} {core : CoreId} {view : ValidSpec → Program → α}
    {x : α} (h : s.view? core view = some x) :
    ∃ v c p, s.validate = .ok v ∧ compile v = .ok c ∧ c.programs.get? core = some p ∧
      view v p = x := by
  obtain ⟨v, hv, h⟩ := Option.bind_eq_some_iff.1 h
  obtain ⟨c, hc, h⟩ := Option.bind_eq_some_iff.1 h
  obtain ⟨p, hp, h⟩ := Option.map_eq_some_iff.1 h
  exact ⟨v, c, p, toOption_eq_some.1 hv, toOption_eq_some.1 hc, hp, h⟩

theorem twoCores_shape : twoCores.shape? = some [(⟨0⟩, 1, 1), (⟨1⟩, 1, 2)] := by
  decide +kernel

/-- The specification compiles, and its first program has a source. -/
theorem twoCores_compiles : ∃ v c p r, twoCores.validate = .ok v ∧ compile v = .ok c ∧
    p ∈ c.programs.values ∧ r ∈ p.sources := by
  obtain ⟨v, c, hv, hc, hshape⟩ := exists_of_shape? twoCores_shape
  obtain ⟨p, rest, hp, hhead, -⟩ := List.map_eq_cons_iff.1 hshape
  have hsources : p.sources.length = 1 := congrArg (·.2.1) hhead
  obtain ⟨r, hr⟩ := List.length_eq_one_iff.1 hsources
  exact ⟨v, c, p, r, hv, hc, by simp [hp], by simp [hr]⟩

end Spec

end TrafficLab
