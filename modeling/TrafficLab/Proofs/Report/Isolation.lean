import TrafficLab.Proofs.Compilation
import TrafficLab.Proofs.Table
import TrafficLab.Report.Merge

/-!
# A bad core spoils its own flows alone

Two collections of dumps for the same programs may differ in what one core gave back: nothing, a cut
dump, one of another program, garbage.  Their reports differ in that core and in the flows it has a
role in, and in these flows only in what the core itself has to say.

    a look-up in a list's table depends on the entries of that key alone    (get?_ofList_congr)
    no source on the core → the same sources are read out                   (sourceReadouts_congr)
    no role on the core → the same result                                   (mergeFlow_congr)
    the reports agree but for the core                                     (bad_core_spoils_its_own)

The programs need not be those of one specification.
-/

namespace TrafficLab

/-! ## Look-up -/

namespace Table

variable {κ α : Type} [Keyed κ] [DecidableEq κ]

/-- Only the insertions of a key matter for what is found under it. -/
theorem get?_foldl_insert_filter (l : List (κ × α)) {s t : Table κ α} {k : κ}
    (h : s.get? k = t.get? k) :
    (l.foldl (fun t e => t.insert e.1 e.2) s).get? k =
      ((l.filter fun e => e.1 = k).foldl (fun t e => t.insert e.1 e.2) t).get? k := by
  induction l generalizing s t with
  | nil => exact h
  | cons e rest ih =>
    rw [List.foldl_cons, List.filter_cons]
    by_cases hk : e.1 = k
    · rw [if_pos (decide_eq_true hk), List.foldl_cons]
      refine ih ?_
      rw [hk, get?_insert_self, get?_insert_self]
    · rw [if_neg (by simpa using hk)]
      refine ih ?_
      rw [get?_insert_of_ne _ (fun e => hk e.symm), h]

theorem get?_ofList_congr {l m : List (κ × α)} {k : κ}
    (h : (l.filter fun e => e.1 = k) = m.filter fun e => e.1 = k) :
    (ofList l).get? k = (ofList m).get? k := by
  unfold ofList
  rw [get?_foldl_insert_filter l rfl, h, ← get?_foldl_insert_filter m rfl]

end Table

/-! ## Reports of any programs -/

section
variable (programs : Table CoreId Program) (dumps : Table CoreId CounterDump)
  (unreachable : KeySet CoreId)

/-- What was read back of each core that has a program. -/
def readoutsOf : List Readout :=
  programs.entries.map fun e => Readout.ofDump? unreachable e.1 e.2 (dumps.get? e.1)

theorem Readout.ofDump?_core (core : CoreId) (p : Program) (dump : Option CounterDump) :
    (Readout.ofDump? unreachable core p dump).core = core ∧
      (Readout.ofDump? unreachable core p dump).program = p := by
  cases dump <;> exact ⟨rfl, rfl⟩

variable {programs dumps unreachable}

theorem get?_program_of_mem_readoutsOf {r : Readout}
    (h : r ∈ readoutsOf programs dumps unreachable) : programs.get? r.core = some r.program := by
  obtain ⟨e, he, rfl⟩ := List.mem_map.1 h
  obtain ⟨hcore, hprogram⟩ := Readout.ofDump?_core unreachable e.1 e.2 (dumps.get? e.1)
  rw [hcore, hprogram]
  exact Table.mem_entries.1 he

variable (programs dumps unreachable) in
theorem map_core_readoutsOf : (readoutsOf programs dumps unreachable).map (·.core) =
    programs.keys := by
  unfold readoutsOf Table.keys
  rw [List.map_map]
  exact List.map_congr_left fun e _ => (Readout.ofDump?_core unreachable e.1 e.2 _).1

variable (programs dumps unreachable) in
theorem map_program_readoutsOf : (readoutsOf programs dumps unreachable).map (·.program) =
    programs.values := by
  unfold readoutsOf Table.values
  rw [List.map_map]
  exact List.map_congr_left fun e _ => (Readout.ofDump?_core unreachable e.1 e.2 _).2

/-- There is one report for each core that has a program. -/
theorem entries_cores_ofDumps : (Report.ofDumps programs dumps unreachable).cores.entries =
    (readoutsOf programs dumps unreachable).map fun r => (r.core, r.coreReport) := by
  refine Table.entries_ofList (Table.ascending_of_keys (t := programs) ?_)
  rw [List.map_map]
  exact map_core_readoutsOf programs dumps unreachable

theorem keys_cores_ofDumps : (Report.ofDumps programs dumps unreachable).cores.keys =
    programs.keys := by
  unfold Table.keys
  rw [entries_cores_ofDumps, List.map_map]
  exact map_core_readoutsOf programs dumps unreachable

/-- A core is reported as it was read back. -/
theorem get?_cores_ofDumps {core : CoreId} {p : Program} (hp : programs.get? core = some p) :
    (Report.ofDumps programs dumps unreachable).cores.get? core =
      some (Readout.ofDump? unreachable core p (dumps.get? core)).coreReport := by
  rw [← Table.mem_entries, entries_cores_ofDumps]
  refine List.mem_map.2 ⟨_, List.mem_map_of_mem (Table.mem_entries.2 hp), ?_⟩
  simp only [(Readout.ofDump?_core unreachable core p _).1]

/-- The flows that some program has a role in have the results that the readouts are merged into. -/
theorem get?_flows_ofDumps (flow : FlowId) :
    (Report.ofDumps programs dumps unreachable).flows.get? flow =
      ((KeySet.ofList (programs.values.flatMap Program.flows)).get? flow).map fun _ =>
        mergeFlow flow (readoutsOf programs dumps unreachable) := by
  have hroles : (readoutsOf programs dumps unreachable).flatMap (fun r => r.program.flows) =
      programs.values.flatMap Program.flows := by
    rw [← map_program_readoutsOf programs dumps unreachable, List.flatMap_map]
  show (Table.map (fun f _ => mergeFlow f (readoutsOf programs dumps unreachable))
    (KeySet.ofList _)).get? flow = _
  rw [Table.get?_map, ← hroles]
  rfl

theorem mem_keys_flows_ofDumps {flow : FlowId} :
    flow ∈ (Report.ofDumps programs dumps unreachable).flows.keys ↔
      ∃ p ∈ programs.values, flow ∈ p.flows := by
  have hflow : flow ∈ (KeySet.ofList (programs.values.flatMap Program.flows)).keys ↔
      ∃ p ∈ programs.values, flow ∈ p.flows := by
    rw [KeySet.mem_keys_ofList, List.mem_flatMap]
  rw [← hflow, Table.mem_keys, Table.mem_keys]
  simp only [get?_flows_ofDumps, Option.map_eq_some_iff]
  constructor
  · rintro ⟨-, u, hu, -⟩
    exact ⟨u, hu⟩
  · rintro ⟨u, hu⟩
    exact ⟨_, u, hu, rfl⟩

end

/-! ## Readouts that agree but for one core -/

/-- Two readouts of a core and its program, which are the same unless it is the `bad` core. -/
structure Readout.AgreeBut (bad : CoreId) (r r' : Readout) : Prop where
  core : r'.core = r.core
  program : r'.program = r.program
  eq : r.core ≠ bad → r' = r

/-- A core that has no source of a flow among some readouts. -/
def SendsNot (core : CoreId) (flow : FlowId) (rs : List Readout) : Prop :=
  ∀ r ∈ rs, r.core = core → ∀ s ∈ r.program.sources, s.flow ≠ flow

/-- A core that has no sink of a flow among some readouts. -/
def ReceivesNot (core : CoreId) (flow : FlowId) (rs : List Readout) : Prop :=
  ∀ r ∈ rs, r.core = core → ∀ s ∈ r.program.sinks, s.flow ≠ flow

section
variable {bad : CoreId} {flow : FlowId} {rs rs' : List Readout}
  (h : List.Forall₂ (Readout.AgreeBut bad) rs rs')

include h

theorem map_program_congr : rs'.map (·.program) = rs.map (·.program) := by
  rw [← List.forall₂_eq_eq_eq, List.forall₂_map_left_iff, List.forall₂_map_right_iff]
  exact (h.imp fun _ _ hr => hr.program).flip

/-- What is found under another core among entries that readouts make for their own cores. -/
theorem get?_ofList_flatMap_congr {β : Type} {g : Readout → List (CoreId × β)}
    (hg : ∀ r, ∀ e ∈ g r, e.1 = r.core) {core : CoreId} (hne : core ≠ bad) :
    (Table.ofList (rs'.flatMap g)).get? core = (Table.ofList (rs.flatMap g)).get? core := by
  refine Table.get?_ofList_congr ?_
  have hnone : ∀ r : Readout, r.core = bad → (g r).filter (fun e => e.1 = core) = [] := by
    intro r hbad
    refine List.filter_eq_nil_iff.2 fun e he => ?_
    simpa [hg r e he, hbad] using hne.symm
  induction h with
  | nil => rfl
  | @cons r r' rs rs' hr _ ih =>
    rw [List.flatMap_cons, List.flatMap_cons, List.filter_append, List.filter_append, ih]
    by_cases hbad : r.core = bad
    · rw [hnone r hbad, hnone r' (hr.core.trans hbad)]
    · rw [hr.eq hbad]

/-- What is gathered from some roles of each core is the same if the bad core has none of them. -/
theorem flatMap_roles_congr {ρ β : Type} (roles : Program → List ρ) (mk : Readout → ρ → β)
    (hnone : ∀ r ∈ rs, r.core = bad → roles r.program = []) :
    (rs'.flatMap fun r => (roles r.program).map (mk r)) =
      rs.flatMap fun r => (roles r.program).map (mk r) := by
  induction h with
  | nil => rfl
  | @cons r r' rs rs' hr _ ih =>
    rw [List.flatMap_cons, List.flatMap_cons, ih fun x hx => hnone x (List.mem_cons_of_mem r hx)]
    by_cases hbad : r.core = bad
    · rw [hr.program, hnone r List.mem_cons_self hbad]
      rfl
    · rw [hr.eq hbad]

theorem sourceReadouts_congr (hnone : SendsNot bad flow rs) :
    sourceReadouts flow rs' = sourceReadouts flow rs := by
  refine flatMap_roles_congr h (fun p => p.sources.filter (·.flow = flow))
    (fun r _ => r) fun r hr hbad => List.filter_eq_nil_iff.2 fun s hs => ?_
  simpa using hnone r hr hbad s hs

theorem sinkReadouts_congr (hnone : ReceivesNot bad flow rs) :
    sinkReadouts flow rs' = sinkReadouts flow rs := by
  refine flatMap_roles_congr h (fun p => p.sinks.filter (·.flow = flow))
    Prod.mk fun r hr hbad => List.filter_eq_nil_iff.2 fun s hs => ?_
  simpa using hnone r hr hbad s hs

/-- When the counters were recorded is known from the programs. -/
theorem recordTicks_congr (flow : FlowId) : recordTicks flow rs' = recordTicks flow rs := by
  have hprograms : ∀ rs : List Readout, recordTicks flow rs =
      ((((rs.map (·.program)).filter fun p => (p.sources.any (·.flow = flow) ||
        p.sinks.any (·.flow = flow)) && decide (1 < p.samples)).getLast?).map
          fun p => p.sampleTicks).getD [] := by
    intro rs
    rw [List.filter_map, List.getLast?_map, Option.map_map]
    show _ = ((rs.filter fun r => r.hasRole flow && decide (1 < r.program.samples)).getLast?.map
      fun r => r.program.sampleTicks).getD []
    unfold recordTicks
    split
    · next hlast => rw [hlast]; rfl
    · next hlast => rw [hlast]; rfl
  rw [hprograms, hprograms, map_program_congr h]

/-- The result of a flow in which the bad core has no role. -/
theorem mergeFlow_congr (hsources : SendsNot bad flow rs) (hsinks : ReceivesNot bad flow rs) :
    mergeFlow flow rs' = mergeFlow flow rs := by
  have hsource := sourceReadouts_congr h hsources
  have hsink := sinkReadouts_congr h hsinks
  have hticks := recordTicks_congr h flow
  unfold mergeFlow receivedByCore missingCores sourceTotals latencySummary? timeline sentSeries
    receivedSeries decodedSinks
  rw [hsource, hsink, hticks]

/-! ## Flows with a role on the bad core -/

/-- What a core received depends on what was read back of it alone. -/
theorem get?_receivedByCore_congr {core : CoreId} (hne : core ≠ bad) :
    (receivedByCore flow rs').get? core = (receivedByCore flow rs).get? core := by
  have hentries : ∀ rs : List Readout, receivedByCore flow rs = Table.ofList (rs.flatMap fun r =>
      ((r.program.sinks.filter (·.flow = flow)).filterMap fun s =>
        (r.metric? flow .received).map fun n => ((r, s), n)).map fun s => (s.1.1.core, s.2)) := by
    intro rs
    unfold receivedByCore decodedSinks sinkReadouts
    rw [List.filterMap_flatMap, List.map_flatMap]
    simp only [List.filterMap_map, Function.comp_def]
  rw [hentries, hentries]
  refine get?_ofList_flatMap_congr h (fun r e he => ?_) hne
  obtain ⟨s, hs, rfl⟩ := List.mem_map.1 he
  obtain ⟨sink, -, hsink⟩ := List.mem_filterMap.1 hs
  obtain ⟨n, -, rfl⟩ := Option.map_eq_some_iff.1 hsink
  rfl

theorem sent_congr (hsources : SendsNot bad flow rs) :
    (mergeFlow flow rs').sent = (mergeFlow flow rs).sent ∧
      (mergeFlow flow rs').blocked = (mergeFlow flow rs).blocked := by
  unfold mergeFlow sourceTotals
  rw [sourceReadouts_congr h hsources]
  exact ⟨rfl, rfl⟩

end

/-- Readouts of the same programs, where the dumps and what is known of unreachable cores are the
same but for one core. -/
theorem forall₂_readoutsOf (programs : Table CoreId Program)
    {dumps dumps' : Table CoreId CounterDump} {unreachable unreachable' : KeySet CoreId} {bad : CoreId}
    (hdumps : ∀ core, core ≠ bad → dumps'.get? core = dumps.get? core)
    (hunreachable : ∀ core, core ≠ bad → (core ∈ unreachable'.keys ↔ core ∈ unreachable.keys)) :
    List.Forall₂ (Readout.AgreeBut bad) (readoutsOf programs dumps unreachable)
      (readoutsOf programs dumps' unreachable') := by
  unfold readoutsOf
  rw [List.forall₂_map_left_iff, List.forall₂_map_right_iff, List.forall₂_same]
  rintro ⟨core, p⟩ -
  obtain ⟨hcore, hprogram⟩ := Readout.ofDump?_core unreachable core p (dumps.get? core)
  obtain ⟨hcore', hprogram'⟩ := Readout.ofDump?_core unreachable' core p (dumps'.get? core)
  refine ⟨hcore'.trans hcore.symm, hprogram'.trans hprogram.symm, fun hne => ?_⟩
  rw [hcore] at hne
  have hcontains : unreachable'.contains core = unreachable.contains core := by
    rw [Bool.eq_iff_iff, Table.contains_eq_true, Table.contains_eq_true]
    exact hunreachable core hne
  rw [hdumps core hne]
  cases dumps.get? core with
  | some dump => rfl
  | none =>
    unfold Readout.ofDump?
    rw [hcontains]

/-! ## Main result -/

/-- Two reports that differ in what one core gave back, and in nothing that others did. -/
structure Report.AgreeBut (programs : Table CoreId Program) (bad : CoreId)
    (report report' : Report) : Prop where
  cores_keys : report'.cores.keys = report.cores.keys
  flows_keys : report'.flows.keys = report.flows.keys
  core : ∀ core, core ≠ bad → report'.cores.get? core = report.cores.get? core
  /-- Flows without a role on the bad core are not touched. -/
  flow : ∀ flow, (∀ p, programs.get? bad = some p → flow ∉ p.flows) →
    report'.flows.get? flow = report.flows.get? flow
  /-- Flows with a role there keep what the other cores received. -/
  received : ∀ flow r r', report.flows.get? flow = some r → report'.flows.get? flow = some r' →
    ∀ core, core ≠ bad → r'.received.get? core = r.received.get? core
  /-- Flows that the bad core only receives keep what was sent. -/
  sent : ∀ flow r r', report.flows.get? flow = some r → report'.flows.get? flow = some r' →
    (∀ p, programs.get? bad = some p → ∀ s ∈ p.sources, s.flow ≠ flow) →
    r'.sent = r.sent ∧ r'.blocked = r.blocked

/-- Whatever a core gave back, or whether it gave back anything, a report has an entry for each
core with a program and each flow with a role, and the other cores and their flows do not notice. -/
theorem bad_core_spoils_its_own (programs : Table CoreId Program)
    {dumps dumps' : Table CoreId CounterDump} {unreachable unreachable' : KeySet CoreId}
    {bad : CoreId} (hdumps : ∀ core, core ≠ bad → dumps'.get? core = dumps.get? core)
    (hunreachable : ∀ core, core ≠ bad → (core ∈ unreachable'.keys ↔ core ∈ unreachable.keys)) :
    (Report.ofDumps programs dumps unreachable).cores.keys = programs.keys ∧
    (∀ flow, flow ∈ (Report.ofDumps programs dumps unreachable).flows.keys ↔
      ∃ p ∈ programs.values, flow ∈ p.flows) ∧
    (Report.ofDumps programs dumps unreachable).AgreeBut programs bad
      (Report.ofDumps programs dumps' unreachable') := by
  have hagree := forall₂_readoutsOf programs hdumps hunreachable
  have hprogram : ∀ r ∈ readoutsOf programs dumps unreachable, r.core = bad →
      programs.get? bad = some r.program := fun r hr hbad =>
    hbad ▸ get?_program_of_mem_readoutsOf hr
  have hflows_keys : (Report.ofDumps programs dumps' unreachable').flows.keys =
      (Report.ofDumps programs dumps unreachable).flows.keys :=
    KeySet.keys_eq_of_mem fun flow => by rw [mem_keys_flows_ofDumps, mem_keys_flows_ofDumps]
  refine ⟨keys_cores_ofDumps, fun flow => mem_keys_flows_ofDumps, ?_, hflows_keys, ?_, ?_, ?_, ?_⟩
  · rw [keys_cores_ofDumps, keys_cores_ofDumps]
  · intro core hne
    have hentry : ∀ rs : List Readout, (rs.map fun r => (r.core, r.coreReport)) =
        rs.flatMap fun r => [(r.core, r.coreReport)] := fun rs => List.map_eq_flatMap
    show (Table.ofList ((readoutsOf programs dumps' unreachable').map _)).get? core =
      (Table.ofList ((readoutsOf programs dumps unreachable).map _)).get? core
    rw [hentry, hentry]
    refine get?_ofList_flatMap_congr hagree (fun r e he => ?_) hne
    rw [List.mem_singleton.1 he]
  · intro flow hnone
    have hsources : SendsNot bad flow (readoutsOf programs dumps unreachable) :=
      fun r hr hbad s hs e => hnone r.program (hprogram r hr hbad)
        (List.mem_append_left _ (List.mem_map.2 ⟨s, hs, e⟩))
    have hsinks : ReceivesNot bad flow (readoutsOf programs dumps unreachable) :=
      fun r hr hbad s hs e => hnone r.program (hprogram r hr hbad)
        (List.mem_append_right _ (List.mem_map.2 ⟨s, hs, e⟩))
    rw [get?_flows_ofDumps, get?_flows_ofDumps, mergeFlow_congr hagree hsources hsinks]
  · intro flow r r' hr hr' core hne
    rw [get?_flows_ofDumps] at hr hr'
    obtain ⟨-, -, rfl⟩ := Option.map_eq_some_iff.1 hr
    obtain ⟨-, -, rfl⟩ := Option.map_eq_some_iff.1 hr'
    exact get?_receivedByCore_congr hagree hne
  · intro flow r r' hr hr' hnone
    rw [get?_flows_ofDumps] at hr hr'
    obtain ⟨-, -, rfl⟩ := Option.map_eq_some_iff.1 hr
    obtain ⟨-, -, rfl⟩ := Option.map_eq_some_iff.1 hr'
    exact sent_congr hagree fun r hr hbad => hnone r.program (hprogram r hr hbad)

/-- The specification of two cores with a third, which sends a flow to the first. -/
def Spec.threeCores : Spec :=
  { Spec.twoCores with
    placement :=
      { Spec.twoCores.placement with
        cores := [⟨⟨0⟩, ⟨0⟩⟩, ⟨⟨1⟩, ⟨1⟩⟩, ⟨⟨2⟩, ⟨1⟩⟩]
        endpoints := [⟨⟨0⟩, ⟨0⟩⟩, ⟨⟨1⟩, ⟨1⟩⟩, ⟨⟨2⟩, ⟨2⟩⟩] }
    flows := Spec.twoCores.flows ++
      [⟨⟨2⟩, ⟨2⟩, [⟨0⟩], .periodic 1e8, .withPayload, ⟨0⟩, none⟩] }

/-- It compiles, and the third core has a role in its own flow alone. -/
theorem Spec.threeCores_compiles : ∃ v c p, threeCores.validate = .ok v ∧ compile v = .ok c ∧
    c.programs.get? ⟨2⟩ = some p ∧ p.flows = [⟨2⟩] := by
  have hflows : threeCores.view? ⟨2⟩ (fun _ p => p.flows) = some [⟨2⟩] := by decide +kernel
  exact Spec.exists_of_view? hflows

/-- The third core has its whole dump read, or cannot be reached and leaves two bytes behind. -/
theorem bad_core_spoils_its_own_threeCores :
    ∃ v c, Spec.threeCores.validate = .ok v ∧ compile v = .ok c ∧
      let dumps : Table CoreId CounterDump :=
        c.programs.map fun _ p => p.dump (List.replicate (p.slots.length * p.samples) 7)
      let dumps' := dumps.insert ⟨2⟩ ⟨⟨2⟩, [0x54, 0x43]⟩
      let report := Report.ofDumps c.programs dumps .empty
      let report' := Report.ofDumps c.programs dumps' (.ofList [⟨2⟩])
      (∀ core, core ≠ ⟨2⟩ → dumps'.get? core = dumps.get? core) ∧
        report.AgreeBut c.programs ⟨2⟩ report' ∧
        report'.flows.get? ⟨0⟩ = report.flows.get? ⟨0⟩ := by
  obtain ⟨v, c, p, hv, hc, hp, hflows⟩ := Spec.threeCores_compiles
  refine ⟨v, c, hv, hc, ?_⟩
  intro dumps dumps' report report'
  have hdumps : ∀ core, core ≠ ⟨2⟩ → dumps'.get? core = dumps.get? core := fun core hne =>
    Table.get?_insert_of_ne dumps hne _
  have hunreachable : ∀ core : CoreId, core ≠ ⟨2⟩ →
      (core ∈ (KeySet.ofList [(⟨2⟩ : CoreId)]).keys ↔ core ∈ (Table.empty : KeySet CoreId).keys) :=
    fun core hne => by simp [hne]
  obtain ⟨-, -, hagree⟩ := bad_core_spoils_its_own c.programs hdumps hunreachable
  refine ⟨hdumps, hagree, hagree.flow ⟨0⟩ fun q hq => ?_⟩
  rw [hp] at hq
  cases hq
  rw [hflows]
  decide

end TrafficLab
