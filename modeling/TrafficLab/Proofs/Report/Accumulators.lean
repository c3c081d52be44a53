import Mathlib.Data.List.Induction
import TrafficLab.Proofs.Checked
import TrafficLab.Proofs.Table
import TrafficLab.Report.Merge

/-!
# Merging with an accumulator for each flow

Readouts can be merged in one pass over the cores, with an accumulator for each flow that every role
of a core adds to.  What a flow has at the end is what its own roles have added, in their order
(`get?_foldl_update`), and this is the result that it has been given from lists of its sources and
sinks (`Gathered`).

Cores may have been read back in any order: they are looked up in a table.

    an accumulator gathers the roles of its flow                    (gathered_foldl)
    a pass over the cores = a result for each flow                  (merge_eq)
    aggregate, from readouts in any order = Report.ofDumps          (aggregate_eq)
-/

namespace TrafficLab

namespace Accumulators

/-! ## Algorithm -/

structure LatencySums where
  samples : UInt64
  sum : UInt64
  sumSq : UInt64
  reference : Nanosecs

/-- What has been gathered of a flow. -/
structure FlowSums where
  sent : Option (UInt64 × UInt64)
  received : Table CoreId UInt64
  missing : KeySet CoreId
  latency : Option LatencySums
  /-- The ticks of the records, if there is more than one. -/
  ticks : List Nat
  sentSeries : Option (List UInt64)
  receivedSeries : List (List UInt64)

namespace FlowSums

def empty : FlowSums := ⟨none, .empty, .empty, none, [], none, []⟩

variable (acc : FlowSums) (r : Readout)

def addTicks : FlowSums :=
  if 1 < r.program.samples then { acc with ticks := r.program.sampleTicks } else acc

def addMissing : FlowSums := { acc with missing := acc.missing.add r.core }

def addSource (flow : FlowId) : FlowSums :=
  let acc := match r.sourceCounts? flow with
    | some counts => { acc with sent := some counts }
    | none => acc.addMissing r
  { acc with sentSeries := r.series? flow .sent }.addTicks r

/-- Adds what a sink has measured to the sums, which take its timestep if it is the first. -/
def addLatency (flow : FlowId) (received : UInt64) : FlowSums :=
  let sums := acc.latency.getD ⟨0, 0, 0, r.program.timestep⟩
  { acc with
    latency := some
      { sums with
        samples := saturatingAdd sums.samples received
        sum := saturatingAdd sums.sum ((r.metric? flow .latencySum).getD 0)
        sumSq := saturatingAdd sums.sumSq ((r.metric? flow .latencySumSq).getD 0) } }

def addSink (flow : FlowId) (sink : SinkRole) : FlowSums :=
  let acc := acc.addTicks r
  match r.metric? flow .received with
  | none => acc.addMissing r
  | some received =>
    let acc :=
      { acc with
        received := acc.received.insert r.core received
        receivedSeries := acc.receivedSeries ++ (r.series? flow .received).toList }
    if sink.latency then acc.addLatency r flow received else acc

/-- The result of a flow from what has been gathered. -/
def finish (flow : FlowId) : FlowResult :=
  let counts := acc.sent.getD (0, 0)
  let total := acc.received.values.foldl saturatingAdd 0
  { flow
    sent := counts.1
    blocked := counts.2
    received := acc.received
    dropped :=
      if acc.sent.isSome then
        saturatingSub (saturatingMul counts.1 (UInt64.ofNat acc.received.size)) total
      else 0
    latency := acc.latency.bind fun l => LatencySummary.ofSums? l.samples l.sum l.sumSq l.reference
    status := if acc.missing.isEmpty then .complete else .partially acc.missing
    timeline := acc.ticks.zipIdx.map fun (tick, k) =>
      ⟨.ofNat tick, (acc.sentSeries.bind (·[k]?)).getD 0,
        (acc.receivedSeries.filterMap (·[k]?)).foldl saturatingAdd 0⟩ }

end FlowSums

/-- Changes what has been gathered of a flow, which is nothing if there is no accumulator. -/
def update (flows : Table FlowId FlowSums) (flow : FlowId) (change : FlowSums → FlowSums) :
    Table FlowId FlowSums :=
  flows.insert flow (change ((flows.get? flow).getD .empty))

/-- Adds the sources and then the sinks of a core. -/
def addCore (flows : Table FlowId FlowSums) (r : Readout) : Table FlowId FlowSums :=
  r.program.sinks.foldl (fun flows s => update flows s.flow fun acc => acc.addSink r s.flow s)
    (r.program.sources.foldl
      (fun flows s => update flows s.flow fun acc => acc.addSource r s.flow) flows)

def merge (rs : List Readout) : Report :=
  ⟨(rs.foldl addCore .empty).map fun flow acc => acc.finish flow,
    rs.foldl (fun cores r => cores.insert r.core r.coreReport) .empty⟩

/-- Looks up what was read back of each core, and merges it.  Without a miss there is a report. -/
def aggregate (programs : Table CoreId Program)
    (decoded : Table CoreId (CoreStatus × Option Contribution)) : Option Report := do
  let rs ← programs.entries.mapM fun e =>
    (decoded.get? e.1).map fun d => (⟨e.1, e.2, d.1, d.2⟩ : Readout)
  some (merge rs)

/-! ## Roles -/

/-- A role that a core has in a flow. -/
inductive Role
  | source (r : Readout)
  | sink (r : Readout) (s : SinkRole)

namespace Role

def readout : Role → Readout
  | source r => r
  | sink r _ => r

def source? : Role → Option Readout
  | source r => some r
  | sink _ _ => none

def sink? : Role → Option (Readout × SinkRole)
  | source _ => none
  | sink r s => some (r, s)

/-- What a role adds to a flow. -/
def addTo (flow : FlowId) (acc : FlowSums) : Role → FlowSums
  | source r => acc.addSource r flow
  | sink r s => acc.addSink r flow s

end Role

/-- The roles of a core, each with its flow. -/
def rolesOf (r : Readout) : List (FlowId × Role) :=
  (r.program.sources.map fun s => (s.flow, .source r))
  ++ r.program.sinks.map fun s => (s.flow, .sink r s)

/-- The roles of a flow, core by core. -/
def roles (flow : FlowId) (rs : List Readout) : List Role :=
  ((rs.flatMap rolesOf).filter fun e => e.1 = flow).map (·.2)

/-- What some roles of a flow add up to. -/
def gather (flow : FlowId) (roles : List Role) : FlowSums :=
  roles.foldl (fun acc role => role.addTo flow acc) .empty

theorem addCore_eq (flows : Table FlowId FlowSums) (r : Readout) :
    addCore flows r =
      (rolesOf r).foldl (fun flows e => update flows e.1 fun acc => e.2.addTo e.1 acc) flows := by
  rw [rolesOf, List.foldl_append, List.foldl_map, List.foldl_map]
  rfl

/-- Roles of other flows leave an accumulator alone. -/
theorem get?_foldl_update (es : List (FlowId × Role)) (flows : Table FlowId FlowSums)
    (flow : FlowId) :
    (es.foldl (fun flows e => update flows e.1 fun acc => e.2.addTo e.1 acc) flows).get? flow =
      ((es.filter fun e => e.1 = flow).map (·.2)).foldl
        (fun acc role => some (role.addTo flow (acc.getD .empty))) (flows.get? flow) := by
  induction es generalizing flows with
  | nil => rfl
  | cons e rest ih =>
    rw [List.foldl_cons, ih, List.filter_cons, update]
    by_cases he : e.1 = flow
    · subst he
      rw [if_pos (decide_eq_true rfl), List.map_cons, List.foldl_cons, Table.get?_insert_self]
    · rw [if_neg (by simpa using he), Table.get?_insert_of_ne _ fun h => he h.symm]

theorem foldl_some {roles : List Role} {flow : FlowId} (acc : FlowSums) :
    roles.foldl (fun acc role => some (role.addTo flow (acc.getD .empty))) (some acc) =
      some (roles.foldl (fun acc role => role.addTo flow acc) acc) := by
  induction roles generalizing acc with
  | nil => rfl
  | cons role rest ih => exact ih _

theorem get?_foldl_addCore (rs : List Readout) (flow : FlowId) :
    (rs.foldl addCore .empty).get? flow =
      if roles flow rs = [] then none
      else some (gather flow (roles flow rs)) := by
  have hfold : rs.foldl addCore .empty = (rs.flatMap rolesOf).foldl
      (fun flows e => update flows e.1 fun acc => e.2.addTo e.1 acc) .empty := by
    rw [List.foldl_flatMap, funext₂ addCore_eq]
  rw [hfold, get?_foldl_update, ← roles]
  cases roles flow rs with
  | nil => rfl
  | cons role rest => exact foldl_some _

/-! ## What an accumulator gathers -/

section
variable (flow : FlowId)

/-- The sinks that contribute, each with what it received. -/
def contributing (sinks : List (Readout × SinkRole)) : List ((Readout × SinkRole) × UInt64) :=
  sinks.filterMap fun s => (s.1.metric? flow .received).map fun n => (s, n)

/-- The latency sums of some sinks, in the timestep of the first. -/
def latencySums? : List ((Readout × SinkRole) × UInt64) → Option LatencySums
  | [] => none
  | first :: rest =>
    let sinks := first :: rest
    some ⟨saturatingSum (sinks.map (·.2)), sinkSum flow sinks .latencySum,
      sinkSum flow sinks .latencySumSq, first.1.1.program.timestep⟩

/-- What has been gathered from some sources and some sinks, apart from the ticks. -/
structure Gathered (sources : List Readout) (sinks : List (Readout × SinkRole)) (acc : FlowSums) :
    Prop where
  sent : acc.sent = (sources.filterMap fun r => r.sourceCounts? flow).getLast?
  received : acc.received =
    Table.ofList ((contributing flow sinks).map fun s => (s.1.1.core, s.2))
  missing : acc.missing = KeySet.ofList
    (((sources.filter fun r => (r.sourceCounts? flow).isNone).map (·.core))
      ++ ((sinks.filter fun s => (s.1.metric? flow .received).isNone).map (·.1.core)))
  latency : acc.latency =
    latencySums? flow ((contributing flow sinks).filter fun s => s.1.2.latency)
  sentSeries : acc.sentSeries = sources.getLast?.bind fun r => r.series? flow .sent
  receivedSeries : acc.receivedSeries =
    (contributing flow sinks).filterMap fun s => s.1.1.series? flow .received

theorem gathered_empty : Gathered flow [] [] .empty := ⟨rfl, rfl, rfl, rfl, rfl, rfl⟩

variable {flow} {sources : List Readout} {sinks : List (Readout × SinkRole)} {acc : FlowSums}

theorem saturatingSum_concat (ns : List UInt64) (n : UInt64) :
    saturatingSum (ns ++ [n]) = saturatingAdd (saturatingSum ns) n := by
  rw [saturatingSum, List.foldl_append]
  rfl

theorem latencySums?_concat (found : List ((Readout × SinkRole) × UInt64)) (r : Readout)
    (s : SinkRole) (n : UInt64) :
    latencySums? flow (found ++ [((r, s), n)]) =
      let sums := (latencySums? flow found).getD ⟨0, 0, 0, r.program.timestep⟩
      some { sums with
        samples := saturatingAdd sums.samples n
        sum := saturatingAdd sums.sum ((r.metric? flow .latencySum).getD 0)
        sumSq := saturatingAdd sums.sumSq ((r.metric? flow .latencySumSq).getD 0) } := by
  cases found with
  | nil => rfl
  | cons first rest =>
    show some (LatencySums.mk (saturatingSum ((first :: rest ++ [((r, s), n)]).map (·.2)))
      (sinkSum flow (first :: rest ++ [((r, s), n)]) .latencySum)
      (sinkSum flow (first :: rest ++ [((r, s), n)]) .latencySumSq) _) = _
    simp only [latencySums?, sinkSum, List.map_append, List.map_cons, List.map_nil,
      saturatingSum_concat, Option.getD_some]

theorem ofList_concat (entries : List (CoreId × UInt64)) (core : CoreId) (n : UInt64) :
    Table.ofList (entries ++ [(core, n)]) = (Table.ofList entries).insert core n := by
  rw [Table.ofList, List.foldl_append]
  rfl

/-- Where in a list a core stands does not matter for the set of them. -/
theorem ofList_add {cores more : List CoreId} {core : CoreId}
    (h : ∀ k, k ∈ more ↔ k = core ∨ k ∈ cores) :
    (KeySet.ofList cores).add core = KeySet.ofList more := by
  refine KeySet.ext_keys fun k => ?_
  rw [KeySet.add, Table.mem_keys_insert, KeySet.mem_keys_ofList, KeySet.mem_keys_ofList, h]

theorem Gathered.addTicks (h : Gathered flow sources sinks acc) (r : Readout) :
    Gathered flow sources sinks (acc.addTicks r) := by
  unfold FlowSums.addTicks
  split
  · exact ⟨h.sent, h.received, h.missing, h.latency, h.sentSeries, h.receivedSeries⟩
  · exact h

theorem Gathered.addSource (h : Gathered flow sources sinks acc) (r : Readout) :
    Gathered flow (sources ++ [r]) sinks (acc.addSource r flow) := by
  refine Gathered.addTicks ?_ r
  have hseries : r.series? flow .sent =
      (sources ++ [r]).getLast?.bind fun r => r.series? flow .sent := by
    rw [List.getLast?_concat, Option.bind_some]
  cases hcounts : r.sourceCounts? flow with
  | some counts =>
    refine ⟨?_, h.received, ?_, h.latency, hseries, h.receivedSeries⟩
    · simp [List.filterMap_append, hcounts]
    · simp [List.filter_append, hcounts, h.missing]
  | none =>
    refine ⟨?_, h.received, ?_, h.latency, hseries, h.receivedSeries⟩
    · simp [List.filterMap_append, hcounts, h.sent, FlowSums.addMissing]
    · show acc.missing.add r.core = _
      rw [h.missing]
      refine ofList_add fun k => ?_
      simp only [List.filter_append, List.filter_cons, hcounts, Option.isNone_none, if_true,
        List.filter_nil, List.map_append, List.map_cons, List.map_nil, List.mem_append,
        List.mem_singleton]
      rw [or_assoc, or_left_comm]

theorem Gathered.addSink (h : Gathered flow sources sinks acc) (r : Readout) (s : SinkRole) :
    Gathered flow sources (sinks ++ [(r, s)]) (acc.addSink r flow s) := by
  have h := h.addTicks r
  unfold FlowSums.addSink
  generalize acc.addTicks r = acc at h
  cases hreceived : r.metric? flow .received with
  | none =>
    have hfound : contributing flow (sinks ++ [(r, s)]) = contributing flow sinks := by
      simp [contributing, List.filterMap_append, hreceived]
    refine ⟨h.sent, hfound ▸ h.received, ?_, hfound ▸ h.latency, h.sentSeries,
      hfound ▸ h.receivedSeries⟩
    show acc.missing.add r.core = _
    rw [h.missing]
    refine ofList_add fun k => ?_
    simp only [List.filter_append, List.filter_cons, hreceived, Option.isNone_none, if_true,
      List.filter_nil, List.map_append, List.map_cons, List.map_nil, List.mem_append,
      List.mem_singleton]
    rw [← or_assoc, or_comm]
  | some n =>
    have hfound : contributing flow (sinks ++ [(r, s)]) =
        contributing flow sinks ++ [((r, s), n)] := by
      simp [contributing, List.filterMap_append, hreceived]
    have hmissing : acc.missing = KeySet.ofList
        (((sources.filter fun r => (r.sourceCounts? flow).isNone).map (·.core))
          ++ (((sinks ++ [(r, s)]).filter fun s =>
            (s.1.metric? flow .received).isNone).map (·.1.core))) := by
      simp [List.filter_append, hreceived, h.missing]
    have hreceived : acc.received.insert r.core n =
        Table.ofList ((contributing flow (sinks ++ [(r, s)])).map fun s => (s.1.1.core, s.2)) := by
      rw [hfound, List.map_append, h.received]
      exact (ofList_concat _ _ _).symm
    have hseries : acc.receivedSeries ++ (r.series? flow .received).toList =
        (contributing flow (sinks ++ [(r, s)])).filterMap
          fun s => s.1.1.series? flow .received := by
      rw [hfound, List.filterMap_append, h.receivedSeries]
      cases hs : r.series? flow .received <;> simp [hs]
    dsimp only
    split
    · next hlatency =>
      refine ⟨h.sent, hreceived, hmissing, ?_, h.sentSeries, hseries⟩
      have hkeep : ([((r, s), n)].filter fun s => s.1.2.latency) = [((r, s), n)] := by
        simp [hlatency]
      rw [hfound, List.filter_append, hkeep, latencySums?_concat]
      simp only [FlowSums.addLatency, h.latency]
    · next hlatency =>
      refine ⟨h.sent, hreceived, hmissing, ?_, h.sentSeries, hseries⟩
      have hdrop : ([((r, s), n)].filter fun s => s.1.2.latency) = [] := by
        simp [hlatency]
      rw [hfound, List.filter_append, hdrop, List.append_nil]
      exact h.latency

/-- In the order of the roles, sources and sinks are gathered each for themselves. -/
theorem gathered_foldl (h : Gathered flow sources sinks acc) (roles : List Role) :
    Gathered flow (sources ++ roles.filterMap Role.source?) (sinks ++ roles.filterMap Role.sink?)
      (roles.foldl (fun acc role => role.addTo flow acc) acc) := by
  induction roles generalizing sources sinks acc with
  | nil => simpa using h
  | cons role rest ih =>
    cases role with
    | source r =>
      have hrest := ih (h.addSource r)
      rwa [List.append_assoc] at hrest
    | sink r s =>
      have hrest := ih (h.addSink r s)
      rwa [List.append_assoc] at hrest

end

/-! ## The roles of a flow -/

section
variable {flow : FlowId} {rs : List Readout}

theorem roles_append (rs qs : List Readout) :
    roles flow (rs ++ qs) = roles flow rs ++ roles flow qs := by
  simp only [roles, List.flatMap_append, List.filter_append, List.map_append]

theorem roles_singleton (r : Readout) : roles flow [r] =
    ((r.program.sources.filter (·.flow = flow)).map fun _ => Role.source r)
      ++ (r.program.sinks.filter (·.flow = flow)).map (Role.sink r) := by
  simp [roles, rolesOf, List.filter_map, Function.comp_def]

theorem filterMap_singleton (r : Readout) :
    (roles flow [r]).filterMap Role.source? =
        ((r.program.sources.filter (·.flow = flow)).map fun _ => r) ∧
      (roles flow [r]).filterMap Role.sink? =
        ((r.program.sinks.filter (·.flow = flow)).map fun s => (r, s)) := by
  rw [roles_singleton]
  simp only [List.filterMap_append, List.filterMap_map, Function.comp_def, Role.source?, Role.sink?,
    List.filterMap_eq_map', List.filterMap_none, List.append_nil, List.nil_append, and_self]

theorem filterMap_source? : (roles flow rs).filterMap Role.source? = sourceReadouts flow rs := by
  induction rs with
  | nil => rfl
  | cons r rest ih =>
    rw [← List.singleton_append, roles_append, List.filterMap_append, ih,
      (filterMap_singleton r).1]
    rfl

theorem filterMap_sink? : (roles flow rs).filterMap Role.sink? = sinkReadouts flow rs := by
  induction rs with
  | nil => rfl
  | cons r rest ih =>
    rw [← List.singleton_append, roles_append, List.filterMap_append, ih,
      (filterMap_singleton r).2]
    rfl

theorem ticks_addTicks (acc : FlowSums) (r : Readout) : (acc.addTicks r).ticks =
    if 1 < r.program.samples then r.program.sampleTicks else acc.ticks := by
  unfold FlowSums.addTicks
  split <;> rfl

theorem ticks_addTo (role : Role) (acc : FlowSums) : (role.addTo flow acc).ticks =
    if 1 < role.readout.program.samples then role.readout.program.sampleTicks else acc.ticks := by
  cases role with
  | source r =>
    refine (ticks_addTicks _ r).trans ?_
    cases r.sourceCounts? flow <;> rfl
  | sink r s =>
    refine Eq.trans ?_ (ticks_addTicks acc r)
    show (acc.addSink r flow s).ticks = _
    unfold FlowSums.addSink
    cases r.metric? flow .received with
    | none => rfl
    | some n =>
      dsimp only
      split <;> rfl

/-- The ticks of the last of some readouts. -/
def lastTicks (rs : List Readout) : List Nat :=
  match rs.getLast? with
  | some r => r.program.sampleTicks
  | none => []

theorem lastTicks_append_replicate (rs : List Readout) {n : Nat} (hn : n ≠ 0) (r : Readout) :
    lastTicks (rs ++ List.replicate n r) = r.program.sampleTicks := by
  obtain ⟨n, rfl⟩ := Nat.exists_eq_succ_of_ne_zero hn
  rw [List.replicate_succ', ← List.append_assoc, lastTicks, List.getLast?_concat]

theorem ticks_gather (roles : List Role) : (gather flow roles).ticks =
    lastTicks ((roles.map Role.readout).filter fun r => 1 < r.program.samples) := by
  induction roles using List.reverseRecOn with
  | nil => rfl
  | append_singleton roles role ih =>
    have hlast : gather flow (roles ++ [role]) = role.addTo flow (gather flow roles) := by
      rw [gather, List.foldl_append]
      rfl
    rw [hlast, ticks_addTo, ih, List.map_append, List.map_singleton, List.filter_append]
    by_cases hmany : 1 < role.readout.program.samples
    · rw [if_pos hmany, List.filter_cons_of_pos (by simpa using hmany), List.filter_nil]
      exact (lastTicks_append_replicate _ Nat.one_ne_zero role.readout).symm
    · rw [if_neg hmany, List.filter_cons_of_neg (by simpa using hmany), List.filter_nil,
        List.append_nil]

/-- A core that has several roles in a flow gives its ticks as often. -/
theorem lastTicks_roles : lastTicks (((roles flow rs).map Role.readout).filter fun r =>
    1 < r.program.samples) = recordTicks flow rs := by
  induction rs using List.reverseRecOn with
  | nil => rfl
  | append_singleton rs r ih =>
    have hown : (roles flow [r]).map Role.readout =
        List.replicate (roles flow [r]).length r := by
      rw [List.eq_replicate_iff, List.length_map]
      refine ⟨rfl, fun x hx => ?_⟩
      obtain ⟨role, hrole, rfl⟩ := List.mem_map.1 hx
      rw [roles_singleton] at hrole
      rcases List.mem_append.1 hrole with hrole | hrole <;>
        obtain ⟨_, -, rfl⟩ := List.mem_map.1 hrole <;> rfl
    have hempty : (roles flow [r]).length = 0 ↔ r.hasRole flow = false := by
      rw [roles_singleton]
      simp [Readout.hasRole]
    have hrecord : recordTicks flow (rs ++ [r]) = lastTicks
        ((rs ++ [r]).filter fun r => r.hasRole flow && decide (1 < r.program.samples)) := rfl
    rw [roles_append, List.map_append, List.filter_append, hown, List.filter_replicate, hrecord,
      List.filter_append, List.filter_cons, List.filter_nil]
    by_cases hmany : 1 < r.program.samples
    · by_cases hrole : r.hasRole flow = true
      · rw [if_pos (decide_eq_true hmany), if_pos (by rw [hrole, decide_eq_true hmany]; rfl),
          lastTicks_append_replicate _ (by rw [ne_eq, hempty, hrole]; decide)]
        exact (lastTicks_append_replicate _ Nat.one_ne_zero r).symm
      · have hrole := Bool.eq_false_iff.2 hrole
        rw [hempty.2 hrole, hrole, List.replicate_zero, ite_self, List.append_nil, ih]
        simp only [Bool.false_and, Bool.false_eq_true, if_false, List.append_nil]
        rfl
    · rw [if_neg (by simpa using hmany), if_neg (by simp [hmany]), List.append_nil,
        List.append_nil, ih]
      rfl

end

/-! ## Main result -/

theorem finish_eq {flow : FlowId} {rs : List Readout} {acc : FlowSums}
    (h : Gathered flow (sourceReadouts flow rs) (sinkReadouts flow rs) acc)
    (hticks : acc.ticks = recordTicks flow rs) : acc.finish flow = mergeFlow flow rs := by
  have hsent : acc.sent = sourceTotals flow rs := h.sent
  have hreceived : acc.received = receivedByCore flow rs := h.received
  have hmissing : acc.missing = missingCores flow rs := h.missing
  unfold FlowSums.finish mergeFlow
  simp only [hsent, hreceived, hmissing, hticks, FlowResult.mk.injEq, true_and]
  refine ⟨?_, ?_, ?_, ?_, ?_⟩
  · cases sourceTotals flow rs <;> rfl
  · cases sourceTotals flow rs <;> rfl
  · cases sourceTotals flow rs <;> rfl
  · have hsinks : (contributing flow (sinkReadouts flow rs)).filter (fun s => s.1.2.latency) =
        (decodedSinks flow rs).filter fun s => s.1.2.latency := rfl
    rw [h.latency, hsinks]
    unfold latencySummary?
    cases (decodedSinks flow rs).filter fun s => s.1.2.latency <;> rfl
  · unfold timeline
    refine List.map_congr_left fun e _ => ?_
    simp only [FlowSample.mk.injEq, true_and]
    constructor
    · rw [h.sentSeries, sentSeries, List.getElem?_toArray]
      cases (sourceReadouts flow rs).getLast?.bind fun r => r.series? flow .sent <;> rfl
    · rw [h.receivedSeries, List.filterMap_map]
      simp only [Function.comp_def, List.getElem?_toArray]
      rfl

theorem gathered_gather (flow : FlowId) (rs : List Readout) :
    Gathered flow (sourceReadouts flow rs) (sinkReadouts flow rs)
      (gather flow (roles flow rs)) := by
  have h := gathered_foldl (gathered_empty flow) (roles flow rs)
  rwa [filterMap_source?, filterMap_sink?, List.nil_append, List.nil_append] at h

theorem roles_ne_nil {flow : FlowId} {rs : List Readout} :
    roles flow rs ≠ [] ↔ flow ∈ rs.flatMap fun r => r.program.flows := by
  have hflows : ∀ r, (rolesOf r).map (·.1) = r.program.flows := by
    intro r
    simp [rolesOf, Program.flows, Function.comp_def]
  simp only [← hflows, ← List.map_flatMap, roles, ne_eq, List.map_eq_nil_iff,
    List.filter_eq_nil_iff, decide_eq_true_iff, List.mem_map, not_forall, not_not, exists_prop]

/-- A pass over the cores gives the report. -/
theorem merge_eq (rs : List Readout) : merge rs = Report.ofReadouts rs := by
  have hflows : (merge rs).flows = (Report.ofReadouts rs).flows := by
    refine Table.ext_get? fun flow => ?_
    show (Table.map _ _).get? flow = (Table.map (fun f _ => mergeFlow f rs) _).get? flow
    rw [Table.get?_map, Table.get?_map, get?_foldl_addCore]
    by_cases hroles : roles flow rs = []
    · have hnone : (KeySet.ofList (rs.flatMap fun r => r.program.flows)).get? flow = none := by
        rw [← Option.not_isSome_iff_eq_none, ← Table.contains, Table.contains_eq_true,
          KeySet.mem_keys_ofList, ← roles_ne_nil, not_not]
        exact hroles
      rw [if_pos hroles, hnone]
      rfl
    · obtain ⟨⟨⟩, hsome⟩ := Table.mem_keys.1 (KeySet.mem_keys_ofList.2 (roles_ne_nil.1 hroles))
      rw [if_neg hroles, hsome]
      refine congrArg some (finish_eq (gathered_gather flow rs) ?_)
      rw [ticks_gather, lastTicks_roles]
  have hcores : (merge rs).cores = (Report.ofReadouts rs).cores :=
    (Table.ofList_map (fun r : Readout => r.core) (fun r => r.coreReport) rs).symm
  rw [← show (⟨(merge rs).flows, (merge rs).cores⟩ : Report) = merge rs from rfl, hflows, hcores]

/-- Cores may have been read back in any order. -/
theorem aggregate_eq (programs : Table CoreId Program) (dumps : Table CoreId CounterDump)
    (unreachable : KeySet CoreId) {arrived : List (CoreId × (CoreStatus × Option Contribution))}
    (h : arrived.Perm (programs.entries.map fun e =>
      let r := Readout.ofDump? unreachable e.1 e.2 (dumps.get? e.1)
      (e.1, r.status, r.contribution))) :
    aggregate programs (.ofList arrived) = some (Report.ofDumps programs dumps unreachable) := by
  have hkeys : (arrived.map (·.1)).Nodup := by
    rw [(h.map (·.1)).nodup_iff, List.map_map]
    exact programs.keys_nodup
  have hlookup : ∀ e ∈ programs.entries, ((Table.ofList arrived).get? e.1).map
      (fun d => (⟨e.1, e.2, d.1, d.2⟩ : Readout)) =
        some (Readout.ofDump? unreachable e.1 e.2 (dumps.get? e.1)) := by
    intro e he
    have harrived := (Table.get?_ofList hkeys).2 (h.mem_iff.2 (List.mem_map_of_mem he))
    rw [harrived]
    cases dumps.get? e.1 <;> rfl
  have hread := Checked.mapM_eq_some.2
    (List.forall₂_map_right_iff.2 (List.forall₂_same.2 hlookup))
  rw [aggregate, hread]
  show some (merge _) = _
  rw [merge_eq]
  rfl

end Accumulators

end TrafficLab
