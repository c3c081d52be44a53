import TrafficLab.Chip.Setup
import TrafficLab.Program
import TrafficLab.Proofs.Checked
import TrafficLab.Proofs.Command.Stream
import TrafficLab.Proofs.Schedule.Quantization

/-!
# Playing the program of a plan

A core that plays the program of a plan is set up as the plan means it to be.  The sections of the
program are played one after another: the opening makes room for the sources and sinks, their own
sections fill them in from the first to the last, and then the counters are declared in the order
of their slots.

    p.Playable → Setup.play p.core p.assemble.bytes = .ok p.setup           (play_assemble)
-/

namespace TrafficLab

open Checked

/-- A count that fits in a word is carried as it is. -/
theorem Quantity.toNat_toUInt32 {m : Measure} {q : Quantity m} (h : q.toNat < UInt32.size) :
    q.count.toUInt32.toNat = q.toNat := by
  rw [UInt64.toNat_toUInt32]
  exact Nat.mod_eq_of_lt h

/-! ## What a plan means -/

def Schedule.emission : Schedule → Emission
  | interval ticks => .every ticks
  | bernoulli threshold _ => .bernoulli threshold

def Schedule.burst : Schedule → Option BurstWindow
  | interval _ => none
  | bernoulli _ burst => burst

def SourceRole.setup (s : SourceRole) : SourceSetup :=
  ⟨s.key.val, s.payload, s.schedule.emission, s.schedule.burst, s.start.count.toUInt32⟩

def SinkRole.setup (s : SinkRole) : SinkSetup := ⟨s.key.val, s.source⟩

namespace CorePlan

variable (p : CorePlan)

/-- The setup that a plan means a core to have. -/
def setup : Setup :=
  { core := p.core
    tag := p.assemble.tag
    timestep := p.timestep.count.toUInt32
    seed := p.seed
    runTicks := p.runTicks.toNat
    record := p.record
    recordInterval := p.recordInterval.count.toUInt32
    consume := p.consume
    sources := (p.sources.map (·.setup)).toArray
    sinks := (p.sinks.map (·.setup)).toArray
    counters := (p.slots.map fun s => (s.metric, s.role)).toArray }

/-- How many roles there are that a metric can belong to. -/
def roles (m : Metric) : Nat :=
  if m.ofSource then p.sources.length else if m.ofSink then p.sinks.length else 1

/-- A plan that commands can carry: no count is too large for its place, no key has low bits, the
schedules repeat, and every slot belongs to a role of the plan. -/
structure Playable : Prop where
  timestep_pos : 0 < p.timestep.toNat
  timestep_lt : p.timestep.toNat < UInt32.size
  runTicks_lt : p.runTicks.toNat < UInt32.size
  recordInterval_lt : p.recordInterval.toNat < UInt32.size
  sources_lt : p.sources.length < 256
  sinks_lt : p.sinks.length < 256
  slots_lt : p.slots.length < 65536
  start_lt : ∀ s ∈ p.sources, s.start.toNat < UInt32.size
  repeats : ∀ s ∈ p.sources, s.schedule.Repeats
  source_key : ∀ s ∈ p.sources, s.key.val &&& RoutingKey.carried = s.key.val
  sink_key : ∀ s ∈ p.sinks, s.key.val &&& RoutingKey.carried = s.key.val
  role_lt : ∀ s ∈ p.slots, s.role.toNat < p.roles s.metric

theorem roles_setup (m : Metric) : p.setup.roles m = p.roles m := by
  unfold Setup.roles CorePlan.roles setup
  simp only [List.size_toArray, List.length_map]

theorem size_counters_setup : p.setup.counters.size = p.slots.length := by
  unfold setup
  rw [List.size_toArray, List.length_map]

/-- Every counter of the setup is one of its own roles. -/
theorem Playable.countersFit {p : CorePlan} (h : p.Playable) : p.setup.countersFit = true := by
  unfold Setup.countersFit
  rw [Array.all_eq_true_iff_forall_mem]
  intro x hx
  obtain ⟨slot, hslot, rfl⟩ := List.mem_map.1 (List.mem_toArray.1 hx)
  simp only [decide_eq_true_eq, roles_setup]
  exact h.role_lt slot hslot

end CorePlan

/-! ## Settings -/

theorem SourceRole.settings_ne_zero {s : SourceRole} (h : s.schedule.Repeats) :
    ∀ x ∈ s.settings, x ≠ .interval 0 := by
  intro x hx e
  subst e
  unfold SourceRole.settings at hx
  simp only [List.mem_append] at hx
  rcases hx with ((hx | hx) | hx) | hx
  · simp at hx
  · split at hx <;> simp at hx
  · cases hs : s.schedule with
    | interval ticks =>
      rw [hs] at hx h
      cases List.mem_singleton.1 hx
      exact h rfl
    | bernoulli threshold burst =>
      rw [hs] at hx
      cases burst <;> simp [Schedule.settings] at hx
  · split at hx <;> simp at hx

/-- The settings of a source, as they arrive, make it what it is meant to be. -/
theorem SourceRole.foldl_settings {s : SourceRole}
    (hkey : s.key.val &&& RoutingKey.carried = s.key.val) :
    (s.settings.map (·.carried)).foldl SourceSetting.apply .unset = s.setup := by
  obtain ⟨flow, key, payload, schedule, start⟩ := s
  have hkey : (SourceSetting.key key.val).carried = .key key.val :=
    congrArg SourceSetting.key hkey
  have hstart : ∀ x : SourceSetup, x.start = 0 →
      (List.map (·.carried)
        (if start.count = 0 then [] else [SourceSetting.start start.count.toUInt32])).foldl
          SourceSetting.apply x = { x with start := start.count.toUInt32 } := by
    intro x hx
    split
    · next h0 =>
      rw [h0]
      cases x
      cases hx
      rfl
    · rfl
  unfold SourceRole.settings
  simp only [List.map_append, List.foldl_append, List.map_cons, List.map_nil, List.foldl_cons,
    List.foldl_nil, hkey]
  cases schedule with
  | interval ticks => cases payload <;> exact hstart _ rfl
  | bernoulli threshold burst =>
    cases burst with
    | none => cases payload <;> exact hstart _ rfl
    | some w => cases payload <;> exact hstart _ rfl

theorem SinkRole.foldl_settings {s : SinkRole}
    (hkey : s.key.val &&& RoutingKey.carried = s.key.val) :
    (s.settings.map (·.carried)).foldl SinkSetting.apply .unset = s.setup := by
  have hkey : (SinkSetting.key s.key.val).carried = .key s.key.val :=
    congrArg SinkSetting.key hkey
  unfold SinkRole.settings
  simp only [List.map_cons, List.map_nil, List.foldl_cons, List.foldl_nil, hkey]
  rfl

/-! ## Sections -/

/-- An array in which the entry after `done` comes next. -/
theorem modify_next {α : Type} (done rest : List α) (x : α) (f : α → α) :
    (done ++ x :: rest).toArray.modify done.length f = (done ++ f x :: rest).toArray := by
  rw [List.modify_toArray]
  congr 1
  induction done with
  | nil => rfl
  | cons d done ih => simpa using ih

theorem length_flatMap_le {α β : Type} {l : List α} {f : α → List β} {k : Nat}
    (h : ∀ a ∈ l, (f a).length ≤ k) : (l.flatMap f).length ≤ k * l.length := by
  induction l with
  | nil => exact Nat.zero_le _
  | cons a rest ih =>
    have ha := h a (by simp)
    have hrest := ih fun b hb => h b (by simp [hb])
    rw [List.flatMap_cons, List.length_append, List.length_cons, Nat.mul_add]
    omega

namespace Setup

theorem foldlM_append_ok {s t u : Setup} {cs ds : List Command} (hc : cs.foldlM step s = .ok t)
    (hd : ds.foldlM step t = .ok u) : (cs ++ ds).foldlM step s = .ok u := by
  rw [List.foldlM_append]
  exact bind_eq_ok.2 ⟨t, hc, hd⟩

/-- Commands that each change a part of a setup change it as all of them together do. -/
theorem foldlM_map_ok {σ τ : Type} (write : σ → Setup) (command : τ → Command) (f : σ → τ → σ)
    {l : List τ} (hstep : ∀ x, ∀ a ∈ l, step (write x) (command a) = .ok (write (f x a))) (x : σ) :
    (l.map command).foldlM step (write x) = .ok (write (l.foldl f x)) := by
  induction l generalizing x with
  | nil => rfl
  | cons a l ih =>
    rw [List.map_cons, List.foldlM_cons, List.foldl_cons]
    exact bind_eq_ok.2 ⟨_, hstep x a (by simp), ih (fun y b hb => hstep y b (by simp [hb])) (f x a)⟩

/-- A section sets up one role after another, from the first that is not done to the last. -/
theorem foldlM_section {ρ σ : Type} (write : List σ → Setup) (commands : ρ → Nat → List Command)
    (mean : ρ → σ) (unset : σ) (done : List σ) {roles : List ρ}
    (hlen : done.length + roles.length < 65536)
    (hrole : ∀ r ∈ roles, ∀ done rest : List σ, done.length < 65536 →
      (commands r done.length).foldlM step (write (done ++ unset :: rest)) =
        .ok (write (done ++ mean r :: rest))) :
    ((roles.zipIdx done.length).flatMap fun (r, i) => commands r i).foldlM step
        (write (done ++ List.replicate roles.length unset))
      = .ok (write (done ++ roles.map mean)) := by
  induction roles generalizing done with
  | nil => rfl
  | cons r roles ih =>
    rw [List.length_cons] at hlen
    have hfirst := hrole r (by simp) done (List.replicate roles.length unset) (by omega)
    have hrest := ih (done ++ [mean r]) (by simpa [Nat.add_assoc, Nat.add_comm 1] using hlen)
      fun q hq => hrole q (by simp [hq])
    simp only [List.length_append, List.length_singleton, List.append_assoc,
      List.singleton_append] at hrest
    exact foldlM_append_ok hfirst hrest

/-- All settings of one source. -/
theorem foldlM_source (s : Setup) {done : List SourceSetup} (rest : List SourceSetup)
    (x : SourceSetup) {i : UInt16} (hi : i.toNat = done.length) {settings : List SourceSetting}
    (hz : ∀ a ∈ settings, a ≠ .interval 0) :
    (settings.map (Command.source i)).foldlM step
        { s with sources := (done ++ x :: rest).toArray }
      = .ok { s with
          sources := (done ++ settings.foldl SourceSetting.apply x :: rest).toArray } := by
  refine foldlM_map_ok (fun x => { s with sources := (done ++ x :: rest).toArray }) _ _
    (fun x a ha => ?_) x
  have hlt : i.toNat < (done ++ x :: rest).toArray.size := by simp [hi]
  show setSource { s with sources := (done ++ x :: rest).toArray } i a = _
  unfold setSource
  rw [if_neg (hz a ha), if_pos hlt, hi]
  simp only [modify_next]

/-- All settings of one sink. -/
theorem foldlM_sink (s : Setup) {done : List SinkSetup} (rest : List SinkSetup) (x : SinkSetup)
    {j : UInt16} (hj : j.toNat = done.length) (settings : List SinkSetting) :
    (settings.map (Command.sink j)).foldlM step { s with sinks := (done ++ x :: rest).toArray }
      = .ok { s with sinks := (done ++ settings.foldl SinkSetting.apply x :: rest).toArray } := by
  refine foldlM_map_ok (fun x => { s with sinks := (done ++ x :: rest).toArray }) _ _
    (fun x a _ => ?_) x
  have hlt : j.toNat < (done ++ x :: rest).toArray.size := by simp [hj]
  show setSink { s with sinks := (done ++ x :: rest).toArray } j a = _
  unfold setSink
  rw [if_pos hlt, hj]
  simp only [modify_next]

/-- The section of the sources. -/
theorem foldlM_sources (s : Setup) {roles : List SourceRole} (hlen : roles.length < 65536)
    (hrepeats : ∀ r ∈ roles, r.schedule.Repeats)
    (hkey : ∀ r ∈ roles, r.key.val &&& RoutingKey.carried = r.key.val) :
    (roles.zipIdx.flatMap fun (r, i) =>
        (r.settings.map (·.carried)).map (Command.source (UInt16.ofNat i))).foldlM step
        { s with sources := (List.replicate roles.length SourceSetup.unset).toArray }
      = .ok { s with sources := (roles.map (·.setup)).toArray } := by
  refine foldlM_section (fun l => { s with sources := l.toArray })
    (fun r i => (r.settings.map (·.carried)).map (Command.source (UInt16.ofNat i)))
    SourceRole.setup .unset [] (by simpa using hlen) fun r hr done rest hdone => ?_
  have hz : ∀ a ∈ r.settings.map (·.carried), a ≠ .interval 0 := by
    intro a ha e
    obtain ⟨b, hb, hab⟩ := List.mem_map.1 ha
    rw [e] at hab
    refine SourceRole.settings_ne_zero (hrepeats r hr) b hb ?_
    cases b <;> simp_all [SourceSetting.carried]
  rw [← SourceRole.foldl_settings (hkey r hr)]
  exact foldlM_source s rest .unset (UInt16.toNat_ofNat_of_lt' hdone) hz

/-- The section of the sinks. -/
theorem foldlM_sinks (s : Setup) {roles : List SinkRole} (hlen : roles.length < 65536)
    (hkey : ∀ r ∈ roles, r.key.val &&& RoutingKey.carried = r.key.val) :
    (roles.zipIdx.flatMap fun (r, j) =>
        (r.settings.map (·.carried)).map (Command.sink (UInt16.ofNat j))).foldlM step
        { s with sinks := (List.replicate roles.length SinkSetup.unset).toArray }
      = .ok { s with sinks := (roles.map (·.setup)).toArray } := by
  refine foldlM_section (fun l => { s with sinks := l.toArray })
    (fun r j => (r.settings.map (·.carried)).map (Command.sink (UInt16.ofNat j)))
    SinkRole.setup .unset [] (by simpa using hlen) fun r hr done rest hdone => ?_
  rw [← SinkRole.foldl_settings (hkey r hr)]
  exact foldlM_sink s rest .unset (UInt16.toNat_ofNat_of_lt' hdone) _

/-- The section of the counters. -/
theorem foldlM_counters {s : Setup} (done : List (Metric × UInt8)) {slots : List Slot}
    (hlen : done.length + slots.length < 65536)
    (hrole : ∀ x ∈ slots, x.role.toNat < s.roles x.metric) :
    ((slots.zipIdx done.length).map fun (x, k) =>
        Command.counter (UInt16.ofNat k) x.metric x.role).foldlM step
        { s with counters := done.toArray }
      = .ok { s with counters := (done ++ slots.map fun x => (x.metric, x.role)).toArray } := by
  induction slots generalizing done with
  | nil =>
    rw [List.map_nil, List.append_nil]
    rfl
  | cons x slots ih =>
    rw [List.length_cons] at hlen
    have hk : (UInt16.ofNat done.length).toNat = done.length :=
      UInt16.toNat_ofNat_of_lt' (show _ < 65536 by omega)
    have hstep : step { s with counters := done.toArray }
        (.counter (UInt16.ofNat done.length) x.metric x.role)
        = .ok { s with counters := (done ++ [(x.metric, x.role)]).toArray } := by
      have hsize : (UInt16.ofNat done.length).toNat = done.toArray.size := by simpa using hk
      have hfit : ¬(roles { s with counters := done.toArray } x.metric ≤ x.role.toNat) :=
        Nat.not_le.2 (hrole x (by simp))
      show addCounter { s with counters := done.toArray } _ x.metric x.role = _
      unfold addCounter
      simp only [hsize, ne_eq, not_true_eq_false, if_false, hfit, List.push_toArray]
    have hrest := ih (done ++ [(x.metric, x.role)])
      (by simpa [Nat.add_assoc, Nat.add_comm 1] using hlen) (fun y hy => hrole y (by simp [hy]))
    simp only [List.length_append, List.length_singleton, List.append_assoc,
      List.singleton_append] at hrest
    rw [List.zipIdx_cons, List.map_cons, List.foldlM_cons]
    exact bind_eq_ok.2 ⟨_, hstep, hrest⟩

end Setup

/-! ## Whole programs -/

theorem CounterSet.eq_empty {s : CounterSet} (h : s.isEmpty = true) : s = .empty := by
  obtain ⟨mask, within⟩ := s
  cases beq_iff_eq.1 h
  rfl

namespace CorePlan

open Setup

variable (p : CorePlan)

/-- The setup after the opening: room for the sources and sinks, with nothing set about them. -/
def opened : Setup :=
  { p.setup with
    runTicks := 0
    sources := (List.replicate p.sources.length .unset).toArray
    sinks := (List.replicate p.sinks.length .unset).toArray
    counters := #[] }

/-- The commands that a core plays, as they arrive. -/
def played : List Command :=
  p.opening
  ++ (p.sources.zipIdx.flatMap fun (r, i) =>
    (r.settings.map (·.carried)).map (Command.source (UInt16.ofNat i)))
  ++ (p.sinks.zipIdx.flatMap fun (r, j) =>
    (r.settings.map (·.carried)).map (Command.sink (UInt16.ofNat j)))
  ++ p.counterCommands
  ++ [.barrier, .run p.runTicks.count.toUInt32]

/-- Of the commands that arrive, only the last ends the program. -/
theorem map_carried_commands : p.commands.map (·.carried) = p.played ++ [.exit] := by
  have hopening : p.opening.map (·.carried) = p.opening := by
    unfold opening
    cases p.record.isEmpty <;> by_cases hr : p.recordInterval.count = 0 <;> cases p.consume <;>
      simp [hr, Command.carried]
  have hsources : p.sourceCommands.map (·.carried) = p.sources.zipIdx.flatMap fun (r, i) =>
      (r.settings.map (·.carried)).map (Command.source (UInt16.ofNat i)) := by
    unfold sourceCommands
    simp only [List.map_flatMap, List.map_map]
    rfl
  have hsinks : p.sinkCommands.map (·.carried) = p.sinks.zipIdx.flatMap fun (r, j) =>
      (r.settings.map (·.carried)).map (Command.sink (UInt16.ofNat j)) := by
    unfold sinkCommands
    simp only [List.map_flatMap, List.map_map]
    rfl
  have hcounters : p.counterCommands.map (·.carried) = p.counterCommands := by
    unfold counterCommands
    rw [List.map_map]
    rfl
  unfold commands played
  simp only [List.map_append, hopening, hsources, hsinks, hcounters, List.append_assoc]
  rfl

theorem ne_exit_of_mem_played {c : Command} (hc : c ∈ p.played) : c ≠ .exit := by
  rintro rfl
  unfold played at hc
  simp only [List.mem_append] at hc
  rcases hc with (((hc | hc) | hc) | hc) | hc
  · unfold opening at hc
    revert hc
    cases p.record.isEmpty <;> by_cases hr : p.recordInterval.count = 0 <;> cases p.consume <;>
      simp [hr]
  · obtain ⟨_, _, hc⟩ := List.mem_flatMap.1 hc
    obtain ⟨_, _, hc⟩ := List.mem_map.1 hc
    cases hc
  · obtain ⟨_, _, hc⟩ := List.mem_flatMap.1 hc
    obtain ⟨_, _, hc⟩ := List.mem_map.1 hc
    cases hc
  · obtain ⟨_, _, hc⟩ := List.mem_map.1 hc
    cases hc
  · simp at hc

/-! What an opening leaves out is what a core begins with. -/

theorem foldlM_record {s : Setup} (hs : s.record = .empty) :
    (if p.record.isEmpty then [] else [Command.record p.record]).foldlM step s
      = .ok { s with record := p.record } := by
  split
  · next hempty =>
    rw [CounterSet.eq_empty hempty, ← hs]
    rfl
  · rfl

theorem foldlM_recordInterval {s : Setup} (hs : s.recordInterval = 0) :
    (if p.recordInterval.count = 0 then []
      else [Command.recordInterval p.recordInterval.count.toUInt32]).foldlM step s
      = .ok { s with recordInterval := p.recordInterval.count.toUInt32 } := by
  split
  · next hzero =>
    rw [hzero]
    show Except.ok s = _
    rw [show (0 : UInt64).toUInt32 = s.recordInterval from hs.symm]
  · rfl

theorem foldlM_consume {s : Setup} (hs : s.consume = true) :
    (if p.consume then [] else [Command.consume false]).foldlM step s
      = .ok { s with consume := p.consume } := by
  split
  · next hyes =>
    rw [hyes, ← hs]
    rfl
  · next hno =>
    rw [Bool.eq_false_iff.2 hno]
    rfl

variable {p} (h : p.Playable)

include h

theorem foldlM_opening :
    p.opening.foldlM step (blank p.core p.assemble.tag) = .ok p.opened := by
  have hsources : (UInt8.ofNat p.sources.length).toNat = p.sources.length :=
    UInt8.toNat_ofNat_of_lt' h.sources_lt
  have hsinks : (UInt8.ofNat p.sinks.length).toNat = p.sinks.length :=
    UInt8.toNat_ofNat_of_lt' h.sinks_lt
  unfold opening
  refine foldlM_append_ok (foldlM_append_ok (foldlM_append_ok (t := ?_) ?_ (p.foldlM_record ?_))
    (p.foldlM_recordInterval ?_)) ?_
  · exact { blank p.core p.assemble.tag with
      timestep := p.timestep.count.toUInt32
      seed := p.seed
      sources := (List.replicate p.sources.length .unset).toArray
      sinks := (List.replicate p.sinks.length .unset).toArray }
  · simp only [List.foldlM_cons, List.foldlM_nil, step, hsources, hsinks, ← List.toArray_replicate]
    rfl
  · rfl
  · rfl
  · exact p.foldlM_consume rfl

/-- The commands of a plan set a core up as it means. -/
theorem foldlM_played :
    p.played.foldlM step (blank p.core p.assemble.tag) = .ok p.setup := by
  have hsources := foldlM_sources p.opened (Nat.lt_trans h.sources_lt (by decide)) h.repeats
    h.source_key
  have hsinks := foldlM_sinks { p.opened with sources := (p.sources.map (·.setup)).toArray }
    (Nat.lt_trans h.sinks_lt (by decide)) h.sink_key
  have hroles : ∀ x ∈ p.slots, x.role.toNat < Setup.roles { p.opened with
      sources := (p.sources.map (·.setup)).toArray
      sinks := (p.sinks.map (·.setup)).toArray } x.metric := by
    intro x hx
    have hrole := h.role_lt x hx
    simpa [Setup.roles, CorePlan.roles] using hrole
  have hcounters := foldlM_counters []
    (by have := h.slots_lt; simp only [List.length_nil]; omega) hroles
  have hrun : ∀ s : Setup, s.runTicks = 0 →
      [Command.barrier, .run p.runTicks.count.toUInt32].foldlM step s
        = .ok { s with runTicks := p.runTicks.toNat } := by
    intro s hs
    show Except.ok { s with runTicks := s.runTicks + p.runTicks.count.toUInt32.toNat } = _
    rw [hs, Nat.zero_add, Quantity.toNat_toUInt32 h.runTicks_lt]
  unfold played
  refine foldlM_append_ok (foldlM_append_ok (foldlM_append_ok (foldlM_append_ok
    (foldlM_opening h) hsources) hsinks) hcounters) (hrun _ rfl)

theorem not_hasEndlessBurst : p.setup.hasEndlessBurst = false := by
  unfold hasEndlessBurst setup
  simp only [List.any_toArray, List.any_map, List.any_eq_false]
  intro s hs
  have hrepeats := h.repeats s hs
  show ¬(s.schedule.burst.any fun w => w.period == 0) = true
  cases hsched : s.schedule with
  | interval ticks => simp [Schedule.burst]
  | bernoulli threshold burst =>
    rw [hsched] at hrepeats
    cases burst with
    | none => simp [Schedule.burst]
    | some w =>
      have hw : w.period ≠ 0 := hrepeats w rfl
      simp [Schedule.burst, hw]

omit h in
theorem length_commands_le : p.commands.length ≤
    9 + 7 * p.sources.length + 2 * p.sinks.length + p.slots.length := by
  have hopening : p.opening.length ≤ 6 := by
    unfold opening
    cases p.record.isEmpty <;> by_cases hr : p.recordInterval.count = 0 <;> cases p.consume <;>
      simp [hr]
  have hsettings : ∀ r ∈ p.sources.zipIdx,
      (r.1.settings.map (Command.source (UInt16.ofNat r.2))).length ≤ 7 := by
    intro r _
    have hschedule : r.1.schedule.settings.length ≤ 4 := by
      unfold Schedule.settings
      split <;> simp
    rw [List.length_map]
    unfold SourceRole.settings
    simp only [List.length_append, List.length_singleton]
    split <;> split <;> simp only [List.length_nil, List.length_singleton] <;> omega
  have hsources : p.sourceCommands.length ≤ 7 * p.sources.length := by
    have hle := length_flatMap_le hsettings
    rwa [List.length_zipIdx] at hle
  have hsinks : p.sinkCommands.length ≤ 2 * p.sinks.length := by
    have hle := length_flatMap_le (l := p.sinks.zipIdx) (k := 2)
      (f := fun r => r.1.settings.map (Command.sink (UInt16.ofNat r.2))) (fun r _ => Nat.le_refl 2)
    rwa [List.length_zipIdx] at hle
  have hcounters : p.counterCommands.length = p.slots.length := by
    unfold counterCommands
    rw [List.length_map, List.length_zipIdx]
  unfold commands
  simp only [List.length_append, List.length_cons, List.length_nil]
  omega

theorem size_commands_lt : Stream.size p.commands < UInt32.size := by
  have hlen := length_commands_le (p := p)
  have hwords := Stream.length_words_le p.commands
  have := h.sources_lt
  have := h.sinks_lt
  have := h.slots_lt
  unfold Stream.size
  show _ < 4294967296
  omega

/-- The commands of a plan are read back from its program. -/
theorem unpack_assemble : Stream.unpack p.assemble.bytes = .ok (p.played ++ [.exit]) := by
  rw [← map_carried_commands]
  exact Stream.unpack_pack (Nat.le_of_lt (size_commands_lt h))

/-- A core that plays the program of a plan is set up as the plan means. -/
theorem play_assemble : play p.core p.assemble.bytes = .ok p.setup := by
  have htake : (p.played ++ [Command.exit]).takeWhile (fun c => c != .exit) = p.played := by
    rw [List.takeWhile_append_of_pos fun c hc => bne_iff_ne.2 (p.ne_exit_of_mem_played hc)]
    simp
  have hrun : p.played.any isRun = true := by
    unfold played
    simp [isRun]
  have hstep : p.setup.timestep ≠ 0 := by
    intro e
    have e := congrArg UInt32.toNat e
    have hpos := h.timestep_pos
    rw [show p.setup.timestep.toNat = p.timestep.toNat from
      Quantity.toNat_toUInt32 h.timestep_lt] at e
    exact Nat.ne_of_gt hpos e
  unfold play
  simp only [unpack_assemble h]
  unfold playCommands
  rw [htake]
  refine bind_eq_ok.2 ⟨_, foldlM_played h, ?_⟩
  simp only [hstep, hrun, not_hasEndlessBurst h, if_false, Bool.not_true, Bool.false_eq_true]

end CorePlan

end TrafficLab
