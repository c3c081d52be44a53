import Mathlib.Data.Nat.Dist
import Mathlib.Order.Bounds.Basic
import TrafficLab.Proofs.Chip.Loading
import TrafficLab.Proofs.Compilation.LeastKeys
import TrafficLab.Proofs.Compilation.Slots

/-!
# When flows start

Times are rounded to ticks in two ways.  A flow on its own starts at the tick nearest to the time it
asks for, and the run ends at the tick nearest to its end; a group starts at the first tick that is
not before the time of any member.  A specification compiles only if all of its flows start before
the end of the run, and for a late start it is rejected only if there is one.

    roundTicks timestep t is the nearest tick to t, the later of two           (nearest_roundTicks)
    ceilTicks timestep t ≤ k ↔ tick k is not before t                          (ceilTicks_le_iff)
    groupStart flows group ≤ n ↔ no member asks for more than n               (groupStart_le_iff)
    a rejection for a late start names a flow that starts too late  (late_of_startsAfterRun)
-/

namespace TrafficLab

open Checked Compilation

theorem Quantity.toNat_inj {m : Measure} {a b : Quantity m} : a.toNat = b.toNat ↔ a = b := by
  obtain ⟨a⟩ := a
  obtain ⟨b⟩ := b
  exact UInt64.toNat_inj.trans (by simp)

/-! ## Rounding -/

namespace Nanosecs

/-- How far a tick is from a time. -/
def distance (timestep t : Nanosecs) (tick : Nat) : Nat :=
  Nat.dist (tick * timestep.toNat) t.toNat

/-- No tick is nearer to a time, and none that is as near comes later. -/
def Nearest (timestep t : Nanosecs) (tick : Nat) : Prop :=
  IsGreatest {k | ∀ j, distance timestep t k ≤ distance timestep t j} tick

variable {timestep : Nanosecs} (hpos : 0 < timestep.toNat)

include hpos

theorem nearest_roundTicks (t : Nanosecs) : Nearest timestep t (roundTicks timestep t) := by
  have hlow : roundTicks timestep t * timestep.toNat ≤ t.toNat + timestep.toNat / 2 :=
    Nat.div_mul_le_self _ _
  have hhigh : t.toNat + timestep.toNat / 2 < (roundTicks timestep t + 1) * timestep.toNat :=
    (Nat.div_lt_iff_lt_mul hpos).1 (Nat.lt_succ_self _)
  rw [Nat.add_mul, Nat.one_mul] at hhigh
  have hearlier : ∀ j < roundTicks timestep t,
      distance timestep t (roundTicks timestep t) ≤ distance timestep t j := by
    intro j hj
    have hstep := Nat.mul_le_mul_right timestep.toNat hj
    rw [Nat.succ_mul] at hstep
    unfold distance Nat.dist
    omega
  have hlater : ∀ j, roundTicks timestep t < j →
      distance timestep t (roundTicks timestep t) < distance timestep t j := by
    intro j hj
    have hstep := Nat.mul_le_mul_right timestep.toNat hj
    rw [Nat.succ_mul] at hstep
    unfold distance Nat.dist
    omega
  refine ⟨fun j => ?_, fun k hk => ?_⟩
  · rcases Nat.lt_trichotomy j (roundTicks timestep t) with hlt | rfl | hgt
    · exact hearlier j hlt
    · exact Nat.le_refl _
    · exact Nat.le_of_lt (hlater j hgt)
  · exact Nat.le_of_not_lt fun hlt =>
      absurd (hk (roundTicks timestep t)) (Nat.not_le.2 (hlater k hlt))

theorem ceilTicks_le_iff {t : Nanosecs} {k : Nat} :
    ceilTicks timestep t ≤ k ↔ t.toNat ≤ k * timestep.toNat := by
  unfold ceilTicks
  rw [Nat.div_le_iff_le_mul_add_pred hpos, Nat.mul_comm]
  omega

end Nanosecs

/-! ## Groups -/

namespace Compilation

theorem latest_le_iff {flows : List RoutedFlow} {t : Nanosecs} {n : Nat} :
    (flows.foldl (fun latest f => if latest.count < f.start.count then f.start else latest)
        t).toNat ≤ n ↔
      t.toNat ≤ n ∧ ∀ f ∈ flows, f.start.toNat ≤ n := by
  induction flows generalizing t with
  | nil => simp
  | cons f rest ih =>
    rw [List.foldl_cons, ih, List.forall_mem_cons, ← and_assoc]
    refine and_congr_left fun _ => ?_
    split
    · next hlt =>
      have hlt : t.toNat < f.start.toNat := UInt64.lt_iff_toNat_lt.1 hlt
      omega
    · next hle =>
      have hle : f.start.toNat ≤ t.toNat := UInt64.le_iff_toNat_le.1 (UInt64.not_lt.1 hle)
      omega

/-- A group starts when its latest member does. -/
theorem groupStart_le_iff {flows : List RoutedFlow} {group : GroupId} {n : Nat} :
    (groupStart flows group).toNat ≤ n ↔
      ∀ f ∈ flows, f.group = some group → f.start.toNat ≤ n := by
  have hzero : (⟨0⟩ : Nanosecs).toNat ≤ n := Nat.zero_le n
  unfold groupStart
  rw [latest_le_iff, and_iff_right hzero]
  simp only [List.mem_filter, beq_iff_eq, and_imp]

end Compilation

/-! ## Start ticks -/

namespace RoutedFlow

/-- A flow starts at a tick: the first that is not before the time of any flow of its group, or the
nearest to its own time if it has no group. -/
def StartsAt (f : RoutedFlow) (timestep : Nanosecs) (flows : List RoutedFlow) (tick : Nat) : Prop :=
  match f.group with
  | some group =>
    IsLeast {k | ∀ g ∈ flows, g.group = some group → g.start.toNat ≤ k * timestep.toNat} tick
  | none => Nanosecs.Nearest timestep f.start tick

variable {f : RoutedFlow} {timestep : Nanosecs} {flows : List RoutedFlow}

theorem startsAt_startTick (hpos : 0 < timestep.toNat) :
    f.StartsAt timestep flows (startTick timestep flows f.toFlow) := by
  unfold StartsAt startTick
  cases f.group with
  | none => exact Nanosecs.nearest_roundTicks hpos f.start
  | some group =>
    have hfirst : ∀ k, Nanosecs.ceilTicks timestep (groupStart flows group) ≤ k ↔
        ∀ g ∈ flows, g.group = some group → g.start.toNat ≤ k * timestep.toNat := fun k =>
      (Nanosecs.ceilTicks_le_iff hpos).trans groupStart_le_iff
    exact ⟨(hfirst _).1 (Nat.le_refl _), fun k hk => (hfirst k).2 hk⟩

theorem StartsAt.unique {k l : Nat} (hk : f.StartsAt timestep flows k)
    (hl : f.StartsAt timestep flows l) : k = l := by
  unfold StartsAt at hk hl
  cases hgroup : f.group with
  | none =>
    rw [hgroup] at hk hl
    exact IsGreatest.unique hk hl
  | some group =>
    rw [hgroup] at hk hl
    exact IsLeast.unique hk hl

/-- Flows of one group start together. -/
theorem StartsAt.of_group {g : RoutedFlow} {k : Nat} (hk : f.StartsAt timestep flows k)
    {group : GroupId} (hf : f.group = some group) (hg : g.group = some group) :
    g.StartsAt timestep flows k := by
  unfold StartsAt at hk ⊢
  rw [hf] at hk
  rw [hg]
  exact hk

end RoutedFlow

/-! ## Rejections -/

theorem plan_startsAfterRun {timestep : Nanosecs} {runTicks : Nat} {flows : List RoutedFlow}
    {f : KeyedFlow} {id : FlowId} {start run : Nat}
    (h : plan timestep runTicks flows f = .error (.startsAfterRun id start run)) :
    f.id = id ∧ start = startTick timestep flows f.toFlow ∧ run = runTicks ∧ run ≤ start := by
  unfold plan at h
  split at h
  · cases h
  · cases h
  simp only at h
  split at h
  · next hle =>
    cases h
    exact ⟨rfl, rfl, rfl, hle⟩
  · cases h

/-- A specification that is rejected for a flow that starts after the run has one. -/
theorem late_of_startsAfterRun {v : ValidSpec} (hv : v.Sound) {id : FlowId} {start run : Nat}
    (h : compile v = .error (.startsAfterRun id start run)) :
    ∃ f ∈ v.flows.values, f.id = id ∧ run = v.spec.runTicks ∧ run ≤ start ∧
      f.StartsAt v.spec.timestep v.flows.values start := by
  have hword : ∀ {what : Extent} {n : Nat}, word what n ≠ .error (.startsAfterRun id start run) := by
    intro what n hfault
    unfold word at hfault
    split at hfault <;> cases hfault
  unfold compile at h
  simp only at h
  rcases bind_eq_error.1 h with h | ⟨_, -, h⟩
  · exact absurd h hword
  rcases bind_eq_error.1 h with h | ⟨_, -, h⟩
  · exact absurd h hword
  split at h
  · cases h
  rcases bind_eq_error.1 h with h | ⟨_, -, h⟩
  · exact absurd h hword
  have hplaced : ∀ f ∈ v.flows.values, f.route.Placed v.fabric := fun f hf =>
    (hv.sound_of_mem hf).placed
  rcases bind_eq_error.1 h with h | ⟨keyed, hkeyed, h⟩
  · obtain ⟨_, _, _, _, _, -, -, -, he⟩ := (Keys.assign_eq_error_iff hplaced Keys.holds_nil).1 h
    cases he
  rcases bind_eq_error.1 h with h | ⟨_, -, h⟩
  · obtain ⟨_, _, _, he⟩ := Layout.exists_of_check_eq_error h
    cases he
  rcases bind_eq_error.1 h with h | ⟨flows, -, h⟩
  · obtain ⟨f, hf, hplan⟩ := exists_of_mapM_eq_error h
    obtain ⟨hid, hstart, hrun, hle⟩ := plan_startsAfterRun hplan
    have hmem : f.toRoutedFlow ∈ v.flows.values := by
      rw [← (Keys.assign_eq_ok hplaced hkeyed).1]
      exact List.mem_map_of_mem hf
    refine ⟨f.toRoutedFlow, hmem, hid, hrun, hle, ?_⟩
    rw [hstart]
    exact RoutedFlow.startsAt_startTick hv.timestep_pos
  rcases bind_eq_error.1 h with h | ⟨_, -, h⟩
  · obtain ⟨core, -, hcore⟩ := exists_of_mapM_eq_error h
    have hprogram := map_eq_error.1 hcore
    unfold program at hprogram
    simp only at hprogram
    split at hprogram <;> cases hprogram
  · cases h

/-! ## Main result -/

/-- The flows of a compiled specification start within its run. -/
structure Compiled.StartsInTime (c : Compiled) (v : ValidSpec) (run : Nat) : Prop where
  nearest : Nanosecs.Nearest v.spec.timestep v.spec.duration run
  pos : 1 ≤ run
  le : run ≤ 2 ^ 32 - 1
  runs : ∀ p ∈ c.programs.values, p.runTicks.toNat = run
  /-- Every flow is sent by its source. -/
  sent : ∀ f ∈ v.flows.values, ∃ p, c.programs.get? f.route.source = some p ∧
    ∃ r ∈ p.sources, r.flow = f.id
  /-- All that is sent is a flow that starts at its tick, before the end of the run. -/
  starts : ∀ p ∈ c.programs.values, ∀ r ∈ p.sources, ∃ f ∈ v.flows.values, f.id = r.flow ∧
    f.StartsAt v.spec.timestep v.flows.values r.start.toNat ∧ r.start.toNat < run
  /-- The flows of a group start together, wherever they are sent. -/
  together : ∀ p ∈ c.programs.values, ∀ q ∈ c.programs.values, ∀ r ∈ p.sources, ∀ r' ∈ q.sources,
    ∀ f ∈ v.flows.values, ∀ g ∈ v.flows.values, f.id = r.flow → g.id = r'.flow →
      f.group = g.group → f.group.isSome = true → r.start = r'.start

theorem Compiled.From.startsInTime {v : ValidSpec} {flows : List PlannedFlow} {c : Compiled}
    (h : c.From v flows) : c.StartsInTime v v.spec.runTicks := by
  have hpos := h.valid.timestep_pos
  have hsource : ∀ p ∈ c.programs.values, ∀ r ∈ p.sources,
      ∃ f ∈ flows, sourceRole f = r := by
    intro p hp r hr
    obtain ⟨core, -, rfl⟩ := h.mem_programs.1 hp
    obtain ⟨f, hf, hrole⟩ := List.mem_map.1 hr
    exact ⟨f, (List.mem_filter.1 hf).1, hrole⟩
  have hstarts : ∀ f ∈ flows,
      f.toRoutedFlow.StartsAt v.spec.timestep v.flows.values f.firstTick.toNat := by
    intro f hf
    rw [(h.timed f hf).first]
    exact RoutedFlow.startsAt_startTick hpos
  refine ⟨Nanosecs.nearest_roundTicks hpos _, h.valid.runTicks_pos,
    Nat.le_sub_one_of_lt h.runTicks_lt, fun p hp => ?_, fun f hf => ?_, fun p hp r hr => ?_, ?_⟩
  · obtain ⟨core, -, rfl⟩ := h.mem_programs.1 hp
    exact h.runTicks_eq core
  · obtain ⟨g, hg, rfl⟩ := h.exists_planned hf
    refine ⟨_, h.get?_programs.2 ⟨h.mem_participants hg List.mem_cons_self, rfl⟩,
      sourceRole g, List.mem_map_of_mem (List.mem_filter.2 ⟨hg, ?_⟩), rfl⟩
    exact beq_self_eq_true g.route.source
  · obtain ⟨f, hf, rfl⟩ := hsource p hp r hr
    exact ⟨f.toRoutedFlow, h.mem_values hf, rfl, hstarts f hf, (h.timed f hf).within⟩
  · intro p hp q hq r hr r' hr' f hf g hg hfid hgid hgroup hsome
    obtain ⟨f', hf', rfl⟩ := hsource p hp r hr
    obtain ⟨g', hg', rfl⟩ := hsource q hq r' hr'
    obtain ⟨f'', hf'', rfl⟩ := h.exists_planned hf
    obtain ⟨g'', hg'', rfl⟩ := h.exists_planned hg
    obtain rfl := h.eq_of_id hf'' hf' hfid
    obtain rfl := h.eq_of_id hg'' hg' hgid
    obtain ⟨group, hfgroup⟩ := Option.isSome_iff_exists.1 hsome
    have hsame := ((hstarts f'' hf'').of_group hfgroup (hgroup.symm.trans hfgroup)).unique
      (hstarts g'' hg'')
    exact Quantity.toNat_inj.1 hsame

/-- When a valid specification compiles, its flows start at their ticks, before the end of the run.
It is not rejected for a late start if all of its flows start before the end of the run. -/
theorem flows_start_in_time {s : Spec} {v : ValidSpec} (hv : s.validate = .ok v) :
    (∀ c, compile v = .ok c → ∃ run, c.StartsInTime v run) ∧
    ∀ run, Nanosecs.Nearest v.spec.timestep v.spec.duration run →
      (∀ f ∈ v.flows.values, ∃ tick < run, f.StartsAt v.spec.timestep v.flows.values tick) →
      ∀ id start late, compile v ≠ .error (.startsAfterRun id start late) := by
  have hsound := (Spec.sound_of_validate hv).2
  refine ⟨fun c hc => ?_, fun run hrun hall id start late hlate => ?_⟩
  · obtain ⟨flows, h⟩ := Compiled.from_of_compile hsound hc
    exact ⟨_, h.startsInTime⟩
  · obtain ⟨f, hf, -, rfl, hle, hstart⟩ := late_of_startsAfterRun hsound hlate
    obtain ⟨tick, hlt, htick⟩ := hall f hf
    rw [hrun.unique (Nanosecs.nearest_roundTicks hsound.timestep_pos _)] at hlt
    have heq := htick.unique hstart
    exact absurd hle (Nat.not_le.2 (heq ▸ hlt))

/-- Three flows of two cores, two of them in a group.  The run ends half a tick before its last. -/
def Spec.grouped : Spec :=
  { Spec.twoCores with
    flows :=
      [⟨⟨0⟩, ⟨0⟩, [⟨1⟩], .periodic 1e8, .withPayload, ⟨11⟩, some ⟨7⟩⟩,
        ⟨⟨1⟩, ⟨1⟩, [⟨0⟩, ⟨1⟩], .periodic 1e8, .keyOnly, ⟨25⟩, some ⟨7⟩⟩,
        ⟨⟨2⟩, ⟨0⟩, [⟨1⟩], .periodic 1e8, .keyOnly, ⟨15⟩, none⟩]
    duration := ⟨95⟩
    timestep := ⟨10⟩ }

/-- The first core starts its flow of the group later than the flow asks for, and rounds the start of
the other up from half a tick. -/
theorem flows_start_in_time_grouped :
    ∃ v c p, Spec.grouped.validate = .ok v ∧ compile v = .ok c ∧ c.programs.get? ⟨0⟩ = some p ∧
      (p.sources.map fun r => (r.flow, r.start)) = [(⟨0⟩, ⟨3⟩), (⟨2⟩, ⟨2⟩)] ∧
      c.StartsInTime v 10 ∧
      (∀ f ∈ v.flows.values, ∃ tick < 10, f.StartsAt v.spec.timestep v.flows.values tick) ∧
      ∀ id start late, compile v ≠ .error (.startsAfterRun id start late) := by
  have hview : Spec.grouped.view? ⟨0⟩ (fun v p =>
      ((p.sources.map fun r => (r.flow, r.start)), p.runTicks.toNat,
        v.flows.values.all fun f => startTick v.spec.timestep v.flows.values f.toFlow < 10)) =
      some ([(⟨0⟩, ⟨3⟩), (⟨2⟩, ⟨2⟩)], 10, true) := by
    decide +kernel
  obtain ⟨v, c, p, hv, hc, hp, hseen⟩ := Spec.exists_of_view? hview
  simp only [Prod.mk.injEq, List.all_eq_true, decide_eq_true_eq] at hseen
  obtain ⟨hsources, hrun, hbefore⟩ := hseen
  obtain ⟨hcompiles, hrejects⟩ := flows_start_in_time hv
  obtain ⟨run, htimes⟩ := hcompiles c hc
  obtain rfl : run = 10 := (htimes.runs p (Table.mem_values.2 ⟨⟨0⟩, hp⟩)).symm.trans hrun
  have hall : ∀ f ∈ v.flows.values,
      ∃ tick < 10, f.StartsAt v.spec.timestep v.flows.values tick := fun f hf =>
    ⟨_, hbefore f hf,
      RoutedFlow.startsAt_startTick (Spec.sound_of_validate hv).2.timestep_pos⟩
  exact ⟨v, c, p, hv, hc, hp, hsources, htimes, hall, hrejects 10 htimes.nearest hall⟩

end TrafficLab
