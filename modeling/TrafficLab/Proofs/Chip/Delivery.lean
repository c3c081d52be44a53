import Mathlib.Data.List.Pairwise
import TrafficLab.Proofs.Chip.Loading
import TrafficLab.Proofs.Chip.Simulation

/-!
# Who gets a packet

A packet goes to the sinks that watch its key and its core.  A key and a core stand for one flow
alone: flows from one core share the region of that core, and there their keys differ.  So a packet
goes to one sink on each core that receives its flow, as far as these cores run, and to no other.

    f.route.source = g.route.source → f.key = g.key → f = g         (eq_of_source_of_key)
    watchers of a source = one sink of its flow on each sink core that runs  (watchersOf_source)
-/

namespace TrafficLab

/-! ## Places in lists -/

/-- Of a list in which at most one entry satisfies `p`, what becomes of that entry's place. -/
theorem filterMap_zipIdx_eq {α β : Type} {l : List α} {p : α → Bool} {g : Nat → β} (n : Nat)
    (h : l.Pairwise fun a b => p a = true → p b = false) :
    ((l.zipIdx n).filterMap fun x => if p x.1 then some (g x.2) else none)
      = ((l.findIdx? p).map fun j => g (n + j)).toList := by
  induction l generalizing n with
  | nil => rfl
  | cons a rest ih =>
    obtain ⟨ha, hrest⟩ := List.pairwise_cons.1 h
    rw [List.zipIdx_cons, List.findIdx?_cons]
    by_cases hp : p a = true
    · have hnone : ((rest.zipIdx (n + 1)).filterMap fun x =>
          if p x.1 then some (g x.2) else none) = [] := by
        rw [List.filterMap_eq_nil_iff]
        intro x hx
        have hmem := List.fst_mem_of_mem_zipIdx hx
        rw [if_neg (by simp [ha _ hmem hp])]
      rw [List.filterMap_cons, if_pos hp, hnone, if_pos hp]
      rfl
    · rw [List.filterMap_cons, if_neg hp, if_neg hp, ih (n + 1) hrest, Option.map_map]
      congr 2
      funext j
      show g (n + 1 + j) = g (n + (j + 1))
      rw [Nat.add_right_comm, Nat.add_assoc]

/-- Of lists put together place by place, the part of one place. -/
theorem filter_flatMap_zipIdx {α : Type} {F : α × Nat → List Watcher}
    (hF : ∀ x, ∀ w ∈ F x, w.core = x.2) {l : List α} {n d : Nat} {a : α} (h : l[d]? = some a) :
    ((l.zipIdx n).flatMap F).filter (·.core == n + d) = F (a, n + d) := by
  induction l generalizing n d with
  | nil => simp at h
  | cons x rest ih =>
    rw [List.zipIdx_cons, List.flatMap_cons, List.filter_append]
    cases d with
    | zero =>
      cases h
      have hhere : (F (a, n)).filter (·.core == n + 0) = F (a, n) := by
        rw [List.filter_eq_self]
        intro w hw
        exact beq_iff_eq.2 (hF _ w hw)
      have hlater : ((rest.zipIdx (n + 1)).flatMap F).filter (·.core == n + 0) = [] := by
        rw [List.filter_eq_nil_iff]
        intro w hw
        obtain ⟨y, hy, hw⟩ := List.mem_flatMap.1 hw
        have hle := List.le_snd_of_mem_zipIdx hy
        rw [beq_iff_eq, hF y w hw]
        omega
      rw [hhere, hlater, List.append_nil]
      rfl
    | succ d =>
      have hhere : (F (x, n)).filter (·.core == n + (d + 1)) = [] := by
        rw [List.filter_eq_nil_iff]
        intro w hw
        have he := hF _ w hw
        rw [beq_iff_eq, he]
        show ¬n = n + (d + 1)
        omega
      have hrest := ih (n := n + 1) (d := d) h
      rw [Nat.add_right_comm, Nat.add_assoc] at hrest
      rw [hhere, List.nil_append, hrest]

/-! ## Keys and cores -/

/-- Watchers that are one sink role of the flow on each of its sink cores that runs, and no others.
`ps` are the programs of the cores that run. -/
structure WatchersOf (f : RoutedFlow) (ps : List Program) (ws : List Watcher) : Prop where
  on_sink : ∀ {d q}, ps[d]? = some q → q.core ∈ f.route.sinks →
    ∃ j r, q.sinks[j]? = some r ∧ r.flow = f.id ∧
      ws.filter (·.core == d) = [⟨d, j, q.consume, q.core == f.route.source⟩]
  elsewhere : ∀ {d q}, ps[d]? = some q → q.core ∉ f.route.sinks → ws.filter (·.core == d) = []
  within : ∀ w ∈ ws, w.core < ps.length

/-- The sinks of a setup that watch a key of a core, when it runs at a place. -/
def Setup.watchersAt (core : CoreId) (key : UInt32) (x : Setup × Nat) : List Watcher :=
  x.1.sinks.toList.zipIdx.filterMap fun y =>
    if y.1.source = core ∧ y.1.key = key then
      some ⟨x.2, y.2, x.1.consume, x.1.core == core⟩
    else none

theorem Setup.core_of_mem_watchersAt (core : CoreId) (key : UInt32) (x : Setup × Nat)
    (w : Watcher) (hw : w ∈ watchersAt core key x) : w.core = x.2 := by
  obtain ⟨y, -, hy⟩ := List.mem_filterMap.1 hw
  split at hy
  · cases hy
    rfl
  · cases hy

/-- The watchers on the core at one place. -/
theorem filter_watchers_core {setups : List Setup} {d : Nat} {s : Setup} (hs : setups[d]? = some s)
    (core : CoreId) (key : UInt32) :
    (watchers setups core key).filter (·.core == d) = Setup.watchersAt core key (s, d) := by
  have hpart := filter_flatMap_zipIdx (Setup.core_of_mem_watchersAt core key) (n := 0) hs
  rw [Nat.zero_add] at hpart
  exact hpart

/-- The sinks of a plan that watch a key of a core, when its core runs at a place. -/
def CorePlan.watchersAt (core : CoreId) (key : UInt32) (x : CorePlan × Nat) : List Watcher :=
  x.1.sinks.zipIdx.filterMap fun y =>
    if y.1.source = core ∧ y.1.key.val = key then
      some ⟨x.2, y.2, x.1.consume, x.1.core == core⟩
    else none

theorem CorePlan.watchersAt_setup (core : CoreId) (key : UInt32) (p : CorePlan) (d : Nat) :
    Setup.watchersAt core key (p.setup, d) = watchersAt core key (p, d) := by
  show ((p.sinks.map (·.setup)).zipIdx).filterMap _ = _
  rw [List.zipIdx_map, List.filterMap_map]
  rfl

theorem getElem?_map_setup {ps : List Program} {d : Nat} {q : Program} (h : ps[d]? = some q) :
    (ps.map fun q => q.toCorePlan.setup)[d]? = some q.toCorePlan.setup := by
  rw [List.getElem?_map, h]
  rfl

namespace Compiled.From

variable {v : ValidSpec} {flows : List PlannedFlow} {c : Compiled} (h : c.From v flows)

include h

/-- Different flows that share a region have different keys. -/
theorem key_ne {f g : PlannedFlow} (hf : f ∈ flows) (hg : g ∈ flows) (hne : f ≠ g)
    (ho : Keys.overlap f.route.regions g.route.regions = true) : f.key ≠ g.key := by
  have hsymm : Std.Symm fun f g : PlannedFlow =>
      Keys.overlap f.route.regions g.route.regions = true → f.key ≠ g.key := by
    refine ⟨fun a b hab ho e => ?_⟩
    obtain ⟨r, hr, hr'⟩ := Keys.overlap_iff.1 ho
    exact hab (Keys.overlap_iff.2 ⟨r, hr', hr⟩) e.symm
  exact h.apart.forall hf hg hne ho

/-- A key from a core is that of one flow. -/
theorem eq_of_source_of_key {f g : PlannedFlow} (hf : f ∈ flows) (hg : g ∈ flows)
    (hs : f.route.source = g.route.source) (hk : f.key = g.key) : f = g := by
  by_contra hne
  -- both flows pass through the region of their source
  obtain ⟨a, ha, hregion⟩ := (h.placed hf).source_region
  obtain ⟨b, hb, hregion'⟩ := (h.placed hg).source_region
  rw [← hs, hregion] at hregion'
  cases hregion'
  exact h.key_ne hf hg hne (Keys.overlap_iff.2 ⟨a, ha, hb⟩) hk

/-- A sink watches for the packets of the flow that it is a sink of. -/
theorem watches_iff {f g : PlannedFlow} (hf : f ∈ flows) (hg : g ∈ flows) :
    (Compilation.sinkRole g).source = f.route.source ∧ (Compilation.sinkRole g).key.val = f.key.val
      ↔ (Compilation.sinkRole g).flow = f.id := by
  show g.route.source = f.route.source ∧ g.key.val = f.key.val ↔ g.id = f.id
  constructor
  · rintro ⟨hs, hk⟩
    have hk : g.key = f.key := by
      cases hgk : g.key
      cases hfk : f.key
      rw [hgk, hfk] at hk
      exact congrArg RoutingKey.mk hk
    rw [h.eq_of_source_of_key hg hf hs hk]
  · intro e
    rw [h.eq_of_id hg hf e]
    exact ⟨rfl, rfl⟩

/-- The sinks of a core are of different flows. -/
theorem sink_flows_nodup (core : CoreId) : ((v.corePlan flows core).sinks.map (·.flow)).Nodup := by
  show (((flows.filter fun f => f.receivedBy core).map Compilation.sinkRole).map (·.flow)).Nodup
  rw [List.map_map]
  exact h.ids_nodup.sublist (List.filter_sublist.map _)

omit h in
theorem mem_sinks {core : CoreId} {r : SinkRole} :
    r ∈ (v.corePlan flows core).sinks ↔
      ∃ g ∈ flows, core ∈ g.route.sinks ∧ Compilation.sinkRole g = r := by
  show r ∈ (flows.filter fun f => f.receivedBy core).map Compilation.sinkRole ↔ _
  rw [List.mem_map]
  constructor
  · rintro ⟨g, hg, rfl⟩
    obtain ⟨hg, hr⟩ := List.mem_filter.1 hg
    exact ⟨g, hg, List.contains_iff_mem.1 hr, rfl⟩
  · rintro ⟨g, hg, hr, rfl⟩
    exact ⟨g, List.mem_filter.2 ⟨hg, List.contains_iff_mem.2 hr⟩, rfl⟩

/-- The watchers of a flow on one core. -/
theorem watchersAt_source {f : PlannedFlow} (hf : f ∈ flows) (core : CoreId) (d : Nat) :
    CorePlan.watchersAt f.route.source f.key.val (v.corePlan flows core, d) =
      (((v.corePlan flows core).sinks.findIdx? (·.flow == f.id)).map fun j =>
        Watcher.mk d j v.spec.consume (core == f.route.source)).toList := by
  have hpair : (v.corePlan flows core).sinks.Pairwise fun a b =>
      (a.flow == f.id) = true → (b.flow == f.id) = false := by
    refine (List.pairwise_map.1 (h.sink_flows_nodup core)).imp fun {a b} hne ha => ?_
    exact beq_false_of_ne fun hb => hne ((beq_iff_eq.1 ha).trans hb.symm)
  have heq := filterMap_zipIdx_eq (g := fun j =>
    Watcher.mk d j v.spec.consume (core == f.route.source)) 0 hpair
  simp only [Nat.zero_add] at heq
  rw [← heq]
  refine List.filterMap_congr fun y hy => ?_
  obtain ⟨g, hg, -, e⟩ := mem_sinks.1 (List.fst_mem_of_mem_zipIdx hy)
  have hiff := h.watches_iff hf hg
  rw [e] at hiff
  simp only [hiff, beq_iff_eq]
  rfl

/-- A core has a sink of a flow exactly if it is one of the flow's sink cores. -/
theorem findIdx?_sinks {f : PlannedFlow} (hf : f ∈ flows) (core : CoreId) :
    ((v.corePlan flows core).sinks.findIdx? (·.flow == f.id)).isSome ↔ core ∈ f.route.sinks := by
  rw [List.findIdx?_isSome, List.any_eq_true]
  constructor
  · rintro ⟨r, hr, hflow⟩
    obtain ⟨g, hg, hcore, rfl⟩ := mem_sinks.1 hr
    rw [← h.eq_of_id hg hf (beq_iff_eq.1 hflow)]
    exact hcore
  · intro hcore
    exact ⟨_, mem_sinks.2 ⟨f, hf, hcore, rfl⟩, beq_self_eq_true f.id⟩

/-- Among the cores that run, the watchers of a flow's source at one place. -/
theorem filter_watchers {f : PlannedFlow} (hf : f ∈ flows) {ps : List Program}
    (hps : ∀ q ∈ ps, q ∈ c.programs.values) {d : Nat} {q : Program} (hq : ps[d]? = some q) :
    (watchers (ps.map fun q => q.toCorePlan.setup) f.route.source f.key.val).filter (·.core == d) =
      ((q.sinks.findIdx? (·.flow == f.id)).map fun j =>
        Watcher.mk d j q.consume (q.core == f.route.source)).toList := by
  rw [filter_watchers_core (getElem?_map_setup hq), CorePlan.watchersAt_setup]
  obtain ⟨core, -, rfl⟩ := h.mem_programs.1 (hps q (List.mem_of_getElem? hq))
  exact h.watchersAt_source hf core d

/-- Among the cores that run, the watchers of a flow's source are the flow's own sinks. -/
theorem watchersOf_source {f : PlannedFlow} (hf : f ∈ flows) {ps : List Program}
    (hps : ∀ q ∈ ps, q ∈ c.programs.values) :
    WatchersOf f.toRoutedFlow ps
      (watchers (ps.map fun q => q.toCorePlan.setup) f.route.source f.key.val) := by
  constructor
  · intro d q hq hsink
    rw [h.filter_watchers hf hps hq]
    obtain ⟨core, -, rfl⟩ := h.mem_programs.1 (hps q (List.mem_of_getElem? hq))
    obtain ⟨j, hfind⟩ := Option.isSome_iff_exists.1 ((h.findIdx?_sinks hf core).2 hsink)
    obtain ⟨hj, hflow, -⟩ := List.findIdx?_eq_some_iff_getElem.1 hfind
    refine ⟨j, _, List.getElem?_eq_getElem hj, beq_iff_eq.1 hflow, ?_⟩
    show ((List.findIdx? _ (v.corePlan flows core).sinks).map _).toList = _
    rw [hfind]
    rfl
  · intro d q hq hsink
    rw [h.filter_watchers hf hps hq]
    obtain ⟨core, -, rfl⟩ := h.mem_programs.1 (hps q (List.mem_of_getElem? hq))
    have hnone := Option.not_isSome_iff_eq_none.1 (mt (h.findIdx?_sinks hf core).1 hsink)
    show ((List.findIdx? _ (v.corePlan flows core).sinks).map _).toList = _
    rw [hnone]
    rfl
  · intro w hw
    obtain ⟨s, -, hs, -⟩ := exists_of_mem_watchers hw
    have hlt := (List.getElem?_eq_some_iff.1 hs).1
    rwa [List.length_map] at hlt

omit h in
/-- The flow of a source role. -/
theorem exists_flow_of_source {core : CoreId} {r : SourceRole}
    (hr : r ∈ (v.corePlan flows core).sources) :
    ∃ f ∈ flows, f.route.source = core ∧ Compilation.sourceRole f = r := by
  obtain ⟨f, hf, rfl⟩ := List.mem_map.1 hr
  obtain ⟨hf, hs⟩ := List.mem_filter.1 hf
  exact ⟨f, hf, beq_iff_eq.1 hs, rfl⟩

/-- A core that plays its program is set up by the plan of the program. -/
theorem play_of_mem {q : Program} (hq : q ∈ c.programs.values) :
    Setup.play q.core q.bytes = .ok q.toCorePlan.setup := by
  obtain ⟨core, -, rfl⟩ := h.mem_programs.1 hq
  exact CorePlan.play_assemble (h.playable core)

/-- Programs that cores play are set up by their plans. -/
theorem setups_eq {ps : List Program} {setups : List Setup}
    (hps : ∀ q ∈ ps, q ∈ c.programs.values)
    (hplay : List.Forall₂ (fun (q : Program) s => Setup.play q.core q.bytes = .ok s) ps setups) :
    setups = ps.map fun q => q.toCorePlan.setup := by
  induction hplay with
  | nil => rfl
  | @cons q s ps setups hq _ ih =>
    cases (h.play_of_mem (hps q (by simp))).symm.trans hq
    rw [List.map_cons, ← ih fun q hq => hps q (by simp [hq])]

end Compiled.From

/-! ## Main result -/

/-- Packets are never taken for those of another flow.  Keys fit every region of their flow and
differ wherever flows meet; and whichever cores run, the watchers of a source are one sink of its
flow on each sink core among them, and nothing else. -/
theorem packets_keep_to_their_flow {s : Spec} {v : ValidSpec} {c : Compiled}
    (hv : s.validate = .ok v) (hc : compile v = .ok c) :
    (∀ f ∈ v.flows.values, ∃ key, c.keys.get? f.id = some key ∧
      key.val.toNat = 256 * key.index.toNat ∧
      ∀ r ∈ f.route.regions.keys, ∃ bits, v.fabric.keyBits r = some bits ∧
        key.index.toNat < 2 ^ bits.toNat) ∧
    (∀ f ∈ v.flows.values, ∀ g ∈ v.flows.values, f.id ≠ g.id →
      (∃ r, r ∈ f.route.regions.keys ∧ r ∈ g.route.regions.keys) →
      c.keys.get? f.id ≠ c.keys.get? g.id) ∧
    ∀ p ∈ c.programs.values, ∀ r ∈ p.sources,
      ∃ f ∈ v.flows.values, r.flow = f.id ∧ p.core = f.route.source ∧
        c.keys.get? f.id = some r.key ∧
        ∀ (ps : List Program) (setups : List Setup), (∀ q ∈ ps, q ∈ c.programs.values) →
          List.Forall₂ (fun (q : Program) s => Setup.play q.core q.bytes = .ok s) ps setups →
          WatchersOf f ps (watchers setups p.core r.key.val) := by
  obtain ⟨flows, h⟩ := Compiled.from_of_compile (Spec.sound_of_validate hv).2 hc
  refine ⟨fun f' hf' => ?_, fun f' hf' g' hg' hne hmeet => ?_, fun p hp r hr => ?_⟩
  · obtain ⟨f, hf, rfl⟩ := h.exists_planned hf'
    have hfits := h.fits f hf
    refine ⟨f.key, h.get?_keys hf, ?_, hfits.regions⟩
    rw [hfits.key, RoutingKey.toNat_ofIndex hfits.lt, RoutingKey.index_ofIndex hfits.lt]
  · obtain ⟨f, hf, rfl⟩ := h.exists_planned hf'
    obtain ⟨g, hg, rfl⟩ := h.exists_planned hg'
    rw [h.get?_keys hf, h.get?_keys hg]
    intro e
    exact h.key_ne hf hg (fun e => hne (by rw [e])) (Keys.overlap_iff.2 hmeet) (Option.some_inj.1 e)
  · obtain ⟨core, -, rfl⟩ := h.mem_programs.1 hp
    obtain ⟨f, hf, hs, rfl⟩ := Compiled.From.exists_flow_of_source (v := v) hr
    refine ⟨f.toRoutedFlow, h.mem_values hf, rfl, hs.symm, h.get?_keys hf, ?_⟩
    intro ps setups hps hplay
    rw [h.setups_eq hps hplay]
    have hwatch := h.watchersOf_source hf hps
    rw [hs] at hwatch
    exact hwatch

theorem packets_keep_to_their_flow_twoCores :
    ∃ v c p r f setups, Spec.twoCores.validate = .ok v ∧ compile v = .ok c ∧
      p ∈ c.programs.values ∧ r ∈ p.sources ∧ r.flow = f.id ∧
      WatchersOf f c.programs.values (watchers setups p.core r.key.val) := by
  obtain ⟨v, c, p, r, hv, hc, hp, hr⟩ := Spec.twoCores_compiles
  obtain ⟨flows, hfrom⟩ := Compiled.from_of_compile (Spec.sound_of_validate hv).2 hc
  obtain ⟨-, -, h⟩ := packets_keep_to_their_flow hv hc
  obtain ⟨f, hf, hflow, hcore, hkey, hwatch⟩ := h p hp r hr
  refine ⟨v, c, p, r, f, _, hv, hc, hp, hr, hflow,
    hwatch c.programs.values (c.programs.values.map fun q => q.toCorePlan.setup)
      (fun q hq => hq) ?_⟩
  rw [List.forall₂_map_right_iff, List.forall₂_same]
  intro q hq
  obtain ⟨core, -, rfl⟩ := hfrom.mem_programs.1 hq
  exact CorePlan.play_assemble (hfrom.playable core)

end TrafficLab
