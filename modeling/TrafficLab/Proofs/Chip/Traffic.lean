import TrafficLab.Proofs.Chip.Offers

/-!
# The traffic of compiled programs

In the programs of a specification a sink watches one source, that of its own flow.  So whichever
cores run together, the packets offered to a sink are those that this source has sent; and when all
of them run, at every tick each sink has received no more than that, all of it if nothing gets lost
and cores take packets, and nothing if they do not.

    a source with a flow's core and key = the source of the flow     (flow_of_source)
    offered to a sink of f = sent by the source of f                 (sent_eq_offered)
-/

namespace TrafficLab

theorem RoutingKey.eq_of_val {a b : RoutingKey} (h : a.val = b.val) : a = b := by
  cases a
  cases b
  exact congrArg RoutingKey.mk h

namespace CorePlan

variable (p : CorePlan)

theorem getElem?_setup_sources (i : Nat) :
    p.setup.sources[i]? = p.sources[i]?.map (·.setup) := by
  unfold setup
  rw [List.getElem?_toArray, List.getElem?_map]

theorem getElem?_setup_sinks (j : Nat) : p.setup.sinks[j]? = p.sinks[j]?.map (·.setup) := by
  unfold setup
  rw [List.getElem?_toArray, List.getElem?_map]

theorem size_setup_sinks : p.setup.sinks.size = p.sinks.length := by
  unfold setup
  rw [List.size_toArray, List.length_map]

end CorePlan

/-- The setups of all cores that take part. -/
def ValidSpec.setups (v : ValidSpec) (flows : List PlannedFlow) : List Setup :=
  v.participants.keys.map fun core => (v.corePlan flows core).setup

namespace Compiled.From

variable {v : ValidSpec} {flows : List PlannedFlow} {c : Compiled} (h : c.From v flows)

include h

omit h in
theorem getElem?_setups {d : Nat} {core : CoreId} (hd : v.participants.keys[d]? = some core) :
    (v.setups flows)[d]? = some (v.corePlan flows core).setup := by
  unfold ValidSpec.setups
  rw [List.getElem?_map, hd]
  rfl

theorem getElem?_values {d : Nat} {core : CoreId} (hd : v.participants.keys[d]? = some core) :
    c.programs.values[d]? = some (v.corePlan flows core).assemble := by
  rw [h.values_programs, List.getElem?_map, hd]
  rfl

theorem setups_of_values :
    (c.programs.values.map fun q => q.toCorePlan.setup) = v.setups flows := by
  rw [h.values_programs, List.map_map]
  rfl

theorem values_nodup : c.programs.values.Nodup := by
  rw [h.values_programs]
  refine v.participants.keys_nodup.map fun a b hab => ?_
  exact congrArg (fun p : Program => p.core) hab

/-! ## Sources and sinks -/

omit h in
theorem getElem?_sources (core : CoreId) (i : Nat) : (v.corePlan flows core).sources[i]? =
    ((flows.filter fun g => g.sentBy core)[i]?).map Compilation.sourceRole :=
  List.getElem?_map

omit h in
theorem getElem?_sinks (core : CoreId) (j : Nat) : (v.corePlan flows core).sinks[j]? =
    ((flows.filter fun g => g.receivedBy core)[j]?).map Compilation.sinkRole :=
  List.getElem?_map

/-- A source with the core and the key of a flow is the source of that flow. -/
theorem flow_of_source {f : PlannedFlow} (hf : f ∈ flows) {q : Program}
    (hq : q ∈ c.programs.values) (hcore : f.route.source = q.core) {i : Nat} {x : SourceRole}
    (hx : q.sources[i]? = some x) (hkey : f.key.val = x.key.val) :
    q = (v.corePlan flows f.route.source).assemble ∧
      (flows.filter fun g => g.sentBy f.route.source)[i]? = some f := by
  obtain ⟨core, -, rfl⟩ := h.mem_programs.1 hq
  obtain rfl : f.route.source = core := hcore
  obtain ⟨g, hg, rfl⟩ := Option.map_eq_some_iff.1 ((getElem?_sources _ _).symm.trans hx)
  obtain ⟨hmem, hsource⟩ := List.mem_filter.1 (List.mem_of_getElem? hg)
  have hgf : f = g := h.eq_of_source_of_key hf hmem (beq_iff_eq.1 hsource).symm
    (RoutingKey.eq_of_val hkey)
  rw [← hgf] at hg
  exact ⟨rfl, hg⟩

/-- The core of a flow has its source. -/
theorem exists_source_of_flow {f : PlannedFlow} (hf : f ∈ flows) {q : Program}
    (hq : q ∈ c.programs.values) (hcore : q.core = f.route.source) :
    ∃ i : Nat, q.sources[i]? = some (Compilation.sourceRole f) := by
  obtain ⟨core, -, rfl⟩ := h.mem_programs.1 hq
  obtain rfl : core = f.route.source := hcore
  refine List.getElem?_of_mem ?_
  show _ ∈ (flows.filter fun g => g.sentBy f.route.source).map Compilation.sourceRole
  exact List.mem_map_of_mem (List.mem_filter.2 ⟨hf, beq_self_eq_true _⟩)

section
variable {ps : List Program} (hps : ∀ q ∈ ps, q ∈ c.programs.values) (hnodup : ps.Nodup)

include hps hnodup

/-- Among the cores that run there is one source with the core and the key of a flow. -/
theorem source_place_eq {f : PlannedFlow} (hf : f ∈ flows) {d d' i i' : Nat} {p p' : Program}
    {x x' : SourceRole} (hp : ps[d]? = some p) (hp' : ps[d']? = some p')
    (hx : p.sources[i]? = some x) (hx' : p'.sources[i']? = some x')
    (hcore : f.route.source = p.core) (hcore' : f.route.source = p'.core)
    (hkey : f.key.val = x.key.val) (hkey' : f.key.val = x'.key.val) : d' = d ∧ i' = i := by
  obtain ⟨hplan, hi⟩ := h.flow_of_source hf (hps p (List.mem_of_getElem? hp)) hcore hx hkey
  obtain ⟨hplan', hi'⟩ := h.flow_of_source hf (hps p' (List.mem_of_getElem? hp')) hcore' hx' hkey'
  refine ⟨?_, h.place_eq hi hi' rfl⟩
  obtain ⟨hlt, hp⟩ := List.getElem?_eq_some_iff.1 hp
  obtain ⟨hlt', hp'⟩ := List.getElem?_eq_some_iff.1 hp'
  have hsame : ps[d'] = ps[d] := hp'.trans (hplan'.trans (hplan.symm.trans hp.symm))
  exact (List.Nodup.getElem_inj_iff hnodup).1 hsame

/-- Whichever cores run, what is offered to a sink of a flow is what the flow's source has sent. -/
theorem sent_eq_offered {run : Run}
    (hshape : run.senders.map Sender.shape = Run.shapes (ps.map fun q => q.toCorePlan.setup))
    {f : PlannedFlow} (hf : f ∈ flows) {d i e j : Nat} {p q : Program} (hp : ps[d]? = some p)
    (hcore : p.core = f.route.source) (hx : p.sources[i]? = some (Compilation.sourceRole f))
    (hq : ps[e]? = some q) (hr : q.sinks[j]? = some (Compilation.sinkRole f)) :
    run.sent? d i = some (offered e j run.senders) := by
  have hsink : q.toCorePlan.setup.sinks[j]? = some (Compilation.sinkRole f).setup := by
    rw [CorePlan.getElem?_setup_sinks, hr]
    rfl
  have hsrc : p.toCorePlan.setup.sources[i]? = some (Compilation.sourceRole f).setup := by
    rw [CorePlan.getElem?_setup_sources, hx]
    rfl
  refine Run.offered_eq_sent hshape (getElem?_map_setup hq) hsink (getElem?_map_setup hp) hsrc
    ⟨hcore.symm, rfl⟩ fun d' i' s' src' hs' hsrc' hcore' hkey' => ?_
  rw [List.getElem?_map] at hs'
  obtain ⟨p', hp', rfl⟩ := Option.map_eq_some_iff.1 hs'
  rw [CorePlan.getElem?_setup_sources] at hsrc'
  obtain ⟨x', hx', rfl⟩ := Option.map_eq_some_iff.1 hsrc'
  exact h.source_place_eq hps hnodup hf hp hp' hx hx' hcore.symm hcore' rfl hkey'

end

/-! ## Whole experiments -/

section
variable {loss : Loss} {consume : Bool} {elapsed : Nat} {run : Run}
  (hrun : run.Sound (v.setups flows) loss consume elapsed)

include hrun

/-- What is offered to a sink is what the source of its flow has sent. -/
theorem offered_eq {f : PlannedFlow} (hf : f ∈ flows) {d i e j : Nat} {core : CoreId}
    (hd : v.participants.keys[d]? = some f.route.source)
    (hi : (flows.filter fun g => g.sentBy f.route.source)[i]? = some f)
    (he : v.participants.keys[e]? = some core)
    (hj : (flows.filter fun x => x.receivedBy core)[j]? = some f) :
    run.sent? d i = some (offered e j run.senders) := by
  have hshape : run.senders.map Sender.shape = Run.shapes (v.setups flows) := hrun.shape
  rw [← h.setups_of_values] at hshape
  refine h.sent_eq_offered (fun q hq => hq) h.values_nodup hshape hf (h.getElem?_values hd) rfl ?_
    (h.getElem?_values he) ?_
  · exact (getElem?_sources _ _).trans (congrArg (Option.map Compilation.sourceRole) hi)
  · exact (getElem?_sinks _ _).trans (congrArg (Option.map Compilation.sinkRole) hj)

omit h in
/-- A source has sent at most one packet in each tick. -/
theorem exists_sent {f : PlannedFlow} {d i : Nat}
    (hd : v.participants.keys[d]? = some f.route.source)
    (hi : (flows.filter fun g => g.sentBy f.route.source)[i]? = some f) :
    ∃ a, run.sent? d i = some a ∧ a ≤ elapsed := by
  have hsrc : (v.corePlan flows f.route.source).setup.sources[i]? =
      some (Compilation.sourceRole f).setup := by
    rw [CorePlan.getElem?_setup_sources, getElem?_sources, hi]
    rfl
  obtain ⟨snd, x, hsnd, hx⟩ := Run.exists_source_of_setup hrun.shape (getElem?_setups hd) hsrc
  refine ⟨x.sent, ?_, Nat.le_trans (Nat.le_add_right _ _)
    (hrun.wanted_le snd (List.mem_of_getElem? hsnd) x (List.mem_of_getElem? hx))⟩
  unfold Run.sent?
  rw [hsnd, Option.bind_some, hx]
  rfl

/-- Each sink has received what it may have of what its flow's source has sent. -/
theorem exists_accounted {f : PlannedFlow} (hf : f ∈ flows) {d i e j : Nat} {core : CoreId}
    (hd : v.participants.keys[d]? = some f.route.source)
    (hi : (flows.filter fun g => g.sentBy f.route.source)[i]? = some f)
    (he : v.participants.keys[e]? = some core)
    (hj : (flows.filter fun x => x.receivedBy core)[j]? = some f) :
    ∃ a r, run.sent? d i = some a ∧ received? run.receivers e j = some r ∧
      Accounted loss consume a r := by
  have hlt : j < (v.corePlan flows core).setup.sinks.size := by
    have hrole := (getElem?_sinks (v := v) core j).trans (congrArg (Option.map _) hj)
    rw [CorePlan.size_setup_sinks]
    exact (List.getElem?_eq_some_iff.1 hrole).1
  obtain ⟨r, hr, haccounted⟩ := hrun.received (getElem?_setups he) hlt
  exact ⟨_, r, h.offered_eq hrun hf hd hi he hj, hr, haccounted⟩

end

end Compiled.From

end TrafficLab
