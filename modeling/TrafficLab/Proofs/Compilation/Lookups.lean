import Mathlib.Algebra.Group.Defs
import TrafficLab.Proofs.Compilation.LeastKeys
import TrafficLab.Proofs.Compilation.StartTicks
import TrafficLab.Proofs.Compilation.Tables
import TrafficLab.Proofs.Spec.WellFormed

/-!
# No look-up misses

A compiler that works from tables finds all that it looks up in them, so it always comes to a result
or an error: to those of `compile`, which has no tables to look anything up in.

The tables of keys, timings and flows have the flows of the specification, as validation has left
them, and so has the table of routes (`Complete`).  A core that has a role in a flow has its layout,
which lists the flows in which the core has one (`layoutOf_laidOut`).

    s.validate = .ok v → validate s = .ok (routed v)                                (validate_eq)
    a stage is done with what the stage of `compile` comes to         (assignKeys_eq, layOut_eq, …)
    s.validate = .ok v → ∃ r, … ∧ (compile r).run = some (compile v)          (lookups_never_miss)
-/

namespace TrafficLab

open Checked

namespace Lookups

/-! ## Stages that do not stop -/

section
variable {α β γ : Type}

theorem done_bind {x : Except CompileError α} {f : α → Except CompileError β} {g : α → Stage β}
    (h : ∀ a, x = .ok a → g a = done (f a)) : (done x >>= g) = done (x >>= f) := by
  cases x with
  | error e => rfl
  | ok a => exact h a rfl

theorem done_map_bind {x : Except CompileError α} {k : α → β} {f : α → Except CompileError γ}
    {g : β → Stage γ} (h : ∀ a, x = .ok a → g (k a) = done (f a)) :
    (done (x.map k) >>= g) = done (x >>= f) := by
  cases x with
  | error e => rfl
  | ok a => exact h a rfl

theorem done_ok_bind (a : α) (g : α → Stage β) : (done (.ok a) >>= g) = g a := rfl

theorem require_eq {p : Prop} [Decidable p] (h : p) : require p = done (.ok ()) := if_pos h

theorem lookUp_eq {κ : Type} [Keyed κ] {t : Table κ α} {k : κ} {x : α} (h : t.get? k = some x) :
    lookUp t k = done (.ok x) := by
  unfold lookUp
  rw [h]
  rfl

theorem mapM_eq {l : List α} {f : α → Except CompileError β} {g : α → Stage β}
    (h : ∀ a ∈ l, g a = done (f a)) : l.mapM g = done (l.mapM f) := by
  induction l with
  | nil => rfl
  | cons a rest ih =>
    rw [List.mapM_cons, List.mapM_cons, h a List.mem_cons_self]
    refine done_bind fun b _ => ?_
    rw [ih fun c hc => h c (List.mem_cons_of_mem a hc)]
    exact done_bind fun bs _ => rfl

/-- What is found for every entry is what the entries are mapped to. -/
theorem mapM_eq_ok {l : List α} {f : α → β} {g : α → Stage β}
    (h : ∀ a ∈ l, g a = done (.ok (f a))) : l.mapM g = done (.ok (l.map f)) := by
  rw [mapM_eq (f := fun a => .ok (f a)) h, Checked.mapM_eq_ok.2]
  rw [List.forall₂_map_right_iff, List.forall₂_same]
  exact fun _ _ => rfl

end

/-! ## Validation -/

/-- What validation hands on of a valid specification. -/
def routed (v : ValidSpec) : RoutedSpec where
  spec := v.spec
  fabric := v.fabric
  flows := v.flows.values.map (·.toFlow)
  routes := v.flows.map fun _ f => f.route

/-- The identifiers and the routes of flows that have been checked. -/
def found (checked : Table FlowId RoutedFlow) : KeySet FlowId × Table FlowId FlowRoute :=
  (checked.map fun _ _ => (), checked.map fun _ f => f.route)

theorem addRoute_found (fabric : Fabric) (duration : Nanosecs) (checked : Table FlowId RoutedFlow)
    (flow : Flow) : addRoute fabric duration (found checked) flow =
      (addFlow fabric duration checked flow).map found := by
  unfold addRoute addFlow
  rw [show (found checked).1.contains flow.id = _ from Table.contains_map _ checked flow.id]
  split
  · rfl
  · cases flow.check fabric duration with
    | error fault => rfl
    | ok f =>
      show Except.ok _ = Except.ok _
      unfold found KeySet.add
      rw [Table.map_insert, Table.map_insert]

theorem foldlM_addRoute (fabric : Fabric) (duration : Nanosecs) (flows : List Flow)
    (checked : Table FlowId RoutedFlow) :
    flows.foldlM (addRoute fabric duration) (found checked) =
      (flows.foldlM (addFlow fabric duration) checked).map found := by
  induction flows generalizing checked with
  | nil => rfl
  | cons flow rest ih =>
    rw [List.foldlM_cons, List.foldlM_cons, addRoute_found]
    cases addFlow fabric duration checked flow with
    | error e => rfl
    | ok next => exact ih next

theorem inOrder_eq_true {f g : Flow} : inOrder f g = true ↔ f.id.val ≤ g.id.val :=
  decide_eq_true_iff

/-- Sorted by their identifiers, the flows of a listing are those of its table. -/
theorem mergeSort_flows {s : Spec} {v : ValidSpec} (hv : s.validate = .ok v) :
    s.flows.mergeSort inOrder = v.flows.values.map (·.toFlow) := by
  obtain ⟨checked, hchecked⟩ := Spec.validate_eq_ok.1 hv
  obtain ⟨-, hsound⟩ := Spec.sound_of_validate hv
  have htrans : ∀ a b c, inOrder a b = true → inOrder b c = true → inOrder a c = true := by
    intro a b c hab hbc
    exact inOrder_eq_true.2 (UInt32.le_trans (inOrder_eq_true.1 hab) (inOrder_eq_true.1 hbc))
  have htotal : ∀ a b, (inOrder a b || inOrder b a) = true := by
    intro a b
    rw [Bool.or_eq_true, inOrder_eq_true, inOrder_eq_true]
    exact UInt32.le_total a.id.val b.id.val
  have hsorted := List.pairwise_mergeSort htrans htotal s.flows
  have hvalues : (v.flows.values.map (·.toFlow)).Pairwise fun f g => inOrder f g = true :=
    List.pairwise_map.2 (hsound.ascending.imp fun hlt => inOrder_eq_true.2 (UInt32.le_of_lt hlt))
  have hperm := hchecked.perm_toFlow hsound
  refine List.Perm.eq_of_pairwise ?_ hsorted hvalues ((List.mergeSort_perm _ _).trans hperm.symm)
  intro f g hf hg hfg hgf
  have hid : f.id = g.id := congrArg Id.mk
    (UInt32.le_antisymm (inOrder_eq_true.1 hfg) (inOrder_eq_true.1 hgf))
  exact List.inj_on_of_nodup_map hchecked.ids ((List.mergeSort_perm _ _).mem_iff.1 hf)
    (hperm.mem_iff.1 hg) hid

theorem validate_eq {s : Spec} {v : ValidSpec} (hv : s.validate = .ok v) :
    validate s = .ok (routed v) := by
  have hsorted := mergeSort_flows hv
  unfold Spec.validate at hv
  obtain ⟨⟨⟩, htiming, hv⟩ := bind_eq_ok.1 hv
  obtain ⟨fabric, hfabric, hv⟩ := bind_eq_ok.1 hv
  obtain ⟨flows, hflows, hv⟩ := bind_eq_ok.1 hv
  cases hv
  have hfound := foldlM_addRoute fabric s.duration s.flows .empty
  rw [hflows] at hfound
  unfold validate
  refine bind_eq_ok.2 ⟨(), htiming, bind_eq_ok.2 ⟨fabric, hfabric, ?_⟩⟩
  refine bind_eq_ok.2 ⟨found flows, hfound, ?_⟩
  rw [hsorted]
  rfl

/-! ## Times -/

section
variable {timestep : Nanosecs} (hpos : 0 < timestep.toNat)

include hpos

theorem roundTicks_eq {t : Nanosecs} (hfits : t.toNat + timestep.toNat / 2 < 2 ^ 64) :
    roundTicks timestep t = done (.ok (Nanosecs.roundTicks timestep t)) := by
  have hhalf : (⟨timestep.count / 2⟩ : Nanosecs).toNat = timestep.toNat / 2 :=
    UInt64.toNat_div timestep.count 2
  obtain ⟨later, hlater⟩ : ∃ q, t.add? ⟨timestep.count / 2⟩ = some q :=
    Quantity.exists_ofNat? (by rwa [hhalf])
  have hsum : later.toNat = t.toNat + timestep.toNat / 2 := by
    rw [Quantity.ofNat?_eq_some.1 hlater, hhalf]
  unfold roundTicks Nanosecs.roundTicks
  rw [hlater, require_eq (Quantity.pos_iff.1 hpos), ← hsum]
  rfl

theorem ceilTicks_eq (t : Nanosecs) :
    ceilTicks timestep t = done (.ok (Nanosecs.ceilTicks timestep t)) := by
  have hsplit := Nat.div_add_mod t.toNat timestep.toNat
  have hmod := Nat.mod_lt t.toNat hpos
  rw [Nat.mul_comm] at hsplit
  have hceil : (if t.toNat % timestep.toNat = 0 then t.toNat / timestep.toNat
      else t.toNat / timestep.toNat + 1) = Nanosecs.ceilTicks timestep t := by
    symm
    split
    · refine Nat.div_eq_of_lt_le (by omega) ?_
      rw [Nat.succ_mul]
      omega
    · refine Nat.div_eq_of_lt_le ?_ ?_
      · rw [Nat.succ_mul]
        omega
      · rw [Nat.succ_mul, Nat.succ_mul]
        omega
  unfold ceilTicks
  rw [require_eq (Quantity.pos_iff.1 hpos), done_ok_bind, ← hceil]

end

theorem get?_addStart (starts : Table GroupId Nanosecs) (flow : Flow) (group : GroupId) :
    (addStart starts flow).get? group =
      if flow.group = some group then
        let latest := (starts.get? group).getD ⟨0⟩
        some (if latest.count < flow.start.count then flow.start else latest)
      else starts.get? group := by
  unfold addStart
  cases hgroup : flow.group with
  | none => rfl
  | some own =>
    by_cases h : own = group
    · subst h
      simp
    · rw [if_neg fun e => h (Option.some.inj e)]
      exact Table.get?_insert_of_ne _ (Ne.symm h) _

/-- The start of a group that has flows is the latest of theirs. -/
theorem get?_foldl_addStart (flows : List RoutedFlow) (group : GroupId)
    (starts : Table GroupId Nanosecs) :
    ((flows.map (·.toFlow)).foldl addStart starts).get? group =
      if ∃ f ∈ flows, f.group = some group then
        some ((flows.filter fun f => f.group == some group).foldl
          (fun latest f => if latest.count < f.start.count then f.start else latest)
          ((starts.get? group).getD ⟨0⟩))
      else starts.get? group := by
  induction flows generalizing starts with
  | nil => simp
  | cons g rest ih =>
    rw [List.map_cons, List.foldl_cons, ih, get?_addStart]
    by_cases hg : g.group = some group
    · have hself : ∃ h ∈ g :: rest, h.group = some group := ⟨g, List.mem_cons_self, hg⟩
      rw [if_pos hg, if_pos hself, List.filter_cons_of_pos (by simpa using hg)]
      split
      · rfl
      · next hnone =>
        have hrest : rest.filter (fun h => h.group == some group) = [] := by
          simpa using hnone
        rw [hrest]
        rfl
    · rw [if_neg hg, List.filter_cons_of_neg (by simpa using hg)]
      simp only [List.mem_cons, exists_eq_or_imp, hg, false_or]

/-- Every group of a flow has its start. -/
theorem get?_groupStarts {flows : List RoutedFlow} {f : RoutedFlow} (hf : f ∈ flows)
    {group : GroupId} (hgroup : f.group = some group) :
    (groupStarts (flows.map (·.toFlow))).get? group =
      some (Compilation.groupStart flows group) :=
  (get?_foldl_addStart flows group .empty).trans (if_pos ⟨f, hf, hgroup⟩)

/-! ## Timings -/

section
variable {s : Spec} {flows : List RoutedFlow} (hpos : 0 < s.timestep.toNat)
  (hrun : s.runTicks < UInt32.size)

include hpos

theorem startTick_eq {f : RoutedFlow} (hf : f ∈ flows)
    (hfits : f.start.toNat + s.timestep.toNat / 2 < 2 ^ 64) :
    startTick s.timestep (groupStarts (flows.map (·.toFlow))) f.toFlow =
      done (.ok (Compilation.startTick s.timestep flows f.toFlow)) := by
  unfold startTick Compilation.startTick
  cases hgroup : f.group with
  | none => exact roundTicks_eq hpos hfits
  | some group =>
    simp only
    rw [lookUp_eq (get?_groupStarts hf hgroup), done_ok_bind]
    exact ceilTicks_eq hpos _

def timingOf (f : PlannedFlow) : Timing := ⟨f.schedule, f.firstTick⟩

theorem timing_eq {f : KeyedFlow} (hf : f.toRoutedFlow ∈ flows)
    (hfits : f.start.toNat + s.timestep.toNat / 2 < 2 ^ 64) :
    timing s.timestep s.runTicks (groupStarts (flows.map (·.toFlow))) f.toFlow =
      done ((Compilation.plan s.timestep s.runTicks flows f).map timingOf) := by
  unfold timing Compilation.plan
  cases f.generation.schedule s.timestep with
  | error e => cases e <;> rfl
  | ok schedule =>
    simp only
    rw [startTick_eq hpos hf hfits, done_ok_bind]
    split <;> rfl

include hrun

theorem timings_eq {keyed : List KeyedFlow} (hkeyed : ∀ f ∈ keyed, f.toRoutedFlow ∈ flows)
    (hfits : ∀ f ∈ keyed, f.start.toNat + s.timestep.toNat / 2 < 2 ^ 64)
    (found : Table FlowId Timing) :
    timings s.timestep s.runTicks (groupStarts (flows.map (·.toFlow))) found
        (keyed.map (·.toFlow)) =
      done ((keyed.mapM (Compilation.plan s.timestep s.runTicks flows)).map fun planned =>
        planned.foldl (fun t f => t.insert f.id (timingOf f)) found) := by
  induction keyed generalizing found with
  | nil => rfl
  | cons f rest ih =>
    have hrest := ih (fun g hg => hkeyed g (List.mem_cons_of_mem f hg))
      (fun g hg => hfits g (List.mem_cons_of_mem f hg))
    rw [List.map_cons, timings, List.mapM_cons,
      timing_eq hpos (hkeyed f List.mem_cons_self) (hfits f List.mem_cons_self)]
    cases hplan : Compilation.plan s.timestep s.runTicks flows f with
    | error e => rfl
    | ok g =>
      obtain ⟨rfl, -⟩ := plan_eq_ok hrun hplan
      refine (hrest _).trans ?_
      cases rest.mapM (Compilation.plan s.timestep s.runTicks flows) <;> rfl

end

/-! ## Keys -/

theorem choose_eq {fabric : Fabric} {f : RoutedFlow} (hp : f.route.Placed fabric)
    (held : List Keys.Holding) : choose fabric held f = done (Keys.choose fabric held f) := by
  obtain ⟨region, bits, hbest, hnarrowest⟩ := Keys.exists_narrowest hp
  have hle := fabric.keyBits_le hnarrowest.keyBits
  unfold choose
  rw [require_eq, done_ok_bind]
  intro best hmem
  rw [hbest] at hmem
  cases hmem
  exact Nat.lt_of_le_of_lt (UInt8.le_iff_toNat_le.1 hle) (by decide)

theorem assignKeys_eq {fabric : Fabric} {routes : Table FlowId FlowRoute} {flows : List RoutedFlow}
    (hroutes : ∀ f ∈ flows, routes.get? f.id = some f.route)
    (hplaced : ∀ f ∈ flows, f.route.Placed fabric) (held : List Keys.Holding)
    (keys : Table FlowId RoutingKey) :
    assignKeys fabric routes held keys (flows.map (·.toFlow)) =
      done ((Keys.assign fabric held flows).map fun keyed =>
        keyed.foldl (fun t f => t.insert f.id f.key) keys) := by
  induction flows generalizing held keys with
  | nil => rfl
  | cons f rest ih =>
    have hrest := ih (fun g hg => hroutes g (List.mem_cons_of_mem f hg))
      (fun g hg => hplaced g (List.mem_cons_of_mem f hg))
    rw [List.map_cons, assignKeys, lookUp_eq (hroutes f List.mem_cons_self), done_ok_bind,
      choose_eq (f := { f.toFlow with route := f.route }) (hplaced f List.mem_cons_self), Keys.assign]
    cases Keys.choose fabric held f with
    | error e => rfl
    | ok index =>
      refine (hrest _ _).trans ?_
      simp only [bind, Except.bind]
      cases Keys.assign fabric (⟨f.route.regions, index⟩ :: held) rest <;> rfl

/-! ## Layouts -/

theorem layoutOf_update (layouts : Table CoreId CoreLayout) (core c : CoreId)
    (change : CoreLayout → CoreLayout) :
    layoutOf (update layouts core change) c =
      if core = c then change (layoutOf layouts c) else layoutOf layouts c := by
  by_cases h : core = c
  · subst h
    simp [layoutOf, update]
  · have hother : (update layouts core change).get? c = layouts.get? c :=
      Table.get?_insert_of_ne _ (Ne.symm h) _
    rw [if_neg h, layoutOf, hother, layoutOf]

theorem layoutOf_foldl_update (cores : List CoreId) (hnodup : cores.Nodup)
    (layouts : Table CoreId CoreLayout) (c : CoreId) (change : CoreLayout → CoreLayout) :
    layoutOf (cores.foldl (fun layouts core => update layouts core change) layouts) c =
      if c ∈ cores then change (layoutOf layouts c) else layoutOf layouts c := by
  induction cores generalizing layouts with
  | nil => simp
  | cons core rest ih =>
    obtain ⟨hnew, hrest⟩ := List.nodup_cons.1 hnodup
    rw [List.foldl_cons, ih hrest, layoutOf_update]
    by_cases h : core = c
    · subst h
      rw [if_neg hnew, if_pos rfl, if_pos List.mem_cons_self]
    · simp [h, Ne.symm h]

theorem mem_keys_foldl_update (cores : List CoreId) (layouts : Table CoreId CoreLayout)
    (c : CoreId) (change : CoreLayout → CoreLayout) :
    c ∈ (cores.foldl (fun layouts core => update layouts core change) layouts).keys ↔
      c ∈ cores ∨ c ∈ layouts.keys := by
  induction cores generalizing layouts with
  | nil => simp
  | cons core rest ih =>
    rw [List.foldl_cons, ih, update, Table.mem_keys_insert, List.mem_cons]
    tauto

/-- What becomes of the layout of a core when a flow is added. -/
def grown (f : RoutedFlow) (core : CoreId) (l : CoreLayout) : CoreLayout :=
  let l := if f.sentBy core then l.addSource f.toFlow else l
  if f.receivedBy core then l.addSink f.toFlow else l

section
variable {f : RoutedFlow} (hnodup : f.route.sinks.Nodup) (layouts : Table CoreId CoreLayout)
  (core : CoreId)

include hnodup

theorem layoutOf_addRoles : layoutOf (addRoles layouts f.toFlow f.route) core =
    grown f core (layoutOf layouts core) := by
  unfold addRoles grown RoutedFlow.sentBy RoutedFlow.receivedBy
  rw [layoutOf_foldl_update _ hnodup, layoutOf_update]
  simp only [beq_iff_eq, List.contains_iff_mem]

theorem load_addRoles {loads : Table CoreId Layout.Load}
    (hload : Layout.loadOf loads core = (layoutOf layouts core).load) :
    Layout.loadOf (Layout.addFlow loads f) core =
      (layoutOf (addRoles layouts f.toFlow f.route) core).load := by
  have hcount : f.route.sinks.count core = if f.receivedBy core then 1 else 0 := by
    rw [hnodup.count]
    simp only [RoutedFlow.receivedBy, List.contains_iff_mem]
  rw [Layout.loadOf_addFlow, layoutOf_addRoles hnodup, hload, hcount]
  unfold grown CoreLayout.load
  by_cases hs : f.sentBy core = true <;> by_cases hr : f.receivedBy core = true <;>
    simp [hs, hr, CoreLayout.addSource, CoreLayout.addSink]

omit hnodup in
theorem mem_keys_addRoles : core ∈ (addRoles layouts f.toFlow f.route).keys ↔
    core ∈ f.route.cores ∨ core ∈ layouts.keys := by
  unfold addRoles FlowRoute.cores
  rw [mem_keys_foldl_update, update, Table.mem_keys_insert, List.mem_cons]
  tauto

end

theorem forM_checkCore {layouts : Table CoreId CoreLayout} {cores : List CoreId}
    (h : ∀ core ∈ cores, core ∈ layouts.keys) :
    cores.forM (checkCore layouts) =
      done (match cores.find? fun core => Layout.overloaded (layoutOf layouts core).load with
        | some core => .error (.tooManyEndpoints core (layoutOf layouts core).load.sources
            (layoutOf layouts core).load.sinks)
        | none => .ok ()) := by
  induction cores with
  | nil => rfl
  | cons core rest ih =>
    obtain ⟨l, hl⟩ := Table.mem_keys.1 (h core List.mem_cons_self)
    have hlayout : layoutOf layouts core = l := by rw [layoutOf, hl, Option.getD_some]
    show (checkCore layouts core >>= fun _ => rest.forM (checkCore layouts)) = _
    rw [checkCore, lookUp_eq hl, done_ok_bind, List.find?_cons, hlayout]
    cases hload : Layout.overloaded l.load with
    | true =>
      simp only [if_true]
      rw [hlayout]
      rfl
    | false => exact ih fun c hc => h c (List.mem_cons_of_mem core hc)

/-- The layouts of the flows, added one by one. -/
def laidOut (layouts : Table CoreId CoreLayout) (flows : List RoutedFlow) :
    Table CoreId CoreLayout :=
  flows.foldl (fun layouts f => addRoles layouts f.toFlow f.route) layouts

theorem layOut_eq {routes : Table FlowId FlowRoute} {flows : List RoutedFlow}
    (hroutes : ∀ f ∈ flows, routes.get? f.id = some f.route)
    (hnodup : ∀ f ∈ flows, f.route.sinks.Nodup) {loads : Table CoreId Layout.Load}
    {layouts : Table CoreId CoreLayout}
    (hloads : ∀ core, Layout.loadOf loads core = (layoutOf layouts core).load) :
    layOut routes layouts (flows.map (·.toFlow)) =
      done ((Layout.check loads flows).map fun _ => laidOut layouts flows) := by
  induction flows generalizing loads layouts with
  | nil => rfl
  | cons f rest ih =>
    have hself := hnodup f List.mem_cons_self
    have hnext := fun core => load_addRoles hself layouts core (hloads core)
    rw [List.map_cons, layOut, lookUp_eq (hroutes f List.mem_cons_self), done_ok_bind]
    simp only
    rw [forM_checkCore fun core hcore => (mem_keys_addRoles layouts core).2 (.inl hcore),
      Layout.check]
    simp only [hnext]
    cases f.route.cores.find? fun core =>
      Layout.overloaded (layoutOf (addRoles layouts f.toFlow f.route) core).load with
    | some core => rfl
    | none =>
      exact ih (fun g hg => hroutes g (List.mem_cons_of_mem f hg))
        (fun g hg => hnodup g (List.mem_cons_of_mem f hg)) hnext

/-- The identifiers of the flows in which a core has a certain role. -/
def idsOf (flows : List RoutedFlow) (role : RoutedFlow → Bool) : List FlowId :=
  (flows.filter role).map (·.id)

theorem layoutOf_laidOut {flows : List RoutedFlow} (hnodup : ∀ f ∈ flows, f.route.sinks.Nodup)
    (layouts : Table CoreId CoreLayout) (core : CoreId) :
    layoutOf (laidOut layouts flows) core =
      let l := layoutOf layouts core
      { sources := l.sources ++ idsOf flows (·.sentBy core)
        sinks := l.sinks ++ idsOf flows (·.receivedBy core)
        slots := l.slots ++ Layout.flowSlots core l.sources.length l.sinks.length flows } := by
  induction flows generalizing layouts with
  | nil => simp [laidOut, idsOf, Layout.flowSlots]
  | cons f rest ih =>
    refine (ih (fun g hg => hnodup g (List.mem_cons_of_mem f hg)) _).trans ?_
    rw [layoutOf_addRoles (hnodup f List.mem_cons_self)]
    by_cases hs : f.sentBy core = true <;> by_cases hr : f.receivedBy core = true <;>
      simp [hs, hr, grown, idsOf, Layout.flowSlots, CoreLayout.addSource, CoreLayout.addSink]

theorem mem_keys_laidOut {flows : List RoutedFlow} {layouts : Table CoreId CoreLayout}
    {core : CoreId} : core ∈ (laidOut layouts flows).keys ↔
      (∃ f ∈ flows, core ∈ f.route.cores) ∨ core ∈ layouts.keys := by
  induction flows generalizing layouts with
  | nil => simp [laidOut]
  | cons f rest ih =>
    rw [laidOut, List.foldl_cons]
    refine ih.trans ?_
    rw [mem_keys_addRoles]
    simp only [List.mem_cons, exists_eq_or_imp]
    exact or_left_comm.trans or_assoc.symm

/-- The layout that a core has in the end. -/
def finalLayout (record : CounterSet) (flows : List RoutedFlow) (core : CoreId) : CoreLayout where
  sources := idsOf flows (·.sentBy core)
  sinks := idsOf flows (·.receivedBy core)
  slots := Layout.slots core record flows

/-- All cores that take part have their layouts, and no others. -/
theorem entries_laidOut {v : ValidSpec} (hv : v.Sound) (record : CounterSet) :
    ((laidOut .empty v.flows.values).map fun _ l => l.addRouter record).entries =
      v.participants.keys.map fun core => (core, finalLayout record v.flows.values core) := by
  have hkeys : ((laidOut .empty v.flows.values).map fun _ l => l.addRouter record).keys =
      v.participants.keys := by
    refine KeySet.keys_eq_of_mem fun core => ?_
    rw [Table.keys_map, mem_keys_laidOut, ValidSpec.mem_participants]
    simp
  have hentry : ∀ e ∈ (laidOut .empty v.flows.values).entries,
      (e.1, e.2.addRouter record) = (e.1, finalLayout record v.flows.values e.1) := by
    intro e he
    have hlayout : layoutOf (laidOut .empty v.flows.values) e.1 = e.2 := by
      rw [layoutOf, Table.mem_entries.1 he, Option.getD_some]
    have hnodup : ∀ f ∈ v.flows.values, f.route.sinks.Nodup :=
      fun f hf => (hv.sound_of_mem hf).placed.sinks_nodup
    rw [← hlayout, layoutOf_laidOut hnodup]
    simp [layoutOf, CoreLayout.empty, CoreLayout.addRouter, finalLayout, Layout.slots]
  rw [← hkeys, Table.keys, Table.map, List.map_map, List.map_map]
  exact List.map_congr_left hentry

/-! ## Programs -/

/-- Every planned flow is found in all tables. -/
structure Complete (r : RoutedSpec) (parts : Parts) (planned : List PlannedFlow) : Prop where
  routes : ∀ f ∈ planned, r.routes.get? f.id = some f.route
  flows : ∀ f ∈ planned, (flowTable r).get? f.id = some f.toFlow
  keys : ∀ f ∈ planned, parts.keys.get? f.id = some f.key
  timings : ∀ f ∈ planned, parts.timings.get? f.id = some (timingOf f)

section
variable {r : RoutedSpec} {parts : Parts} {planned : List PlannedFlow}
  (h : Complete r parts planned)

include h

theorem source_eq {f : PlannedFlow} (hf : f ∈ planned) :
    source r parts f.id = done (.ok (Compilation.sourceRole f)) := by
  rw [source, lookUp_eq (h.timings f hf), done_ok_bind, lookUp_eq (h.keys f hf), done_ok_bind,
    lookUp_eq (h.flows f hf), done_ok_bind]
  rfl

theorem sink_eq {f : PlannedFlow} (hf : f ∈ planned) :
    sink r parts f.id = done (.ok (Compilation.sinkRole f)) := by
  rw [sink, lookUp_eq (h.keys f hf), done_ok_bind, lookUp_eq (h.routes f hf), done_ok_bind,
    lookUp_eq (h.flows f hf), done_ok_bind]
  rfl

theorem build_eq (core : CoreId) :
    build r parts core (finalLayout r.spec.record (planned.map (·.toRoutedFlow)) core) =
      done ((Compilation.program r.spec.memoryBudget (Compilation.corePlan r.spec parts.runTicks
        parts.recordTicks planned core)).map fun p => (core, p)) := by
  have hroles : ∀ role : RoutedFlow → Bool, idsOf (planned.map (·.toRoutedFlow)) role =
      (planned.filter fun f => role f.toRoutedFlow).map (·.id) := by
    intro role
    rw [idsOf, List.filter_map, List.map_map]
    rfl
  have hsources : (idsOf (planned.map (·.toRoutedFlow)) (·.sentBy core)).mapM (source r parts) =
      done (.ok ((planned.filter fun f => f.sentBy core).map Compilation.sourceRole)) := by
    rw [hroles, List.mapM_map]
    exact mapM_eq_ok fun f hf => source_eq h (List.mem_filter.1 hf).1
  have hsinks : (idsOf (planned.map (·.toRoutedFlow)) (·.receivedBy core)).mapM (sink r parts) =
      done (.ok ((planned.filter fun f => f.receivedBy core).map Compilation.sinkRole)) := by
    rw [hroles, List.mapM_map]
    exact mapM_eq_ok fun f hf => sink_eq h (List.mem_filter.1 hf).1
  unfold build finalLayout
  simp only
  rw [hsources, done_ok_bind, hsinks, done_ok_bind]
  exact done_bind fun p _ => rfl

end

/-! ## Compilation -/

/-- No time comes to 64 bits when half a timestep is added to round it. -/
structure TimesFit (s : Spec) : Prop where
  duration : s.duration.toNat + s.timestep.toNat / 2 < 2 ^ 64
  recordInterval : s.recordInterval.toNat + s.timestep.toNat / 2 < 2 ^ 64

section
variable {v : ValidSpec} (hv : v.Sound)

include hv

theorem get?_routes {f : RoutedFlow} (hf : f ∈ v.flows.values) :
    (routed v).routes.get? f.id = some f.route := by
  refine (Table.get?_map _ _ _).trans ?_
  rw [hv.mem_flows.1 hf, Option.map_some]

theorem get?_flowTable {f : RoutedFlow} (hf : f ∈ v.flows.values) :
    (flowTable (routed v)).get? f.id = some f.toFlow := by
  have hids : (((routed v).flows.map fun f => (f.id, f)).map (·.1)).Nodup := by
    rw [routed, List.map_map, List.map_map]
    exact hv.ids_nodup
  exact (Table.get?_ofList hids).2
    (List.mem_map_of_mem (List.mem_map_of_mem hf))

/-- The tables that are filled for planned flows have them all. -/
theorem complete {keyed : List KeyedFlow} {planned : List PlannedFlow}
    (hkeyed : keyed.map (·.toRoutedFlow) = v.flows.values)
    (hplanned : planned.map (·.toKeyedFlow) = keyed) (runTicks recordTicks : Nat) :
    Complete (routed v)
      { runTicks
        recordTicks
        keys := keyed.foldl (fun t f => t.insert f.id f.key) .empty
        timings := planned.foldl (fun t f => t.insert f.id (timingOf f)) .empty } planned := by
  have hmem : ∀ f ∈ planned, f.toRoutedFlow ∈ v.flows.values := by
    intro f hf
    rw [← hkeyed, ← hplanned]
    exact List.mem_map_of_mem (List.mem_map_of_mem hf)
  have hkeyedIds : (keyed.map (·.id)).Nodup := by
    have hids := hv.ids_nodup
    rwa [← hkeyed, List.map_map] at hids
  have hplannedIds : (planned.map (·.id)).Nodup := by
    rwa [← hplanned, List.map_map] at hkeyedIds
  refine ⟨fun f hf => get?_routes hv (hmem f hf), fun f hf => get?_flowTable hv (hmem f hf),
    fun f hf => ?_, fun f hf => ?_⟩
  · refine (Table.get?_foldl_insert (·.id) (·.key) keyed .empty _ _ hkeyedIds).2 (.inl ?_)
    exact ⟨f.toKeyedFlow, hplanned ▸ List.mem_map_of_mem hf, rfl, rfl⟩
  · exact (Table.get?_foldl_insert (·.id) timingOf planned .empty _ _ hplannedIds).2
      (.inl ⟨f, hf, rfl, rfl⟩)

theorem assignKeys_routed :
    assignKeys v.fabric (routed v).routes [] .empty (routed v).flows =
      done ((Keys.assign v.fabric [] v.flows.values).map fun keyed =>
        keyed.foldl (fun t f => t.insert f.id f.key) .empty) :=
  assignKeys_eq (fun _ hf => get?_routes hv hf) (fun _ hf => (hv.sound_of_mem hf).placed) [] .empty

theorem layOut_routed :
    layOut (routed v).routes .empty (routed v).flows =
      done ((Layout.check .empty v.flows.values).map fun _ => laidOut .empty v.flows.values) :=
  layOut_eq (fun _ hf => get?_routes hv hf)
    (fun _ hf => (hv.sound_of_mem hf).placed.sinks_nodup) fun _ => rfl

theorem timings_routed (hfits : TimesFit v.spec) (hrun : v.spec.runTicks < UInt32.size)
    {keyed : List KeyedFlow} (hkeyed : keyed.map (·.toRoutedFlow) = v.flows.values) :
    timings v.spec.timestep v.spec.runTicks (groupStarts (routed v).flows) .empty
        (routed v).flows =
      done ((keyed.mapM (Compilation.plan v.spec.timestep v.spec.runTicks v.flows.values)).map
        fun planned => planned.foldl (fun t f => t.insert f.id (timingOf f)) .empty) := by
  have hmem : ∀ f ∈ keyed, f.toRoutedFlow ∈ v.flows.values := fun f hf =>
    hkeyed ▸ List.mem_map_of_mem hf
  have hstarts : ∀ f ∈ keyed, f.start.toNat + v.spec.timestep.toNat / 2 < 2 ^ 64 := by
    intro f hf
    have hlt := (hv.sound_of_mem (hmem f hf)).start
    have hduration := hfits.duration
    omega
  have hflows : (routed v).flows = keyed.map (·.toFlow) := by
    rw [routed, ← hkeyed, List.map_map]
    rfl
  rw [hflows, ← timings_eq hv.timestep_pos hrun hmem hstarts, ← hflows]
  rfl

theorem programs_routed {keyed : List KeyedFlow} {planned : List PlannedFlow}
    (hkeyed : keyed.map (·.toRoutedFlow) = v.flows.values)
    (hplanned : planned.map (·.toKeyedFlow) = keyed) (runTicks recordTicks : Nat) :
    (((laidOut .empty v.flows.values).map fun _ l => l.addRouter v.spec.record).entries.mapM
      fun e => build (routed v)
        { runTicks
          recordTicks
          keys := keyed.foldl (fun t f => t.insert f.id f.key) .empty
          timings := planned.foldl (fun t f => t.insert f.id (timingOf f)) .empty } e.1 e.2) =
    done (v.participants.keys.mapM fun core =>
      (Compilation.program v.spec.memoryBudget (Compilation.corePlan v.spec runTicks recordTicks
        planned core)).map fun p => (core, p)) := by
  have hrouted : planned.map (·.toRoutedFlow) = v.flows.values := by
    rw [← hkeyed, ← hplanned, List.map_map]
    rfl
  rw [entries_laidOut hv, List.mapM_map]
  refine mapM_eq fun core _ => ?_
  rw [← hrouted]
  exact build_eq (complete hv hkeyed hplanned runTicks recordTicks) core

theorem compile_eq (hfits : TimesFit v.spec) :
    compile (routed v) = done (TrafficLab.compile v) := by
  have hround : roundTicks v.spec.timestep v.spec.duration = done (.ok v.spec.runTicks) :=
    roundTicks_eq hv.timestep_pos hfits.duration
  have hrecord : roundTicks v.spec.timestep v.spec.recordInterval =
      done (.ok v.spec.recordTicks) :=
    roundTicks_eq hv.timestep_pos hfits.recordInterval
  unfold compile TrafficLab.compile
  simp only
  rw [show (routed v).spec = v.spec from rfl, hround, done_ok_bind, hrecord,
    show Nanosecs.roundTicks v.spec.timestep v.spec.duration = v.spec.runTicks from rfl,
    show Nanosecs.roundTicks v.spec.timestep v.spec.recordInterval = v.spec.recordTicks from rfl]
  refine done_bind fun _ _ => ?_
  refine done_bind fun _ hrun => ?_
  have hrun : v.spec.runTicks < UInt32.size := word_eq_ok.1 hrun
  rw [done_ok_bind]
  split
  · rfl
  refine done_bind fun _ _ => ?_
  rw [show (routed v).fabric = v.fabric from rfl, assignKeys_routed hv]
  refine done_map_bind fun keyed hassign => ?_
  have hplaced : ∀ f ∈ v.flows.values, f.route.Placed v.fabric :=
    fun f hf => (hv.sound_of_mem hf).placed
  have hkeyed := (Keys.assign_eq_ok hplaced hassign).1
  rw [layOut_routed hv]
  refine done_map_bind fun _ _ => ?_
  rw [timings_routed hv hfits hrun hkeyed]
  refine done_map_bind fun planned hplans => ?_
  have hplanned : planned.map (·.toKeyedFlow) = keyed :=
    map_eq_of_forall₂ (Checked.mapM_eq_ok.1 hplans) fun f g _ hg => (plan_eq_ok hrun hg).1
  rw [programs_routed hv hkeyed hplanned]
  refine done_bind fun programs _ => ?_
  rw [Table.ofList_map]

end

end Lookups

/-! ## Main result -/

/-- For every specification that is valid and whose times can be rounded, the compiler finds all
that it looks up, and comes to a result or an error. -/
theorem lookups_never_miss {s : Spec} {v : ValidSpec} (hv : s.validate = .ok v)
    (hfits : Lookups.TimesFit s) :
    ∃ r, Lookups.validate s = .ok r ∧ (Lookups.compile r).run = some (compile v) := by
  obtain ⟨rfl, hsound⟩ := Spec.sound_of_validate hv
  refine ⟨Lookups.routed v, Lookups.validate_eq hv, ?_⟩
  rw [Lookups.compile_eq hsound hfits]
  rfl

/-- Three flows, two of them in a group, and one of these from a core to itself. -/
theorem lookups_never_miss_grouped :
    ∃ v c r, Spec.grouped.validate = .ok v ∧ compile v = .ok c ∧
      Lookups.validate Spec.grouped = .ok r ∧ (Lookups.compile r).run = some (.ok c) := by
  have hshape : Spec.grouped.shape? = some [(⟨0⟩, 2, 1), (⟨1⟩, 1, 3)] := by
    decide +kernel
  obtain ⟨v, c, hv, hc, -⟩ := Spec.exists_of_shape? hshape
  obtain ⟨r, hr, hcompile⟩ := lookups_never_miss hv ⟨by decide, by decide⟩
  exact ⟨v, c, r, hv, hc, hr, hc ▸ hcompile⟩

end TrafficLab
