import TrafficLab.Proofs.Compilation.Slots
import TrafficLab.Proofs.Dump.Damage
import TrafficLab.Proofs.Report.Isolation

/-!
# Reading dumps that are cut short

What is read of the beginning of a dump is read the same of more of it.  What a cut takes away
first are the slots that come last: those of the router, then those of the flows, from the highest
identifier down.  A core that has no role in a flow has no slots of it to lose.

    bytes <+: bytes' → a value that is read of bytes is read of bytes'      (value?_of_isPrefix)
    a slot that has a value → so have the slots before it                 (value?_isSome_of_le)
    a slot of a flow has a value → every lower flow is whole           (Maps.hasFlow_of_lower)
-/

namespace TrafficLab

namespace Dump

/-! ## More of a dump -/

theorem valueAt?_of_isPrefix {bytes bytes' : List UInt8} (h : bytes <+: bytes') {k : Nat}
    {x : UInt64} (hx : valueAt? bytes k = some x) : valueAt? bytes' k = some x := by
  obtain ⟨rest, rfl⟩ := h
  unfold valueAt? at hx ⊢
  split at hx
  · next hlen =>
    rw [if_pos (by rw [List.length_append]; omega),
      List.drop_append_of_le_length (by omega),
      List.take_append_of_le_length (by rw [List.length_drop]; omega)]
    exact hx
  · cases hx

section
variable {p : Program} {dump : CounterDump}

/-- A value is read from the last record of a dump with the program's header. -/
theorem value?_read_eq_some {slot : Nat} {x : UInt64} :
    (read p dump).value? slot = some x ↔
      Matches p dump.bytes ∧ slot < p.slots.length ∧ finalValue? p dump.bytes slot = some x := by
  by_cases hmatches : Matches p dump.bytes
  · by_cases hslot : slot < p.slots.length
    · rw [value?_read hmatches hslot]
      simp [hmatches, hslot]
    · -- there is no such slot in any row
      have hnone : (read p dump).value? slot = none := by
        unfold Contribution.value?
        cases hlast : (read p dump).rows.getLast? with
        | none => rfl
        | some row =>
          show (row[slot]?).join = none
          rw [List.getElem?_eq_none
            ((length_row_read (List.mem_of_getLast? hlast)).trans_le (Nat.le_of_not_lt hslot))]
          rfl
      simp [hnone, hslot]
  · simp [value?_read_of_not_matches hmatches, hmatches]

variable {dump' : CounterDump} (h : dump.bytes <+: dump'.bytes)

include h

theorem value?_of_isPrefix {slot : Nat} {x : UInt64} (hx : (read p dump).value? slot = some x) :
    (read p dump').value? slot = some x := by
  obtain ⟨hmatches, hslot, hvalue⟩ := value?_read_eq_some.1 hx
  refine value?_read_eq_some.2 ⟨?_, hslot, valueAt?_of_isPrefix h hvalue⟩
  obtain ⟨rest, hrest⟩ := h
  rw [← hrest]
  exact matches_append hmatches rest

theorem hasFlow_of_isPrefix {flow : FlowId} (hflow : (read p dump).hasFlow p flow = true) :
    (read p dump').hasFlow p flow = true := by
  rw [hasFlow_eq_true] at hflow ⊢
  intro i slot hslot hfor
  obtain ⟨x, hx⟩ := Option.isSome_iff_exists.1 (hflow i slot hslot hfor)
  exact Option.isSome_of_eq_some (value?_of_isPrefix h hx)

theorem flowMetric?_of_isPrefix {flow : FlowId} {m : Metric} {x : UInt64}
    (hx : (read p dump).flowMetric? p flow m = some x) :
    (read p dump').flowMetric? p flow m = some x := by
  unfold Contribution.flowMetric? at hx ⊢
  split at hx
  · next hflow =>
    obtain ⟨slot, hslot, hvalue⟩ := Option.bind_eq_some_iff.1 hx
    rw [if_pos (hasFlow_of_isPrefix h hflow), hslot, Option.bind_some]
    exact value?_of_isPrefix h hvalue
  · cases hx

end

/-! ## Less of a dump -/

/-- The values of a row come in the order of its slots. -/
theorem value?_isSome_of_le {p : Program} {dump : CounterDump} {i j : Nat}
    (h : ((read p dump).value? j).isSome = true) (hij : i ≤ j) :
    ((read p dump).value? i).isSome = true := by
  obtain ⟨x, hx⟩ := Option.isSome_iff_exists.1 h
  obtain ⟨hmatches, hslot, hvalue⟩ := value?_read_eq_some.1 hx
  rw [value?_read hmatches (Nat.lt_of_le_of_lt hij hslot)]
  exact valueAt?_isSome_of_le (Option.isSome_of_eq_some hvalue) (Nat.add_le_add_left hij _)

/-- A dump in which a slot has a value holds whole every flow whose slots come before it. -/
theorem hasFlow_of_before {p : Program} {dump : CounterDump} {j : Nat} {flow : FlowId}
    (h : ((read p dump).value? j).isSome = true)
    (hbefore : ∀ i y, p.slots[i]? = some y → y.flow = some flow → i < j) :
    (read p dump).hasFlow p flow = true :=
  hasFlow_eq_true.2 fun i y hy hflow =>
    value?_isSome_of_le h (Nat.le_of_lt (hbefore i y hy hflow))

end Dump

/-! ## The slots of flows and of the router -/

namespace CorePlan.Maps

variable {p : CorePlan} {v : ValidSpec} (h : p.Maps v)

include h

/-- A slot that may not stand before another stands after it. -/
theorem lt_of_not_inOrder {i j : Nat} {x y : Slot} (hx : p.slots[j]? = some x)
    (hy : p.slots[i]? = some y) (hne : y ≠ x) (horder : ¬Layout.InOrder x y) : i < j := by
  obtain ⟨hi, rfl⟩ := List.getElem?_eq_some_iff.1 hy
  obtain ⟨hj, rfl⟩ := List.getElem?_eq_some_iff.1 hx
  rcases Nat.lt_trichotomy i j with hlt | rfl | hgt
  · exact hlt
  · exact absurd rfl hne
  · exact absurd (List.pairwise_iff_getElem.1 h.in_order j i hj hi hgt) horder

theorem lt_of_lower {i j : Nat} {x y : Slot} (hx : p.slots[j]? = some x)
    (hy : p.slots[i]? = some y) {f g : FlowId} (hf : x.flow = some f) (hg : y.flow = some g)
    (hlt : g.val < f.val) : i < j := by
  refine h.lt_of_not_inOrder hx hy ?_ ?_
  · rintro rfl
    rw [hf] at hg
    cases hg
    exact UInt32.lt_irrefl _ hlt
  · unfold Layout.InOrder
    rw [hf, hg]
    exact UInt32.not_le.2 hlt

theorem lt_of_router {i j : Nat} {x y : Slot} (hx : p.slots[j]? = some x)
    (hy : p.slots[i]? = some y) {c : RouterCounter} (hc : x.metric = .router c) {g : FlowId}
    (hg : y.flow = some g) : i < j := by
  have hnone := (h.router_role x (List.mem_of_getElem? hx) c hc).1
  refine h.lt_of_not_inOrder hx hy ?_ ?_
  · rintro rfl
    rw [hnone] at hg
    cases hg
  · unfold Layout.InOrder
    rw [hnone, hg]
    exact not_false

/-- A core has a slot for each flow in which it has a role. -/
theorem exists_slot_of_role {f : RoutedFlow} (hf : f ∈ v.flows.values)
    (hrole : p.core ∈ f.route.cores) : ∃ (j : Nat) (x : Slot),
      p.slots[j]? = some x ∧ x.flow = some f.id := by
  have hcounted : ∃ m, f.CountedOn p.core m := by
    rcases List.mem_cons.1 hrole with hsource | hsink
    · exact ⟨.sent, hsource.symm⟩
    · exact ⟨.received, hsink⟩
  obtain ⟨m, hm⟩ := hcounted
  obtain ⟨x, hx, hflow, -⟩ := (h.present f hf m).2 hm
  obtain ⟨j, hj⟩ := List.getElem?_of_mem hx
  exact ⟨j, x, hj, hflow⟩

/-- A dump that holds whole a flow in which the core has a role holds whole every lower flow. -/
theorem hasFlow_of_lower {dump : CounterDump} {f : RoutedFlow} (hf : f ∈ v.flows.values)
    (hrole : p.core ∈ f.route.cores)
    (hwhole : (Dump.read p.assemble dump).hasFlow p.assemble f.id = true) {g : FlowId}
    (hlt : g.val < f.id.val) : (Dump.read p.assemble dump).hasFlow p.assemble g = true := by
  obtain ⟨j, x, hx, hflow⟩ := h.exists_slot_of_role hf hrole
  exact Dump.hasFlow_of_before (Dump.hasFlow_eq_true.1 hwhole j x hx hflow) fun i y hy hg =>
    h.lt_of_lower hx hy hflow hg hlt

/-- A dump from which a router counter is read holds whole every flow. -/
theorem hasFlow_of_routerCounters {dump : CounterDump}
    (hne : (Dump.read p.assemble dump).routerCounters p.assemble ≠ []) (g : FlowId) :
    (Dump.read p.assemble dump).hasFlow p.assemble g = true := by
  obtain ⟨⟨c, value⟩, hmem⟩ := List.exists_mem_of_ne_nil _ hne
  obtain ⟨⟨x, j⟩, hplace, hread⟩ := List.mem_filterMap.1 hmem
  have hx : p.slots[j]? = some x := List.mk_mem_zipIdx_iff_getElem?.1 hplace
  simp only at hread
  split at hread
  · next counter hcounter =>
    obtain ⟨w, hw, -⟩ := Option.map_eq_some_iff.1 hread
    exact Dump.hasFlow_of_before (Option.isSome_of_eq_some hw) fun i y hy hg =>
      h.lt_of_router hx hy hcounter hg
  · cases hread

end CorePlan.Maps

/-! ## Main result -/

/-- Of a dump that is cut short, what is read is what is read of it with a later cut or none.  If a
flow in which the core has a role is whole, then so is every flow with a lower identifier; if a
router counter is left, then so is every flow. -/
theorem cuts_lose_flows_from_above {s : Spec} {v : ValidSpec} {c : Compiled}
    (hv : s.validate = .ok v) (hc : compile v = .ok c) {p : Program} (hp : p ∈ c.programs.values)
    (values : List UInt64) :
    let cutAt (n : Nat) := Dump.read p ⟨p.core, (p.dump values).bytes.take n⟩
    (∀ n m, n ≤ m →
      (∀ slot x, (cutAt n).value? slot = some x → (cutAt m).value? slot = some x) ∧
      ∀ flow metric x, (cutAt n).flowMetric? p flow metric = some x →
        (cutAt m).flowMetric? p flow metric = some x) ∧
    ∀ n,
      (∀ f ∈ v.flows.values, p.core ∈ f.route.cores → (cutAt n).hasFlow p f.id = true →
        ∀ g : FlowId, g.val < f.id.val → (cutAt n).hasFlow p g = true) ∧
      ((cutAt n).routerCounters p ≠ [] → ∀ g, (cutAt n).hasFlow p g = true) := by
  intro cutAt
  have hsound := (Spec.sound_of_validate hv).2
  obtain ⟨flows, h⟩ := Compiled.from_of_compile hsound hc
  obtain ⟨core, -, rfl⟩ := h.mem_programs.1 hp
  have hmaps := hsound.corePlan_maps h.roles h.routed core
  refine ⟨fun n m hnm => ?_, fun n => ⟨fun f hf hrole hwhole g hlt => ?_, fun hne g => ?_⟩⟩
  · have hprefix := List.take_prefix_take_left
      (l := ((v.corePlan flows core).assemble.dump values).bytes) hnm
    exact ⟨fun slot x => Dump.value?_of_isPrefix hprefix,
      fun flow metric x => Dump.flowMetric?_of_isPrefix hprefix⟩
  · exact hmaps.hasFlow_of_lower hf hrole hwhole hlt
  · exact hmaps.hasFlow_of_routerCounters hne g

/-- A dump of the second of three cores is cut in its last record: after the slots of the first flow,
and at the end. -/
theorem cuts_lose_flows_from_above_threeCores :
    ∃ v c p, Spec.threeCores.validate = .ok v ∧ compile v = .ok c ∧ p ∈ c.programs.values ∧
      let cutAt (n : Nat) :=
        Dump.read p ⟨p.core, (p.dump ((List.range 24).map UInt64.ofNat)).bytes.take n⟩
      (cutAt 180).flowMetric? p ⟨0⟩ .latencySum = some 19 ∧ (cutAt 180).hasFlow p ⟨1⟩ = false ∧
      (cutAt 204).flowMetric? p ⟨0⟩ .latencySum = some 19 ∧ (cutAt 204).hasFlow p ⟨1⟩ = true ∧
      (cutAt 204).hasFlow p ⟨0⟩ = true := by
  let values := (List.range 24).map UInt64.ofNat
  let cutAt (p : Program) (n : Nat) := Dump.read p ⟨p.core, (p.dump values).bytes.take n⟩
  have hview : Spec.threeCores.view? ⟨1⟩ (fun v p =>
      (v.flows.values.any fun f => f.id == ⟨1⟩ && f.route.cores.contains p.core) &&
        (cutAt p 180).flowMetric? p ⟨0⟩ .latencySum == some 19 &&
        !(cutAt p 180).hasFlow p ⟨1⟩ && (cutAt p 204).hasFlow p ⟨1⟩) = some true := by
    decide +kernel
  obtain ⟨v, c, p, hv, hc, hp, hseen⟩ := Spec.exists_of_view? hview
  simp only [List.any_eq_true, Bool.and_eq_true, beq_iff_eq, List.contains_iff_mem,
    Bool.not_eq_true'] at hseen
  obtain ⟨⟨⟨⟨f, hf, hid, hrole⟩, hmetric⟩, hlost⟩, hkept⟩ := hseen
  have hmem : p ∈ c.programs.values := Table.mem_values.2 ⟨⟨1⟩, hp⟩
  obtain ⟨hmore, hless⟩ := cuts_lose_flows_from_above hv hc hmem values
  refine ⟨v, c, p, hv, hc, hmem, hmetric, hlost,
    (hmore 180 204 (by decide)).2 ⟨0⟩ .latencySum 19 hmetric, hkept, ?_⟩
  exact (hless 204).1 f hf hrole (hid ▸ hkept) ⟨0⟩ (hid ▸ by decide)

/-- Cut down to its header, the dump of the second core still holds whole the flow in which the core
has no role, but not the lower flow that it receives. -/
theorem cuts_keep_flows_without_slots :
    ∃ v c p, Spec.threeCores.validate = .ok v ∧ compile v = .ok c ∧ p ∈ c.programs.values ∧
      ∃ f ∈ v.flows.values, ∃ g ∈ v.flows.values, g.id.val < f.id.val ∧ p.core ∈ g.route.cores ∧
        let kept := Dump.read p ⟨p.core, (p.dump (List.replicate 24 7)).bytes.take 12⟩
        kept.hasFlow p f.id = true ∧ kept.hasFlow p g.id = false := by
  let kept (p : Program) := Dump.read p ⟨p.core, (p.dump (List.replicate 24 7)).bytes.take 12⟩
  have hview : Spec.threeCores.view? ⟨1⟩ (fun v p =>
      v.flows.values.any fun f => v.flows.values.any fun g =>
        g.id.val < f.id.val && g.route.cores.contains p.core &&
          (kept p).hasFlow p f.id && !(kept p).hasFlow p g.id) = some true := by
    decide +kernel
  obtain ⟨v, c, p, hv, hc, hp, hseen⟩ := Spec.exists_of_view? hview
  simp only [List.any_eq_true, Bool.and_eq_true, decide_eq_true_eq, List.contains_iff_mem,
    Bool.not_eq_true'] at hseen
  obtain ⟨f, hf, g, hg, ⟨⟨hlt, hrole⟩, hwhole⟩, hlost⟩ := hseen
  exact ⟨v, c, p, hv, hc, Table.mem_values.2 ⟨⟨1⟩, hp⟩, f, hf, g, hg, hlt, hrole, hwhole, hlost⟩

end TrafficLab
