import TrafficLab.Proofs.Compilation

/-!
# The memory budget

When all flows are planned, the programs of the cores are built side by side, and each is compared
with the budget.  In whatever order they are finished, compilation fails for the lowest core whose
program is too large, if there is one; and what it gives otherwise does not depend on the budget.

    gathered from any order = built one after another                          (gather_of_perm)
    compile v = .error e ↔ e names the lowest core without room              (compile_eq_error)
    compile v = .ok c ↔ all cores have room, and c is what the plans say        (compile_eq_ok)
-/

namespace TrafficLab

open Checked Compilation

/-! ## Building side by side -/

/-- The programs of some cores as they are built in some order.  The result for each core is put in
the place of the core when it is finished; when all are, they are looked through from the lowest
core up. -/
def Compilation.gather (build : CoreId → Except CompileError Program) (order : List CoreId) :
    Except CompileError (List (CoreId × Program)) :=
  (Table.ofList (order.map fun core => (core, build core))).entries.mapM fun e =>
    e.2.map fun p => (e.1, p)

theorem Compilation.gather_of_perm {α : Type} (build : CoreId → Except CompileError Program)
    {t : Table CoreId α} {order : List CoreId} (h : order.Perm t.keys) :
    gather build order = t.keys.mapM fun core => (build core).map fun p => (core, p) := by
  unfold gather
  rw [Table.entries_ofList_of_perm build h, List.mapM_map]
  rfl

/-! ## Other budgets -/

/-- The specification with another memory budget. -/
def Spec.withBudget (s : Spec) (budget : Bytes) : Spec := { s with memoryBudget := budget }

/-- A valid specification with another memory budget. -/
def ValidSpec.withBudget (v : ValidSpec) (budget : Bytes) : ValidSpec :=
  { v with spec := v.spec.withBudget budget }

/-- Validation does not look at the budget. -/
theorem Spec.validate_withBudget {s : Spec} {v : ValidSpec} (hv : s.validate = .ok v)
    (budget : Bytes) : (s.withBudget budget).validate = .ok (v.withBudget budget) := by
  obtain ⟨rfl, -⟩ := sound_of_validate hv
  exact validate_congr hv rfl rfl rfl rfl

/-- Flows are planned without a look at the budget. -/
theorem Compilation.Planned.withBudget {v : ValidSpec} {keyed : List KeyedFlow}
    {flows : List PlannedFlow} (h : Planned v keyed flows) (budget : Bytes) :
    Planned (v.withBudget budget) keyed flows where
  timestep_lt := h.timestep_lt
  runTicks_lt := h.runTicks_lt
  recordTicks_ne := h.recordTicks_ne
  recordTicks_lt := h.recordTicks_lt
  assigned := h.assigned
  roles := h.roles
  planned := h.planned

/-! ## The lowest core without room -/

namespace ValidSpec

/-- The memory that a core needs: for its packed commands, for the header of its dump, and for eight
bytes in each record for each of its slots. -/
def programSize (v : ValidSpec) (flows : List PlannedFlow) (core : CoreId) : Nat :=
  let p := v.corePlan flows core
  (Stream.pack p.commands).length + 12 + 8 * p.slots.length * p.samples

theorem footprint_assemble (v : ValidSpec) (flows : List PlannedFlow) (core : CoreId) :
    (v.corePlan flows core).assemble.footprint = v.programSize flows core :=
  (Nat.add_assoc _ _ _).symm

/-- The lowest core that takes part and has no room for its program. -/
structure FirstWithoutRoom (v : ValidSpec) (flows : List PlannedFlow) (core : CoreId) : Prop where
  mem : core ∈ v.participants.keys
  large : v.spec.memoryBudget.toNat < v.programSize flows core
  lowest : ∀ d ∈ v.participants.keys, d.val < core.val →
    v.programSize flows d ≤ v.spec.memoryBudget.toNat

/-- What a specification compiles to if there is room for it. -/
def compiled (v : ValidSpec) (keyed : List KeyedFlow) (flows : List PlannedFlow) : Compiled where
  keys := .ofList (keyed.map fun f => (f.id, f.key))
  programs := .ofList (v.participants.keys.map fun core => (core, (v.corePlan flows core).assemble))

end ValidSpec

namespace Compilation.Planned

variable {v : ValidSpec} {keyed : List KeyedFlow} {flows : List PlannedFlow}
  (h : Planned v keyed flows)

include h

/-- Compilation fails for the lowest core without room, and for nothing else. -/
theorem compile_eq_error {e : CompileError} : compile v = .error e ↔ ∃ core,
    v.FirstWithoutRoom flows core ∧
      e = .programTooLarge core (v.programSize flows core) v.spec.memoryBudget := by
  rw [h.compile_eq, map_eq_error, mapM_eq_error]
  simp only [map_eq_error, map_eq_ok, program_eq_error, program_eq_ok,
    ValidSpec.footprint_assemble]
  constructor
  · rintro ⟨before, core, after, hkeys, hbefore, hlarge, rfl⟩
    refine ⟨core, ⟨by simp [hkeys], hlarge, fun d hd hlt => ?_⟩, rfl⟩
    obtain ⟨-, -, ⟨hle, -⟩, -⟩ := hbefore d ((Table.mem_before_iff hkeys).2 ⟨hd, hlt⟩)
    exact hle
  · rintro ⟨core, hfirst, rfl⟩
    obtain ⟨before, after, hkeys⟩ := List.append_of_mem hfirst.mem
    refine ⟨before, core, after, hkeys, fun d hd => ?_, hfirst.large, rfl⟩
    obtain ⟨hd, hlt⟩ := (Table.mem_before_iff hkeys).1 hd
    exact ⟨_, _, ⟨hfirst.lowest d hd hlt, rfl⟩, rfl⟩

theorem compile_eq_ok {c : Compiled} : compile v = .ok c ↔
    (∀ core ∈ v.participants.keys, v.programSize flows core ≤ v.spec.memoryBudget.toNat) ∧
      c = v.compiled keyed flows := by
  simp only [h.compile_eq, map_eq_ok, mapM_program_eq_ok, ValidSpec.footprint_assemble]
  constructor
  · rintro ⟨programs, ⟨hroom, rfl⟩, rfl⟩
    exact ⟨hroom, rfl⟩
  · rintro ⟨hroom, rfl⟩
    exact ⟨_, ⟨hroom, rfl⟩, rfl⟩

/-- Compilation fails if some core has no room. -/
theorem exists_error_iff : (∃ e, compile v = .error e) ↔
    ∃ core ∈ v.participants.keys, v.spec.memoryBudget.toNat < v.programSize flows core := by
  constructor
  · rintro ⟨e, he⟩
    obtain ⟨core, hfirst, -⟩ := h.compile_eq_error.1 he
    exact ⟨core, hfirst.mem, hfirst.large⟩
  · rintro ⟨core, hcore, hlarge⟩
    cases hc : compile v with
    | error e => exact ⟨e, rfl⟩
    | ok c => exact absurd ((h.compile_eq_ok.1 hc).1 core hcore) (Nat.not_le.2 hlarge)

end Compilation.Planned

/-! ## Main result -/

/-- The memory budget is a gate and nothing else.  When all flows of a specification are planned,
compilation fails exactly if a core that takes part has no room for its program, and then it names
the lowest such core with the size of its program; it gives the same in whatever order the programs
are finished; and under every budget with room for all, it gives the same keys and programs. -/
theorem memory_budget_only_gates {v : ValidSpec} {keyed : List KeyedFlow}
    {flows : List PlannedFlow} (h : Planned v keyed flows) :
    ((∃ core size budget, compile v = .error (.programTooLarge core size budget)) ↔
      ∃ core ∈ v.participants.keys, v.spec.memoryBudget.toNat < v.programSize flows core) ∧
    (∀ e, compile v = .error e ↔ ∃ core, v.FirstWithoutRoom flows core ∧
      e = .programTooLarge core (v.programSize flows core) v.spec.memoryBudget) ∧
    (∀ order, order.Perm v.participants.keys →
      compile v = (gather (fun core => program v.spec.memoryBudget (v.corePlan flows core))
        order).map fun programs => ⟨.ofList (keyed.map fun f => (f.id, f.key)), .ofList programs⟩) ∧
    ∃ c, ∀ budget d, compile (v.withBudget budget) = .ok d ↔
      (∀ core ∈ v.participants.keys, v.programSize flows core ≤ budget.toNat) ∧ d = c := by
  refine ⟨?_, fun e => h.compile_eq_error, fun order horder => ?_, v.compiled keyed flows,
    fun budget d => (h.withBudget budget).compile_eq_ok⟩
  · rw [← h.exists_error_iff]
    constructor
    · rintro ⟨core, size, budget, he⟩
      exact ⟨_, he⟩
    · rintro ⟨e, he⟩
      obtain ⟨core, -, rfl⟩ := h.compile_eq_error.1 he
      exact ⟨_, _, _, he⟩
  · rw [gather_of_perm _ horder]
    exact h.compile_eq

/-- Of two cores the second needs 352 bytes and the first needs less.  One byte less than that is
too little for the second alone, and no byte more makes a difference. -/
theorem memory_budget_only_gates_twoCores :
    ∃ v keyed flows c, Spec.twoCores.validate = .ok v ∧ Planned v keyed flows ∧
      compile v = .ok c ∧
      (Spec.twoCores.withBudget ⟨352⟩).validate = .ok (v.withBudget ⟨352⟩) ∧
      compile (v.withBudget ⟨352⟩) = .ok c ∧
      (Spec.twoCores.withBudget ⟨351⟩).validate = .ok (v.withBudget ⟨351⟩) ∧
      compile (v.withBudget ⟨351⟩) = .error (.programTooLarge ⟨1⟩ 352 ⟨351⟩) := by
  have hsizes : (Spec.twoCores.validate.toOption.bind fun v => (compile v).toOption.map fun c =>
      c.programs.entries.map fun e => (e.1, e.2.footprint)) = some [(⟨0⟩, 220), (⟨1⟩, 352)] := by
    decide +kernel
  obtain ⟨v, hv, hsizes⟩ := Option.bind_eq_some_iff.1 hsizes
  obtain ⟨c, hc, hsizes⟩ := Option.map_eq_some_iff.1 hsizes
  have hv := toOption_eq_some.1 hv
  have hc := toOption_eq_some.1 hc
  obtain ⟨keyed, flows, hstages⟩ := TrafficLab.compile_eq_ok.1 hc
  have h := hstages.toPlanned
  rw [(Compiled.from_of_stages (Spec.sound_of_validate hv).2 hstages).entries_programs,
    List.map_map] at hsizes
  obtain ⟨a, rest, hkeys, ha, hrest⟩ := List.map_eq_cons_iff.1 hsizes
  obtain ⟨b, rest, rfl, hb, hnil⟩ := List.map_eq_cons_iff.1 hrest
  obtain rfl := List.map_eq_nil_iff.1 hnil
  obtain ⟨rfl, hsize⟩ := Prod.mk.inj ha
  obtain ⟨rfl, hsize'⟩ := Prod.mk.inj hb
  rw [ValidSpec.footprint_assemble] at hsize hsize'
  have hcores : ∀ {p : CoreId → Prop}, p ⟨0⟩ → p ⟨1⟩ → ∀ core ∈ v.participants.keys, p core := by
    intro p hp hp'
    rw [hkeys]
    simp [hp, hp']
  obtain ⟨-, -, -, d, hsame⟩ := memory_budget_only_gates h
  obtain ⟨-, herror, -, -⟩ := memory_budget_only_gates (h.withBudget ⟨351⟩)
  obtain rfl : c = d := ((hsame v.spec.memoryBudget c).1 hc).2
  have hfirst : (v.withBudget ⟨351⟩).FirstWithoutRoom flows ⟨1⟩ := by
    refine ⟨?_, ?_, hcores (fun _ => ?_) fun hlt => absurd hlt (by decide)⟩
    · show _ ∈ v.participants.keys
      simp [hkeys]
    · show 351 < v.programSize flows ⟨1⟩
      rw [hsize']
      decide
    · show v.programSize flows ⟨0⟩ ≤ 351
      rw [hsize]
      decide
  exact ⟨v, keyed, flows, c, hv, h, hc, Spec.validate_withBudget hv ⟨352⟩,
    (hsame ⟨352⟩ c).2 ⟨hcores (hsize ▸ by decide) (hsize' ▸ by decide), rfl⟩,
    Spec.validate_withBudget hv ⟨351⟩, (herror _).2 ⟨⟨1⟩, hfirst, hsize' ▸ rfl⟩⟩

end TrafficLab
