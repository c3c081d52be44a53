import TrafficLab.Proofs.Chip.Loading

/-!
# Seeds of cores

The seed of a core is the low half of a digest that takes in the seed of the experiment and then the
number of the core.  The last step of the digest turns what came before, adds the number by
exclusive or, and multiplies by an odd constant.  The low half of the result depends on low halves
alone, and there both operations can be undone: the number is known from the seed.  So the cores of
an experiment have different seeds, and since every program sets its core's seed once, the programs
differ too.

    low half of (digest, word) = (low half of the turned digest xor word) * k      (toUInt32_add)
    mix a b = mix a c → b = c                                                      (mix_injective)
    the seeds that a compiled program sets = [coreSeed seed core]            (seeds?_of_get?)
-/

namespace TrafficLab

/-! ## The last step of a digest -/

namespace Digest

/-- The low half of a digest after a word, from the low half of what the word is added to. -/
theorem toUInt32_add (h : UInt64) (word : UInt32) :
    (add h word.toUInt64).toUInt32 = ((turn h).toUInt32 ^^^ word) * multiplier.toUInt32 := by
  unfold add
  rw [UInt64.toUInt32_mul, UInt64.toUInt32_xor, UInt32.toUInt32_toUInt64]

/-- The multiplier is odd, so among 32-bit words its low half has an inverse. -/
theorem multiplier_mul_inverse : multiplier.toUInt32 * 0x780970bd = 1 := by decide

theorem mul_multiplier_injective :
    Function.Injective fun w : UInt32 => w * multiplier.toUInt32 := by
  intro a b h
  have h : a * multiplier.toUInt32 = b * multiplier.toUInt32 := h
  calc
    a = a * multiplier.toUInt32 * 0x780970bd := by
      rw [UInt32.mul_assoc, multiplier_mul_inverse, UInt32.mul_one]
    _ = b * multiplier.toUInt32 * 0x780970bd := by rw [h]
    _ = b := by rw [UInt32.mul_assoc, multiplier_mul_inverse, UInt32.mul_one]

/-- The second word is known from the first and what both are mixed to. -/
theorem mix_injective (a : UInt32) : Function.Injective (mix a) := by
  intro b c h
  unfold mix at h
  rw [toUInt32_add, toUInt32_add] at h
  exact (UInt32.xor_right_inj _).1 (mul_multiplier_injective h)

end Digest

/-- Different cores of an experiment have different seeds. -/
theorem coreSeed_injective (seed : UInt32) : Function.Injective (coreSeed seed) := by
  rintro ⟨a⟩ ⟨b⟩ h
  exact congrArg Id.mk (Digest.mix_injective seed h)

/-! ## The seeds that a program sets -/

/-- The seed that a command sets. -/
def Command.seed? : Command → Option UInt32
  | seed value => some value
  | _ => none

/-- The seeds that the commands of a packed stream set, one after another. -/
def Stream.seeds? (bytes : List UInt8) : Option (List UInt32) :=
  (unpack bytes).toOption.map fun cs => cs.filterMap Command.seed?

theorem seeds_flatMap {α : Type} {l : List α} {f : α → List Command}
    (h : ∀ x, ∀ c ∈ f x, c.seed? = none) : (l.flatMap f).filterMap Command.seed? = [] := by
  rw [List.filterMap_eq_nil_iff]
  intro c hc
  obtain ⟨x, -, hc⟩ := List.mem_flatMap.1 hc
  exact h x c hc

namespace CorePlan

variable (p : CorePlan)

theorem seeds_opening : p.opening.filterMap Command.seed? = [p.seed] := by
  unfold opening
  cases p.record.isEmpty <;> by_cases hr : p.recordInterval.count = 0 <;> cases p.consume <;>
    simp only [hr, if_true, if_false, Bool.false_eq_true] <;> rfl

/-- The opening sets the seed, and no later command does. -/
theorem seeds_played : (p.played ++ [Command.exit]).filterMap Command.seed? = [p.seed] := by
  have hcounters : p.counterCommands.filterMap Command.seed? = [] := by
    rw [List.filterMap_eq_nil_iff]
    intro c hc
    obtain ⟨x, -, rfl⟩ := List.mem_map.1 hc
    rfl
  unfold played
  simp only [List.filterMap_append, seeds_opening, hcounters]
  rw [seeds_flatMap, seeds_flatMap]
  · rfl
  all_goals
    intro x c hc
    obtain ⟨setting, -, rfl⟩ := List.mem_map.1 hc
    rfl

variable {p} in
theorem Playable.seeds?_assemble (h : p.Playable) :
    Stream.seeds? p.assemble.bytes = some [p.seed] := by
  unfold Stream.seeds?
  rw [unpack_assemble h]
  exact congrArg some p.seeds_played

end CorePlan

/-- A compiled program sets the seed of its core, once. -/
theorem Compiled.From.seeds?_of_get? {v : ValidSpec} {flows : List PlannedFlow} {c : Compiled}
    (h : c.From v flows) {core : CoreId} {p : Program} (hp : c.programs.get? core = some p) :
    Stream.seeds? p.bytes = some [coreSeed v.spec.seed core] := by
  obtain ⟨-, rfl⟩ := h.get?_programs.1 hp
  exact (h.playable core).seeds?_assemble

/-! ## Main result -/

/-- Seeds of cores never collide.  Whatever the seed of the experiment is, different cores have
different seeds; so in a compiled experiment each program sets one seed, that of its core, and no
two programs set the same or are the same. -/
theorem seeds_never_collide :
    (∀ (seed : UInt32) (a b : CoreId), a ≠ b → coreSeed seed a ≠ coreSeed seed b) ∧
    ∀ {s : Spec} {v : ValidSpec} {c : Compiled}, s.validate = .ok v → compile v = .ok c →
      (∀ a p, c.programs.get? a = some p → Stream.seeds? p.bytes = some [coreSeed s.seed a]) ∧
      ∀ a b p q, c.programs.get? a = some p → c.programs.get? b = some q → a ≠ b →
        Stream.seeds? p.bytes ≠ Stream.seeds? q.bytes ∧ p.bytes ≠ q.bytes := by
  refine ⟨fun seed a b hne h => hne (coreSeed_injective seed h), fun {s v c} hv hc => ?_⟩
  obtain ⟨rfl, hsound⟩ := Spec.sound_of_validate hv
  obtain ⟨flows, h⟩ := Compiled.from_of_compile hsound hc
  refine ⟨fun a p hp => h.seeds?_of_get? hp, fun a b p q hp hq hne => ?_⟩
  have hseeds : Stream.seeds? p.bytes ≠ Stream.seeds? q.bytes := by
    rw [h.seeds?_of_get? hp, h.seeds?_of_get? hq]
    intro e
    exact hne (coreSeed_injective _ (List.singleton_inj.1 (Option.some_inj.1 e)))
  exact ⟨hseeds, fun e => hseeds (congrArg Stream.seeds? e)⟩

theorem seeds_never_collide_twoCores :
    coreSeed 1 ⟨0⟩ ≠ coreSeed 1 ⟨1⟩ ∧
    ∃ v c p q, Spec.twoCores.validate = .ok v ∧ compile v = .ok c ∧
      c.programs.get? ⟨0⟩ = some p ∧ c.programs.get? ⟨1⟩ = some q ∧
      Stream.seeds? p.bytes = some [coreSeed 1 ⟨0⟩] ∧
      Stream.seeds? p.bytes ≠ Stream.seeds? q.bytes ∧ p.bytes ≠ q.bytes := by
  have hboth : (Spec.twoCores.validate.toOption.bind fun v => (compile v).toOption.bind fun c =>
      (c.programs.get? ⟨0⟩).bind fun p => (c.programs.get? ⟨1⟩).map fun q =>
        (p.sources.length, q.sources.length)) = some (1, 1) := by
    decide +kernel
  obtain ⟨v, hv, hboth⟩ := Option.bind_eq_some_iff.1 hboth
  obtain ⟨c, hc, hboth⟩ := Option.bind_eq_some_iff.1 hboth
  obtain ⟨p, hp, hboth⟩ := Option.bind_eq_some_iff.1 hboth
  obtain ⟨q, hq, -⟩ := Option.map_eq_some_iff.1 hboth
  have hv := Checked.toOption_eq_some.1 hv
  have hc := Checked.toOption_eq_some.1 hc
  obtain ⟨hcores, hprograms⟩ := seeds_never_collide
  obtain ⟨hseeds, hdiffer⟩ := hprograms hv hc
  exact ⟨hcores 1 ⟨0⟩ ⟨1⟩ (by decide), v, c, p, q, hv, hc, hp, hq, hseeds ⟨0⟩ p hp,
    hdiffer ⟨0⟩ ⟨1⟩ p q hp hq (by decide)⟩

end TrafficLab
