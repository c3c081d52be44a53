import TrafficLab.Chip.Machine
import TrafficLab.Proofs.Chip.Loading
import TrafficLab.Proofs.Experiment.Lifecycle
import TrafficLab.Proofs.Program

/-!
# Archives: what is saved can be replayed

An archive is read back as it was saved, whatever programs, dumps and cores it holds.  So a run can
be decoded from its archive as well as at once.

    a.Fits → load? (a.save ++ rest) = some a                        (load?_save)
    compiled programs have room in an archive                       (fits_compiled)
    so has an experiment, unless a dump or its list of programs is too long    (fits_captured)
    the archive of a collected run replays its report               (replay_of_saved)

Lengths are written in 32 bits.  `Archive.Fits` says that no list is longer than that.
-/

namespace TrafficLab

open Datum Datum.Fields

instance : LawfulDatum Archive where
  ofDatum?_toDatum a := ofDatum?_record (fun _ => rfl) rfl rfl (by decide) <|
    read_required rfl <| read_required rfl <|
    Option.bind_eq_some_iff.2 ⟨a.unreachable, KeySet.ofDatum?_toDatum a.unreachable, rfl⟩

namespace Archive

/-- Whether every list is short enough to be written with its length. -/
structure Fits (a : Archive) : Prop where
  size_programs : a.programs.size < MessagePack.lengths
  size_dumps : a.dumps.size < MessagePack.lengths
  size_unreachable : a.unreachable.size < MessagePack.lengths
  programs : ∀ p ∈ a.programs.values, p.Fits
  dumps : ∀ d ∈ a.dumps.values, d.bytes.length < MessagePack.lengths

theorem Fits.fits_toDatum {a : Archive} (h : a.Fits) : (toDatum a).Fits 8 := by
  have hcore : ∀ (depth : Nat) (core : CoreId), (toDatum core).Fits (depth + 1) :=
    fun depth core => Datum.fits_toDatum core (Nat.le_add_left 1 depth)
  have hprograms : (toDatum a.programs).Fits 7 :=
    fits_table h.size_programs (hcore 5) fun core p hp =>
      (h.programs p (Table.mem_values.2 ⟨core, hp⟩)).fits_toDatum
  have hdumps : (toDatum a.dumps).Fits 7 :=
    fits_table h.size_dumps (hcore 5) fun core d hd =>
      (CounterDump.fits_toDatum (h.dumps d (Table.mem_values.2 ⟨core, hd⟩))).mono (by decide)
  have hunreachable : a.unreachable.toDatum.Fits 7 := fits_keySet h.size_unreachable (hcore 5)
  exact fits_record ["programs", "dumps", "unreachable"] rfl (by decide) (by decide)
    (by simp [hprograms, hdumps, hunreachable])

/-- An archive is read back from what was saved, and from nothing after it. -/
theorem load?_save {a : Archive} (h : a.Fits) (rest : List UInt8) :
    load? (a.save ++ rest) = some a := by
  rw [load?, save, MessagePack.read?_write (h.fits_toDatum.mono (by decide)), Option.bind_some,
    ofDatum?_toDatum]

end Archive

/-- There is room for every program that a specification compiles to. -/
theorem fits_compiled {s : Spec} {v : ValidSpec} {c : Compiled} (hv : s.validate = .ok v)
    (hc : compile v = .ok c) {p : Program} (hp : p ∈ c.programs.values) : p.Fits := by
  obtain ⟨flows, h⟩ := Compiled.from_of_compile (Spec.sound_of_validate hv).2 hc
  obtain ⟨core, -, rfl⟩ := h.mem_programs.1 hp
  have hplay := h.playable core
  have hbytes : (v.corePlan flows core).assemble.bytes.length < UInt32.size := by
    rw [show (v.corePlan flows core).assemble.bytes = Stream.pack (v.corePlan flows core).commands
      from rfl, Stream.length_pack]
    exact CorePlan.size_commands_lt hplay
  exact ⟨Nat.lt_trans hplay.sources_lt (by decide), Nat.lt_trans hplay.sinks_lt (by decide),
    Nat.lt_trans hplay.slots_lt (by decide), hbytes⟩

/-- There is room for an experiment, whatever its phase, if there is for each of its dumps. -/
theorem fits_captured {s : Spec} {v : ValidSpec} (hv : s.validate = .ok v) {e : Experiment}
    (h : e.phase.Consistent v) {a : Archive} (ha : e.capture? = some a)
    (hprograms : a.programs.size < MessagePack.lengths)
    (hdumps : ∀ d ∈ a.dumps.values, d.bytes.length < MessagePack.lengths) : a.Fits := by
  obtain ⟨c, hc, rfl⟩ := Option.map_eq_some_iff.1 ha
  -- the cores that were read and those that were not reached are among those of the programs
  have hcores : ∀ roster, e.phase.roster? = some roster → roster.Splits c := by
    intro roster hroster
    obtain ⟨d, hd, hsplits⟩ := h.splits hroster
    rw [hc] at hd
    cases hd
    exact hsplits
  have hread : e.phase.dumps.size ≤ c.programs.size := by
    refine Table.size_le_of_keys fun core hcore => ?_
    obtain ⟨roster, hroster, hloaded⟩ := h.covers hcore
    exact ((hcores roster hroster).mem_keys core).2 (.inl hloaded)
  have hmissing : Table.size e.phase.unreachable ≤ c.programs.size := by
    refine Table.size_le_of_keys fun core hcore => ?_
    unfold Phase.unreachable at hcore
    cases hroster : e.phase.roster? with
    | none =>
      rw [hroster] at hcore
      cases hcore
    | some roster =>
      rw [hroster] at hcore
      exact ((hcores roster hroster).mem_keys core).2 (.inr hcore)
  exact ⟨hprograms, Nat.lt_of_le_of_lt hread hprograms, Nat.lt_of_le_of_lt hmissing hprograms,
    fun p hp => fits_compiled hv (h.compile_eq hc) hp, hdumps⟩

/-! ## Main result -/

/-- What is saved is loaded; and a collected run that is captured, saved and loaded again replays
the report that decoding it gives.  Lengths of 2^32 and more cannot be written: there is room for an
experiment, whatever calls were made of it, unless it has a dump or a list of programs as long as
that. -/
theorem replay_of_saved :
    (∀ a : Archive, a.Fits → Archive.load? a.save = some a) ∧
    (∀ (e : Experiment) (c : Compiled) (roster : Roster) (dumps : Table CoreId CounterDump),
      e.phase = .collected c roster dumps →
      ∃ a, e.capture? = some a ∧
        (a.Fits → ∃ b, Archive.load? a.save = some b ∧ e.decode.1 = .ok b.replay)) ∧
    (∀ (s : Spec) (v : ValidSpec) (opts : RunOptions) (σ : Type) (t : Transport σ)
      (calls : List Call) (state : σ) (a : Archive), s.validate = .ok v →
      (Experiment.performAll t calls (.new v opts) state).1.capture? = some a →
      a.programs.size < MessagePack.lengths →
      (∀ d ∈ a.dumps.values, d.bytes.length < MessagePack.lengths) → a.Fits) := by
  have hload : ∀ a : Archive, a.Fits → Archive.load? a.save = some a := by
    intro a ha
    have h := Archive.load?_save ha []
    rwa [List.append_nil] at h
  refine ⟨hload, ?_, ?_⟩
  · intro e c roster dumps hphase
    refine ⟨⟨c.programs, dumps, roster.unreachable⟩, ?_, fun ha => ⟨_, hload _ ha, ?_⟩⟩
    · unfold Experiment.capture?
      rw [hphase]
      rfl
    · unfold Experiment.decode
      rw [hphase]
      rfl
  · intro s v opts σ t calls state a hv ha hprograms hdumps
    have hnew : (Experiment.new v opts).phase.Consistent v := trivial
    obtain ⟨-, hconsistent⟩ :=
      Experiment.performAll_consistent t calls (e := .new v opts) state hnew
    exact fits_captured hv hconsistent ha hprograms hdumps

/-- A machine that does not reach its second core. -/
def MachineConfig.secondMissing : MachineConfig :=
  { MachineConfig.standard with unreachable := .ofList [⟨1⟩] }

/-- The experiment of a valid specification after it has run on that machine. -/
def ValidSpec.collect (v : ValidSpec) : Experiment :=
  (Experiment.performAll Machine.transport [.compile, .load none, .run .never] (.new v .standard)
    (.new .secondMissing)).1

/-- The numbers of programs, of bytes in each dump, and of cores that were not reached. -/
def Phase.sizes? : Phase → Option (Nat × List Nat × Nat)
  | .collected c roster dumps =>
    some (c.programs.size, dumps.values.map (·.bytes.length), roster.unreachable.size)
  | _ => none

/-- The specification runs there, and one dump is read. -/
theorem Spec.twoCores_collects : ∃ v c roster dumps, Spec.twoCores.validate = .ok v ∧
    v.collect.phase = .collected c roster dumps ∧ c.programs.size = 2 ∧
    (dumps.values.map (·.bytes.length)) = [108] ∧ roster.unreachable.size = 1 := by
  have hsizes : (Spec.twoCores.validate.toOption.bind fun v => v.collect.phase.sizes?) =
      some (2, [108], 1) := by
    decide +kernel
  obtain ⟨v, hv, hsizes⟩ := Option.bind_eq_some_iff.1 hsizes
  have hvalid : Spec.twoCores.validate = .ok v := Checked.toOption_eq_some.1 hv
  unfold Phase.sizes? at hsizes
  split at hsizes
  · next c roster dumps hphase =>
    obtain ⟨hprograms, hlengths, hmissing⟩ : c.programs.size = 2 ∧
        dumps.values.map (·.bytes.length) = [108] ∧ roster.unreachable.size = 1 := by
      simpa using hsizes
    exact ⟨v, c, roster, dumps, hvalid, hphase, hprograms, hlengths, hmissing⟩
  · cases hsizes

theorem replay_of_saved_secondMissing :
    ∃ (v : ValidSpec) (a b : Archive), Spec.twoCores.validate = .ok v ∧
      v.collect.capture? = some a ∧ a.programs.size = 2 ∧ a.unreachable.size = 1 ∧ a.Fits ∧
      Archive.load? a.save = some b ∧ v.collect.decode.1 = .ok b.replay := by
  obtain ⟨v, c, roster, dumps, hv, hphase, hprograms, hlengths, hmissing⟩ :=
    Spec.twoCores_collects
  obtain ⟨-, hreplay, hfits⟩ := replay_of_saved
  obtain ⟨a, hcapture, hload⟩ := hreplay v.collect c roster dumps hphase
  have ha : a = ⟨c.programs, dumps, roster.unreachable⟩ := by
    unfold Experiment.capture? at hcapture
    rw [hphase] at hcapture
    exact (Option.some_inj.1 hcapture).symm
  subst ha
  have hfew : c.programs.size < MessagePack.lengths := by
    rw [hprograms]
    decide
  have hshort : ∀ d ∈ dumps.values, d.bytes.length < MessagePack.lengths := by
    intro d hd
    have hlength := List.mem_map_of_mem (f := fun d => d.bytes.length) hd
    rw [hlengths, List.mem_singleton] at hlength
    rw [hlength]
    decide
  have hroom := hfits _ v .standard _ Machine.transport _ _ _ hv hcapture hfew hshort
  obtain ⟨b, hb, hdecode⟩ := hload hroom
  exact ⟨v, _, b, hv, hcapture, hprograms, hmissing, hroom, hb, hdecode⟩

end TrafficLab
