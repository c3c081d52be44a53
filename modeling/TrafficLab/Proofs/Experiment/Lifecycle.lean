import TrafficLab.Experiment
import TrafficLab.Proofs.Experiment.Attempts
import TrafficLab.Proofs.Table

/-!
# The life of an experiment

Calls arrive in any order, the transport answers as it likes, and a load or a run may be given up
at any time.  An experiment still goes through its phases in their order, or stays as it is, or is
aborted.

What one call can do is said once, by the constructors of `Turn` (`perform_turn`).  From it:

* a call keeps what a phase holds in agreement (`Turn.consistent`), and so do any number of calls
  (`performAll_consistent`);
* a call moves an experiment along at most one arrow of the diagram (`Turn.moves`).

                                                         ┌→ Collected → Decoded
    Built → Compiled → Loaded ──────────────────────────┤
      └→ Aborted                                         └→ Aborted
-/

namespace TrafficLab

variable {σ : Type}

/-! ## Calls -/

/-- The phase an operation needs. -/
def Operation.needs : Operation → String
  | compile => "Built"
  | load => "Compiled"
  | run => "Loaded"
  | decode => "Collected"

/-- The phase an operation reaches when it is done. -/
def Operation.reaches : Operation → String
  | compile => "Compiled"
  | load => "Loaded"
  | run => "Collected"
  | decode => "Decoded"

/-- What can be asked of an experiment, and when the caller stops waiting for it. -/
inductive Call
  | compile
  | load (abandon : Option Duration)
  | run (stop : Experiment.Stop)
  | decode

def Call.operation : Call → Operation
  | compile => .compile
  | load _ => .load
  | run _ => .run
  | decode => .decode

/-- The end of an operation that takes no time. -/
def Ending.ofResult {α : Type} : Except ExperimentError α → Ending Unit
  | .ok _ => .done ()
  | .error err => .failed err

namespace Experiment

def perform (t : Transport σ) (call : Call) (e : Experiment) (s : σ) : Performed σ Unit :=
  match call with
  | .compile => ⟨.ofResult e.compile.1, e.compile.2, s, 0⟩
  | .load abandon => e.load t abandon s
  | .run stop => e.run t stop s
  | .decode => ⟨.ofResult e.decode.1, e.decode.2, s, 0⟩

/-- The experiment and the transport after some calls. -/
def performAll (t : Transport σ) : List Call → Experiment → σ → Experiment × σ
  | [], e, s => (e, s)
  | call :: rest, e, s =>
    let done := perform t call e s
    performAll t rest done.experiment done.state

end Experiment

/-! ## What one call can do -/

/-- Every core of the compiled programs is either loaded or unreachable. -/
structure Roster.Splits (roster : Roster) (c : Compiled) : Prop where
  mem_keys : ∀ core, core ∈ c.programs.keys ↔
    core ∈ roster.loaded.keys ∨ core ∈ roster.unreachable.keys
  apart : ∀ core ∈ roster.loaded.keys, core ∉ roster.unreachable.keys

/-- Each of the dumps is of a core that was loaded. -/
def Roster.Covers (roster : Roster) (dumps : Table CoreId CounterDump) : Prop :=
  ∀ core ∈ dumps.keys, core ∈ roster.loaded.keys

namespace Experiment

/-- One call: how it ends and what the experiment is then. -/
inductive Turn (e : Experiment) : Call → Ending Unit → Experiment → Prop
  | outOfOrder {call : Call} (h : e.phase.name ≠ call.operation.needs) :
    Turn e call (.failed (.outOfOrder call.operation e.phase)) e
  | compiled {c : Compiled} (h : e.phase = .built) (hc : TrafficLab.compile e.spec = .ok c) :
    Turn e .compile (.done ()) { e with phase := .compiled c }
  | rejected {err : CompileError} (h : e.phase = .built)
      (hc : TrafficLab.compile e.spec = .error err) :
    Turn e .compile (.failed (.compile err)) { e with phase := .aborted none }
  | loadAbandoned {c : Compiled} {abandon : Option Duration} (h : e.phase = .compiled c) :
    Turn e (.load abandon) .abandoned e
  | loadRefused {c : Compiled} {abandon : Option Duration} (h : e.phase = .compiled c)
      (hpermits : e.opts.permitted = false) :
    Turn e (.load abandon) (.failed .crash) e
  | loaded {c : Compiled} {abandon : Option Duration} {roster : Roster}
      (h : e.phase = .compiled c) (hsplits : roster.Splits c) :
    Turn e (.load abandon) (.done ()) { e with phase := .loaded c roster }
  | collected {c : Compiled} {roster : Roster} {stop : Stop} {dumps : Table CoreId CounterDump}
      (h : e.phase = .loaded c roster) (hcovers : roster.Covers dumps) :
    Turn e (.run stop) (.done ()) { e with phase := .collected c roster dumps }
  | runFailed {c : Compiled} {roster : Roster} {stop : Stop} {err : ExperimentError}
      (h : e.phase = .loaded c roster) (herr : ∀ op phase, err ≠ .outOfOrder op phase) :
    Turn e (.run stop) (.failed err) { e with phase := .aborted (some ⟨c, roster, .empty⟩) }
  | runAbandoned {c : Compiled} {roster : Roster} {stop : Stop}
      {dumps : Table CoreId CounterDump} (h : e.phase = .loaded c roster)
      (hcovers : roster.Covers dumps) :
    Turn e (.run stop) .abandoned { e with phase := .aborted (some ⟨c, roster, dumps⟩) }
  | decoded {c : Compiled} {roster : Roster} {dumps : Table CoreId CounterDump}
      (h : e.phase = .collected c roster dumps) :
    Turn e .decode (.done ())
      { e with phase := .decoded c roster (Report.ofDumps c.programs dumps roster.unreachable) }

/-! ### Compiling and decoding -/

theorem compile_turn (e : Experiment) : e.Turn .compile (.ofResult e.compile.1) e.compile.2 := by
  unfold compile
  cases h : e.phase with
  | built =>
    cases hc : TrafficLab.compile e.spec with
    | ok c => exact .compiled h hc
    | error err => exact .rejected h hc
  | _ =>
    simp only [Ending.ofResult, ← h]
    exact .outOfOrder (by simp [h, Phase.name, Call.operation, Operation.needs])

theorem decode_turn (e : Experiment) : e.Turn .decode (.ofResult e.decode.1) e.decode.2 := by
  unfold decode
  cases h : e.phase with
  | collected c roster dumps => exact .decoded h
  | _ =>
    simp only [Ending.ofResult, ← h]
    exact .outOfOrder (by simp [h, Phase.name, Call.operation, Operation.needs])

/-! ### Loading -/

/-- The cores that were loaded and the others. -/
theorem splits_without (c : Compiled) {cores : List CoreId}
    (h : ∀ core ∈ cores, core ∈ c.programs.keys) :
    Roster.Splits ⟨.ofList cores, (KeySet.ofList c.programs.keys).without (.ofList cores)⟩ c := by
  refine ⟨fun core => ?_, fun core hloaded hother => ?_⟩
  · rw [KeySet.mem_keys_without, KeySet.mem_keys_ofList, KeySet.mem_keys_ofList]
    constructor
    · intro hcore
      by_cases hloaded : core ∈ cores
      · exact .inl hloaded
      · exact .inr ⟨hcore, hloaded⟩
    · rintro (hloaded | ⟨hcore, -⟩)
      · exact h core hloaded
      · exact hcore
  · exact (KeySet.mem_keys_without.1 hother).2 hloaded

variable (t : Transport σ)

theorem load_turn (abandon : Option Duration) (e : Experiment) (s : σ) :
    e.Turn (.load abandon) (e.load t abandon s).ending (e.load t abandon s).experiment := by
  unfold load
  cases h : e.phase with
  | compiled c =>
    simp only
    split
    · split
      · exact .loadAbandoned h
      · refine .loaded h (splits_without c fun core hcore => ?_)
        exact mem_of_mem_successes_sweep hcore
    · next hpermits => exact .loadRefused h (Bool.eq_false_iff.2 hpermits)
  | _ =>
    simp only [← h]
    exact .outOfOrder (by simp [h, Phase.name, Call.operation, Operation.needs])

/-! ### Running -/

variable {e : Experiment} {c : Compiled} {roster : Roster}

theorem covers_empty (roster : Roster) : roster.Covers .empty := by
  intro core hcore
  simp at hcore

/-- A run that is stopped keeps what has been read, or is aborted. -/
theorem stopped_turn (h : e.phase = .loaded c roster) {dumps : Table CoreId CounterDump}
    (hcovers : roster.Covers dumps) (stop : Stop) (now : Nat) (s : σ) :
    e.Turn (.run stop) (stopped stop e c roster dumps now s).ending
      (stopped stop e c roster dumps now s).experiment := by
  cases stop with
  | never => exact .collected h hcovers
  | cancel after => exact .collected h hcovers
  | abandon after => exact .runAbandoned h hcovers

theorem collect_turn (h : e.phase = .loaded c roster) (stop : Stop) (now : Nat) (s : σ) :
    e.Turn (.run stop) (collect t stop e c roster now s).ending
      (collect t stop e c roster now s).experiment := by
  unfold collect
  simp only
  -- a core that was not loaded is not asked for its counters
  have hcovers : roster.Covers (Table.ofList ((sweep e.opts stop.time t.read now []
      roster.loaded.keys s).successes.map fun answer => (answer.1, ⟨answer.1, answer.2⟩))) := by
    intro core hcore
    rw [Table.mem_keys_ofList, List.map_map] at hcore
    exact mem_of_mem_successes_sweep hcore
  split
  · split
    · exact stopped_turn h hcovers stop _ _
    · exact .collected h hcovers
  · exact .runFailed h fun op phase herr => by cases herr

theorem run_turn (stop : Stop) (e : Experiment) (s : σ) :
    e.Turn (.run stop) (e.run t stop s).ending (e.run t stop s).experiment := by
  unfold run
  cases h : e.phase with
  | loaded c roster =>
    simp only
    split
    · exact .collected h (covers_empty roster)
    · split
      · exact .runFailed h fun op phase herr => by cases herr
      · exact .runFailed h fun op phase herr => by cases herr
      · exact stopped_turn h (covers_empty roster) stop _ _
      · split
        · exact .runFailed h fun op phase herr => by cases herr
        · split
          · exact stopped_turn h (covers_empty roster) stop _ _
          · exact collect_turn t h stop _ _
  | _ =>
    simp only [← h]
    exact .outOfOrder (by simp [h, Phase.name, Call.operation, Operation.needs])

theorem perform_turn (call : Call) (e : Experiment) (s : σ) :
    e.Turn call (perform t call e s).ending (perform t call e s).experiment := by
  cases call with
  | compile => exact compile_turn e
  | load abandon => exact load_turn t abandon e s
  | run stop => exact run_turn t stop e s
  | decode => exact decode_turn e

/-! ## What a phase holds agrees -/

end Experiment

/-- The programs of a phase are those of the specification, its roster splits their cores, and its
dumps are of loaded cores. -/
def Phase.Consistent (v : ValidSpec) : Phase → Prop
  | built => True
  | compiled c => compile v = .ok c
  | loaded c roster => compile v = .ok c ∧ roster.Splits c
  | collected c roster dumps => compile v = .ok c ∧ roster.Splits c ∧ roster.Covers dumps
  | decoded c roster report => compile v = .ok c ∧ roster.Splits c ∧
      ∃ dumps, roster.Covers dumps ∧ report = Report.ofDumps c.programs dumps roster.unreachable
  | aborted none => True
  | aborted (some r) => compile v = .ok r.compiled ∧ r.roster.Splits r.compiled ∧
      r.roster.Covers r.dumps

namespace Experiment

variable {e e' : Experiment} {call : Call} {ending : Ending Unit}

theorem Turn.consistent (h : e.Turn call ending e') (he : e.phase.Consistent e.spec) :
    e'.spec = e.spec ∧ e'.phase.Consistent e'.spec := by
  cases h with
  | outOfOrder _ => exact ⟨rfl, he⟩
  | compiled _ hc => exact ⟨rfl, hc⟩
  | rejected _ _ => exact ⟨rfl, trivial⟩
  | loadAbandoned _ => exact ⟨rfl, he⟩
  | loadRefused _ _ => exact ⟨rfl, he⟩
  | loaded h hsplits =>
    rw [h] at he
    exact ⟨rfl, he, hsplits⟩
  | collected h hcovers =>
    rw [h] at he
    exact ⟨rfl, he.1, he.2, hcovers⟩
  | runFailed h _ =>
    rw [h] at he
    exact ⟨rfl, he.1, he.2, covers_empty _⟩
  | runAbandoned h hcovers =>
    rw [h] at he
    exact ⟨rfl, he.1, he.2, hcovers⟩
  | decoded h =>
    rw [h] at he
    exact ⟨rfl, he.1, he.2.1, _, he.2.2, rfl⟩

theorem performAll_consistent (t : Transport σ) (calls : List Call) {e : Experiment} (s : σ)
    (he : e.phase.Consistent e.spec) :
    (performAll t calls e s).1.spec = e.spec ∧
      (performAll t calls e s).1.phase.Consistent e.spec := by
  induction calls generalizing e s with
  | nil => exact ⟨rfl, he⟩
  | cons call rest ih =>
    obtain ⟨hspec, hnext⟩ := (perform_turn t call e s).consistent he
    obtain ⟨hrest, hlast⟩ := ih (perform t call e s).state hnext
    rw [hspec] at hrest hlast
    exact ⟨hrest, hlast⟩

end Experiment

/-- What can be seen of a phase between calls. -/
structure Phase.Orderly (v : ValidSpec) (p : Phase) : Prop where
  name_mem : p.name ∈ ["Built", "Compiled", "Loaded", "Collected", "Decoded", "Aborted"]
  compile_eq : ∀ c, p.compiled? = some c → compile v = .ok c
  roster_isSome : p.name ∈ ["Loaded", "Collected", "Decoded"] → p.roster?.isSome
  splits : ∀ roster, p.roster? = some roster → ∃ c, p.compiled? = some c ∧ roster.Splits c
  covers : ∀ core ∈ p.dumps.keys, ∃ roster, p.roster? = some roster ∧ core ∈ roster.loaded.keys
  report_isSome : p.report?.isSome ↔ p.name = "Decoded"
  dumps_decoded : p.name = "Decoded" → p.dumps = .empty

namespace Phase.Consistent

variable {v : ValidSpec} {p : Phase} (h : p.Consistent v)

include h

theorem compile_eq {c : Compiled} (hc : p.compiled? = some c) : compile v = .ok c := by
  cases p with
  | built => cases hc
  | compiled d =>
    obtain rfl : d = c := Option.some_inj.1 hc
    exact h
  | loaded d roster =>
    obtain rfl : d = c := Option.some_inj.1 hc
    exact h.1
  | collected d roster dumps =>
    obtain rfl : d = c := Option.some_inj.1 hc
    exact h.1
  | decoded d roster report =>
    obtain rfl : d = c := Option.some_inj.1 hc
    exact h.1
  | aborted remains =>
    obtain ⟨r, rfl, rfl⟩ := Option.map_eq_some_iff.1 hc
    exact h.1

theorem splits {roster : Roster} (hr : p.roster? = some roster) :
    ∃ c, p.compiled? = some c ∧ roster.Splits c := by
  cases p with
  | built => cases hr
  | compiled c => cases hr
  | loaded c r =>
    obtain rfl : r = roster := Option.some_inj.1 hr
    exact ⟨c, rfl, h.2⟩
  | collected c r dumps =>
    obtain rfl : r = roster := Option.some_inj.1 hr
    exact ⟨c, rfl, h.2.1⟩
  | decoded c r report =>
    obtain rfl : r = roster := Option.some_inj.1 hr
    exact ⟨c, rfl, h.2.1⟩
  | aborted remains =>
    obtain ⟨r, rfl, rfl⟩ := Option.map_eq_some_iff.1 hr
    exact ⟨r.compiled, rfl, h.2.1⟩

theorem covers {core : CoreId} (hcore : core ∈ p.dumps.keys) :
    ∃ roster, p.roster? = some roster ∧ core ∈ roster.loaded.keys := by
  cases p with
  | collected c roster dumps => exact ⟨roster, rfl, h.2.2 core hcore⟩
  | aborted remains =>
    cases remains with
    | none => cases hcore
    | some r => exact ⟨r.roster, rfl, h.2.2 core hcore⟩
  | _ => cases hcore

theorem orderly : p.Orderly v where
  name_mem := by cases p <;> simp [name]
  compile_eq _ hc := h.compile_eq hc
  roster_isSome := by cases p <;> simp [name, roster?]
  splits _ hr := h.splits hr
  covers _ hcore := h.covers hcore
  report_isSome := by cases p <;> simp [report?, name]
  dumps_decoded := by cases p <;> simp [dumps, name]

end Phase.Consistent

/-! ## The order of the phases -/

/-- The arrows between phases.  The programs stay when the roster comes, and both stay from then
on. -/
inductive Phase.Moves : Phase → Phase → Prop
  | compile (c : Compiled) : Moves .built (.compiled c)
  | reject : Moves .built (.aborted none)
  | load (c : Compiled) (roster : Roster) : Moves (.compiled c) (.loaded c roster)
  | collect (c : Compiled) (roster : Roster) (dumps : Table CoreId CounterDump) :
    Moves (.loaded c roster) (.collected c roster dumps)
  | abort (c : Compiled) (roster : Roster) (dumps : Table CoreId CounterDump) :
    Moves (.loaded c roster) (.aborted (some ⟨c, roster, dumps⟩))
  | decode (c : Compiled) (roster : Roster) (dumps : Table CoreId CounterDump)
    (report : Report) : Moves (.collected c roster dumps) (.decoded c roster report)

namespace Experiment

/-- How a call that comes in its turn is served: it is done, or it aborts the experiment, or the
caller gives it up.  A load that is given up has changed nothing, and nor has one for which there
cannot be the permits. -/
def Served (e : Experiment) (call : Call) : Ending Unit → Experiment → Prop
  | .done (), e' => e.phase.Moves e'.phase ∧ e'.phase.name = call.operation.reaches
  | .failed err, e' => (∀ op phase, err ≠ .outOfOrder op phase) ∧
      ((e.phase.Moves e'.phase ∧ e'.phase.name = "Aborted") ∨
        (call.operation = .load ∧ e.opts.permitted = false ∧ e' = e))
  | .abandoned, e' => (call.operation = .load ∧ e' = e) ∨
      (call.operation = .run ∧ e.phase.Moves e'.phase ∧ e'.phase.name = "Aborted")

variable {e e' : Experiment} {call : Call} {ending : Ending Unit}

theorem Turn.eq_of_outOfOrder (h : e.Turn call ending e')
    (hname : e.phase.name ≠ call.operation.needs) :
    ending = .failed (.outOfOrder call.operation e.phase) ∧ e' = e := by
  cases h with
  | outOfOrder _ => exact ⟨rfl, rfl⟩
  | compiled h _ => exact absurd (by rw [h]; rfl) hname
  | rejected h _ => exact absurd (by rw [h]; rfl) hname
  | loadAbandoned h => exact absurd (by rw [h]; rfl) hname
  | loadRefused h _ => exact absurd (by rw [h]; rfl) hname
  | loaded h _ => exact absurd (by rw [h]; rfl) hname
  | collected h _ => exact absurd (by rw [h]; rfl) hname
  | runFailed h _ => exact absurd (by rw [h]; rfl) hname
  | runAbandoned h _ => exact absurd (by rw [h]; rfl) hname
  | decoded h => exact absurd (by rw [h]; rfl) hname

theorem Turn.served (h : e.Turn call ending e')
    (hname : e.phase.name = call.operation.needs) : e.Served call ending e' := by
  cases h with
  | outOfOrder h => exact absurd hname h
  | compiled h _ =>
    refine ⟨?_, rfl⟩
    rw [h]
    exact .compile _
  | rejected h _ =>
    refine ⟨fun op phase herr => (by cases herr), .inl ⟨?_, rfl⟩⟩
    rw [h]
    exact .reject
  | loadAbandoned _ =>
    left
    exact ⟨rfl, rfl⟩
  | loadRefused _ hpermits =>
    exact ⟨fun op phase herr => (by cases herr), .inr ⟨rfl, hpermits, rfl⟩⟩
  | loaded h _ =>
    refine ⟨?_, rfl⟩
    rw [h]
    exact .load _ _
  | collected h _ =>
    refine ⟨?_, rfl⟩
    rw [h]
    exact .collect _ _ _
  | runFailed h herr =>
    refine ⟨herr, .inl ⟨?_, rfl⟩⟩
    rw [h]
    exact .abort _ _ _
  | runAbandoned h _ =>
    right
    refine ⟨rfl, ?_, rfl⟩
    rw [h]
    exact .abort _ _ _
  | decoded h =>
    refine ⟨?_, rfl⟩
    rw [h]
    exact .decode _ _ _ _

end Experiment

/-! ## Main result -/

/-- Between any calls an experiment is in one of its phases and what the phase holds agrees.  The
next call changes nothing if it is out of order, and else takes the experiment along one arrow,
unless it is a load that is given up or for which there cannot be the permits. -/
theorem Experiment.orderly_at_every_call (t : Transport σ) (v : ValidSpec) (opts : RunOptions)
    (calls : List Call) (call : Call) (s : σ) :
    let before := performAll t calls (.new v opts) s
    let after := perform t call before.1 before.2
    before.1.phase.Orderly v ∧
      (before.1.phase.name ≠ call.operation.needs →
        after.ending = .failed (.outOfOrder call.operation before.1.phase) ∧
          after.experiment = before.1) ∧
      (before.1.phase.name = call.operation.needs →
        before.1.Served call after.ending after.experiment) := by
  intro before after
  have hnew : (Experiment.new v opts).phase.Consistent v := trivial
  obtain ⟨-, hconsistent⟩ := performAll_consistent t calls (e := .new v opts) s hnew
  have hturn : before.1.Turn call after.ending after.experiment :=
    perform_turn t call before.1 before.2
  exact ⟨hconsistent.orderly, hturn.eq_of_outOfOrder, hturn.served⟩

end TrafficLab
