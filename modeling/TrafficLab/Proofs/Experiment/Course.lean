import TrafficLab.Experiment
import TrafficLab.Proofs.Compilation
import TrafficLab.Proofs.Experiment.Tasks
import TrafficLab.Proofs.Report.Isolation

/-!
# Courses of an experiment

An experiment loads its cores and then reads those that were loaded, in both cases with tasks that
take turns in any order.  Which cores are loaded, what has been read and what the report says of a
core follow from the answers to each core alone.

    a course → each core is where its own answers have brought it           (Course.classified)
    the same answers to each attempt → the same roster, dumps and report     (Course.same)
    a load that ends is one with tasks                                      (exists_loads)
    a run that ends and is not cancelled reads with tasks                   (exists_reads)
-/

namespace TrafficLab

/-! ## Courses -/

/-- The roster when these cores have been loaded. -/
def Roster.ofSuccesses (c : Compiled) (successes : List (CoreId × Unit)) : Roster :=
  let loaded : KeySet CoreId := .ofList (successes.map (·.1))
  ⟨loaded, (KeySet.ofList c.programs.keys).without loaded⟩

/-- The dumps when these cores have been read. -/
def dumpsOf (successes : List (CoreId × List UInt8)) : Table CoreId CounterDump :=
  .ofList (successes.map fun (core, bytes) => (core, ⟨core, bytes⟩))

/-- What a load and a collection come to in which tasks took turns as the events say. -/
structure Course (opts : RunOptions) (c : Compiled) (loads : List (TaskEvent Unit))
    (reads : List (TaskEvent (List UInt8))) (roster : Roster) (dumps : Table CoreId CounterDump) :
    Prop where
  load : ∃ crew : Crew Unit, Crew.Runs opts c.programs.keys .new loads crew ∧
    crew.Done c.programs.keys ∧ roster = .ofSuccesses c crew.successes
  read : ∃ crew : Crew (List UInt8), Crew.Runs opts roster.loaded.keys .new reads crew ∧
    crew.Done roster.loaded.keys ∧ dumps = dumpsOf crew.successes

/-- What follows from the answers to each core. -/
structure Classified (retries : Nat) (c : Compiled) (loads : List (TaskEvent Unit))
    (reads : List (TaskEvent (List UInt8))) (roster : Roster) (dumps : Table CoreId CounterDump) :
    Prop where
  /-- Each core is tried until an attempt does not fail, and at most `retries + 1` times. -/
  load_attempts : ∀ core ∈ c.programs.keys, Persistent retries (answersTo core loads)
  read_attempts : ∀ core ∈ roster.loaded.keys, Persistent retries (answersTo core reads)
  /-- Only cores that were loaded are read. -/
  only_loaded : ∀ core, core ∉ roster.loaded.keys → answersTo core reads = []
  loaded : ∀ core, core ∈ roster.loaded.keys ↔
    core ∈ c.programs.keys ∧ .value () ∈ answersTo core loads
  unreachable : ∀ core, core ∈ roster.unreachable.keys ↔
    core ∈ c.programs.keys ∧ .value () ∉ answersTo core loads
  /-- The dump of a core is what its first read that succeeds has brought. -/
  read : ∀ core dump, dumps.get? core = some dump ↔
    dump.core = core ∧ .value dump.bytes ∈ answersTo core reads
  reported : ∀ core p, c.programs.get? core = some p → ∃ r,
    (Report.ofDumps c.programs dumps roster.unreachable).cores.get? core = some r ∧
    (r.status = .unreachable ↔ core ∈ roster.unreachable.keys) ∧
    (r.status = .missing ↔ core ∈ roster.loaded.keys ∧ dumps.get? core = none) ∧
    ∀ dump, dumps.get? core = some dump → r.status = (Dump.read p dump).status.coreStatus

/-- What an attempt is answered depends on the core and on the number of the attempt, and not on
what happens to other cores. -/
def AnswersAgree {α : Type} (events events' : List (TaskEvent α)) : Prop :=
  ∀ core (k : Nat) a b, (answersTo core events)[k]? = some a →
    (answersTo core events')[k]? = some b → a = b

/-- No dump is read as one that is not there. -/
theorem DumpStatus.coreStatus_ne (s : DumpStatus) :
    s.coreStatus ≠ .unreachable ∧ s.coreStatus ≠ .missing := by
  cases s <;> simp [coreStatus]

/-- How a core is reported, given that it has a dump only if it is not unreachable. -/
theorem Readout.status_ofDump? (unreachable : KeySet CoreId) (core : CoreId) (p : Program)
    {dump? : Option CounterDump} (h : dump? ≠ none → core ∉ unreachable.keys) :
    ((Readout.ofDump? unreachable core p dump?).status = .unreachable ↔ core ∈ unreachable.keys) ∧
    ((Readout.ofDump? unreachable core p dump?).status = .missing ↔
      core ∉ unreachable.keys ∧ dump? = none) ∧
    ∀ dump, dump? = some dump →
      (Readout.ofDump? unreachable core p dump?).status =
        (Dump.read p dump).status.coreStatus := by
  cases dump? with
  | some dump =>
    obtain ⟨hunreachable, hmissing⟩ := (Dump.read p dump).status.coreStatus_ne
    refine ⟨iff_of_false hunreachable (h (by simp)), iff_of_false hmissing (by simp), ?_⟩
    rintro other ⟨⟩
    rfl
  | none =>
    unfold Readout.ofDump?
    rw [← Table.contains_eq_true]
    cases unreachable.contains core <;> simp

namespace Course

variable {opts : RunOptions} {c : Compiled} {loads : List (TaskEvent Unit)}
  {reads : List (TaskEvent (List UInt8))} {roster : Roster} {dumps : Table CoreId CounterDump}
  (h : Course opts c loads reads roster dumps)

include h

theorem mem_loaded {core : CoreId} : core ∈ roster.loaded.keys ↔
    core ∈ c.programs.keys ∧ .value () ∈ answersTo core loads := by
  obtain ⟨crew, hruns, hdone, rfl⟩ := h.load
  show core ∈ (KeySet.ofList (crew.successes.map (·.1))).keys ↔ _
  rw [KeySet.mem_keys_ofList, List.mem_map]
  constructor
  · rintro ⟨⟨core, ⟨⟩⟩, hmem, rfl⟩
    have hvalue := (hruns.mem_successes_iff hdone).1 hmem
    refine ⟨?_, hvalue⟩
    by_contra hnot
    rw [hruns.answersTo_eq_nil hnot] at hvalue
    cases hvalue
  · rintro ⟨-, hvalue⟩
    exact ⟨(core, ()), (hruns.mem_successes_iff hdone).2 hvalue, rfl⟩

theorem mem_unreachable {core : CoreId} : core ∈ roster.unreachable.keys ↔
    core ∈ c.programs.keys ∧ core ∉ roster.loaded.keys := by
  obtain ⟨crew, -, -, rfl⟩ := h.load
  show core ∈ ((KeySet.ofList c.programs.keys).without _).keys ↔ _
  rw [KeySet.mem_keys_without, KeySet.mem_keys_ofList]
  rfl

theorem get?_dumps {core : CoreId} {dump : CounterDump} : dumps.get? core = some dump ↔
    dump.core = core ∧ .value dump.bytes ∈ answersTo core reads := by
  obtain ⟨crew, hruns, hdone, rfl⟩ := h.read
  have hnodup : ((crew.successes.map fun e => (e.1, (⟨e.1, e.2⟩ : CounterDump))).map
      (·.1)).Nodup := by
    rw [List.map_map]
    exact hruns.nodup_successes
  show (Table.ofList (crew.successes.map fun e => (e.1, (⟨e.1, e.2⟩ : CounterDump)))).get? core =
    some dump ↔ _
  rw [Table.get?_ofList hnodup, List.mem_map, ← hruns.mem_successes_iff hdone]
  constructor
  · rintro ⟨⟨core, bytes⟩, hmem, ⟨⟩⟩
    exact ⟨rfl, hmem⟩
  · rintro ⟨rfl, hmem⟩
    exact ⟨_, hmem, rfl⟩

theorem answersTo_reads_eq_nil {core : CoreId} (hcore : core ∉ roster.loaded.keys) :
    answersTo core reads = [] := by
  obtain ⟨crew, hruns, -, -⟩ := h.read
  exact hruns.answersTo_eq_nil hcore

theorem persistent_loads {core : CoreId} (hcore : core ∈ c.programs.keys) :
    Persistent opts.retries.toNat (answersTo core loads) := by
  obtain ⟨crew, hruns, hdone, -⟩ := h.load
  obtain ⟨outcome, -, hconcluded⟩ := hruns.exists_outcome hdone hcore
  exact hconcluded.persistent

theorem persistent_reads {core : CoreId} (hcore : core ∈ roster.loaded.keys) :
    Persistent opts.retries.toNat (answersTo core reads) := by
  obtain ⟨crew, hruns, hdone, -⟩ := h.read
  obtain ⟨outcome, -, hconcluded⟩ := hruns.exists_outcome hdone hcore
  exact hconcluded.persistent

/-- A core with a dump was loaded. -/
theorem mem_loaded_of_dump {core : CoreId} (hdump : dumps.get? core ≠ none) :
    core ∈ roster.loaded.keys := by
  by_contra hnot
  obtain ⟨dump, hget⟩ := Option.ne_none_iff_exists'.1 hdump
  have hvalue := (h.get?_dumps.1 hget).2
  rw [h.answersTo_reads_eq_nil hnot] at hvalue
  cases hvalue

/-- Whatever the order of the events, each core is where its own answers have brought it. -/
theorem classified : Classified opts.retries.toNat c loads reads roster dumps := by
  refine ⟨fun core => h.persistent_loads, fun core => h.persistent_reads,
    fun core => h.answersTo_reads_eq_nil, fun core => h.mem_loaded, fun core => ?_,
    fun core dump => h.get?_dumps, fun core p hp => ?_⟩
  · rw [h.mem_unreachable, h.mem_loaded]
    exact and_congr_right fun hcore => not_congr (and_iff_right hcore)
  · have hcore : core ∈ c.programs.keys := Table.mem_keys.2 ⟨p, hp⟩
    have hloaded : core ∉ roster.unreachable.keys ↔ core ∈ roster.loaded.keys := by
      rw [h.mem_unreachable, and_iff_right hcore, not_not]
    obtain ⟨hunreachable, hmissing, hdump⟩ := Readout.status_ofDump? roster.unreachable core p
      fun hdump => hloaded.2 (h.mem_loaded_of_dump hdump)
    rw [hloaded] at hmissing
    exact ⟨_, get?_cores_ofDumps hp, hunreachable, hmissing,
      hdump⟩

/-- Courses in which every attempt is answered alike come to the same, in whatever order their
events are and however many tasks may be under way. -/
theorem same {opts' : RunOptions} {loads' : List (TaskEvent Unit)}
    {reads' : List (TaskEvent (List UInt8))} {roster' : Roster}
    {dumps' : Table CoreId CounterDump} (h' : Course opts' c loads' reads' roster' dumps')
    (hretries : opts'.retries = opts.retries) (hloads : AnswersAgree loads loads')
    (hreads : AnswersAgree reads reads') : roster' = roster ∧ dumps' = dumps := by
  have hloaded : roster'.loaded = roster.loaded := by
    refine KeySet.ext_keys fun core => ?_
    rw [h.mem_loaded, h'.mem_loaded]
    refine and_congr_right fun hcore => ?_
    have hpersistent := h'.persistent_loads hcore
    rw [hretries] at hpersistent
    rw [(h.persistent_loads hcore).eq_of_agree hpersistent (hloads core)]
  have hunreachable : roster'.unreachable = roster.unreachable :=
    KeySet.ext_keys fun core => by rw [h.mem_unreachable, h'.mem_unreachable, hloaded]
  refine ⟨?_, Table.ext_get? fun core => Option.ext fun dump => ?_⟩
  · cases roster
    cases roster'
    cases hloaded
    cases hunreachable
    rfl
  · rw [h.get?_dumps, h'.get?_dumps]
    refine and_congr_right fun _ => ?_
    by_cases hcore : core ∈ roster.loaded.keys
    · have hpersistent := h'.persistent_reads (hloaded.symm ▸ hcore)
      rw [hretries] at hpersistent
      rw [(h.persistent_reads hcore).eq_of_agree hpersistent (hreads core)]
    · rw [h.answersTo_reads_eq_nil hcore, h'.answersTo_reads_eq_nil (hloaded.symm ▸ hcore)]

end Course

/-! ## What is carried out is a course -/

namespace Experiment

variable {σ : Type} (t : Transport σ)

/-- How a program is loaded onto its core. -/
def loadRequest (c : Compiled) (core : CoreId) (s : σ) : Answer Unit × σ :=
  t.load core (((c.programs.get? core).map (·.bytes)).getD []) s

/-- A load that ends is a load with tasks. -/
theorem exists_loads {e : Experiment} {c : Compiled} (hphase : e.phase = .compiled c)
    {abandon : Option Duration} {s : σ} (hdone : (e.load t abandon s).ending = .done ()) :
    ∃ loads crew, Crew.Runs e.opts c.programs.keys .new loads crew ∧
      crew.Done c.programs.keys ∧
      (e.load t abandon s).experiment =
        { e with phase := .loaded c (.ofSuccesses c crew.successes) } ∧
      Replies (loadRequest t c) s loads (e.load t abandon s).state := by
  unfold load at hdone ⊢
  simp only [hphase] at hdone ⊢
  split at hdone
  case isFalse => cases hdone
  case isTrue hpermits =>
  rw [if_pos hpermits]
  split at hdone
  · cases hdone
  · next huncut =>
    rw [if_neg huncut]
    obtain ⟨loads, crew, hruns, hjoined, hsuccesses, hreplies⟩ :=
      exists_crew_of_sweep c.programs.keys_nodup (Bool.eq_false_of_not_eq_true huncut)
    refine ⟨loads, crew, hruns, hjoined, ?_, hreplies⟩
    rw [hsuccesses]
    rfl

/-- A run that is stopped is not through. -/
theorem stop_eq_never {stop : Stop} {e : Experiment} {c : Compiled} {roster : Roster}
    {dumps : Table CoreId CounterDump} {now : Nat} {s : σ}
    (hdone : (stopped stop e c roster dumps now s).ending = .done ())
    (htime : ∀ after, stop = .cancel after →
      (stopped stop e c roster dumps now s).elapsed < after.nanos) : stop = .never := by
  cases stop with
  | never => rfl
  | cancel after => exact absurd (htime after rfl) (Nat.not_lt.2 (Nat.le_max_right ..))
  | abandon after => cases hdone

/-- A collection that ends and is not cancelled by then is one with tasks. -/
theorem exists_reads_collect {e : Experiment} {c : Compiled} {roster : Roster} {stop : Stop}
    {now : Nat} {s : σ} (hdone : (collect t stop e c roster now s).ending = .done ())
    (htime : ∀ after, stop = .cancel after →
      (collect t stop e c roster now s).elapsed < after.nanos) :
    ∃ reads crew, Crew.Runs e.opts roster.loaded.keys .new reads crew ∧
      crew.Done roster.loaded.keys ∧
      (collect t stop e c roster now s).experiment =
        { e with phase := .collected c roster (dumpsOf crew.successes) } ∧
      Replies t.read s reads (collect t stop e c roster now s).state := by
  unfold collect at hdone htime ⊢
  simp only at hdone htime ⊢
  split at hdone
  case isFalse => cases hdone
  case isTrue hpermits =>
  rw [if_pos hpermits] at htime ⊢
  split at hdone
  · next hcut =>
    simp only [hcut, if_true] at htime
    obtain rfl := stop_eq_never hdone htime
    exact absurd hcut (Bool.eq_false_iff.1 (isCut_sweep_none e.opts _ _ _ _ _))
  · next huncut =>
    rw [if_neg huncut]
    obtain ⟨reads, crew, hruns, hjoined, hsuccesses, hreplies⟩ :=
      exists_crew_of_sweep roster.loaded.keys_nodup (Bool.eq_false_of_not_eq_true huncut)
    refine ⟨reads, crew, hruns, hjoined, ?_, hreplies⟩
    rw [hsuccesses]
    rfl

/-- A run that ends and is not cancelled by then reads the cores with tasks. -/
theorem exists_reads {e : Experiment} {c : Compiled} {roster : Roster}
    (hphase : e.phase = .loaded c roster) {stop : Stop} {s : σ}
    (hdone : (e.run t stop s).ending = .done ())
    (htime : ∀ after, stop = .cancel after → (e.run t stop s).elapsed < after.nanos) :
    ∃ reads crew s₁, Crew.Runs e.opts roster.loaded.keys .new reads crew ∧
      crew.Done roster.loaded.keys ∧
      (e.run t stop s).experiment =
        { e with phase := .collected c roster (dumpsOf crew.successes) } ∧
      Replies t.read s₁ reads (e.run t stop s).state := by
  unfold run at hdone htime ⊢
  simp only [hphase] at hdone htime ⊢
  cases hkeys : roster.loaded.keys with
  | nil =>
    simp only
    exact ⟨[], .new, s, .nil, by simp [Crew.Done], rfl, .nil⟩
  | cons first rest =>
    simp only [hkeys] at hdone htime ⊢
    rw [← hkeys] at hdone htime ⊢
    generalize hstarted : attempt e.opts stop.abandonTime
      (t.start roster.loaded.keys e.spec.spec.duration) e.opts.retries.toNat 0 s = started
      at hdone htime ⊢
    cases houtcome : started.outcome with
    | failure err =>
      simp only [houtcome] at hdone
      cases hdone
    | crash =>
      simp only [houtcome] at hdone
      cases hdone
    | cut =>
      simp only [houtcome] at hdone htime
      obtain rfl := stop_eq_never hdone htime
      rw [← hstarted] at houtcome
      exact absurd houtcome (outcome_attempt_none e.opts _ _ _ _)
    | success x =>
      simp only [houtcome] at hdone htime ⊢
      cases hwait : e.spec.spec.duration.toDuration.add? e.opts.grace with
      | none =>
        simp only [hwait] at hdone
        cases hdone
      | some wait =>
      simp only [hwait] at hdone htime ⊢
      split at hdone
      · next hover =>
        simp only [hover, if_true] at htime
        obtain rfl := stop_eq_never hdone htime
        cases hover
      · next hover =>
        rw [if_neg hover] at htime ⊢
        obtain ⟨reads, crew, hreads⟩ := exists_reads_collect t hdone htime
        exact ⟨reads, crew, _, hreads⟩

end Experiment

/-! ## Main result -/

/-- In whatever order the tasks take turns, and whatever the transport answers, each core is tried
until its first success and at most `retries + 1` times, and is loaded, read and reported as its own
answers say.  So neither the order nor the number of tasks under way makes a difference, as long as
each attempt is answered alike.  A load and a run that are carried out with a transport and are not
cancelled are of this kind. -/
theorem classified_by_own_answers (c : Compiled) (opts : RunOptions) :
    (∀ loads reads roster dumps, Course opts c loads reads roster dumps →
      Classified opts.retries.toNat c loads reads roster dumps ∧
      ∀ opts' loads' reads' roster' dumps', Course opts' c loads' reads' roster' dumps' →
        opts'.retries = opts.retries → AnswersAgree loads loads' → AnswersAgree reads reads' →
        roster' = roster ∧ dumps' = dumps ∧
        Report.ofDumps c.programs dumps' roster'.unreachable =
          Report.ofDumps c.programs dumps roster.unreachable) ∧
    ∀ (σ : Type) (t : Transport σ) (v : ValidSpec) (abandon : Option Duration)
      (stop : Experiment.Stop) (s : σ) (loaded ran : Performed σ Unit),
      Experiment.load t abandon ⟨v, opts, .compiled c⟩ s = loaded → loaded.ending = .done () →
      Experiment.run t stop loaded.experiment loaded.state = ran → ran.ending = .done () →
      (∀ after, stop = .cancel after → ran.elapsed < after.nanos) →
      ∃ loads reads roster dumps s₁, Course opts c loads reads roster dumps ∧
        Replies (Experiment.loadRequest t c) s loads loaded.state ∧
        Replies t.read s₁ reads ran.state ∧
        loaded.experiment.phase = .loaded c roster ∧
        ran.experiment.phase = .collected c roster dumps ∧
        ran.experiment.decode.1 = .ok (Report.ofDumps c.programs dumps roster.unreachable) := by
  refine ⟨fun loads reads roster dumps h => ⟨h.classified, ?_⟩, ?_⟩
  · intro opts' loads' reads' roster' dumps' h' hretries hloads hreads
    obtain ⟨rfl, rfl⟩ := h.same h' hretries hloads hreads
    exact ⟨rfl, rfl, rfl⟩
  · rintro σ t v abandon stop s loaded ran rfl hdone rfl hran htime
    obtain ⟨loads, crew, hruns, hjoined, hloaded, hreplies⟩ :=
      Experiment.exists_loads t rfl hdone
    rw [hloaded] at hran htime ⊢
    obtain ⟨reads, crew', s₁, hruns', hjoined', hcollected, hreplies'⟩ :=
      Experiment.exists_reads t rfl hran htime
    refine ⟨loads, reads, _, _, s₁, ⟨⟨crew, hruns, hjoined, rfl⟩, ⟨crew', hruns', hjoined', rfl⟩⟩,
      hreplies, hreplies', rfl, ?_, ?_⟩
    · rw [hcollected]
    · rw [hcollected]
      rfl

/-- A transport that does not answer when it is to load the second core, the first two times, and
cannot read the first. -/
def Transport.stubborn : Transport Nat where
  load core _ n := if core = ⟨1⟩ ∧ n < 2 then (.silence, n + 1) else (.value (), n)
  start _ _ n := (.value (), n)
  read core n := if core = ⟨0⟩ then (.error (.unreachable core), n) else (.value [0x54], n)

def Ending.isDone {α : Type} : Ending α → Bool
  | done _ => true
  | _ => false

theorem Ending.eq_done {ending : Ending Unit} (h : ending.isDone = true) : ending = .done () := by
  cases ending with
  | done => rfl
  | _ => cases h

/-- Both cores are loaded in the end, and one of them is read. -/
theorem classified_by_own_answers_stubborn :
    ∃ v c, Spec.twoCores.validate = .ok v ∧ compile v = .ok c ∧
      ∃ loads reads roster dumps, Course .standard c loads reads roster dumps ∧
        Classified 3 c loads reads roster dumps ∧
        roster.loaded.keys = [⟨0⟩, ⟨1⟩] ∧ dumps.keys = [⟨1⟩] := by
  have hruns : (Spec.twoCores.validate.toOption.bind fun v => (compile v).toOption.map fun c =>
      let loaded := Experiment.load .stubborn none ⟨v, .standard, .compiled c⟩ 0
      let ran := Experiment.run .stubborn .never loaded.experiment loaded.state
      (loaded.ending.isDone && ran.ending.isDone,
        ran.experiment.phase.roster?.map (·.loaded.keys), ran.experiment.phase.dumps.keys)) =
      some (true, some [⟨0⟩, ⟨1⟩], [⟨1⟩]) := by
    decide +kernel
  obtain ⟨v, hv, hruns⟩ := Option.bind_eq_some_iff.1 hruns
  obtain ⟨c, hc, hruns⟩ := Option.map_eq_some_iff.1 hruns
  refine ⟨v, c, Checked.toOption_eq_some.1 hv, Checked.toOption_eq_some.1 hc, ?_⟩
  simp only [Prod.mk.injEq, Bool.and_eq_true] at hruns
  obtain ⟨⟨hloaded, hran⟩, hroster, hdumps⟩ := hruns
  obtain ⟨hclassified, hcarried⟩ := classified_by_own_answers c .standard
  obtain ⟨loads, reads, roster, dumps, -, hcourse, -, -, -, hcollected, -⟩ :=
    hcarried Nat .stubborn v none .never 0 _ _ rfl (Ending.eq_done hloaded) rfl
      (Ending.eq_done hran) fun after h => by cases h
  rw [hcollected] at hroster hdumps
  exact ⟨loads, reads, roster, dumps, hcourse, (hclassified _ _ _ _ hcourse).1,
    Option.some_inj.1 hroster, hdumps⟩

end TrafficLab
