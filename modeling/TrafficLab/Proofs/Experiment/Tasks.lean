import Mathlib.Data.List.Nodup
import Mathlib.Logic.Function.Basic
import TrafficLab.Proofs.Experiment.Attempts

/-!
# Tasks that take turns

Every core that is dealt with has a task, and the tasks take turns in any order: one begins when a
permit is free, an attempt of one is answered, the outcome of one is joined.  The transport may
answer every attempt as it likes, or never, which ends the attempt by its timeout.

What one event does is said by the constructors of `Crew.Step`.  From it:

* a task is always where the answers to its own core have brought it (`Agrees.step`, `Runs.agrees`);
* when all are joined, each core has been tried until its first success and at most `retries + 1`
  times, and its outcome is that of its last answer (`Runs.exists_outcome`);
* until then some task can go on (`exists_step`);
* lists of answers that agree attempt by attempt are the same (`Persistent.eq_of_agree`);
* a sweep is one order of turns, in which no two tasks are ever under way (`exists_runs_sweep`).
-/

namespace TrafficLab

variable {α : Type}

/-! ## Answers and attempts -/

/-- Whether an answer leads to another attempt, if one is left. -/
def Answer.fails : Answer α → Bool
  | value _ => false
  | error _ => true
  | silence => true
  | crash => false

/-- What a core comes to with its last answer. -/
def Answer.outcome (opts : RunOptions) : Answer α → Outcome α
  | value x => .success x
  | error e => .failure e
  | silence => .failure (.timeout opts.timeout)
  | crash => .crash

/-- The answers to one core that is tried until an attempt does not fail, and then no more. -/
structure Persistent (retries : Nat) (answers : List (Answer α)) : Prop where
  at_most : answers.length ≤ retries + 1
  /-- No attempt follows one that did not fail. -/
  until_first : ∀ k a, answers[k]? = some a → a.fails = false → k + 1 = answers.length
  /-- Nothing else ends the attempts before there are no more retries. -/
  exhausts : (∀ a ∈ answers, a.fails = true) → answers.length = retries + 1

namespace Persistent

variable {retries : Nat} {answers others : List (Answer α)}

/-- Two lists of answers, of which one is not longer and agrees with the other, end together. -/
theorem length_eq_of_le (h : Persistent retries answers) (h' : Persistent retries others)
    (hle : answers.length ≤ others.length)
    (hagree : ∀ (k : Nat) a b, answers[k]? = some a → others[k]? = some b → a = b) :
    answers.length = others.length := by
  by_cases hall : ∀ a ∈ answers, a.fails = true
  · have hlen := h.exhausts hall
    have hmost := h'.at_most
    omega
  · obtain ⟨a, ha, hfails⟩ : ∃ a ∈ answers, a.fails = false := by simpa using hall
    obtain ⟨k, hk⟩ := List.getElem?_of_mem ha
    have hlast := h.until_first k a hk hfails
    have hother := List.getElem?_eq_getElem (l := others) (i := k) (by omega)
    rw [← hagree k a _ hk hother] at hother
    exact hlast.symm.trans (h'.until_first k a hother hfails)

/-- Answers that agree attempt by attempt are the same. -/
theorem eq_of_agree (h : Persistent retries answers) (h' : Persistent retries others)
    (hagree : ∀ (k : Nat) a b, answers[k]? = some a → others[k]? = some b → a = b) :
    answers = others := by
  have hlen : answers.length = others.length := by
    rcases Nat.le_total answers.length others.length with hle | hle
    · exact h.length_eq_of_le h' hle hagree
    · exact (h'.length_eq_of_le h hle fun k a b ha hb => (hagree k b a hb ha).symm).symm
  refine List.ext_getElem hlen fun k hk hk' => ?_
  exact hagree k _ _ (List.getElem?_eq_getElem hk) (List.getElem?_eq_getElem hk')

end Persistent

/-- What a core has come to after all its attempts. -/
structure Concluded (opts : RunOptions) (answers : List (Answer α)) (outcome : Outcome α) :
    Prop where
  persistent : Persistent opts.retries.toNat answers
  outcome_eq : ∃ a, answers.getLast? = some a ∧ outcome = a.outcome opts

/-- A core has succeeded exactly if one of its attempts has. -/
theorem Concluded.eq_success_iff {opts : RunOptions} {answers : List (Answer α)}
    {outcome : Outcome α} (h : Concluded opts answers outcome) {x : α} :
    outcome = .success x ↔ .value x ∈ answers := by
  obtain ⟨a, hlast, rfl⟩ := h.outcome_eq
  constructor
  · intro ha
    cases a with
    | value y =>
      cases ha
      exact List.mem_of_getLast? hlast
    | _ => cases ha
  · intro hx
    obtain ⟨k, hk⟩ := List.getElem?_of_mem hx
    have hend := h.persistent.until_first k _ hk rfl
    rw [List.getLast?_eq_getElem?, ← hend, Nat.add_sub_cancel, hk] at hlast
    cases hlast
    rfl

/-! ## Tasks -/

/-- How far the task of a core is. -/
inductive Task (α : Type)
  | waiting
  /-- It has a permit, and so many of its attempts have failed. -/
  | trying (failed : Nat)
  | ended (outcome : Outcome α)
  | joined (outcome : Outcome α)

namespace Task

/-- What an answer leads to. -/
def afterAnswer (opts : RunOptions) (failed : Nat) (a : Answer α) : Task α :=
  if a.fails ∧ failed < opts.retries.toNat then .trying (failed + 1) else .ended (a.outcome opts)

/-- No outcome is taken by an answer. -/
theorem afterAnswer_ne_joined (opts : RunOptions) (failed : Nat) (a : Answer α)
    (outcome : Outcome α) : afterAnswer opts failed a ≠ .joined outcome := by
  unfold afterAnswer
  split <;> simp

/-- Whether the task has a permit. -/
def isTrying : Task α → Bool
  | trying _ => true
  | _ => false

/-- Where a task is when its core has given these answers. -/
def Agrees (opts : RunOptions) (answers : List (Answer α)) : Task α → Prop
  | waiting => answers = []
  | trying failed => answers.length = failed ∧ failed ≤ opts.retries.toNat ∧
    ∀ a ∈ answers, a.fails = true
  | ended outcome => Concluded opts answers outcome
  | joined outcome => Concluded opts answers outcome

variable {opts : RunOptions} {answers : List (Answer α)} {a : Answer α}
  (hlen : answers.length ≤ opts.retries.toNat) (hfails : ∀ a ∈ answers, a.fails = true)

include hlen hfails

/-- An answer after which no attempt is made ends the task as it says. -/
theorem concluded_append (hend : ¬(a.fails ∧ answers.length < opts.retries.toNat)) :
    Concluded opts (answers ++ [a]) (a.outcome opts) := by
  have hlength : (answers ++ [a]).length = answers.length + 1 := List.length_append
  refine ⟨⟨by omega, fun k b hk hb => ?_, fun hall => ?_⟩, a, by simp, rfl⟩
  · rw [List.getElem?_append] at hk
    split at hk
    · have hfail := hfails b (List.mem_of_getElem? hk)
      rw [hb] at hfail
      cases hfail
    · have hlt := (List.getElem?_eq_some_iff.1 hk).1
      rw [List.length_singleton] at hlt
      omega
  · have hlast : ¬answers.length < opts.retries.toNat := fun hlt => hend ⟨hall a (by simp), hlt⟩
    omega

/-- An answer takes a task to where it then has to be. -/
theorem agrees_afterAnswer (a : Answer α) :
    (afterAnswer opts answers.length a).Agrees opts (answers ++ [a]) := by
  unfold afterAnswer
  split
  · next hagain =>
    refine ⟨List.length_append, hagain.2, fun b hb => ?_⟩
    rcases List.mem_append.1 hb with hb | hb
    · exact hfails b hb
    · rw [List.mem_singleton.1 hb]
      exact hagain.1
  · next hend => exact concluded_append hlen hfails hend

end Task

/-! ## Events -/

/-- What can happen to the task of a core. -/
inductive TaskEvent (α : Type)
  /-- It gets a permit. -/
  | begin (core : CoreId)
  /-- Its attempt is answered, or times out. -/
  | answer (core : CoreId) (a : Answer α)
  /-- Its outcome is taken. -/
  | join (core : CoreId)

/-- The answers to the attempts of one core, in order. -/
def answersTo (core : CoreId) (events : List (TaskEvent α)) : List (Answer α) :=
  events.filterMap fun
    | .answer c a => if c = core then some a else none
    | _ => none

section
variable (core : CoreId) (events : List (TaskEvent α)) {other : CoreId}

theorem answersTo_append (events' : List (TaskEvent α)) :
    answersTo core (events ++ events') = answersTo core events ++ answersTo core events' :=
  List.filterMap_append

@[simp] theorem answersTo_begin :
    answersTo core (events ++ [.begin other]) = answersTo core events :=
  (answersTo_append core events _).trans (List.append_nil _)

@[simp] theorem answersTo_join :
    answersTo core (events ++ [.join other]) = answersTo core events :=
  (answersTo_append core events _).trans (List.append_nil _)

@[simp] theorem answersTo_answer_self (a : Answer α) :
    answersTo core (events ++ [.answer core a]) = answersTo core events ++ [a] := by
  rw [answersTo_append]
  simp [answersTo]

theorem answersTo_answer_of_ne (h : core ≠ other) (a : Answer α) :
    answersTo core (events ++ [.answer other a]) = answersTo core events := by
  rw [answersTo_append]
  simp [answersTo, h.symm]

end

/-- The tasks of some cores, and the outcomes that have been joined, in that order. -/
structure Crew (α : Type) where
  task : CoreId → Task α
  joined : List (CoreId × Outcome α)

namespace Crew

def new : Crew α := ⟨fun _ => .waiting, []⟩

def set (crew : Crew α) (core : CoreId) (task : Task α) : Crew α :=
  { crew with task := Function.update crew.task core task }

@[simp] theorem task_set_self (crew : Crew α) (core : CoreId) (task : Task α) :
    (crew.set core task).task core = task := Function.update_self ..

theorem task_set_of_ne (crew : Crew α) {core other : CoreId} (h : other ≠ core) (task : Task α) :
    (crew.set core task).task other = crew.task other := Function.update_of_ne h ..

@[simp] theorem set_set (crew : Crew α) (core : CoreId) (task task' : Task α) :
    (crew.set core task).set core task' = crew.set core task' := by
  unfold set
  simp only [Function.update_idem]

/-- How many of the cores have a permit. -/
def inFlight (crew : Crew α) (cores : List CoreId) : Nat :=
  cores.countP fun core => (crew.task core).isTrying

/-- The cores that succeeded, with what they answered, in the order in which they were joined. -/
def successes (crew : Crew α) : List (CoreId × α) :=
  crew.joined.filterMap fun (core, outcome) =>
    match outcome with
    | .success x => some (core, x)
    | _ => none

theorem mem_successes {crew : Crew α} {core : CoreId} {x : α} :
    (core, x) ∈ crew.successes ↔ (core, .success x) ∈ crew.joined :=
  Swept.mem_successes (r := (⟨crew.joined, 0, ()⟩ : Swept Unit α))

/-- All tasks have been joined. -/
def Done (crew : Crew α) (cores : List CoreId) : Prop :=
  ∀ core ∈ cores, ∃ outcome, crew.task core = .joined outcome

/-- One event. -/
inductive Step (opts : RunOptions) (cores : List CoreId) (crew : Crew α) :
    TaskEvent α → Crew α → Prop
  | begin {core : CoreId} (hcore : core ∈ cores) (hwaiting : crew.task core = .waiting)
      (hfree : crew.inFlight cores < max opts.maxInFlight.toNat 1) :
    Step opts cores crew (.begin core) (crew.set core (.trying 0))
  | answer {core : CoreId} {failed : Nat} (a : Answer α)
      (htrying : crew.task core = .trying failed) :
    Step opts cores crew (.answer core a) (crew.set core (.afterAnswer opts failed a))
  | join {core : CoreId} {outcome : Outcome α} (hended : crew.task core = .ended outcome) :
    Step opts cores crew (.join core)
      { crew.set core (.joined outcome) with joined := crew.joined ++ [(core, outcome)] }

/-- Events one after another. -/
inductive Runs (opts : RunOptions) (cores : List CoreId) (crew : Crew α) :
    List (TaskEvent α) → Crew α → Prop
  | nil : Runs opts cores crew [] crew
  | snoc {events : List (TaskEvent α)} {before after : Crew α} {event : TaskEvent α}
      (hruns : Runs opts cores crew events before) (hstep : before.Step opts cores event after) :
    Runs opts cores crew (events ++ [event]) after

/-- Every task is where the answers to its core have brought it, and exactly the joined ones are in
the list, once each. -/
structure Agrees (opts : RunOptions) (cores : List CoreId) (events : List (TaskEvent α))
    (crew : Crew α) : Prop where
  task : ∀ core, (crew.task core).Agrees opts (answersTo core events)
  others : ∀ core, core ∉ cores → crew.task core = .waiting
  joined : ∀ core outcome, (core, outcome) ∈ crew.joined ↔ crew.task core = .joined outcome
  nodup : (crew.joined.map (·.1)).Nodup

namespace Agrees

variable {opts : RunOptions} {cores : List CoreId} {events : List (TaskEvent α)} {crew : Crew α}
  (h : crew.Agrees opts cores events)

theorem start : (new : Crew α).Agrees opts cores [] :=
  ⟨fun _ => rfl, fun _ _ => rfl, fun _ _ => ⟨by simp [new], by simp [new]⟩, List.nodup_nil⟩

include h

theorem mem_of_not_waiting {core : CoreId} (hcore : crew.task core ≠ .waiting) : core ∈ cores := by
  by_contra hnot
  exact hcore (h.others core hnot)

theorem not_joined {core : CoreId} (hcore : ∀ outcome, crew.task core ≠ .joined outcome) :
    core ∉ crew.joined.map (·.1) := by
  intro hmem
  obtain ⟨⟨c, outcome⟩, hjoined, rfl⟩ := List.mem_map.1 hmem
  exact hcore outcome ((h.joined c outcome).1 hjoined)

/-- A task that goes on, with what its core has answered by then. -/
theorem set {core : CoreId} (hcore : core ∈ cores)
    (hbefore : ∀ outcome, crew.task core ≠ .joined outcome) {task : Task α}
    (hafter : ∀ outcome, task ≠ .joined outcome) {events' : List (TaskEvent α)}
    (hself : task.Agrees opts (answersTo core events'))
    (hothers : ∀ other, other ≠ core → answersTo other events' = answersTo other events) :
    (crew.set core task).Agrees opts cores events' := by
  refine ⟨fun other => ?_, fun other hother => ?_, fun other outcome => ?_, h.nodup⟩
  · by_cases heq : other = core
    · subst heq
      rwa [task_set_self]
    · rw [task_set_of_ne crew heq, hothers other heq]
      exact h.task other
  · have hne : other ≠ core := fun e => hother (e ▸ hcore)
    rw [task_set_of_ne crew hne]
    exact h.others other hother
  · show (other, outcome) ∈ crew.joined ↔ _
    rw [h.joined]
    by_cases heq : other = core
    · subst heq
      rw [task_set_self]
      exact iff_of_false (hbefore outcome) (hafter outcome)
    · rw [task_set_of_ne crew heq]

/-- An event keeps the tasks where the answers have brought them. -/
theorem step {event : TaskEvent α} {crew' : Crew α} (hstep : crew.Step opts cores event crew') :
    crew'.Agrees opts cores (events ++ [event]) := by
  cases hstep with
  | @begin core hcore hwaiting hfree =>
    have hnone : answersTo core events = [] := by
      have hagrees := h.task core
      rwa [hwaiting] at hagrees
    refine h.set hcore (by simp [hwaiting]) (by simp) ?_ fun other _ => answersTo_begin other events
    rw [answersTo_begin, hnone]
    exact ⟨rfl, Nat.zero_le _, by simp⟩
  | @answer core failed a htrying =>
    have hagrees := h.task core
    rw [htrying] at hagrees
    obtain ⟨rfl, hle, hfails⟩ := hagrees
    refine h.set (h.mem_of_not_waiting (by simp [htrying])) (by simp [htrying])
      (Task.afterAnswer_ne_joined opts _ a) ?_ fun other hother =>
        answersTo_answer_of_ne other events hother a
    rw [answersTo_answer_self]
    exact Task.agrees_afterAnswer hle hfails a
  | @join core outcome hended =>
    have hagrees := h.task core
    rw [hended] at hagrees
    have hnot : core ∉ crew.joined.map (·.1) := h.not_joined (by simp [hended])
    refine ⟨fun other => ?_, fun other hother => ?_, fun other result => ?_, ?_⟩
    · rw [answersTo_join]
      by_cases heq : other = core
      · subst heq
        show Task.Agrees opts _ ((crew.set other (.joined outcome)).task other)
        rwa [task_set_self]
      · show Task.Agrees opts _ ((crew.set core (.joined outcome)).task other)
        rw [task_set_of_ne crew heq]
        exact h.task other
    · have hne : other ≠ core := fun e =>
        hother (e ▸ h.mem_of_not_waiting (by simp [hended]))
      exact (task_set_of_ne crew hne _).trans (h.others other hother)
    · show (other, result) ∈ crew.joined ++ [(core, outcome)] ↔
        (crew.set core (.joined outcome)).task other = .joined result
      rw [List.mem_append, List.mem_singleton, Prod.mk.injEq, h.joined]
      by_cases heq : other = core
      · subst heq
        rw [task_set_self, hended]
        simp [eq_comm]
      · rw [task_set_of_ne crew heq]
        simp [heq]
    · show ((crew.joined ++ [(core, outcome)]).map (·.1)).Nodup
      rw [List.map_append, List.nodup_append]
      refine ⟨h.nodup, List.nodup_singleton _, ?_⟩
      intro a ha b hb hab
      rw [hab, List.mem_singleton.1 hb] at ha
      exact hnot ha

end Agrees

namespace Runs

variable {opts : RunOptions} {cores : List CoreId} {events : List (TaskEvent α)} {crew : Crew α}
  (h : Runs opts cores .new events crew)

include h

/-- Whatever the order of the events, every task is where the answers to its core have brought
it. -/
theorem agrees : crew.Agrees opts cores events := by
  induction h with
  | nil => exact .start
  | snoc _ hstep ih => exact ih.step hstep

/-- Cores that are not dealt with are not asked anything. -/
theorem answersTo_eq_nil {core : CoreId} (hcore : core ∉ cores) : answersTo core events = [] := by
  have hagrees := h.agrees.task core
  rwa [h.agrees.others core hcore] at hagrees

variable (hdone : crew.Done cores)

include hdone

/-- When all tasks are joined, each core has an outcome in the list, which its own answers have
led to. -/
theorem exists_outcome {core : CoreId} (hcore : core ∈ cores) :
    ∃ outcome, (core, outcome) ∈ crew.joined ∧ Concluded opts (answersTo core events) outcome := by
  obtain ⟨outcome, hjoined⟩ := hdone core hcore
  have hagrees := h.agrees.task core
  rw [hjoined] at hagrees
  exact ⟨outcome, (h.agrees.joined core outcome).2 hjoined, hagrees⟩

/-- The cores that succeed are those of whose attempts one has. -/
theorem mem_successes_iff {core : CoreId} {x : α} :
    (core, x) ∈ crew.successes ↔ .value x ∈ answersTo core events := by
  rw [Crew.mem_successes]
  constructor
  · intro hmem
    have hagrees := h.agrees.task core
    rw [(h.agrees.joined core _).1 hmem] at hagrees
    exact Concluded.eq_success_iff hagrees |>.1 rfl
  · intro hx
    have hcore : core ∈ cores := by
      by_contra hnot
      rw [h.answersTo_eq_nil hnot] at hx
      cases hx
    obtain ⟨outcome, hmem, hconcluded⟩ := h.exists_outcome hdone hcore
    rwa [hconcluded.eq_success_iff.2 hx] at hmem

omit hdone in
/-- A core succeeds at most once. -/
theorem nodup_successes : (crew.successes.map (·.1)).Nodup := by
  unfold successes
  refine List.pairwise_map.2 (List.Pairwise.filterMap _ ?_ (List.pairwise_map.1 h.agrees.nodup))
  rintro ⟨core, outcome⟩ ⟨core', outcome'⟩ hne e he e' he'
  cases outcome with
  | success x =>
    cases outcome' with
    | success y =>
      cases he
      cases he'
      exact hne
    | _ => cases he'
  | _ => cases he

end Runs

/-- As long as some task is not joined, something can happen: no task waits for ever. -/
theorem exists_step (opts : RunOptions) {cores : List CoreId} {crew : Crew α}
    (h : ¬crew.Done cores) : ∃ event crew', crew.Step opts cores event crew' := by
  by_cases htrying : ∃ core failed, crew.task core = .trying failed
  · obtain ⟨core, failed, htrying⟩ := htrying
    exact ⟨_, _, .answer .silence htrying⟩
  · obtain ⟨core, hcore, hnot⟩ : ∃ core ∈ cores, ∀ outcome, crew.task core ≠ .joined outcome := by
      simpa [Done] using h
    cases htask : crew.task core with
    | waiting =>
      have hnone : crew.inFlight cores = 0 := by
        refine List.countP_eq_zero.2 fun other _ => ?_
        cases hother : crew.task other with
        | trying failed => exact absurd ⟨other, failed, hother⟩ htrying
        | _ => simp [Task.isTrying]
      exact ⟨_, _, .begin hcore htask (by omega)⟩
    | trying failed => exact absurd ⟨core, failed, htask⟩ htrying
    | ended outcome => exact ⟨_, _, .join htask⟩
    | joined outcome => exact absurd htask (hnot outcome)

theorem Runs.append {opts : RunOptions} {cores : List CoreId} {crew crew' crew'' : Crew α}
    {events events' : List (TaskEvent α)} (h : Runs opts cores crew events crew')
    (h' : Runs opts cores crew' events' crew'') :
    Runs opts cores crew (events ++ events') crew'' := by
  induction h' with
  | nil =>
    rw [List.append_nil]
    exact h
  | snoc _ hstep ih =>
    rw [← List.append_assoc]
    exact .snoc ih hstep

section
variable {opts : RunOptions} {cores : List CoreId} {crew : Crew α} {core : CoreId} {failed : Nat}
  (htrying : crew.task core = .trying failed) {a : Answer α}

include htrying

/-- The answer after which no attempt is made. -/
theorem runs_last {left : Nat} (hleft : failed + left = opts.retries.toNat)
    (hend : ¬(a.fails ∧ 0 < left)) :
    Runs opts cores crew [.answer core a] (crew.set core (.ended (a.outcome opts))) := by
  have hafter : Task.afterAnswer opts failed a = .ended (a.outcome opts) :=
    if_neg fun hagain => hend ⟨hagain.1, by omega⟩
  rw [← hafter]
  exact .snoc .nil (.answer a htrying)

theorem runs_again (hfails : a.fails) (hlt : failed < opts.retries.toNat) :
    Runs opts cores crew [.answer core a] (crew.set core (.trying (failed + 1))) := by
  have hafter : Task.afterAnswer opts failed a = .trying (failed + 1) := if_pos ⟨hfails, hlt⟩
  rw [← hafter]
  exact .snoc .nil (.answer a htrying)

end

end Crew

/-! ## Transports -/

variable {σ : Type}

/-- A transport answers the attempts among some events, one after another. -/
inductive Replies (request : CoreId → σ → Answer α × σ) (s : σ) : List (TaskEvent α) → σ → Prop
  | nil : Replies request s [] s
  | begin {events : List (TaskEvent α)} {s' : σ} (core : CoreId) (h : Replies request s events s') :
    Replies request s (events ++ [.begin core]) s'
  | answer {events : List (TaskEvent α)} {s' s'' : σ} {core : CoreId} {a : Answer α}
      (h : Replies request s events s') (ha : request core s' = (a, s'')) :
    Replies request s (events ++ [.answer core a]) s''
  | join {events : List (TaskEvent α)} {s' : σ} (core : CoreId) (h : Replies request s events s') :
    Replies request s (events ++ [.join core]) s'

theorem Replies.append {request : CoreId → σ → Answer α × σ} {s s' s'' : σ}
    {events events' : List (TaskEvent α)} (h : Replies request s events s')
    (h' : Replies request s' events' s'') : Replies request s (events ++ events') s'' := by
  induction h' with
  | nil =>
    rw [List.append_nil]
    exact h
  | begin core _ ih =>
    rw [← List.append_assoc]
    exact .begin core ih
  | answer _ ha ih =>
    rw [← List.append_assoc]
    exact .answer ih ha
  | join core _ ih =>
    rw [← List.append_assoc]
    exact .join core ih

/-! ## Sweeps as one order of turns -/

section
variable {opts : RunOptions} {limit : Option Nat}

/-- What a request comes to that is made at some time and is not cut: its answer ends it, or it is
made again. -/
theorem attempt_cases {request : σ → Answer α × σ} {left now : Nat} {s : σ}
    (h : (attempt opts limit request left now s).outcome ≠ .cut) :
    ∃ a s', request s = (a, s') ∧
      (¬(a.fails ∧ 0 < left) ∧
        (attempt opts limit request left now s).outcome = a.outcome opts ∧
        (attempt opts limit request left now s).state = s' ∨
      a.fails ∧ ∃ less later, left = less + 1 ∧
        attempt opts limit request left now s = attempt opts limit request less later s') := by
  generalize htried : attempt opts limit request left now s = tried at h ⊢
  unfold attempt at htried
  cases hanswer : request s with
  | mk a s' =>
    refine ⟨a, s', rfl, ?_⟩
    rw [hanswer] at htried
    split at htried
    · exact absurd (congrArg Tried.outcome htried.symm) h
    · cases a with
      | value x =>
        subst htried
        exact .inl ⟨by simp [Answer.fails], rfl, rfl⟩
      | crash =>
        subst htried
        exact .inl ⟨by simp [Answer.fails], rfl, rfl⟩
      | error e =>
        cases left with
        | zero =>
          subst htried
          exact .inl ⟨by simp, rfl, rfl⟩
        | succ less => exact .inr ⟨rfl, less, _, rfl, htried.symm⟩
      | silence =>
        simp only at htried
        split at htried
        · exact absurd (congrArg Tried.outcome htried.symm) h
        · cases left with
          | zero =>
            subst htried
            exact .inl ⟨by simp, rfl, rfl⟩
          | succ less => exact .inr ⟨rfl, less, _, rfl, htried.symm⟩

variable {cores : List CoreId}

/-- A request that is made until it succeeds is a task that is answered again and again. -/
theorem exists_runs_attempt {request : CoreId → σ → Answer α × σ} {core : CoreId} {crew : Crew α}
    {failed left now : Nat} {s : σ} (htrying : crew.task core = .trying failed)
    (hleft : failed + left = opts.retries.toNat)
    (h : (attempt opts limit (request core) left now s).outcome ≠ .cut) :
    ∃ events, Crew.Runs opts cores crew events
        (crew.set core (.ended (attempt opts limit (request core) left now s).outcome)) ∧
      Replies request s events (attempt opts limit (request core) left now s).state := by
  induction left generalizing crew failed now s with
  | zero =>
    obtain ⟨a, s', ha, ⟨hend, houtcome, hstate⟩ | ⟨-, less, later, hless, -⟩⟩ := attempt_cases h
    · rw [houtcome, hstate]
      exact ⟨_, Crew.runs_last htrying hleft hend, .answer .nil ha⟩
    · cases hless
  | succ left ih =>
    obtain ⟨a, s', ha, ⟨hend, houtcome, hstate⟩ | ⟨hfails, less, later, hless, hagain⟩⟩ :=
      attempt_cases h
    · rw [houtcome, hstate]
      exact ⟨_, Crew.runs_last htrying hleft hend, .answer .nil ha⟩
    · cases hless
      rw [hagain] at h ⊢
      have htrying' : (crew.set core (.trying (failed + 1))).task core = .trying (failed + 1) :=
        Crew.task_set_self ..
      obtain ⟨events, hruns, hreplies⟩ := ih htrying' (by omega) h
      rw [Crew.set_set] at hruns
      exact ⟨_, (Crew.runs_again htrying hfails (by omega)).append hruns,
        Replies.append (.answer .nil ha) hreplies⟩

/-- While no task is under way, a core gets a permit, is tried to its end and is joined. -/
theorem exists_runs_turn {request : CoreId → σ → Answer α × σ} {core : CoreId} {crew : Crew α}
    {now : Nat} {s : σ} (hcore : core ∈ cores) (hwaiting : crew.task core = .waiting)
    (hidle : ∀ other, (crew.task other).isTrying = false)
    (h : (attempt opts limit (request core) opts.retries.toNat now s).outcome ≠ .cut) :
    ∃ events crew', Crew.Runs opts cores crew events crew' ∧
      crew'.joined = crew.joined ++
        [(core, (attempt opts limit (request core) opts.retries.toNat now s).outcome)] ∧
      (∃ outcome, crew'.task core = .joined outcome) ∧
      (∀ other, other ≠ core → crew'.task other = crew.task other) ∧
      Replies request s events
        (attempt opts limit (request core) opts.retries.toNat now s).state := by
  have hfree : crew.inFlight cores < max opts.maxInFlight.toNat 1 := by
    have hnone : crew.inFlight cores = 0 :=
      List.countP_eq_zero.2 fun other _ => by simp [hidle other]
    omega
  have hbegin : Crew.Runs opts cores crew [.begin core] (crew.set core (.trying 0)) :=
    .snoc .nil (.begin hcore hwaiting hfree)
  have hattempt : ∃ events, Crew.Runs opts cores (crew.set core (.trying 0)) events _ ∧
      Replies request s events _ :=
    exists_runs_attempt (Crew.task_set_self ..) (Nat.zero_add _) h
  obtain ⟨events, hruns, hreplies⟩ := hattempt
  rw [Crew.set_set] at hruns
  refine ⟨_, _, .snoc (hbegin.append hruns) (.join (Crew.task_set_self ..)), rfl,
    ⟨_, Crew.task_set_self ..⟩, fun other hne => ?_,
    .join core (.append (.begin core .nil) hreplies)⟩
  exact (Crew.task_set_of_ne _ hne _).trans (Crew.task_set_of_ne _ hne _)

/-- A sweep is one order of turns: the cores are dealt with one after another. -/
theorem exists_runs_sweep {request : CoreId → σ → Answer α × σ} {start : Nat} {busy : List Nat}
    {rest : List CoreId} (crew : Crew α) {s : σ} (hmem : ∀ core ∈ rest, core ∈ cores)
    (hnodup : rest.Nodup) (hwaiting : ∀ core ∈ rest, crew.task core = .waiting)
    (hidle : ∀ core, (crew.task core).isTrying = false)
    (h : (sweep opts limit request start busy rest s).isCut = false) :
    ∃ events crew', Crew.Runs opts cores crew events crew' ∧
      crew'.joined = crew.joined ++ (sweep opts limit request start busy rest s).outcomes ∧
      crew'.Done rest ∧ (∀ core, core ∉ rest → crew'.task core = crew.task core) ∧
      Replies request s events (sweep opts limit request start busy rest s).state := by
  induction rest generalizing crew busy s with
  | nil =>
    exact ⟨[], crew, .nil, (List.append_nil _).symm, by simp [Crew.Done], fun _ _ => rfl, .nil⟩
  | cons core rest ih =>
    obtain ⟨hnot, hnodup⟩ := List.nodup_cons.1 hnodup
    unfold sweep at h ⊢
    simp only [Swept.isCut, List.any_cons, Bool.or_eq_false_iff] at h ⊢
    obtain ⟨hoff, hothers⟩ := h
    have huncut : (attempt opts limit (request core) opts.retries.toNat
        (nextPermit opts start busy).1 s).outcome ≠ .cut := by
      intro hcut
      simp [hcut] at hoff
    obtain ⟨events, crew₁, hruns, hjoined, ⟨outcome, hcore⟩, hsame, hreplies⟩ :=
      exists_runs_turn (hmem core List.mem_cons_self) (hwaiting core List.mem_cons_self) hidle
        huncut
    have hne : ∀ other ∈ rest, other ≠ core := fun other hother e => hnot (e ▸ hother)
    have hidle₁ : ∀ other, (crew₁.task other).isTrying = false := by
      intro other
      by_cases heq : other = core
      · rw [heq, hcore]
        rfl
      · rw [hsame other heq]
        exact hidle other
    obtain ⟨events', crew', hruns', hjoined', hdone, hsame', hreplies'⟩ :=
      ih crew₁ (fun other hother => hmem other (List.mem_cons_of_mem core hother)) hnodup
        (fun other hother => (hsame other (hne other hother)).trans
          (hwaiting other (List.mem_cons_of_mem core hother))) hidle₁ hothers
    refine ⟨_, crew', hruns.append hruns', ?_, fun other hother => ?_, fun other hother => ?_,
      hreplies.append hreplies'⟩
    · rw [hjoined', hjoined, List.append_assoc]
      rfl
    · rcases List.mem_cons.1 hother with rfl | hother
      · exact ⟨outcome, (hsame' other hnot).trans hcore⟩
      · exact hdone other hother
    · rw [List.mem_cons, not_or] at hother
      exact (hsame' other hother.2).trans (hsame other hother.1)

/-- What comes of a sweep comes of tasks that are all joined. -/
theorem exists_crew_of_sweep {request : CoreId → σ → Answer α × σ} {start : Nat} {s : σ}
    (hnodup : cores.Nodup) (h : (sweep opts limit request start [] cores s).isCut = false) :
    ∃ events crew, Crew.Runs opts cores .new events crew ∧ crew.Done cores ∧
      crew.successes = (sweep opts limit request start [] cores s).successes ∧
      Replies request s events (sweep opts limit request start [] cores s).state := by
  obtain ⟨events, crew, hruns, hjoined, hdone, -, hreplies⟩ :=
    exists_runs_sweep .new (fun _ hcore => hcore) hnodup (fun _ _ => rfl)
      (fun _ => rfl) h
  refine ⟨events, crew, hruns, hdone, ?_, hreplies⟩
  unfold Crew.successes
  rw [hjoined]
  rfl

end

end TrafficLab
