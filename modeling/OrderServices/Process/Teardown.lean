import Mathlib.Data.List.Nodup
import OrderServices.Process.Service

/-! What becomes of a service that is stopped: however many callers stop it and wait for it, they stop
its parts once and in one order, and only its destructor stops some of them again. -/
namespace OrderServices

open Runs

def ServiceCall.started? : ServiceCall → Option StartCall
  | .started c => some c
  | .stopped _ => none

def ServiceCall.stopped? : ServiceCall → Option StopCall
  | .started _ => none
  | .stopped c => some c

namespace ServiceLife

variable (s : ServiceLife)

def started : List StartCall := s.log.filterMap ServiceCall.started?

def stopped : List StopCall := s.log.filterMap ServiceCall.stopped?

/-- The calls of a shutdown that the start of the service has made necessary. -/
def needed : StopCall → Bool
  | .serviceStopping => .startApp ∈ s.started
  | .stopHttpServer => s.httpServer
  | .waitHttpServer => s.httpServer
  | _ => true

/-- The shutdown task has not come to `serviceStopping`. -/
def hookAhead : Bool :=
  match s.task with
  | none => true
  | some (.running todo) => .serviceStopping ∈ todo
  | some (.done _) => false

/-- How far the start has come. Nobody stops a service or waits for it before. -/
def Begun (service : Service) : StartPhase → Prop
  | .running todo =>
      s.started ++ todo = service.startCalls ∧ s.stops = [] ∧ s.waits = [] ∧ s.task = none
  | .failing _ =>
      (∃ c rest, s.started ++ c :: rest = service.startCalls) ∧ s.stops ≠ [] ∧ s.waits = []
  | .ended none => s.started = service.startCalls
  | .ended (some _) =>
      (∃ c rest, s.started ++ c :: rest = service.startCalls) ∧
      ∃ how, s.stops.head? = some (.returned how)

/-- How far the shutdown task has come. -/
def Shut : Option ShutdownTask → Prop
  | none => s.stopped = []
  | some (.running todo) => todo ≠ [] ∧ ∃ made, made ++ todo = shutdownCalls ∧
      s.stopped = made.filter s.needed
  | some (.done _) => s.stopped = shutdownCalls.filter s.needed

/-- What a stop rests on. -/
def Backs (config : ProcessConfig) : StopPhase → Prop
  | .called => True
  | .waiting => s.task.isSome
  | .returned .finished => ∃ error, s.task = some (.done error)
  | .returned .timedOut => s.task.isSome ∧ 0 < config.shutdownTimeout
  | .returned .failed => True

/-- What a wait rests on. -/
def Awaited : WaitPhase → Prop
  | .waiting => s.task.isSome
  | .returned error => s.task = some (.done error)
  | _ => True

end ServiceLife

structure ServiceLife.Sound (config : ProcessConfig) (s : ServiceLife) : Prop where
  ordered : s.log = s.started.map .started ++ s.stopped.map .stopped
  begun : s.Begun config.service s.start
  flag : s.lifecycleStarted = (decide (.startApp ∈ s.started) && s.hookAhead)
  shut : s.Shut s.task
  stops : ∀ phase ∈ s.stops, s.Backs config phase
  waits : ∀ phase ∈ s.waits, s.Awaited phase

section Steps

variable {config : ProcessConfig} {s s' : ServiceLife} {a : ServiceAction}

theorem ServiceLife.Sound.init (config : ProcessConfig) :
    (ServiceLife.init config.service).Sound config where
  ordered := rfl
  begun := ⟨rfl, rfl, rfl, rfl⟩
  flag := rfl
  shut := rfl
  stops := fun _ impossible => by cases impossible
  waits := fun _ impossible => by cases impossible

/-- The shutdown task only goes on. -/
def ServiceLife.GoesOn (s s' : ServiceLife) : Prop :=
  (s.task.isSome → s'.task.isSome) ∧
    ∀ error, s.task = some (.done error) → s'.task = some (.done error)

theorem ServiceLife.GoesOn.backs (on : s.GoesOn s') {phase : StopPhase} (h : s.Backs config phase) :
    s'.Backs config phase := by
  match phase, h with
  | .called, _ => trivial
  | .waiting, there => exact on.1 there
  | .returned .finished, ⟨error, done⟩ => exact ⟨error, on.2 error done⟩
  | .returned .timedOut, ⟨there, bounded⟩ => exact ⟨on.1 there, bounded⟩
  | .returned .failed, _ => trivial

theorem ServiceLife.GoesOn.awaited (on : s.GoesOn s') {phase : WaitPhase} (h : s.Awaited phase) :
    s'.Awaited phase := by
  cases phase with
  | waiting => exact on.1 h
  | returned error => exact on.2 error h
  | _ => trivial

/-- The first stop stays as it has returned. -/
theorem head?_set_returned {stops : List StopPhase} {i : ℕ} {old new : StopPhase} {how : StopEnd}
    (here : stops[i]? = some old) (active : ∀ how, old ≠ .returned how)
    (head : stops.head? = some (.returned how)) : (stops.set i new).head? = some (.returned how) := by
  rw [List.head?_eq_getElem?] at *
  have other : i ≠ 0 := by
    rintro rfl
    exact active how (Option.some.inj (here.symm.trans head))
  rwa [List.getElem?_set_ne other]

/-- Where the start is, does not change by what others do. -/
theorem ServiceLife.Begun.keep {service : Service} {phase : StartPhase} (h : s.Begun service phase)
    (behind : ∀ todo, phase ≠ .running todo) (started : s'.started = s.started)
    (stops : s.stops ≠ [] → s'.stops ≠ [])
    (head : ∀ how, s.stops.head? = some (.returned how) → s'.stops.head? = some (.returned how))
    (waits : (∃ error, phase = .failing error) → s.waits = [] → s'.waits = []) :
    s'.Begun service phase := by
  match phase, h with
  | .running todo, _ => exact absurd rfl (behind todo)
  | .failing error, ⟨part, asked, quiet⟩ =>
      exact ⟨started.symm ▸ part, stops asked, waits ⟨error, rfl⟩ quiet⟩
  | .ended none, whole => exact started.trans whole
  | .ended (some _), ⟨part, how, returned⟩ => exact ⟨started.symm ▸ part, how, head how returned⟩

/-- Nobody comes before the start has ended or failed. -/
theorem ServiceLife.Sound.behind (h : s.Sound config)
    (busy : s.stops ≠ [] ∨ s.waits ≠ [] ∨ s.task ≠ none) : ∀ todo, s.start ≠ .running todo := by
  intro todo phase
  have begun := h.begun
  rw [phase] at begun
  obtain ⟨-, stops, waits, task⟩ := begun
  rcases busy with some | some | some
  · exact some stops
  · exact some waits
  · exact some task

theorem ne_nil_of_getElem? {α : Type} {l : List α} {i : ℕ} {x : α} (here : l[i]? = some x) : l ≠ [] :=
  List.ne_nil_of_mem (List.mem_of_getElem? here)

/-- A stop goes on that has not returned. -/
theorem ServiceLife.Sound.setStop (h : s.Sound config) {i : ℕ} {old new : StopPhase}
    (here : s.stops[i]? = some old) (active : ∀ how, old ≠ .returned how)
    (backs : s.Backs config new) : (s.setStop i new).Sound config where
  ordered := h.ordered
  begun := h.begun.keep (h.behind (.inl (ne_nil_of_getElem? here))) rfl
    (fun some none => some ((List.set_eq_nil_iff i new).mp none))
    (fun _ head => head?_set_returned here active head) (fun _ quiet => quiet)
  flag := h.flag
  shut := h.shut
  stops := by
    intro phase member
    rcases List.mem_or_eq_of_mem_set member with before | rfl
    · exact h.stops phase before
    · exact backs
  waits := h.waits

theorem ServiceLife.Sound.setWait (h : s.Sound config) {j : ℕ} {old new : WaitPhase}
    (here : s.waits[j]? = some old) (awaited : s.Awaited new) : (s.setWait j new).Sound config where
  ordered := h.ordered
  begun := h.begun.keep (h.behind (.inr (.inl (ne_nil_of_getElem? here)))) rfl id (fun _ => id)
    (fun _ quiet => (List.set_eq_nil_iff j new).mpr quiet)
  flag := h.flag
  shut := h.shut
  stops := h.stops
  waits := by
    intro phase member
    rcases List.mem_or_eq_of_mem_set member with before | rfl
    · exact h.waits phase before
    · exact awaited

/-- The task is made by a stop, and only once. -/
theorem ServiceLife.Sound.makeTask (h : s.Sound config) (asked : s.stops ≠ [])
    (absent : s.task = none) : ({ s with task := some (.running shutdownCalls) } : ServiceLife).Sound config := by
  have on : s.GoesOn { s with task := some (.running shutdownCalls) } :=
    ⟨fun _ => rfl, fun error done => by rw [absent] at done; cases done⟩
  refine ⟨h.ordered, ?_, ?_, ?_, fun phase member => on.backs (h.stops phase member),
    fun phase member => on.awaited (h.waits phase member)⟩
  · exact h.begun.keep (h.behind (.inl asked)) rfl id (fun _ => id) (fun _ => id)
  · have flag := h.flag
    rw [hookAhead, absent] at flag
    exact flag
  · have none := h.shut
    rw [absent] at none
    exact ⟨List.cons_ne_nil _ _, [], rfl, none⟩

/-- The hook comes first and the wait for what has been admitted comes last. -/
theorem shutdownCalls_split {made todo : List StopCall} {c : StopCall}
    (split : made ++ c :: todo = shutdownCalls) :
    .serviceStopping ∉ todo ∧ (c = .waitForShutdown ↔ todo = []) := by
  have distinct : (made ++ c :: todo).Nodup := by
    rw [split]
    decide
  obtain ⟨-, behind, apart⟩ := List.nodup_append.mp distinct
  constructor
  · intro member
    cases made with
    | nil =>
        obtain ⟨rfl, -⟩ := List.cons.inj split
        exact (List.nodup_cons.mp behind).1 member
    | cons first made =>
        obtain ⟨rfl, -⟩ := List.cons.inj split
        exact apart _ List.mem_cons_self _ (List.mem_cons_of_mem c member) rfl
  · have last : (made ++ c :: todo).getLast? = some .waitForShutdown := by
      rw [split]
      rfl
    rw [List.getLast?_append_of_ne_nil made (List.cons_ne_nil c todo)] at last
    cases todo with
    | nil => exact iff_of_true (Option.some.inj last) rfl
    | cons next todo =>
        rw [List.getLast?_cons_cons] at last
        refine iff_of_false ?_ (List.cons_ne_nil next todo)
        rintro rfl
        exact (List.nodup_cons.mp behind).1 (List.mem_of_getLast? last)

/-- The shutdown task makes the calls that are needed. -/
theorem ServiceLife.Sound.due_eq_needed (h : s.Sound config) {c : StopCall} {todo : List StopCall}
    (task : s.task = some (.running (c :: todo))) : s.due c = s.needed c := by
  cases c with
  | serviceStopping =>
      have flag := h.flag
      rw [hookAhead, task] at flag
      rw [due, needed, flag]
      simp
  | _ => rfl

/-- Behind its head the task has no hook to call. -/
theorem ServiceLife.Sound.flag_behind (h : s.Sound config) {c : StopCall} {todo : List StopCall}
    (task : s.task = some (.running (c :: todo))) (absent : .serviceStopping ∉ todo) :
    (s.lifecycleStarted && c != .serviceStopping) = false := by
  rw [h.flag, hookAhead, task]
  by_cases hook : c = .serviceStopping
  · simp [hook]
  · simp [Ne.symm hook, absent]

theorem ServiceLife.needed_congr (started : s'.started = s.started)
    (server : s'.httpServer = s.httpServer) : s'.needed = s.needed := by
  funext c
  cases c <;> simp only [needed, started, server]

theorem ServiceLife.Sound.call (h : s.Sound config) {c : StopCall} {todo : List StopCall}
    {error : Option Exception} (task : s.task = some (.running (c :: todo))) (due : s.due c = true) :
    ({ s with
      lifecycleStarted := s.lifecycleStarted && c != .serviceStopping
      task := some (if c = .waitForShutdown then .done error else .running todo)
      log := s.log ++ [.stopped c] } : ServiceLife).Sound config := by
  have shut := h.shut
  rw [task] at shut
  obtain ⟨-, made, split, stopped⟩ := shut
  obtain ⟨hook, last⟩ := shutdownCalls_split split
  have needed := (h.due_eq_needed task).symm.trans due
  generalize after : ({ s with
      lifecycleStarted := s.lifecycleStarted && c != .serviceStopping
      task := some (if c = .waitForShutdown then .done error else .running todo)
      log := s.log ++ [.stopped c] } : ServiceLife) = t
  have started' : t.started = s.started := by
    rw [← after, ServiceLife.started, List.filterMap_append]
    exact List.append_nil _
  have stopped' : t.stopped = s.stopped ++ [c] := by
    rw [← after, ServiceLife.stopped, List.filterMap_append]
    rfl
  have same : t.needed = s.needed := needed_congr started' (by rw [← after])
  have on : s.GoesOn t := by
    refine ⟨fun _ => by rw [← after]; rfl, fun error done => ?_⟩
    rw [task] at done
    cases done
  refine ⟨?_, ?_, ?_, ?_, ?_, ?_⟩
  · rw [started', stopped', List.map_append, ← List.append_assoc, ← h.ordered, ← after]
    rfl
  · have begun : t.Begun config.service s.start := by
      refine h.begun.keep (h.behind (.inr (.inr (by simp [task])))) started' ?_ ?_ ?_
      all_goals
        rw [← after]
        simp
    rw [← after] at begun ⊢
    exact begun
  · have none : t.hookAhead = false := by
      rw [← after, hookAhead]
      by_cases final : c = .waitForShutdown
      · simp [final]
      · simp [final, hook]
    rw [none, Bool.and_false, ← after]
    exact h.flag_behind task hook
  · have more : t.stopped = (made ++ [c]).filter t.needed := by
      rw [stopped', same, List.filter_append, ← stopped, List.filter_cons_of_pos needed]
      rfl
    have task' : t.task = some (if c = .waitForShutdown then .done error else .running todo) := by
      rw [← after]
    rw [task']
    by_cases final : c = .waitForShutdown
    · rw [if_pos final]
      obtain rfl := last.mp final
      rw [split] at more
      exact more
    · rw [if_neg final]
      exact ⟨mt last.mpr final, made ++ [c], by rw [← split, List.append_assoc]; rfl, more⟩
  · rw [show t.stops = s.stops by rw [← after]]
    exact fun phase member => on.backs (h.stops phase member)
  · rw [show t.waits = s.waits by rw [← after]]
    exact fun phase member => on.awaited (h.waits phase member)

theorem ServiceLife.Sound.pass (h : s.Sound config) {c : StopCall} {todo : List StopCall}
    (task : s.task = some (.running (c :: todo))) (idle : s.due c = false) :
    ({ s with task := some (.running todo) } : ServiceLife).Sound config := by
  have shut := h.shut
  rw [task] at shut
  obtain ⟨-, made, split, stopped⟩ := shut
  obtain ⟨hook, last⟩ := shutdownCalls_split split
  have idle' : ¬s.needed c = true := by
    rw [← h.due_eq_needed task, idle]
    exact Bool.false_ne_true
  have on : s.GoesOn { s with task := some (.running todo) } := by
    refine ⟨fun _ => rfl, fun error done => ?_⟩
    rw [task] at done
    cases done
  refine ⟨h.ordered, ?_, ?_, ⟨?_, made ++ [c], ?_, ?_⟩,
    fun phase member => on.backs (h.stops phase member),
    fun phase member => on.awaited (h.waits phase member)⟩
  · exact h.begun.keep (h.behind (.inr (.inr (by simp [task])))) rfl id (fun _ => id) (fun _ => id)
  · have off : s.lifecycleStarted = false := by
      have behind := h.flag_behind task hook
      by_cases same : c = .serviceStopping
      · rw [← idle, same]
        rfl
      · simpa [same] using behind
    have none : ({ s with task := some (.running todo) } : ServiceLife).hookAhead = false :=
      decide_eq_false hook
    rw [none, Bool.and_false]
    exact off
  · refine mt last.mpr ?_
    rintro rfl
    cases idle
  · rw [← split, List.append_assoc]
    rfl
  · change s.stopped = (made ++ [c]).filter s.needed
    rw [List.filter_append, ← stopped, List.filter_cons_of_neg idle']
    exact (List.append_nil _).symm

theorem ServiceLife.Sound.startReturns (h : s.Sound config) {c : StartCall} {todo : List StartCall}
    (phase : s.start = .running (c :: todo)) :
    ({ s with
      start := .running todo
      lifecycleStarted := s.lifecycleStarted || c == .startApp
      httpServer := s.httpServer || c == .initInfrastructure
      log := s.log ++ [.started c] } : ServiceLife).Sound config := by
  have begun := h.begun
  rw [phase] at begun
  obtain ⟨whole, stops, waits, task⟩ := begun
  have none := h.shut
  rw [task] at none
  have flag := h.flag
  rw [hookAhead, task, Bool.and_true] at flag
  generalize after : ({ s with
      start := .running todo
      lifecycleStarted := s.lifecycleStarted || c == .startApp
      httpServer := s.httpServer || c == .initInfrastructure
      log := s.log ++ [.started c] } : ServiceLife) = t
  have started' : t.started = s.started ++ [c] := by
    rw [← after, ServiceLife.started, List.filterMap_append]
    rfl
  have stopped' : t.stopped = [] := by
    rw [← after, ServiceLife.stopped, List.filterMap_append]
    exact (List.append_nil _).trans none
  have task' : t.task = Option.none := by
    rw [← after]
    exact task
  refine ⟨?_, ?_, ?_, ?_, ?_, ?_⟩
  · have log := h.ordered
    rw [none, List.map_nil, List.append_nil] at log
    rw [started', stopped', List.map_append, ← log, ← after]
    exact (List.append_nil _).symm
  · have begun : t.Begun config.service (.running todo) := by
      refine ⟨?_, ?_, ?_, task'⟩
      · rw [started', List.append_assoc]
        exact whole
      · rw [← after]
        exact stops
      · rw [← after]
        exact waits
    rw [← after] at begun ⊢
    exact begun
  · rw [hookAhead, task', Bool.and_true, started', ← after, Bool.eq_iff_iff]
    simp only [flag, Bool.or_eq_true, decide_eq_true_eq, beq_iff_eq, List.mem_append,
      List.mem_singleton, @eq_comm _ c]
  · rw [task']
    exact stopped'
  · rw [show t.stops = [] by rw [← after]; exact stops]
    exact fun _ impossible => by cases impossible
  · rw [show t.waits = [] by rw [← after]; exact waits]
    exact fun _ impossible => by cases impossible

theorem ServiceLife.Sound.startThrows (h : s.Sound config) {c : StartCall} {todo : List StartCall}
    {error : Exception} {server : Bool} (phase : s.start = .running (c :: todo)) :
    ({ s with
      start := .failing error, httpServer := server, stops := s.stops ++ [.called] } :
      ServiceLife).Sound config := by
  have begun := h.begun
  rw [phase] at begun
  obtain ⟨whole, stops, waits, task⟩ := begun
  refine ⟨h.ordered, ⟨⟨c, todo, whole⟩, by simp, waits⟩, h.flag, ?_, ?_, h.waits⟩
  · have none := h.shut
    rw [task] at none
    change Shut _ s.task
    rw [task]
    exact none
  · rw [stops]
    intro asked member
    rw [List.mem_singleton.mp member]
    trivial

theorem ServiceLife.Sound.step (h : s.Sound config) (step : s.perform config a = some s') :
    s'.Sound config := by
  cases perform_step step with
  | startReturns phase => exact h.startReturns phase
  | startThrows phase kept => exact h.startThrows phase
  | started phase =>
      have begun := h.begun
      rw [phase] at begun
      exact ⟨h.ordered, (List.append_nil _).symm.trans begun.1, h.flag, h.shut, h.stops, h.waits⟩
  | rethrow phase stopped =>
      have begun := h.begun
      rw [phase] at begun
      exact ⟨h.ordered, ⟨begun.1, _, stopped⟩, h.flag, h.shut, h.stops, h.waits⟩
  | callStop phase =>
      refine ⟨h.ordered, ?_, h.flag, h.shut, ?_, h.waits⟩
      · refine h.begun.keep (fun todo same => ?_) rfl (fun _ => by simp) (fun how head => ?_)
          (fun _ quiet => quiet)
        · rw [phase] at same
          cases same
        · rw [List.head?_append, head]
          rfl
      · intro asked member
        rcases List.mem_append.mp member with before | new
        · exact h.stops asked before
        · rw [List.mem_singleton.mp new]
          trivial
  | failStop here => exact h.setStop here nofun trivial
  | makeTask here absent =>
      exact (h.makeTask (ne_nil_of_getElem? here) absent).setStop here nofun rfl
  | shareTask here present => exact h.setStop here nofun (by rw [Backs, present]; rfl)
  | finishStop here task => exact h.setStop here nofun ⟨_, task⟩
  | timeOut here bounded =>
      have there := h.stops _ (List.mem_of_getElem? here)
      exact h.setStop here nofun ⟨there, bounded⟩
  | callWait phase =>
      refine ⟨h.ordered, ?_, h.flag, h.shut, h.stops, ?_⟩
      · refine h.begun.keep (fun todo same => ?_) rfl id (fun _ => id) ?_
        · rw [phase] at same
          cases same
        · rintro ⟨error, same⟩
          rw [phase] at same
          cases same
      · intro asked member
        rcases List.mem_append.mp member with before | new
        · exact h.waits asked before
        · rw [List.mem_singleton.mp new]
          trivial
  | joinTask here present => exact h.setWait here (by rw [Awaited, present]; rfl)
  | goAlone here absent => exact h.setWait here trivial
  | leaveWait here task => exact h.setWait here task
  | leaveAlone here => exact h.setWait here trivial
  | call task due own => exact h.call task due
  | pass task idle => exact h.pass task idle

theorem ServiceLife.Sound.run {acts : List ServiceAction}
    (run : Run (Performs (ServiceLife.perform config)) (.init config.service) acts s) : s.Sound config :=
  run.invariant_all (.init config) fun before step => before.step step

/-! ## What a run has come to -/

theorem ServiceLife.Sound.started_prefix (h : s.Sound config) :
    s.started <+: config.service.startCalls := by
  have begun := h.begun
  match phase : s.start with
  | .running todo =>
      rw [phase] at begun
      exact ⟨todo, begun.1⟩
  | .failing error =>
      rw [phase] at begun
      obtain ⟨⟨c, rest, whole⟩, -⟩ := begun
      exact ⟨c :: rest, whole⟩
  | .ended none =>
      rw [phase] at begun
      exact ⟨[], (List.append_nil _).trans begun⟩
  | .ended (some _) =>
      rw [phase] at begun
      obtain ⟨⟨c, rest, whole⟩, -⟩ := begun
      exact ⟨c :: rest, whole⟩

theorem ServiceLife.Sound.stopped_prefix (h : s.Sound config) :
    s.stopped <+: shutdownCalls.filter s.needed := by
  have shut := h.shut
  match task : s.task with
  | none =>
      rw [task] at shut
      have none : s.stopped = [] := shut
      rw [none]
      exact List.nil_prefix
  | some (.running todo) =>
      rw [task] at shut
      obtain ⟨-, made, split, stopped⟩ := shut
      rw [stopped, ← split, List.filter_append]
      exact List.prefix_append _ _
  | some (.done _) =>
      rw [task] at shut
      exact shut ▸ List.prefix_rfl

theorem ServiceLife.Sound.stopped_of_done (h : s.Sound config) {error : Option Exception}
    (task : s.task = some (.done error)) : s.stopped = shutdownCalls.filter s.needed := by
  have shut := h.shut
  rwa [task] at shut

variable {acts : List ServiceAction}

/-- There is a task as soon as a stop has come to it. -/
theorem ServiceLife.task_run
    (run : Run (Performs (ServiceLife.perform config)) (.init config.service) acts s) :
    s.task.isSome ↔ ∃ i, .enterStop i ∈ acts := by
  induction run with
  | nil => simp [ServiceLife.init]
  | @snoc acts s s' a run step ih =>
      have other (quiet : ∀ i, a ≠ .enterStop i) (same : s'.task.isSome = s.task.isSome) :
          s'.task.isSome ↔ ∃ i, .enterStop i ∈ acts ++ [a] := by
        rw [same, ih]
        refine exists_congr fun i => ?_
        rw [List.mem_append, List.mem_singleton]
        exact (or_iff_left (Ne.symm (quiet i))).symm
      cases perform_step step with
      | makeTask here absent =>
          exact iff_of_true rfl ⟨_, List.mem_append_right acts (List.mem_singleton_self _)⟩
      | shareTask here present =>
          refine iff_of_true ?_ ⟨_, List.mem_append_right acts (List.mem_singleton_self _)⟩
          change s.task.isSome
          rw [present]
          rfl
      | call task due own => exact other nofun (by rw [task]; rfl)
      | pass task idle => exact other nofun (by rw [task]; rfl)
      | _ => exact other nofun rfl

/-- The stop that has made the task does not come back as if there were none. -/
theorem ServiceLife.maker_run
    (run : Run (Performs (ServiceLife.perform config)) (.init config.service) acts s)
    (there : s.task.isSome) :
    ∃ (i : ℕ) (phase : StopPhase), s.stops[i]? = some phase ∧ phase ≠ .called ∧
      phase ≠ .returned .failed := by
  induction run with
  | nil => cases there
  | @snoc acts s s' a run step ih =>
      have kept {i : ℕ} {old new : StopPhase} (here : s.stops[i]? = some old)
          (stops : s'.stops = s.stops.set i new)
          (moved : s.task.isSome → old = .called ∨ new ≠ .called ∧ new ≠ .returned .failed)
          (task : s.task.isSome) : ∃ (i : ℕ) (phase : StopPhase), s'.stops[i]? = some phase ∧
            phase ≠ .called ∧ phase ≠ .returned .failed := by
        obtain ⟨k, phase, at_k, active, made⟩ := ih task
        rw [stops]
        by_cases same : i = k
        · subst same
          obtain rfl := Option.some.inj (here.symm.trans at_k)
          exact ⟨i, new, List.getElem?_set_self (List.getElem?_eq_some_iff.mp here).1,
            (moved task).resolve_left active⟩
        · exact ⟨k, phase, by rw [List.getElem?_set_ne same, at_k], active, made⟩
      have grown (task : s.task.isSome) : ∃ (i : ℕ) (phase : StopPhase),
          (s.stops ++ [.called])[i]? = some phase ∧ phase ≠ .called ∧ phase ≠ .returned .failed := by
        obtain ⟨k, phase, at_k, active, made⟩ := ih task
        refine ⟨k, phase, ?_, active, made⟩
        rw [List.getElem?_append_left (List.getElem?_eq_some_iff.mp at_k).1, at_k]
      cases perform_step step with
      | startThrows phase kept => exact grown there
      | callStop phase => exact grown there
      | failStop here => exact kept here rfl (fun _ => .inl rfl) there
      | @makeTask i here absent =>
          exact ⟨i, .waiting, List.getElem?_set_self (List.getElem?_eq_some_iff.mp here).1, nofun, nofun⟩
      | shareTask here present => exact kept here rfl (fun _ => .inl rfl) there
      | finishStop here task => exact kept here rfl (fun _ => .inr ⟨nofun, nofun⟩) there
      | timeOut here bounded => exact kept here rfl (fun _ => .inr ⟨nofun, nofun⟩) there
      | call task due own => exact ih (by rw [task]; rfl)
      | pass task idle => exact ih (by rw [task]; rfl)
      | _ => exact ih there

/-- The error that the start throws is that of its call. -/
theorem ServiceLife.threw_run {error : Exception}
    (run : Run (Performs (ServiceLife.perform config)) (.init config.service) acts s)
    (threw : s.start = .failing error ∨ s.start = .ended (some error)) :
    ∃ serverMade, .startThrows error serverMade ∈ acts := by
  induction run with
  | nil => rcases threw with impossible | impossible <;> cases impossible
  | @snoc acts s s' a run step ih =>
      have before (same : s'.start = s.start) : ∃ made, .startThrows error made ∈ acts ++ [a] := by
        rw [same] at threw
        obtain ⟨made, member⟩ := ih threw
        exact ⟨made, List.mem_append_left _ member⟩
      cases perform_step step with
      | startReturns phase => rcases threw with impossible | impossible <;> cases impossible
      | @startThrows c todo given made server phase kept =>
          rcases threw with same | impossible
          · cases same
            exact ⟨made, List.mem_append_right acts (List.mem_singleton_self _)⟩
          · cases impossible
      | started phase => rcases threw with impossible | impossible <;> cases impossible
      | rethrow phase stopped =>
          rcases threw with impossible | same
          · cases impossible
          · cases same
            obtain ⟨made, member⟩ := ih (.inl phase)
            exact ⟨made, List.mem_append_left _ member⟩
      | _ => exact before rfl

/-- A wait goes alone only if no stop has come to the task before. -/
theorem ServiceLife.alone_run {j : ℕ}
    (run : Run (Performs (ServiceLife.perform config)) (.init config.service) acts s)
    (alone : s.waits[j]? = some .alone ∨ ∃ error, s.waits[j]? = some (.returnedAlone error)) :
    ∃ front back, acts = front ++ .enterWait j :: back ∧ ∀ i, .enterStop i ∉ front := by
  induction run with
  | nil => rcases alone with impossible | ⟨_, impossible⟩ <;> cases impossible
  | @snoc acts s s' a run step ih =>
      have before (was : s.waits[j]? = some .alone ∨
          ∃ error, s.waits[j]? = some (.returnedAlone error)) :
          ∃ front back, acts ++ [a] = front ++ .enterWait j :: back ∧ ∀ i, .enterStop i ∉ front := by
        obtain ⟨front, back, rfl, quiet⟩ := ih was
        exact ⟨front, back ++ [a], by simp, quiet⟩
      have moved {k : ℕ} {old new : WaitPhase} (here : s.waits[k]? = some old)
          (waits : s'.waits = s.waits.set k new) (later : k = j → (new = .alone ∨
            ∃ error, new = .returnedAlone error) → old = .alone ∨ a = .enterWait j ∧ s.task = none) :
          ∃ front back, acts ++ [a] = front ++ .enterWait j :: back ∧ ∀ i, .enterStop i ∉ front := by
        rw [waits] at alone
        by_cases same : k = j
        · subst same
          rw [List.getElem?_set_self (List.getElem?_eq_some_iff.mp here).1] at alone
          have new : new = .alone ∨ ∃ error, new = .returnedAlone error :=
            alone.imp Option.some.inj fun ⟨error, eq⟩ => ⟨error, Option.some.inj eq⟩
          rcases later rfl new with rfl | ⟨rfl, absent⟩
          · exact before (.inl here)
          · refine ⟨acts, [], rfl, fun i member => ?_⟩
            have there := (task_run run).mpr ⟨i, member⟩
            rw [absent] at there
            cases there
        · rw [List.getElem?_set_ne same] at alone
          exact before alone
      cases perform_step step with
      | callWait phase =>
          refine before ?_
          have old {phase : WaitPhase} (at_j : (s.waits ++ [.called])[j]? = some phase)
              (other : phase ≠ .called) : s.waits[j]? = some phase := by
            rw [List.getElem?_append] at at_j
            split at at_j
            · exact at_j
            · exact absurd (List.mem_singleton.mp (List.mem_of_getElem? at_j)) other
          exact alone.imp (fun at_j => old at_j nofun) fun ⟨error, at_j⟩ => ⟨error, old at_j nofun⟩
      | joinTask here present =>
          refine moved here rfl fun _ which => ?_
          rcases which with eq | ⟨_, eq⟩ <;> cases eq
      | goAlone here absent => exact moved here rfl fun same _ => .inr ⟨same ▸ rfl, absent⟩
      | leaveWait here task =>
          refine moved here rfl fun _ which => ?_
          rcases which with eq | ⟨_, eq⟩ <;> cases eq
      | leaveAlone here => exact moved here rfl fun _ _ => .inl rfl
      | _ => exact before alone

end Steps

/-- What a run of a service has come to. -/
structure ServiceLife.Verdict (config : ProcessConfig) (acts : List ServiceAction) (s : ServiceLife) :
    Prop where
  /-- Nothing is stopped before the start has ended or failed, and nothing is started later. -/
  ordered : s.log = s.started.map .started ++ s.stopped.map .stopped
  started : s.started <+: config.service.startCalls
  /-- The task stops each part at most once, in the one order, the hook only if the application has
  been started and the HTTP server only if it has been made. -/
  stopped : s.stopped <+: shutdownCalls.filter s.needed
  /-- Whoever has come back from the task finds all parts stopped. -/
  whole : .returned .finished ∈ s.stops ∨ (∃ error, .returned error ∈ s.waits) →
    s.stopped = shutdownCalls.filter s.needed
  agree : ∀ error other, .returned error ∈ s.waits → .returned other ∈ s.waits → error = other
  bounded : .returned .timedOut ∈ s.stops → 0 < config.shutdownTimeout
  /-- A wait goes without the task only if no stop had come to it before. -/
  alone : ∀ j error, s.waits[j]? = some (.returnedAlone error) →
    ∃ front back, acts = front ++ .enterWait j :: back ∧ ∀ i, .enterStop i ∉ front
  returned : s.start = .ended none → s.started = config.service.startCalls
  /-- A start that throws has broken off at the call that threw, and its own stop, the first of all,
  has come back: from the task, at the end of its time or without having had a task. -/
  threw : ∀ error, s.start = .ended (some error) → s.started ≠ config.service.startCalls ∧
    (∃ serverMade, .startThrows error serverMade ∈ acts) ∧
    ∃ how, s.stops.head? = some (.returned how)

theorem ServiceLife.Verdict.run {config : ProcessConfig} {acts : List ServiceAction} {s : ServiceLife}
    (run : Run (Performs (ServiceLife.perform config)) (.init config.service) acts s) :
    s.Verdict config acts := by
  have sound := ServiceLife.Sound.run run
  refine ⟨sound.ordered, sound.started_prefix, sound.stopped_prefix, ?_, ?_, ?_, ?_, ?_, ?_⟩
  · rintro (finished | ⟨error, returned⟩)
    · obtain ⟨error, done⟩ := sound.stops _ finished
      exact sound.stopped_of_done done
    · exact sound.stopped_of_done (sound.waits _ returned)
  · intro error other returned also
    have done : s.task = some (.done error) := sound.waits _ returned
    have done' : s.task = some (.done other) := sound.waits _ also
    rw [done] at done'
    cases done'
    rfl
  · exact fun timedOut => (sound.stops _ timedOut).2
  · exact fun j error alone => ServiceLife.alone_run run (.inr ⟨error, alone⟩)
  · intro phase
    have begun := sound.begun
    rwa [phase] at begun
  · intro error phase
    have begun := sound.begun
    rw [phase] at begun
    obtain ⟨⟨c, rest, whole⟩, head⟩ := begun
    refine ⟨fun same => ?_, ServiceLife.threw_run run (.inr phase), head⟩
    rw [same] at whole
    exact List.cons_ne_nil c rest (List.append_right_eq_self.mp whole)

/-! ## The destructor -/

/-- The destructor stops what it finds, however often that has been stopped, and finds a service that
nobody uses. -/
structure OwnedService.Sound (s : OwnedService) : Prop where
  alive : s.destructor = none → s.again = []
  split : ∀ todo, s.destructor = some todo → s.again ++ todo = destructorCalls.filter s.life.due
  released : s.destructor.isSome → s.life.released = true

section Destructor

variable {config : ProcessConfig} {s s' : OwnedService} {a : OwnedAction} {acts : List OwnedAction}

theorem OwnedService.Sound.step (h : s.Sound) (step : s.perform config a = some s') : s'.Sound := by
  cases perform_step step with
  | act alive moved =>
      refine ⟨h.alive, fun todo left => ?_, fun left => ?_⟩
      · exact absurd (alive.symm.trans left) nofun
      · simp only [alive] at left
        cases left
  | destroy alive released =>
      refine ⟨nofun, fun todo left => ?_, fun _ => released⟩
      cases left
      simp only [h.alive alive]
      rfl
  | @destructs c todo left =>
      refine ⟨nofun, fun todo' left' => ?_, fun _ => h.released (by rw [left]; rfl)⟩
      cases left'
      have split := h.split _ left
      rwa [List.append_cons] at split

theorem OwnedService.Sound.init (service : Service) : (OwnedService.init service).Sound where
  alive := fun _ => rfl
  split := fun _ impossible => by cases impossible
  released := fun impossible => by cases impossible

theorem OwnedService.Sound.run
    (run : Run (Performs (OwnedService.perform config)) (.init config.service) acts s) : s.Sound :=
  run.invariant_all (.init config.service) fun before step => before.step step

/-- Up to its destructor a service lives as it does by itself. -/
theorem OwnedService.life_run
    (run : Run (Performs (OwnedService.perform config)) (.init config.service) acts s) :
    Run (Performs (ServiceLife.perform config)) (.init config.service)
      (acts.filterMap OwnedAction.act?) s.life := by
  refine run.project (f := OwnedService.life) (g := OwnedAction.act?) ?_ ?_
  · intro s a s' b step act
    cases perform_step step with
    | act alive moved =>
        cases act
        exact moved
    | destroy alive released => cases act
    | destructs left => cases act
  · intro s a s' step other
    cases perform_step step with
    | act alive moved => cases other
    | destroy alive released => rfl
    | destructs left => rfl

theorem ServiceLife.destructor_due (s : ServiceLife) :
    destructorCalls.filter s.due = destructorCalls.filter s.needed := by
  refine List.filter_congr fun c member => ?_
  cases c with
  | serviceStopping => simp [destructorCalls] at member
  | _ => rfl

theorem ServiceLife.Sound.stopped_of_released {s : ServiceLife} (h : s.Sound config)
    (released : s.released = true) :
    s.task = none ∧ s.stopped = [] ∨ s.stopped = shutdownCalls.filter s.needed := by
  have shut := h.shut
  match task : s.task with
  | none =>
      rw [task] at shut
      exact .inl ⟨rfl, shut⟩
  | some (.running todo) =>
      unfold ServiceLife.released at released
      rw [task, Bool.and_false] at released
      cases released
  | some (.done error) => exact .inr (h.stopped_of_done task)

end Destructor

/-- What a run of a service and of its destructor has come to. -/
structure OwnedService.Verdict (config : ProcessConfig) (acts : List OwnedAction) (s : OwnedService) :
    Prop where
  life : s.life.Verdict config (acts.filterMap OwnedAction.act?)
  /-- The destructor stops the server, if there is one, the clients and the application once more. -/
  again : s.again <+: destructorCalls.filter s.life.needed
  /-- When it comes, all parts have been stopped or no stop has come to the task. -/
  behind : s.destructor.isSome → s.life.stopped = shutdownCalls.filter s.life.needed ∨
    s.life.stopped = [] ∧ ∀ i, .act (.enterStop i) ∉ acts

theorem OwnedService.Verdict.run {config : ProcessConfig} {acts : List OwnedAction} {s : OwnedService}
    (run : Run (Performs (OwnedService.perform config)) (.init config.service) acts s) :
    s.Verdict config acts := by
  have life := OwnedService.life_run run
  have sound := OwnedService.Sound.run run
  refine ⟨.run life, ?_, fun destroyed => ?_⟩
  · rw [← ServiceLife.destructor_due]
    cases left : s.destructor with
    | none =>
        rw [sound.alive left]
        exact List.nil_prefix
    | some todo => exact ⟨todo, sound.split todo left⟩
  · rcases (ServiceLife.Sound.run life).stopped_of_released (sound.released destroyed) with
      ⟨untasked, none⟩ | whole
    · refine .inr ⟨none, fun i member => ?_⟩
      have tasked := (ServiceLife.task_run life).mpr ⟨i, List.mem_filterMap.mpr ⟨_, member, rfl⟩⟩
      rw [untasked] at tasked
      cases tasked
    · exact .inl whole

def StartPhase.rest : StartPhase → ℕ
  | .running todo => todo.length + 1
  | .failing _ => 1
  | .ended _ => 0

def StopPhase.rest : StopPhase → ℕ
  | .called => 2
  | .waiting => 1
  | .returned _ => 0

def WaitPhase.rest : WaitPhase → ℕ
  | .called => 2
  | .waiting => 1
  | .alone => 1
  | .returned _ => 0
  | .returnedAlone _ => 0

/-- What the task has still to do, made or not. -/
def ServiceLife.taskRest (s : ServiceLife) : ℕ :=
  match s.task with
  | none => shutdownCalls.length
  | some (.running todo) => todo.length
  | some (.done _) => 0

def ServiceLife.rest (s : ServiceLife) : ℕ :=
  s.start.rest + (s.stops.map StopPhase.rest).sum + (s.waits.map WaitPhase.rest).sum + s.taskRest

/-- Somebody has called the service and has not come back. -/
def ServiceLife.Busy (s : ServiceLife) : Prop :=
  (∀ error, s.start ≠ .ended error) ∨ (∃ phase ∈ s.stops, phase.rest ≠ 0) ∨
    ∃ phase ∈ s.waits, phase.rest ≠ 0

/-- Neither a new caller, nor an error of a stop, nor the end of its context. -/
def ServiceAction.ordinary : ServiceAction → Bool
  | .callStop => false
  | .failStop _ => false
  | .leaveStop _ .timedOut => false
  | .callWait => false
  | _ => true

section Settles

variable {config : ProcessConfig} {s s' : ServiceLife} {a : ServiceAction} {acts : List ServiceAction}

theorem ServiceLife.rest_setStop {i : ℕ} {old : StopPhase} (here : s.stops[i]? = some old)
    (new : StopPhase) : (s.setStop i new).rest + old.rest = s.rest + new.rest := by
  have sums := Matching.sum_map_set StopPhase.rest here new
  simp only [rest, setStop, taskRest]
  omega

theorem ServiceLife.rest_setWait {j : ℕ} {old : WaitPhase} (here : s.waits[j]? = some old)
    (new : WaitPhase) : (s.setWait j new).rest + old.rest = s.rest + new.rest := by
  have sums := Matching.sum_map_set WaitPhase.rest here new
  simp only [rest, setWait, taskRest]
  omega

/-- A step takes something off what is to do, and a new caller adds three steps. -/
theorem ServiceLife.rest_step (step : s.perform config a = some s') :
    s'.rest + 1 + 3 * (s.stops.length + s.waits.length) ≤
      s.rest + 3 * (s'.stops.length + s'.waits.length) := by
  have stop {i : ℕ} {old new : StopPhase} (here : s.stops[i]? = some old)
      (less : new.rest < old.rest) :
      (s.setStop i new).rest + 1 + 3 * (s.stops.length + s.waits.length) ≤
        s.rest + 3 * ((s.setStop i new).stops.length + s.waits.length) := by
    have moved := rest_setStop here new
    rw [setStop, List.length_set] at *
    omega
  have wait {j : ℕ} {old new : WaitPhase} (here : s.waits[j]? = some old)
      (less : new.rest < old.rest) :
      (s.setWait j new).rest + 1 + 3 * (s.stops.length + s.waits.length) ≤
        s.rest + 3 * (s.stops.length + (s.setWait j new).waits.length) := by
    have moved := rest_setWait here new
    rw [setWait, List.length_set] at *
    omega
  cases perform_step step with
  | startReturns phase =>
      simp only [rest, taskRest, phase, StartPhase.rest, List.length_cons]
      omega
  | startThrows phase kept =>
      simp only [rest, taskRest, phase, StartPhase.rest, StopPhase.rest, List.length_cons,
        List.map_append, List.sum_append, List.length_append, List.map_cons, List.map_nil,
        List.sum_singleton, List.length_nil]
      omega
  | started phase =>
      simp only [rest, taskRest, phase, StartPhase.rest, List.length_nil]
      omega
  | rethrow phase stopped =>
      simp only [rest, taskRest, phase, StartPhase.rest]
      omega
  | callStop phase =>
      simp only [rest, taskRest, StopPhase.rest, List.map_append, List.sum_append, List.length_append,
        List.map_cons, List.map_nil, List.sum_singleton, List.length_cons, List.length_nil]
      omega
  | callWait phase =>
      simp only [rest, taskRest, WaitPhase.rest, List.map_append, List.sum_append, List.length_append,
        List.map_cons, List.map_nil, List.sum_singleton, List.length_cons, List.length_nil]
      omega
  | failStop here => exact stop here Nat.zero_lt_two
  | @makeTask i here absent =>
      have less : StopPhase.waiting.rest < StopPhase.called.rest := Nat.one_lt_two
      have moved := stop here less
      have same : ({ s.setStop i .waiting with
          task := some (.running shutdownCalls) } : ServiceLife).rest = (s.setStop i .waiting).rest := by
        simp [rest, taskRest, setStop, absent]
      rw [same]
      exact moved
  | shareTask here present => exact stop here Nat.one_lt_two
  | finishStop here task => exact stop here Nat.zero_lt_one
  | timeOut here bounded => exact stop here Nat.zero_lt_one
  | joinTask here present => exact wait here Nat.one_lt_two
  | goAlone here absent => exact wait here Nat.one_lt_two
  | leaveWait here task => exact wait here Nat.zero_lt_one
  | leaveAlone here => exact wait here Nat.zero_lt_one
  | @call c todo error task due own =>
      by_cases final : c = .waitForShutdown
      · simp only [rest, taskRest, task, final, if_true, List.length_cons]
        omega
      · simp only [rest, taskRest, task, final, if_false, List.length_cons]
        omega
  | pass task idle =>
      simp only [rest, taskRest, task, List.length_cons]
      omega

theorem ServiceLife.length_run
    (run : Run (Performs (ServiceLife.perform config)) (.init config.service) acts s) :
    acts.length + s.rest ≤ config.service.startCalls.length + 7 +
      3 * (s.stops.length + s.waits.length) := by
  induction run with
  | nil =>
      simp only [rest, ServiceLife.init, taskRest, StartPhase.rest, shutdownCalls, List.length_nil,
        List.map_nil, List.sum_nil, List.length_cons]
      omega
  | snoc run step ih =>
      have less := rest_step step
      rw [List.length_append, List.length_singleton]
      omega

/-- Some step other than a new call, an error of a stop or the end of its context can follow. -/
def ServiceLife.MovesOn (config : ProcessConfig) (s : ServiceLife) : Prop :=
  ∃ a s', a.ordinary = true ∧ s.perform config a = some s'

theorem ServiceLife.Sound.task_movesOn (h : s.Sound config) {todo : List StopCall}
    (task : s.task = some (.running todo)) : s.MovesOn config := by
  have shut := h.shut
  rw [task] at shut
  cases todo with
  | nil => exact absurd rfl shut.1
  | cons c todo =>
      refine ⟨.shutdown none, ?_⟩
      simp only [perform, task]
      split
      · exact ⟨_, rfl, rfl⟩
      · exact ⟨_, rfl, rfl⟩

theorem ServiceLife.Sound.stop_movesOn (h : s.Sound config) {i : ℕ} {phase : StopPhase}
    (here : s.stops[i]? = some phase) (busy : phase.rest ≠ 0) : s.MovesOn config := by
  cases phase with
  | called => exact ⟨.enterStop i, _, rfl, by simp only [perform, here]; rfl⟩
  | waiting =>
      have there : s.task.isSome := h.stops _ (List.mem_of_getElem? here)
      obtain ⟨task, present⟩ := Option.isSome_iff_exists.mp there
      cases task with
      | running todo => exact h.task_movesOn present
      | done error => exact ⟨.leaveStop i .finished, _, rfl, by simp only [perform, here, present]; rfl⟩
  | returned how => exact absurd rfl busy

theorem ServiceLife.Sound.wait_movesOn (h : s.Sound config) {j : ℕ} {phase : WaitPhase}
    (here : s.waits[j]? = some phase) (busy : phase.rest ≠ 0) : s.MovesOn config := by
  cases phase with
  | called => exact ⟨.enterWait j, _, rfl, by simp only [perform, here]; rfl⟩
  | waiting =>
      have there : s.task.isSome := h.waits _ (List.mem_of_getElem? here)
      obtain ⟨task, present⟩ := Option.isSome_iff_exists.mp there
      cases task with
      | running todo => exact h.task_movesOn present
      | done error => exact ⟨.leaveWait j, _, rfl, by simp only [perform, here, present]; rfl⟩
  | alone => exact ⟨.leaveAlone j none, _, rfl, by simp only [perform, here]; rfl⟩
  | returned error => exact absurd rfl busy
  | returnedAlone error => exact absurd rfl busy

theorem ServiceLife.Sound.start_movesOn (h : s.Sound config)
    (busy : ∀ error, s.start ≠ .ended error) : s.MovesOn config := by
  have begun := h.begun
  match phase : s.start with
  | .running [] => exact ⟨.startEnds, _, rfl, by simp only [perform, phase]; rfl⟩
  | .running (c :: todo) => exact ⟨.startReturns, _, rfl, by simp only [perform, phase]; rfl⟩
  | .failing error =>
      rw [phase] at begun
      obtain ⟨-, asked, -⟩ := begun
      obtain ⟨first, rest, stops⟩ := List.exists_cons_of_ne_nil asked
      cases first with
      | returned how =>
          have head : s.stops.head? = some (.returned how) := by
            rw [stops]
            rfl
          exact ⟨.startEnds, _, rfl, by simp only [perform, phase, head]; rfl⟩
      | called => exact h.stop_movesOn (by rw [stops]; rfl : s.stops[0]? = some .called) two_ne_zero
      | waiting => exact h.stop_movesOn (by rw [stops]; rfl : s.stops[0]? = some .waiting) one_ne_zero
  | .ended error => exact absurd phase (busy error)

/-- The number of steps is bounded in the number of callers, and as long as one of them has not come
back, the service goes on: nobody waits for anything but the calls of the service itself. -/
theorem service_settles {config : ProcessConfig} {acts : List ServiceAction} {s : ServiceLife}
    (run : Run (Performs (ServiceLife.perform config)) (.init config.service) acts s) :
    acts.length ≤ config.service.startCalls.length + 7 + 3 * (s.stops.length + s.waits.length) ∧
    (s.Busy → s.MovesOn config) := by
  have sound := ServiceLife.Sound.run run
  refine ⟨Nat.le_trans (Nat.le_add_right _ _) (ServiceLife.length_run run), ?_⟩
  rintro (busy | ⟨phase, member, busy⟩ | ⟨phase, member, busy⟩)
  · exact sound.start_movesOn busy
  · obtain ⟨i, here⟩ := List.mem_iff_getElem?.mp member
    exact sound.stop_movesOn here busy
  · obtain ⟨j, here⟩ := List.mem_iff_getElem?.mp member
    exact sound.wait_movesOn here busy

end Settles

/-- The start has failed, and its stop waits for the task that it has made. -/
theorem service_settles_failing :
    ∃ (config : ProcessConfig) (acts : List ServiceAction) (s : ServiceLife),
      Run (Performs (ServiceLife.perform config)) (.init config.service) acts s ∧
      acts.length ≤ 28 ∧ s.Busy ∧ s.MovesOn config := by
  let config : ProcessConfig := ⟨.inventory, 0, .local, false, false⟩
  let acts : List ServiceAction := [.startReturns, .startThrows .other false, .enterStop 0]
  have ends : (acts.foldlM (ServiceLife.perform config) (.init config.service)).map (fun s =>
      (s.start, s.stops.length + s.waits.length)) = some (.failing .other, 1) := by
    decide +kernel
  obtain ⟨s, steps, shown⟩ := Option.map_eq_some_iff.mp ends
  obtain ⟨failing, callers⟩ := Prod.mk.inj shown
  have busy : s.Busy := by
    refine .inl fun error same => ?_
    rw [failing] at same
    cases same
  obtain ⟨bounded, movesOn⟩ := service_settles (.of_foldlM steps)
  rw [callers] at bounded
  exact ⟨config, acts, s, .of_foldlM steps, bounded, busy, movesOn busy⟩

end OrderServices
