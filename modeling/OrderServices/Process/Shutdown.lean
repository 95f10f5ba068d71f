import OrderServices.Process.Log

/-! A process under its watchdog: when it ends, with which exit, and what it has stopped before. -/
namespace OrderServices

open Runs Watchdog

def exit? (s : Supervised Main ℕ) : Option ProcessExit :=
  match s.cut with
  | some code => some (.status code)
  | none => s.inner.exit?

theorem alive_iff {config : ProcessConfig} {s : Supervised Main ℕ} :
    s.Alive (process config) ↔ exit? s = none := by
  unfold exit?
  constructor
  · rintro ⟨uncut, going⟩
    rw [uncut]
    exact Option.not_isSome_iff_eq_none.mp (Bool.eq_false_iff.mp going)
  · intro going
    split at going
    · cases going
    · rename_i uncut
      exact ⟨uncut, Bool.eq_false_iff.mpr (Option.not_isSome_iff_eq_none.mpr going)⟩

section Process

variable {config : ProcessConfig} {latency : ℕ} {s s' : Supervised Main ℕ} {a : Action MainAction}

/-- The shutdown has begun, with its deadline at `deadline`. -/
structure Armed (alarm : ℤ × ℕ) (s : Supervised Main ℕ) : Prop where
  started : s.inner.started = true
  only : s.alarms = [alarm]
  early : s.cut.isSome → alarm.1 ≤ s.now

theorem Armed.step {alarm : ℤ × ℕ} (armed : Armed alarm s)
    (step : s.perform (process config) latency a = some s') : Armed alarm s' := by
  cases Supervised.perform_step step with
  | pass alive =>
      refine { armed with early := ?_ }
      intro impossible
      rw [alive.1] at impossible
      cases impossible
  | act alive moved quiet => exact { armed with started := Main.started_step armed.started moved }
  | arm alive moved asks =>
      exact absurd ((Main.arms_eq_some asks).2.1.symm.trans armed.started) Bool.false_ne_true
  | bare alive moved asks =>
      exact absurd ((Main.arms_eq_some asks).2.1.symm.trans armed.started) Bool.false_ne_true
  | fire alive here due =>
      refine { armed with early := ?_ }
      intro _
      have set := List.mem_of_getElem? here
      rw [armed.only, List.mem_singleton] at set
      rw [← set]
      exact due

/-- What main's log says about the watchdogs and about the end of the process. -/
structure Process (config : ProcessConfig) (s : Supervised Main ℕ) : Prop where
  main : s.inner.Sound config
  unset : s.inner.started = false → s.alarms = [] ∧ s.cut = none
  status : ∀ code, (∃ deadline, (deadline, code) ∈ s.alarms) ∨ s.cut = some code →
    code = cutStatus s.inner.log

theorem Process.start (now : ℤ) : Process config (.start (.start config) now) where
  main := .start
  unset := fun _ => ⟨rfl, rfl⟩
  status := by
    rintro code (⟨deadline, impossible⟩ | impossible)
    · cases impossible
    · cases impossible

/-- Main has gone on, and the watchdogs that it has set agree with its log. -/
theorem Process.moved {inner : Main} {b : MainAction} (h : Process config s)
    (moved : s.inner.perform config b = some inner) :
    Process config { s with inner } where
  main := h.main.step moved
  unset := by
    intro unstarted
    apply h.unset
    rw [Bool.eq_false_iff]
    intro started
    exact Bool.false_ne_true (unstarted.symm.trans (Main.started_step started moved))
  status := by
    intro code ends
    have started : s.inner.started = true := by
      by_contra unstarted
      obtain ⟨none_set, uncut⟩ := h.unset (Bool.eq_false_iff.mpr unstarted)
      simp only [none_set, uncut] at ends
      rcases ends with ⟨deadline, impossible⟩ | impossible
      · cases impossible
      · cases impossible
    obtain ⟨more, log⟩ := Main.log_step moved
    rw [h.status code ends, log, (h.main.settled started).cutStatus_append]

theorem Process.begins {inner : Main} {b : MainAction} {timeout code : ℕ} (h : Process config s)
    (moved : s.inner.perform config b = some inner)
    (asks : s.inner.arms config b = some (timeout, code)) :
    timeout = config.timeout ∧ inner.started = true ∧ s.alarms = [] ∧ code = cutStatus inner.log := by
  obtain ⟨rfl, unstarted, timed, failure, todo, phase⟩ := Main.arms_eq_some asks
  obtain ⟨settled, agrees⟩ := h.main.settled_here phase
  simp only [Main.perform, phase] at moved
  cases moved
  exact ⟨timed, rfl, (h.unset unstarted).1, agrees unstarted⟩

theorem Process.step (h : Process config s)
    (step : s.perform (process config) latency a = some s') : Process config s' := by
  cases Supervised.perform_step step with
  | pass => exact { h with }
  | act alive moved quiet => exact h.moved moved
  | arm alive moved asks =>
      obtain ⟨-, started, unset, agrees⟩ := h.begins moved asks
      refine { h.moved moved with unset := ?_, status := ?_ }
      · intro unstarted
        exact absurd (unstarted.symm.trans started) Bool.false_ne_true
      · intro code ends
        rcases ends with ⟨deadline, set⟩ | cut
        · simp only [unset, List.mem_singleton] at set
          cases set
          exact agrees
        · exact absurd (alive.1.symm.trans cut) nofun
  | bare alive moved asks =>
      obtain ⟨-, started, unset, agrees⟩ := h.begins moved asks
      refine { h.moved moved with unset := ?_, status := ?_ }
      · intro unstarted
        exact absurd (unstarted.symm.trans started) Bool.false_ne_true
      · intro code ends
        rcases ends with ⟨deadline, set⟩ | cut
        · simp only [unset] at set
          cases set
        · cases cut
          exact agrees
  | fire alive here due =>
      refine { h with unset := ?_, status := ?_ }
      · intro unstarted
        rw [(h.unset unstarted).1] at here
        cases here
      · intro code ends
        apply h.status code
        rcases ends with set | cut
        · exact .inl set
        · cases cut
          exact .inl ⟨_, List.mem_of_getElem? here⟩

end Process

section Runs

variable {config : ProcessConfig} {latency : ℕ} {now : ℤ} {acts : List (Action MainAction)}
  {s : Supervised Main ℕ}

theorem Process.run
    (run : Run (Performs (Supervised.perform (process config) latency)) (.start (.start config) now) acts s) :
    Process config s :=
  run.invariant_all (.start now) fun before step => before.step step

/-- The process is gone by the deadline, but for the latency of the watchdog. There is one watchdog,
which can end the process once the deadline has passed, and does not end it before. -/
structure EndsBy (config : ProcessConfig) (latency : ℕ) (deadline : ℤ) (s : Supervised Main ℕ) :
    Prop where
  inTime : exit? s = none → s.now ≤ deadline + latency
  ready : exit? s = none → deadline ≤ s.now →
    ∃ code, s.perform (process config) latency (.fire 0) = some { s with cut := some code }
  early : s.cut.isSome → deadline ≤ s.now
  only : s.alarms.length = 1

/-- Once its shutdown has begun, a process ends by the deadline that it then has, whichever call of
main or destructor hangs, and however the shutdown is begun again. -/
theorem process_ends {m m' : Supervised Main ℕ} {a : MainAction} {later : List (Action MainAction)}
    (run : Run (Performs (Supervised.perform (process config) latency)) (.start (.start config) now) acts m)
    (fresh : m.inner.started = false)
    (begins : m.perform (process config) latency (.act a true) = some m')
    (begun : m'.inner.started = true)
    (onward : Run (Performs (Supervised.perform (process config) latency)) m' later s) :
    EndsBy config latency (m.now + config.timeout) s := by
  have reached := Process.run run
  obtain ⟨code, armed⟩ : ∃ code, Armed (m.now + config.timeout, code) m' := by
    cases Supervised.perform_step begins with
    | act alive moved quiet =>
        obtain ⟨exitCode, asks⟩ := Main.arms_of_started fresh moved begun
        exact absurd (quiet.symm.trans asks) nofun
    | arm alive moved asks =>
        obtain ⟨rfl, started, unset, -⟩ := reached.begins moved asks
        refine ⟨_, started, by rw [unset], ?_⟩
        intro impossible
        rw [alive.1] at impossible
        cases impossible
  have armed : Armed (m.now + config.timeout, code) s :=
    onward.invariant_all armed fun before step => before.step step
  have unlate : Supervised.Punctual latency (.start (Main.start config) now : Supervised Main ℕ) := nofun
  have punctual := ((unlate.run run).step begins).run onward
  have set : (m.now + config.timeout, code) ∈ s.alarms := by
    rw [armed.only]
    exact List.mem_singleton_self _
  have here : s.alarms[0]? = some (m.now + config.timeout, code) := by rw [armed.only]; rfl
  refine ⟨fun _ => punctual _ set, ?_, armed.early, by rw [armed.only]; rfl⟩
  intro going due
  exact ⟨code, Supervised.fire_enabled (alive_iff.mpr going) here due⟩

end Runs

def orderProcess : ProcessConfig := ⟨.order, 30000, .production, false, false⟩

def proceeds : Action MainAction := .act .proceeds true

def returns (flushed : Bool) : Action MainAction := .act (.returns flushed) true

/-- The service has started, and the signal has come. -/
def upToSignal : List (Action MainAction) :=
  [proceeds, returns true, returns true, returns true, .pass 1000, returns true]

/-- The service never stops, and the watchdog ends the process half a minute after the signal. -/
theorem process_ends_hanging :
    ∃ (m m' s : Supervised Main ℕ) (later : List (Action MainAction)),
      Run (Performs (Supervised.perform (process orderProcess) 0)) (.start (.start orderProcess) 0) upToSignal m ∧
      m.perform (process orderProcess) 0 proceeds = some m' ∧
      Run (Performs (Supervised.perform (process orderProcess) 0)) m' later s ∧
      exit? s = some (.status 0) ∧ s.now = 30000001000 ∧
      EndsBy orderProcess 0 (m.now + orderProcess.timeout) s := by
  let later : List (Action MainAction) := [proceeds, returns true, .pass 30000000000, .fire 0]
  let story : List Moment :=
    [.returned .startRuntime, .returned .startService, .returned .startLoader, .signalled]
  let rest : List Statement := orderProcess.shutdownRuntime ++ orderProcess.flushes.map .call
  let m : Supervised Main ℕ :=
    ⟨⟨.running none (.beginShutdown 0 :: rest), false, false, true, story⟩, 1000, [], none⟩
  let m' : Supervised Main ℕ :=
    ⟨⟨.running none rest, true, false, true, story⟩, 1000, [(30000001000, 0)], none⟩
  let s : Supervised Main ℕ :=
    ⟨⟨.running none (rest.drop 2), true, false, true, story ++ [.returned .stopLoader]⟩, 30000001000,
      [(30000001000, 0)], some 0⟩
  have run :
      Run (Performs (Supervised.perform (process orderProcess) 0)) (.start (.start orderProcess) 0) upToSignal m :=
    Run.of_foldlM rfl
  have begins : m.perform (process orderProcess) 0 proceeds = some m' := rfl
  have onward : Run (Performs (Supervised.perform (process orderProcess) 0)) m' later s :=
    Run.of_foldlM rfl
  exact ⟨m, m', s, later, run, begins, onward, rfl, rfl, process_ends run rfl begins rfl onward⟩

section Runs

variable {config : ProcessConfig} {latency : ℕ} {now : ℤ} {acts : List (Action MainAction)}
  {s : Supervised Main ℕ}

/-- What the log says about the exit: a process that a watchdog has ended reports success if a
signal came before all failures, one that has ended by itself if all its calls returned and the
providers wrote everything. -/
def verdict (config : ProcessConfig) (cut : Bool) (log : List Moment) : ProcessExit :=
  if cut then .status (if SignalledFirst log then 0 else 1)
  else if log = config.story then .status 0
  else if firstFailure log = some .other then .aborted
  else .status 1

theorem Leaves.verdict {log : List Moment} {exit : ProcessExit} (leaves : Leaves config log exit) :
    exit = verdict config false log := by
  rw [leaves.own, ownExit, OrderServices.verdict, if_neg Bool.false_ne_true]
  cases failed : firstFailure log with
  | none => rw [if_pos (leaves.whole failed)]
  | some error =>
      have other : log ≠ config.story := by
        rintro rfl
        rw [ProcessConfig.story, firstFailure_moments] at failed
        cases failed
      rw [if_neg other]
      cases error with
      | std => rfl
      | other => rfl

/-- How a process has ended can be told from the log of its main, in every run. -/
theorem exit_status {exit : ProcessExit}
    (run : Run (Performs (Supervised.perform (process config) latency)) (.start (.start config) now) acts s)
    (gone : exit? s = some exit) : exit = verdict config s.cut.isSome s.inner.log := by
  have reached := Process.run run
  unfold exit? at gone
  split at gone
  · rename_i code cut
    cases gone
    rw [cut, reached.status code (.inr cut)]
    rfl
  · rename_i uncut
    rw [uncut]
    have told := reached.main.told
    unfold Main.Told at told
    rw [Main.phase_of_exit gone] at told
    exact told.verdict

end Runs

/-- The logs are not flushed, so that the process fails although everything has stopped. -/
theorem exit_status_unflushed :
    ∃ (acts : List (Action MainAction)) (s : Supervised Main ℕ),
      Run (Performs (Supervised.perform (process orderProcess) 0)) (.start (.start orderProcess) 0) acts s ∧
      SignalledFirst s.inner.log ∧ exit? s = some (.status 1) ∧
      .status 1 = verdict orderProcess s.cut.isSome s.inner.log := by
  let stops : List (Action MainAction) :=
    [proceeds, proceeds, returns true, returns true, returns true, returns true, returns true, proceeds]
  let flushes : List (Action MainAction) := [returns true, returns true, returns false, returns true]
  let acts := upToSignal ++ stops ++ flushes ++ [proceeds, proceeds, proceeds, proceeds]
  have ends : (acts.foldlM (Supervised.perform (process orderProcess) 0) (.start (.start orderProcess) 0)).map
      (fun s => (decide (SignalledFirst s.inner.log), exit? s)) = some (true, some (.status 1)) := rfl
  obtain ⟨s, ran, shown⟩ := Option.map_eq_some_iff.mp ends
  obtain ⟨signalled, gone⟩ := Prod.mk.inj shown
  have run := Run.of_foldlM ran
  exact ⟨acts, s, run, of_decide_eq_true signalled, gone, exit_status run gone⟩

end OrderServices
