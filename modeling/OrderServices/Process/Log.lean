import Mathlib.Data.List.TakeWhile
import OrderServices.Process.Main

/-! What main's log tells about its process: whether the signal came before all failures, how main
ends, and what has become of the stops. -/
namespace OrderServices

def Moment.failure? : Moment → Option Exception
  | .threw error => some error
  | _ => none

/-- The first failure, if there is one. -/
def firstFailure (log : List Moment) : Option Exception := log.findSome? Moment.failure?

/-- A signal has come, and nothing has failed before it. -/
def SignalledFirst (log : List Moment) : Prop :=
  .signalled ∈ log.takeWhile fun moment => moment.failure?.isNone

instance (log : List Moment) : Decidable (SignalledFirst log) := by
  unfold SignalledFirst
  infer_instance

/-- The status that a watchdog ends the process with. -/
def cutStatus (log : List Moment) : ℕ := if SignalledFirst log then 0 else 1

/-- The exit of a process that ends by itself. -/
def ownExit (log : List Moment) : ProcessExit :=
  match firstFailure log with
  | none => .status 0
  | some (.std _) => .status 1
  | some .other => .aborted

def Statement.moment? : Statement → Option Moment
  | .call c => some (.returned c)
  | .awaitSignal => some .signalled
  | _ => none

/-- Main from its set-up to the end of its inner try block. -/
def ProcessConfig.statements (config : ProcessConfig) : List Statement :=
  config.setUp.map .call ++ config.body

/-- All calls of main, when none of them throws. -/
def ProcessConfig.story (config : ProcessConfig) : List Moment :=
  config.statements.filterMap Statement.moment?

/-- Whether the status of a watchdog is settled. -/
def Settled (log : List Moment) : Prop := SignalledFirst log ∨ (firstFailure log).isSome

theorem firstFailure_append {log : List Moment} {error : Exception}
    (failed : firstFailure log = some error) (more : List Moment) :
    firstFailure (log ++ more) = some error := by
  unfold firstFailure at *
  rw [List.findSome?_append, failed]
  rfl

theorem firstFailure_threw {log : List Moment} (unfailed : firstFailure log = none) (error : Exception) :
    firstFailure (log ++ [.threw error]) = some error := by
  unfold firstFailure at *
  rw [List.findSome?_append, unfailed]
  rfl

theorem firstFailure_eq_none {log : List Moment} :
    firstFailure log = none ↔ ∀ moment ∈ log, moment.failure? = none :=
  List.findSome?_eq_none_iff

theorem signalledFirst_iff_mem {log : List Moment} (unfailed : firstFailure log = none) :
    SignalledFirst log ↔ .signalled ∈ log := by
  have whole : log.takeWhile (fun moment => moment.failure?.isNone) = log :=
    List.takeWhile_eq_self_iff.mpr fun moment here =>
      Option.isNone_iff_eq_none.mpr (firstFailure_eq_none.mp unfailed moment here)
  rw [SignalledFirst, whole]

theorem signalledFirst_threw {log : List Moment} (unfailed : firstFailure log = none)
    (error : Exception) : SignalledFirst (log ++ [.threw error]) ↔ .signalled ∈ log := by
  have whole :
      (log ++ [Moment.threw error]).takeWhile (fun moment => moment.failure?.isNone) = log := by
    rw [List.takeWhile_append_of_pos fun moment here =>
      Option.isNone_iff_eq_none.mpr (firstFailure_eq_none.mp unfailed moment here)]
    exact List.append_nil log
  rw [SignalledFirst, whole]

/-- What comes later does not change the status of a watchdog that has been set. -/
theorem Settled.signalledFirst_append {log : List Moment} (settled : Settled log) (more : List Moment) :
    SignalledFirst (log ++ more) ↔ SignalledFirst log := by
  unfold SignalledFirst
  rw [List.takeWhile_append]
  split
  · rename_i whole
    have all := (List.takeWhile_prefix _).eq_of_length whole
    have unfailed : firstFailure log = none := firstFailure_eq_none.mpr fun moment here =>
      Option.isNone_iff_eq_none.mp (List.takeWhile_eq_self_iff.mp all moment here)
    have first : SignalledFirst log := by
      rcases settled with first | failed
      · exact first
      · rw [unfailed] at failed
        cases failed
    exact ⟨fun _ => first, fun _ => List.mem_append_left _ ((signalledFirst_iff_mem unfailed).mp first)⟩
  · rfl

theorem Settled.append {log : List Moment} (settled : Settled log) (more : List Moment) :
    Settled (log ++ more) := by
  rcases settled with first | failed
  · exact .inl ((Settled.signalledFirst_append (.inl first) more).mpr first)
  · obtain ⟨error, failed⟩ := Option.isSome_iff_exists.mp failed
    exact .inr (by rw [firstFailure_append failed more]; rfl)

theorem Settled.cutStatus_append {log : List Moment} (settled : Settled log) (more : List Moment) :
    cutStatus (log ++ more) = cutStatus log := by
  unfold cutStatus
  simp only [settled.signalledFirst_append more]

theorem firstFailure_moments (done : List Statement) :
    firstFailure (done.filterMap Statement.moment?) = none := by
  refine firstFailure_eq_none.mpr fun moment here => ?_
  obtain ⟨statement, -, told⟩ := List.mem_filterMap.mp here
  cases statement with
  | call => cases told; rfl
  | awaitSignal => cases told; rfl
  | beginShutdown => cases told
  | runtimeShutdown => cases told

/-- Unless there is a failure, the shutdown begins after the signal, and with success. -/
theorem ProcessConfig.statements_begin {config : ProcessConfig} {done todo : List Statement}
    {exitCode : ℕ} (split : config.statements = done ++ .beginShutdown exitCode :: todo) :
    exitCode = 0 ∧ .awaitSignal ∈ done := by
  have parts : config.statements = ((config.setUp ++ config.starts).map .call ++ [.awaitSignal]) ++
      .beginShutdown 0 :: (config.shutdownRuntime ++ config.flushes.map .call) := by
    simp [statements, body]
  rcases List.append_eq_append_iff.mp (parts.symm.trans split) with
    ⟨between, rfl, rest⟩ | ⟨between, front, rest⟩
  · refine ⟨?_, by simp⟩
    have here : Statement.beginShutdown exitCode ∈
        Statement.beginShutdown 0 :: (config.shutdownRuntime ++ config.flushes.map .call) := by
      rw [rest]
      simp
    simpa [shutdownRuntime] using here
  · cases between with
    | nil =>
        rw [List.append_nil] at front
        obtain ⟨same, -⟩ := List.cons.inj rest
        rw [← front]
        exact ⟨Statement.beginShutdown.inj same, by simp⟩
    | cons first between =>
        obtain ⟨rfl, -⟩ := List.cons.inj rest
        have early : Statement.beginShutdown exitCode ∈
            (config.setUp ++ config.starts).map .call ++ [.awaitSignal] := by
          rw [front]
          simp
        simp at early

/-- Right after the signal the shutdown begins. -/
theorem ProcessConfig.statements_await {config : ProcessConfig} {done todo : List Statement}
    (split : config.statements = done ++ .awaitSignal :: todo) :
    ∃ rest, todo = .beginShutdown 0 :: rest := by
  have parts : config.statements = (config.setUp ++ config.starts).map .call ++
      .awaitSignal :: .beginShutdown 0 :: (config.shutdownRuntime ++ config.flushes.map .call) := by
    simp [statements, body]
  obtain ⟨-, -, rest⟩ := (List.append_cons_inj_of_notMem (by simp) (by simp [shutdownRuntime])).mp
    (parts.symm.trans split)
  exact ⟨_, rest.symm⟩

/-- The stops have returned, one after the other. -/
def ProcessConfig.Stopped (config : ProcessConfig) (log : List Moment) : Prop :=
  config.stops.map .returned <:+: log

theorem ProcessConfig.Stopped.append {config : ProcessConfig} {log : List Moment}
    (stopped : config.Stopped log) (more : List Moment) : config.Stopped (log ++ more) :=
  stopped.trans (List.prefix_append _ _).isInfix

theorem moments_calls (calls : List ProcessCall) :
    (calls.map Statement.call).filterMap Statement.moment? = calls.map .returned := by
  rw [List.filterMap_map]
  exact congrFun List.filterMap_eq_map calls

/-- Where `runtime_shutdown` is set, all stops have returned. -/
theorem ProcessConfig.stopped_of_statements {config : ProcessConfig} {done todo : List Statement}
    (split : config.statements = done ++ .runtimeShutdown :: todo) :
    config.Stopped (done.filterMap Statement.moment?) := by
  have parts : config.statements = ((config.setUp ++ config.starts).map .call ++
      [.awaitSignal, .beginShutdown 0, .beginShutdown 0] ++ config.stops.map .call) ++
      .runtimeShutdown :: config.flushes.map .call := by
    simp [statements, body, shutdownRuntime]
  obtain ⟨rfl, -, -⟩ := (List.append_cons_inj_of_notMem (by simp) (by simp)).mp
    (parts.symm.trans split)
  rw [List.filterMap_append, moments_calls]
  exact (List.suffix_append _ _).isInfix

theorem ProcessConfig.story_stopped (config : ProcessConfig) : config.Stopped config.story := by
  have split : config.statements = ((config.setUp ++ config.starts).map .call ++
      .awaitSignal :: .beginShutdown 0 :: .beginShutdown 0 :: config.stops.map .call) ++
      .runtimeShutdown :: config.flushes.map .call := by
    simp [statements, body, shutdownRuntime]
  rw [story, split, List.filterMap_append]
  exact (stopped_of_statements split).append _

/-- When the handler has nothing left to do, all stops have returned. -/
theorem ProcessConfig.stopped_of_handler {config : ProcessConfig} (front : List Moment) :
    config.Stopped (front ++ (config.handler false).filterMap Statement.moment?) := by
  have stops : (config.handler false).filterMap Statement.moment? = config.stops.map .returned := by
    change (config.stops.map Statement.call ++ [Statement.runtimeShutdown]).filterMap _ = _
    rw [List.filterMap_append, moments_calls]
    exact List.append_nil _
  rw [stops]
  exact (List.suffix_append _ _).isInfix

/-- A process that ends by itself with `exit`. -/
structure Leaves (config : ProcessConfig) (log : List Moment) (exit : ProcessExit) : Prop where
  own : exit = ownExit log
  whole : firstFailure log = none → log = config.story

/-- The phase that main is in and what the log tells. -/
def Main.Told (config : ProcessConfig) (s : Main) : Prop :=
  match s.phase with
  | .setUp todo => (∃ done, config.setUp = done ++ todo ∧ s.log = done.map .returned) ∧ s.started = false
  | .running none todo =>
      (∃ done, config.statements = done ++ todo ∧ s.log = done.filterMap Statement.moment?) ∧
        (s.started = false → .signalled ∈ s.log → ∃ rest, todo = .beginShutdown 0 :: rest)
  | .running (some error) todo =>
      firstFailure s.log = some error ∧
        (s.started = false → ¬SignalledFirst s.log ∧ ∃ rest, todo = .beginShutdown 1 :: rest)
  | .leaving status => Leaves config s.log (.status status)
  | .ended exit => Leaves config s.log exit

structure Main.Sound (config : ProcessConfig) (s : Main) : Prop where
  told : s.Told config
  settled : s.started = true → Settled s.log

section Main

variable {config : ProcessConfig} {s s' : Main} {a : MainAction}

theorem Main.Sound.start : (Main.start config).Sound config := ⟨⟨⟨[], rfl, rfl⟩, rfl⟩, nofun⟩

theorem Leaves.failed {log : List Moment} {error : Exception}
    (failed : firstFailure log = some error) {exit : ProcessExit} (own : exit = ownExit log) :
    Leaves config log exit :=
  ⟨own, fun unfailed => by rw [failed] at unfailed; cases unfailed⟩

theorem Main.Told.thrown (error : Exception) (phase : s.phase = .thrown error)
    (failed : firstFailure s.log = some error) : s.Told config := by
  unfold Told
  rw [phase]
  cases error with
  | std => exact .failed failed (by rw [ownExit, failed])
  | other => exact .failed failed (by rw [ownExit, failed])

/-- Main goes on to the next statement. -/
theorem Main.Told.advance {failure : Option Exception} {statement : Statement} {todo : List Statement}
    (told : s.Told config) (phase : s.phase = .running failure (statement :: todo))
    (next : s'.phase = .running failure todo)
    (log : s'.log = s.log ++ statement.moment?.toList)
    (kept : s.started = true → s'.started = true)
    (begun : ∀ exitCode, statement = .beginShutdown exitCode → s'.started = true) :
    s'.Told config := by
  unfold Told at *
  rw [phase] at told
  rw [next]
  cases failure with
  | none =>
      obtain ⟨⟨done, split, said⟩, signal⟩ := told
      constructor
      · refine ⟨done ++ [statement], by rw [split]; simp, ?_⟩
        rw [log, said, List.filterMap_append]
        cases statement <;> rfl
      · intro unstarted signalled
        have fresh : s.started = false := by
          rw [Bool.eq_false_iff]
          intro started
          rw [kept started] at unstarted
          cases unstarted
        -- Only where the signal has just come can there be one and no shutdown yet.
        cases statement with
        | awaitSignal => exact ProcessConfig.statements_await split
        | call =>
            have before : .signalled ∈ s.log := by simpa [log, Statement.moment?] using signalled
            obtain ⟨rest, impossible⟩ := signal fresh before
            cases impossible
        | beginShutdown exitCode =>
            rw [begun exitCode rfl] at unstarted
            cases unstarted
        | runtimeShutdown =>
            have before : .signalled ∈ s.log := by simpa [log, Statement.moment?] using signalled
            obtain ⟨rest, impossible⟩ := signal fresh before
            cases impossible
  | some error =>
      obtain ⟨failed, unstarted⟩ := told
      constructor
      · rw [log]
        exact firstFailure_append failed _
      · intro impossible
        exfalso
        apply Bool.false_ne_true
        rw [← impossible]
        cases before : s.started with
        | true => exact kept before
        | false =>
            obtain ⟨-, rest, here⟩ := unstarted before
            exact begun 1 (List.cons.inj here).1

/-- The shutdown begins after the signal or after a failure. -/
theorem Main.Sound.settled_here {failure : Option Exception} {exitCode : ℕ} {todo : List Statement}
    (sound : s.Sound config) (phase : s.phase = .running failure (.beginShutdown exitCode :: todo)) :
    Settled s.log ∧ (s.started = false → exitCode = cutStatus s.log) := by
  have told := sound.told
  unfold Told at told
  rw [phase] at told
  cases failure with
  | none =>
      obtain ⟨⟨done, split, log⟩, -⟩ := told
      obtain ⟨rfl, signalled⟩ := ProcessConfig.statements_begin split
      have first : SignalledFirst s.log := by
        rw [log, signalledFirst_iff_mem (firstFailure_moments done)]
        exact List.mem_filterMap.mpr ⟨_, signalled, rfl⟩
      exact ⟨.inl first, fun _ => (if_pos first).symm⟩
  | some error =>
      obtain ⟨failed, unstarted⟩ := told
      constructor
      · exact .inr (by rw [failed]; rfl)
      · intro fresh
        obtain ⟨unsignalled, rest, here⟩ := unstarted fresh
        obtain rfl := Statement.beginShutdown.inj (List.cons.inj here).1
        exact (if_neg unsignalled).symm

theorem Main.Sound.fail {failure : Option Exception} {todo : List Statement} {error : Exception}
    (sound : s.Sound config) (phase : s.phase = .running failure todo)
    (here : ∀ exitCode rest, todo ≠ .beginShutdown exitCode :: rest) :
    (s.fail config failure error).Sound config := by
  refine ⟨?_, fun started => (sound.settled started).append _⟩
  have told := sound.told
  unfold Told at told
  rw [phase] at told
  cases failure with
  | none =>
      obtain ⟨⟨done, -, log⟩, signal⟩ := told
      have unfailed : firstFailure s.log = none := by rw [log]; exact firstFailure_moments done
      refine ⟨firstFailure_threw unfailed error, ?_⟩
      intro unstarted
      refine ⟨?_, _, rfl⟩
      intro signalled
      have before : .signalled ∈ s.log := (signalledFirst_threw unfailed error).mp signalled
      obtain ⟨rest, impossible⟩ := signal unstarted before
      exact here 0 rest impossible
  | some first =>
      exact Told.thrown first rfl (firstFailure_append told.1 _)

theorem Main.Sound.step (sound : s.Sound config) (step : s.perform config a = some s') :
    s'.Sound config := by
  have told := sound.told
  unfold Told at told
  cases perform_step step with
  | @setUp c todo flushed phase =>
      rw [phase] at told
      obtain ⟨⟨done, split, log⟩, unstarted⟩ := told
      refine ⟨⟨⟨done ++ [c], by rw [split]; simp, ?_⟩, unstarted⟩, ?_⟩
      · simp only [log, List.map_append, List.map_singleton]
      · intro started
        exact absurd (unstarted.symm.trans started) Bool.false_ne_true
  | begin phase =>
      rw [phase] at told
      obtain ⟨⟨done, split, log⟩, unstarted⟩ := told
      rw [List.append_nil] at split
      refine ⟨⟨⟨done.map .call, by rw [ProcessConfig.statements, split], ?_⟩, ?_⟩, sound.settled⟩
      · rw [moments_calls]
        exact log
      · intro _ signalled
        simp [log] at signalled
  | @setUpFails todo error phase =>
      rw [phase] at told
      obtain ⟨⟨done, -, log⟩, unstarted⟩ := told
      have unfailed : firstFailure s.log = none := by
        rw [log, ← moments_calls]
        exact firstFailure_moments _
      constructor
      · exact .thrown error rfl (firstFailure_threw unfailed error)
      · intro started
        exact absurd (unstarted.symm.trans started) Bool.false_ne_true
  | call phase =>
      exact ⟨sound.told.advance phase rfl rfl id nofun, fun started => (sound.settled started).append _⟩
  | signal phase =>
      exact ⟨sound.told.advance phase rfl rfl id nofun, fun started => (sound.settled started).append _⟩
  | fail phase here => exact sound.fail phase here
  | beginShutdown phase =>
      constructor
      · exact sound.told.advance phase rfl (List.append_nil _).symm (fun _ => rfl) fun _ _ => rfl
      · intro _
        exact (sound.settled_here phase).1
  | runtimeShutdown phase =>
      exact ⟨sound.told.advance phase rfl (List.append_nil _).symm id nofun, sound.settled⟩
  | finish phase =>
      rw [phase] at told
      obtain ⟨⟨done, split, log⟩, -⟩ := told
      rw [List.append_nil] at split
      have unfailed : firstFailure s.log = none := by rw [log]; exact firstFailure_moments done
      refine ⟨⟨by rw [ownExit, unfailed], fun _ => ?_⟩, sound.settled⟩
      rw [ProcessConfig.story, split]
      exact log
  | @rethrow error phase =>
      rw [phase] at told
      exact ⟨.thrown error rfl told.1, sound.settled⟩
  | leave phase =>
      rw [phase] at told
      exact ⟨told, sound.settled⟩

/-- The log only grows. -/
theorem Main.log_step (step : s.perform config a = some s') : ∃ more, s'.log = s.log ++ more := by
  cases perform_step step with
  | setUp => exact ⟨_, rfl⟩
  | begin => exact ⟨[], (List.append_nil _).symm⟩
  | setUpFails => exact ⟨_, rfl⟩
  | call => exact ⟨_, rfl⟩
  | signal => exact ⟨_, rfl⟩
  | fail => exact ⟨_, rfl⟩
  | beginShutdown => exact ⟨[], (List.append_nil _).symm⟩
  | runtimeShutdown => exact ⟨[], (List.append_nil _).symm⟩
  | finish => exact ⟨[], (List.append_nil _).symm⟩
  | rethrow => exact ⟨[], (List.append_nil _).symm⟩
  | leave => exact ⟨[], (List.append_nil _).symm⟩

theorem Main.started_step (started : s.started = true) (step : s.perform config a = some s') :
    s'.started = true := by
  cases perform_step step with
  | beginShutdown => rfl
  | setUp => exact started
  | begin => exact started
  | setUpFails => exact started
  | call => exact started
  | signal => exact started
  | fail => exact started
  | runtimeShutdown => exact started
  | finish => exact started
  | rethrow => exact started
  | leave => exact started

/-- A shutdown that begins sets its watchdog. -/
theorem Main.arms_of_started (fresh : s.started = false) (step : s.perform config a = some s')
    (started : s'.started = true) : ∃ exitCode, s.arms config a = some (config.timeout, exitCode) := by
  have stays : s'.started ≠ s.started := by
    rw [fresh, started]
    decide
  cases perform_step step with
  | @beginShutdown failure exitCode todo phase =>
      refine ⟨exitCode, ?_⟩
      simp only [arms, phase]
      rw [fresh]
      rfl
  | setUp => exact absurd rfl stays
  | begin => exact absurd rfl stays
  | setUpFails => exact absurd rfl stays
  | call => exact absurd rfl stays
  | signal => exact absurd rfl stays
  | fail => exact absurd rfl stays
  | runtimeShutdown => exact absurd rfl stays
  | finish => exact absurd rfl stays
  | rethrow => exact absurd rfl stays
  | leave => exact absurd rfl stays

/-- How many failures there have been. -/
def failures (log : List Moment) : ℕ := log.countP fun moment => moment.failure?.isSome

theorem failures_append (log more : List Moment) :
    failures (log ++ more) = failures log + failures more := List.countP_append

theorem failures_pos {log : List Moment} {error : Exception} (failed : firstFailure log = some error) :
    0 < failures log := by
  obtain ⟨moment, here, told⟩ := List.exists_of_findSome?_eq_some failed
  exact List.countP_pos_iff.mpr ⟨moment, here, by rw [told]; rfl⟩

/-- What has become of the stops in a process that ends by itself. Nothing stops what the set-up has
started, if it fails. -/
inductive StopsDone (config : ProcessConfig) : List Moment → Prop
  | setUpFailed {done todo : List ProcessCall} (error : Exception) (split : config.setUp = done ++ todo) :
      StopsDone config (done.map .returned ++ [.threw error])
  | stopped {log : List Moment} (stopped : config.Stopped log) : StopsDone config log
  | failedAgain {log : List Moment} (again : 2 ≤ failures log) : StopsDone config log

/-- What main has still to do for the stops. -/
def Main.Stopping (config : ProcessConfig) (s : Main) : Prop :=
  match s.phase with
  | .setUp _ => s.runtimeShutdown = false
  | .running none _ => s.runtimeShutdown = true → config.Stopped s.log
  | .running (some _) todo => config.Stopped s.log ∨
      ∃ front done, config.handler false = done ++ todo ∧
        s.log = front ++ done.filterMap Statement.moment?
  | .leaving _ => StopsDone config s.log
  | .ended _ => StopsDone config s.log

theorem Main.Stopping.advance {failure : Option Exception} {statement : Statement}
    {todo : List Statement} (stopping : s.Stopping config)
    (phase : s.phase = .running failure (statement :: todo)) (next : s'.phase = .running failure todo)
    (log : s'.log = s.log ++ statement.moment?.toList)
    (same : failure = none → s'.runtimeShutdown = true → s.runtimeShutdown = true ∨
      config.Stopped s.log) : s'.Stopping config := by
  unfold Stopping at *
  rw [phase] at stopping
  rw [next]
  cases failure with
  | none =>
      intro down
      rw [log]
      rcases same rfl down with before | stopped
      · exact (stopping before).append _
      · exact stopped.append _
  | some error =>
      rcases stopping with stopped | ⟨front, done, split, said⟩
      · exact .inl (by rw [log]; exact stopped.append _)
      · refine .inr ⟨front, done ++ [statement], by rw [split]; simp, ?_⟩
        rw [log, said, List.filterMap_append]
        cases statement <;> simp [Statement.moment?]

theorem Main.Stopping.thrown (error : Exception) (phase : s.phase = .thrown error)
    (done : StopsDone config s.log) : s.Stopping config := by
  unfold Stopping
  rw [phase]
  cases error with
  | std => exact done
  | other => exact done

theorem Main.Stopping.step (sound : s.Sound config) (stopping : s.Stopping config)
    (step : s.perform config a = some s') : s'.Stopping config := by
  have told := sound.told
  unfold Told at told
  have before := stopping
  unfold Stopping at before
  cases perform_step step with
  | setUp phase =>
      rw [phase] at before
      exact before
  | begin phase =>
      rw [phase] at before
      exact fun down => absurd (before.symm.trans down) Bool.false_ne_true
  | @setUpFails todo error phase =>
      rw [phase] at told
      obtain ⟨⟨done, split, log⟩, -⟩ := told
      refine Stopping.thrown error rfl ?_
      simp only [log]
      exact .setUpFailed error split
  | call phase => exact stopping.advance phase rfl rfl fun _ down => .inl down
  | signal phase => exact stopping.advance phase rfl rfl fun _ down => .inl down
  | beginShutdown phase =>
      exact stopping.advance phase rfl (List.append_nil _).symm fun _ down => .inl down
  | runtimeShutdown phase =>
      refine stopping.advance phase rfl (List.append_nil _).symm ?_
      rintro rfl -
      rw [phase] at told
      obtain ⟨⟨done, split, log⟩, -⟩ := told
      rw [log]
      exact .inr (ProcessConfig.stopped_of_statements split)
  | @fail failure todo _ error phase here =>
      rw [phase] at told before
      cases failure with
      | none =>
          cases down : s.runtimeShutdown with
          | true => exact .inl ((before down).append _)
          | false =>
              refine .inr ⟨s.log ++ [.threw error], [], ?_, (List.append_nil _).symm⟩
              rw [down]
              rfl
      | some first =>
          have earlier := failures_pos told.1
          have both := failures_append s.log [.threw error]
          have one : failures [.threw error] = 1 := rfl
          refine Stopping.thrown first rfl (.failedAgain ?_)
          simp only [Main.fail]
          omega
  | finish phase =>
      rw [phase] at told
      obtain ⟨⟨done, split, log⟩, -⟩ := told
      rw [List.append_nil] at split
      have whole : s.log = config.story := by rw [log, ProcessConfig.story, split]
      refine .stopped ?_
      simp only [whole]
      exact config.story_stopped
  | @rethrow error phase =>
      rw [phase] at before
      refine Stopping.thrown error rfl (.stopped ?_)
      rcases before with stopped | ⟨front, done, split, log⟩
      · exact stopped
      · rw [List.append_nil] at split
        simp only [log, ← split]
        exact ProcessConfig.stopped_of_handler front
  | leave phase =>
      rw [phase] at before
      exact before

end Main

end OrderServices
