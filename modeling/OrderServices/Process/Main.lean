import OrderServices.Config
import OrderServices.Library.Watchdog

/-! The process of a service, from its start to its exit. Main starts the components, waits for a
signal and stops them. Any of these calls may hang, so that a watchdog, set when the shutdown begins,
ends the process at the one deadline of the shutdown. -/
namespace OrderServices

open Watchdog

/-- What main reads of the configuration and of the environment variables. The timeout is in
milliseconds. -/
structure ProcessConfig where
  service : Service
  shutdownTimeout : ℤ
  environment : Environment
  noopLogs : Bool
  noopTracing : Bool

inductive ProcessCall
  /-- `BuildAndStart`. -/
  | startGrpcServer
  | startRuntime
  | startService
  | startLoader
  | registerHandlers
  | shutdownGrpcServer
  | stopLoader
  | stopService
  | waitStopped
  | stopRuntime
  | joinRuntime
  | flushTracing
  | shutdownTracing
  | flushLogs
  | shutdownLogs
  deriving DecidableEq, Repr

/-- The providers tell whether they could write everything. -/
def ProcessCall.flushes : ProcessCall → Bool
  | .flushTracing | .shutdownTracing | .flushLogs | .shutdownLogs => true
  | _ => false

/-- `ServiceGenerated::stop` is noexcept. -/
def ProcessCall.mayThrow : ProcessCall → Bool
  | .stopService => false
  | _ => true

inductive Statement
  | call (c : ProcessCall)
  /-- `shutdown_signals_context.run`, up to the signal. -/
  | awaitSignal
  | beginShutdown (exitCode : ℕ)
  /-- `runtime_shutdown = true`. -/
  | runtimeShutdown
  deriving DecidableEq, Repr

namespace ProcessConfig

variable (config : ProcessConfig)

def tracing : Bool := !config.noopTracing

def otlpLogs : Bool :=
  match config.environment with
  | .staging | .production => !config.noopLogs
  | _ => false

/-- What `begin_shutdown` gives the shutdown, in nanoseconds. -/
def timeout : ℕ := ((if 0 < config.shutdownTimeout then config.shutdownTimeout else 0) * 1000000).toNat

/-- What main starts in its set-up, before the inner try block. -/
def setUp : List ProcessCall :=
  match config.service with
  | .inventory => [.startGrpcServer]
  | _ => []

def starts : List ProcessCall :=
  [.startRuntime, .startService, .startLoader] ++
    match config.service with
    | .inventory => [.registerHandlers]
    | _ => []

def stops : List ProcessCall :=
  (match config.service with
    | .inventory => [.shutdownGrpcServer]
    | _ => []) ++ [.stopLoader, .stopService, .waitStopped, .stopRuntime, .joinRuntime]

def flushes : List ProcessCall :=
  (if config.tracing then [.flushTracing, .shutdownTracing] else []) ++
    if config.otlpLogs then [.flushLogs, .shutdownLogs] else []

/-- `shutdown_runtime`, unless `runtime_shutdown` is set. -/
def shutdownRuntime : List Statement :=
  .beginShutdown 0 :: (config.stops.map .call ++ [.runtimeShutdown])

/-- The inner try block of main. The handler of the signal begins the shutdown. -/
def body : List Statement :=
  config.starts.map .call ++
    .awaitSignal :: .beginShutdown 0 :: (config.shutdownRuntime ++ config.flushes.map .call)

/-- The handler of the inner try block, without its throw. -/
def handler (runtimeShutdown : Bool) : List Statement :=
  .beginShutdown 1 :: if runtimeShutdown then [] else config.shutdownRuntime

end ProcessConfig

inductive ProcessExit
  | status (code : ℕ)
  /-- `std::terminate`. -/
  | aborted
  deriving DecidableEq, Repr

inductive Moment
  | returned (c : ProcessCall)
  | signalled
  | threw (error : Exception)
  deriving DecidableEq, Repr

/-- Where main is. After its set-up it runs the statements of `todo`, in the handler if there has
been a failure, until it leaves with a status, or has left, with all destructors done. -/
inductive Phase
  | setUp (todo : List ProcessCall)
  | running (failure : Option Exception) (todo : List Statement)
  | leaving (status : ℕ)
  | ended (exit : ProcessExit)

/-- `started` is `shutdown_deadline_started`, `flushed` says that no provider has failed so far, and
`log` is ghost. -/
structure Main where
  phase : Phase
  started : Bool
  runtimeShutdown : Bool
  flushed : Bool
  log : List Moment

def Main.start (config : ProcessConfig) : Main := ⟨.setUp config.setUp, false, false, true, []⟩

inductive MainAction
  /-- The call that main is in returns; a provider tells whether it has written everything. -/
  | returns (flushed : Bool)
  | throws (error : Exception)
  /-- Main goes on by itself. -/
  | proceeds

/-- An error leaves main: only `std::exception` is caught. -/
def Phase.thrown : Exception → Phase
  | .std _ => .leaving 1
  | .other => .ended .aborted

def flushError : Exception := .std "failed to flush OpenTelemetry providers"

/-- An error in the inner try block leads to its handler, an error in the handler back to the first
one. -/
def Main.fail (config : ProcessConfig) (s : Main) (failure : Option Exception) (error : Exception) :
    Main :=
  { s with
    phase := match failure with
      | none => .running (some error) (config.handler s.runtimeShutdown)
      | some first => .thrown first
    log := s.log ++ [.threw error] }

def Main.perform (config : ProcessConfig) (s : Main) : MainAction → Option Main
  | .returns flushed =>
      match s.phase with
      | .setUp (c :: todo) => some { s with phase := .setUp todo, log := s.log ++ [.returned c] }
      | .running failure (.call c :: todo) =>
          some { s with
            phase := .running failure todo
            flushed := s.flushed && (flushed || !c.flushes)
            log := s.log ++ [.returned c] }
      | .running failure (.awaitSignal :: todo) =>
          some { s with phase := .running failure todo, log := s.log ++ [.signalled] }
      | _ => none
  | .throws error =>
      match s.phase with
      | .setUp _ => some { s with phase := .thrown error, log := s.log ++ [.threw error] }
      | .running failure (.call c :: _) =>
          if c.mayThrow then some (s.fail config failure error) else none
      | .running failure (.awaitSignal :: _) => some (s.fail config failure error)
      | _ => none
  | .proceeds =>
      match s.phase with
      | .setUp [] => some { s with phase := .running none config.body }
      | .running failure (.beginShutdown _ :: todo) =>
          some { s with phase := .running failure todo, started := true }
      | .running failure (.runtimeShutdown :: todo) =>
          some { s with phase := .running failure todo, runtimeShutdown := true }
      | .running none [] =>
          if s.flushed then some { s with phase := .leaving 0 }
          else some (s.fail config none flushError)
      | .running (some error) [] => some { s with phase := .thrown error }
      | .leaving status => some { s with phase := .ended (.status status) }
      | _ => none

/-- `begin_shutdown` sets a watchdog, unless there is one. -/
def Main.arms (config : ProcessConfig) (s : Main) : MainAction → Option (ℕ × ℕ)
  | .proceeds =>
      match s.phase with
      | .running _ (.beginShutdown exitCode :: _) =>
          if s.started then none else some (config.timeout, exitCode)
      | _ => none
  | _ => none

def Main.exit? (s : Main) : Option ProcessExit :=
  match s.phase with
  | .ended exit => some exit
  | _ => none

theorem Main.phase_of_exit {s : Main} {exit : ProcessExit} (gone : s.exit? = some exit) :
    s.phase = .ended exit := by
  unfold exit? at gone
  split at gone
  · rename_i phase
    cases gone
    exact phase
  · cases gone

/-- The process of a service: main under the watchdog. -/
def process (config : ProcessConfig) : Machine Main MainAction ℕ :=
  ⟨Main.perform config, Main.arms config, fun s => s.exit?.isSome⟩

inductive Main.Step (config : ProcessConfig) (s : Main) : MainAction → Main → Prop
  | setUp {c : ProcessCall} {todo : List ProcessCall} {flushed : Bool}
      (phase : s.phase = .setUp (c :: todo)) :
      Step config s (.returns flushed) { s with phase := .setUp todo, log := s.log ++ [.returned c] }
  | begin (phase : s.phase = .setUp []) :
      Step config s .proceeds { s with phase := .running none config.body }
  | setUpFails {todo : List ProcessCall} {error : Exception} (phase : s.phase = .setUp todo) :
      Step config s (.throws error) { s with phase := .thrown error, log := s.log ++ [.threw error] }
  | call {failure : Option Exception} {c : ProcessCall} {todo : List Statement} {flushed : Bool}
      (phase : s.phase = .running failure (.call c :: todo)) :
      Step config s (.returns flushed)
        { s with
          phase := .running failure todo
          flushed := s.flushed && (flushed || !c.flushes)
          log := s.log ++ [.returned c] }
  | signal {failure : Option Exception} {todo : List Statement} {flushed : Bool}
      (phase : s.phase = .running failure (.awaitSignal :: todo)) :
      Step config s (.returns flushed)
        { s with phase := .running failure todo, log := s.log ++ [.signalled] }
  | fail {failure : Option Exception} {todo : List Statement} {a : MainAction} {error : Exception}
      (phase : s.phase = .running failure todo)
      (here : ∀ exitCode rest, todo ≠ .beginShutdown exitCode :: rest) :
      Step config s a (s.fail config failure error)
  | beginShutdown {failure : Option Exception} {exitCode : ℕ} {todo : List Statement}
      (phase : s.phase = .running failure (.beginShutdown exitCode :: todo)) :
      Step config s .proceeds { s with phase := .running failure todo, started := true }
  | runtimeShutdown {failure : Option Exception} {todo : List Statement}
      (phase : s.phase = .running failure (.runtimeShutdown :: todo)) :
      Step config s .proceeds { s with phase := .running failure todo, runtimeShutdown := true }
  | finish (phase : s.phase = .running none []) :
      Step config s .proceeds { s with phase := .leaving 0 }
  | rethrow {error : Exception} (phase : s.phase = .running (some error) []) :
      Step config s .proceeds { s with phase := .thrown error }
  | leave {status : ℕ} (phase : s.phase = .leaving status) :
      Step config s .proceeds { s with phase := .ended (.status status) }

section Main

variable {config : ProcessConfig} {s s' : Main} {a : MainAction}

theorem Main.perform_step (h : s.perform config a = some s') : s.Step config a s' := by
  cases a with
  | returns flushed =>
      simp only [perform] at h
      split at h
      · cases h
        exact .setUp ‹_›
      · cases h
        exact .call ‹_›
      · cases h
        exact .signal ‹_›
      · cases h
  | throws error =>
      simp only [perform] at h
      split at h
      · cases h
        exact .setUpFails ‹_›
      · split at h
        · cases h
          exact .fail ‹_› (by simp)
        · cases h
      · cases h
        exact .fail ‹_› (by simp)
      · cases h
  | proceeds =>
      simp only [perform] at h
      split at h
      · cases h
        exact .begin ‹_›
      · cases h
        exact .beginShutdown ‹_›
      · cases h
        exact .runtimeShutdown ‹_›
      · split at h
        · cases h
          exact .finish ‹_›
        · cases h
          exact .fail ‹_› (by simp)
      · cases h
        exact .rethrow ‹_›
      · cases h
        exact .leave ‹_›
      · cases h

/-- A watchdog is set where a shutdown begins that has not begun before. -/
theorem Main.arms_eq_some {asked : ℕ × ℕ} (h : s.arms config a = some asked) :
    a = .proceeds ∧ s.started = false ∧ asked.1 = config.timeout ∧
      ∃ failure todo, s.phase = .running failure (.beginShutdown asked.2 :: todo) := by
  cases a with
  | returns => cases h
  | throws => cases h
  | proceeds =>
      simp only [arms] at h
      split at h
      · rename_i failure exitCode todo phase
        split at h
        · cases h
        · rename_i fresh
          cases h
          exact ⟨rfl, Bool.eq_false_iff.mpr fresh, rfl, failure, todo, phase⟩
      · cases h

end Main

end OrderServices
