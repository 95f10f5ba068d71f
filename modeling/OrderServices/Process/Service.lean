import OrderServices.Process.Main

/-! The life of a service from its start to its destructor. Whoever stops it waits for the one
shutdown task that the first of them makes under `shutdown_mutex_`. The destructor comes after all of
them and does not ask what has been stopped before. -/
namespace OrderServices

open Runs

/-- The calls that `ServiceGenerated::start` and `initRuntime` make. -/
inductive StartCall
  | publish
  | serviceInit
  | initMakers
  | customMakersInit
  | runtimeConfig
  | ensureConfiguredPools
  | serviceConfig
  | initInfrastructure
  | initFunctions
  | customFunctionsInit
  | initStreams
  | buildStreams
  | bindSubstreams
  | initDataSinks
  | initDataSources
  | registerStatusRoutes
  | startApp
  | startHttpServer
  | serviceStarted
  deriving DecidableEq, Repr

def Service.startCalls (service : Service) : List StartCall :=
  [.publish, .serviceInit, .initMakers, .customMakersInit, .runtimeConfig, .ensureConfiguredPools,
    .serviceConfig, .initInfrastructure, .initFunctions, .customFunctionsInit, .initStreams,
    .buildStreams, .bindSubstreams] ++
    (match service with
      | .inventory => []
      | _ => [.initDataSinks]) ++
    [.initDataSources, .registerStatusRoutes, .startApp, .startHttpServer, .serviceStarted]

/-- The calls of the shutdown task: `stopSynchronously`, `stopRuntime`, `waitForShutdown`. -/
inductive StopCall
  | serviceStopping
  | stopHttpServer
  | waitHttpServer
  | stopClients
  | stopApp
  | waitForShutdown
  deriving DecidableEq, Repr

def shutdownCalls : List StopCall :=
  [.serviceStopping, .stopHttpServer, .waitHttpServer, .stopClients, .stopApp, .waitForShutdown]

/-- The calls of `~ServiceGenerated`, which are those of `stopRuntime`. -/
def destructorCalls : List StopCall := [.stopHttpServer, .waitHttpServer, .stopClients, .stopApp]

inductive StartPhase
  | running (todo : List StartCall)
  /-- The handler of `start` is in its stop, which is the first one. -/
  | failing (error : Exception)
  | ended (error : Option Exception)
  deriving DecidableEq, Repr

inductive ShutdownTask
  | running (todo : List StopCall)
  | done (error : Option Exception)
  deriving DecidableEq, Repr

/-- How a stop returns: after the task, or at the end of its context, or it has logged an error
before it had a task. -/
inductive StopEnd
  | finished
  | timedOut
  | failed
  deriving DecidableEq, Repr

inductive StopPhase
  | called
  | waiting
  | returned (how : StopEnd)
  deriving DecidableEq, Repr

/-- Without a task, `waitStopped` calls `waitForShutdown` alone. -/
inductive WaitPhase
  | called
  | waiting
  | alone
  | returned (error : Option Exception)
  | returnedAlone (error : Option Exception)
  deriving DecidableEq, Repr

def StopPhase.hasReturned : StopPhase → Bool
  | .returned _ => true
  | _ => false

/-- How a wait has returned, if it has. -/
def WaitPhase.outcome? : WaitPhase → Option (Option Exception)
  | .returned error => some error
  | .returnedAlone error => some error
  | _ => none

inductive ServiceCall
  | started (c : StartCall)
  | stopped (c : StopCall)
  deriving DecidableEq, Repr

/-- A service with a shutdown lifetime. `stops` and `waits` are the calls of `stop` and of
`waitStopped`, and `log` is ghost: the calls of the service itself that have come back. -/
structure ServiceLife where
  start : StartPhase
  lifecycleStarted : Bool
  httpServer : Bool
  task : Option ShutdownTask
  stops : List StopPhase
  waits : List WaitPhase
  log : List ServiceCall

inductive ServiceAction
  /-- The call that `start` is in returns. -/
  | startReturns
  /-- It throws. `initInfrastructure` may have made the HTTP server before. -/
  | startThrows (error : Exception) (serverMade : Bool)
  | startEnds
  | callStop
  | failStop (i : ℕ)
  | enterStop (i : ℕ)
  | leaveStop (i : ℕ) (how : StopEnd)
  | callWait
  | enterWait (j : ℕ)
  | leaveWait (j : ℕ)
  | leaveAlone (j : ℕ) (error : Option Exception)
  /-- The shutdown task goes past its next call, which throws `error` if there is one. -/
  | shutdown (error : Option Exception)
  deriving DecidableEq, Repr

def ServiceLife.init (service : Service) : ServiceLife :=
  ⟨.running service.startCalls, false, false, none, [], [], []⟩

def ServiceLife.setStop (s : ServiceLife) (i : ℕ) (phase : StopPhase) : ServiceLife :=
  { s with stops := s.stops.set i phase }

def ServiceLife.setWait (s : ServiceLife) (j : ℕ) (phase : WaitPhase) : ServiceLife :=
  { s with waits := s.waits.set j phase }

/-- Whether the shutdown task makes a call or passes over it. -/
def ServiceLife.due (s : ServiceLife) : StopCall → Bool
  | .serviceStopping => s.lifecycleStarted
  | .stopHttpServer => s.httpServer
  | .waitHttpServer => s.httpServer
  | _ => true

/-- The error that the task keeps for those who wait. One of `ServiceApp::stop` is only reported,
and any other one ends the process, since `stopRuntime` is noexcept. -/
def StopCall.mayThrow : StopCall → Bool
  | .stopApp => true
  | .waitForShutdown => true
  | _ => false

/-- A step of a service. The one who has started it stops it and waits for it, so that these calls
come after `start`. -/
def ServiceLife.perform (config : ProcessConfig) (s : ServiceLife) :
    ServiceAction → Option ServiceLife
  | .startReturns =>
      match s.start with
      | .running (c :: todo) =>
          some { s with
            start := .running todo
            lifecycleStarted := s.lifecycleStarted || c == .startApp
            httpServer := s.httpServer || c == .initInfrastructure
            log := s.log ++ [.started c] }
      | _ => none
  | .startThrows error serverMade =>
      match s.start with
      | .running (c :: _) =>
          some { s with
            start := .failing error
            httpServer := s.httpServer || (serverMade && c == .initInfrastructure)
            stops := s.stops ++ [.called] }
      | _ => none
  | .startEnds =>
      match s.start with
      | .running [] => some { s with start := .ended none }
      | .failing error =>
          match s.stops.head? with
          | some (.returned _) => some { s with start := .ended (some error) }
          | _ => none
      | _ => none
  | .callStop =>
      match s.start with
      | .ended _ => some { s with stops := s.stops ++ [.called] }
      | _ => none
  | .failStop i =>
      match s.stops[i]? with
      | some .called => some (s.setStop i (.returned .failed))
      | _ => none
  | .enterStop i =>
      match s.stops[i]? with
      | some .called =>
          some { s.setStop i .waiting with task := s.task.or (some (.running shutdownCalls)) }
      | _ => none
  | .leaveStop i how =>
      match s.stops[i]?, how, s.task with
      | some .waiting, .finished, some (.done _) => some (s.setStop i (.returned .finished))
      | some .waiting, .timedOut, _ =>
          if 0 < config.shutdownTimeout then some (s.setStop i (.returned .timedOut)) else none
      | _, _, _ => none
  | .callWait =>
      match s.start with
      | .ended _ => some { s with waits := s.waits ++ [.called] }
      | _ => none
  | .enterWait j =>
      match s.waits[j]? with
      | some .called => some (s.setWait j (if s.task.isSome then .waiting else .alone))
      | _ => none
  | .leaveWait j =>
      match s.waits[j]?, s.task with
      | some .waiting, some (.done error) => some (s.setWait j (.returned error))
      | _, _ => none
  | .leaveAlone j error =>
      match s.waits[j]? with
      | some .alone => some (s.setWait j (.returnedAlone error))
      | _ => none
  | .shutdown error =>
      match s.task with
      | some (.running (c :: todo)) =>
          if s.due c then
            if error.isSome && !c.mayThrow then none
            else some { s with
              lifecycleStarted := s.lifecycleStarted && c != .serviceStopping
              task := some (if c = .waitForShutdown then .done error else .running todo)
              log := s.log ++ [.stopped c] }
          else if error.isSome then none
          else some { s with task := some (.running todo) }
      | _ => none

inductive ServiceLife.Step (config : ProcessConfig) (s : ServiceLife) :
    ServiceAction → ServiceLife → Prop
  | startReturns {c : StartCall} {todo : List StartCall} (phase : s.start = .running (c :: todo)) :
      Step config s .startReturns { s with
        start := .running todo
        lifecycleStarted := s.lifecycleStarted || c == .startApp
        httpServer := s.httpServer || c == .initInfrastructure
        log := s.log ++ [.started c] }
  | startThrows {c : StartCall} {todo : List StartCall} {error : Exception} {serverMade server : Bool}
      (phase : s.start = .running (c :: todo)) (kept : s.httpServer = true → server = true) :
      Step config s (.startThrows error serverMade)
        { s with start := .failing error, httpServer := server, stops := s.stops ++ [.called] }
  | started (phase : s.start = .running []) :
      Step config s .startEnds { s with start := .ended none }
  | rethrow {error : Exception} {how : StopEnd} (phase : s.start = .failing error)
      (stopped : s.stops.head? = some (.returned how)) :
      Step config s .startEnds { s with start := .ended (some error) }
  | callStop {error : Option Exception} (phase : s.start = .ended error) :
      Step config s .callStop { s with stops := s.stops ++ [.called] }
  | failStop {i : ℕ} (here : s.stops[i]? = some .called) :
      Step config s (.failStop i) (s.setStop i (.returned .failed))
  | makeTask {i : ℕ} (here : s.stops[i]? = some .called) (absent : s.task = none) :
      Step config s (.enterStop i)
        { s.setStop i .waiting with task := some (.running shutdownCalls) }
  | shareTask {i : ℕ} {task : ShutdownTask} (here : s.stops[i]? = some .called)
      (present : s.task = some task) : Step config s (.enterStop i) (s.setStop i .waiting)
  | finishStop {i : ℕ} {error : Option Exception} (here : s.stops[i]? = some .waiting)
      (task : s.task = some (.done error)) :
      Step config s (.leaveStop i .finished) (s.setStop i (.returned .finished))
  | timeOut {i : ℕ} (here : s.stops[i]? = some .waiting) (bounded : 0 < config.shutdownTimeout) :
      Step config s (.leaveStop i .timedOut) (s.setStop i (.returned .timedOut))
  | callWait {error : Option Exception} (phase : s.start = .ended error) :
      Step config s .callWait { s with waits := s.waits ++ [.called] }
  | joinTask {j : ℕ} {task : ShutdownTask} (here : s.waits[j]? = some .called)
      (present : s.task = some task) : Step config s (.enterWait j) (s.setWait j .waiting)
  | goAlone {j : ℕ} (here : s.waits[j]? = some .called) (absent : s.task = none) :
      Step config s (.enterWait j) (s.setWait j .alone)
  | leaveWait {j : ℕ} {error : Option Exception} (here : s.waits[j]? = some .waiting)
      (task : s.task = some (.done error)) :
      Step config s (.leaveWait j) (s.setWait j (.returned error))
  | leaveAlone {j : ℕ} {error : Option Exception} (here : s.waits[j]? = some .alone) :
      Step config s (.leaveAlone j error) (s.setWait j (.returnedAlone error))
  | call {c : StopCall} {todo : List StopCall} {error : Option Exception}
      (task : s.task = some (.running (c :: todo))) (due : s.due c = true)
      (own : error.isSome → c.mayThrow = true) :
      Step config s (.shutdown error) { s with
        lifecycleStarted := s.lifecycleStarted && c != .serviceStopping
        task := some (if c = .waitForShutdown then .done error else .running todo)
        log := s.log ++ [.stopped c] }
  | pass {c : StopCall} {todo : List StopCall} (task : s.task = some (.running (c :: todo)))
      (idle : s.due c = false) :
      Step config s (.shutdown none) { s with task := some (.running todo) }

section Steps

variable {config : ProcessConfig} {s s' : ServiceLife} {a : ServiceAction}

theorem ServiceLife.perform_step (h : s.perform config a = some s') : s.Step config a s' := by
  cases a with
  | startReturns =>
      simp only [perform] at h
      split at h
      · cases h
        exact .startReturns ‹_›
      · cases h
  | startThrows error serverMade =>
      simp only [perform] at h
      split at h
      · cases h
        exact .startThrows ‹_› fun there => by rw [there]; rfl
      · cases h
  | startEnds =>
      simp only [perform] at h
      split at h
      · cases h
        exact .started ‹_›
      · split at h
        · cases h
          exact .rethrow ‹_› ‹_›
        · cases h
      · cases h
  | callStop =>
      simp only [perform] at h
      split at h
      · cases h
        exact .callStop ‹_›
      · cases h
  | failStop i =>
      simp only [perform] at h
      split at h
      · cases h
        exact .failStop ‹_›
      · cases h
  | enterStop i =>
      simp only [perform] at h
      split at h
      · cases h
        rename_i here
        cases task : s.task with
        | none => exact .makeTask here task
        | some given =>
            have same : { s.setStop i .waiting with task := some given } = s.setStop i .waiting := by
              rw [← task]
              rfl
            rw [Option.some_or, same]
            exact .shareTask here task
      · cases h
  | leaveStop i how =>
      simp only [perform] at h
      split at h
      · cases h
        exact .finishStop ‹_› ‹_›
      · split at h
        · cases h
          exact .timeOut ‹_› ‹_›
        · cases h
      · cases h
  | callWait =>
      simp only [perform] at h
      split at h
      · cases h
        exact .callWait ‹_›
      · cases h
  | enterWait j =>
      simp only [perform] at h
      split at h
      · cases h
        rename_i here
        cases task : s.task with
        | none => exact .goAlone here task
        | some given => exact .joinTask here task
      · cases h
  | leaveWait j =>
      simp only [perform] at h
      split at h
      · cases h
        exact .leaveWait ‹_› ‹_›
      · cases h
  | leaveAlone j error =>
      simp only [perform] at h
      split at h
      · cases h
        exact .leaveAlone ‹_›
      · cases h
  | shutdown error =>
      simp only [perform] at h
      split at h
      · rename_i c todo task
        split at h
        · rename_i due
          split at h
          · cases h
          · rename_i allowed
            cases h
            exact .call task due (by simpa using allowed)
        · rename_i idle
          split at h
          · cases h
          · rename_i silent
            cases h
            obtain rfl := Option.not_isSome_iff_eq_none.mp silent
            exact .pass task (Bool.eq_false_iff.mpr idle)
      · cases h

end Steps

/-! ## The destructor -/

/-- Its owner has not called the service. -/
def ServiceLife.untouched (s : ServiceLife) : Bool := s.log.isEmpty && s.stops.isEmpty

/-- Nobody is in a call of the service any more, and its task, which has a share in the lifetime, does
not run. -/
def ServiceLife.released (s : ServiceLife) : Bool :=
  (match s.start with
    | .ended _ => true
    | _ => s.untouched) &&
  s.stops.all StopPhase.hasReturned && s.waits.all (fun phase => phase.outcome?.isSome) &&
  match s.task with
    | some (.running _) => false
    | _ => true

/-- A service and its destructor, with what it has still to call, once it runs. `again` is ghost: what
it has called. -/
structure OwnedService where
  life : ServiceLife
  destructor : Option (List StopCall)
  again : List StopCall

inductive OwnedAction
  | act (a : ServiceAction)
  | destroy
  | destructs
  deriving DecidableEq, Repr

def OwnedAction.act? : OwnedAction → Option ServiceAction
  | .act a => some a
  | _ => none

def OwnedService.init (service : Service) : OwnedService := ⟨.init service, none, []⟩

/-- A step of a service or of its destructor. Whichever share of the lifetime goes last destroys the
service, that of its owner or that of its task. -/
def OwnedService.perform (config : ProcessConfig) (s : OwnedService) :
    OwnedAction → Option OwnedService
  | .act a =>
      if s.destructor.isSome then none
      else (s.life.perform config a).map fun life => { s with life }
  | .destroy =>
      if s.destructor.isNone && s.life.released then
        some { s with destructor := some (destructorCalls.filter s.life.due) }
      else none
  | .destructs =>
      match s.destructor with
      | some (c :: todo) => some { s with destructor := some todo, again := s.again ++ [c] }
      | _ => none

inductive OwnedService.Step (config : ProcessConfig) (s : OwnedService) :
    OwnedAction → OwnedService → Prop
  | act {a : ServiceAction} {life : ServiceLife} (alive : s.destructor = none)
      (moved : s.life.perform config a = some life) : Step config s (.act a) { s with life }
  | destroy (alive : s.destructor = none) (released : s.life.released = true) :
      Step config s .destroy { s with destructor := some (destructorCalls.filter s.life.due) }
  | destructs {c : StopCall} {todo : List StopCall} (left : s.destructor = some (c :: todo)) :
      Step config s .destructs { s with destructor := some todo, again := s.again ++ [c] }

theorem OwnedService.perform_step {config : ProcessConfig} {s s' : OwnedService} {a : OwnedAction}
    (h : s.perform config a = some s') : s.Step config a s' := by
  cases a with
  | act a =>
      simp only [perform] at h
      split at h
      · cases h
      · rename_i alive
        obtain ⟨life, moved, rfl⟩ := Option.map_eq_some_iff.mp h
        exact .act (Option.not_isSome_iff_eq_none.mp alive) moved
  | destroy =>
      simp only [perform] at h
      split at h
      · rename_i last
        obtain ⟨alive, released⟩ := Bool.and_eq_true_iff.mp last
        cases h
        exact .destroy (Option.isNone_iff_eq_none.mp alive) released
      · cases h
  | destructs =>
      simp only [perform] at h
      split at h
      · cases h
        exact .destructs ‹_›
      · cases h

end OrderServices
