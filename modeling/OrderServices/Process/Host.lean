import OrderServices.Process.Log
import OrderServices.Process.Teardown

/-! A service in its process: the calls that main makes of the service are those that the service
answers, and main does not end before the service that it owns is destroyed. A process that ends with
success has started all of its service and has stopped all of it. -/
namespace OrderServices

open Runs

/-- `inside` tells that main has made the call of `stop` or `waitStopped` that it is in. -/
structure Hosted where
  main : Main
  service : OwnedService
  inside : Bool

inductive HostedAction
  | main (a : MainAction)
  | service (b : OwnedAction)

/-- Main destroys what it owns. -/
def Main.isLeaving (s : Main) : Bool :=
  match s.phase with
  | .leaving _ => true
  | _ => false

def Main.at? (s : Main) : Option ProcessCall :=
  match s.phase with
  | .running _ (.call c :: _) => some c
  | _ => none

def ServiceAction.calls : ServiceAction → Bool
  | .callStop => true
  | .callWait => true
  | _ => false

def OwnedAction.calls (b : OwnedAction) : Bool := b.act?.any ServiceAction.calls

/-- Its owner is done with the service: it is destroyed, or it has not come to be, or the task has a
share in its lifetime. -/
def OwnedService.letGo (s : OwnedService) : Bool :=
  s.destructor = some [] || s.life.untouched || s.life.task.isSome

namespace Hosted

def start (config : ProcessConfig) : Hosted := ⟨.start config, .init config.service, false⟩

/-- The calls of the service come back to main as the service ends them. -/
def answers (s : Hosted) (a : MainAction) : Bool :=
  match s.main.at?, a with
  | some .startService, .returns _ => s.service.life.start = .ended none
  | some .startService, .throws error => s.service.life.start = .ended (some error)
  | some .stopService, .returns _ =>
      s.inside && s.service.life.stops.getLast?.any StopPhase.hasReturned
  | some .waitStopped, .returns _ =>
      s.inside && s.service.life.waits.getLast?.bind WaitPhase.outcome? = some none
  | some .waitStopped, .throws error =>
      s.inside && s.service.life.waits.getLast?.bind WaitPhase.outcome? = some (some error)
  | _, _ => true

/-- Main is the only one that calls the service. It makes each of its calls once, and gives up its
share when it leaves. -/
def makes (s : Hosted) : OwnedAction → Bool
  | .act .startReturns => s.main.at? = some .startService
  | .act (.startThrows _ _) => s.main.at? = some .startService
  | .act .startEnds => s.main.at? = some .startService
  | .act .callStop => s.main.at? = some .stopService && !s.inside
  | .act .callWait => s.main.at? = some .waitStopped && !s.inside
  | .act _ => true
  | .destroy => s.main.isLeaving
  | .destructs => s.main.isLeaving

/-- A step of main or of its service, as long as there is a process. -/
def perform (config : ProcessConfig) (s : Hosted) : HostedAction → Option Hosted
  | .main a =>
      if s.answers a && (!s.main.isLeaving || s.service.letGo) then
        (s.main.perform config a).map fun m => { s with main := m, inside := false }
      else none
  | .service b =>
      if s.makes b && s.main.exit?.isNone then
        (s.service.perform config b).map fun t =>
          { s with service := t, inside := s.inside || b.calls }
      else none

end Hosted

inductive Hosted.Step (config : ProcessConfig) (s : Hosted) : HostedAction → Hosted → Prop
  | main {a : MainAction} {m : Main} (answered : s.answers a = true)
      (free : s.main.isLeaving = true → s.service.letGo = true)
      (moved : s.main.perform config a = some m) :
      Step config s (.main a) { s with main := m, inside := false }
  | service {b : OwnedAction} {t : OwnedService} (made : s.makes b = true)
      (alive : s.main.exit? = none) (moved : s.service.perform config b = some t) :
      Step config s (.service b) { s with service := t, inside := s.inside || b.calls }

section Steps

variable {config : ProcessConfig} {s s' : Hosted} {a : HostedAction}

theorem Hosted.perform_step (h : s.perform config a = some s') : s.Step config a s' := by
  cases a with
  | main a =>
      simp only [perform] at h
      split at h
      · rename_i free
        obtain ⟨answered, free⟩ := Bool.and_eq_true_iff.mp free
        obtain ⟨m, moved, rfl⟩ := Option.map_eq_some_iff.mp h
        refine .main answered (fun leaving => ?_) moved
        simpa [leaving] using free
      · cases h
  | service b =>
      simp only [perform] at h
      split at h
      · rename_i alive
        obtain ⟨made, alive⟩ := Bool.and_eq_true_iff.mp alive
        obtain ⟨t, moved, rfl⟩ := Option.map_eq_some_iff.mp h
        exact .service made (Option.isNone_iff_eq_none.mp alive) moved
      · cases h

/-! ## Where main is in its body -/

/-- Main starts its service, and later stops it and waits for it, once each. -/
theorem ProcessConfig.statements_parts (config : ProcessConfig) : ∃ front middle tail,
    config.statements = front ++ .call .startService ::
      (middle ++ .call .stopService :: .call .waitStopped :: tail) ∧
    ∀ c ∈ [ProcessCall.startService, .stopService, .waitStopped],
      .call c ∉ front ∧ .call c ∉ middle ∧ .call c ∉ tail := by
  obtain ⟨service, timeout, environment, noopLogs, noopTracing⟩ := config
  cases service with
  | order =>
      refine ⟨[.call .startRuntime], [.call .startLoader, .awaitSignal, .beginShutdown 0,
        .beginShutdown 0, .call .stopLoader], _, rfl, ?_⟩
      simp [ProcessConfig.flushes]
  | inventory =>
      refine ⟨[.call .startGrpcServer, .call .startRuntime], [.call .startLoader, .call .registerHandlers, .awaitSignal,
        .beginShutdown 0, .beginShutdown 0, .call .shutdownGrpcServer, .call .stopLoader], _, rfl, ?_⟩
      simp [ProcessConfig.flushes]
  | analytics =>
      refine ⟨[.call .startRuntime], [.call .startLoader, .awaitSignal, .beginShutdown 0,
        .beginShutdown 0, .call .stopLoader], _, rfl, ?_⟩
      simp [ProcessConfig.flushes]

variable {done todo : List Statement}

theorem ProcessConfig.behind_startService
    (split : config.statements = done ++ .call .startService :: todo) :
    .call .startService ∉ todo ∧ .call .stopService ∈ todo := by
  obtain ⟨front, middle, tail, parts, apart⟩ := config.statements_parts
  obtain ⟨none, between, last⟩ := apart .startService (by simp)
  obtain ⟨-, -, rfl⟩ := (List.append_cons_inj_of_notMem none (by simp [between, last])).mp
    (parts.symm.trans split)
  exact ⟨by simp [between, last], by simp⟩

theorem ProcessConfig.behind_stopService (split : config.statements = done ++ .call .stopService :: todo) :
    .call .startService ∉ todo ∧ .call .stopService ∉ todo ∧ .call .waitStopped ∈ todo := by
  obtain ⟨front, middle, tail, parts, apart⟩ := config.statements_parts
  obtain ⟨none, between, last⟩ := apart .stopService (by simp)
  have parts' : config.statements = (front ++ .call .startService :: middle) ++ .call .stopService ::
      .call .waitStopped :: tail := by
    rw [parts]
    simp
  obtain ⟨-, -, rfl⟩ := (List.append_cons_inj_of_notMem (by simp [none, between]) (by simp [last])).mp
    (parts'.symm.trans split)
  exact ⟨by simp [(apart .startService (by simp)).2.2], by simp [last], by simp⟩

theorem ProcessConfig.behind_waitStopped (split : config.statements = done ++ .call .waitStopped :: todo) :
    .call .startService ∉ todo ∧ .call .stopService ∉ todo ∧ .call .waitStopped ∉ todo := by
  obtain ⟨front, middle, tail, parts, apart⟩ := config.statements_parts
  obtain ⟨none, between, last⟩ := apart .waitStopped (by simp)
  have parts' : config.statements = (front ++ .call .startService :: (middle ++ [.call .stopService])) ++
      .call .waitStopped :: tail := by
    rw [parts]
    simp
  obtain ⟨-, -, rfl⟩ := (List.append_cons_inj_of_notMem (by simp [none, between]) last).mp
    (parts'.symm.trans split)
  exact ⟨(apart .startService (by simp)).2.2, (apart .stopService (by simp)).2.2, last⟩

/-! ## How far the service is -/

/-- The start has not come back. -/
structure Hosted.Starting (s : Hosted) : Prop where
  outside : s.inside = false
  waits : s.service.life.waits = []
  stops : s.service.life.start = .ended none → s.service.life.stops = []

/-- The service has been started, and main is not behind its stop. -/
structure Hosted.Serving (s : Hosted) : Prop where
  start : s.service.life.start = .ended none
  waits : s.service.life.waits = []
  outside : s.inside = false → s.service.life.stops = []
  inside : s.inside = true → s.main.at? = some .stopService ∧ ∃ phase, s.service.life.stops = [phase]

/-- The stop has come back. A wait that goes alone has found no task. -/
structure Hosted.Awaiting (s : Hosted) : Prop where
  start : s.service.life.start = .ended none
  stops : ∃ how, s.service.life.stops = [.returned how]
  outside : s.inside = false → s.service.life.waits = []
  inside : s.inside = true → s.main.at? = some .waitStopped ∧ ∃ phase, s.service.life.waits = [phase] ∧
    (phase = .alone ∨ (∃ error, phase = .returnedAlone error) → s.service.life.task = none)

/-- The wait has come back, without an error. -/
structure Hosted.Down (s : Hosted) : Prop where
  start : s.service.life.start = .ended none
  stops : ∃ how, s.service.life.stops = [.returned how]
  waits : s.service.life.waits = [.returned none] ∨
    s.service.life.waits = [.returnedAlone none] ∧ s.service.life.task = none

/-- How far the service is when main has still `todo` to do. -/
def Hosted.Stage (s : Hosted) (todo : List Statement) : Prop :=
  if .call .startService ∈ todo then s.Starting
  else if .call .stopService ∈ todo then s.Serving
  else if .call .waitStopped ∈ todo then s.Awaiting
  else s.Down

/-- The phase that main is in and how far the service is. -/
def Hosted.Linked (s : Hosted) : Phase → Prop
  | .setUp _ => s.Starting
  | .running none todo => s.Stage todo
  | .running (some _) _ => True
  | .leaving _ => firstFailure s.main.log = none → s.Down
  | .ended _ => firstFailure s.main.log = none → s.Down

theorem Main.at?_eq {main : Main} {failure : Option Exception}
    (phase : main.phase = .running failure todo) {c : ProcessCall} (here : main.at? = some c) :
    ∃ rest, todo = .call c :: rest := by
  unfold at? at here
  rw [phase] at here
  split at here
  · rename_i same
    cases same
    cases here
    exact ⟨_, rfl⟩
  · cases here

theorem Hosted.Stage.returns {main : Main} {c : ProcessCall} {flushed : Bool}
    (stage : s.Stage (.call c :: todo)) (phase : s.main.phase = .running none (.call c :: todo))
    (split : config.statements = done ++ .call c :: todo) (answered : s.answers (.returns flushed) = true)
    (own : c = .startService ∨ c = .stopService ∨ c = .waitStopped) :
    ({ s with main, inside := false } : Hosted).Stage todo := by
  have here : s.main.at? = some c := by
    unfold Main.at?
    rw [phase]
  rcases own with rfl | rfl | rfl
  · obtain ⟨past, ahead⟩ := ProcessConfig.behind_startService split
    rw [Stage, if_pos List.mem_cons_self] at stage
    rw [Stage, if_neg past, if_pos ahead]
    have started : s.service.life.start = .ended none := by simpa [answers, here] using answered
    exact ⟨started, stage.waits, fun _ => stage.stops started, nofun⟩
  · obtain ⟨before, past, ahead⟩ := ProcessConfig.behind_stopService split
    have before' : .call .startService ∉ Statement.call .stopService :: todo := by simp [before]
    rw [Stage, if_neg before', if_pos List.mem_cons_self] at stage
    rw [Stage, if_neg before, if_neg past, if_pos ahead]
    simp only [answers, here, Bool.and_eq_true] at answered
    obtain ⟨inside, returned⟩ := answered
    obtain ⟨-, last, stops⟩ := stage.inside inside
    refine ⟨stage.start, ?_, fun _ => stage.waits, nofun⟩
    rw [stops] at returned
    cases last with
    | called => cases returned
    | waiting => cases returned
    | returned how => exact ⟨how, stops⟩
  · obtain ⟨before, stopped, past⟩ := ProcessConfig.behind_waitStopped split
    have before' : .call .startService ∉ Statement.call .waitStopped :: todo := by simp [before]
    have stopped' : .call .stopService ∉ Statement.call .waitStopped :: todo := by simp [stopped]
    rw [Stage, if_neg before', if_neg stopped', if_pos List.mem_cons_self] at stage
    rw [Stage, if_neg before, if_neg stopped, if_neg past]
    simp only [answers, here, Bool.and_eq_true, decide_eq_true_eq] at answered
    obtain ⟨inside, returned⟩ := answered
    obtain ⟨-, last, waits, alone⟩ := stage.inside inside
    refine ⟨stage.start, stage.stops, ?_⟩
    rw [waits] at returned
    cases last with
    | called => cases returned
    | waiting => cases returned
    | alone => cases returned
    | returned error =>
        cases returned
        exact .inl waits
    | returnedAlone error =>
        cases returned
        exact .inr ⟨waits, alone (.inr ⟨none, rfl⟩)⟩

theorem Hosted.Stage.passes {main : Main} {statement : Statement}
    (stage : s.Stage (statement :: todo)) (phase : s.main.phase = .running none (statement :: todo))
    (other : statement ≠ .call .startService ∧ statement ≠ .call .stopService ∧
      statement ≠ .call .waitStopped) :
    ({ s with main, inside := false } : Hosted).Stage todo := by
  have elsewhere {c : ProcessCall} (ne : statement ≠ .call c) : s.main.at? ≠ some c := by
    intro here
    obtain ⟨rest, same⟩ := Main.at?_eq phase here
    exact ne (List.cons.inj same).1
  have same {c : ProcessCall} (ne : statement ≠ .call c) :
      .call c ∈ statement :: todo ↔ .call c ∈ todo := by
    rw [List.mem_cons]
    exact or_iff_right (Ne.symm ne)
  simp only [Stage, same other.1, same other.2.1, same other.2.2] at stage ⊢
  split at stage
  · rename_i ahead
    rw [if_pos ahead]
    exact ⟨rfl, stage.waits, stage.stops⟩
  · rename_i past
    rw [if_neg past]
    split at stage
    · rename_i ahead
      rw [if_pos ahead]
      have outside : s.inside = false := Bool.eq_false_iff.mpr fun inside =>
        elsewhere other.2.1 (stage.inside inside).1
      exact ⟨stage.start, stage.waits, fun _ => stage.outside outside, nofun⟩
    · rename_i stopped
      rw [if_neg stopped]
      split at stage
      · rename_i ahead
        rw [if_pos ahead]
        have outside : s.inside = false := Bool.eq_false_iff.mpr fun inside =>
          elsewhere other.2.2 (stage.inside inside).1
        exact ⟨stage.start, stage.stops, fun _ => stage.outside outside, nofun⟩
      · rename_i awaited
        rw [if_neg awaited]
        exact ⟨stage.start, stage.stops, stage.waits⟩

theorem firstFailure_ne_none {log : List Moment} (error : Exception) :
    firstFailure (log ++ [.threw error]) ≠ none := by
  intro unfailed
  have quiet := firstFailure_eq_none.mp unfailed (.threw error) (by simp)
  cases quiet

theorem Hosted.Linked.thrown {error : Exception} (failed : firstFailure s.main.log ≠ none) :
    s.Linked (.thrown error) := by
  cases error with
  | std => exact fun unfailed => absurd unfailed failed
  | other => exact fun unfailed => absurd unfailed failed

theorem Hosted.Linked.main {a : MainAction} {m : Main} (sound : s.main.Sound config)
    (linked : s.Linked s.main.phase) (answered : s.answers a = true)
    (moved : s.main.perform config a = some m) :
    ({ s with main := m, inside := false } : Hosted).Linked m.phase := by
  have told := sound.told
  unfold Main.Told at told
  cases Main.perform_step moved with
  | setUp phase =>
      rw [phase] at linked
      exact ⟨rfl, linked.waits, linked.stops⟩
  | begin phase =>
      rw [phase] at linked
      have ahead : .call .startService ∈ config.body := by
        simp [ProcessConfig.body, ProcessConfig.starts]
      change Stage _ _
      rw [Stage, if_pos ahead]
      exact ⟨rfl, linked.waits, linked.stops⟩
  | setUpFails phase => exact Linked.thrown (firstFailure_ne_none _)
  | @call failure c todo flushed phase =>
      cases failure with
      | some error => trivial
      | none =>
          rw [phase] at linked told
          obtain ⟨⟨done, split, -⟩, -⟩ := told
          by_cases own : c = .startService ∨ c = .stopService ∨ c = .waitStopped
          · exact Stage.returns linked phase split answered own
          · rw [not_or, not_or] at own
            refine Stage.passes linked phase ⟨?_, ?_, ?_⟩
            · exact fun same => own.1 (Statement.call.inj same)
            · exact fun same => own.2.1 (Statement.call.inj same)
            · exact fun same => own.2.2 (Statement.call.inj same)
  | @signal failure todo flushed phase =>
      cases failure with
      | some error => trivial
      | none =>
          rw [phase] at linked
          exact Stage.passes linked phase (by simp)
  | @fail failure todo _ error phase here =>
      cases failure with
      | none => trivial
      | some first => exact Linked.thrown (firstFailure_ne_none _)
  | @beginShutdown failure exitCode todo phase =>
      cases failure with
      | some error => trivial
      | none =>
          rw [phase] at linked
          exact Stage.passes linked phase (by simp)
  | @runtimeShutdown failure todo phase =>
      cases failure with
      | some error => trivial
      | none =>
          rw [phase] at linked
          exact Stage.passes linked phase (by simp)
  | finish phase =>
      rw [phase] at linked
      have down : s.Down := linked
      exact fun _ => ⟨down.start, down.stops, down.waits⟩
  | @rethrow error phase =>
      rw [phase] at told
      refine Linked.thrown ?_
      rw [told.1]
      exact Option.some_ne_none error
  | leave phase =>
      rw [phase] at linked
      intro unfailed
      have down := linked unfailed
      exact ⟨down.start, down.stops, down.waits⟩

/-! ## Steps of the service -/

theorem set_singleton {α : Type} {x old new : α} {i : ℕ} (here : [x][i]? = some old) :
    old = x ∧ [x].set i new = [new] := by
  cases i with
  | zero =>
      cases here
      exact ⟨rfl, rfl⟩
  | succ i => cases here

theorem Hosted.Starting.service {b : ServiceAction} {t : ServiceLife} (h : s.Starting)
    (sound : s.service.life.Sound config) (quiet : b.calls = false)
    (moved : s.service.life.perform config b = some t) :
    ({ s with service := { s.service with life := t }, inside := s.inside || b.calls } : Hosted).Starting := by
  have outside : (s.inside || b.calls) = false := by rw [h.outside, quiet]; rfl
  have unasked {i : ℕ} {phase : StopPhase} (here : s.service.life.stops[i]? = some phase) :
      s.service.life.start ≠ .ended none := by
    intro started
    rw [h.stops started] at here
    cases here
  have unawaited {j : ℕ} {phase : WaitPhase} (here : s.service.life.waits[j]? = some phase) : False := by
    rw [h.waits] at here
    cases here
  cases ServiceLife.perform_step moved with
  | startReturns phase => exact ⟨outside, h.waits, nofun⟩
  | startThrows phase kept => exact ⟨outside, h.waits, nofun⟩
  | started phase =>
      have begun := sound.begun
      rw [phase] at begun
      exact ⟨outside, h.waits, fun _ => begun.2.1⟩
  | rethrow phase stopped => exact ⟨outside, h.waits, nofun⟩
  | callStop phase => cases quiet
  | callWait phase => cases quiet
  | failStop here => exact ⟨outside, h.waits, fun started => absurd started (unasked here)⟩
  | makeTask here absent => exact ⟨outside, h.waits, fun started => absurd started (unasked here)⟩
  | shareTask here present => exact ⟨outside, h.waits, fun started => absurd started (unasked here)⟩
  | finishStop here task => exact ⟨outside, h.waits, fun started => absurd started (unasked here)⟩
  | timeOut here bounded => exact ⟨outside, h.waits, fun started => absurd started (unasked here)⟩
  | joinTask here present => exact (unawaited here).elim
  | goAlone here absent => exact (unawaited here).elim
  | leaveWait here task => exact (unawaited here).elim
  | leaveAlone here => exact (unawaited here).elim
  | call task due own => exact ⟨outside, h.waits, h.stops⟩
  | pass task idle => exact ⟨outside, h.waits, h.stops⟩

theorem Hosted.Serving.service {b : ServiceAction} {t : ServiceLife} (h : s.Serving)
    (elsewhere : s.main.at? ≠ some .waitStopped) (made : s.makes (.act b) = true)
    (moved : s.service.life.perform config b = some t) :
    ({ s with service := { s.service with life := t }, inside := s.inside || b.calls } : Hosted).Serving := by
  have asked {i : ℕ} {old : StopPhase} (here : s.service.life.stops[i]? = some old) : s.inside = true := by
    by_contra outside
    rw [h.outside (Bool.eq_false_iff.mpr outside)] at here
    cases here
  have move {i : ℕ} {old new : StopPhase} {t : ServiceLife} (here : s.service.life.stops[i]? = some old)
      (stops : t.stops = s.service.life.stops.set i new) (start : t.start = s.service.life.start)
      (waits : t.waits = s.service.life.waits) :
      ({ s with service := { s.service with life := t }, inside := s.inside || false } : Hosted).Serving := by
    have inside := asked here
    obtain ⟨at_stop, phase, only⟩ := h.inside inside
    refine ⟨start.trans h.start, waits.trans h.waits, fun outside => ?_, fun _ => ⟨at_stop, new, ?_⟩⟩
    · rw [Bool.or_false, inside] at outside
      cases outside
    · rw [only] at here stops
      exact stops.trans (set_singleton here).2
  have unawaited {j : ℕ} {phase : WaitPhase} (here : s.service.life.waits[j]? = some phase) : False := by
    rw [h.waits] at here
    cases here
  cases ServiceLife.perform_step moved with
  | startReturns phase => cases h.start.symm.trans phase
  | startThrows phase kept => cases h.start.symm.trans phase
  | started phase => cases h.start.symm.trans phase
  | rethrow phase stopped => cases h.start.symm.trans phase
  | callStop phase =>
      simp only [makes, Bool.and_eq_true, Bool.not_eq_true', decide_eq_true_eq] at made
      obtain ⟨at_stop, outside⟩ := made
      refine ⟨h.start, h.waits, fun impossible => ?_, fun _ => ⟨at_stop, .called, ?_⟩⟩
      · rw [ServiceAction.calls, Bool.or_true] at impossible
        cases impossible
      · change s.service.life.stops ++ [.called] = [.called]
        rw [h.outside outside]
        rfl
  | callWait phase =>
      simp only [makes, Bool.and_eq_true, decide_eq_true_eq] at made
      exact absurd made.1 elsewhere
  | failStop here => exact move here rfl rfl rfl
  | makeTask here absent => exact move here rfl rfl rfl
  | shareTask here present => exact move here rfl rfl rfl
  | finishStop here task => exact move here rfl rfl rfl
  | timeOut here bounded => exact move here rfl rfl rfl
  | joinTask here present => exact (unawaited here).elim
  | goAlone here absent => exact (unawaited here).elim
  | leaveWait here task => exact (unawaited here).elim
  | leaveAlone here => exact (unawaited here).elim
  | call task due own =>
      refine ⟨h.start, h.waits, ?_, ?_⟩
      · exact fun outside => h.outside ((Bool.or_false _).symm.trans outside)
      · exact fun inside => h.inside ((Bool.or_false _).symm.trans inside)
  | pass task idle =>
      refine ⟨h.start, h.waits, ?_, ?_⟩
      · exact fun outside => h.outside ((Bool.or_false _).symm.trans outside)
      · exact fun inside => h.inside ((Bool.or_false _).symm.trans inside)

/-- A service whose stop has come back is waited for once. -/
theorem Hosted.Awaiting.service {b : ServiceAction} {t : ServiceLife} (h : s.Awaiting)
    (elsewhere : s.main.at? ≠ some .stopService) (made : s.makes (.act b) = true)
    (moved : s.service.life.perform config b = some t) :
    ({ s with service := { s.service with life := t }, inside := s.inside || b.calls } : Hosted).Awaiting := by
  obtain ⟨how, stops⟩ := h.stops
  have returned {i : ℕ} {old : StopPhase} (here : s.service.life.stops[i]? = some old) :
      old = .returned how := by
    rw [stops] at here
    exact List.mem_singleton.mp (List.mem_of_getElem? here)
  have move {j : ℕ} {old new : WaitPhase} {t : ServiceLife} (here : s.service.life.waits[j]? = some old)
      (waits : t.waits = s.service.life.waits.set j new) (start : t.start = s.service.life.start)
      (stops' : t.stops = s.service.life.stops) (task : t.task = s.service.life.task)
      (alone : (new = .alone ∨ ∃ error, new = .returnedAlone error) →
        old = .alone ∨ s.service.life.task = none) :
      ({ s with service := { s.service with life := t }, inside := s.inside || false } : Hosted).Awaiting := by
    have inside : s.inside = true := by
      by_contra outside
      rw [h.outside (Bool.eq_false_iff.mpr outside)] at here
      cases here
    obtain ⟨at_wait, phase, only, was⟩ := h.inside inside
    rw [only] at here waits
    obtain ⟨rfl, set⟩ := set_singleton here
    refine ⟨start.trans h.start, ⟨how, stops'.trans stops⟩, fun outside => ?_,
      fun _ => ⟨at_wait, new, waits.trans set, fun which => ?_⟩⟩
    · rw [Bool.or_false, inside] at outside
      cases outside
    · rcases alone which with before | none
      · exact task.trans (was (.inl before))
      · exact task.trans none
  have works {t : ServiceLife} {now : ShutdownTask} (task : s.service.life.task = some now)
      (start : t.start = s.service.life.start) (stops' : t.stops = s.service.life.stops)
      (waits : t.waits = s.service.life.waits) :
      ({ s with service := { s.service with life := t }, inside := s.inside || false } : Hosted).Awaiting := by
    refine ⟨start.trans h.start, ⟨how, stops'.trans stops⟩, ?_, ?_⟩
    · exact fun outside => waits.trans (h.outside ((Bool.or_false _).symm.trans outside))
    · intro inside
      obtain ⟨at_wait, phase, only, was⟩ := h.inside ((Bool.or_false _).symm.trans inside)
      refine ⟨at_wait, phase, waits.trans only, fun which => ?_⟩
      have none := was which
      rw [task] at none
      cases none
  cases ServiceLife.perform_step moved with
  | startReturns phase => cases h.start.symm.trans phase
  | startThrows phase kept => cases h.start.symm.trans phase
  | started phase => cases h.start.symm.trans phase
  | rethrow phase stopped => cases h.start.symm.trans phase
  | callStop phase =>
      simp only [makes, Bool.and_eq_true, decide_eq_true_eq] at made
      exact absurd made.1 elsewhere
  | callWait phase =>
      simp only [makes, Bool.and_eq_true, Bool.not_eq_true', decide_eq_true_eq] at made
      obtain ⟨at_wait, outside⟩ := made
      refine ⟨h.start, h.stops, fun impossible => ?_, fun _ => ⟨at_wait, .called, ?_, ?_⟩⟩
      · rw [ServiceAction.calls, Bool.or_true] at impossible
        cases impossible
      · change s.service.life.waits ++ [.called] = [.called]
        rw [h.outside outside]
        rfl
      · rintro (impossible | ⟨error, impossible⟩) <;> cases impossible
  | failStop here => cases returned here
  | makeTask here absent => cases returned here
  | shareTask here present => cases returned here
  | finishStop here task => cases returned here
  | timeOut here bounded => cases returned here
  | joinTask here present =>
      refine move here rfl rfl rfl rfl ?_
      rintro (impossible | ⟨error, impossible⟩) <;> cases impossible
  | goAlone here absent => exact move here rfl rfl rfl rfl fun _ => .inr absent
  | leaveWait here task =>
      refine move here rfl rfl rfl rfl ?_
      rintro (impossible | ⟨error, impossible⟩) <;> cases impossible
  | leaveAlone here => exact move here rfl rfl rfl rfl fun _ => .inl rfl
  | call task due own => exact works task rfl rfl rfl
  | pass task idle => exact works task rfl rfl rfl

/-- In a service that is down nothing happens any more. -/
theorem Hosted.Down.quiet {b : ServiceAction} {t : ServiceLife} (h : s.Down)
    (sound : s.service.life.Sound config) (silent : b.calls = false)
    (moved : s.service.life.perform config b = some t) : False := by
  obtain ⟨how, stops⟩ := h.stops
  have returned {i : ℕ} {old : StopPhase} (here : s.service.life.stops[i]? = some old) :
      old = .returned how := by
    rw [stops] at here
    exact List.mem_singleton.mp (List.mem_of_getElem? here)
  have done : s.service.life.task = some (.done none) ∨ s.service.life.task = none := by
    rcases h.waits with waits | ⟨-, none⟩
    · have awaited : s.service.life.Awaited (.returned none) := by
        refine sound.waits _ ?_
        rw [waits]
        exact List.mem_singleton_self _
      exact .inl awaited
    · exact .inr none
  have back {j : ℕ} {old : WaitPhase} (here : s.service.life.waits[j]? = some old) :
      old = .returned none ∨ old = .returnedAlone none := by
    rcases h.waits with waits | ⟨waits, -⟩
    · rw [waits] at here
      exact .inl (List.mem_singleton.mp (List.mem_of_getElem? here))
    · rw [waits] at here
      exact .inr (List.mem_singleton.mp (List.mem_of_getElem? here))
  cases ServiceLife.perform_step moved with
  | startReturns phase => cases h.start.symm.trans phase
  | startThrows phase kept => cases h.start.symm.trans phase
  | started phase => cases h.start.symm.trans phase
  | rethrow phase stopped => cases h.start.symm.trans phase
  | callStop phase => cases silent
  | callWait phase => cases silent
  | failStop here => cases returned here
  | makeTask here absent => cases returned here
  | shareTask here present => cases returned here
  | finishStop here task => cases returned here
  | timeOut here bounded => cases returned here
  | joinTask here present => rcases back here with eq | eq <;> cases eq
  | goAlone here absent => rcases back here with eq | eq <;> cases eq
  | leaveWait here task => rcases back here with eq | eq <;> cases eq
  | leaveAlone here => rcases back here with eq | eq <;> cases eq
  | call task due own => rcases done with eq | eq <;> (rw [task] at eq; cases eq)
  | pass task idle => rcases done with eq | eq <;> (rw [task] at eq; cases eq)

/-- A call of the service is one of main. -/
theorem Hosted.silent {b : ServiceAction} (made : s.makes (.act b) = true)
    (none : ∀ c, s.main.at? = some c → c ≠ .stopService ∧ c ≠ .waitStopped) : b.calls = false := by
  cases b with
  | callStop =>
      simp only [makes, Bool.and_eq_true, decide_eq_true_eq] at made
      exact absurd rfl (none _ made.1).1
  | callWait =>
      simp only [makes, Bool.and_eq_true, decide_eq_true_eq] at made
      exact absurd rfl (none _ made.1).2
  | _ => rfl

/-- Main still has the call to make that the stage is named after, and so it is in no later one. -/
theorem Hosted.Stage.service {b : ServiceAction} {t : ServiceLife} (sound : s.service.life.Sound config)
    (stage : s.Stage todo) (phase : s.main.phase = .running none todo)
    (split : config.statements = done ++ todo) (made : s.makes (.act b) = true)
    (moved : s.service.life.perform config b = some t) :
    ({ s with service := { s.service with life := t }, inside := s.inside || b.calls } : Hosted).Stage todo := by
  have head {c : ProcessCall} (here : s.main.at? = some c) : ∃ rest, todo = .call c :: rest :=
    Main.at?_eq phase here
  unfold Stage at stage ⊢
  split at stage
  · rename_i ahead
    rw [if_pos ahead]
    refine Starting.service stage sound (silent made fun c here => ⟨?_, ?_⟩) moved
    · rintro rfl
      obtain ⟨rest, rfl⟩ := head here
      exact absurd ahead (by simp [(ProcessConfig.behind_stopService split).1])
    · rintro rfl
      obtain ⟨rest, rfl⟩ := head here
      exact absurd ahead (by simp [(ProcessConfig.behind_waitStopped split).1])
  · rename_i past
    rw [if_neg past]
    split at stage
    · rename_i ahead
      rw [if_pos ahead]
      refine Serving.service stage (fun here => ?_) made moved
      obtain ⟨rest, rfl⟩ := head here
      exact absurd ahead (by simp [(ProcessConfig.behind_waitStopped split).2.1])
    · rename_i stopped
      rw [if_neg stopped]
      split at stage
      · rename_i ahead
        rw [if_pos ahead]
        refine Awaiting.service stage (fun here => ?_) made moved
        obtain ⟨rest, rfl⟩ := head here
        exact absurd List.mem_cons_self stopped
      · rename_i awaited
        refine (stage.quiet sound (silent made fun c here => ⟨?_, ?_⟩) moved).elim
        · rintro rfl
          obtain ⟨rest, rfl⟩ := head here
          exact stopped List.mem_cons_self
        · rintro rfl
          obtain ⟨rest, rfl⟩ := head here
          exact awaited List.mem_cons_self

theorem Hosted.Linked.act {b : ServiceAction} {t : ServiceLife} (told : s.main.Sound config)
    (sound : s.service.life.Sound config) (linked : s.Linked s.main.phase)
    (made : s.makes (.act b) = true) (moved : s.service.life.perform config b = some t) :
    ({ s with service := { s.service with life := t }, inside := s.inside || b.calls } : Hosted).Linked
      s.main.phase := by
  have outside (none : s.main.at? = none) : b.calls = false := by
    refine silent made fun c here => ?_
    rw [none] at here
    cases here
  match phase : s.main.phase with
  | .setUp todo =>
      rw [phase] at linked
      exact Starting.service linked sound (outside (by rw [Main.at?, phase])) moved
  | .running (some error) todo => trivial
  | .running none todo =>
      rw [phase] at linked
      have body := told.told
      unfold Main.Told at body
      rw [phase] at body
      obtain ⟨⟨done, split, -⟩, -⟩ := body
      exact Stage.service sound linked phase split made moved
  | .leaving status =>
      rw [phase] at linked
      have silent := outside (by rw [Main.at?, phase])
      exact fun unfailed => ((linked unfailed).quiet sound silent moved).elim
  | .ended exit =>
      rw [phase] at linked
      have silent := outside (by rw [Main.at?, phase])
      exact fun unfailed => ((linked unfailed).quiet sound silent moved).elim

/-- The destructor leaves what has become of the calls of the service alone. -/
theorem Hosted.Linked.destructor {t : OwnedService} {inside : Bool} (linked : s.Linked s.main.phase)
    (leaving : s.main.isLeaving = true) (same : t.life = s.service.life) :
    ({ s with service := t, inside } : Hosted).Linked s.main.phase := by
  unfold Main.isLeaving at leaving
  split at leaving
  · rename_i status phase
    rw [phase] at linked ⊢
    intro unfailed
    obtain ⟨start, stops, waits⟩ := linked unfailed
    simp only [← same] at start stops waits
    exact ⟨start, stops, waits⟩
  · cases leaving

theorem Hosted.Linked.run {acts : List HostedAction}
    (run : Run (Performs (Hosted.perform config)) (.start config) acts s) :
    s.main.Sound config ∧ s.service.life.Sound config ∧ s.Linked s.main.phase := by
  refine run.invariant_all (I := fun s => s.main.Sound config ∧ s.service.life.Sound config ∧
    s.Linked s.main.phase) ⟨.start, .init config, rfl, rfl, nofun⟩ ?_
  rintro s a s' ⟨told, sound, linked⟩ step
  cases perform_step step with
  | main answered free moved => exact ⟨told.step moved, sound, linked.main told answered moved⟩
  | service made alive moved =>
      cases OwnedService.perform_step moved with
      | act unharmed lived => exact ⟨told, sound.step lived, linked.act told sound made lived⟩
      | destroy unharmed released => exact ⟨told, sound, linked.destructor made rfl⟩
      | destructs left => exact ⟨told, sound, linked.destructor made rfl⟩

/-- A stop that has failed before it had a task was alone, so that nobody has made one. -/
theorem ServiceLife.untasked_of_failed {acts : List ServiceAction} {s : ServiceLife}
    (run : Run (Performs (ServiceLife.perform config)) (.init config.service) acts s)
    (stops : s.stops = [.returned .failed]) : s.task = none := by
  by_contra there
  obtain ⟨i, phase, here, -, other⟩ := maker_run run (Option.isSome_iff_ne_none.mpr there)
  rw [stops] at here
  exact other (List.mem_singleton.mp (List.mem_of_getElem? here))

theorem ServiceLife.Sound.tasked_of_returned {s : ServiceLife} {how : StopEnd}
    (h : s.Sound config) (stops : s.stops = [.returned how]) (other : how ≠ .failed) :
    s.task.isSome := by
  have backs : s.Backs config (.returned how) := by
    refine h.stops _ ?_
    rw [stops]
    exact List.mem_singleton_self _
  cases how with
  | finished =>
      obtain ⟨error, done⟩ := backs
      rw [done]
      rfl
  | timedOut => exact backs.1
  | failed => exact absurd rfl other

/-- A service that is down has made its whole shutdown, unless its stop could not make the task. -/
theorem Hosted.Down.stopped {acts : List ServiceAction} {how : StopEnd} (h : s.Down)
    (run : Run (Performs (ServiceLife.perform config)) (.init config.service) acts s.service.life)
    (stops : s.service.life.stops = [.returned how]) :
    s.service.life.stopped =
      if how = .failed then [] else shutdownCalls.filter s.service.life.needed := by
  have sound := ServiceLife.Sound.run run
  by_cases failed : how = .failed
  · subst failed
    have none := sound.shut
    rw [ServiceLife.untasked_of_failed run stops] at none
    rw [if_pos rfl]
    exact none
  · have made := sound.tasked_of_returned stops failed
    have waits : s.service.life.waits = [.returned none] := by
      rcases h.waits with waits | ⟨-, absent⟩
      · exact waits
      · rw [absent] at made
        cases made
    have awaited : s.service.life.Awaited (.returned none) := by
      refine sound.waits _ ?_
      rw [waits]
      exact List.mem_singleton_self _
    rw [if_neg failed, sound.stopped_of_done awaited]

/-- Status 0 is that of a main in which nothing has failed. -/
theorem Leaves.unfailed {log : List Moment} (leaves : Leaves config log (.status 0)) :
    firstFailure log = none := by
  have own := leaves.own
  unfold ownExit at own
  split at own
  · rename_i unfailed
    exact unfailed
  · cases own
  · cases own

end Steps

end OrderServices
