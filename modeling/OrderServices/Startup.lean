import OrderServices.Library.ForkJoin
import OrderServices.Order.Pipeline

/-! The start of a service. `initFunctions` first looks whether all makers are there and then runs
them at the same time, each in a task of its own that shares the locals of `initFunctions`. -/
namespace OrderServices

open ForkJoin Runs

inductive Service
  | order
  | inventory
  | analytics
  deriving DecidableEq, Repr

/-- The functions of a service in the order in which `initFunctions` goes through them. -/
def Service.functions : Service → List String
  | .order => ["MapOrderItemResultToOrderState", "MapToOrderProcessed", "MapToOrderState",
      "OrderProcessedEndpointSink", "ProcessOrderItemSink", "ProcessOrderItems",
      "ProcessOrderSource", "SoftDeadline"]
  | .inventory => ["GetInventoryItemData", "GetInventoryItemError", "ProcessOrderItemSource"]
  | .analytics => ["AdvanceCycleAnalytics", "AnalyticsOrdersSource", "AnalyticsPaymentsSource",
      "AnalyticsScheduleSource", "AnalyticsShipmentsSource", "BuildSubstreamAnalyticsResult",
      "CompleteCycleAnalytics", "ContinueCycleAnalytics", "CountOrderProcessed",
      "CycleAnalyticsInputSource", "CycleAnalyticsResultSink", "HighValueAnalyticsSink",
      "InvokeAnalyticsSubstream", "JoinOrderPaymentAnalytics", "JoinedAnalyticsSink",
      "KeyOrdersForJoin", "KeyOrdersForMultiJoin", "KeyPaymentsForJoin", "KeyPaymentsForMultiJoin",
      "KeyShipmentsForMultiJoin", "MultiJoinAnalyticsEvents", "OrderProcessedEndpointSource",
      "RouteAnalyticsResult", "StandardAnalyticsSink", "SubstreamAnalyticsInputSource",
      "SubstreamAnalyticsResultSink"]

inductive Made (φ : Type)
  | returned (function : Option φ)
  | threw (error : Exception)
  deriving DecidableEq, Repr

def notConfigured (name : String) : Exception :=
  .std ("function maker " ++ name ++ " is not configured")

def returnedNull (name : String) : Exception := .std ("function maker " ++ name ++ " returned null")

/-- How the task of a maker ends that must not return null. -/
def Made.outcomeOr {φ : Type} (null : Exception) : Made φ → Except Exception φ
  | .returned (some function) => .ok function
  | .returned none => .error null
  | .threw error => .error error

def Made.outcome {φ : Type} (name : String) (made : Made φ) : Except Exception φ :=
  made.outcomeOr (returnedNull name)

theorem Made.outcomeOr_eq_ok {φ : Type} {null : Exception} {made : Made φ} {function : φ} :
    made.outcomeOr null = .ok function ↔ made = .returned (some function) := by
  cases made with
  | returned given => cases given <;> simp [outcomeOr]
  | threw error => simp [outcomeOr]

theorem Made.outcome_eq_ok {φ : Type} {name : String} {made : Made φ} {function : φ} :
    made.outcome name = .ok function ↔ made = .returned (some function) := outcomeOr_eq_ok

inductive InitFunctions (φ : Type)
  | checking
  | refused (error : Exception)
  | making (s : State Exception φ)

inductive InitAction (φ : Type)
  | check
  /-- The maker of function `i` ends. -/
  | make (i : ℕ) (made : Made φ)
  /-- Anything else that the tasks or `initFunctions` itself do. -/
  | handle (a : Action Exception φ)

variable {φ : Type}

def InitFunctions.perform (service : Service) (configured : String → Bool) (s : InitFunctions φ) :
    InitAction φ → Option (InitFunctions φ)
  | .check =>
      match s with
      | .checking =>
          match service.functions.find? fun name => !configured name with
          | some name => some (.refused (notConfigured name))
          | none => some (.making .init)
      | _ => none
  | .make i made =>
      match s, service.functions[i]? with
      | .making s, some name =>
          (ForkJoin.perform service.functions.length s (.work i (made.outcome name))).map .making
      | _, _ => none
  | .handle a =>
      match s with
      | .making s =>
          if a.isWork then none else (ForkJoin.perform service.functions.length s a).map .making
      | _ => none

def InitFunctions.function? (s : InitFunctions φ) (i : ℕ) : Option φ :=
  match s with
  | .making s => (s.outcome? i).bind Except.toOption
  | _ => none

def InitFunctions.result : InitFunctions φ → Option (Option Exception)
  | .checking => none
  | .refused error => some (some error)
  | .making s => s.result

def InitFunctions.stopRequested : InitFunctions φ → Bool
  | .making s => s.stopRequested
  | _ => false

def InitAction.job? (service : Service) : InitAction φ → Option (Action Exception φ)
  | .check => none
  | .make i made => (service.functions[i]?).map fun name => .work i (made.outcome name)
  | .handle a => some a

def InitAction.recordedBy? : InitAction φ → Option ℕ
  | .handle (.record i) => some i
  | _ => none

inductive InitFunctions.Step (service : Service) (configured : String → Bool) :
    InitFunctions φ → InitAction φ → InitFunctions φ → Prop
  | refuse {name : String}
      (missing : service.functions.find? (fun name => !configured name) = some name) :
      Step service configured .checking .check (.refused (notConfigured name))
  | begin (all : ∀ name ∈ service.functions, configured name = true) :
      Step service configured .checking .check (.making .init)
  | act {s s' : State Exception φ} {a : InitAction φ} {job : Action Exception φ}
      (own : a.job? service = some job)
      (silent : ∀ b, a = .handle b → b.isWork = false)
      (acted : ForkJoin.perform service.functions.length s job = some s') :
      Step service configured (.making s) a (.making s')

section Steps

variable {service : Service} {configured : String → Bool} {s s' : InitFunctions φ} {a : InitAction φ}

theorem InitFunctions.perform_step (h : s.perform service configured a = some s') :
    s.Step service configured a s' := by
  cases a with
  | check =>
      simp only [perform] at h
      split at h
      · split at h
        · rename_i name missing
          cases h
          exact .refuse missing
        · rename_i none
          cases h
          exact .begin fun name member => by simpa using List.find?_eq_none.mp none name member
      · cases h
  | make i made =>
      simp only [perform] at h
      split at h
      · rename_i s name here
        obtain ⟨t, acted, rfl⟩ := Option.map_eq_some_iff.mp h
        exact .act (by simp [InitAction.job?, here]) (fun _ impossible => by cases impossible) acted
      · cases h
  | handle a =>
      simp only [perform] at h
      split at h
      · split at h
        · cases h
        · rename_i silent
          obtain ⟨t, acted, rfl⟩ := Option.map_eq_some_iff.mp h
          refine .act rfl ?_ acted
          rintro _ eq
          cases eq
          exact Bool.eq_false_iff.mpr silent
      · cases h

/-! ## The run of the tasks -/

/-- What the state says about the actions that have led to it. -/
def InitFunctions.Reached (service : Service) (configured : String → Bool)
    (acts : List (InitAction φ)) : InitFunctions φ → Prop
  | .checking => acts = []
  | .refused error => acts = [.check] ∧ ∃ name,
      service.functions.find? (fun name => !configured name) = some name ∧ error = notConfigured name
  | .making s =>
      (∀ name ∈ service.functions, configured name = true) ∧
      Run (Performs (ForkJoin.perform service.functions.length)) .init
        (acts.filterMap (InitAction.job? service)) s ∧
      (∀ a, .handle a ∈ acts → a.isWork = false) ∧
      acts.length = (acts.filterMap (InitAction.job? service)).length + 1

variable {acts : List (InitAction φ)}

theorem InitFunctions.Reached.run
    (run : Run (Performs (InitFunctions.perform service configured)) .checking acts s) :
    s.Reached service configured acts := by
  induction run with
  | nil => rfl
  | @snoc acts s s' a run step ih =>
      cases perform_step step with
      | refuse missing =>
          obtain rfl : acts = [] := ih
          exact ⟨rfl, _, missing, rfl⟩
      | begin all =>
          obtain rfl : acts = [] := ih
          exact ⟨all, .nil, by simp, rfl⟩
      | @act s s' a job own silent acted =>
          obtain ⟨all, before, quiet, counted⟩ := ih
          have more : (acts ++ [a]).filterMap (InitAction.job? service) =
              acts.filterMap (InitAction.job? service) ++ [job] := by
            rw [List.filterMap_append, List.filterMap_cons_some own, List.filterMap_nil]
          refine ⟨all, more ▸ before.snoc acted, ?_, ?_⟩
          · intro b member
            rcases List.mem_append.mp member with old | new
            · exact quiet b old
            · exact silent b (List.mem_singleton.mp new).symm
          · rw [more, List.length_append, List.length_append, counted]
            rfl

theorem mem_jobs (quiet : ∀ a, .handle a ∈ acts → a.isWork = false) {i : ℕ}
    {outcome : Except Exception φ} :
    .work i outcome ∈ acts.filterMap (InitAction.job? service) ↔
      ∃ name made, service.functions[i]? = some name ∧ .make i made ∈ acts ∧
        made.outcome name = outcome := by
  rw [List.mem_filterMap]
  constructor
  · rintro ⟨a, member, own⟩
    cases a with
    | check => cases own
    | make j made =>
        obtain ⟨name, here, eq⟩ := Option.map_eq_some_iff.mp own
        cases eq
        exact ⟨name, made, here, member, rfl⟩
    | handle b =>
        cases own
        exact absurd (quiet _ member) (by simp [Action.isWork])
  · rintro ⟨name, made, here, member, rfl⟩
    exact ⟨_, member, by simp [InitAction.job?, here]⟩

theorem recordedBy?_jobs : (acts.filterMap (InitAction.job? service)).filterMap Action.recordedBy? =
    acts.filterMap InitAction.recordedBy? := by
  rw [List.filterMap_filterMap]
  refine List.filterMap_congr fun a _ => ?_
  cases a with
  | check => rfl
  | make i made => cases here : service.functions[i]? <;> simp [InitAction.job?, here] <;> rfl
  | handle a => cases a <;> rfl

section Making

variable {s : State Exception φ}
  (reached : (InitFunctions.making s).Reached service configured acts)
include reached

theorem InitFunctions.outcome_iff {i : ℕ} {outcome : Except Exception φ} :
    s.outcome? i = some outcome ↔ ∃ name made, service.functions[i]? = some name ∧
      .make i made ∈ acts ∧ made.outcome name = outcome := by
  obtain ⟨-, jobs, quiet, -⟩ := reached
  rw [← mem_jobs quiet]
  exact (worked_run jobs i _).symm

/-- A function that has been made is the only one that its maker has returned. -/
theorem InitFunctions.made_iff {i : ℕ} {function : φ} (done : s.outcome? i = some (.ok function)) :
    ∀ made, .make i made ∈ acts ↔ made = .returned (some function) := by
  obtain ⟨name, given, here, member, eq⟩ := (outcome_iff reached).mp done
  intro made
  constructor
  · intro also
    have outcome := (outcome_iff reached).mpr ⟨name, made, here, also, rfl⟩
    exact Made.outcome_eq_ok.mp (Option.some.inj (outcome.symm.trans done))
  · rintro rfl
    rw [← Made.outcome_eq_ok.mp eq]
    exact member

theorem InitFunctions.making_finished (left : s.result.isSome) (a : InitAction φ) :
    (InitFunctions.making s).perform service configured a = none := by
  have stuck := (Sound.run reached.2.1).finished left
  cases a with
  | check => rfl
  | make i made => cases here : service.functions[i]? <;> simp [perform, here, stuck]
  | handle a => simp [perform, stuck]

end Making

end Steps

structure InitFunctions.Verdict (service : Service) (configured : String → Bool)
    (acts : List (InitAction φ)) (s : InitFunctions φ) : Prop where
  /-- If it returns, every maker was set and has made the function that is there now. -/
  returned : s.result = some none → (∀ name ∈ service.functions, configured name = true) ∧
    ∀ i < service.functions.length, ∃ function, s.function? i = some function ∧
      ∀ made, .make i made ∈ acts ↔ made = .returned (some function)
  /-- If it throws, a maker was missing and none was run, or the error is that of the maker whose
  task was the first to record one. -/
  thrown : ∀ error, s.result = some (some error) →
    (acts = [.check] ∧ ∃ name, service.functions.find? (fun name => !configured name) = some name ∧
      error = notConfigured name) ∨
    ∃ i name made, service.functions[i]? = some name ∧ .make i made ∈ acts ∧
      made.outcome name = .error error ∧ (acts.filterMap InitAction.recordedBy?).head? = some i
  /-- No maker is asked to stop before one has failed. -/
  calm : s.stopRequested = true → s.result.isSome ∨ ∃ i name made error,
    service.functions[i]? = some name ∧ .make i made ∈ acts ∧ made.outcome name = .error error
  /-- No task is left that could touch the locals of a call that has ended. -/
  finished : s.result.isSome → ∀ a, s.perform service configured a = none

/-- `initFunctions` returns with every function in its place, or throws the first error that was
recorded, and in both cases only after the last task has ended. -/
theorem init_functions_verdict {service : Service} {configured : String → Bool}
    {acts : List (InitAction φ)} {s : InitFunctions φ}
    (run : Run (Performs (InitFunctions.perform service configured)) .checking acts s) :
    s.Verdict service configured acts := by
  have reached := InitFunctions.Reached.run run
  cases s with
  | checking =>
      refine ⟨fun impossible => ?_, fun _ impossible => ?_, fun impossible => ?_, fun impossible => ?_⟩
      all_goals cases impossible
  | refused error =>
      obtain ⟨only, name, missing, rfl⟩ := reached
      refine ⟨fun impossible => ?_, fun _ eq => .inl ?_, fun impossible => ?_, fun _ a => ?_⟩
      · cases impossible
      · cases eq
        exact ⟨only, name, missing, rfl⟩
      · cases impossible
      · cases a <;> rfl
  | making s =>
      have sound := Sound.run reached.2.1
      refine ⟨fun result => ⟨reached.1, fun i hi => ?_⟩, fun error result => .inr ?_, fun asked => ?_,
        InitFunctions.making_finished reached⟩
      · obtain ⟨function, done⟩ := sound.returned result hi
        refine ⟨function, ?_, InitFunctions.made_iff reached done⟩
        simp [InitFunctions.function?, done, Except.toOption]
      · obtain ⟨i, failed, head⟩ := sound.threw result
        obtain ⟨name, made, here, member, eq⟩ := (InitFunctions.outcome_iff reached).mp failed
        rw [records_run reached.2.1, recordedBy?_jobs] at head
        exact ⟨i, name, made, here, member, eq, head⟩
      · refine (sound.calm asked).imp_right ?_
        rintro ⟨i, error, failed⟩
        obtain ⟨name, made, here, member, eq⟩ := (InitFunctions.outcome_iff reached).mp failed
        exact ⟨i, name, made, error, here, member, eq⟩

/-- One function is null, the maker of another one is stopped and throws too: the first is named. -/
theorem init_functions_verdict_null :
    ∃ (acts : List (InitAction ℕ)) (s : InitFunctions ℕ),
      Run (Performs (InitFunctions.perform .inventory fun _ => true)) .checking acts s ∧
      s.result = some (some (returnedNull "GetInventoryItemError")) ∧ s.function? 0 = some 7 ∧
      s.Verdict .inventory (fun _ => true) acts := by
  let acts : List (InitAction ℕ) :=
    [.check, .handle .spawn, .handle .spawn, .make 1 (.returned none), .handle .spawn,
      .handle (.requestStop 1), .make 2 (.threw .other), .make 0 (.returned (some 7)),
      .handle (.requestStop 2), .handle (.record 1), .handle .join, .handle (.record 2),
      .handle .join, .handle .join, .handle .leave]
  have ends : (acts.foldlM (InitFunctions.perform .inventory fun _ => true) .checking).map (fun s =>
      (s.result, s.function? 0)) = some (some (some (returnedNull "GetInventoryItemError")), some 7) := by
    decide +kernel
  obtain ⟨s, steps, shown⟩ := Option.map_eq_some_iff.mp ends
  obtain ⟨result, function⟩ := Prod.mk.inj shown
  exact ⟨acts, s, .of_foldlM steps, result, function, init_functions_verdict (.of_foldlM steps)⟩

/-- The maker of function `i` has been called and has not ended. -/
def InitFunctions.Awaits (s : InitFunctions φ) (i : ℕ) : Prop :=
  ∃ t, s = .making t ∧ t.tasks[i]? = some .running

/-- The start takes a bounded number of steps and waits for nothing but its makers: as long as it
has not ended, something else can happen, or it awaits a maker and goes on whatever that makes. -/
theorem init_functions_ends {service : Service} {configured : String → Bool}
    {acts : List (InitAction φ)} {s : InitFunctions φ}
    (run : Run (Performs (InitFunctions.perform service configured)) .checking acts s) :
    acts.length ≤ 5 * service.functions.length + 2 ∧
    (s.result = none →
      (∃ i, s.Awaits i ∧ ∀ made, ∃ s', s.perform service configured (.make i made) = some s') ∨
      ∃ a s', (∀ i made, a ≠ .make i made) ∧ s.perform service configured a = some s') := by
  have reached := InitFunctions.Reached.run run
  cases s with
  | checking =>
      obtain rfl : acts = [] := reached
      refine ⟨Nat.zero_le _, fun _ => .inr ⟨.check, ?_⟩⟩
      simp only [InitFunctions.perform]
      split
      · exact ⟨_, fun _ _ => nofun, rfl⟩
      · exact ⟨_, fun _ _ => nofun, rfl⟩
  | refused error =>
      obtain ⟨rfl, -⟩ := reached
      exact ⟨Nat.le_add_left _ _, fun unfinished => by cases unfinished⟩
  | making s =>
      obtain ⟨-, jobs, -, counted⟩ := reached
      have bounded := length_run jobs
      have sound := Sound.run jobs
      refine ⟨by omega, fun unfinished => ?_⟩
      rcases sound.progress unfinished with ⟨i, here⟩ | ⟨a, s', silent, step⟩
      · refine .inl ⟨i, ⟨s, rfl, here⟩, fun made => ?_⟩
        have hi : i < service.functions.length :=
          Nat.lt_of_lt_of_le (List.getElem?_eq_some_iff.mp here).1 sound.spawned
        refine ⟨.making (s.move i (.afterWork (made.outcome service.functions[i]))), ?_⟩
        simp [InitFunctions.perform, hi, (Step.work here).performs]
      · exact .inr ⟨.handle a, .making s', fun _ _ => nofun, by simp [InitFunctions.perform, silent, step]⟩

theorem init_functions_ends_null :
    ∃ (acts : List (InitAction ℕ)) (s : InitFunctions ℕ),
      Run (Performs (InitFunctions.perform .inventory fun _ => true)) .checking acts s ∧
      s.result = none ∧ acts.length ≤ 17 ∧
      ((∃ i, s.Awaits i ∧ ∀ made, ∃ s',
          s.perform .inventory (fun _ => true) (.make i made) = some s') ∨
        ∃ a s', (∀ i made, a ≠ .make i made) ∧ s.perform .inventory (fun _ => true) a = some s') := by
  let acts : List (InitAction ℕ) :=
    [.check, .handle .spawn, .handle .spawn, .make 1 (.returned none), .handle .spawn,
      .handle (.requestStop 1), .make 0 (.returned (some 7)), .handle (.record 1), .handle .join,
      .handle .join]
  have ends : (acts.foldlM (InitFunctions.perform .inventory fun _ => true) .checking).map
      InitFunctions.result = some none := by
    decide +kernel
  obtain ⟨s, steps, unfinished⟩ := Option.map_eq_some_iff.mp ends
  obtain ⟨bounded, goesOn⟩ := init_functions_ends (.of_foldlM steps)
  exact ⟨acts, s, .of_foldlM steps, unfinished, bounded, goesOn unfinished⟩

end OrderServices
