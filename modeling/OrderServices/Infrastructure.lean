import OrderServices.Startup

/-! The makers of the HTTP server and of the clients of a service. `initInfrastructure` shares its
locals with the tasks of its makers, as `initFunctions` does, but it looks for the maker of a client
only when the task of the server has been launched. -/
namespace OrderServices

open ForkJoin Runs

inductive InfrastructureMaker
  | httpRouter
  | httpServer
  | inventoryServiceApiClient
  deriving DecidableEq, Repr

/-- The makers that get a task, in the order in which their tasks are launched. -/
def Service.infrastructure : Service → List InfrastructureMaker
  | .order => [.httpServer, .inventoryServiceApiClient]
  | _ => [.httpServer]

def InfrastructureMaker.notConfigured : InfrastructureMaker → Exception
  | .httpRouter => .std "HTTP infrastructure makers are not configured"
  | .httpServer => .std "HTTP infrastructure makers are not configured"
  | .inventoryServiceApiClient =>
      .std "infrastructure maker inventory_service_api_client is not configured"

def InfrastructureMaker.returnedNull : InfrastructureMaker → Exception
  | .httpRouter => .std "HTTP router maker returned null"
  | .httpServer => .std "HTTP server maker returned null"
  | .inventoryServiceApiClient =>
      .std "infrastructure maker inventory_service_api_client returned null"

inductive Infrastructure (φ : Type)
  | checking
  | routing
  | making (s : State Exception φ)
  /-- It has thrown before it waited for its tasks. They are as in `s` and go on. -/
  | thrown (error : Exception) (s : State Exception φ)

inductive InfrastructureAction (φ : Type)
  | check
  /-- The maker of the router ends. -/
  | route (made : Made Unit)
  /-- The next task is launched, unless its maker is missing. -/
  | launch
  /-- The maker of task `i` ends. -/
  | make (i : ℕ) (made : Made φ)
  | requestStop (i : ℕ)
  | record (i : ℕ)
  | join
  | leave

variable {φ : Type}

def Infrastructure.act (service : Service) (s : Infrastructure φ) (a : Action Exception φ) :
    Option (Infrastructure φ) :=
  match s with
  | .making s => (ForkJoin.perform service.infrastructure.length s a).map .making
  | .thrown error s => (ForkJoin.perform service.infrastructure.length s a).map (.thrown error)
  | _ => none

def Infrastructure.perform (service : Service) (configured : InfrastructureMaker → Bool)
    (s : Infrastructure φ) : InfrastructureAction φ → Option (Infrastructure φ)
  | .check =>
      match s with
      | .checking =>
          if configured .httpRouter && configured .httpServer then some .routing
          else some (.thrown InfrastructureMaker.httpServer.notConfigured .init)
      | _ => none
  | .route made =>
      match s with
      | .routing =>
          match made.outcomeOr InfrastructureMaker.httpRouter.returnedNull with
          | .ok _ => some (.making .init)
          | .error error => some (.thrown error .init)
      | _ => none
  | .launch =>
      match s with
      | .making s =>
          match service.infrastructure[s.tasks.length]? with
          -- The maker of the server has been found by the check.
          | some maker =>
              if configured maker then
                (ForkJoin.perform service.infrastructure.length s .spawn).map .making
              else some (.thrown maker.notConfigured s)
          | none => none
      | _ => none
  | .make i made =>
      match service.infrastructure[i]? with
      | some maker => s.act service (.work i (made.outcomeOr maker.returnedNull))
      | none => none
  | .requestStop i => s.act service (.requestStop i)
  | .record i => s.act service (.record i)
  | .join =>
      match s with
      | .making s => (ForkJoin.perform service.infrastructure.length s .join).map .making
      | _ => none
  | .leave =>
      match s with
      | .making s => (ForkJoin.perform service.infrastructure.length s .leave).map .making
      | _ => none

def Infrastructure.result : Infrastructure φ → Option (Option Exception)
  | .checking => none
  | .routing => none
  | .making s => s.result
  | .thrown error _ => some (some error)

def Infrastructure.tasks : Infrastructure φ → List (Task Exception φ)
  | .checking => []
  | .routing => []
  | .making s => s.tasks
  | .thrown _ s => s.tasks

def Infrastructure.made? (s : Infrastructure φ) (i : ℕ) : Option φ :=
  ((s.tasks[i]?).bind Task.outcome?).bind Except.toOption

/-- `initInfrastructure` has ended, and a task is left that uses its locals. -/
def Infrastructure.LeftBehind (s : Infrastructure φ) : Prop :=
  s.result.isSome ∧ ∃ task ∈ s.tasks, task.ended = false

def InfrastructureAction.job? (service : Service) :
    InfrastructureAction φ → Option (Action Exception φ)
  | .check => none
  | .route _ => none
  | .launch => some .spawn
  | .make i made =>
      (service.infrastructure[i]?).map fun maker => .work i (made.outcomeOr maker.returnedNull)
  | .requestStop i => some (.requestStop i)
  | .record i => some (.record i)
  | .join => some .join
  | .leave => some .leave

def InfrastructureAction.recordedBy? : InfrastructureAction φ → Option ℕ
  | .record i => some i
  | _ => none

inductive Infrastructure.Step (service : Service) (configured : InfrastructureMaker → Bool) :
    Infrastructure φ → InfrastructureAction φ → Infrastructure φ → Prop
  | begin (router : configured .httpRouter = true) (server : configured .httpServer = true) :
      Step service configured .checking .check .routing
  | refuse (missing : configured .httpRouter = false ∨ configured .httpServer = false) :
      Step service configured .checking .check
        (.thrown InfrastructureMaker.httpServer.notConfigured .init)
  | route : Step service configured .routing (.route (.returned (some ()))) (.making .init)
  | unrouted {made : Made Unit} {error : Exception}
      (failed : made.outcomeOr InfrastructureMaker.httpRouter.returnedNull = .error error) :
      Step service configured .routing (.route made) (.thrown error .init)
  | abandon {s : State Exception φ} {maker : InfrastructureMaker}
      (next : service.infrastructure[s.tasks.length]? = some maker)
      (missing : configured maker = false) :
      Step service configured (.making s) .launch (.thrown maker.notConfigured s)
  | act {s s' : State Exception φ} {a : InfrastructureAction φ} {job : Action Exception φ}
      (own : a.job? service = some job)
      (found : a = .launch → ∃ maker, service.infrastructure[s.tasks.length]? = some maker ∧
        configured maker = true)
      (acted : ForkJoin.perform service.infrastructure.length s job = some s') :
      Step service configured (.making s) a (.making s')
  | goOn {error : Exception} {s s' : State Exception φ} {a : InfrastructureAction φ}
      {job : Action Exception φ} (own : a.job? service = some job) (silent : job ≠ .spawn)
      (acted : ForkJoin.perform service.infrastructure.length s job = some s') :
      Step service configured (.thrown error s) a (.thrown error s')

section Steps

variable {service : Service} {configured : InfrastructureMaker → Bool} {s s' : Infrastructure φ}
  {a : InfrastructureAction φ}

theorem Infrastructure.act_step {job : Action Exception φ} (own : a.job? service = some job)
    (silent : job ≠ .spawn) (h : s.act service job = some s') : s.Step service configured a s' := by
  have other : a ≠ .launch := by
    rintro rfl
    cases own
    exact silent rfl
  cases s with
  | checking => cases h
  | routing => cases h
  | making s =>
      obtain ⟨t, acted, rfl⟩ := Option.map_eq_some_iff.mp h
      exact .act own (fun same => absurd same other) acted
  | thrown error s =>
      obtain ⟨t, acted, rfl⟩ := Option.map_eq_some_iff.mp h
      exact .goOn own silent acted

theorem Infrastructure.perform_step (h : s.perform service configured a = some s') :
    s.Step service configured a s' := by
  cases a with
  | check =>
      simp only [perform] at h
      split at h
      · split at h
        · rename_i both
          obtain ⟨router, server⟩ := Bool.and_eq_true_iff.mp both
          cases h
          exact .begin router server
        · rename_i missing
          cases h
          exact .refuse (Bool.and_eq_false_iff.mp (Bool.eq_false_iff.mpr missing))
      · cases h
  | route made =>
      simp only [perform] at h
      split at h
      · split at h
        · rename_i made
          cases h
          rw [Made.outcomeOr_eq_ok.mp made]
          exact .route
        · rename_i failed
          cases h
          exact .unrouted failed
      · cases h
  | launch =>
      simp only [perform] at h
      split at h
      · split at h
        · rename_i maker next
          split at h
          · rename_i found
            obtain ⟨t, acted, rfl⟩ := Option.map_eq_some_iff.mp h
            exact .act rfl (fun _ => ⟨maker, next, found⟩) acted
          · rename_i missing
            cases h
            exact .abandon next (Bool.eq_false_iff.mpr missing)
        · cases h
      · cases h
  | make i made =>
      simp only [perform] at h
      split at h
      · rename_i maker here
        have own : (InfrastructureAction.make i made).job? service =
            some (.work i (made.outcomeOr maker.returnedNull)) := by
          simp [InfrastructureAction.job?, here]
        exact act_step own nofun h
      · cases h
  | requestStop i => exact act_step rfl nofun h
  | record i => exact act_step rfl nofun h
  | join =>
      simp only [perform] at h
      split at h
      · obtain ⟨t, acted, rfl⟩ := Option.map_eq_some_iff.mp h
        exact .act rfl nofun acted
      · cases h
  | leave =>
      simp only [perform] at h
      split at h
      · obtain ⟨t, acted, rfl⟩ := Option.map_eq_some_iff.mp h
        exact .act rfl nofun acted
      · cases h

/-! ## The run of the tasks -/

inductive Infrastructure.Cause (service : Service) (configured : InfrastructureMaker → Bool)
    (acts : List (InfrastructureAction φ)) : Exception → Prop
  | missing {maker : InfrastructureMaker} (needed : maker ∈ .httpRouter :: service.infrastructure)
      (absent : configured maker = false) : Cause service configured acts maker.notConfigured
  | unrouted {made : Made Unit} {error : Exception} (member : .route made ∈ acts)
      (failed : made.outcomeOr InfrastructureMaker.httpRouter.returnedNull = .error error) :
      Cause service configured acts error
  /-- Of the tasks that fail, the first one to record its error is blamed. -/
  | recorded {i : ℕ} {maker : InfrastructureMaker} {made : Made φ} {error : Exception}
      (here : service.infrastructure[i]? = some maker) (member : .make i made ∈ acts)
      (failed : made.outcomeOr maker.returnedNull = .error error)
      (first : (acts.filterMap InfrastructureAction.recordedBy?).head? = some i) :
      Cause service configured acts error

theorem Infrastructure.Cause.append {acts : List (InfrastructureAction φ)} {error : Exception}
    (cause : Cause service configured acts error) (more : List (InfrastructureAction φ)) :
    Cause service configured (acts ++ more) error := by
  cases cause with
  | missing needed absent => exact .missing needed absent
  | unrouted member failed => exact .unrouted (List.mem_append_left more member) failed
  | recorded here member failed first =>
      refine .recorded here (List.mem_append_left more member) failed ?_
      rw [List.filterMap_append, List.head?_append, first]
      rfl

/-- What the state says about the actions that have led to it. A state that was left with a task
in it is one of the order service. -/
def Infrastructure.Reached (service : Service) (configured : InfrastructureMaker → Bool)
    (acts : List (InfrastructureAction φ)) : Infrastructure φ → Prop
  | .checking => acts = []
  | .routing =>
      acts = [.check] ∧ configured .httpRouter = true ∧ configured .httpServer = true
  | .making s =>
      configured .httpRouter = true ∧ configured .httpServer = true ∧
      .route (.returned (some ())) ∈ acts ∧
      Run (Performs (ForkJoin.perform service.infrastructure.length)) .init
        (acts.filterMap (InfrastructureAction.job? service)) s ∧
      ∀ maker ∈ service.infrastructure.take s.tasks.length, configured maker = true
  | .thrown error s =>
      Cause service configured acts error ∧
      (s.tasks ≠ [] → service = .order ∧ configured .httpRouter = true ∧
        configured .httpServer = true ∧ configured .inventoryServiceApiClient = false)

variable {acts : List (InfrastructureAction φ)}

/-- Behind the server only the order service has another maker. -/
theorem Service.infrastructure_behind {i : ℕ} {maker : InfrastructureMaker}
    (here : service.infrastructure[i]? = some maker) :
    (i = 0 ∧ maker = .httpServer) ∨
      i = 1 ∧ service = .order ∧ maker = .inventoryServiceApiClient := by
  cases service with
  | order =>
      match i with
      | 0 =>
          cases here
          exact .inl ⟨rfl, rfl⟩
      | 1 =>
          cases here
          exact .inr ⟨rfl, rfl, rfl⟩
  | inventory =>
      match i with
      | 0 =>
          cases here
          exact .inl ⟨rfl, rfl⟩
  | analytics =>
      match i with
      | 0 =>
          cases here
          exact .inl ⟨rfl, rfl⟩

theorem Infrastructure.Reached.act {a : InfrastructureAction φ} {s s' : State Exception φ}
    {job : Action Exception φ} (h : (making s).Reached service configured acts)
    (own : a.job? service = some job)
    (found : a = .launch → ∃ maker, service.infrastructure[s.tasks.length]? = some maker ∧
      configured maker = true)
    (acted : ForkJoin.perform service.infrastructure.length s job = some s') :
    (making s').Reached service configured (acts ++ [a]) := by
  obtain ⟨router, server, routed, before, all⟩ := h
  have more : (acts ++ [a]).filterMap (InfrastructureAction.job? service) =
      acts.filterMap (InfrastructureAction.job? service) ++ [job] := by
    rw [List.filterMap_append, List.filterMap_cons_some own, List.filterMap_nil]
  refine ⟨router, server, List.mem_append_left _ routed, more ▸ before.snoc acted, ?_⟩
  rcases length_tasks_step acted with same | ⟨rfl, grown⟩
  · rwa [same]
  · have launched : a = .launch := by
      cases a with
      | launch => rfl
      | make i made =>
          cases here : service.infrastructure[i]? <;> simp [InfrastructureAction.job?, here] at own
      | _ => cases own
    obtain ⟨maker, here, set⟩ := found launched
    intro other member
    rw [grown, List.take_add_one, here, List.mem_append, Option.mem_toList] at member
    rcases member with old | new
    · exact all other old
    · obtain rfl := Option.some.inj new
      exact set

theorem Infrastructure.Reached.run
    (run : Run (Performs (Infrastructure.perform service configured)) .checking acts s) :
    s.Reached service configured acts := by
  induction run with
  | nil => rfl
  | @snoc acts s s' a run step ih =>
      cases perform_step step with
      | begin router server =>
          obtain rfl : acts = [] := ih
          exact ⟨rfl, router, server⟩
      | refuse missing =>
          refine ⟨?_, fun some => absurd rfl some⟩
          rcases missing with router | server
          · -- Both makers are reported by the same text.
            have cause : Cause service configured (acts ++ [.check])
                InfrastructureMaker.httpRouter.notConfigured := .missing List.mem_cons_self router
            exact cause
          · exact .missing (by cases service <;> simp [Service.infrastructure]) server
      | route =>
          obtain ⟨rfl, router, server⟩ := ih
          refine ⟨router, server, by simp, .nil, fun maker member => ?_⟩
          cases member
      | unrouted failed => exact ⟨.unrouted (by simp) failed, fun some => absurd rfl some⟩
      | @abandon s maker next missing =>
          obtain ⟨router, server, -⟩ := ih
          refine ⟨.missing (List.mem_cons_of_mem _ (List.mem_of_getElem? next)) missing, fun _ => ?_⟩
          rcases Service.infrastructure_behind next with ⟨-, rfl⟩ | ⟨-, order, rfl⟩
          · rw [server] at missing
            cases missing
          · exact ⟨order, router, server, missing⟩
      | act own found acted => exact ih.act own found acted
      | @goOn error s s' a job own silent acted =>
          obtain ⟨cause, left⟩ := ih
          refine ⟨cause.append _, fun some => left ?_⟩
          rcases length_tasks_step acted with same | ⟨spawned, -⟩
          · rintro none
            rw [none] at same
            exact some (List.eq_nil_of_length_eq_zero same)
          · exact absurd spawned silent

section Making

variable {s : State Exception φ} (reached : (Infrastructure.making s).Reached service configured acts)
include reached

theorem Infrastructure.outcome_iff {i : ℕ} {outcome : Except Exception φ} :
    s.outcome? i = some outcome ↔ ∃ maker made, service.infrastructure[i]? = some maker ∧
      .make i made ∈ acts ∧ made.outcomeOr maker.returnedNull = outcome := by
  obtain ⟨-, -, -, jobs, -⟩ := reached
  rw [← worked_run jobs, List.mem_filterMap]
  constructor
  · rintro ⟨a, member, own⟩
    cases a with
    | make j made =>
        obtain ⟨maker, here, eq⟩ := Option.map_eq_some_iff.mp own
        cases eq
        exact ⟨maker, made, here, member, rfl⟩
    | _ => cases own
  · rintro ⟨maker, made, here, member, rfl⟩
    exact ⟨_, member, by simp [InfrastructureAction.job?, here]⟩

theorem Infrastructure.made_iff {i : ℕ} {function : φ} (done : s.outcome? i = some (.ok function)) :
    ∀ made, .make i made ∈ acts ↔ made = .returned (some function) := by
  obtain ⟨maker, given, here, member, eq⟩ := (outcome_iff reached).mp done
  intro made
  constructor
  · intro also
    have outcome := (outcome_iff reached).mpr ⟨maker, made, here, also, rfl⟩
    exact Made.outcomeOr_eq_ok.mp (Option.some.inj (outcome.symm.trans done))
  · rintro rfl
    rw [← Made.outcomeOr_eq_ok.mp eq]
    exact member

/-- If an error has come out of the tasks, that of the first one to record one is thrown. -/
theorem Infrastructure.cause_of_making {error : Exception} (result : s.result = some (some error)) :
    Cause service configured acts error := by
  obtain ⟨i, failed, head⟩ := (Sound.run reached.2.2.2.1).threw result
  obtain ⟨maker, made, here, member, eq⟩ := (outcome_iff reached).mp failed
  refine .recorded here member eq ?_
  rw [← head, records_run reached.2.2.2.1, List.filterMap_filterMap]
  refine congrArg List.head? (List.filterMap_congr fun a _ => ?_)
  cases a with
  | make j made =>
      cases here : service.infrastructure[j]? <;> simp [InfrastructureAction.job?, here] <;> rfl
  | _ => rfl

end Making

end Steps

structure Infrastructure.Verdict (service : Service) (configured : InfrastructureMaker → Bool)
    (acts : List (InfrastructureAction φ)) (s : Infrastructure φ) : Prop where
  /-- If it returns, every maker was set, the router is there, and each task has made what its
  maker has returned. -/
  returned : s.result = some none →
    (∀ maker ∈ .httpRouter :: service.infrastructure, configured maker = true) ∧
    .route (.returned (some ())) ∈ acts ∧
    ∀ i < service.infrastructure.length, ∃ made, s.made? i = some made ∧
      ∀ other, .make i other ∈ acts ↔ other = .returned (some made)
  thrown : ∀ error, s.result = some (some error) →
    Infrastructure.Cause service configured acts error
  /-- A task outlives it only where the maker of the client is missing. -/
  left : s.LeftBehind → service = .order ∧ configured .httpRouter = true ∧
    configured .httpServer = true ∧ configured .inventoryServiceApiClient = false

/-- `initInfrastructure` returns with everything made, or throws the error that was recorded first
or that of the router, or names a maker that is missing. -/
theorem infrastructure_verdict {service : Service} {configured : InfrastructureMaker → Bool}
    {acts : List (InfrastructureAction φ)} {s : Infrastructure φ}
    (run : Run (Performs (Infrastructure.perform service configured)) .checking acts s) :
    s.Verdict service configured acts := by
  have reached := Infrastructure.Reached.run run
  cases s with
  | checking =>
      refine ⟨fun impossible => ?_, fun _ impossible => ?_, fun impossible => ?_⟩
      · cases impossible
      · cases impossible
      · cases impossible.1
  | routing =>
      refine ⟨fun impossible => ?_, fun _ impossible => ?_, fun impossible => ?_⟩
      · cases impossible
      · cases impossible
      · cases impossible.1
  | thrown error s =>
      obtain ⟨cause, left⟩ := reached
      refine ⟨fun impossible => ?_, fun _ same => ?_, fun ⟨_, _, member, _⟩ => ?_⟩
      · cases impossible
      · cases same
        exact cause
      · exact left (List.ne_nil_of_mem member)
  | making s =>
      have sound := Sound.run reached.2.2.2.1
      refine ⟨fun result => ?_, fun _ => Infrastructure.cause_of_making reached, ?_⟩
      · obtain ⟨all, -⟩ := sound.left (by rw [show s.result = some none from result]; rfl)
        refine ⟨?_, reached.2.2.1, fun i hi => ?_⟩
        · rintro maker (_ | ⟨_, member⟩)
          · exact reached.1
          · refine reached.2.2.2.2 maker ?_
            rwa [all, List.take_length]
        · obtain ⟨made, done⟩ := sound.returned result hi
          refine ⟨made, ?_, Infrastructure.made_iff reached done⟩
          have outcome : (s.tasks[i]?).bind Task.outcome? = some (.ok made) := done
          simp [Infrastructure.made?, Infrastructure.tasks, outcome, Except.toOption]
      · rintro ⟨ended, task, member, active⟩
        obtain ⟨i, here⟩ := List.mem_iff_getElem?.mp member
        exact absurd (sound.all_ended ended here) (Bool.eq_false_iff.mp active)

/-- The maker of the client throws and is caught before the server has been made. -/
theorem infrastructure_verdict_unreachable :
    ∃ (acts : List (InfrastructureAction ℕ)) (s : Infrastructure ℕ),
      Run (Performs (Infrastructure.perform .order fun _ => true)) .checking acts s ∧
      s.result = some (some (.std "unreachable")) ∧ s.made? 0 = some 7 ∧
      s.Verdict .order (fun _ => true) acts := by
  let acts : List (InfrastructureAction ℕ) :=
    [.check, .route (.returned (some ())), .launch, .launch, .make 1 (.threw (.std "unreachable")),
      .requestStop 1, .make 0 (.returned (some 7)), .join, .record 1, .join, .leave]
  have ends : (acts.foldlM (Infrastructure.perform .order fun _ => true) .checking).map (fun s =>
      (s.result, s.made? 0)) = some (some (some (.std "unreachable")), some 7) := by
    decide +kernel
  obtain ⟨s, steps, shown⟩ := Option.map_eq_some_iff.mp ends
  obtain ⟨result, made⟩ := Prod.mk.inj shown
  exact ⟨acts, s, .of_foldlM steps, result, made, infrastructure_verdict (.of_foldlM steps)⟩

/-- A task that uses the locals of a call that has ended: this can happen exactly in an order
service whose HTTP makers are set and whose client has none. -/
theorem infrastructure_left_behind (service : Service) (configured : InfrastructureMaker → Bool) :
    (∃ (acts : List (InfrastructureAction φ)) (s : Infrastructure φ),
      Run (Performs (Infrastructure.perform service configured)) .checking acts s ∧ s.LeftBehind) ↔
    service = .order ∧ configured .httpRouter = true ∧ configured .httpServer = true ∧
      configured .inventoryServiceApiClient = false := by
  constructor
  · rintro ⟨acts, s, run, ended, task, member, active⟩
    have reached := Infrastructure.Reached.run run
    cases s with
    | checking => cases member
    | routing => cases member
    | thrown error s => exact reached.2 (List.ne_nil_of_mem member)
    | making s =>
        obtain ⟨i, here⟩ := List.mem_iff_getElem?.mp member
        have done := (Sound.run reached.2.2.2.1).all_ended ended here
        exact absurd done (Bool.eq_false_iff.mp active)
  · rintro ⟨rfl, router, server, client⟩
    let acts : List (InfrastructureAction φ) :=
      [.check, .route (.returned (some ())), .launch, .launch]
    let launched : State Exception φ := ⟨[.running], 0, false, none, none, []⟩
    have steps : acts.foldlM (Infrastructure.perform .order configured) .checking =
        some (.thrown InfrastructureMaker.inventoryServiceApiClient.notConfigured launched) := by
      simp [acts, Infrastructure.perform, router, server, client, Made.outcomeOr,
        Service.infrastructure, ForkJoin.perform, State.init, launched]
    exact ⟨acts, _, .of_foldlM steps, rfl, .running, List.mem_singleton_self _, rfl⟩

end OrderServices
