import OrderServices.Order.Answer
import OrderServices.Library.Runs
import Mathlib.Data.List.Nodup
import Mathlib.Data.List.Perm.Subperm

/-! One accepted order while its items are being processed. The handlers of the sink run for
each item on their own; whatever they collect passes through synchronous links to the callback,
which runs under its mutex, so that a handler and the callback it reaches are one step. The HTTP
request ends once, and the callback is gone with it. -/
namespace OrderServices

open Json Runs

variable {F : Type}

/-- How a collect comes out: an exception may leave it before or after the result has been
delivered downstream. -/
inductive Exit
  | returned
  | raisedBefore (error : Exception)
  | raisedAfter (error : Exception)
  deriving DecidableEq, Repr

def Exit.collected : Exit → Bool
  | .returned => true
  | .raisedBefore _ => false
  | .raisedAfter _ => true

def Exit.raised : Exit → Option Exception
  | .returned => none
  | .raisedBefore error => some error
  | .raisedAfter error => some error

/-- How far the handlers of one item have come. -/
inductive Stage
  | waiting
  | responded (raised : Option Exception)
  | ended
  deriving DecidableEq, Repr

/-- The error that `handleResponse` has left behind. -/
def Stage.raised : Stage → Option Exception
  | .responded raised => raised
  | _ => none

/-- `ended` is the error, if any, with which the HTTP request has ended. `reports`, `listed` and
`answer` are ghost: every collected result with its item, those that the callback has kept, and the
status it has answered with. -/
structure OrderRun (F : Type) where
  order : Order F
  shared : SharedState F
  data : HandlerData
  stages : List Stage
  ended : Option (Option Exception)
  reports : List (ℕ × OrderItemResult F)
  listed : List (ℕ × OrderItemResult F)
  answer : Option String

/-- The times at which a value is mapped and reaches the callback. -/
structure Times where
  mappedAt : String
  receivedAt : String
  deriving DecidableEq, Repr

/-- `exit` tells how the collect of the handler comes out, if it collects. -/
inductive OrderAction
  | respond (i : ℕ) (response : ProcessOrderItemResponse) (exit : Exit) (times : Times)
  | finish (i : ℕ) (callError : Option Exception) (exit : Exit) (times : Times)
  | deadline (times : Times)
  | endRequest (error : Option Exception)

/-- The run of an order from the moment its items have been sent. -/
def OrderRun.start (order : Order F) (data : HandlerData) : OrderRun F :=
  ⟨order, .accepted order, data, List.replicate order.items.length .waiting, none, [], [], none⟩

/-- The callback keeps what it gets. -/
def OrderRun.listens (s : OrderRun F) : Bool := s.ended.isNone && !s.shared.responseSent

variable [Double F]

/-- A value comes to the callback, which is there until the request has ended. -/
def OrderRun.receive (J : BoostJson F) (s : OrderRun F) (value : OrderState F) (nowString : String) :
    OrderRun F :=
  if s.ended.isSome then s
  else
    let reaction := resultCallback J s.shared value nowString s.data
    { s with
      shared := reaction.shared
      data := reaction.data
      answer := if reaction.done then some (answerStatus value reaction.shared.results) else s.answer }

/-- The sink collects a result for item `i`. -/
def OrderRun.collect (J : BoostJson F) (s : OrderRun F) (i : ℕ) (result : OrderItemResult F)
    (times : Times) : OrderRun F :=
  { s.receive J (mapOrderItemResultToOrderState times.mappedAt result) times.receivedAt with
    reports := s.reports ++ [(i, result)]
    listed := if s.listens then s.listed ++ [(i, result)] else s.listed }

/-- A collect that may be left before the result is delivered. -/
def OrderRun.report (J : BoostJson F) (s : OrderRun F) (i : ℕ) (result : OrderItemResult F)
    (exit : Exit) (times : Times) : OrderRun F :=
  if exit.collected then s.collect J i result times else s

def OrderRun.setStage (s : OrderRun F) (i : ℕ) (stage : Stage) : OrderRun F :=
  { s with stages := s.stages.set i stage }

/-- `endRequest` for item `i` with the error that is set. It swallows what its collect throws. -/
def OrderRun.endItem (J : BoostJson F) (s : OrderRun F) (i : ℕ) (item : OrderItem F)
    (error : Option Exception) (exit : Exit) (times : Times) : OrderRun F :=
  let s := s.setStage i .ended
  match ProcessOrderItemSink.endRequest (ProcessOrderItemSink.consumeMessage item).1 error with
  | some result => s.report J i result exit times
  | none => s

/-- `ProcessOrderSource::endRequest`, which ends the HTTP request while items may be in flight. -/
def OrderRun.endRequest (s : OrderRun F) (error : Option Exception) : OrderRun F :=
  let ended := ProcessOrderSource.endRequest error (some s.shared) s.data
  { s with shared := ended.1.getD s.shared, data := ended.2, ended := some error }

/-- One step of the handlers. The error of `endRequest` is the one that `handleResponse` has raised
or that of the call; a call may also end with neither a response nor an error. -/
def OrderRun.perform (J : BoostJson F) (s : OrderRun F) : OrderAction → Option (OrderRun F)
  | .respond i response exit times =>
      match (processOrderItems s.order)[i]?, s.stages[i]? with
      | some item, some .waiting =>
          let result := ProcessOrderItemSink.handleResponse (ProcessOrderItemSink.consumeMessage item).1
            response
          some ((s.setStage i (.responded exit.raised)).report J i result exit times)
      | _, _ => none
  | .finish i callError exit times =>
      match (processOrderItems s.order)[i]?, s.stages[i]? with
      | some item, some .waiting => some (s.endItem J i item callError exit times)
      | some item, some (.responded raised) =>
          some (s.endItem J i item (raised.or callError) exit times)
      | _, _ => none
  | .deadline times => some (s.receive J (mapToOrderState s.order) times.receivedAt)
  | .endRequest error => if s.ended.isSome then none else some (s.endRequest error)

inductive OrderRun.Step (J : BoostJson F) : OrderRun F → OrderAction → OrderRun F → Prop
  | respond {s : OrderRun F} {i : ℕ} {item : OrderItem F} {response : ProcessOrderItemResponse}
      {exit : Exit} {times : Times} (here : (processOrderItems s.order)[i]? = some item)
      (stage : s.stages[i]? = some .waiting) :
      Step J s (.respond i response exit times)
        ((s.setStage i (.responded exit.raised)).report J i
          (ProcessOrderItemSink.handleResponse (ProcessOrderItemSink.consumeMessage item).1 response)
          exit times)
  | fail {s : OrderRun F} {i : ℕ} {item : OrderItem F} {old : Stage} {callError : Option Exception}
      {error : Exception} {exit : Exit} {times : Times}
      (here : (processOrderItems s.order)[i]? = some item) (stage : s.stages[i]? = some old)
      (unended : old ≠ .ended) (failed : old.raised.or callError = some error) :
      Step J s (.finish i callError exit times)
        ((s.setStage i .ended).report J i
          (ProcessOrderItemSink.failureResult (ProcessOrderItemSink.consumeMessage item).1 error)
          exit times)
  | succeed {s : OrderRun F} {i : ℕ} {old : Stage} {exit : Exit} {times : Times}
      (inRange : i < s.order.items.length) (stage : s.stages[i]? = some old) (unended : old ≠ .ended)
      (unraised : old.raised = none) : Step J s (.finish i none exit times) (s.setStage i .ended)
  | deadline {s : OrderRun F} {times : Times} :
      Step J s (.deadline times) (s.receive J (mapToOrderState s.order) times.receivedAt)
  | endRequest {s : OrderRun F} {error : Option Exception} (goesOn : s.ended = none) :
      Step J s (.endRequest error) (s.endRequest error)

/-- `endRequest` of an item reports the error that it gets, or nothing. -/
theorem OrderRun.step_endItem (J : BoostJson F) {s : OrderRun F} {i : ℕ} {item : OrderItem F}
    {old : Stage} (here : (processOrderItems s.order)[i]? = some item)
    (stage : s.stages[i]? = some old) (unended : old ≠ .ended) (callError : Option Exception)
    (exit : Exit) (times : Times) :
    s.Step J (.finish i callError exit times)
      (s.endItem J i item (old.raised.or callError) exit times) := by
  cases failed : old.raised.or callError with
  | some error => exact .fail here stage unended failed
  | none =>
      obtain ⟨unraised, rfl⟩ := Option.or_eq_none_iff.mp failed
      exact .succeed (lt_of_processOrderItems here) stage unended unraised

theorem OrderRun.perform_step {J : BoostJson F} {s s' : OrderRun F} {a : OrderAction}
    (h : s.perform J a = some s') : s.Step J a s' := by
  cases a with
  | respond i response exit times =>
      simp only [perform] at h
      split at h
      · rename_i item here stage
        cases h
        exact .respond here stage
      · cases h
  | finish i callError exit times =>
      simp only [perform] at h
      split at h
      · rename_i item here stage
        cases h
        exact step_endItem J here stage nofun callError exit times
      · rename_i item raised here stage
        cases h
        exact step_endItem J here stage nofun callError exit times
      · cases h
  | deadline times =>
      cases h
      exact .deadline
  | endRequest error =>
      simp only [perform] at h
      split at h
      · cases h
      · rename_i goesOn
        cases h
        exact .endRequest (Option.not_isSome_iff_eq_none.mp goesOn)

/-- An item that has not ended can be ended, whatever its call has come to. -/
theorem OrderRun.performs_finish (J : BoostJson F) {s : OrderRun F} {i : ℕ} {old : Stage}
    (inRange : i < s.order.items.length) (stage : s.stages[i]? = some old) (unended : old ≠ .ended)
    (callError : Option Exception) (exit : Exit) (times : Times) :
    ∃ s', s.perform J (.finish i callError exit times) = some s' := by
  obtain ⟨item, here⟩ := exists_processOrderItems inRange
  cases old with
  | waiting => exact ⟨_, by simp only [perform, here, stage]; rfl⟩
  | responded raised => exact ⟨_, by simp only [perform, here, stage]; rfl⟩
  | ended => exact absurd rfl unended

theorem OrderRun.performs_respond (J : BoostJson F) {s : OrderRun F} {i : ℕ}
    (inRange : i < s.order.items.length) (stage : s.stages[i]? = some .waiting)
    (response : ProcessOrderItemResponse) (exit : Exit) (times : Times) :
    ∃ s', s.perform J (.respond i response exit times) = some s' := by
  obtain ⟨item, here⟩ := exists_processOrderItems inRange
  exact ⟨_, by simp only [perform, here, stage]; rfl⟩

section Fields

variable (J : BoostJson F) (s : OrderRun F) (value : OrderState F) (now : String) (i : ℕ)
  (result : OrderItemResult F) (exit : Exit) (times : Times)

@[simp] theorem OrderRun.receive_order : (s.receive J value now).order = s.order := by
  unfold receive
  split <;> rfl

@[simp] theorem OrderRun.receive_stages : (s.receive J value now).stages = s.stages := by
  unfold receive
  split <;> rfl

@[simp] theorem OrderRun.receive_ended : (s.receive J value now).ended = s.ended := by
  unfold receive
  split <;> rfl

@[simp] theorem OrderRun.receive_reports : (s.receive J value now).reports = s.reports := by
  unfold receive
  split <;> rfl

@[simp] theorem OrderRun.report_order : (s.report J i result exit times).order = s.order := by
  unfold report
  split
  · exact receive_order J s _ _
  · rfl

@[simp] theorem OrderRun.report_stages : (s.report J i result exit times).stages = s.stages := by
  unfold report
  split
  · exact receive_stages J s _ _
  · rfl

@[simp] theorem OrderRun.report_ended : (s.report J i result exit times).ended = s.ended := by
  unfold report
  split
  · exact receive_ended J s _ _
  · rfl

/-- A collect that fails before it has delivered its result reports nothing. -/
theorem OrderRun.report_reports : (s.report J i result exit times).reports =
    s.reports ++ if exit.collected then [(i, result)] else [] := by
  unfold report
  split
  · rfl
  · exact (List.append_nil _).symm

theorem OrderRun.receive_closed (closed : s.ended.isSome) : s.receive J value now = s := if_pos closed

theorem OrderRun.receive_open (goesOn : s.ended = none) :
    s.receive J value now =
      let reaction := resultCallback J s.shared value now s.data
      { s with
        shared := reaction.shared
        data := reaction.data
        answer := if reaction.done then some (answerStatus value reaction.shared.results)
          else s.answer } := by
  rw [receive, goesOn]
  rfl

end Fields

theorem OrderRun.perform_order {J : BoostJson F} {s s' : OrderRun F} {a : OrderAction}
    (step : s.perform J a = some s') : s'.order = s.order := by
  cases perform_step step with
  | respond here stage => exact report_order ..
  | fail here stage unended failed => exact report_order ..
  | succeed => rfl
  | deadline => exact receive_order ..
  | endRequest => rfl

omit [Double F] in
theorem OrderRun.listens_eq_true {s : OrderRun F} :
    s.listens = true ↔ s.ended = none ∧ s.shared.responseSent = false := by
  simp [listens]

/-! ## What the ghosts stand for -/

omit [Double F]

/-- The status of an answer that no deadline has forced. -/
def fullStatus (results : List (OrderItemResult F)) : String :=
  if results.all (·.reserved) then "CONFIRMED" else "PARTIALLY_CONFIRMED"

/-- As many different items as the order has are all of them. -/
theorem all_listed {n : ℕ} {listed : List ℕ} (nodup : listed.Nodup) (inRange : ∀ i ∈ listed, i < n)
    (full : listed.length = n) {i : ℕ} (hi : i < n) : i ∈ listed := by
  have perm : listed.Perm (List.range n) := by
    refine (List.subperm_of_subset nodup fun j hj => ?_).perm_of_length_le (by simp [full])
    exact List.mem_range.mpr (inRange j hj)
  exact perm.mem_iff.mpr (List.mem_range.mpr hi)

structure OrderRun.Sound (s : OrderRun F) : Prop where
  stages : s.stages.length = s.order.items.length
  order : s.shared.order = s.order
  expected : s.shared.expectedItems = s.order.items.length
  results : s.shared.results = s.listed.map Prod.snd
  sent : s.shared.responseSent = s.answer.isSome
  inRange : ∀ p ∈ s.reports, p.1 < s.order.items.length
  kept : s.listed <+: s.reports
  unanswered : s.answer = none → s.listed.length < s.order.items.length
  whole : s.answer = none → s.ended = none → s.listed = s.reports
  answered : ∀ status, s.answer = some status → status = "TIMED_OUT" ∨
    s.listed.length = s.order.items.length ∧ status = fullStatus (s.listed.map Prod.snd)

theorem OrderRun.Sound.start {order : Order F} (data : HandlerData)
    (waits : 0 < order.items.length) : Sound (.start order data) where
  stages := List.length_replicate
  order := rfl
  expected := rfl
  results := rfl
  sent := rfl
  inRange := by simp [OrderRun.start]
  kept := List.prefix_refl _
  unanswered := fun _ => waits
  whole := fun _ _ => rfl
  answered := fun _ impossible => by cases impossible

theorem OrderRun.Sound.setStage {s : OrderRun F} (h : s.Sound) (i : ℕ) (stage : Stage) :
    (s.setStage i stage).Sound :=
  { h with stages := List.length_set.trans h.stages }

theorem mapped_inTime [Zero F] (now : String) (result : OrderItemResult F) :
    (mapOrderItemResultToOrderState now result).status ≠ "TIMED_OUT" := by
  cases reserved : result.reserved <;> simp [mapOrderItemResultToOrderState, reserved]

theorem answerStatus_inTime {value : OrderState F} (inTime : value.status ≠ "TIMED_OUT")
    (results : List (OrderItemResult F)) : answerStatus value results = fullStatus results := by
  rw [answerStatus, if_pos inTime, fullStatus]

variable [Double F]

/-- What is collected after the answer or after the end of the request is only reported. -/
theorem OrderRun.collect_closed (J : BoostJson F) {s : OrderRun F} (i : ℕ)
    (result : OrderItemResult F) (times : Times) (closed : s.listens = false) :
    s.collect J i result times = { s with reports := s.reports ++ [(i, result)] } := by
  unfold collect
  rw [closed]
  by_cases ended : s.ended.isSome
  · rw [receive_closed J s _ _ ended]
    rfl
  · have goesOn := Option.not_isSome_iff_eq_none.mp ended
    have sent : s.shared.responseSent = true := by simpa [listens, goesOn] using closed
    rw [receive_open J s _ _ goesOn, resultCallback_sent J _ _ _ sent]
    rfl

theorem OrderRun.collect_missing (J : BoostJson F) {s : OrderRun F} (i : ℕ)
    (result : OrderItemResult F) (times : Times) (listens : s.listens = true)
    (missing : (s.shared.results ++ [result]).length < s.shared.expectedItems) :
    s.collect J i result times =
      { s with
        shared := { s.shared with results := s.shared.results ++ [result] }
        reports := s.reports ++ [(i, result)]
        listed := s.listed ++ [(i, result)] } := by
  obtain ⟨goesOn, unanswered⟩ := listens_eq_true.mp listens
  unfold collect
  rw [receive_open J s _ _ goesOn,
    resultCallback_missing J _ _ _ unanswered (mapped_inTime _ _) missing, if_pos listens]
  rfl

theorem OrderRun.collect_complete (J : BoostJson F) {s : OrderRun F} (i : ℕ)
    (result : OrderItemResult F) (times : Times) (listens : s.listens = true)
    (complete : s.shared.expectedItems ≤ (s.shared.results ++ [result]).length) :
    s.collect J i result times =
      let results := s.shared.results ++ [result]
      { s with
        shared := { s.shared with results, responseSent := true }
        data := s.data.reply 200 "application/json" (makeResponse J times.receivedAt
          s.shared.order.id (fullStatus results) results (answerTotal s.shared.order results))
        reports := s.reports ++ [(i, result)]
        listed := s.listed ++ [(i, result)]
        answer := some (fullStatus results) } := by
  obtain ⟨goesOn, unanswered⟩ := listens_eq_true.mp listens
  unfold collect
  rw [receive_open J s _ _ goesOn,
    resultCallback_complete J _ _ _ unanswered (mapped_inTime _ _) complete, if_pos listens]
  simp only [writeAnswer, answerStatus_inTime (mapped_inTime _ _)]
  rfl

theorem OrderRun.Sound.collect {s : OrderRun F} (h : s.Sound) (J : BoostJson F) {i : ℕ}
    (bound : i < s.order.items.length) (result : OrderItemResult F) (times : Times) :
    (s.collect J i result times).Sound := by
  have inRange : ∀ p ∈ s.reports ++ [(i, result)], p.1 < s.order.items.length := by
    intro p hp
    rcases List.mem_append.mp hp with old | new
    · exact h.inRange p old
    · rw [List.mem_singleton.mp new]
      exact bound
  have results : s.shared.results ++ [result] = (s.listed ++ [(i, result)]).map Prod.snd := by
    rw [h.results, List.map_append]
    rfl
  have longer : (s.shared.results ++ [result]).length = s.listed.length + 1 := by
    rw [h.results, List.length_append, List.length_map, List.length_singleton]
  cases listens : s.listens with
  | false =>
      rw [collect_closed J i result times listens]
      refine { h with inRange, kept := h.kept.trans (List.prefix_append _ _), whole := ?_ }
      intro unanswered goesOn
      have sent := h.sent
      rw [unanswered] at sent
      exact absurd (listens.symm.trans (listens_eq_true.mpr ⟨goesOn, sent⟩)) Bool.false_ne_true
  | true =>
      obtain ⟨goesOn, unsent⟩ := listens_eq_true.mp listens
      have answer : s.answer = none := by
        rw [← Option.not_isSome_iff_eq_none, ← h.sent, unsent]
        exact Bool.false_ne_true
      have missing := h.unanswered answer
      have same : s.listed ++ [(i, result)] = s.reports ++ [(i, result)] := by
        rw [h.whole answer goesOn]
      have kept : s.listed ++ [(i, result)] <+: s.reports ++ [(i, result)] :=
        ⟨[], (List.append_nil _).trans same⟩
      by_cases enough : s.shared.expectedItems ≤ (s.shared.results ++ [result]).length
      · rw [collect_complete J i result times listens enough]
        rw [h.expected, longer] at enough
        have full : (s.listed ++ [(i, result)]).length = s.order.items.length := by
          rw [List.length_append, List.length_singleton]
          omega
        refine { h with
          results, sent := rfl, inRange, kept, unanswered := ?_, whole := ?_, answered := ?_ }
        · intro impossible
          cases impossible
        · intro impossible
          cases impossible
        · intro status eq
          cases eq
          exact .inr ⟨full, by simp only [results]⟩
      · rw [collect_missing J i result times listens (Nat.not_le.mp enough)]
        rw [h.expected, longer] at enough
        have short : (s.listed ++ [(i, result)]).length < s.order.items.length := by
          rw [List.length_append, List.length_singleton]
          omega
        refine { h with
          results, inRange, kept, unanswered := fun _ => short, whole := fun _ _ => same,
          answered := ?_ }
        intro status some
        simp only [answer] at some
        cases some

theorem OrderRun.Sound.report {s : OrderRun F} (h : s.Sound) (J : BoostJson F) {i : ℕ}
    (bound : i < s.order.items.length) (result : OrderItemResult F) (exit : Exit) (times : Times) :
    (s.report J i result exit times).Sound := by
  unfold OrderRun.report
  split
  · exact h.collect J bound result times
  · exact h

/-- A deadline answers with what is listed, unless the order has been answered or its request has
ended. -/
theorem OrderRun.Sound.deadline {s : OrderRun F} (h : s.Sound) (J : BoostJson F) (now : String) :
    (s.receive J (mapToOrderState s.order) now).Sound := by
  have timedOut : (mapToOrderState s.order).status = "TIMED_OUT" := rfl
  by_cases ended : s.ended.isSome
  · rw [receive_closed J s _ _ ended]
    exact h
  · rw [receive_open J s _ _ (Option.not_isSome_iff_eq_none.mp ended)]
    cases sent : s.shared.responseSent with
    | true =>
        rw [resultCallback_sent J _ _ _ sent]
        exact h
    | false =>
        rw [resultCallback_timedOut J _ _ _ sent timedOut]
        refine { h with sent := rfl, unanswered := ?_, whole := ?_, answered := ?_ }
        · intro impossible
          cases impossible
        · intro impossible
          cases impossible
        · intro status eq
          cases eq
          exact .inl rfl

/-- Every step of every handler keeps the record and its ghosts in agreement. -/
theorem OrderRun.Sound.step {J : BoostJson F} {s s' : OrderRun F} {a : OrderAction} (h : s.Sound)
    (step : s.perform J a = some s') : s'.Sound := by
  cases perform_step step with
  | respond here stage =>
      exact (h.setStage _ _).report J (lt_of_processOrderItems here) _ _ _
  | fail here stage unended failed =>
      exact (h.setStage _ _).report J (lt_of_processOrderItems here) _ _ _
  | succeed inRange stage unended unraised => exact h.setStage _ _
  | deadline => exact h.deadline J _
  | endRequest goesOn => exact { h with whole := fun _ impossible => by cases impossible }

theorem OrderRun.Sound.run {J : BoostJson F} {order : Order F} {data : HandlerData}
    {acts : List OrderAction} {s : OrderRun F} (waits : 0 < order.items.length)
    (run : Run (Performs (OrderRun.perform J)) (.start order data) acts s) : s.Sound :=
  run.invariant_all (.start data waits) fun before step => before.step step

end OrderServices
