import OrderServices.Order.Verdict
import OrderServices.System

/-! The services refine the requests that they answer: what the handlers of an order and its
deadline do to the response is a sequence of calls that servicelib makes for its request. -/
namespace OrderServices

open Runs

variable {F : Type}

/-- The id under which servicelib looks for the callback of a value. -/
def ProcessOrderSource.getMessageId (value : OrderState F) : String := value.orderId

structure HttpRun.Serves (h : HttpRun F) (s : OrderRun F) : Prop where
  data : h.data = s.data
  running : s.ended = none → h.phase = .consuming s.shared s.order.id
  ended : ∀ error, s.ended = some error → h.phase = .ended (some s.shared) error
  answered : s.answer.isSome ↔ h.answers ≠ []

variable [Double F]

/-- The calls of servicelib that make the request the one of the order. Each value that reaches
the callback carries the id under which it has been registered. -/
structure OrderRun.Refines (source : ProcessOrderSource) (J : BoostJson F) (ambient : Surroundings)
    (context : MessageContext) (request : HttpRequest) (data : HandlerData)
    (calls : List (HttpAction F)) (h : HttpRun F) (s : OrderRun F) : Prop where
  run : Run (Performs (HttpRun.perform source J ambient context request)) (.start data) calls h
  serves : h.Serves s
  routed : ∀ value now, .callback value now ∈ calls →
    ProcessOrderSource.getMessageId value = s.order.id

section Steps

variable {J : BoostJson F}

omit [Double F] in
theorem orderId_of_processOrderItems {order : Order F} {i : ℕ} {item : OrderItem F}
    (here : (processOrderItems order)[i]? = some item) : item.orderId = order.id := by
  obtain ⟨item, -, rfl⟩ := List.mem_map.mp (List.mem_of_getElem? here)
  rfl

/-- The response is left alone, or the callback runs once, while the request goes on. -/
def OrderRun.CallsBack (J : BoostJson F) (s s' : OrderRun F) : Prop :=
  (s'.shared = s.shared ∧ s'.data = s.data ∧ s'.answer = s.answer) ∨
    s.ended = none ∧ ∃ value now, s'.shared = (resultCallback J s.shared value now s.data).shared ∧
      s'.data = (resultCallback J s.shared value now s.data).data ∧
      s'.answer.isSome = (s.answer.isSome || (resultCallback J s.shared value now s.data).done) ∧
      ProcessOrderSource.getMessageId value = s.order.id

theorem OrderRun.receive_callsBack (s : OrderRun F) (value : OrderState F) (now : String)
    (routed : ProcessOrderSource.getMessageId value = s.order.id) :
    s.CallsBack J (s.receive J value now) := by
  by_cases ended : s.ended.isSome
  · rw [receive_closed J s value now ended]
    exact .inl ⟨rfl, rfl, rfl⟩
  · have goesOn := Option.not_isSome_iff_eq_none.mp ended
    rw [receive_open J s value now goesOn]
    refine .inr ⟨goesOn, value, now, rfl, rfl, ?_, routed⟩
    dsimp only
    cases (resultCallback J s.shared value now s.data).done <;> simp

theorem OrderRun.report_callsBack (s : OrderRun F) (i : ℕ) {result : OrderItemResult F} (exit : Exit)
    (times : Times) (routed : result.orderId = s.order.id) :
    s.CallsBack J (s.report J i result exit times) := by
  unfold report
  split
  · exact receive_callsBack s (mapOrderItemResultToOrderState times.mappedAt result)
      times.receivedAt routed
  · exact .inl ⟨rfl, rfl, rfl⟩

/-- Only its end ends a request, and any other step of its order is at most one call of the
callback. -/
theorem OrderRun.perform_callback {s s' : OrderRun F} {a : OrderAction}
    (step : s.perform J a = some s') (goesOn : ∀ error, a ≠ .endRequest error) :
    s'.ended = s.ended ∧ s.CallsBack J s' := by
  cases perform_step step with
  | respond here stage =>
      exact ⟨report_ended .., report_callsBack _ _ _ _ (orderId_of_processOrderItems here)⟩
  | fail here stage unended failed =>
      exact ⟨report_ended .., report_callsBack _ _ _ _ (orderId_of_processOrderItems here)⟩
  | succeed inRange stage unended unraised => exact ⟨rfl, .inl ⟨rfl, rfl, rfl⟩⟩
  | deadline => exact ⟨receive_ended .., receive_callsBack s _ _ rfl⟩
  | @endRequest error _ => exact absurd rfl (goesOn error)

variable {h : HttpRun F} {s s' : OrderRun F}

theorem HttpRun.Serves.callback (before : h.Serves s) (goesOn : s'.ended = none)
    (same : s'.order = s.order) {value : OrderState F} {now : String}
    (shared : s'.shared = (resultCallback J s.shared value now s.data).shared)
    (data : s'.data = (resultCallback J s.shared value now s.data).data)
    (answer : s'.answer.isSome =
      (s.answer.isSome || (resultCallback J s.shared value now s.data).done)) :
    (h.callback J s.shared s.order.id value now).Serves s' := by
  refine ⟨?_, fun _ => ?_, fun error ended => ?_, ?_⟩
  · simp only [HttpRun.callback, before.data, data]
  · simp only [HttpRun.callback, before.data, shared, same]
  · rw [goesOn] at ended
    cases ended
  · rw [answer, Bool.or_eq_true, before.answered]
    simp only [HttpRun.callback, before.data]
    cases (resultCallback J s.shared value now s.data).done <;> simp

omit [Double F] in
theorem HttpRun.Serves.endRequest (before : h.Serves s) (goesOn : s.ended = none)
    (error : Option Exception) : (h.endRequest error).Serves (s.endRequest error) := by
  have state : h.phase.state = some s.shared := by
    rw [before.running goesOn]
    rfl
  refine ⟨?_, fun impossible => (nomatch impossible), fun error' ended => ?_, before.answered⟩
  · simp only [HttpRun.endRequest, OrderRun.endRequest, state, before.data]
  · cases ended
    simp only [HttpRun.endRequest, state]
    rfl

variable {source : ProcessOrderSource} {ambient : Surroundings} {context context' : MessageContext}
  {request : HttpRequest} {data data' : HandlerData} {calls : List (HttpAction F)} {a : OrderAction}

theorem OrderRun.Refines.start {shared : SharedState F}
    (accepted : source.beginRequest J ambient context request data = (.ok (context', shared), data')) :
    ∃ calls h, (OrderRun.start shared.order data').Refines source J ambient context request data calls h := by
  obtain ⟨-, -, record⟩ := ProcessOrderSource.beginRequest_ok accepted
  have begun : HttpRun.perform source J ambient context request (.start data) .beginRequest =
      some ⟨.accepted shared, data', []⟩ := by
    simp only [HttpRun.perform, HttpRun.start, accepted]
  have consumed : HttpRun.perform source J ambient context request ⟨.accepted shared, data', []⟩
      .consumeMessage = some ⟨.consuming shared shared.order.id, data', []⟩ := rfl
  refine ⟨_, _, (Run.nil.snoc begun).snoc consumed, ⟨rfl, fun _ => ?_, ?_, by simp [OrderRun.start]⟩, ?_⟩
  · rw [record]
    rfl
  · intro error impossible
    cases impossible
  · intro value now called
    simp at called

/-- Every step of the order is none, or one, of the calls of servicelib. -/
theorem OrderRun.Refines.step (before : s.Refines source J ambient context request data calls h)
    (step : s.perform J a = some s') :
    ∃ calls' h', s'.Refines source J ambient context request data calls' h' := by
  have same := perform_order step
  by_cases unended : ∀ error, a ≠ .endRequest error
  · obtain ⟨still, ⟨shared, data, answer⟩ | ⟨goesOn, value, now, shared, data, answer, id⟩⟩ :=
      perform_callback step unended
    · refine ⟨calls, h, before.run, ⟨before.serves.data.trans data.symm, ?_, ?_, ?_⟩, ?_⟩
      · rw [still, shared, same]
        exact before.serves.running
      · rw [still, shared]
        exact before.serves.ended
      · rw [answer]
        exact before.serves.answered
      · rw [same]
        exact before.routed
    · have phase := before.serves.running goesOn
      refine ⟨calls ++ [.callback value now], h.callback J s.shared s.order.id value now,
        before.run.snoc ?_, before.serves.callback (still.trans goesOn) same shared data answer, ?_⟩
      · simp only [Performs, HttpRun.perform, phase]
      · intro value' now' called
        rw [same]
        rcases List.mem_append.mp called with earlier | last
        · exact before.routed value' now' earlier
        · cases List.mem_singleton.mp last
          exact id
  · push Not at unended
    obtain ⟨error, rfl⟩ := unended
    cases perform_step step with
    | endRequest goesOn =>
        have phase := before.serves.running goesOn
        refine ⟨calls ++ [.endRequest error], h.endRequest error, before.run.snoc ?_,
          before.serves.endRequest goesOn error, ?_⟩
        · simp only [Performs, HttpRun.perform, phase]
        · intro value now called
          exact before.routed value now (by simpa using called)

/-- Every order of a run has been accepted in it and goes the way of its request. -/
theorem System.orders_refine {s : System F} {acts : List (SystemAction F)}
    (run : Run (Performs (System.perform source J)) .init acts s) :
    ∀ order ∈ s.orders, ∃ ambient context request data calls h,
      .accept ambient context request data ∈ acts ∧
      order.Refines source J ambient context request data calls h := by
  induction run with
  | nil =>
      intro order member
      cases member
  | @snoc acts s s' a run step ih =>
      have earlier : ∀ order ∈ s.orders, ∃ ambient context request data calls h,
          .accept ambient context request data ∈ acts ++ [a] ∧
          order.Refines source J ambient context request data calls h := by
        intro order member
        obtain ⟨ambient, context, request, data, calls, h, accepted, refines⟩ := ih order member
        exact ⟨ambient, context, request, data, calls, h, List.mem_append_left _ accepted, refines⟩
      have handled {o : ℕ} {before after : OrderRun F} {b : OrderAction}
          (here : s.orders[o]? = some before) (handled : before.perform J b = some after) :
          ∀ order ∈ s.orders.set o after, ∃ ambient context request data calls h,
            .accept ambient context request data ∈ acts ++ [a] ∧
            order.Refines source J ambient context request data calls h := by
        intro order member
        rcases List.mem_or_eq_of_mem_set member with old | rfl
        · exact earlier order old
        · obtain ⟨ambient, context, request, data, calls, h, accepted, refines⟩ :=
            earlier before (List.mem_of_getElem? here)
          obtain ⟨calls', h', refines'⟩ := refines.step handled
          exact ⟨ambient, context, request, data, calls', h', accepted, refines'⟩
      cases perform_step step with
      | @accept ambient context context' request data data' shared accepted =>
          intro order member
          rcases List.mem_append.mp member with old | new
          · exact earlier order old
          · rw [List.mem_singleton.mp new]
            obtain ⟨calls, h, refines⟩ := OrderRun.Refines.start accepted
            exact ⟨ambient, context, request, data, calls, h, by simp, refines⟩
      | reject => exact earlier
      | deliver asked invoked => exact earlier
      | serve running performed => exact earlier
      | answer origin responded here performed => exact handled here performed
      | handle silent here performed => exact handled here performed

end Steps

/-- Whatever the handlers of all orders do, and in whichever order, the response to each of them is
what its own request gets if servicelib calls the source alone. -/
theorem orders_refine_http {source : ProcessOrderSource} {J : BoostJson F} {s : System F}
    {acts : List (SystemAction F)} (nonempty : ∀ members, J.serialize (.object members) ≠ "")
    (run : Run (Performs (System.perform source J)) .init acts s)
    (fresh : ∀ ambient context request data, .accept ambient context request data ∈ acts →
      ∃ status contentType, data = .fresh status contentType) :
    ∀ order ∈ s.orders, ∃ ambient context request status contentType calls h,
      .accept ambient context request (.fresh status contentType) ∈ acts ∧
      order.Refines source J ambient context request (.fresh status contentType) calls h ∧
      h.OneVerdict J (source.beginRequest J ambient context request (.fresh status contentType)).1
        (.fresh status contentType) := by
  intro order member
  obtain ⟨ambient, context, request, data, calls, h, accepted, refines⟩ :=
    System.orders_refine run order member
  obtain ⟨status, contentType, rfl⟩ := fresh _ _ _ _ accepted
  exact ⟨ambient, context, request, status, contentType, calls, h, accepted, refines,
    (HttpRun.Settled.run nonempty refines.run).oneVerdict⟩

/-- The answer is written when an item and the deadline have come, and the request ends with an error
that comes too late. The other item comes after that. -/
theorem orders_refine_http_timedOut :
    ∃ (acts : List (SystemAction ℚ)) (s : System ℚ),
      Run (Performs (System.perform {} (twoItemsBoost timedOutAnswer))) .init acts s ∧
      s.orders.map (fun order => (order.answer, order.data.responseBody)) =
        [(some "TIMED_OUT", timedOutAnswer)] ∧
      ∀ order ∈ s.orders, ∃ ambient context request status contentType calls h,
        .accept ambient context request (.fresh status contentType) ∈ acts ∧
        order.Refines {} (twoItemsBoost timedOutAnswer) ambient context request
          (.fresh status contentType) calls h ∧
        h.OneVerdict (twoItemsBoost timedOutAnswer) (ProcessOrderSource.beginRequest {}
          (twoItemsBoost timedOutAnswer) ambient context request (.fresh status contentType)).1
          (.fresh status contentType) := by
  let J : BoostJson ℚ := twoItemsBoost timedOutAnswer
  let times : Times := ⟨"2026-08-16T12:00:01Z", "2026-08-16T12:00:01Z"⟩
  let started : System ℚ :=
    { (System.init : System ℚ) with orders := [.start twoItemsOrder (.fresh 0 "")] }
  have accepted : System.init.perform {} J (.accept noon ⟨none, false⟩ twoItemsRequest (.fresh 0 "")) =
      some started := by
    simp only [System.perform, J, twoItems_started]
    rfl
  let acts : List (SystemAction ℚ) :=
    [.handle 0 (.finish 1 (some (.std "unavailable")) .returned times), .handle 0 (.deadline times),
      .handle 0 (.endRequest (some (.std "timeout"))),
      .handle 0 (.finish 0 (some .other) .returned times)]
  have ends : (acts.foldlM (System.perform {} J) started).map (fun s =>
      s.orders.map fun order => (order.answer, order.data.responseBody)) =
        some [(some "TIMED_OUT", timedOutAnswer)] := by
    decide +kernel
  obtain ⟨s, rest, shown⟩ := Option.map_eq_some_iff.mp ends
  have all : (SystemAction.accept noon ⟨none, false⟩ twoItemsRequest (.fresh 0 "") :: acts).foldlM
      (System.perform {} J) .init = some s := by
    rw [List.foldlM_cons, accepted]
    exact rest
  refine ⟨_, s, .of_foldlM all, shown, orders_refine_http (fun _ => timedOutAnswer_ne) (.of_foldlM all) ?_⟩
  intro ambient context request data member
  rcases List.mem_cons.mp member with eq | rest
  · cases eq
    exact ⟨0, "", rfl⟩
  · simp [acts] at rest

end OrderServices
