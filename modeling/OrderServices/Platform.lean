import OrderServices.Accounting
import OrderServices.Analytics.Topic
import OrderServices.Order.Deadline

/-! The three services together. Whatever passes through Merge Results is also handed to the
publishing branch, which turns it into an event and sends it to the topic, later or never; the
analytics service reads the topic at its own pace. -/
namespace OrderServices

open Runs

variable {F : Type}

structure Platform (F : Type) where
  services : System F
  /-- What Split Order Result has handed to Map To Order Processed. -/
  outbox : List (OrderState F)
  topic : Delivery.State String (String × OrderProcessed) Counters
  /-- Ghost: the positions in the outbox of the messages of the topic. -/
  sent : List ℕ

inductive PlatformAction (F : Type)
  | act (a : SystemAction F)
  /-- Value `n` of the outbox is mapped to its event, and the message of the event is sent. -/
  | publish (n : ℕ)
  | consume (a : Delivery.Action String)

def PlatformAction.act? : PlatformAction F → Option (SystemAction F)
  | .act a => some a
  | _ => none

def SystemAction.isDeadline : SystemAction F → Bool
  | .handle _ a => a.isDeadline
  | _ => false

def PlatformAction.isDeadline : PlatformAction F → Bool
  | .act a => a.isDeadline
  | _ => false

variable [Double F]

def Platform.init (J : BoostJson F) : Platform F :=
  ⟨.init, [], .init (orderProcessedConsumer J), []⟩

/-- What a collect passes through Merge Results. -/
def Exit.passes (exit : Exit) (result : OrderItemResult F) (times : Times) : List (OrderState F) :=
  if exit.collected then [mapOrderItemResultToOrderState times.mappedAt result] else []

/-- The values that a handler passes through Merge Results. -/
def OrderRun.passes (s : OrderRun F) : OrderAction → List (OrderState F)
  | .respond i response exit times =>
      match (processOrderItems s.order)[i]? with
      | some item =>
          exit.passes (ProcessOrderItemSink.handleResponse (ProcessOrderItemSink.consumeMessage item).1
            response) times
      | none => []
  | .finish i callError exit times =>
      match (processOrderItems s.order)[i]?, s.stages[i]? with
      | some item, some stage =>
          match ProcessOrderItemSink.endRequest (ProcessOrderItemSink.consumeMessage item).1
            (stage.raised.or callError) with
          | some result => exit.passes result times
          | none => []
      | _, _ => []
  | .deadline _ => [mapToOrderState s.order]
  | .endRequest _ => []

def System.passes (s : System F) : SystemAction F → List (OrderState F)
  | .answer o i k exit times =>
      match s.inventory.response? k, s.orders[o]? with
      | some response, some run => run.passes (.respond i response exit times)
      | _, _ => []
  | .handle o a =>
      match s.orders[o]? with
      | some run => run.passes a
      | none => []
  | _ => []

def Platform.perform (source : ProcessOrderSource) (J : BoostJson F) (p : Platform F) :
    PlatformAction F → Option (Platform F)
  | .act a => do
      let services ← p.services.perform source J a
      return { p with services, outbox := p.outbox ++ p.services.passes a }
  | .publish n => do
      let value ← p.outbox[n]?
      let message := OrderProcessedEndpointSink.consumeMessage J (mapToOrderProcessed value)
      let topic ← Delivery.perform (orderProcessedConsumer J) p.topic (.append message.value)
      return { p with topic, sent := p.sent ++ [n] }
  | .consume a =>
      if a.isAppend then none
      else do
        let topic ← Delivery.perform (orderProcessedConsumer J) p.topic a
        return { p with topic }

/-- The steps of the platform when nothing fails in the order service. -/
def Platform.smooth (source : ProcessOrderSource) (J : BoostJson F) :
    Platform F → PlatformAction F → Option (Platform F) :=
  guarded (fun p a => ∀ b ∈ a.act?, b.Smooth p.services) (perform source J)

inductive Platform.Step (source : ProcessOrderSource) (J : BoostJson F) :
    Platform F → PlatformAction F → Platform F → Prop
  | act {p : Platform F} {a : SystemAction F} {services : System F}
      (acted : p.services.perform source J a = some services) :
      Step source J p (.act a) { p with services, outbox := p.outbox ++ p.services.passes a }
  | publish {p : Platform F} {n : ℕ} {value : OrderState F} (passed : p.outbox[n]? = some value) :
      Step source J p (.publish n)
        { p with
          topic := { p.topic with
            log := p.topic.log ++
              [(OrderProcessedEndpointSink.consumeMessage J (mapToOrderProcessed value)).value] }
          sent := p.sent ++ [n] }
  | consume {p : Platform F} {a : Delivery.Action String}
      {topic : Delivery.State String (String × OrderProcessed) Counters} (reads : a.isAppend = false)
      (consumed : Delivery.perform (orderProcessedConsumer J) p.topic a = some topic) :
      Step source J p (.consume a) { p with topic }

section Steps

variable {source : ProcessOrderSource} {J : BoostJson F} {p p' : Platform F} {a : PlatformAction F}

theorem Platform.perform_step (h : p.perform source J a = some p') : p.Step source J a p' := by
  cases a with
  | act a =>
      obtain ⟨services, acted, h⟩ := Option.bind_eq_some_iff.mp h
      cases h
      exact .act acted
  | publish n =>
      obtain ⟨value, passed, h⟩ := Option.bind_eq_some_iff.mp h
      cases h
      exact .publish passed
  | consume a =>
      simp only [perform] at h
      split at h
      · cases h
      · rename_i reads
        obtain ⟨topic, consumed, h⟩ := Option.bind_eq_some_iff.mp h
        cases h
        exact .consume (Bool.not_eq_true _ ▸ reads) consumed

theorem Platform.perform_act {b : SystemAction F} (step : p.perform source J a = some p')
    (act : a.act? = some b) : p.services.perform source J b = some p'.services := by
  cases perform_step step with
  | act acted =>
      cases act
      exact acted
  | publish passed => cases act
  | consume reads consumed => cases act

theorem Platform.perform_other (step : p.perform source J a = some p') (other : a.act? = none) :
    p'.services = p.services := by
  cases perform_step step with
  | act acted => cases other
  | publish passed => rfl
  | consume reads consumed => rfl

/-- The order and the inventory service run as they do without the topic. -/
theorem Platform.services_run {acts : List (PlatformAction F)}
    (run : Run (Performs (Platform.perform source J)) (.init J) acts p) :
    Run (Performs (System.perform source J)) .init (acts.filterMap PlatformAction.act?) p.services :=
  run.project (f := Platform.services) (g := PlatformAction.act?) perform_act perform_other

theorem Platform.services_smooth {acts : List (PlatformAction F)}
    (run : Run (Performs (Platform.smooth source J)) (.init J) acts p) :
    Run (Performs (System.smooth source J)) .init (acts.filterMap PlatformAction.act?) p.services := by
  refine run.project (f := Platform.services) (g := PlatformAction.act?) ?_ ?_
  · intro p a p' b step act
    obtain ⟨smooth, step⟩ := guarded_eq_some.mp step
    exact guarded_eq_some.mpr ⟨smooth b act, perform_act step act⟩
  · intro p a p' step other
    exact perform_other (guarded_eq_some.mp step).2 other

/-- The topic is read as it would be without the services that fill it. -/
theorem Platform.topic_run {acts : List (PlatformAction F)}
    (run : Run (Performs (Platform.perform source J)) (.init J) acts p) :
    ∃ reads, Run (Performs (Delivery.perform (orderProcessedConsumer J)))
      (.init (orderProcessedConsumer J)) reads p.topic := by
  induction run with
  | nil => exact ⟨[], .nil⟩
  | @snoc acts p p' a run step ih =>
      obtain ⟨reads, before⟩ := ih
      cases perform_step step with
      | act acted => exact ⟨reads, before⟩
      | @publish n value passed =>
          have appended : Performs (Delivery.perform (orderProcessedConsumer J)) p.topic
            (.append (OrderProcessedEndpointSink.consumeMessage J (mapToOrderProcessed value)).value) _ := rfl
          exact ⟨_, before.snoc appended⟩
      | consume reads' consumed => exact ⟨_, before.snoc consumed⟩

/-! ## What passes through Merge Results -/

/-- How many of the values are counted as confirmed, or as not. -/
def countedAs (confirmed : Bool) (values : List (OrderState F)) : ℕ :=
  values.countP fun value => (mapToOrderProcessed value).confirmed == confirmed

omit [Double F] in
theorem countedAs_append (confirmed : Bool) (values more : List (OrderState F)) :
    countedAs confirmed (values ++ more) = countedAs confirmed values + countedAs confirmed more :=
  List.countP_append

theorem mapToOrderProcessed_confirmed (now : String) (result : OrderItemResult F) :
    (mapToOrderProcessed (mapOrderItemResultToOrderState now result)).confirmed = result.reserved := by
  cases reserved : result.reserved <;>
    simp [mapToOrderProcessed, mapOrderItemResultToOrderState, OrderProcessed.confirmed, reserved]

omit [Double F] in
theorem mapToOrderProcessed_timedOut (order : Order F) :
    (mapToOrderProcessed (mapToOrderState order)).confirmed = false := by
  simp [mapToOrderProcessed, mapToOrderState, OrderProcessed.confirmed]

omit [Double F] in
/-- How many results of the order have been collected that are reserved, or that are not. -/
def OrderRun.reportedAs (s : OrderRun F) (reserved : Bool) : ℕ :=
  s.reports.countP fun p => p.2.reserved == reserved

omit [Double F] in
def System.reportedAs (s : System F) (reserved : Bool) : ℕ :=
  (s.orders.map fun run => run.reportedAs reserved).sum

/-- How often an action is counted as not confirmed without a result: a deadline once. -/
def timersAs (isDeadline confirmed : Bool) : ℕ := if isDeadline && !confirmed then 1 else 0

/-- A step of an order passes on the result that it reports, the value of the deadline or
nothing. -/
theorem OrderRun.passes_counted {s s' : OrderRun F} {a : OrderAction}
    (step : s.perform J a = some s') (b : Bool) :
    s.reportedAs b + countedAs b (s.passes a) = s'.reportedAs b + timersAs a.isDeadline b := by
  have reported (stage : Stage) (i : ℕ) (result : OrderItemResult F) (exit : Exit) (times : Times) :
      s.reportedAs b + countedAs b (exit.passes result times) =
        ((s.setStage i stage).report J i result exit times).reportedAs b := by
    rw [reportedAs, reportedAs, report_reports, List.countP_append, Exit.passes]
    split
    · rw [countedAs, List.countP_singleton, mapToOrderProcessed_confirmed, List.countP_singleton]
      rfl
    · rfl
  cases perform_step step with
  | @respond i item response exit times here stage =>
      simp only [passes, here]
      exact reported _ _ _ _ _
  | @fail i item old callError error exit times here stage unended failed =>
      simp only [passes, here, stage, failed]
      exact reported _ _ _ _ _
  | @succeed i old exit times inRange stage unended unraised =>
      obtain ⟨item, here⟩ := exists_processOrderItems inRange
      simp only [passes, here, stage, unraised]
      rfl
  | @deadline times =>
      rw [passes, countedAs, List.countP_singleton, mapToOrderProcessed_timedOut, reportedAs,
        reportedAs, receive_reports]
      cases b <;> rfl
  | endRequest => rfl

theorem System.passes_counted {s s' : System F} {a : SystemAction F}
    (step : s.perform source J a = some s') (b : Bool) :
    s.reportedAs b + countedAs b (s.passes a) = s'.reportedAs b + timersAs a.isDeadline b := by
  -- A handler changes one summand, and nothing else passes anything on.
  have handled {o : ℕ} {run run' : OrderRun F} {a : OrderAction} (here : s.orders[o]? = some run)
      (handled : run.perform J a = some run') :
      s.reportedAs b + countedAs b (run.passes a) =
        reportedAs { s with orders := s.orders.set o run' } b + timersAs a.isDeadline b := by
    have one := OrderRun.passes_counted handled b
    have all := Matching.sum_map_set (fun run => run.reportedAs b) here run'
    change (s.orders.map fun run => run.reportedAs b).sum + _ =
      ((s.orders.set o run').map fun run => run.reportedAs b).sum + _
    omega
  cases perform_step step with
  | accept accepted =>
      simp only [reportedAs, List.map_append, List.sum_append]
      rfl
  | reject => rfl
  | deliver asked invoked => rfl
  | serve running served => rfl
  | answer origin responded here performed =>
      simp only [passes, responded, here]
      exact handled here performed
  | handle silent here performed =>
      simp only [passes, here]
      exact handled here performed

theorem Platform.outbox_counted {acts : List (PlatformAction F)}
    (run : Run (Performs (Platform.perform source J)) (.init J) acts p) (b : Bool) :
    countedAs b p.outbox = p.services.reportedAs b + (acts.map fun a => timersAs a.isDeadline b).sum := by
  induction run with
  | nil => rfl
  | @snoc acts p p' a run step ih =>
      rw [List.map_append, List.sum_append, List.map_singleton, List.sum_singleton]
      cases perform_step step with
      | act acted =>
          have passed := System.passes_counted acted b
          rw [countedAs_append, ih]
          change _ = System.reportedAs _ b + (_ + timersAs _ b)
          simp only [PlatformAction.isDeadline] at *
          omega
      | publish passed => exact ih
      | consume reads consumed => exact ih

/-! ## What reaches the topic -/

/-- The text of the message that is sent for a value of the outbox. -/
def messageText (J : BoostJson F) (value : OrderState F) : String :=
  (OrderProcessedEndpointSink.consumeMessage J (mapToOrderProcessed value)).value

/-- The source reads the event that the sink has written. -/
theorem orderProcessedConsumer_messageText {value : OrderState F}
    (inverts : J.Inverts (mapToOrderProcessed value).valueFrom) :
    (orderProcessedConsumer J).decode (messageText J value) =
      some ((mapToOrderProcessed value).orderId, mapToOrderProcessed value) := by
  have read := OrderProcessedSerde.valueOfText_serialize
    (OrderProcessed.valueTo_reread (mapToOrderProcessed value)) inverts
  have task := congrArg (· >>= fun event => Except.ok (event.orderId, event)) read
  exact congrArg Except.toOption task

/-- Every message is one of the outbox, in the order in which they have been sent. -/
theorem Platform.log_sent {acts : List (PlatformAction F)}
    (run : Run (Performs (Platform.perform source J)) (.init J) acts p) :
    p.topic.log.map some = p.sent.map fun n => (p.outbox[n]?).map (messageText J) := by
  refine run.invariant_all (I := fun p => p.topic.log.map some =
    p.sent.map fun n => (p.outbox[n]?).map (messageText J)) rfl ?_
  intro p a p' before step
  cases perform_step step with
  | @act a services acted =>
      rw [before]
      refine List.map_congr_left fun n sent => ?_
      -- What has been sent is in the outbox, which only grows at its end.
      have there : (p.outbox[n]?).map (messageText J) ∈ p.topic.log.map some :=
        before ▸ List.mem_map_of_mem sent
      obtain ⟨text, -, eq⟩ := List.mem_map.mp there
      obtain ⟨value, here, -⟩ := Option.map_eq_some_iff.mp eq.symm
      rw [here, Delivery.getElem?_append_of_some here]
  | @publish n value passed =>
      change (p.topic.log ++ [messageText J value]).map some = (p.sent ++ [n]).map _
      rw [List.map_append, List.map_append, before, List.map_singleton, List.map_singleton, passed]
      rfl
  | consume reads consumed =>
      rw [Delivery.perform_log reads consumed]
      exact before

/-- If every value of the outbox has been sent once, the topic holds the outbox in some order. -/
theorem Platform.log_perm {acts : List (PlatformAction F)}
    (run : Run (Performs (Platform.perform source J)) (.init J) acts p)
    (published : p.sent.Perm (List.range p.outbox.length)) :
    p.topic.log.Perm (p.outbox.map (messageText J)) := by
  have values := congrArg (List.map (Option.map (messageText J))) (Delivery.map_getElem?_range p.outbox)
  have texts : (p.outbox.map some).map (Option.map (messageText J)) =
      (p.outbox.map (messageText J)).map some := by
    rw [List.map_map, List.map_map]
    rfl
  rw [List.map_map, texts] at values
  have perm := published.map fun n => (p.outbox[n]?).map (messageText J)
  rw [← log_sent run] at perm
  exact (List.map_perm_map_iff (Option.some_injective _)).mp (perm.trans (List.Perm.of_eq values))

omit [Double F] in
theorem tally_outbox (values : List (OrderState F)) :
    Counters.tally (values.map mapToOrderProcessed) =
      ⟨.ofNat (countedAs true values), .ofNat (countedAs false values)⟩ := by
  simp [Counters.tally, countedAs, List.countP_map, Function.comp_def]

omit [Double F] in
theorem sum_timersAs (acts : List (PlatformAction F)) :
    (acts.map fun a => timersAs a.isDeadline true).sum = 0 ∧
      (acts.map fun a => timersAs a.isDeadline false).sum = acts.countP PlatformAction.isDeadline := by
  induction acts with
  | nil => exact ⟨rfl, rfl⟩
  | cons a acts ih =>
      obtain ⟨none, all⟩ := ih
      simp only [List.map_cons, List.sum_cons, List.countP_cons, none, all]
      cases a.isDeadline <;> simp [timersAs, Nat.add_comm]

/-- If everything has been sent and counted once, the counters show the outbox. -/
theorem Platform.acc_outbox {acts : List (PlatformAction F)}
    (run : Run (Performs (Platform.perform source J)) (.init J) acts p)
    (inverts : ∀ value ∈ p.outbox, J.Inverts (mapToOrderProcessed value).valueFrom)
    (published : p.sent.Perm (List.range p.outbox.length))
    (counted : (p.topic.applied.map Prod.fst).Perm (List.range p.topic.log.length)) :
    p.topic.acc = ⟨.ofNat (countedAs true p.outbox), .ofNat (countedAs false p.outbox)⟩ := by
  obtain ⟨reads, topic⟩ := topic_run run
  have decoded : (p.outbox.map (messageText J)).filterMap (orderProcessedConsumer J).decode =
      p.outbox.map fun value => ((mapToOrderProcessed value).orderId, mapToOrderProcessed value) := by
    rw [List.filterMap_map, ← List.filterMap_eq_map]
    exact List.filterMap_congr fun value member =>
      orderProcessedConsumer_messageText (inverts value member)
  have events := ((log_perm run published).filterMap (orderProcessedConsumer J).decode).map Prod.snd
  rw [decoded, List.map_map] at events
  rw [Delivery.acc_of_once topic counted, foldl_orderProcessedConsumer, Counters.tally_perm events]
  exact tally_outbox p.outbox

/-- Once every value has been sent and every message has been counted since the last start, the
counters show the collected results, and every deadline as one more failure. -/
theorem counters_show_reports {acts : List (PlatformAction F)}
    (run : Run (Performs (Platform.perform source J)) (.init J) acts p)
    (inverts : ∀ value ∈ p.outbox, J.Inverts (mapToOrderProcessed value).valueFrom)
    (published : p.sent.Perm (List.range p.outbox.length))
    (counted : (p.topic.applied.map Prod.fst).Perm (List.range p.topic.log.length)) :
    p.topic.acc = ⟨.ofNat (p.services.reportedAs true),
      .ofNat (p.services.reportedAs false + acts.countP PlatformAction.isDeadline)⟩ := by
  obtain ⟨none, timers⟩ := sum_timersAs acts
  rw [Platform.acc_outbox run inverts published counted, Platform.outbox_counted run true,
    Platform.outbox_counted run false, none, timers, Nat.add_zero]

omit [Double F] in
theorem System.reportedAs_eq (s : System F) (reserved : Bool) :
    s.reportedAs reserved =
      (s.orders.flatMap fun run => run.reports.map fun p => p.2.reserved).count reserved := by
  simp only [reportedAs, OrderRun.reportedAs, List.count, List.countP_flatMap, List.countP_map,
    Function.comp_def]

/-- If nothing fails in the order service and no item is asked for twice, the counters show what the
inventory service has decided once nobody waits for an item: they count reservations, not orders, and
every deadline as one more failure. -/
theorem counters_show_decisions {acts : List (PlatformAction F)}
    (run : Run (Performs (Platform.smooth source J)) (.init J) acts p)
    (inverts : ∀ value ∈ p.outbox, J.Inverts (mapToOrderProcessed value).valueFrom)
    (published : p.sent.Perm (List.range p.outbox.length))
    (counted : (p.topic.applied.map Prod.fst).Perm (List.range p.topic.log.length))
    (once : p.services.origins.Nodup) (heard : ∀ run ∈ p.services.orders, run.Heard) :
    p.topic.acc = ⟨.ofNat (p.services.inventory.calls.countP Call.succeeded),
      .ofNat ((p.services.inventory.calls.countP fun c => !c.succeeded) +
        acts.countP PlatformAction.isDeadline)⟩ := by
  have services := Platform.services_smooth run
  have decisions := (System.Accounted.run services).decisions
    (System.Consistent.run services.unguarded) once heard
  have reported (b : Bool) : p.services.reportedAs b =
      p.services.inventory.calls.countP fun c => c.succeeded == b := by
    rw [System.reportedAs_eq, ← decisions.count_eq, List.count, List.countP_map]
    rfl
  obtain ⟨none, timers⟩ := sum_timersAs acts
  rw [Platform.acc_outbox run.unguarded inverts published counted,
    Platform.outbox_counted run.unguarded true, Platform.outbox_counted run.unguarded false, none,
    timers, Nat.add_zero, reported, reported]
  simp

end Steps

/-! The two items of an order, one reserved and one unknown, and a deadline that fires after the
answer: three events, one of them CONFIRMED. -/

def twoItemsEventText (status confirmed reason : String) : String :=
  "\x7b\"order_id\":\"order-123\",\"status\":\"" ++ status ++
    "\",\"processed_at\":\"2026-08-16T12:00:01Z\",\"total_items\":1,\"confirmed_items\":" ++
    confirmed ++ ",\"failure_reason\":\"" ++ reason ++ "\"\x7d"

def lateEventText : String :=
  "\x7b\"order_id\":\"order-123\",\"status\":\"TIMED_OUT\",\"processed_at\":\"\"," ++
    "\"total_items\":0,\"confirmed_items\":0,\"failure_reason\":\"TIMED_OUT\"\x7d"

def twoItemsAnswerText : String :=
  "\x7b\"order_id\":\"order-123\",\"status\":\"PARTIALLY_CONFIRMED\",\"total_amount\":2.7E1," ++
    "\"processed_at\":\"2026-08-16T12:00:01Z\",\"confirmed_items\":[" ++
    "\x7b\"item_id\":\"two\",\"sku\":\"missing\",\"available_qty\":0,\"reserved\":false," ++
    "\"status\":\"OUT_OF_STOCK\"\x7d," ++
    "\x7b\"item_id\":\"one\",\"sku\":\"SKU-001\",\"available_qty\":2,\"reserved\":true," ++
    "\"status\":\"CONFIRMED\"\x7d]\x7d"

def reservedEvent : OrderProcessed :=
  ⟨"order-123", "CONFIRMED", "2026-08-16T12:00:01Z", 1, 1, ""⟩

def shortEvent : OrderProcessed :=
  ⟨"order-123", "PARTIALLY_CONFIRMED", "2026-08-16T12:00:01Z", 1, 0, "PARTIALLY_CONFIRMED"⟩

def lateEvent : OrderProcessed := ⟨"order-123", "TIMED_OUT", "", 0, 0, "TIMED_OUT"⟩

/-- The library on the request, the answer and the three events of this order. -/
def twoItemsPlatformBoost : BoostJson ℚ where
  parse text :=
    if text = twoItemsEventText "CONFIRMED" "1" "" then .ok (Json.reread reservedEvent.valueFrom)
    else if text = twoItemsEventText "PARTIALLY_CONFIRMED" "0" "PARTIALLY_CONFIRMED" then
      .ok (Json.reread shortEvent.valueFrom)
    else if text = lateEventText then .ok (Json.reread lateEvent.valueFrom)
    else (twoItemsBoost twoItemsAnswerText).parse text
  serialize value :=
    match value with
    | .object [_, (_, .string status), _, _, _, ("failure_reason", _)] =>
        if status = "CONFIRMED" then twoItemsEventText "CONFIRMED" "1" ""
        else if status = "TIMED_OUT" then lateEventText
        else twoItemsEventText "PARTIALLY_CONFIRMED" "0" "PARTIALLY_CONFIRMED"
    | _ => twoItemsAnswerText
  what := (twoItemsBoost twoItemsAnswerText).what

theorem twoItemsPlatform_started (data : HandlerData) :
    ProcessOrderSource.beginRequest {} twoItemsPlatformBoost noon ⟨none, false⟩ twoItemsRequest data =
      (.ok (⟨some 5000000000, true⟩, .accepted twoItemsOrder), data) := by
  have body : twoItemsPlatformBoost.parse twoItemsRequest.body =
      (twoItemsBoost twoItemsAnswerText).parse twoItemsRequest.body := by
    obtain ⟨first, second, third⟩ : twoItemsBody ≠ twoItemsEventText "CONFIRMED" "1" "" ∧
        twoItemsBody ≠ twoItemsEventText "PARTIALLY_CONFIRMED" "0" "PARTIALLY_CONFIRMED" ∧
        twoItemsBody ≠ lateEventText := by decide +kernel
    simp only [twoItemsRequest, twoItemsPlatformBoost, if_neg first, if_neg second, if_neg third]
  have same : ProcessOrderSource.readOrder twoItemsPlatformBoost noon twoItemsRequest =
      ProcessOrderSource.readOrder (twoItemsBoost twoItemsAnswerText) noon twoItemsRequest := by
    simp only [ProcessOrderSource.readOrder, body]
    rfl
  have started := twoItems_started twoItemsAnswerText data
  simp only [ProcessOrderSource.beginRequest] at started ⊢
  rw [same]
  exact started

def twoItemsAccepted : PlatformAction ℚ :=
  .act (.accept noon ⟨none, false⟩ twoItemsRequest ⟨0, "", "", 0⟩)

def twoItemsSteps : List (PlatformAction ℚ) :=
  let times : Times := ⟨"2026-08-16T12:00:01Z", "2026-08-16T12:00:01Z"⟩
  [.act (.deliver 0 0), .act (.deliver 0 1), .act (.serve (.load 0)), .act (.serve (.respond 1)),
    .act (.answer 0 1 1 .returned times), .publish 0, .act (.serve (.exchange 0 false)),
    .act (.serve (.respond 0)), .act (.answer 0 0 0 .returned times), .consume (.deliver 0),
    .act (.handle 0 (.finish 1 none .returned times)),
    .act (.handle 0 (.finish 0 none .returned times)),
    .act (.handle 0 (.deadline times)), .publish 2, .publish 1, .consume (.deliver 2),
    .consume (.deliver 1), .consume (.apply 1), .consume (.mark 1), .consume (.apply 0),
    .consume (.apply 2), .consume (.mark 2), .consume (.mark 0)]

/-- What the run of these steps leaves in the topic, and what it leaves in the services. -/
theorem twoItemsPlatform_ends :
    ∃ p, Run (Performs (Platform.smooth {} twoItemsPlatformBoost)) (.init twoItemsPlatformBoost)
        (twoItemsAccepted :: twoItemsSteps) p ∧
      (p.outbox.map mapToOrderProcessed, p.sent, p.topic.log.length, p.topic.applied.map Prod.fst) =
        ([shortEvent, reservedEvent, lateEvent], [0, 2, 1], 3, [0, 2, 1]) ∧
      (p.services.origins, p.services.orders.map fun run => (run.answer, run.stages)) =
        ([(0, 0), (0, 1)], [(some "PARTIALLY_CONFIRMED", [.ended, .ended])]) := by
  let started : Platform ℚ := { Platform.init twoItemsPlatformBoost with
    services := { (System.init : System ℚ) with orders := [.start twoItemsOrder ⟨0, "", "", 0⟩] } }
  have accepted : (Platform.init twoItemsPlatformBoost).smooth {} twoItemsPlatformBoost
      twoItemsAccepted = some started := by
    refine guarded_eq_some.mpr ⟨fun b act => by cases act; trivial, ?_⟩
    simp only [twoItemsAccepted, Platform.perform, System.perform, Platform.init,
      twoItemsPlatform_started]
    rfl
  have topic : (twoItemsSteps.foldlM (Platform.smooth {} twoItemsPlatformBoost) started).map
      (fun p => (p.outbox.map mapToOrderProcessed, p.sent, p.topic.log.length,
        p.topic.applied.map Prod.fst)) =
      some ([shortEvent, reservedEvent, lateEvent], [0, 2, 1], 3, [0, 2, 1]) := by
    decide +kernel
  have services : (twoItemsSteps.foldlM (Platform.smooth {} twoItemsPlatformBoost) started).map
      (fun p => (p.services.origins, p.services.orders.map fun run => (run.answer, run.stages))) =
      some ([(0, 0), (0, 1)], [(some "PARTIALLY_CONFIRMED", [.ended, .ended])]) := by
    decide +kernel
  obtain ⟨p, rest, shown⟩ := Option.map_eq_some_iff.mp topic
  have all : (twoItemsAccepted :: twoItemsSteps).foldlM (Platform.smooth {} twoItemsPlatformBoost)
      (.init twoItemsPlatformBoost) = some p := by
    rw [List.foldlM_cons, accepted, Option.bind_eq_bind, Option.bind_some, rest]
  rw [rest] at services
  exact ⟨p, .of_foldlM all, shown, Option.some.inj services⟩

/-- The library reads back the three events. -/
theorem twoItemsPlatform_inverts {outbox : List (OrderState ℚ)}
    (events : outbox.map mapToOrderProcessed = [shortEvent, reservedEvent, lateEvent]) :
    ∀ value ∈ outbox, twoItemsPlatformBoost.Inverts (mapToOrderProcessed value).valueFrom := by
  intro value member
  have event := List.mem_map_of_mem (f := mapToOrderProcessed) member
  rw [events] at event
  simp only [List.mem_cons, List.not_mem_nil, or_false] at event
  obtain ⟨first, second, third⟩ : twoItemsEventText "PARTIALLY_CONFIRMED" "0" "PARTIALLY_CONFIRMED" ≠
        twoItemsEventText "CONFIRMED" "1" "" ∧
      lateEventText ≠ twoItemsEventText "CONFIRMED" "1" "" ∧
      lateEventText ≠ twoItemsEventText "PARTIALLY_CONFIRMED" "0" "PARTIALLY_CONFIRMED" := by
    decide +kernel
  rcases event with eq | eq | eq
  · have text : twoItemsPlatformBoost.serialize shortEvent.valueFrom =
      twoItemsEventText "PARTIALLY_CONFIRMED" "0" "PARTIALLY_CONFIRMED" := by decide +kernel
    rw [eq, BoostJson.Inverts, text]
    simp only [twoItemsPlatformBoost, if_neg first, if_true]
  · have text : twoItemsPlatformBoost.serialize reservedEvent.valueFrom =
      twoItemsEventText "CONFIRMED" "1" "" := by decide +kernel
    rw [eq, BoostJson.Inverts, text]
    simp only [twoItemsPlatformBoost, if_true]
  · have text : twoItemsPlatformBoost.serialize lateEvent.valueFrom = lateEventText := by
      decide +kernel
    rw [eq, BoostJson.Inverts, text]
    simp only [twoItemsPlatformBoost, if_neg second, if_neg third, if_true]

theorem counters_show_reports_twoItems :
    ∃ p : Platform ℚ, p.sent = [0, 2, 1] ∧ p.topic.acc = ⟨.ofNat (p.services.reportedAs true),
      .ofNat (p.services.reportedAs false + 1)⟩ := by
  obtain ⟨p, run, topic, services⟩ := twoItemsPlatform_ends
  simp only [Prod.mk.injEq] at topic
  obtain ⟨events, sent, length, applied⟩ := topic
  have size : p.outbox.length = 3 := by simpa using congrArg List.length events
  refine ⟨p, sent, counters_show_reports run.unguarded (twoItemsPlatform_inverts events) ?_ ?_⟩
  · rw [sent, size]
    decide
  · rw [applied, length]
    decide

theorem counters_show_decisions_twoItems :
    ∃ p : Platform ℚ, p.sent = [0, 2, 1] ∧
      p.topic.acc = ⟨.ofNat (p.services.inventory.calls.countP Call.succeeded),
        .ofNat ((p.services.inventory.calls.countP fun c => !c.succeeded) + 1)⟩ := by
  obtain ⟨p, run, topic, services⟩ := twoItemsPlatform_ends
  simp only [Prod.mk.injEq] at topic services
  obtain ⟨events, sent, length, applied⟩ := topic
  obtain ⟨origins, orders⟩ := services
  have size : p.outbox.length = 3 := by simpa using congrArg List.length events
  refine ⟨p, sent, counters_show_decisions run (twoItemsPlatform_inverts events) ?_ ?_ ?_ ?_⟩
  · rw [sent, size]
    decide
  · rw [applied, length]
    decide
  · rw [origins]
    decide
  · intro run member i
    have shown := List.mem_map_of_mem (f := fun run => (run.answer, run.stages)) member
    rw [orders, List.mem_singleton, Prod.mk.injEq] at shown
    rw [shown.2]
    rcases i with _ | _ | i <;> simp

end OrderServices
