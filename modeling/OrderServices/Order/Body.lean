import OrderServices.Codec
import OrderServices.Order.Entries
import OrderServices.Order.Verdict

/-! The body of an answer as a format. Two members are left out when they are empty, and a client
can still tell from the text alone what the order has been answered with. -/
namespace OrderServices

open Json Runs

variable {F : Type}

/-- What the body says about a result. -/
structure ShownItem where
  itemId : String
  sku : String
  availableQty : Int32
  reserved : Bool
  status : String
  error : String
  deriving DecidableEq, Repr

def OrderItemResult.shown (result : OrderItemResult F) : ShownItem :=
  ⟨result.itemId, result.sku, result.availableQty, result.reserved, result.status, result.error⟩

/-- The library reads the body back, whatever object it has been written from. -/
def HandlerData.Reads (J : BoostJson F) (data : HandlerData) : Prop :=
  ∀ members, data.responseBody = J.serialize (.object members) → J.Inverts (.object members)

/-! ## The text determines the members -/

theorem responseItem_reread (result : OrderItemResult F) :
    (responseItem result).reread = responseItem result := by
  unfold responseItem
  split <;> simp

theorem responseMembers_reread (now orderId status : String) (results : List (OrderItemResult F))
    (total : F) : (Json.object (responseMembers now orderId status results total)).reread =
      .object (responseMembers now orderId status results total) := by
  have items : (results.map responseItem).map reread = results.map responseItem := by
    rw [List.map_map]
    exact List.map_congr_left fun result _ => responseItem_reread result
  unfold responseMembers
  split
  · simp
  · simp [reread, rereadAll_eq_map, items]

theorem responseItem_shown {result other : OrderItemResult F}
    (same : responseItem result = responseItem other) : result.shown = other.shown := by
  have members := Json.object.inj same
  obtain ⟨always, error⟩ := List.append_inj members rfl
  have available : result.availableQty.toInt64 = other.availableQty.toInt64 →
      result.availableQty = other.availableQty := by
    intro wide
    have value := congrArg Int64.toInt wide
    rw [Int32.toInt_toInt64, Int32.toInt_toInt64] at value
    exact Int32.toInt_inj.mp value
  -- The error is there unless it is empty, so that its absence tells it as well.
  have errors : result.error = other.error := by
    by_cases none : result.error = ""
    · by_cases none' : other.error = ""
      · exact none.trans none'.symm
      · simp [none, none'] at error
    · by_cases none' : other.error = ""
      · simp [none, none'] at error
      · simpa [none, none'] using error
  simp only [List.cons.injEq, Prod.mk.injEq, Json.string.injEq, Json.int64.injEq, Json.bool.injEq,
    true_and, and_true] at always
  obtain ⟨itemId, sku, wide, reserved, status⟩ := always
  simp only [OrderItemResult.shown, itemId, sku, available wide, reserved, status, errors]

theorem responseMembers_shown {now now' orderId orderId' status status' : String}
    {results results' : List (OrderItemResult F)} {total total' : F}
    (same : responseMembers now orderId status results total =
      responseMembers now' orderId' status' results' total') :
    orderId = orderId' ∧ status = status' ∧ total = total' ∧ now = now' ∧
      results.map OrderItemResult.shown = results'.map OrderItemResult.shown := by
  obtain ⟨always, items⟩ := List.append_inj same rfl
  simp only [List.cons.injEq, Prod.mk.injEq, Json.string.injEq, Json.double.injEq, true_and,
    and_true] at always
  obtain ⟨ids, statuses, totals, times⟩ := always
  refine ⟨ids, statuses, totals, times, ?_⟩
  cases results with
  | nil =>
      cases results' with
      | nil => rfl
      | cons r rest => simp at items
  | cons r rest =>
      cases results' with
      | nil => simp at items
      | cons r' rest' =>
          have listed : (r :: rest).map responseItem = (r' :: rest').map responseItem := by
            simpa using items
          rw [← List.forall₂_eq_eq_eq, List.forall₂_map_left_iff, List.forall₂_map_right_iff] at *
          exact listed.imp fun _ _ => responseItem_shown

/-! ## Two runs -/

section Steps

variable [Double F] {J : BoostJson F} {order : Order F} {data : HandlerData}
  {acts : List OrderAction} {s : OrderRun F}

theorem OrderRun.run_order (run : Run (Performs (OrderRun.perform J)) (.start order data) acts s) :
    s.order = order :=
  run.invariant_all (I := fun s => s.order = order) rfl fun same step => (perform_order step).trans same

theorem OrderRun.Shows.run (nonempty : ∀ value, J.serialize value ≠ "")
    (waits : 0 < order.items.length)
    (run : Run (Performs (OrderRun.perform J)) (.start order data) acts s) : s.Shows J := by
  refine (run.invariant_all (I := fun s => s.Sound ∧ s.Shows J) ⟨.start data waits, ?_⟩ ?_).2
  · intro status impossible
    cases impossible
  · rintro s a s' ⟨sound, shows⟩ step
    exact ⟨sound.step step, shows.step nonempty sound step⟩

end Steps

/-- Two answers with the same text are to the same order and say the same of its items. A client
needs no more than the text to know what an order has been answered with. -/
theorem answer_read_from_body [Double F] {J : BoostJson F} {order order' : Order F}
    {data data' : HandlerData} {acts acts' : List OrderAction} {s s' : OrderRun F}
    {status status' : String} (nonempty : ∀ value, J.serialize value ≠ "")
    (waits : 0 < order.items.length) (waits' : 0 < order'.items.length)
    (run : Run (Performs (OrderRun.perform J)) (.start order data) acts s)
    (run' : Run (Performs (OrderRun.perform J)) (.start order' data') acts' s')
    (answer : s.answer = some status) (answer' : s'.answer = some status')
    (reads : s.data.Reads J) (reads' : s'.data.Reads J)
    (same : s.data.responseBody = s'.data.responseBody) :
    order.id = order'.id ∧ status = status' ∧
      s.entries.map OrderItemResult.shown = s'.entries.map OrderItemResult.shown := by
  obtain ⟨earlier, now, total, written⟩ := OrderRun.Shows.run nonempty waits run status answer
  obtain ⟨earlier', now', total', written'⟩ := OrderRun.Shows.run nonempty waits' run' status' answer'
  have body : s.data.responseBody = makeResponse J now s.order.id status s.entries total :=
    congrArg HandlerData.responseBody written
  have body' : s'.data.responseBody = makeResponse J now' s'.order.id status' s'.entries total' :=
    congrArg HandlerData.responseBody written'
  have parsed := reads _ body
  have parsed' := reads' _ body'
  rw [BoostJson.Inverts, responseMembers_reread] at parsed parsed'
  have texts : makeResponse J now s.order.id status s.entries total =
      makeResponse J now' s'.order.id status' s'.entries total' := body.symm.trans (same.trans body')
  have objects := parsed.symm.trans ((congrArg J.parse texts).trans parsed')
  obtain ⟨ids, statuses, -, -, items⟩ := responseMembers_shown (Json.object.inj (Except.ok.inj objects))
  rw [OrderRun.run_order run, OrderRun.run_order run'] at ids
  exact ⟨ids, statuses, items⟩

def unavailableMembers : List (String × Json ℚ) :=
  responseMembers "2026-08-16T12:00:02Z" "order-123" "PARTIALLY_CONFIRMED"
    [⟨"order-123", "one", "SKU-001", 2, 25, true, "CONFIRMED", 10, ""⟩,
      ⟨"order-123", "two", "missing", 1, 0, false, "PROCESSING_ERROR", 7, "unavailable"⟩] 27

def unavailableAnswer : String :=
  "\x7b\"order_id\":\"order-123\",\"status\":\"PARTIALLY_CONFIRMED\",\"total_amount\":2.7E1," ++
    "\"processed_at\":\"2026-08-16T12:00:02Z\",\"confirmed_items\":[" ++
    "\x7b\"item_id\":\"one\",\"sku\":\"SKU-001\",\"available_qty\":25,\"reserved\":true," ++
    "\"status\":\"CONFIRMED\"\x7d,\x7b\"item_id\":\"two\",\"sku\":\"missing\"," ++
    "\"available_qty\":0,\"reserved\":false,\"status\":\"PROCESSING_ERROR\"," ++
    "\"error\":\"unavailable\"\x7d]\x7d"

/-- A library that knows one text. -/
def unavailableBoost : BoostJson ℚ where
  parse text :=
    if text = unavailableAnswer then .ok (.object unavailableMembers) else .error "syntax error"
  serialize value := if value = .object unavailableMembers then unavailableAnswer else "null"
  what _ := "error"

theorem unavailableAnswer_ne : unavailableAnswer ≠ "null" := by decide +kernel

theorem unavailableBoost_reads {data : HandlerData} (body : data.responseBody = unavailableAnswer) :
    data.Reads unavailableBoost := by
  intro members written
  rw [body] at written
  have known : members = unavailableMembers := by
    by_contra other
    have unknown : unavailableBoost.serialize (.object members) = "null" :=
      if_neg fun same => other (Json.object.inj same)
    exact unavailableAnswer_ne (written.trans unknown)
  rw [known, BoostJson.Inverts, unavailableMembers, responseMembers_reread]
  simp [unavailableBoost, unavailableMembers]

theorem unavailableBoost_nonempty (value : Json ℚ) : unavailableBoost.serialize value ≠ "" := by
  simp only [unavailableBoost]
  split
  · decide +kernel
  · decide

/-- The first item is reserved and the call of the second fails. In one of the runs a response to it
has been handled before, in vain. -/
theorem answer_read_from_body_unavailable :
    ∃ (acts acts' : List OrderAction) (s s' : OrderRun ℚ),
      Run (Performs (OrderRun.perform unavailableBoost)) (.start twoItemsOrder ⟨0, "", "", 0⟩) acts s ∧
      Run (Performs (OrderRun.perform unavailableBoost)) (.start twoItemsOrder ⟨0, "", "", 0⟩) acts' s' ∧
      s.data.responseBody = s'.data.responseBody ∧ s.stages ≠ s'.stages ∧
      s'.entries.map (fun r => (r.itemId, r.error)) = [("one", ""), ("two", "unavailable")] ∧
      s.entries.map OrderItemResult.shown = s'.entries.map OrderItemResult.shown := by
  let times : Times := ⟨"2026-08-16T12:00:02Z", "2026-08-16T12:00:02Z"⟩
  let start : OrderRun ℚ := .start twoItemsOrder ⟨0, "", "", 0⟩
  let unavailable : Exception := .std "unavailable"
  let acts : List OrderAction :=
    [.respond 0 ⟨25, true, "CONFIRMED"⟩ .returned times, .finish 1 (some unavailable) .returned times]
  let acts' : List OrderAction :=
    [.respond 1 ⟨3, true, "CONFIRMED"⟩ (.raisedBefore unavailable) times,
      .respond 0 ⟨25, true, "CONFIRMED"⟩ .returned times, .finish 0 none .returned times,
      .finish 1 none .returned times]
  have ends : (acts.foldlM (OrderRun.perform unavailableBoost) start).map (fun s =>
      (s.answer, s.data.responseBody, s.stages)) =
        some (some "PARTIALLY_CONFIRMED", unavailableAnswer, [.responded none, .ended]) := by
    decide +kernel
  have ends' : (acts'.foldlM (OrderRun.perform unavailableBoost) start).map (fun s =>
      (s.answer, s.data.responseBody, s.stages, s.entries.map fun r => (r.itemId, r.error))) =
        some (some "PARTIALLY_CONFIRMED", unavailableAnswer, [.ended, .ended],
          [("one", ""), ("two", "unavailable")]) := by
    decide +kernel
  obtain ⟨s, steps, shown⟩ := Option.map_eq_some_iff.mp ends
  obtain ⟨s', steps', shown'⟩ := Option.map_eq_some_iff.mp ends'
  obtain ⟨answer, texts⟩ := Prod.mk.inj shown
  obtain ⟨body, stages⟩ := Prod.mk.inj texts
  obtain ⟨answer', texts'⟩ := Prod.mk.inj shown'
  obtain ⟨body', rest⟩ := Prod.mk.inj texts'
  obtain ⟨stages', entries⟩ := Prod.mk.inj rest
  have same := body.trans body'.symm
  have different : s.stages ≠ s'.stages := by
    rw [stages, stages']
    decide
  have waits : 0 < twoItemsOrder.items.length := by decide
  have read := answer_read_from_body unavailableBoost_nonempty waits waits (.of_foldlM steps)
    (.of_foldlM steps') answer answer' (unavailableBoost_reads body) (unavailableBoost_reads body') same
  exact ⟨acts, acts', s, s', .of_foldlM steps, .of_foldlM steps', same, different, entries, read.2.2⟩

end OrderServices
