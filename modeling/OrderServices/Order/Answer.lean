import OrderServices.Order.Grammar
import OrderServices.Order.Pipeline
import OrderServices.Library.Collector

/-! The result callback of `ProcessOrderSource`. It collects the item results of one order
until all are there or a timed-out state arrives, and then writes the answer. -/
namespace OrderServices

open Json Collector

variable {F : Type}

/-! ## The callback -/

def responseItem (result : OrderItemResult F) : Json F :=
  .object ([("item_id", .string result.itemId), ("sku", .string result.sku),
    ("available_qty", .int64 result.availableQty.toInt64), ("reserved", .bool result.reserved),
    ("status", .string result.status)] ++
    if result.error = "" then [] else [("error", .string result.error)])

def responseMembers (nowString orderId status : String) (results : List (OrderItemResult F))
    (totalAmount : F) : List (String × Json F) :=
  [("order_id", .string orderId), ("status", .string status), ("total_amount", .double totalAmount),
    ("processed_at", .string nowString)] ++
    if results.isEmpty then [] else [("confirmed_items", .array (results.map responseItem))]

def makeResponse (J : BoostJson F) (nowString orderId status : String)
    (results : List (OrderItemResult F)) (totalAmount : F) : String :=
  J.serialize (.object (responseMembers nowString orderId status results totalAmount))

/-- What one run of the callback leaves behind and returns, and whether it called `done`. -/
structure Reaction (F : Type) where
  shared : SharedState F
  data : HandlerData
  returned : Bool
  done : Bool

/-- The status of the answer, once `results` are all it will list. -/
def answerStatus (value : OrderState F) (results : List (OrderItemResult F)) : String :=
  if value.status ≠ "TIMED_OUT" then
    if results.all (·.reserved) then "CONFIRMED" else "PARTIALLY_CONFIRMED"
  else value.status

variable [Double F]

def answerTotal (order : Order F) (results : List (OrderItemResult F)) : F :=
  if results.isEmpty then order.totalAmount
  else results.foldl
    (fun total item => total + item.unitPrice * Double.ofInt item.requestedQty.toInt) 0

/-- The end of the callback, which writes the answer. -/
def writeAnswer (J : BoostJson F) (shared : SharedState F) (value : OrderState F)
    (nowString : String) (data : HandlerData) : Reaction F where
  shared := { shared with responseSent := true }
  data := data.reply 200 "application/json"
    (makeResponse J nowString shared.order.id (answerStatus value shared.results) shared.results
      (answerTotal shared.order shared.results))
  returned := true
  done := true

def resultCallback (J : BoostJson F) (shared : SharedState F) (value : OrderState F)
    (nowString : String) (data : HandlerData) : Reaction F :=
  if shared.responseSent then ⟨shared, data, true, false⟩
  else if value.status ≠ "TIMED_OUT" then
    let shared := { shared with results := shared.results ++ value.confirmedItems }
    if shared.results.length < shared.expectedItems then ⟨shared, data, false, false⟩
    else writeAnswer J shared value nowString data
  else writeAnswer J shared value nowString data

section Branches

variable (J : BoostJson F) (shared : SharedState F) {value : OrderState F} (nowString : String)
  (data : HandlerData)

theorem resultCallback_sent (sent : shared.responseSent = true) :
    resultCallback J shared value nowString data = ⟨shared, data, true, false⟩ := by
  rw [resultCallback, if_pos sent]

theorem resultCallback_timedOut (unanswered : shared.responseSent = false)
    (timedOut : value.status = "TIMED_OUT") :
    resultCallback J shared value nowString data = writeAnswer J shared value nowString data := by
  rw [resultCallback, unanswered, if_neg Bool.false_ne_true, if_neg (not_not_intro timedOut)]

theorem resultCallback_missing (unanswered : shared.responseSent = false)
    (inTime : value.status ≠ "TIMED_OUT")
    (missing : (shared.results ++ value.confirmedItems).length < shared.expectedItems) :
    resultCallback J shared value nowString data =
      ⟨{ shared with results := shared.results ++ value.confirmedItems }, data, false, false⟩ := by
  rw [resultCallback, unanswered, if_neg Bool.false_ne_true, if_pos inTime]
  exact if_pos missing

theorem resultCallback_complete (unanswered : shared.responseSent = false)
    (inTime : value.status ≠ "TIMED_OUT")
    (complete : shared.expectedItems ≤ (shared.results ++ value.confirmedItems).length) :
    resultCallback J shared value nowString data =
      writeAnswer J { shared with results := shared.results ++ value.confirmedItems } value
        nowString data := by
  rw [resultCallback, unanswered, if_neg Bool.false_ne_true, if_pos inTime]
  exact if_neg (Nat.not_lt.mpr complete)

end Branches

omit [Double F] in
/-- The end of the HTTP request. The state is empty if `beginRequest` has thrown. -/
def ProcessOrderSource.endRequest (error : Option Exception) (state : Option (SharedState F))
    (data : HandlerData) : Option (SharedState F) × HandlerData :=
  (state.map fun shared => { shared with cancelRequested := true },
    if error.isNone ∨ data.responseBody ≠ "" then data
    else data.reply 500 "text/plain; charset=utf-8" "internal server error\n")

/-- The callback on one value after another, each with the time at which it runs. -/
def receiveValues (J : BoostJson F) (start : SharedState F × HandlerData)
    (values : List (OrderState F × String)) : SharedState F × HandlerData :=
  values.foldl (fun s v =>
    let reaction := resultCallback J s.1 v.1 v.2 s.2
    (reaction.shared, reaction.data)) start

/-! ## The callback is a collector -/

def callbackRules (expectedItems : ℕ) : Rules (OrderState F × String) (OrderItemResult F) where
  stops v := v.1.status == "TIMED_OUT"
  items v := v.1.confirmedItems
  expected := expectedItems

/-- The record and the response that represent a collector which began with `start`. -/
def ofCollector (J : BoostJson F) (start : SharedState F × HandlerData) :
    State (OrderState F × String) (OrderItemResult F) → SharedState F × HandlerData
  | .collecting results => ({ start.1 with results }, start.2)
  | .done results last =>
      ({ start.1 with results, responseSent := true },
        start.2.reply 200 "application/json"
          (makeResponse J last.2 start.1.order.id (answerStatus last.1 results) results
            (answerTotal start.1.order results)))

theorem resultCallback_ofCollector (J : BoostJson F) (start : SharedState F × HandlerData)
    (unanswered : start.1.responseSent = false)
    (c : State (OrderState F × String) (OrderItemResult F)) (v : OrderState F × String) :
    let s := ofCollector J start c
    let reaction := resultCallback J s.1 v.1 v.2 s.2
    (reaction.shared, reaction.data) =
      ofCollector J start (receive (callbackRules start.1.expectedItems) c v) := by
  intro s reaction
  cases c with
  | done results last => rfl
  | collecting results =>
      by_cases stops : v.1.status = "TIMED_OUT"
      · rw [receive_stopped (by simp [callbackRules, stops])]
        simp only [reaction, s, ofCollector,
          resultCallback_timedOut J { start.1 with results } v.2 start.2 unanswered stops]
        rfl
      · have silent : (callbackRules (F := F) start.1.expectedItems).stops v = false := by
          simp [callbackRules, stops]
        by_cases missing : (results ++ v.1.confirmedItems).length < start.1.expectedItems
        · rw [receive_missing silent missing]
          simp only [reaction, s, ofCollector,
            resultCallback_missing J { start.1 with results } v.2 start.2 unanswered stops missing]
          rfl
        · rw [receive_complete silent (Nat.not_lt.mp missing)]
          simp only [reaction, s, ofCollector,
            resultCallback_complete J { start.1 with results } v.2 start.2 unanswered stops
              (Nat.not_lt.mp missing)]
          rfl

theorem receiveValues_ofCollector (J : BoostJson F) (start : SharedState F × HandlerData)
    (unanswered : start.1.responseSent = false)
    (c : State (OrderState F × String) (OrderItemResult F)) (values : List (OrderState F × String)) :
    receiveValues J (ofCollector J start c) values =
      ofCollector J start (receiveAll (callbackRules start.1.expectedItems) c values) := by
  induction values generalizing c with
  | nil => rfl
  | cons v values ih =>
      have first := resultCallback_ofCollector J start unanswered c v
      unfold receiveValues receiveAll at ih ⊢
      rw [List.foldl_cons, List.foldl_cons, first]
      exact ih _

end OrderServices
