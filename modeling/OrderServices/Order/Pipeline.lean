import OrderServices.Order.Request

/-! The functions between the accepted order and its answer: the fan-out of the items, the
gRPC sink that asks the inventory service for each of them, and the two ways in which an
`OrderState` comes back. -/
namespace OrderServices

variable {F : Type}

def processOrderItems (value : Order F) : List (OrderItem F) :=
  value.items.map fun item => { item with orderId := value.id }

theorem lt_of_processOrderItems {order : Order F} {i : ℕ} {item : OrderItem F}
    (here : (processOrderItems order)[i]? = some item) : i < order.items.length := by
  have inRange := (List.getElem?_eq_some_iff.mp here).1
  rwa [processOrderItems, List.length_map] at inRange

theorem exists_processOrderItems {order : Order F} {i : ℕ} (inRange : i < order.items.length) :
    ∃ item, (processOrderItems order)[i]? = some item :=
  ⟨{ order.items[i] with orderId := order.id }, by simp [processOrderItems, inRange]⟩

/-- What `rethrow_exception` finds: a `std::exception` with its text, or anything else. -/
inductive Exception
  | std (what : String)
  | other
  deriving DecidableEq, Repr

namespace ProcessOrderItemSink

structure State (F : Type) where
  orderId : String
  itemId : String
  sku : String
  requestedQty : Int32
  unitPrice : F
  deriving DecidableEq, Repr

def beginRequest [Zero F] : State F := ⟨"", "", "", 0, 0⟩

/-- The new state and the request that is sent. -/
def consumeMessage (value : OrderItem F) : State F × ProcessOrderItemRequest :=
  (⟨value.orderId, value.itemId, value.sku, value.quantity, value.unitPrice⟩,
    ⟨value.orderId, value.itemId, value.sku, value.quantity⟩)

def handleResponse (state : State F) (response : ProcessOrderItemResponse) : OrderItemResult F :=
  ⟨state.orderId, state.itemId, state.sku, state.requestedQty, response.availableQty,
    response.reserved, response.status, state.unitPrice, ""⟩

def message : Exception → String
  | .std what => what
  | .other => "unknown processing error"

def failureResult (state : State F) (error : Exception) : OrderItemResult F :=
  ⟨state.orderId, state.itemId, state.sku, state.requestedQty, 0, false, "PROCESSING_ERROR",
    state.unitPrice, message error⟩

/-- What is collected, if anything. -/
def endRequest (state : State F) (error : Option Exception) : Option (OrderItemResult F) :=
  error.map (failureResult state)

end ProcessOrderItemSink

/-- How an item ends when its handlers report it once. -/
inductive Outcome
  | response (received : ProcessOrderItemResponse)
  | failure (error : Exception)
  deriving DecidableEq, Repr

open ProcessOrderItemSink in
/-- What the sink collects for an item with this outcome. -/
def Outcome.result (item : OrderItem F) : Outcome → OrderItemResult F
  | .response received => handleResponse (consumeMessage item).1 received
  | .failure error => failureResult (consumeMessage item).1 error

def mapOrderItemResultToOrderState [Zero F] (nowString : String) (value : OrderItemResult F) :
    OrderState F :=
  ⟨value.orderId, if value.reserved then "CONFIRMED" else "PARTIALLY_CONFIRMED", [value], 0, nowString⟩

def mapToOrderState (value : Order F) : OrderState F :=
  ⟨value.id, "TIMED_OUT", [], value.totalAmount, ""⟩

end OrderServices
