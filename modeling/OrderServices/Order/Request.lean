import OrderServices.Json

/-! The start of an order: `ProcessOrderSource::beginRequest` and the fields it reads. -/
namespace OrderServices

open Json

variable {F : Type}

/-- What the source takes from `servicelib::MessageContext`; times are in nanoseconds. -/
structure MessageContext where
  deadline : Option ℤ
  externalCancellation : Bool
  deriving DecidableEq, Repr

/-- `header` is the lookup `servicelib::http::Header` on the headers of the request. -/
structure HttpRequest where
  header : String → Option String
  body : String

/-- The response under construction. `writes` is ghost: it counts the written bodies. -/
structure HandlerData where
  status : ℕ
  contentType : String
  responseBody : String
  writes : ℕ
  deriving DecidableEq, Repr

def HandlerData.reply (data : HandlerData) (status : ℕ) (contentType body : String) : HandlerData :=
  ⟨status, contentType, body, data.writes + 1⟩

/-- The record shared by the callbacks of one accepted request. -/
structure SharedState (F : Type) where
  order : Order F
  expectedItems : ℕ
  results : List (OrderItemResult F)
  responseSent : Bool
  cancelRequested : Bool
  deriving DecidableEq, Repr

def SharedState.accepted (order : Order F) : SharedState F := ⟨order, order.items.length, [], false, false⟩

/-- What a handler reads from its surroundings: a new stream id and the two clocks. -/
structure Surroundings where
  newStreamId : String
  nowString : String
  steadyNow : ℤ
  deriving DecidableEq, Repr

structure ProcessOrderSource where
  timeout : ℤ := 5000000000

/-- A failed conversion throws; what counts later is the text of the exception. -/
def BoostJson.orThrow {T : Type} (J : BoostJson F) (value : Except JsonError T) : Except String T :=
  value.mapError J.what

namespace ProcessOrderSource

/-- A default is used when it is non-empty or when the key is `customer_id`. -/
def stringField (J : BoostJson F) (object : List (String × Json F)) (primary alternative : String)
    (defaultValue : String) : Except String String :=
  match ifContains object primary with
  | some value => J.orThrow value.toString
  | none =>
      match ifContains object alternative with
      | some value => J.orThrow value.toString
      | none =>
          if defaultValue ≠ "" ∨ primary = "customer_id" then .ok defaultValue
          else .error ("missing field: " ++ primary)

variable [Double F]

def intField (J : BoostJson F) (object : List (String × Json F)) (name : String) :
    Except String Int32 :=
  match ifContains object name with
  | none => .error ("missing field: " ++ name)
  | some value => J.orThrow value.toInt32

def doubleField (J : BoostJson F) (object : List (String × Json F)) (primary alternative : String)
    (defaultValue : F) : Except String F :=
  match ifContains object primary with
  | some value => J.orThrow value.toDouble
  | none =>
      match ifContains object alternative with
      | some value => J.orThrow value.toDouble
      | none => .ok defaultValue

/-- The element of `items` as an item of the order `orderId`. -/
def readItem (J : BoostJson F) (orderId : String) (itemValue : Json F) :
    Except String (OrderItem F) := do
  let itemJson ← J.orThrow itemValue.asObject
  let quantity ← intField J itemJson "quantity"
  if quantity ≤ 0 then .error "all quantities must be positive"
  else do
    let unitPrice ← doubleField J itemJson "unit_price" "unitPrice" 0
    let itemId ← stringField J itemJson "item_id" "itemId" ""
    let sku ← stringField J itemJson "sku" "sku" ""
    return ⟨orderId, itemId, sku, quantity, unitPrice⟩

/-- One round of the loop: the item joins the order and the total. -/
def readNext (J : BoostJson F) (orderId : String) (soFar : List (OrderItem F) × F)
    (itemValue : Json F) : Except String (List (OrderItem F) × F) := do
  let item ← readItem J orderId itemValue
  return (soFar.1 ++ [item], soFar.2 + Double.ofInt item.quantity.toInt * item.unitPrice)

def itemElements (json : List (String × Json F)) : Except String (List (Json F)) :=
  match ifContains json "items" with
  | some (.array (first :: rest)) => .ok (first :: rest)
  | _ => .error "items must not be empty"

def orderId (ambient : Surroundings) (request : HttpRequest) : String :=
  let header := (request.header "X-Request-ID").getD ""
  if header = "" then ambient.newStreamId else header

def readOrder (J : BoostJson F) (ambient : Surroundings) (request : HttpRequest) :
    Except String (Order F) := do
  let parsed ← J.parse request.body
  let json ← J.orThrow parsed.asObject
  let elements ← itemElements json
  let id := orderId ambient request
  let customerId ← stringField J json "customer_id" "customerId" ""
  let (items, totalAmount) ← elements.foldlM (readNext J id) ([], 0)
  return ⟨id, customerId, items, totalAmount, ambient.nowString, (request.header "X-Trace").getD ""⟩

/-- The earlier of the deadline that the context has and the one of the source. -/
def withTimeout (source : ProcessOrderSource) (ambient : Surroundings) (context : MessageContext) :
    MessageContext :=
  let deadline := ambient.steadyNow + source.timeout
  match context.deadline with
  | none => { context with deadline := some deadline }
  | some given => if deadline < given then { context with deadline := some deadline } else context

/-- The result, or the text of the exception that leaves the handler, and the response. -/
def beginRequest (source : ProcessOrderSource) (J : BoostJson F) (ambient : Surroundings)
    (context : MessageContext) (request : HttpRequest) (data : HandlerData) :
    Except String (MessageContext × SharedState F) × HandlerData :=
  match readOrder J ambient request with
  | .ok order =>
      (.ok ({ source.withTimeout ambient context with externalCancellation := true },
        .accepted order), data)
  | .error what => (.error what, data.reply 400 "text/plain; charset=utf-8" (what ++ "\n"))

end ProcessOrderSource

end OrderServices
