import OrderServices.Order.Request
import OrderServices.Library.Matching
import Mathlib.Algebra.BigOperators.Group.List.Basic
import Mathlib.Tactic.NormNum.Basic

/-! The request grammar, stated on the parsed body, and that `beginRequest` accepts exactly it. -/
namespace OrderServices

open Json

variable {F : Type}

/-! ## The grammar -/

def Json.IsString (value : Json F) : Prop := ∃ s, value = .string s

def Json.IsNumber (value : Json F) : Prop :=
  (∃ n, value = .int64 n) ∨ (∃ n, value = .uint64 n) ∨ ∃ x, value = .double x

/-- The member under `primary`, or the one under `alternative` when `primary` is absent. -/
def named (object : List (String × Json F)) (primary alternative : String) : Option (Json F) :=
  (ifContains object primary).or (ifContains object alternative)

section Grammar

variable [Double F]

structure ItemAccepted (object : List (String × Json F)) : Prop where
  quantity : ∃ value, ifContains object "quantity" = some value ∧
    ∃ n : Int32, value.exactInt = .ok n.toInt ∧ 0 < n.toInt
  unitPrice : ∀ value, named object "unit_price" "unitPrice" = some value → value.IsNumber
  itemId : ∃ value, named object "item_id" "itemId" = some value ∧ value.IsString
  sku : ∃ value, ifContains object "sku" = some value ∧ value.IsString

def BodyAccepted (J : BoostJson F) (body : String) : Prop :=
  ∃ object elements, J.parse body = .ok (.object object) ∧
    ifContains object "items" = some (.array elements) ∧ elements ≠ [] ∧
    (∀ element ∈ elements, ∃ item, element = .object item ∧ ItemAccepted item) ∧
    ∀ value, named object "customer_id" "customerId" = some value → value.IsString

/-- The item has the values of the element and belongs to the order `id`. -/
structure Describes (id : String) (element : Json F) (item : OrderItem F) : Prop where
  orderId : item.orderId = id
  members : ∃ object, element = .object object ∧
    (∃ value, ifContains object "quantity" = some value ∧ value.exactInt = .ok item.quantity.toInt) ∧
    named object "item_id" "itemId" = some (.string item.itemId) ∧
    ifContains object "sku" = some (.string item.sku) ∧
    ((named object "unit_price" "unitPrice" = none ∧ item.unitPrice = 0) ∨
      ∃ value, named object "unit_price" "unitPrice" = some value ∧ value.toDouble = .ok item.unitPrice)
  positive : 0 < item.quantity.toInt

end Grammar

/-! ## The fields -/

theorem Except.bind_eq_ok {ε α β : Type} {x : Except ε α} {f : α → Except ε β} {b : β} :
    (x >>= f) = .ok b ↔ ∃ a, x = .ok a ∧ f a = .ok b := by
  cases x with
  | error e => simp
  | ok a => simp

theorem BoostJson.orThrow_eq_ok {J : BoostJson F} {T : Type} {value : Except JsonError T} {x : T} :
    J.orThrow value = .ok x ↔ value = .ok x := by
  cases value <;> simp [orThrow, Except.mapError]

theorem Json.toString_eq_ok {value : Json F} {s : String} :
    value.toString = .ok s ↔ value = .string s := by
  cases value <;> simp [Json.toString]

theorem Json.asObject_eq_ok {value : Json F} {object : List (String × Json F)} :
    value.asObject = .ok object ↔ value = .object object := by
  cases value <;> simp [asObject]

theorem Json.toInt32_eq_ok [Double F] {value : Json F} {n : Int32} :
    value.toInt32 = .ok n ↔ value.exactInt = .ok n.toInt := by
  have low := n.le_toInt
  have high := n.toInt_lt
  unfold toInt32
  rw [Except.bind_eq_ok]
  constructor
  · rintro ⟨m, exact, rest⟩
    split at rest
    · rename_i bounds
      cases rest
      rw [exact, Int32.toInt_ofInt_of_le (by omega) (by omega)]
    · cases rest
  · intro exact
    refine ⟨n.toInt, exact, ?_⟩
    rw [if_pos (by omega), Int32.ofInt_toInt]

theorem Json.toDouble_isOk [Double F] {value : Json F} :
    (∃ x, value.toDouble = .ok x) ↔ value.IsNumber := by
  cases value <;> simp [toDouble, IsNumber]

namespace ProcessOrderSource

/-- The primary key decides alone when it is there. -/
theorem stringField_eq_ok {J : BoostJson F} {object : List (String × Json F)}
    {primary alternative defaultValue s : String} :
    stringField J object primary alternative defaultValue = .ok s ↔
      named object primary alternative = some (.string s) ∨
        (named object primary alternative = none ∧
          (defaultValue ≠ "" ∨ primary = "customer_id") ∧ s = defaultValue) := by
  unfold stringField named
  cases ifContains object primary with
  | some value => simp [BoostJson.orThrow_eq_ok, Json.toString_eq_ok]
  | none =>
      cases ifContains object alternative with
      | some value => simp [BoostJson.orThrow_eq_ok, Json.toString_eq_ok]
      | none =>
          by_cases usable : defaultValue ≠ "" ∨ primary = "customer_id"
          · simp [usable, eq_comm]
          · simp [usable]

theorem required_eq_ok {J : BoostJson F} {object : List (String × Json F)}
    {primary alternative s : String} (required : primary ≠ "customer_id") :
    stringField J object primary alternative "" = .ok s ↔
      named object primary alternative = some (.string s) := by
  rw [stringField_eq_ok]
  simp [required]

theorem itemElements_eq_ok {json : List (String × Json F)} {elements : List (Json F)} :
    itemElements json = .ok elements ↔
      ifContains json "items" = some (.array elements) ∧ elements ≠ [] := by
  unfold itemElements
  split
  · rename_i first rest found
    simp only [found, Except.ok.injEq, Option.some.injEq, Json.array.injEq]
    constructor
    · rintro rfl
      exact ⟨rfl, List.cons_ne_nil _ _⟩
    · exact fun h => h.1
  · rename_i other
    constructor
    · intro impossible
      cases impossible
    · rintro ⟨found, nonempty⟩
      cases elements with
      | nil => exact absurd rfl nonempty
      | cons first rest => exact absurd found (other first rest)

variable [Double F]

theorem intField_eq_ok {J : BoostJson F} {object : List (String × Json F)} {name : String}
    {n : Int32} :
    intField J object name = .ok n ↔
      ∃ value, ifContains object name = some value ∧ value.exactInt = .ok n.toInt := by
  unfold intField
  cases ifContains object name with
  | none => simp
  | some value => simp [BoostJson.orThrow_eq_ok, Json.toInt32_eq_ok]

theorem doubleField_eq_ok {J : BoostJson F} {object : List (String × Json F)}
    {primary alternative : String} {defaultValue x : F} :
    doubleField J object primary alternative defaultValue = .ok x ↔
      (named object primary alternative = none ∧ x = defaultValue) ∨
        ∃ value, named object primary alternative = some value ∧ value.toDouble = .ok x := by
  unfold doubleField named
  cases ifContains object primary with
  | some value => simp [BoostJson.orThrow_eq_ok]
  | none =>
      cases ifContains object alternative with
      | some value => simp [BoostJson.orThrow_eq_ok]
      | none => simp [eq_comm]

/-! ## The order -/

theorem unless_eq_ok {ε α : Type} {c : Prop} [Decidable c] {e : ε} {x : Except ε α} {a : α} :
    (if c then .error e else x) = .ok a ↔ ¬c ∧ x = .ok a := by
  by_cases h : c <;> simp [h]

theorem readItem_eq_ok {J : BoostJson F} {id : String} {element : Json F} {item : OrderItem F} :
    readItem J id element = .ok item ↔ Describes id element item := by
  have zero : (0 : Int32).toInt = 0 := rfl
  have sku (object : List (String × Json F)) : named object "sku" "sku" = ifContains object "sku" := by
    unfold named
    cases ifContains object "sku" <;> rfl
  simp only [readItem, Except.bind_eq_ok, BoostJson.orThrow_eq_ok, asObject_eq_ok, intField_eq_ok,
    unless_eq_ok, doubleField_eq_ok, required_eq_ok (show "item_id" ≠ "customer_id" by decide),
    required_eq_ok (show "sku" ≠ "customer_id" by decide), sku, Int32.le_iff_toInt_le, zero, Int.not_le]
  constructor
  · rintro ⟨object, rfl, quantity, found, positive, price, priced, itemId, named, sku, present, eq⟩
    cases eq
    exact ⟨rfl, ⟨object, rfl, found, named, present, priced⟩, positive⟩
  · rintro ⟨rfl, ⟨object, rfl, found, named, present, priced⟩, positive⟩
    exact ⟨object, rfl, _, found, positive, _, priced, _, named, _, present, rfl⟩

/-- An element is accepted exactly when it describes some item. -/
theorem describes_iff {id : String} {element : Json F} :
    (∃ item, Describes id element item) ↔
      ∃ object, element = .object object ∧ ItemAccepted object := by
  constructor
  · rintro ⟨item, rfl, ⟨object, rfl, ⟨value, found, exact⟩, named, present, priced⟩, positive⟩
    refine ⟨object, rfl, ⟨value, found, _, exact, positive⟩, ?_, ⟨_, named, _, rfl⟩, ⟨_, present, _, rfl⟩⟩
    intro value given
    rcases priced with ⟨absent, -⟩ | ⟨price, here, converts⟩
    · rw [absent] at given
      cases given
    · rw [here] at given
      cases given
      exact Json.toDouble_isOk.mp ⟨_, converts⟩
  · rintro ⟨object, rfl, ⟨value, found, n, exact, positive⟩, price, ⟨_, named, itemId, rfl⟩,
      ⟨_, present, sku, rfl⟩⟩
    cases given : OrderServices.named object "unit_price" "unitPrice" with
    | none =>
        exact ⟨⟨id, itemId, sku, n, 0⟩, rfl,
          ⟨object, rfl, ⟨value, found, exact⟩, named, present, .inl ⟨given, rfl⟩⟩, positive⟩
    | some v =>
        obtain ⟨x, converts⟩ := Json.toDouble_isOk.mpr (price v given)
        exact ⟨⟨id, itemId, sku, n, x⟩, rfl,
          ⟨object, rfl, ⟨value, found, exact⟩, named, present, .inr ⟨v, given, converts⟩⟩, positive⟩

/-- The amount that the loop adds up, from left to right. -/
def amountFrom (total : F) (items : List (OrderItem F)) : F :=
  items.foldl (fun total item => total + Double.ofInt item.quantity.toInt * item.unitPrice) total

/-- The loop succeeds with the items that its elements describe, one each, in their order. -/
theorem readAll_eq_ok {J : BoostJson F} {id : String} {elements : List (Json F)}
    {before items : List (OrderItem F)} {total amount : F} :
    elements.foldlM (readNext J id) (before, total) = .ok (items, amount) ↔
      ∃ new, List.Forall₂ (Describes id) elements new ∧ items = before ++ new ∧
        amount = amountFrom total new := by
  induction elements generalizing before total with
  | nil =>
      simp only [List.foldlM_nil, List.forall₂_nil_left_iff]
      constructor
      · intro eq
        cases eq
        exact ⟨[], rfl, by simp, rfl⟩
      · rintro ⟨_, rfl, rfl, rfl⟩
        simp
        rfl
  | cons element elements ih =>
      simp only [List.foldlM_cons, readNext, Except.bind_eq_ok, readItem_eq_ok]
      constructor
      · rintro ⟨_, ⟨item, described, eq⟩, rest⟩
        cases eq
        obtain ⟨new, all, rfl, rfl⟩ := ih.mp rest
        exact ⟨item :: new, .cons described all, by simp, rfl⟩
      · rintro ⟨_, all, rfl, rfl⟩
        cases all with
        | @cons _ item _ new described all =>
            exact ⟨_, ⟨item, described, rfl⟩, ih.mpr ⟨new, all, by simp, rfl⟩⟩

theorem amountFrom_exact {value : F → ℚ} (exact : Double.Exact value) (total : F)
    (items : List (OrderItem F)) :
    value (amountFrom total items) = value total +
      (items.map fun item => (item.quantity.toInt : ℚ) * value item.unitPrice).sum := by
  induction items generalizing total with
  | nil => simp [amountFrom]
  | cons item items ih =>
      have step := ih (total + Double.ofInt item.quantity.toInt * item.unitPrice)
      rw [exact.add, exact.mul, exact.ofInt] at step
      rw [List.map_cons, List.sum_cons, ← add_assoc]
      exact step

/-- The order that a body and its headers ask for. -/
structure OrderOf (J : BoostJson F) (ambient : Surroundings) (request : HttpRequest)
    (order : Order F) : Prop where
  id : order.id = orderId ambient request
  body : ∃ object elements, J.parse request.body = .ok (.object object) ∧
    ifContains object "items" = some (.array elements) ∧ elements ≠ [] ∧
    (named object "customer_id" "customerId" = some (.string order.customerId) ∨
      named object "customer_id" "customerId" = none ∧ order.customerId = "") ∧
    List.Forall₂ (Describes order.id) elements order.items
  total : order.totalAmount = amountFrom 0 order.items
  createdAt : order.createdAt = ambient.nowString
  traceId : order.traceId = (request.header "X-Trace").getD ""

theorem OrderOf.items_pos {J : BoostJson F} {ambient : Surroundings} {request : HttpRequest}
    {order : Order F} (h : OrderOf J ambient request order) : 0 < order.items.length := by
  obtain ⟨_, elements, -, -, nonempty, -, all⟩ := h.body
  rw [← all.length_eq]
  exact List.length_pos_iff.mpr nonempty

theorem OrderOf.positive {J : BoostJson F} {ambient : Surroundings} {request : HttpRequest}
    {order : Order F} (h : OrderOf J ambient request order) {item : OrderItem F}
    (ordered : item ∈ order.items) : 0 < item.quantity.toInt := by
  obtain ⟨_, elements, -, -, -, -, all⟩ := h.body
  obtain ⟨i, hi, rfl⟩ := List.mem_iff_getElem.mp ordered
  exact ((List.forall₂_iff_get.mp all).2 i (all.length_eq ▸ hi) hi).positive

theorem readOrder_eq_ok {J : BoostJson F} {ambient : Surroundings} {request : HttpRequest}
    {order : Order F} :
    readOrder J ambient request = .ok order ↔ OrderOf J ambient request order := by
  simp only [readOrder, Except.bind_eq_ok, BoostJson.orThrow_eq_ok, asObject_eq_ok,
    itemElements_eq_ok, stringField_eq_ok]
  constructor
  · rintro ⟨_, parsed, object, rfl, elements, ⟨found, nonempty⟩, customer, named, ⟨items, amount⟩,
      read, eq⟩
    obtain ⟨new, all, rfl, rfl⟩ := readAll_eq_ok.mp read
    cases eq
    refine ⟨rfl, ⟨object, elements, parsed, found, nonempty, ?_, all⟩, rfl, rfl, rfl⟩
    simpa using named
  · rintro ⟨id, ⟨object, elements, parsed, found, nonempty, customer, all⟩, total, created, trace⟩
    obtain ⟨_, customerId, items, totalAmount, _, _⟩ := order
    simp only at id total created trace
    subst id total created trace
    refine ⟨_, parsed, object, rfl, elements, ⟨found, nonempty⟩, customerId, by simpa using customer,
      ⟨items, _⟩, readAll_eq_ok.mpr ⟨items, all, rfl, rfl⟩, rfl⟩

/-- A body has an order exactly when the grammar accepts it. -/
theorem exists_orderOf_iff (J : BoostJson F) (ambient : Surroundings) (request : HttpRequest) :
    (∃ order, OrderOf J ambient request order) ↔ BodyAccepted J request.body := by
  constructor
  · rintro ⟨order, -, ⟨object, elements, parsed, found, nonempty, customer, all⟩, -, -, -⟩
    refine ⟨object, elements, parsed, found, nonempty, ?_, ?_⟩
    · intro element member
      exact describes_iff.mp (Matching.exists_forall₂.mp ⟨_, all⟩ element member)
    intro value given
    rcases customer with string | ⟨absent, -⟩
    · rw [string] at given
      cases given
      exact ⟨_, rfl⟩
    · rw [absent] at given
      cases given
  · rintro ⟨object, elements, parsed, found, nonempty, accepted, customer⟩
    obtain ⟨items, all⟩ : ∃ items, List.Forall₂ (Describes (orderId ambient request)) elements items :=
      Matching.exists_forall₂.mpr fun element member => describes_iff.mpr (accepted element member)
    have named : ∃ customerId : String,
        named object "customer_id" "customerId" = some (.string customerId) ∨
          named object "customer_id" "customerId" = none ∧ customerId = "" := by
      cases given : OrderServices.named object "customer_id" "customerId" with
      | none => exact ⟨"", .inr ⟨rfl, rfl⟩⟩
      | some value =>
          obtain ⟨s, rfl⟩ := customer value given
          exact ⟨s, .inl rfl⟩
    obtain ⟨customerId, named⟩ := named
    exact ⟨⟨orderId ambient request, customerId, items, amountFrom 0 items, ambient.nowString,
      (request.header "X-Trace").getD ""⟩, rfl,
      ⟨object, elements, parsed, found, nonempty, named, all⟩, rfl, rfl, rfl⟩

theorem beginRequest_ok {source : ProcessOrderSource} {J : BoostJson F} {ambient : Surroundings}
    {context context' : MessageContext} {request : HttpRequest} {data data' : HandlerData}
    {shared : SharedState F}
    (started : source.beginRequest J ambient context request data = (.ok (context', shared), data')) :
    OrderOf J ambient request shared.order ∧ data' = data ∧
      shared = .accepted shared.order := by
  unfold beginRequest at started
  split at started
  · rename_i order read
    cases started
    exact ⟨readOrder_eq_ok.mp read, rfl, rfl⟩
  · cases started

theorem beginRequest_error {source : ProcessOrderSource} {J : BoostJson F} {ambient : Surroundings}
    {context : MessageContext} {request : HttpRequest} {data data' : HandlerData} {what : String}
    (rejected : source.beginRequest J ambient context request data = (.error what, data')) :
    data' = data.reply 400 "text/plain; charset=utf-8" (what ++ "\n") := by
  unfold beginRequest at rejected
  split at rejected
  · cases rejected
  · cases rejected
    rfl

/-- What an accepted request leaves in the shared record. -/
structure Admitted (J : BoostJson F) (ambient : Surroundings) (request : HttpRequest)
    (shared : SharedState F) : Prop where
  items : ∃ object elements, J.parse request.body = .ok (.object object) ∧
    ifContains object "items" = some (.array elements) ∧
    List.Forall₂ (Describes shared.order.id) elements shared.order.items ∧
    shared.expectedItems = elements.length
  total : ∀ value : F → ℚ, Double.Exact value → value shared.order.totalAmount =
    (shared.order.items.map fun item => (item.quantity.toInt : ℚ) * value item.unitPrice).sum
  id : (∃ given, request.header "X-Request-ID" = some given ∧ given ≠ "" ∧ shared.order.id = given) ∨
    (request.header "X-Request-ID" = none ∨ request.header "X-Request-ID" = some "") ∧
      shared.order.id = ambient.newStreamId

theorem orderId_cases (ambient : Surroundings) (request : HttpRequest) :
    (∃ given, request.header "X-Request-ID" = some given ∧ given ≠ "" ∧
        orderId ambient request = given) ∨
      (request.header "X-Request-ID" = none ∨ request.header "X-Request-ID" = some "") ∧
        orderId ambient request = ambient.newStreamId := by
  unfold orderId
  cases header : request.header "X-Request-ID" with
  | none => exact .inr ⟨.inl rfl, rfl⟩
  | some given =>
      by_cases empty : given = ""
      · subst empty
        exact .inr ⟨.inr rfl, rfl⟩
      · exact .inl ⟨given, rfl, empty, if_neg empty⟩

theorem OrderOf.admitted {J : BoostJson F} {ambient : Surroundings} {request : HttpRequest}
    {shared : SharedState F} (h : OrderOf J ambient request shared.order)
    (expected : shared.expectedItems = shared.order.items.length) :
    Admitted J ambient request shared := by
  obtain ⟨object, elements, parsed, found, -, -, all⟩ := h.body
  refine ⟨⟨object, elements, parsed, found, all, expected.trans all.length_eq.symm⟩, ?_, ?_⟩
  · intro value exact
    rw [h.total, amountFrom_exact exact, exact.zero, zero_add]
  · rw [h.id]
    exact orderId_cases ambient request

end ProcessOrderSource

open ProcessOrderSource in
/-- `beginRequest` succeeds exactly on the bodies of the grammar, with the order they describe.
Every other request is answered with status 400 and the text of the exception. -/
theorem beginRequest_grammar [Double F] (source : ProcessOrderSource) (J : BoostJson F)
    (ambient : Surroundings) (context : MessageContext) (request : HttpRequest)
    (data : HandlerData) :
    ((∃ started, (source.beginRequest J ambient context request data).1 = .ok started) ↔
        BodyAccepted J request.body) ∧
      (∀ context' shared data',
        source.beginRequest J ambient context request data = (.ok (context', shared), data') →
          Admitted J ambient request shared ∧ data' = data) ∧
      ∀ what data', source.beginRequest J ambient context request data = (.error what, data') →
        data'.status = 400 ∧ data'.contentType = "text/plain; charset=utf-8" ∧
          data'.responseBody = what ++ "\n" := by
  refine ⟨?_, ?_, ?_⟩
  · rw [← exists_orderOf_iff J ambient request]
    unfold beginRequest
    constructor
    · rintro ⟨started, ok⟩
      split at ok
      · rename_i order read
        exact ⟨order, readOrder_eq_ok.mp read⟩
      · cases ok
    · rintro ⟨order, h⟩
      rw [readOrder_eq_ok.mpr h]
      exact ⟨_, rfl⟩
  · intro context' shared data' started
    obtain ⟨h, rfl, fresh⟩ := beginRequest_ok started
    exact ⟨h.admitted (by rw [fresh]; rfl), rfl⟩
  · intro what data' rejected
    rw [beginRequest_error rejected]
    exact ⟨rfl, rfl, rfl⟩

/-! A request with two items, the second of an unknown SKU. -/

def twoItemsBody : String :=
  "\x7b\"customer_id\":\"customer\",\"items\":[" ++
    "\x7b\"item_id\":\"one\",\"sku\":\"SKU-001\",\"quantity\":2,\"unit_price\":10\x7d," ++
    "\x7b\"item_id\":\"two\",\"sku\":\"missing\",\"quantity\":1,\"unit_price\":7\x7d]\x7d"

def twoItemsJson : Json ℚ :=
  .object [("customer_id", .string "customer"), ("items", .array [
    .object [("item_id", .string "one"), ("sku", .string "SKU-001"), ("quantity", .int64 2),
      ("unit_price", .int64 10)],
    .object [("item_id", .string "two"), ("sku", .string "missing"), ("quantity", .int64 1),
      ("unit_price", .int64 7)]])]

/-- The library on the text of this request; `answer` is what it writes for the response. -/
def twoItemsBoost (answer : String) : BoostJson ℚ where
  parse text := if text = twoItemsBody then .ok twoItemsJson else .error "syntax error"
  serialize _ := answer
  what _ := "syntax error"

def twoItemsRequest : HttpRequest where
  header name := if name = "X-Request-ID" then some "order-123" else none
  body := twoItemsBody

def noon : Surroundings := ⟨"stream-1", "2026-08-16T12:00:00Z", 0⟩

def twoItemsOrder : Order ℚ :=
  ⟨"order-123", "customer", [⟨"order-123", "one", "SKU-001", 2, 10⟩,
    ⟨"order-123", "two", "missing", 1, 7⟩], 27, "2026-08-16T12:00:00Z", ""⟩

theorem twoItems_started (answer : String) (data : HandlerData) :
    ProcessOrderSource.beginRequest {} (twoItemsBoost answer) noon ⟨none, false⟩ twoItemsRequest data =
      (.ok (⟨some 5000000000, true⟩, .accepted twoItemsOrder), data) := by
  have read : ProcessOrderSource.readOrder (twoItemsBoost answer) noon twoItemsRequest =
      .ok twoItemsOrder := by
    rw [ProcessOrderSource.readOrder_eq_ok]
    have parsed : (twoItemsBoost answer).parse twoItemsRequest.body = .ok twoItemsJson := by
      simp [twoItemsBoost, twoItemsRequest]
    refine ⟨by decide, ⟨_, _, parsed, rfl, by simp, .inl rfl, ?_⟩, ?_, rfl, rfl⟩
    · refine .cons ⟨rfl, ?_, by decide⟩ (.cons ⟨rfl, ?_, by decide⟩ .nil)
      · exact ⟨_, rfl, ⟨_, rfl, rfl⟩, rfl, rfl, .inr ⟨_, rfl, rfl⟩⟩
      · exact ⟨_, rfl, ⟨_, rfl, rfl⟩, rfl, rfl, .inr ⟨_, rfl, rfl⟩⟩
    · change (27 : ℚ) = 0 + (2 : ℤ) * 10 + (1 : ℤ) * 7
      norm_num
  simp only [ProcessOrderSource.beginRequest, read]
  rfl

end OrderServices
