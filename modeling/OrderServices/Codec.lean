import OrderServices.Json
import Mathlib.Tactic.Common

/-! Encoders and decoders of the records, and the serializers built from them. Each
encoder and decoder is transcribed with its own key list, in the order of the source. -/
namespace OrderServices

open Json

variable {F : Type} [Double F]

def OrderItem.valueFrom (value : OrderItem F) : Json F :=
  .object [("order_id", .string value.orderId), ("item_id", .string value.itemId),
    ("sku", .string value.sku), ("quantity", .int64 value.quantity.toInt64),
    ("unit_price", .double value.unitPrice)]

def OrderItem.valueTo (json : Json F) : Except JsonError (OrderItem F) := do
  let object ← json.asObject
  let orderId ← (← atKey object "order_id").toString
  let itemId ← (← atKey object "item_id").toString
  let sku ← (← atKey object "sku").toString
  let quantity ← (← atKey object "quantity").toInt32
  let unitPrice ← (← atKey object "unit_price").toDouble
  return ⟨orderId, itemId, sku, quantity, unitPrice⟩

def OrderItemResult.valueFrom (value : OrderItemResult F) : Json F :=
  .object [("order_id", .string value.orderId), ("item_id", .string value.itemId),
    ("sku", .string value.sku), ("requested_qty", .int64 value.requestedQty.toInt64),
    ("available_qty", .int64 value.availableQty.toInt64), ("reserved", .bool value.reserved),
    ("status", .string value.status), ("unit_price", .double value.unitPrice),
    ("error", .string value.error)]

def OrderItemResult.valueTo (json : Json F) : Except JsonError (OrderItemResult F) := do
  let object ← json.asObject
  let orderId ← (← atKey object "order_id").toString
  let itemId ← (← atKey object "item_id").toString
  let sku ← (← atKey object "sku").toString
  let requestedQty ← (← atKey object "requested_qty").toInt32
  let availableQty ← (← atKey object "available_qty").toInt32
  let reserved ← (← atKey object "reserved").toBool
  let status ← (← atKey object "status").toString
  let unitPrice ← (← atKey object "unit_price").toDouble
  -- The only key that an older writer may have left out.
  let error ← match ifContains object "error" with
    | some error => error.toString
    | none => .ok ""
  return ⟨orderId, itemId, sku, requestedQty, availableQty, reserved, status, unitPrice, error⟩

def OrderProcessed.valueFrom (value : OrderProcessed) : Json F :=
  .object [("order_id", .string value.orderId), ("status", .string value.status),
    ("processed_at", .string value.processedAt), ("total_items", .uint64 value.totalItems),
    ("confirmed_items", .uint64 value.confirmedItems),
    ("failure_reason", .string value.failureReason)]

def OrderProcessed.valueTo (json : Json F) : Except JsonError OrderProcessed := do
  let object ← json.asObject
  let orderId ← (← atKey object "order_id").toString
  let status ← (← atKey object "status").toString
  let processedAt ← (← atKey object "processed_at").toString
  let totalItems ← (← atKey object "total_items").toSize
  let confirmedItems ← (← atKey object "confirmed_items").toSize
  let failureReason ← (← atKey object "failure_reason").toString
  return ⟨orderId, status, processedAt, totalItems, confirmedItems, failureReason⟩

def Order.valueFrom (value : Order F) : Json F :=
  .object [("id", .string value.id), ("customer_id", .string value.customerId),
    ("items", .array (value.items.map OrderItem.valueFrom)),
    ("total_amount", .double value.totalAmount), ("created_at", .string value.createdAt),
    ("trace_id", .string value.traceId)]

def Order.valueTo (json : Json F) : Except JsonError (Order F) := do
  let object ← json.asObject
  let id ← (← atKey object "id").toString
  let customerId ← (← atKey object "customer_id").toString
  let items ← (← atKey object "items").toVector OrderItem.valueTo
  let totalAmount ← (← atKey object "total_amount").toDouble
  let createdAt ← (← atKey object "created_at").toString
  let traceId ← (← atKey object "trace_id").toString
  return ⟨id, customerId, items, totalAmount, createdAt, traceId⟩

def OrderState.valueFrom (value : OrderState F) : Json F :=
  .object [("order_id", .string value.orderId), ("status", .string value.status),
    ("confirmed_items", .array (value.confirmedItems.map OrderItemResult.valueFrom)),
    ("total_amount", .double value.totalAmount), ("processed_at", .string value.processedAt)]

def OrderState.valueTo (json : Json F) : Except JsonError (OrderState F) := do
  let object ← json.asObject
  let orderId ← (← atKey object "order_id").toString
  let status ← (← atKey object "status").toString
  let confirmedItems ← (← atKey object "confirmed_items").toVector OrderItemResult.valueTo
  let totalAmount ← (← atKey object "total_amount").toDouble
  let processedAt ← (← atKey object "processed_at").toString
  return ⟨orderId, status, confirmedItems, totalAmount, processedAt⟩

/-! ## What decoding an encoded value gives back -/

theorem exactInt_reread (n : UInt64) : (Json.uint64 n : Json F).reread.exactInt = .ok n.toNat := by
  unfold reread
  split
  · rename_i small
    have fits : (Int64.ofNat n.toNat).toInt = n.toNat := Int64.toInt_ofNat_of_lt small
    simp only [exactInt, fits]
  · rfl

@[simp] theorem toSize_reread (n : UInt64) : (Json.uint64 n : Json F).reread.toSize = .ok n := by
  have bound := n.toNat_lt
  unfold toSize
  simp only [exactInt_reread, bind, Except.bind]
  rw [if_pos (by omega), Int.toNat_natCast, UInt64.ofNat_toNat]

@[simp] theorem toInt32_toInt64 (n : Int32) :
    (Json.int64 n.toInt64 : Json F).toInt32 = .ok n := by
  have lower := n.le_toInt
  have upper := n.toInt_lt
  unfold toInt32
  simp only [exactInt, bind, Except.bind, Int32.toInt_toInt64, Int32.ofInt_toInt]
  exact if_pos (by omega)

omit [Double F] in
theorem rereadAll_eq_map (elements : List (Json F)) : rereadAll elements = elements.map reread := by
  induction elements with
  | nil => rfl
  | cons value elements ih => simp only [rereadAll, ih, List.map_cons]

omit [Double F] in
/-- A vector comes back when its elements do. -/
@[simp] theorem toVector_reread {T : Type} {encode : T → Json F} {decode : Json F → Except JsonError T}
    (element : ∀ x, decode (encode x).reread = .ok x) (xs : List T) :
    (Json.array (xs.map encode)).reread.toVector decode = .ok xs := by
  simp only [reread, toVector, rereadAll_eq_map, List.map_map]
  induction xs with
  | nil => rfl
  | cons x xs ih =>
      simp only [List.map_cons, Function.comp_apply, List.mapM_cons, element, ih]
      rfl

@[simp] theorem OrderItem.valueTo_reread (x : OrderItem F) :
    OrderItem.valueTo x.valueFrom.reread = .ok x := by
  simp [valueTo, valueFrom]

@[simp] theorem OrderItemResult.valueTo_reread (x : OrderItemResult F) :
    OrderItemResult.valueTo x.valueFrom.reread = .ok x := by
  simp [valueTo, valueFrom]

@[simp] theorem OrderProcessed.valueTo_reread (x : OrderProcessed) :
    OrderProcessed.valueTo (x.valueFrom : Json F).reread = .ok x := by
  simp [valueTo, valueFrom]

@[simp] theorem Order.valueTo_reread (x : Order F) :
    Order.valueTo x.valueFrom.reread = .ok x := by
  simp [valueTo, valueFrom, toVector_reread OrderItem.valueTo_reread]

@[simp] theorem OrderState.valueTo_reread (x : OrderState F) :
    OrderState.valueTo x.valueFrom.reread = .ok x := by
  simp [valueTo, valueFrom, toVector_reread OrderItemResult.valueTo_reread]

end OrderServices
