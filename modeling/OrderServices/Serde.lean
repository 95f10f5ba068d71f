import OrderServices.Codec

/-! Serializers of the records and the Kafka endpoints of the order events. Every serde
class of the source is the same code around the encoder and decoder of its record. -/
namespace OrderServices

variable {F : Type} [Double F] {T : Type}

/-- A serde class, given by the encoder and the decoder that it calls. -/
structure Serde (F T : Type) where
  valueFrom : T → Json F
  valueTo : Json F → Except JsonError T

namespace Serde

def serializeTo (S : Serde F T) (J : BoostJson F) (output : ByteArray) (value : T) : ByteArray :=
  let text := J.serialize (S.valueFrom value)
  output ++ text.toUTF8

def serialize (S : Serde F T) (J : BoostJson F) (value : T) : ByteArray :=
  S.serializeTo J ByteArray.empty value

/-- The decoder runs on what `boost::json::parse` makes of a text. -/
def valueOfText (S : Serde F T) (J : BoostJson F) (text : String) : Except String T := do
  let json ← J.parse text
  (S.valueTo json).mapError J.what

/-- Bytes that are not UTF-8 are not a JSON text. -/
def deserialize (S : Serde F T) (J : BoostJson F) (data : ByteArray) : Except String T :=
  match String.fromUTF8? data with
  | some text => S.valueOfText J text
  | none => .error (J.what .syntaxError)

end Serde

def OrderItemSerde : Serde F (OrderItem F) := ⟨OrderItem.valueFrom, OrderItem.valueTo⟩

def OrderItemResultSerde : Serde F (OrderItemResult F) :=
  ⟨OrderItemResult.valueFrom, OrderItemResult.valueTo⟩

def OrderProcessedSerde : Serde F OrderProcessed :=
  ⟨OrderProcessed.valueFrom, OrderProcessed.valueTo⟩

def OrderSerde : Serde F (Order F) := ⟨Order.valueFrom, Order.valueTo⟩

def OrderStateSerde : Serde F (OrderState F) := ⟨OrderState.valueFrom, OrderState.valueTo⟩

/-- The fields of a Kafka message that the sink sets. -/
structure SinkMessage where
  key : String
  value : String
  deriving DecidableEq, Repr

def OrderProcessedEndpointSink.consumeMessage (J : BoostJson F) (value : OrderProcessed) :
    SinkMessage where
  key := value.orderId
  value := J.serialize value.valueFrom

/-- The id under which the result callback is registered, and the collected event. -/
def OrderProcessedEndpointSource.consumeMessage (J : BoostJson F) (messageValue : String) :
    Except String (String × OrderProcessed) := do
  let value ← OrderProcessedSerde.valueOfText J messageValue
  return (value.orderId, value)

/-! ## Round trips -/

/-- What a serde owes its users on every value whose text the library reads back. -/
def Serde.RoundTrips (S : Serde F T) (J : BoostJson F) : Prop :=
  ∀ x, J.Inverts (S.valueFrom x) →
    S.valueOfText J (J.serialize (S.valueFrom x)) = .ok x ∧
    S.deserialize J (S.serialize J x) = .ok x

/-- `SerializeTo` leaves the bytes that are there and appends exactly the text. -/
def Serde.Appends (S : Serde F T) (J : BoostJson F) : Prop :=
  ∀ output x,
    (S.serializeTo J output x).extract 0 output.size = output ∧
    (S.serializeTo J output x).extract output.size (S.serializeTo J output x).size =
      (J.serialize (S.valueFrom x)).toUTF8

omit [Double F] in
theorem Serde.valueOfText_serialize (S : Serde F T) {J : BoostJson F} {x : T}
    (decodes : S.valueTo (S.valueFrom x).reread = .ok x) (inverts : J.Inverts (S.valueFrom x)) :
    S.valueOfText J (J.serialize (S.valueFrom x)) = .ok x := by
  unfold valueOfText
  rw [inverts, Json.bind_ok, decodes]
  rfl

theorem fromUTF8?_toUTF8 (text : String) : String.fromUTF8? text.toUTF8 = some text := by
  unfold String.fromUTF8?
  exact dif_pos text.isValidUTF8

omit [Double F] in
/-- The decoder law of the record is all that a serde needs. -/
theorem Serde.roundTrips (S : Serde F T) (J : BoostJson F)
    (decodes : ∀ x, S.valueTo (S.valueFrom x).reread = .ok x) : S.RoundTrips J := by
  intro x inverts
  have read := S.valueOfText_serialize (decodes x) inverts
  refine ⟨read, ?_⟩
  unfold deserialize serialize serializeTo
  rw [ByteArray.empty_append, fromUTF8?_toUTF8]
  exact read

omit [Double F] in
theorem Serde.appends (S : Serde F T) (J : BoostJson F) : S.Appends J := by
  intro output x
  unfold serializeTo
  refine ⟨ByteArray.extract_append_eq_left rfl, ?_⟩
  exact ByteArray.extract_append_eq_right rfl ByteArray.size_append

omit [Double F] in
/-- A member under another key does not change what is found under this one. -/
theorem ifContains_insert_of_ne {key other : String} (h : key ≠ other) (value : Json F)
    (before after : List (String × Json F)) :
    Json.ifContains (before ++ (other, value) :: after) key =
      Json.ifContains (before ++ after) key := by
  induction before with
  | nil => exact Json.ifContains_of_ne h value after
  | cons member before ih =>
      obtain ⟨k, v⟩ := member
      by_cases same : key = k
      · subst same; simp
      · simpa [same] using ih

omit [Double F] in
theorem ifContains_insert_self {key : String} (value : Json F)
    {before after : List (String × Json F)}
    (absent : Json.ifContains (before ++ after) key = none) :
    Json.ifContains (before ++ (key, value) :: after) key = some value := by
  induction before with
  | nil => exact Json.ifContains_self key value after
  | cons member before ih =>
      obtain ⟨k, v⟩ := member
      by_cases same : key = k
      · subst same; simp at absent
      · simp only [List.cons_append, Json.ifContains_of_ne same] at absent ⊢
        exact ih absent

/-- An absent error reads as the empty one, wherever the empty one would stand. -/
theorem OrderItemResult.valueTo_without_error (before after : List (String × Json F))
    (absent : Json.ifContains (before ++ after) "error" = none) :
    OrderItemResult.valueTo (.object (before ++ after)) =
      OrderItemResult.valueTo (.object (before ++ ("error", .string "") :: after)) := by
  have others : ∀ key, key ≠ "error" →
      Json.atKey (before ++ ("error", .string "") :: after) key = Json.atKey (before ++ after) key := by
    intro key ne
    unfold Json.atKey
    rw [ifContains_insert_of_ne ne]
  simp only [valueTo, Json.asObject_object, Json.bind_ok, absent,
    ifContains_insert_self (.string "") absent, Json.toString_string]
  simp only [others "order_id" (by decide), others "item_id" (by decide), others "sku" (by decide),
    others "requested_qty" (by decide), others "available_qty" (by decide),
    others "reserved" (by decide), others "status" (by decide), others "unit_price" (by decide)]

/-- Every record survives its serde and the Kafka topic, and a serde only appends. -/
theorem records_roundTrip (J : BoostJson F) :
    (OrderItemSerde.RoundTrips J ∧ OrderItemResultSerde.RoundTrips J ∧
      OrderProcessedSerde.RoundTrips J ∧ OrderSerde.RoundTrips J ∧ OrderStateSerde.RoundTrips J) ∧
    (∀ x : OrderProcessed, J.Inverts x.valueFrom →
      OrderProcessedEndpointSource.consumeMessage J
        (OrderProcessedEndpointSink.consumeMessage J x).value = .ok (x.orderId, x)) ∧
    (OrderItemSerde.Appends J ∧ OrderItemResultSerde.Appends J ∧
      OrderProcessedSerde.Appends J ∧ OrderSerde.Appends J ∧ OrderStateSerde.Appends J) ∧
    (∀ before after : List (String × Json F),
      Json.ifContains (before ++ after) "error" = none →
      OrderItemResult.valueTo (.object (before ++ after)) =
        OrderItemResult.valueTo (.object (before ++ ("error", .string "") :: after))) := by
  refine ⟨⟨?_, ?_, ?_, ?_, ?_⟩, ?_, ⟨?_, ?_, ?_, ?_, ?_⟩, OrderItemResult.valueTo_without_error⟩
  · exact Serde.roundTrips _ J OrderItem.valueTo_reread
  · exact Serde.roundTrips _ J OrderItemResult.valueTo_reread
  · exact Serde.roundTrips _ J OrderProcessed.valueTo_reread
  · exact Serde.roundTrips _ J Order.valueTo_reread
  · exact Serde.roundTrips _ J OrderState.valueTo_reread
  · intro x inverts
    have read := OrderProcessedSerde.valueOfText_serialize (OrderProcessed.valueTo_reread x) inverts
    unfold OrderProcessedEndpointSource.consumeMessage OrderProcessedEndpointSink.consumeMessage
    exact congrArg (· >>= fun value => Except.ok (value.orderId, value)) read
  all_goals exact Serde.appends _ J

def confirmedEvent : OrderProcessed := ⟨"order-1", "CONFIRMED", "2026-08-16T12:30:00Z", 2, 2, ""⟩

def confirmedEventText : String :=
  "\x7b\"order_id\":\"order-1\",\"status\":\"CONFIRMED\",\"processed_at\":\"2026-08-16T12:30:00Z\"," ++
    "\"total_items\":2,\"confirmed_items\":2,\"failure_reason\":\"\"\x7d"

/-- What the library does with `confirmedEvent` and with its text. -/
def confirmedEventBoost : BoostJson ℚ where
  parse text := if text = confirmedEventText then .ok (Json.reread confirmedEvent.valueFrom)
    else .error "syntax error"
  serialize _ := confirmedEventText
  what _ := "syntax error"

theorem records_roundTrip_confirmedEvent :
    OrderProcessedEndpointSource.consumeMessage confirmedEventBoost
      (OrderProcessedEndpointSink.consumeMessage confirmedEventBoost confirmedEvent).value =
        .ok ("order-1", confirmedEvent) :=
  (records_roundTrip confirmedEventBoost).2.1 confirmedEvent
    (by simp [BoostJson.Inverts, confirmedEventBoost])

end OrderServices
