import OrderServices.Order.Arrivals

/-! The publishing branch. Split Order Result hands every value of Merge Results both to the
callback and to `MapToOrderProcessed`, whose events the analytics service counts. -/
namespace OrderServices

open Collector

variable {F : Type}

def mapToOrderProcessed (value : OrderState F) : OrderProcessed :=
  ⟨value.orderId, value.status, value.processedAt, .ofNat value.confirmedItems.length,
    .ofNat (value.confirmedItems.countP (·.reserved)),
    if value.status = "CONFIRMED" then "" else value.status⟩

theorem mapToOrderProcessed_failureReason {value : OrderState F} (stated : value.status ≠ "") :
    (mapToOrderProcessed value).failureReason = "" ↔ (mapToOrderProcessed value).status = "CONFIRMED" := by
  by_cases confirmed : value.status = "CONFIRMED"
  · simp [mapToOrderProcessed, confirmed]
  · simp [mapToOrderProcessed, confirmed, stated]

theorem mapToOrderProcessed_counts {value : OrderState F}
    (fits : value.confirmedItems.length < 2 ^ 64) :
    (mapToOrderProcessed value).totalItems.toNat = value.confirmedItems.length ∧
      (mapToOrderProcessed value).confirmedItems.toNat =
        value.confirmedItems.countP (·.reserved) := by
  have le : value.confirmedItems.countP (·.reserved) ≤ value.confirmedItems.length :=
    List.countP_le_length
  exact ⟨UInt64.toNat_ofNat_of_lt' fits, UInt64.toNat_ofNat_of_lt' (Nat.lt_of_le_of_lt le fits)⟩

/-- The counters of `CountOrderProcessed`. -/
structure Counters where
  successful : UInt64
  unsuccessful : UInt64
  deriving DecidableEq, Repr

def countOrderProcessed (state : Counters) (value : OrderProcessed) : Counters :=
  if value.status = "CONFIRMED" then { state with successful := state.successful + 1 }
  else { state with unsuccessful := state.unsuccessful + 1 }

variable [Double F]

/-- The events that the arrivals of an order publish. -/
def publishedEvents (order : Order F) (arrivals : List (Arrival F)) : List OrderProcessed :=
  arrivals.map fun a => mapToOrderProcessed (a.value order)

/-- One event speaks for the order. It describes what the response says and lists, and it is
counted once, under the heading that the client was told. -/
def OneFinalEvent (J : BoostJson F) (shared : SharedState F) (data : HandlerData)
    (published : List OrderProcessed) : Prop :=
  ∃ event now total, published = [event] ∧
    data.responseBody = makeResponse J now event.orderId event.status shared.results total ∧
    event.totalItems.toNat = shared.results.length ∧
    event.confirmedItems.toNat = shared.results.countP (·.reserved) ∧
    (event.failureReason = "" ↔ event.status = "CONFIRMED") ∧
    published.foldl countOrderProcessed ⟨0, 0⟩ = if event.status = "CONFIRMED" then ⟨1, 0⟩ else ⟨0, 1⟩

/-- Alone, a value has the status that the answer gets from it. -/
theorem Arrival.answerStatus_value (order : Order F) (a : Arrival F) :
    answerStatus (a.value order) a.results = (a.value order).status := by
  obtain ⟨⟨item, outcome⟩ | _, mappedAt, receivedAt⟩ := a
  · cases reserved : (outcome.result item).reserved <;>
      simp [answerStatus, value, results, mapOrderItemResultToOrderState, reserved]
  · rfl

theorem Arrival.value_status_ne (order : Order F) (a : Arrival F) : (a.value order).status ≠ "" := by
  obtain ⟨⟨item, outcome⟩ | _, mappedAt, receivedAt⟩ := a
  · cases reserved : (outcome.result item).reserved <;>
      simp [value, mapOrderItemResultToOrderState, reserved]
  · simp [value, mapToOrderState]

theorem Arrival.value_orderId {order : Order F} {a : Arrival F}
    (own : ∀ r ∈ a.results, r.orderId = order.id) : (a.value order).orderId = order.id := by
  obtain ⟨⟨item, outcome⟩ | _, mappedAt, receivedAt⟩ := a
  · exact own _ (List.mem_singleton_self _)
  · rfl

/-- The only value of an order says what the answer says. -/
theorem oneFinalEvent_singleton (J : BoostJson F) (order : Order F) (data : HandlerData)
    {a : Arrival F} (fanned : Fanned order [a])
    (undecided : Undecided order.items.length ([] : List (Arrival F)))
    (decided : ¬Undecided order.items.length [a]) :
    OneFinalEvent J (receiveArrivals J (.accepted order) data [a]).1
      (receiveArrivals J (.accepted order) data [a]).2 (publishedEvents order [a]) := by
  have answered := receiveArrivals_decided J order data [] undecided decided
  have results : outcomes [a] = a.results := by simp [outcomes]
  have named : (a.value order).orderId = order.id := by
    refine Arrival.value_orderId fun r hr => fanned.orderId ?_
    rw [results]
    exact hr
  have one : (a.value order).confirmedItems.length < 2 ^ 64 := by
    rw [a.value_confirmedItems, a.length_results]
    split <;> decide
  obtain ⟨total, reserved⟩ := mapToOrderProcessed_counts one
  rw [a.value_confirmedItems] at total reserved
  rw [List.nil_append] at answered
  simp only [results, a.answerStatus_value] at answered
  rw [answered]
  refine ⟨mapToOrderProcessed (a.value order), a.receivedAt, answerTotal order a.results, rfl, ?_,
    total, reserved, mapToOrderProcessed_failureReason (a.value_status_ne order), ?_⟩
  · simp only [HandlerData.reply, mapToOrderProcessed, named]
  · simp only [publishedEvents, List.map_cons, List.map_nil, List.foldl_cons, List.foldl_nil,
      countOrderProcessed]
    split <;> rfl

/-- Once an order is answered, one event speaks for it exactly when a single value has passed:
every further value publishes an event of its own. -/
theorem one_final_event_iff {source : ProcessOrderSource} {J : BoostJson F}
    {ambient : Surroundings} {context context' : MessageContext} {request : HttpRequest}
    {data₀ data : HandlerData} {shared : SharedState F}
    (accepted : source.beginRequest J ambient context request data₀ = (.ok (context', shared), data))
    {arrivals : List (Arrival F)} (fanned : Fanned shared.order arrivals) :
    ((receiveArrivals J shared data arrivals).1.responseSent = true →
        OneFinalEvent J (receiveArrivals J shared data arrivals).1
          (receiveArrivals J shared data arrivals).2 (publishedEvents shared.order arrivals)) ↔
      Undecided shared.order.items.length arrivals ∨ arrivals.length = 1 := by
  obtain ⟨described, -, fresh⟩ := ProcessOrderSource.beginRequest_ok accepted
  rw [fresh]
  have waits := described.items_pos
  constructor
  · intro holds
    rcases undecided_or_decided waits arrivals with undecided | ⟨before, last, after, rfl, undecided, decided⟩
    · exact .inl undecided
    · have answered := receiveArrivals_decided J shared.order data after undecided decided
      obtain ⟨event, -, -, published, -⟩ := holds (by rw [answered])
      have length := congrArg List.length published
      rw [publishedEvents, List.length_map] at length
      exact .inr length
  · rintro (undecided | single) answered
    · rw [receiveArrivals_undecided J shared.order data undecided] at answered
      cases answered
    · obtain ⟨a, rfl⟩ := List.length_eq_one_iff.mp single
      by_cases undecided : Undecided shared.order.items.length [a]
      · rw [receiveArrivals_undecided J shared.order data undecided] at answered
        cases answered
      · exact oneFinalEvent_singleton J shared.order data fanned ⟨by simp, waits⟩ undecided

theorem one_final_event_deadline :
    OneFinalEvent (twoItemsBoost "")
      (receiveArrivals (twoItemsBoost "") (.accepted twoItemsOrder) ⟨0, "", "", 0⟩ [lateDeadline]).1
      (receiveArrivals (twoItemsBoost "") (.accepted twoItemsOrder) ⟨0, "", "", 0⟩ [lateDeadline]).2
      (publishedEvents twoItemsOrder [lateDeadline]) :=
  have fanned : Fanned twoItemsOrder [lateDeadline] := List.nil_subperm
  (one_final_event_iff (twoItems_started "" ⟨0, "", "", 0⟩) fanned).mpr (.inr rfl) rfl

/-- The order is answered PARTIALLY_CONFIRMED, after two events of which one says CONFIRMED. -/
theorem two_items_two_events :
    Fanned twoItemsOrder [oneReserved, twoShort] ∧
    (receiveArrivals (twoItemsBoost "") (.accepted twoItemsOrder) ⟨0, "", "", 0⟩
      [oneReserved, twoShort]).1.responseSent = true ∧
    publishedEvents twoItemsOrder [oneReserved, twoShort] =
      [⟨"order-123", "CONFIRMED", "2026-08-16T12:00:01Z", 1, 1, ""⟩,
        ⟨"order-123", "PARTIALLY_CONFIRMED", "2026-08-16T12:00:02Z", 1, 0, "PARTIALLY_CONFIRMED"⟩] ∧
    (publishedEvents twoItemsOrder [oneReserved, twoShort]).foldl countOrderProcessed ⟨0, 0⟩ =
      ⟨1, 1⟩ ∧
    ¬OneFinalEvent (twoItemsBoost "")
      (receiveArrivals (twoItemsBoost "") (.accepted twoItemsOrder) ⟨0, "", "", 0⟩
        [oneReserved, twoShort]).1
      (receiveArrivals (twoItemsBoost "") (.accepted twoItemsOrder) ⟨0, "", "", 0⟩
        [oneReserved, twoShort]).2
      (publishedEvents twoItemsOrder [oneReserved, twoShort]) := by
  refine ⟨(List.Perm.refl _).subperm, by decide, by decide, by decide, ?_⟩
  rintro ⟨event, -, -, published, -⟩
  exact absurd (congrArg List.length published) (by decide : ¬(2 = 1))

end OrderServices
