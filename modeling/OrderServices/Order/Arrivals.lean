import OrderServices.Order.Answer
import Mathlib.Data.List.Perm.Subperm

/-! One order from its acceptance on: the outcomes of its items race with the soft deadline
for the result callback. -/
namespace OrderServices

open Json Collector

variable {F : Type}

inductive Event (F : Type)
  | outcome (item : OrderItem F) (outcome : Outcome)
  | deadline
  deriving DecidableEq, Repr

/-- An event with the times at which it is mapped to a state and reaches the callback. -/
structure Arrival (F : Type) where
  event : Event F
  mappedAt : String
  receivedAt : String
  deriving DecidableEq, Repr

def Arrival.value [Zero F] (order : Order F) (a : Arrival F) : OrderState F :=
  match a.event with
  | .outcome item outcome => mapOrderItemResultToOrderState a.mappedAt (outcome.result item)
  | .deadline => mapToOrderState order

def Arrival.results (a : Arrival F) : List (OrderItemResult F) :=
  match a.event with
  | .outcome item outcome => [outcome.result item]
  | .deadline => []

def Arrival.isDeadline (a : Arrival F) : Bool :=
  match a.event with
  | .outcome _ _ => false
  | .deadline => true

/-- The item results of the outcomes, in their order of arrival. -/
def outcomes (arrivals : List (Arrival F)) : List (OrderItemResult F) := arrivals.flatMap Arrival.results

/-- No deadline has arrived, and fewer outcomes than items. -/
def Undecided (n : ℕ) (arrivals : List (Arrival F)) : Prop :=
  (∀ a ∈ arrivals, a.isDeadline = false) ∧ (outcomes arrivals).length < n

instance (n : ℕ) (arrivals : List (Arrival F)) : Decidable (Undecided n arrivals) :=
  inferInstanceAs (Decidable (_ ∧ _))

def arrivalRules (n : ℕ) : Rules (Arrival F) (OrderItemResult F) where
  stops := Arrival.isDeadline
  items := Arrival.results
  expected := n

/-- A deadline brings no results, and every outcome brings one. -/
theorem Arrival.length_results (a : Arrival F) :
    a.results.length = if a.isDeadline then 0 else 1 := by
  obtain ⟨_ | _, _, _⟩ := a <;> rfl

theorem added_arrivalRules (n : ℕ) (a : Arrival F) : added (arrivalRules n) a = a.results := by
  have length := a.length_results
  unfold added
  split
  · rename_i deadline
    change a.isDeadline = true at deadline
    rw [if_pos deadline, List.length_eq_zero_iff] at length
    exact length.symm
  · rfl

theorem undecided_or_decided {n : ℕ} (waits : 0 < n) (arrivals : List (Arrival F)) :
    Undecided n arrivals ∨ ∃ before last after, arrivals = before ++ last :: after ∧
      Undecided n before ∧ ¬Undecided n (before ++ [last]) :=
  Collector.undecided_or_decided (C := arrivalRules n) waits arrivals

/-- The items whose outcomes have arrived. -/
def arrivedItems (arrivals : List (Arrival F)) : List (OrderItem F) :=
  arrivals.flatMap fun a =>
    match a.event with
    | .outcome item _ => [item]
    | .deadline => []

/-- Every item of the fan-out has at most one outcome. -/
def Fanned (order : Order F) (arrivals : List (Arrival F)) : Prop :=
  List.Subperm (arrivedItems arrivals) (processOrderItems order)

theorem outcomes_concat (before : List (Arrival F)) (last : Arrival F) :
    outcomes (before ++ [last]) = outcomes before ++ last.results := by
  simp [outcomes]

theorem arrivedItems_append (before after : List (Arrival F)) :
    arrivedItems (before ++ after) = arrivedItems before ++ arrivedItems after := by
  simp [arrivedItems]

theorem arrivedItems_cons (a : Arrival F) (after : List (Arrival F)) :
    arrivedItems (a :: after) = arrivedItems [a] ++ arrivedItems after := arrivedItems_append [a] after

theorem arrivedItems_deadline {before : List (Arrival F)} {last : Arrival F}
    (deadline : last.isDeadline = true) : arrivedItems (before ++ [last]) = arrivedItems before := by
  have none : arrivedItems [last] = [] := by
    obtain ⟨_ | _, _, _⟩ := last
    · cases deadline
    · rfl
  rw [arrivedItems_append, none, List.append_nil]

theorem Fanned.initialPart {order : Order F} {before after : List (Arrival F)}
    (h : Fanned order (before ++ after)) : Fanned order before := by
  unfold Fanned at h ⊢
  rw [arrivedItems_append] at h
  exact (List.sublist_append_left _ _).subperm.trans h

/-- What arrives for an order names the order. -/
theorem Fanned.orderId {order : Order F} {arrivals : List (Arrival F)} (h : Fanned order arrivals)
    {r : OrderItemResult F} (arrived : r ∈ outcomes arrivals) : r.orderId = order.id := by
  obtain ⟨⟨⟨item, outcome⟩ | _, mappedAt, receivedAt⟩, ha, hr⟩ := List.mem_flatMap.mp arrived
  · have member : item ∈ arrivedItems arrivals :=
      List.mem_flatMap.mpr ⟨_, ha, List.mem_singleton_self item⟩
    obtain ⟨original, -, rfl⟩ := List.mem_map.mp (h.subset member)
    rw [List.mem_singleton.mp hr]
    cases outcome <;> rfl
  · cases hr

def arrivalValue [Zero F] (order : Order F) (a : Arrival F) : OrderState F × String :=
  (a.value order, a.receivedAt)

theorem Arrival.value_confirmedItems [Zero F] (order : Order F) (a : Arrival F) :
    (a.value order).confirmedItems = a.results := by
  obtain ⟨_ | _, _, _⟩ := a <;> rfl

theorem Arrival.value_timedOut [Zero F] (order : Order F) (a : Arrival F) :
    (a.value order).status = "TIMED_OUT" ↔ a.isDeadline = true := by
  obtain ⟨⟨item, outcome⟩ | _, mappedAt, receivedAt⟩ := a
  · cases reserved : (outcome.result item).reserved <;>
      simp [value, isDeadline, mapOrderItemResultToOrderState, reserved]
  · exact ⟨fun _ => rfl, fun _ => rfl⟩

/-- The values mean to the callback what their arrivals are. -/
theorem comap_arrivalValue [Zero F] (order : Order F) (n : ℕ) :
    (callbackRules n).comap (arrivalValue order) = arrivalRules n := by
  have stops : (callbackRules n).stops ∘ arrivalValue order = Arrival.isDeadline := by
    funext a
    rw [Bool.eq_iff_iff, ← a.value_timedOut order]
    exact beq_iff_eq
  have items : (callbackRules n).items ∘ arrivalValue order = Arrival.results := by
    funext a
    exact a.value_confirmedItems order
  rw [Rules.comap, arrivalRules, stops, items]
  rfl

/-- An outcome that decides is the one that completes the order. -/
theorem outcomes_length_of_decided {n : ℕ} {before : List (Arrival F)} {last : Arrival F}
    (undecided : Undecided n before) (decided : ¬Undecided n (before ++ [last]))
    (outcome : last.isDeadline = false) : (outcomes (before ++ [last])).length = n := by
  have one := last.length_results
  rw [outcome, if_neg Bool.false_ne_true] at one
  have complete : ¬(outcomes (before ++ [last])).length < n := by
    refine fun missing => decided ⟨?_, missing⟩
    intro a ha
    rcases List.mem_append.mp ha with old | new
    · exact undecided.1 a old
    · rw [List.mem_singleton.mp new]
      exact outcome
  have missing := undecided.2
  rw [outcomes_concat, List.length_append, one] at complete ⊢
  omega

/-- The results that an answer lists. -/
def listedItems (members : List (String × Json F)) : List (Json F) :=
  match ifContains members "confirmed_items" with
  | some (.array elements) => elements
  | _ => []

theorem listedItems_responseMembers (nowString orderId status : String)
    (results : List (OrderItemResult F)) (totalAmount : F) :
    listedItems (responseMembers nowString orderId status results totalAmount) =
      results.map responseItem := by
  cases results with
  | nil => simp [listedItems, responseMembers]
  | cons first rest => simp [listedItems, responseMembers]

variable [Double F]

/-- The values of the arrivals reach the callback one after another. -/
def receiveArrivals (J : BoostJson F) (shared : SharedState F) (data : HandlerData)
    (arrivals : List (Arrival F)) : SharedState F × HandlerData :=
  receiveValues J (shared, data) (arrivals.map (arrivalValue shared.order))

/-- The callback treats the arrivals like a collector of their results. -/
theorem receiveArrivals_ofCollector (J : BoostJson F) (order : Order F) (data : HandlerData)
    (arrivals : List (Arrival F)) :
    receiveArrivals J (.accepted order) data arrivals = ofCollector J (.accepted order, data)
      ((receiveAll (arrivalRules order.items.length) (.collecting []) arrivals).map
        (arrivalValue order)) := by
  rw [← comap_arrivalValue order, ← receiveAll_map]
  exact receiveValues_ofCollector J (.accepted order, data) rfl (.collecting []) _

/-- Before anything is decided, the record collects the outcomes and nothing is written. -/
theorem receiveArrivals_undecided (J : BoostJson F) (order : Order F) (data : HandlerData)
    {arrivals : List (Arrival F)} (undecided : Undecided order.items.length arrivals) :
    receiveArrivals J (.accepted order) data arrivals =
      ({ SharedState.accepted order with results := outcomes arrivals }, data) := by
  rw [receiveArrivals_ofCollector,
    receiveAll_undecided (C := arrivalRules order.items.length) undecided]
  rfl

/-- The first arrival that decides closes the record and writes the answer. -/
theorem receiveArrivals_decided (J : BoostJson F) (order : Order F) (data : HandlerData)
    {before : List (Arrival F)} {last : Arrival F} (after : List (Arrival F))
    (undecided : Undecided order.items.length before)
    (decided : ¬Undecided order.items.length (before ++ [last])) :
    receiveArrivals J (.accepted order) data (before ++ last :: after) =
      let results := outcomes (before ++ [last])
      ({ SharedState.accepted order with results, responseSent := true },
        data.reply 200 "application/json" (makeResponse J last.receivedAt order.id
          (answerStatus (last.value order) results) results (answerTotal order results))) := by
  rw [receiveArrivals_ofCollector,
    receiveAll_decided (C := arrivalRules order.items.length) undecided decided, added_arrivalRules,
    outcomes_concat]
  rfl

/-- The answer of an accepted order. Nothing is written while the arrivals are undecided. The
first deadline or the last outcome, whichever comes first, writes the answer once and for all. -/
theorem answer_written_once {source : ProcessOrderSource} {J : BoostJson F}
    {ambient : Surroundings} {context context' : MessageContext} {request : HttpRequest}
    {data₀ data : HandlerData} {shared : SharedState F}
    (accepted : source.beginRequest J ambient context request data₀ = (.ok (context', shared), data)) :
    (∀ arrivals : List (Arrival F), Undecided shared.order.items.length arrivals →
      receiveArrivals J shared data arrivals = ({ shared with results := outcomes arrivals }, data)) ∧
    (∀ (before : List (Arrival F)) (last : Arrival F) (after : List (Arrival F)),
      Undecided shared.order.items.length before →
      ¬Undecided shared.order.items.length (before ++ [last]) →
      ∃ members status,
        receiveArrivals J shared data (before ++ last :: after) =
          ({ shared with results := outcomes (before ++ [last]), responseSent := true },
            data.reply 200 "application/json" (J.serialize (.object members))) ∧
        ifContains members "order_id" = some (.string shared.order.id) ∧
        ifContains members "status" = some (.string status) ∧
        listedItems members = (outcomes (before ++ [last])).map responseItem ∧
        (last.isDeadline = true → status = "TIMED_OUT") ∧
        (last.isDeadline = false →
          (outcomes (before ++ [last])).length = shared.order.items.length ∧
          (status = "CONFIRMED" ↔ ∀ r ∈ outcomes (before ++ [last]), r.reserved = true) ∧
          (status = "CONFIRMED" ∨ status = "PARTIALLY_CONFIRMED"))) ∧
    ∀ arrivals : List (Arrival F), Undecided shared.order.items.length arrivals ∨
      ∃ before last after, arrivals = before ++ last :: after ∧
        Undecided shared.order.items.length before ∧
        ¬Undecided shared.order.items.length (before ++ [last]) := by
  obtain ⟨described, -, fresh⟩ := ProcessOrderSource.beginRequest_ok accepted
  refine ⟨?_, ?_, undecided_or_decided described.items_pos⟩
  · intro arrivals undecided
    rw [fresh]
    exact receiveArrivals_undecided J _ data undecided
  · intro before last after undecided decided
    let results := outcomes (before ++ [last])
    refine ⟨responseMembers last.receivedAt shared.order.id
      (answerStatus (last.value shared.order) results) results (answerTotal shared.order results),
      answerStatus (last.value shared.order) results, ?_, rfl, rfl,
      listedItems_responseMembers _ _ _ _ _, ?_, ?_⟩
    · rw [fresh]
      exact receiveArrivals_decided J _ data after undecided decided
    · intro deadline
      have timedOut := (last.value_timedOut shared.order).mpr deadline
      rw [answerStatus, if_neg (not_not_intro timedOut), timedOut]
    · intro outcome
      have inTime : (last.value shared.order).status ≠ "TIMED_OUT" := by
        rw [Ne, last.value_timedOut, outcome]
        exact Bool.false_ne_true
      refine ⟨outcomes_length_of_decided undecided decided outcome, ?_⟩
      rw [answerStatus, if_pos inTime]
      cases all : results.all (·.reserved) with
      | true => simpa using all
      | false => simpa using all

/-- The text of the answer to the request with two items, of which one was reserved. -/
def twoItemsAnswer : String :=
  "\x7b\"order_id\":\"order-123\",\"status\":\"PARTIALLY_CONFIRMED\",\"total_amount\":2.7E1," ++
    "\"processed_at\":\"2026-08-16T12:00:02Z\",\"confirmed_items\":[" ++
    "\x7b\"item_id\":\"one\",\"sku\":\"SKU-001\",\"available_qty\":2,\"reserved\":true," ++
    "\"status\":\"CONFIRMED\"\x7d,\x7b\"item_id\":\"two\",\"sku\":\"missing\"," ++
    "\"available_qty\":0,\"reserved\":false,\"status\":\"OUT_OF_STOCK\"\x7d]\x7d"

def oneReserved : Arrival ℚ :=
  ⟨.outcome ⟨"order-123", "one", "SKU-001", 2, 10⟩ (.response ⟨2, true, "CONFIRMED"⟩),
    "2026-08-16T12:00:01Z", "2026-08-16T12:00:01Z"⟩

def twoShort : Arrival ℚ :=
  ⟨.outcome ⟨"order-123", "two", "missing", 1, 7⟩ (.response ⟨0, false, "OUT_OF_STOCK"⟩),
    "2026-08-16T12:00:02Z", "2026-08-16T12:00:02Z"⟩

def lateDeadline : Arrival ℚ := ⟨.deadline, "2026-08-16T12:00:05Z", "2026-08-16T12:00:05Z"⟩

theorem answer_written_once_twoItems :
    ∃ members, receiveArrivals (twoItemsBoost twoItemsAnswer) (.accepted twoItemsOrder) ⟨0, "", "", 0⟩
        [oneReserved, twoShort, lateDeadline] =
          ({ SharedState.accepted twoItemsOrder with
              results := outcomes [oneReserved, twoShort], responseSent := true },
            ⟨200, "application/json", (twoItemsBoost twoItemsAnswer).serialize (.object members), 1⟩) ∧
      ifContains members "status" = some (.string "PARTIALLY_CONFIRMED") := by
  obtain ⟨members, status, run, -, stated, -, -, verdict⟩ :=
    (answer_written_once (twoItems_started twoItemsAnswer ⟨0, "", "", 0⟩)).2.1
      [oneReserved] twoShort [lateDeadline] (by decide) (by decide)
  obtain ⟨-, confirmed, either⟩ := verdict rfl
  have partly : status = "PARTIALLY_CONFIRMED" :=
    either.resolve_left fun all => absurd (confirmed.mp all) (by decide)
  subst partly
  exact ⟨members, run, stated⟩

end OrderServices
