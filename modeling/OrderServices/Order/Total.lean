import OrderServices.Order.Arrivals
import Mathlib.Algebra.BigOperators.Group.List.Basic

/-! The amount of an order on its way through the pipeline: it is added up from the submitted
items, leaves with them, and is added up again from what comes back. -/
namespace OrderServices

open Json

variable {F : Type}

def OrderItem.amount (value : F → ℚ) (item : OrderItem F) : ℚ :=
  (item.quantity.toInt : ℚ) * value item.unitPrice

/-- Quantity and price of an item come back with each of its outcomes. -/
theorem Outcome.result_amount (value : F → ℚ) (item : OrderItem F) (outcome : Outcome) :
    value (outcome.result item).unitPrice * ((outcome.result item).requestedQty.toInt : ℚ) =
      item.amount value := by
  rw [OrderItem.amount, mul_comm]
  cases outcome <;> rfl

theorem outcomes_amounts (value : F → ℚ) (arrivals : List (Arrival F)) :
    (outcomes arrivals).map (fun r => value r.unitPrice * (r.requestedQty.toInt : ℚ)) =
      (arrivedItems arrivals).map (OrderItem.amount value) := by
  induction arrivals with
  | nil => rfl
  | cons a arrivals ih =>
      have head : a.results.map (fun r => value r.unitPrice * (r.requestedQty.toInt : ℚ)) =
          (arrivedItems [a]).map (OrderItem.amount value) := by
        obtain ⟨⟨item, outcome⟩ | _, mappedAt, receivedAt⟩ := a
        · exact congrArg (fun amount => [amount]) (Outcome.result_amount value item outcome)
        · rfl
      rw [outcomes, List.flatMap_cons, List.map_append, arrivedItems_cons, List.map_append, head]
      exact congrArg _ ih

theorem length_outcomes (arrivals : List (Arrival F)) :
    (outcomes arrivals).length = (arrivedItems arrivals).length := by
  induction arrivals with
  | nil => rfl
  | cons a arrivals ih =>
      have head : a.results.length = (arrivedItems [a]).length := by
        obtain ⟨_ | _, _, _⟩ := a <;> rfl
      rw [outcomes, List.flatMap_cons, List.length_append, arrivedItems_cons, List.length_append, head]
      exact congrArg _ ih

theorem processOrderItems_amounts (value : F → ℚ) (order : Order F) :
    (processOrderItems order).map (OrderItem.amount value) = order.items.map (OrderItem.amount value) := by
  rw [processOrderItems, List.map_map]
  rfl

variable [Double F]

/-- The loop of the callback, read without rounding. -/
theorem foldl_amounts {value : F → ℚ} (exact : Double.Exact value) (total : F)
    (results : List (OrderItemResult F)) :
    value (results.foldl
        (fun total item => total + item.unitPrice * Double.ofInt item.requestedQty.toInt) total) =
      value total + (results.map fun r => value r.unitPrice * (r.requestedQty.toInt : ℚ)).sum := by
  induction results generalizing total with
  | nil => simp
  | cons r results ih =>
      rw [List.foldl_cons, ih, exact.add, exact.mul, exact.ofInt, List.map_cons, List.sum_cons, add_assoc]

/-- The total of an answer: over the arrived items, or the submitted one when there are none. -/
theorem answerTotal_exact {value : F → ℚ} (exact : Double.Exact value) (order : Order F)
    (arrivals : List (Arrival F)) :
    value (answerTotal order (outcomes arrivals)) =
      if arrivedItems arrivals = [] then value order.totalAmount
      else ((arrivedItems arrivals).map (OrderItem.amount value)).sum := by
  have empty : (outcomes arrivals).isEmpty ↔ arrivedItems arrivals = [] := by
    rw [List.isEmpty_iff_length_eq_zero, length_outcomes, List.length_eq_zero_iff]
  unfold answerTotal
  by_cases none : arrivedItems arrivals = []
  · rw [if_pos (empty.mpr none), if_pos none]
  · rw [if_neg (empty.not.mpr none), if_neg none, foldl_amounts exact, exact.zero, zero_add,
      outcomes_amounts]

/-- The order of the results does not matter to the total. -/
theorem answerTotal_perm {value : F → ℚ} (exact : Double.Exact value) (order : Order F)
    {results results' : List (OrderItemResult F)} (same : results.Perm results') :
    value (answerTotal order results) = value (answerTotal order results') := by
  have empty : results.isEmpty = results'.isEmpty := same.isEmpty_eq
  unfold answerTotal
  rw [empty]
  split
  · rfl
  · rw [foldl_amounts exact, foldl_amounts exact,
      (same.map fun r => value r.unitPrice * (r.requestedQty.toInt : ℚ)).sum_eq]

/-- When all items have arrived, their amounts add up to the submitted total. -/
theorem arrived_total {J : BoostJson F} {ambient : Surroundings} {request : HttpRequest}
    {value : F → ℚ} (exact : Double.Exact value) {order : Order F}
    (described : ProcessOrderSource.OrderOf J ambient request order) {arrivals : List (Arrival F)}
    (fanned : Fanned order arrivals) (complete : (outcomes arrivals).length = order.items.length) :
    value (answerTotal order (outcomes arrivals)) = value order.totalAmount := by
  rw [answerTotal_exact exact]
  split
  · rfl
  · have perm : (arrivedItems arrivals).Perm (processOrderItems order) := by
      refine fanned.perm_of_length_le ?_
      rw [← length_outcomes, complete, processOrderItems, List.length_map]
    rw [(perm.map (OrderItem.amount value)).sum_eq, processOrderItems_amounts, described.total,
      ProcessOrderSource.amountFrom_exact exact, exact.zero, zero_add]
    rfl

/-- Every answer reports what its status promises: the submitted total when all outcomes have
arrived, else the amounts of the items that have, and the submitted total when none has. The
same outcomes give the same total in every order of arrival. -/
theorem total_conserved {source : ProcessOrderSource} {J : BoostJson F} {ambient : Surroundings}
    {context context' : MessageContext} {request : HttpRequest} {data₀ data : HandlerData}
    {shared : SharedState F} {value : F → ℚ} (exact : Double.Exact value)
    (accepted : source.beginRequest J ambient context request data₀ = (.ok (context', shared), data)) :
    (∀ before last after, Fanned shared.order (before ++ last :: after) →
      Undecided shared.order.items.length before →
      ¬Undecided shared.order.items.length (before ++ [last]) →
      ∃ members total,
        (receiveArrivals J shared data (before ++ last :: after)).2 =
          data.reply 200 "application/json" (J.serialize (.object members)) ∧
        ifContains members "total_amount" = some (.double total) ∧
        (last.isDeadline = false → value total = value shared.order.totalAmount) ∧
        (last.isDeadline = true → arrivedItems before = [] →
          value total = value shared.order.totalAmount) ∧
        (last.isDeadline = true → arrivedItems before ≠ [] →
          value total = ((arrivedItems before).map (OrderItem.amount value)).sum)) ∧
    ∀ before last after before' last' after',
      Undecided shared.order.items.length before →
      ¬Undecided shared.order.items.length (before ++ [last]) →
      Undecided shared.order.items.length before' →
      ¬Undecided shared.order.items.length (before' ++ [last']) →
      (outcomes (before ++ [last])).Perm (outcomes (before' ++ [last'])) →
      ∃ members total members' total',
        (receiveArrivals J shared data (before ++ last :: after)).2 =
          data.reply 200 "application/json" (J.serialize (.object members)) ∧
        ifContains members "total_amount" = some (.double total) ∧
        (receiveArrivals J shared data (before' ++ last' :: after')).2 =
          data.reply 200 "application/json" (J.serialize (.object members')) ∧
        ifContains members' "total_amount" = some (.double total') ∧ value total = value total' := by
  obtain ⟨described, -, fresh⟩ := ProcessOrderSource.beginRequest_ok accepted
  rw [fresh]
  refine ⟨?_, ?_⟩
  · intro before last after fanned undecided decided
    have answered := receiveArrivals_decided J shared.order data after undecided decided
    refine ⟨_, _, congrArg Prod.snd answered, rfl, ?_, ?_, ?_⟩
    · intro outcome
      have split : before ++ last :: after = (before ++ [last]) ++ after := by simp
      rw [split] at fanned
      exact arrived_total exact described fanned.initialPart
        (outcomes_length_of_decided undecided decided outcome)
    · intro deadline none
      refine (answerTotal_exact exact shared.order (before ++ [last])).trans (if_pos ?_)
      rw [arrivedItems_deadline deadline, none]
    · intro deadline some
      refine (answerTotal_exact exact shared.order (before ++ [last])).trans ?_
      rw [arrivedItems_deadline deadline, if_neg some]
  · intro before last after before' last' after' undecided decided undecided' decided' same
    have answered := receiveArrivals_decided J shared.order data after undecided decided
    have answered' := receiveArrivals_decided J shared.order data after' undecided' decided'
    refine ⟨_, _, _, _, congrArg Prod.snd answered, rfl, congrArg Prod.snd answered', rfl, ?_⟩
    exact answerTotal_perm exact shared.order same

theorem total_conserved_twoItems :
    ∃ members total, (receiveArrivals (twoItemsBoost twoItemsAnswer) (.accepted twoItemsOrder)
        ⟨0, "", "", 0⟩ [twoShort, oneReserved]).2 =
          ⟨200, "application/json", (twoItemsBoost twoItemsAnswer).serialize (.object members), 1⟩ ∧
      ifContains members "total_amount" = some (.double total) ∧ total = 27 := by
  have fanned : Fanned twoItemsOrder [twoShort, oneReserved] := (List.Perm.swap _ _ []).subperm
  obtain ⟨members, total, answered, reported, complete, -⟩ :=
    (total_conserved Double.exact_rat (twoItems_started twoItemsAnswer ⟨0, "", "", 0⟩)).1
      [twoShort] oneReserved [] fanned (by decide) (by decide)
  exact ⟨members, total, answered, reported, complete rfl⟩

end OrderServices
