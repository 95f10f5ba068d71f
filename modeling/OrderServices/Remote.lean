import OrderServices.Inventory.Endpoint
import OrderServices.Order.Pipeline

/-! A reservation over the wire and one in place. The request leaves out the price and the
response leaves out everything that the sink keeps, so the two have to be put together again. -/
namespace OrderServices

variable {F : Type} [Double F]

def wireItem (item : OrderItem F) : OrderItem F :=
  ProcessOrderItemSource.consumeMessage (ProcessOrderItemSink.consumeMessage item).2

def remoteResult (item : OrderItem F) (result : OrderItemResult F) : OrderItemResult F :=
  ProcessOrderItemSink.handleResponse (ProcessOrderItemSink.consumeMessage item).1
    (ProcessOrderItemSource.resultCallback result)

/-- What every result of an inventory operator says about the requested quantity. -/
structure OrderItemResult.Consistent (result : OrderItemResult F) (item : OrderItem F) : Prop where
  status : result.reserved = true ↔ result.status = "CONFIRMED"
  confirmed : result.reserved = true → result.availableQty = item.quantity
  short : result.reserved = false → result.status = "OUT_OF_STOCK" ∧
    0 ≤ result.availableQty.toInt ∧ result.availableQty.toInt < item.quantity.toInt

theorem tryReserve_rejected_available {stock : Stock}
    (nonneg : ∀ sku n, stock sku = some n → 0 ≤ n.toInt) {r : Reservation} {after : AbstractStock}
    {available : ℤ} (positive : 0 < r.quantity)
    (rejected : tryReserve.apply stock.view r = (after, .rejected available)) :
    0 ≤ (Int32.ofInt available).toInt ∧ (Int32.ofInt available).toInt < r.quantity := by
  cases counter : stock r.sku with
  | none =>
      have unknown : stock.view r.sku = none := by simp [Stock.view, counter]
      rw [tryReserve_unknown unknown] at rejected
      cases rejected
      have zero : (Int32.ofInt 0).toInt = 0 := rfl
      omega
  | some n =>
      have known : stock.view r.sku = some n.toInt := by simp [Stock.view, counter]
      by_cases enough : r.quantity ≤ n.toInt
      · rw [tryReserve_confirmed known enough] at rejected
        cases rejected
      · rw [tryReserve_rejected known (Int.not_le.mp enough)] at rejected
        cases rejected
        rw [Int32.ofInt_toInt]
        exact ⟨nonneg _ _ counter, Int.not_le.mp enough⟩

/-- The fields that the two hops drop come back from the state of the sink; only the text of the
error is lost. -/
theorem remoteResult_eq (item : OrderItem F) (v : Verdict) :
    { remoteResult item (v.result (wireItem item)) with error := (v.result item).error } =
      v.result item := by
  cases v <;> rfl

/-- Sending an item to the inventory service ends like reserving it in place, with the same
stock and, but for the error, the same result. -/
theorem remote_agrees {stock : Stock} (nonneg : ∀ sku n, stock sku = some n → 0 ≤ n.toInt)
    {item : OrderItem F} (positive : 1 ≤ item.quantity.toInt) :
    (∃ s result, Lone stock (wireItem item) s result) ∧ (∃ s result, Lone stock item s result) ∧
    ∀ s result s' result', Lone stock (wireItem item) s result → Lone stock item s' result' →
      s.stock = s'.stock ∧
      { remoteResult item result with error := result'.error } = result' ∧
      (remoteResult item result).Consistent item := by
  refine ⟨Lone.exists stock (wireItem item) (by change 0 ≤ item.quantity.toInt; omega),
    Lone.exists stock item (by omega), ?_⟩
  intro s result s' result' remote here
  obtain ⟨v, step, rfl⟩ := remote.spec
  obtain ⟨v', step', rfl⟩ := here.spec
  have same : (s.stock.view, v) = (s'.stock.view, v') := step.symm.trans step'
  obtain ⟨stocks, rfl⟩ := Prod.mk.inj same
  refine ⟨Stock.view_injective stocks, remoteResult_eq item v, ?_⟩
  cases v with
  | confirmed => exact ⟨⟨fun _ => rfl, fun _ => rfl⟩, fun _ => rfl, fun no => absurd no.symm Bool.false_ne_true⟩
  | rejected available =>
      have bounds := tryReserve_rejected_available nonneg (r := ⟨item.sku, item.quantity.toInt⟩)
        (by change 0 < item.quantity.toInt; omega) step'
      have unequal : "OUT_OF_STOCK" ≠ "CONFIRMED" := by decide
      exact ⟨⟨fun no => absurd no Bool.false_ne_true, fun no => absurd no unequal⟩,
        fun no => absurd no Bool.false_ne_true, fun _ => ⟨rfl, bounds⟩⟩

theorem remote_agrees_shortage :
    let item : OrderItem ℚ := ⟨"order-1", "item-1", "SKU-003", 26, 10⟩
    ∃ s result s' result', Lone initialStock (wireItem item) s result ∧
      Lone initialStock item s' result' ∧ s.stock = s'.stock ∧
      { remoteResult item result with error := result'.error } = result' := by
  intro item
  obtain ⟨⟨s, result, remote⟩, ⟨s', result', here⟩, agree⟩ :=
    remote_agrees (fun _ _ => initialStock_nonneg) (show 1 ≤ item.quantity.toInt by decide)
  obtain ⟨stocks, equal, -⟩ := agree s result s' result' remote here
  exact ⟨s, result, s', result', remote, here, stocks, equal⟩

end OrderServices
