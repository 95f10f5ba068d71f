import OrderServices.Inventory.Lone

/-! `ProcessOrderItemSource`, the gRPC endpoint in front of the stock. It checks nothing, so
every value of the request type reaches the operator. -/
namespace OrderServices

open Runs

variable {F : Type}

/-- What a call whose quantity is positive has taken from `sku`. -/
def Call.sells (sku : String) (c : Call F) : ℤ := if 0 < c.value.quantity then c.takes sku else 0

structure Inventory.Protected (stock₀ : Stock) (s : Inventory F) : Prop where
  bounded : ∀ sku n₀, stock₀ sku = some n₀ →
    ∃ n, s.stock sku = some n ∧ 0 ≤ n.toInt ∧ n.toInt ≤ n₀.toInt
  defined : ∀ c ∈ s.calls, ∀ available, c.progress = .exchanging available →
    (SignedWord.checkedSub available c.value.quantity).isSome
  sold : ∀ sku n₀, stock₀ sku = some n₀ → (s.calls.map (Call.sells sku)).sum ≤ n₀.toInt

theorem Call.sells_eq {sku : String} {c : Call F}
    (nonneg : c.value.sku = sku → 0 ≤ c.value.quantity.toInt) : c.sells sku = c.takes sku := by
  unfold sells
  split
  · rfl
  · rename_i nonpositive
    rw [Int32.lt_iff_toInt_lt] at nonpositive
    have zero : (0 : Int32).toInt = 0 := rfl
    unfold takes
    cases c.verdict with
    | rejected available => rfl
    | confirmed =>
        change 0 = if c.reservation.sku = sku then c.reservation.quantity else 0
        split
        · rename_i same
          have := nonneg same
          change 0 = c.value.quantity.toInt
          omega
        · rfl

variable [Double F]

/-- The price is not sent, so the item gets none. -/
def ProcessOrderItemSource.consumeMessage (request : ProcessOrderItemRequest) : OrderItem F :=
  ⟨request.orderId, request.itemId, request.sku, request.quantity, 0⟩

/-- The id under which the result callback is registered. -/
def ProcessOrderItemSource.callbackId (request : ProcessOrderItemRequest) : String := request.itemId

def ProcessOrderItemSource.getMessageId (result : OrderItemResult F) : String := result.itemId

def ProcessOrderItemSource.resultCallback (result : OrderItemResult F) : ProcessOrderItemResponse :=
  ⟨result.availableQty, result.reserved, result.status⟩

/-- The response to call `k`, once its result has reached the callback. -/
def Inventory.response? (s : Inventory F) (k : ℕ) : Option ProcessOrderItemResponse :=
  match s.calls[k]? with
  | some ⟨value, .decided available reserved, true⟩ =>
      some (ProcessOrderItemSource.resultCallback (mergeInventoryResult (emit value available reserved)))
  | _ => none

theorem ProcessOrderItemSource.callback_found (request : ProcessOrderItemRequest)
    (available : Int32) (reserved : Bool) :
    getMessageId (mergeInventoryResult (emit (consumeMessage request : OrderItem F) available reserved)) =
      callbackId request := by
  cases reserved <;> rfl

def FromRequests (admits : ProcessOrderItemRequest → Prop) (acts : List (InventoryAction F)) : Prop :=
  ∀ value, .invoke value ∈ acts →
    ∃ r, admits r ∧ value = ProcessOrderItemSource.consumeMessage r

/-- If no request for a known SKU has a negative quantity, every run protects the stock. -/
theorem Inventory.protected_of_nonneg {acts : List (InventoryAction F)} {s : Inventory F}
    {admits : ProcessOrderItemRequest → Prop}
    (nonneg : ∀ r, admits r → (initialStock r.sku).isSome → 0 ≤ r.quantity.toInt)
    (requests : FromRequests admits acts)
    (run : Run (Performs Inventory.perform) (.init initialStock) acts s) :
    s.Protected initialStock := by
  have h := Inventory.Explained.run run
  have quantities : ∀ c ∈ s.calls, (initialStock c.value.sku).isSome → 0 ≤ c.value.quantity.toInt := by
    intro c hc known
    obtain ⟨r, admitted, eq⟩ := requests _ (invoked_of_mem run hc)
    rw [eq] at known ⊢
    exact nonneg r admitted known
  have ofSku {sku : String} {n₀ : Int32} (known : initialStock sku = some n₀) :
      ∀ c ∈ s.calls, c.value.sku = sku → 0 ≤ c.value.quantity.toInt := by
    rintro c hc rfl
    exact quantities c hc (by simp [known])
  refine ⟨?_, ?_, ?_⟩
  · intro sku n₀ known
    obtain ⟨n, counter, low, value⟩ := h.known known (initialStock_nonneg known)
    have taken := confirmedOn_nonneg (ofSku known)
    exact ⟨n, counter, low, by omega⟩
  · intro c hc available running
    have known := (h.sound c hc).known available running
    rw [h.exchange_defined hc running (quantities c hc known)]
    rfl
  · intro sku n₀ known
    obtain ⟨n, -, low, value⟩ := h.known known (initialStock_nonneg known)
    have same : s.calls.map (Call.sells sku) = s.calls.map (Call.takes sku) :=
      List.map_congr_left fun c hc => Call.sells_eq (ofSku known c hc)
    rw [same]
    change s.confirmedOn sku ≤ n₀.toInt
    omega

/-- One request with a negative quantity passes the test on every counter. Its subtraction
overflows or adds stock. -/
theorem Inventory.unprotected_of_negative {r : ProcessOrderItemRequest}
    (known : (initialStock r.sku).isSome) (negative : r.quantity.toInt < 0) :
    ∃ acts s, FromRequests (· = r) acts ∧
      Run (Performs Inventory.perform) (.init initialStock) acts s ∧
      ¬ Inventory.Protected (F := F) initialStock s := by
  obtain ⟨n₀, counter⟩ := Option.isSome_iff_exists.mp known
  have nonneg := initialStock_nonneg counter
  let value : OrderItem F := ProcessOrderItemSource.consumeMessage r
  have only {acts : List (InventoryAction F)} (one : acts.filterMap InventoryAction.invoked? = [value]) :
      FromRequests (· = r) acts := by
    intro other invoked
    have member : other ∈ acts.filterMap InventoryAction.invoked? :=
      List.mem_filterMap.mpr ⟨_, invoked, rfl⟩
    rw [one] at member
    exact ⟨r, rfl, List.mem_singleton.mp member⟩
  have enough : value.quantity ≤ n₀ := by
    rw [Int32.le_iff_toInt_le]
    change r.quantity.toInt ≤ n₀.toInt
    omega
  cases defined : SignedWord.checkedSub n₀ r.quantity with
  | none =>
      refine ⟨_, _, only rfl, run_load counter, fun safe => ?_⟩
      have := safe.defined ⟨value, loopCondition value n₀, false⟩ (by simp) n₀ (if_pos enough)
      change (SignedWord.checkedSub n₀ r.quantity).isSome at this
      simp [defined] at this
  | some desired =>
      refine ⟨_, _, only rfl, run_exchange counter enough defined, fun safe => ?_⟩
      obtain ⟨n, now, -, upper⟩ := safe.bounded r.sku n₀ counter
      have eq : n = desired := by
        simpa [Stock.set, value, ProcessOrderItemSource.consumeMessage] using now.symm
      have difference := SignedWord.checkedSub_toInt defined
      rw [eq] at upper
      omega

/-- The endpoint protects the stock in every run over a class of requests exactly when the class
asks for no negative quantity of a known SKU. -/
theorem endpoint_protects_iff (admits : ProcessOrderItemRequest → Prop) :
    (∀ (acts : List (InventoryAction F)) (s : Inventory F), FromRequests admits acts →
        Run (Performs Inventory.perform) (.init initialStock) acts s → s.Protected initialStock) ↔
      ∀ r, admits r → (initialStock r.sku).isSome → 0 ≤ r.quantity.toInt := by
  constructor
  · intro protects r admitted known
    by_contra negative
    obtain ⟨acts, s, requests, run, unprotected⟩ :=
      Inventory.unprotected_of_negative (F := F) known (Int.not_le.mp negative)
    refine unprotected (protects acts s ?_ run)
    intro value invoked
    obtain ⟨_, rfl, eq⟩ := requests value invoked
    exact ⟨_, admitted, eq⟩
  · intro nonneg acts s requests run
    exact Inventory.protected_of_nonneg nonneg requests run

theorem endpoint_negative_adds_stock :
    ∃ (acts : List (InventoryAction ℚ)) (s : Inventory ℚ),
      FromRequests (· = ⟨"order-1", "item-1", "SKU-001", -1⟩) acts ∧
      Run (Performs Inventory.perform) (.init initialStock) acts s ∧
      s.stock "SKU-001" = some 101 ∧ ¬ s.Protected initialStock := by
  let value : OrderItem ℚ := ⟨"order-1", "item-1", "SKU-001", -1, 0⟩
  have ends : ([.invoke value, .load 0, .exchange 0 false].foldlM Inventory.perform
      (.init initialStock)).map (·.stock "SKU-001") = some (some 101) := by decide
  obtain ⟨s, run, counter⟩ := Option.map_eq_some_iff.mp ends
  refine ⟨_, s, ?_, .of_foldlM run, counter, fun safe => ?_⟩
  · intro other invoked
    have eq : other = value := by simpa using invoked
    exact ⟨_, rfl, eq⟩
  · obtain ⟨n, now, -, upper⟩ := safe.bounded "SKU-001" 100 rfl
    rw [counter] at now
    cases now
    exact absurd upper (by decide)

end OrderServices
