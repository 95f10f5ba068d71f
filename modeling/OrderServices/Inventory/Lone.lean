import OrderServices.Inventory.Linearizable

/-! A call of `GetInventoryItemData` that nothing interferes with, together with
`GetInventoryItemError` when it runs short. However often its exchange fails spuriously, it
ends like one atomic try-reserve. -/
namespace OrderServices

open Runs Linearization

variable {F : Type}

/-! ## The steps of one call on a fresh machine -/

theorem Inventory.run_invoke (stock : Stock) (value : OrderItem F) :
    Run (Performs Inventory.perform) (.init stock) [.invoke value]
      ⟨stock, [⟨value, lookupSku stock value, false⟩],
        .invoke 0 :: decisionMoment 0 (lookupSku stock value)⟩ :=
  Run.nil.snoc (Step.invoke (s := .init stock)).performs

theorem Inventory.run_load {stock : Stock} {value : OrderItem F} {n : Int32}
    (counter : stock value.sku = some n) :
    Run (Performs Inventory.perform) (.init stock) [.invoke value, .load 0]
      ⟨stock, [⟨value, loopCondition value n, false⟩],
        .invoke 0 :: decisionMoment 0 (loopCondition value n)⟩ := by
  have lookup : lookupSku stock value = .loading := if_pos (by simp [counter])
  have invoked := run_invoke stock value
  rw [lookup] at invoked
  exact invoked.snoc (Step.load (i := 0) rfl counter).performs

theorem Inventory.run_exchange {stock : Stock} {value : OrderItem F} {n desired : Int32}
    (counter : stock value.sku = some n) (enough : value.quantity ≤ n)
    (defined : SignedWord.checkedSub n value.quantity = some desired) :
    Run (Performs Inventory.perform) (.init stock) [.invoke value, .load 0, .exchange 0 false]
      ⟨stock.set value.sku desired, [⟨value, .decided n true, false⟩], [.invoke 0, .decide 0]⟩ := by
  have passes : loopCondition value n = .exchanging n := if_pos enough
  have loaded := run_load counter
  rw [passes] at loaded
  have success : compareExchangeWeak n n desired false = .ok desired := by
    simp [compareExchangeWeak]
  exact loaded.snoc (Step.exchanged (i := 0) rfl counter defined success).performs

/-! ## Lone calls -/

/-- A run on `stock` whose only call has the value `value` and has put `result` on the output. -/
structure Lone (stock : Stock) (value : OrderItem F) (s : Inventory F)
    (result : OrderItemResult F) : Prop where
  run : ∃ acts, Run (Performs Inventory.perform) (.init stock) acts s ∧
    acts.filterMap InventoryAction.invoked? = [value]
  ends : s.result? 0 = some result

/-- What the operator and its error function emit on an outcome of the atomic object. -/
def Verdict.result (value : OrderItem F) : Verdict → OrderItemResult F
  | .confirmed => ⟨value.orderId, value.itemId, value.sku, value.quantity, value.quantity, true,
      "CONFIRMED", value.unitPrice, ""⟩
  | .rejected available => ⟨value.orderId, value.itemId, value.sku, value.quantity,
      .ofInt available, false, "OUT_OF_STOCK", value.unitPrice, "inventory is out of stock"⟩

theorem Emission.verdict_result (value : OrderItem F) (available : Int32) (reserved : Bool) :
    mergeInventoryResult (emit value available reserved) =
      (emit value available reserved).verdict.result value := by
  cases reserved with
  | true => rfl
  | false =>
      rw [emit_short]
      simp only [mergeInventoryResult, verdict, Verdict.result, Int32.ofInt_toInt]
      rfl

theorem Stock.view_injective {stock stock' : Stock} (same : stock.view = stock'.view) :
    stock = stock' := by
  funext sku
  have here := congrFun same sku
  exact Option.map_injective (fun _ _ => Int32.toInt_inj.mp) here

/-- The value, the outcome and the stock after a lone call. -/
theorem Lone.spec {stock : Stock} {value : OrderItem F} {s : Inventory F}
    {result : OrderItemResult F} (h : Lone stock value s result) :
    ∃ v, tryReserve.apply stock.view ⟨value.sku, value.quantity.toInt⟩ = (s.stock.view, v) ∧
      result = v.result value := by
  obtain ⟨⟨acts, run, only⟩, ends⟩ := h
  have calls := (Inventory.map_value_calls run).trans only
  obtain ⟨c, single, rfl⟩ := List.map_eq_singleton_iff.mp calls
  obtain ⟨_, progress, returned⟩ := c
  simp only [Inventory.result?, single, List.getElem?_cons_zero] at ends
  cases progress with
  | loading => cases ends
  | exchanging available => cases ends
  | decided available reserved =>
      cases ends
      have explained := Inventory.Explained.run run
      obtain ⟨order, nodup, covers, -, replay⟩ := explained.explains.linearizable explained.tracks
      have settled : ∀ i, i ∈ order ↔ i = 0 := by
        intro i
        rw [covers, single]
        cases i with
        | zero => cases returned <;> simp [phaseOf, Call.phase, Phase.Settled]
        | succ i => simp [phaseOf, Phase.Settled]
      have alone : order = [0] := by
        refine List.perm_singleton.mp ((List.perm_ext_iff_of_nodup nodup (List.nodup_singleton 0)).mpr ?_)
        simpa using settled
      rw [alone, single] at replay
      refine ⟨(emit _ available reserved).verdict, ?_, Emission.verdict_result _ available reserved⟩
      have step := Prod.mk.inj replay
      exact Prod.ext step.1 (List.singleton_injective step.2)

/-- A lone call of a quantity that is not negative comes to an end. -/
theorem Lone.exists (stock : Stock) (value : OrderItem F) (nonneg : 0 ≤ value.quantity.toInt) :
    ∃ s result, Lone stock value s result := by
  cases counter : stock value.sku with
  | none =>
      have run := Inventory.run_invoke stock value
      have lookup : lookupSku stock value = .decided 0 false := by simp [lookupSku, counter]
      rw [lookup] at run
      exact ⟨_, _, ⟨_, run, rfl⟩, rfl⟩
  | some n =>
      rcases loopCondition_cases value n with ⟨enough, -⟩ | ⟨-, short⟩
      · have defined := SignedWord.checkedSub_of_le nonneg (Int32.le_iff_toInt_le.mp enough)
        exact ⟨_, _, ⟨_, Inventory.run_exchange counter enough defined, rfl⟩, rfl⟩
      · have run := Inventory.run_load counter
        rw [short] at run
        exact ⟨_, _, ⟨_, run, rfl⟩, rfl⟩

end OrderServices
