import OrderServices.Inventory.Linearizable
import Mathlib.Algebra.Order.BigOperators.Group.Finset

/-! Which calls have taken something from the stock. A counter is written by the exchange of
one such call at a time, and a call that has succeeded stays one that has. -/
namespace OrderServices

open Runs

variable {F : Type}

/-- The exchange of this call has succeeded. -/
def Call.succeeded (c : Call F) : Bool :=
  match c.progress with
  | .decided _ reserved => reserved
  | _ => false

/-- Call `k` has taken `quantity` pieces of `sku`. -/
def Decremented (calls : List (Call F)) (k : ℕ) (sku : String) (quantity : Int32) : Prop :=
  ∃ c, calls[k]? = some c ∧ c.succeeded = true ∧ c.value.sku = sku ∧ c.value.quantity = quantity

section Updates

variable {calls : List (Call F)} {i : ℕ} {old c : Call F}

theorem decremented_set_ne {k : ℕ} (ne : k ≠ i) (c : Call F) (sku : String) (quantity : Int32) :
    Decremented (calls.set i c) k sku quantity ↔ Decremented calls k sku quantity := by
  unfold Decremented
  rw [List.getElem?_set_ne ne.symm]

theorem decremented_set_self (here : calls[i]? = some old) (c : Call F) (sku : String)
    (quantity : Int32) :
    Decremented (calls.set i c) i sku quantity ↔
      c.succeeded = true ∧ c.value.sku = sku ∧ c.value.quantity = quantity := by
  unfold Decremented
  rw [List.getElem?_set_self (List.getElem?_eq_some_iff.mp here).1]
  simp

theorem decremented_self (here : calls[i]? = some old) (sku : String) (quantity : Int32) :
    Decremented calls i sku quantity ↔
      old.succeeded = true ∧ old.value.sku = sku ∧ old.value.quantity = quantity := by
  unfold Decremented
  rw [here]
  simp

/-- A call that has not come to a success takes nothing. -/
theorem decremented_set (here : calls[i]? = some old) (value : c.value = old.value)
    (same : c.succeeded = old.succeeded) (k : ℕ) (sku : String) (quantity : Int32) :
    Decremented (calls.set i c) k sku quantity ↔ Decremented calls k sku quantity := by
  by_cases eq : k = i
  · subst eq
    rw [decremented_set_self here, decremented_self here, same, value]
  · exact decremented_set_ne eq c sku quantity

theorem decremented_append (fresh : c.succeeded = false) (k : ℕ) (sku : String)
    (quantity : Int32) :
    Decremented (calls ++ [c]) k sku quantity ↔ Decremented calls k sku quantity := by
  unfold Decremented
  rcases Nat.lt_trichotomy k calls.length with old | new | beyond
  · rw [List.getElem?_append_left old]
  · subst new
    simp [fresh]
  · rw [List.getElem?_eq_none (by simp; omega), List.getElem?_eq_none (by omega)]

end Updates

theorem loopCondition_succeeded (value : OrderItem F) (available : Int32) :
    Call.succeeded ⟨value, loopCondition value available, false⟩ = false := by
  rcases loopCondition_cases value available with ⟨-, goesOn⟩ | ⟨-, ends⟩
  · rw [goesOn]
    rfl
  · rw [ends]
    rfl

theorem lookupSku_succeeded (stock : Stock) (value : OrderItem F) :
    Call.succeeded ⟨value, lookupSku stock value, false⟩ = false := by
  rcases lookupSku_cases stock value with ⟨-, known⟩ | ⟨-, unknown⟩
  · rw [known]
    rfl
  · rw [unknown]
    rfl

/-- Every step leaves the stock alone, or is the one exchange by which one call takes its
quantity from one counter. -/
theorem Inventory.perform_stock {s s' : Inventory F} {a : InventoryAction F}
    (step : s.perform a = some s') :
    (s'.stock = s.stock ∧
      ∀ k sku quantity, Decremented s'.calls k sku quantity ↔ Decremented s.calls k sku quantity) ∨
    ∃ i taken quantity n left, s.stock taken = some n ∧
      SignedWord.checkedSub n quantity = some left ∧ s'.stock = s.stock.set taken left ∧
      (∀ sku q, ¬Decremented s.calls i sku q) ∧
      ∀ k sku q, Decremented s'.calls k sku q ↔
        Decremented s.calls k sku q ∨ k = i ∧ taken = sku ∧ quantity = q := by
  cases Inventory.perform_step step with
  | invoke => exact .inl ⟨rfl, decremented_append (lookupSku_succeeded _ _)⟩
  | load running counter =>
      exact .inl ⟨rfl, decremented_set running rfl (loopCondition_succeeded _ _)⟩
  | @exchanged i value available current desired new spurious running counter defined success =>
      obtain ⟨rfl, rfl, -⟩ := compareExchangeWeak_ok success
      refine .inr ⟨i, value.sku, value.quantity, current, new, counter, defined, rfl, ?_, ?_⟩
      · intro sku q
        rw [decremented_self running]
        simp [Call.succeeded]
      · intro k sku q
        by_cases eq : k = i
        · subst eq
          rw [decremented_self running]
          refine (decremented_set_self running _ sku q).trans ?_
          simp [Call.succeeded]
        · refine (decremented_set_ne eq _ sku q).trans ?_
          simp [eq]
  | reloaded running counter defined failure =>
      exact .inl ⟨rfl, decremented_set running rfl (loopCondition_succeeded _ _)⟩
  | respond done => exact .inl ⟨rfl, decremented_set done rfl rfl⟩

theorem Decremented.step {s s' : Inventory F} {a : InventoryAction F} {k : ℕ} {sku : String}
    {quantity : Int32} (h : Decremented s.calls k sku quantity) (step : s.perform a = some s') :
    Decremented s'.calls k sku quantity := by
  rcases Inventory.perform_stock step with ⟨-, same⟩ | ⟨_, _, _, _, _, -, -, -, -, added⟩
  · exact (same k sku quantity).mpr h
  · exact (added k sku quantity).mpr (.inl h)

/-! ## How much they have taken -/

theorem Decremented.lt_length {calls : List (Call F)} {k : ℕ} {sku : String} {quantity : Int32}
    (h : Decremented calls k sku quantity) : k < calls.length := by
  obtain ⟨c, here, -⟩ := h
  exact (List.getElem?_eq_some_iff.mp here).1

theorem Decremented.takesOf {calls : List (Call F)} {k : ℕ} {sku : String} {quantity : Int32}
    (h : Decremented calls k sku quantity) (counted : String) :
    takesOf counted calls k = if sku = counted then quantity.toInt else 0 := by
  obtain ⟨⟨value, progress, returned⟩, here, succeeded, rfl, rfl⟩ := h
  cases progress with
  | loading => cases succeeded
  | exchanging available => cases succeeded
  | decided available reserved =>
      cases succeeded
      simp only [OrderServices.takesOf, reservationOf, verdictOf, here]
      rfl

theorem Call.takes_eq (sku : String) (c : Call F) :
    c.takes sku = if c.value.sku = sku && c.succeeded then c.value.quantity.toInt else 0 := by
  obtain ⟨value, progress, returned⟩ := c
  cases progress with
  | loading => simp [takes, verdict, succeeded, Reservation.takes]
  | exchanging available => simp [takes, verdict, succeeded, Reservation.takes]
  | decided available reserved =>
      cases reserved
      · simp [takes, verdict, succeeded, emit, Emission.verdict, Reservation.takes]
      · by_cases own : value.sku = sku <;>
          simp [takes, verdict, succeeded, emit, Emission.verdict, Reservation.takes, reservation, own]

/-- Different calls together have taken no more than all calls. -/
theorem Inventory.sum_takesOf_le {s : Inventory F} {sku : String}
    (nonneg : ∀ c ∈ s.calls, c.value.sku = sku → 0 ≤ c.value.quantity.toInt) {ks : List ℕ}
    (nodup : ks.Nodup) (inRange : ∀ k ∈ ks, k < s.calls.length) :
    (ks.map (takesOf sku s.calls)).sum ≤ s.confirmedOn sku := by
  rw [confirmedOn, ← sum_takesOf, ← List.sum_toFinset _ nodup]
  refine Finset.sum_le_sum_of_subset_of_nonneg ?_ ?_
  · intro k hk
    exact Finset.mem_range.mpr (inRange k (List.mem_toFinset.mp hk))
  · intro k hk _
    rw [takesOf_getElem (Finset.mem_range.mp hk)]
    exact Reservation.takes_nonneg (nonneg _ (List.getElem_mem _)) _

/-- Calls among which are all that have taken something have taken what all calls have. -/
theorem Inventory.sum_takesOf_eq {s : Inventory F} {sku : String} {ks : List ℕ} (nodup : ks.Nodup)
    (inRange : ∀ k ∈ ks, k < s.calls.length)
    (all : ∀ k quantity, Decremented s.calls k sku quantity → k ∈ ks) :
    (ks.map (takesOf sku s.calls)).sum = s.confirmedOn sku := by
  rw [confirmedOn, ← sum_takesOf, ← List.sum_toFinset _ nodup]
  refine Finset.sum_subset ?_ ?_
  · intro k hk
    exact Finset.mem_range.mpr (inRange k (List.mem_toFinset.mp hk))
  · intro k hk absent
    have bound := Finset.mem_range.mp hk
    rw [takesOf_getElem bound, Call.takes_eq, if_neg]
    intro taken
    obtain ⟨own, succeeded⟩ := (Bool.and_eq_true _ _).mp taken
    exact absent (List.mem_toFinset.mpr (all k _
      ⟨_, List.getElem?_eq_getElem bound, succeeded, of_decide_eq_true own, rfl⟩))

end OrderServices
