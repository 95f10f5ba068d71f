import OrderServices.Types
import OrderServices.Library.Runs
import OrderServices.Library.Linearization
import OrderServices.Library.SignedWord
import Mathlib.Logic.Function.Basic

/-! `GetInventoryItemData` and the calls of it that run at the same time. A call touches
shared memory in its atomic load and in its exchanges only; these are the steps of the
machine, and what a call computes on its own copy between two of them belongs to the
first of the two. -/
namespace OrderServices

variable {F : Type}

/-- One atomic counter for every known SKU. -/
abbrev Stock := String → Option Int32

/-- The counters that the constructor creates. -/
def initialStock : Stock
  | "SKU-001" => some 100
  | "SKU-002" => some 50
  | "SKU-003" => some 25
  | _ => none

theorem initialStock_nonneg {sku : String} {n : Int32} (known : initialStock sku = some n) :
    0 ≤ n.toInt := by
  unfold initialStock at known
  split at known <;> cases known <;> decide

def Stock.set (stock : Stock) (sku : String) (n : Int32) : Stock :=
  Function.update stock sku (some n)

/-- Where a call stands, with the local variables that are still read. -/
inductive Progress
  /-- The SKU is known; the load is next. -/
  | loading
  /-- The loop condition held for the local copy; an exchange is next. -/
  | exchanging (available : Int32)
  /-- The loop is left, or was never entered. -/
  | decided (available : Int32) (reserved : Bool)
  deriving DecidableEq, Repr

/-- One call of the operator and whether its value has been handed on. -/
structure Call (F : Type) where
  value : OrderItem F
  progress : Progress
  returned : Bool := false
  deriving DecidableEq, Repr

/-- The test `available >= value.quantity` of the loop on a fresh local copy. -/
def loopCondition (value : OrderItem F) (available : Int32) : Progress :=
  if value.quantity ≤ available then .exchanging available else .decided available false

theorem loopCondition_cases (value : OrderItem F) (available : Int32) :
    value.quantity ≤ available ∧ loopCondition value available = .exchanging available ∨
      ¬value.quantity ≤ available ∧ loopCondition value available = .decided available false := by
  by_cases enough : value.quantity ≤ available
  · exact .inl ⟨enough, if_pos enough⟩
  · exact .inr ⟨enough, if_neg enough⟩

/-- `compare_exchange_weak` on a counter: the new counter and the verdict, or the reloaded
local copy. A weak exchange may fail although the counter has the expected value. -/
def compareExchangeWeak (current expected desired : Int32) (spurious : Bool) : Except Int32 Int32 :=
  if current = expected ∧ ¬spurious then .ok desired else .error current

theorem compareExchangeWeak_ok {current expected desired new : Int32} {spurious : Bool}
    (h : compareExchangeWeak current expected desired spurious = .ok new) :
    current = expected ∧ new = desired ∧ spurious = false := by
  unfold compareExchangeWeak at h
  split at h
  · rename_i success
    cases h
    exact ⟨success.1, rfl, Bool.eq_false_iff.mpr success.2⟩
  · cases h

theorem compareExchangeWeak_error {current expected desired copy : Int32} {spurious : Bool}
    (h : compareExchangeWeak current expected desired spurious = .error copy) :
    copy = current ∧ (current ≠ expected ∨ spurious = true) := by
  unfold compareExchangeWeak at h
  split at h
  · cases h
  · rename_i failure
    cases h
    exact ⟨rfl, (Decidable.not_and_iff_not_or_not.mp failure).imp_right Decidable.not_not.mp⟩

/-- What the operator emits: a result on its output or a failure on its error output. -/
inductive Emission (F : Type)
  | out (result : OrderItemResult F)
  | errors (failure : InventoryFailure F)
  deriving DecidableEq, Repr

def emit (value : OrderItem F) (available : Int32) (reserved : Bool) : Emission F :=
  let result : OrderItemResult F :=
    ⟨value.orderId, value.itemId, value.sku, value.quantity,
      if reserved then value.quantity else available, reserved,
      if reserved then "CONFIRMED" else "OUT_OF_STOCK", value.unitPrice, ""⟩
  if reserved then .out result else .errors ⟨value, available⟩

theorem emit_short (value : OrderItem F) (available : Int32) :
    emit value available false = .errors ⟨value, available⟩ := rfl

/-- `GetInventoryItemError`. -/
def getInventoryItemError (value : InventoryFailure F) : OrderItemResult F :=
  ⟨value.item.orderId, value.item.itemId, value.item.sku, value.item.quantity,
    value.availableQty, false, "OUT_OF_STOCK", value.item.unitPrice, "inventory is out of stock"⟩

/-- Both outputs meet again in Merge Inventory Result. -/
def mergeInventoryResult : Emission F → OrderItemResult F
  | .out result => result
  | .errors failure => getInventoryItemError failure

/-! ## The machine -/

open Linearization (Moment)

/-- Calls are named by their position. `history` is ghost: no step reads it. -/
structure Inventory (F : Type) where
  stock : Stock
  calls : List (Call F)
  history : List (Moment ℕ)

def Inventory.init (stock : Stock) : Inventory F := ⟨stock, [], []⟩

/-- The moment at which a call becomes decided, if this is how far it got. -/
def decisionMoment (i : ℕ) : Progress → List (Moment ℕ)
  | .decided _ _ => [.decide i]
  | _ => []

/-- Call `i` has reached `progress` without writing to memory. -/
def Inventory.advance (s : Inventory F) (i : ℕ) (value : OrderItem F) (progress : Progress) :
    Inventory F :=
  { s with
    calls := s.calls.set i { value, progress }
    history := s.history ++ decisionMoment i progress }

inductive InventoryAction (F : Type)
  | invoke (value : OrderItem F)
  | load (i : ℕ)
  | exchange (i : ℕ) (spurious : Bool)
  | respond (i : ℕ)

def InventoryAction.invoked? : InventoryAction F → Option (OrderItem F)
  | .invoke value => some value
  | _ => none

/-- The lookup of the SKU, which reads memory that nobody writes. -/
def lookupSku (stock : Stock) (value : OrderItem F) : Progress :=
  if (stock value.sku).isSome then .loading else .decided 0 false

theorem lookupSku_cases (stock : Stock) (value : OrderItem F) :
    (∃ n, stock value.sku = some n) ∧ lookupSku stock value = .loading ∨
      stock value.sku = none ∧ lookupSku stock value = .decided 0 false := by
  cases counter : stock value.sku with
  | none => exact .inr ⟨rfl, by rw [lookupSku, counter]; rfl⟩
  | some n => exact .inl ⟨⟨n, rfl⟩, by rw [lookupSku, counter]; rfl⟩

/-- What call `i` has put on Merge Inventory Result. -/
def Inventory.result? (s : Inventory F) (i : ℕ) : Option (OrderItemResult F) :=
  match s.calls[i]? with
  | some ⟨value, .decided available reserved, _⟩ =>
      some (mergeInventoryResult (emit value available reserved))
  | _ => none

/-- One indivisible step of one call. There is none for an exchange whose new value would
overflow: that behaviour is undefined. -/
def Inventory.perform (s : Inventory F) : InventoryAction F → Option (Inventory F)
  | .invoke value =>
      let progress := lookupSku s.stock value
      some { s with
        calls := s.calls ++ [⟨value, progress, false⟩]
        history := s.history ++ .invoke s.calls.length :: decisionMoment s.calls.length progress }
  | .load i =>
      match s.calls[i]? with
      | some ⟨value, .loading, false⟩ => do
          let current ← s.stock value.sku
          return s.advance i value (loopCondition value current)
      | _ => none
  | .exchange i spurious =>
      match s.calls[i]? with
      | some ⟨value, .exchanging available, false⟩ => do
          let current ← s.stock value.sku
          let desired ← SignedWord.checkedSub available value.quantity
          match compareExchangeWeak current available desired spurious with
          | .ok new =>
              return { s.advance i value (.decided available true) with
                stock := s.stock.set value.sku new }
          | .error copy => return s.advance i value (loopCondition value copy)
      | _ => none
  | .respond i =>
      match s.calls[i]? with
      | some ⟨value, .decided available reserved, false⟩ =>
          some { s with
            calls := s.calls.set i ⟨value, .decided available reserved, true⟩
            history := s.history ++ [.respond i] }
      | _ => none

/-- The cases of a step, with everything that must hold before it. -/
inductive Inventory.Step : Inventory F → InventoryAction F → Inventory F → Prop
  | invoke {s : Inventory F} {value : OrderItem F} :
      Step s (.invoke value)
        { s with
          calls := s.calls ++ [⟨value, lookupSku s.stock value, false⟩]
          history := s.history ++ .invoke s.calls.length ::
            decisionMoment s.calls.length (lookupSku s.stock value) }
  | load {s : Inventory F} {i : ℕ} {value : OrderItem F} {current : Int32}
      (running : s.calls[i]? = some ⟨value, .loading, false⟩)
      (counter : s.stock value.sku = some current) :
      Step s (.load i) (s.advance i value (loopCondition value current))
  | exchanged {s : Inventory F} {i : ℕ} {value : OrderItem F} {available current desired new : Int32}
      {spurious : Bool}
      (running : s.calls[i]? = some ⟨value, .exchanging available, false⟩)
      (counter : s.stock value.sku = some current)
      (defined : SignedWord.checkedSub available value.quantity = some desired)
      (success : compareExchangeWeak current available desired spurious = .ok new) :
      Step s (.exchange i spurious)
        { s.advance i value (.decided available true) with stock := s.stock.set value.sku new }
  | reloaded {s : Inventory F} {i : ℕ} {value : OrderItem F} {available current desired copy : Int32}
      {spurious : Bool}
      (running : s.calls[i]? = some ⟨value, .exchanging available, false⟩)
      (counter : s.stock value.sku = some current)
      (defined : SignedWord.checkedSub available value.quantity = some desired)
      (failure : compareExchangeWeak current available desired spurious = .error copy) :
      Step s (.exchange i spurious) (s.advance i value (loopCondition value copy))
  | respond {s : Inventory F} {i : ℕ} {value : OrderItem F} {available : Int32} {reserved : Bool}
      (done : s.calls[i]? = some ⟨value, .decided available reserved, false⟩) :
      Step s (.respond i)
        { s with
          calls := s.calls.set i ⟨value, .decided available reserved, true⟩
          history := s.history ++ [.respond i] }

theorem Inventory.perform_step {s s' : Inventory F} {a : InventoryAction F}
    (h : s.perform a = some s') : s.Step a s' := by
  cases a with
  | invoke value =>
      cases h
      exact .invoke
  | load i =>
      simp only [perform] at h
      split at h
      · rename_i value running
        obtain ⟨current, counter, eq⟩ := Option.bind_eq_some_iff.mp h
        cases eq
        exact .load running counter
      · cases h
  | exchange i spurious =>
      simp only [perform] at h
      split at h
      · rename_i value available running
        obtain ⟨current, counter, h⟩ := Option.bind_eq_some_iff.mp h
        obtain ⟨desired, defined, h⟩ := Option.bind_eq_some_iff.mp h
        split at h
        · rename_i new success
          cases h
          exact .exchanged running counter defined success
        · rename_i copy failure
          cases h
          exact .reloaded running counter defined failure
      · cases h
  | respond i =>
      simp only [perform] at h
      split at h
      · rename_i value available reserved done
        cases h
        exact .respond done
      · cases h

theorem Inventory.Step.performs {s s' : Inventory F} {a : InventoryAction F} (step : s.Step a s') :
    s.perform a = some s' := by
  cases step with
  | invoke => rfl
  | load running counter => simp only [perform, running, counter]; rfl
  | exchanged running counter defined success =>
      simp only [perform, running, counter, defined, Option.bind_eq_bind, Option.bind_some, success]
      rfl
  | reloaded running counter defined failure =>
      simp only [perform, running, counter, defined, Option.bind_eq_bind, Option.bind_some, failure]
      rfl
  | respond done => simp only [perform, done]

end OrderServices
