import Mathlib.Algebra.Order.Ring.Int
import Mathlib.Algebra.Order.Ring.Rat

/-! The records that the services pass around. Strings are valid UTF-8 by their
type. The type of doubles is a parameter `F` with the operations the sources use,
so that nothing below depends on rounding unless it names an instance. -/
namespace OrderServices

/-- What the sources do with doubles. -/
class Double (F : Type) extends Zero F, Add F, Mul F where
  /-- The double nearest to an integer. -/
  ofInt : Int → F
  /-- The integer that the double is exactly equal to, if there is one. -/
  toInt? : F → Option Int

/-- Exact arithmetic. -/
instance : Double ℚ where
  ofInt n := n
  toInt? q := if q.den = 1 then some q.num else none

/-- A reading of doubles as rationals that sees no rounding. -/
structure Double.Exact {F : Type} [Double F] (value : F → ℚ) : Prop where
  zero : value 0 = 0
  add : ∀ x y, value (x + y) = value x + value y
  mul : ∀ x y, value (x * y) = value x * value y
  ofInt : ∀ n, value (Double.ofInt n) = n

theorem Double.exact_rat : Double.Exact (id : ℚ → ℚ) :=
  ⟨rfl, fun _ _ => rfl, fun _ _ => rfl, fun _ => rfl⟩

structure OrderItem (F : Type) where
  orderId : String
  itemId : String
  sku : String
  quantity : Int32
  unitPrice : F
  deriving DecidableEq, Repr

structure OrderItemResult (F : Type) where
  orderId : String
  itemId : String
  sku : String
  requestedQty : Int32
  availableQty : Int32
  reserved : Bool
  status : String
  unitPrice : F
  error : String
  deriving DecidableEq, Repr

/-- The event of the topic `order-processed`; its counts are `std::size_t`. -/
structure OrderProcessed where
  orderId : String
  status : String
  processedAt : String
  totalItems : UInt64
  confirmedItems : UInt64
  failureReason : String
  deriving DecidableEq, Repr

structure Order (F : Type) where
  id : String
  customerId : String
  items : List (OrderItem F)
  totalAmount : F
  createdAt : String
  traceId : String
  deriving DecidableEq, Repr

structure OrderState (F : Type) where
  orderId : String
  status : String
  confirmedItems : List (OrderItemResult F)
  totalAmount : F
  processedAt : String
  deriving DecidableEq, Repr

/-- A shortage on its way to the error output of the inventory service. -/
structure InventoryFailure (F : Type) where
  item : OrderItem F
  availableQty : Int32
  deriving DecidableEq, Repr

/-- The request message of the inventory service. It carries no price. -/
structure ProcessOrderItemRequest where
  orderId : String
  itemId : String
  sku : String
  quantity : Int32
  deriving DecidableEq, Repr

/-- The response message of the inventory service. It carries no identity. -/
structure ProcessOrderItemResponse where
  availableQty : Int32
  reserved : Bool
  status : String
  deriving DecidableEq, Repr

end OrderServices
