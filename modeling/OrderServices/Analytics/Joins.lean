import OrderServices.Library.Joining
import OrderServices.Analytics.Cycle

/-! The two joins of the analytics service. Orders and payments are split and keyed for both of
them, shipments for the second one, whose results are routed to two sinks. The storage of a join
belongs to servicelib: what it keeps of a key that has been joined, and when a key expires, is left
open. -/
namespace OrderServices

open Runs Joining

structure AnalyticsResult where
  key : String
  total : Int64
  kind : String
  deriving DecidableEq, Repr

/-- The key and the value that each of the five key functions emits. -/
def keyValue (value : AnalyticsEvent) : String × AnalyticsEvent := (value.key, value)

def keyOrdersForJoin := keyValue
def keyPaymentsForJoin := keyValue
def keyOrdersForMultiJoin := keyValue
def keyPaymentsForMultiJoin := keyValue
def keyShipmentsForMultiJoin := keyValue

/-- What the operator emits, if anything; it returns true exactly then. There is no value if the
sum overflows. -/
def joinOrderPaymentAnalytics (key : String) (values : List AnalyticsEvent × List AnalyticsEvent) :
    Option (Option AnalyticsResult) :=
  match values with
  | (order :: _, payment :: _) => do
      let total ← SignedWord.checkedAdd order.value payment.value
      return some ⟨key, total, "join"⟩
  | _ => some none

/-- The sum is formed from the left, so that it can overflow on the way. -/
def multiJoinAnalyticsEvents (key : String)
    (values : List AnalyticsEvent × List AnalyticsEvent × List AnalyticsEvent) :
    Option (Option AnalyticsResult) :=
  match values with
  | (order :: _, payment :: _, shipment :: _) => do
      let paid ← SignedWord.checkedAdd order.value payment.value
      let total ← SignedWord.checkedAdd paid shipment.value
      return some ⟨key, total, "multi"⟩
  | _ => some none

/-- The number of the branch. -/
def routeAnalyticsResult (value : AnalyticsResult) : ℕ := if 50 ≤ value.total then 0 else 1

/-- The check of the sinks that expect a single result. -/
def expectResult (expected : AnalyticsResult) (what : String) (value : AnalyticsResult) :
    Except String Unit :=
  if value.key ≠ expected.key ∨ value.total ≠ expected.total ∨ value.kind ≠ expected.kind then
    .error what
  else .ok ()

def HighValueAnalyticsSink.consumeMessage : AnalyticsResult → Except String Unit :=
  expectResult ⟨"high-value", 60, "multi"⟩ "unexpected high-value analytics result"

def StandardAnalyticsSink.consumeMessage : AnalyticsResult → Except String Unit :=
  expectResult ⟨"standard", 6, "multi"⟩ "unexpected standard analytics result"

def JoinedAnalyticsSink.consumeMessage (value : AnalyticsResult) : Except String Unit :=
  let expected : Int64 :=
    if value.key = "high-value" then 30 else if value.key = "standard" then 3 else -1
  if value.kind ≠ "join" ∨ value.total ≠ expected then .error "unexpected joined analytics result"
  else .ok ()

def AnalyticsOrdersSource.start : List AnalyticsEvent :=
  [⟨"high-value", 10, "order"⟩, ⟨"standard", 1, "order"⟩]

def AnalyticsPaymentsSource.start : List AnalyticsEvent :=
  [⟨"high-value", 20, "payment"⟩, ⟨"standard", 2, "payment"⟩]

def AnalyticsShipmentsSource.start : List AnalyticsEvent :=
  [⟨"high-value", 30, "shipment"⟩, ⟨"standard", 3, "shipment"⟩]

/-! ## The join of orders and payments -/

inductive JoinSide
  | orders
  | payments
  deriving DecidableEq, Repr

instance : Fintype JoinSide := ⟨{.orders, .payments}, fun i => by cases i <;> decide⟩

instance : Nonempty JoinSide := ⟨.orders⟩

/-- How the storage of a join goes on after a result. -/
structure JoinStorage (ι : Type) where
  retain : (ι → List AnalyticsEvent) → ι → List AnalyticsEvent
  retain_sublist : ∀ waiting i, (retain waiting i).Sublist (waiting i)

/-- A storage that forgets what has been joined. -/
def JoinStorage.forgetful (ι : Type) : JoinStorage ι := ⟨fun _ _ => [], fun _ _ => List.nil_sublist _⟩

def orderPaymentJoin (storage : JoinStorage JoinSide) :
    Join String JoinSide AnalyticsEvent AnalyticsResult where
  apply key waiting := joinOrderPaymentAnalytics key (waiting .orders, waiting .payments)
  retain := storage.retain
  retain_sublist := storage.retain_sublist

def combinePair (key : String) (values : JoinSide → AnalyticsEvent) : Option AnalyticsResult :=
  (SignedWord.checkedAdd (values .orders).value (values .payments).value).map (⟨key, ·, "join"⟩)

/-- The sources of the join, behind the splits and the key functions. -/
def joinSources (orders payments : List AnalyticsEvent) :
    JoinSide → List (String × AnalyticsEvent)
  | .orders => orders.map keyOrdersForJoin
  | .payments => payments.map keyPaymentsForJoin

theorem orderPaymentJoin_inner (storage : JoinStorage JoinSide) :
    (orderPaymentJoin storage).Inner combinePair := by
  intro key waiting
  simp only [orderPaymentJoin]
  cases complete : firsts waiting with
  | some values =>
      have heads := firsts_eq_some.mp complete
      obtain ⟨orders, eqOrders⟩ := List.head?_eq_some_iff.mp (heads .orders)
      obtain ⟨payments, eqPayments⟩ := List.head?_eq_some_iff.mp (heads .payments)
      rw [eqOrders, eqPayments]
      simp only [joinOrderPaymentAnalytics, combinePair, Option.elim_some, Option.map_map]
      cases SignedWord.checkedAdd (values .orders).value (values .payments).value <;> rfl
  | none =>
      have empty := firsts_eq_none.mp complete
      rw [Option.elim_none]
      unfold joinOrderPaymentAnalytics
      split
      case h_1 order _ payment _ eq =>
        obtain ⟨i, empty⟩ := empty
        simp only [Prod.mk.injEq] at eq
        cases i <;> simp_all
      case h_2 => rfl

theorem keyed_map_keyValue {events : List AnalyticsEvent}
    (distinct : (events.map AnalyticsEvent.key).Nodup) : ((events.map keyValue).map Prod.fst).Nodup := by
  rw [List.map_map]
  exact distinct

theorem joinSources_keyed {orders payments : List AnalyticsEvent}
    (distinctOrders : (orders.map AnalyticsEvent.key).Nodup)
    (distinctPayments : (payments.map AnalyticsEvent.key).Nodup) :
    Keyed (joinSources orders payments) := by
  intro i
  cases i with
  | orders => exact keyed_map_keyValue distinctOrders
  | payments => exact keyed_map_keyValue distinctPayments

theorem mem_map_keyValue {events : List AnalyticsEvent} {key : String} {event : AnalyticsEvent} :
    (key, event) ∈ events.map keyValue ↔ event ∈ events ∧ event.key = key := by
  simp [keyValue, eq_comm]

/-- What matches is an order and a payment with the same key, and their sum. -/
theorem joinSources_sums {orders payments : List AnalyticsEvent} {key : String}
    {result : AnalyticsResult} (matching : Matches (joinSources orders payments) combinePair key result) :
    ∃ order ∈ orders, ∃ payment ∈ payments, order.key = key ∧ payment.key = key ∧
      result.key = key ∧ result.kind = "join" ∧
      result.total.toInt = order.value.toInt + payment.value.toInt := by
  obtain ⟨values, all, combined⟩ := matching
  obtain ⟨order, orderKey⟩ := mem_map_keyValue.mp (all .orders)
  obtain ⟨payment, paymentKey⟩ := mem_map_keyValue.mp (all .payments)
  obtain ⟨total, sum, rfl⟩ := Option.map_eq_some_iff.mp combined
  exact ⟨_, order, _, payment, orderKey, paymentKey, rfl, rfl, SignedWord.checkedAdd_eq_some.mp sum⟩

/-- What the first join hands to its sink, whichever source goes on when. -/
structure JoinedOnce (orders payments : List AnalyticsEvent) (acts : List (FedAction String JoinSide))
    (s : Fed String JoinSide AnalyticsEvent AnalyticsResult) : Prop where
  once : (s.join.emitted.map Prod.fst).Nodup
  sums : ∀ p ∈ s.join.emitted, ∃ order ∈ orders, ∃ payment ∈ payments,
    order.key = p.1 ∧ payment.key = p.1 ∧ p.2.key = p.1 ∧ p.2.kind = "join" ∧
      p.2.total.toInt = order.value.toInt + payment.value.toInt
  complete : (∀ i, s.pending i = []) → ∀ order ∈ orders, ∀ payment ∈ payments,
    order.key = payment.key → .expire order.key ∉ acts → order.key ∈ s.join.emitted.map Prod.fst

theorem JoinedOnce.run {storage : JoinStorage JoinSide}
    {orders payments : List AnalyticsEvent} {acts : List (FedAction String JoinSide)}
    {s : Fed String JoinSide AnalyticsEvent AnalyticsResult}
    (keyed : Keyed (joinSources orders payments))
    (run : Run (Performs (orderPaymentJoin storage).feed) (.init (joinSources orders payments)) acts s) :
    JoinedOnce orders payments acts s := by
  have delivered := Delivered.run (orderPaymentJoin_inner storage) keyed run
  refine ⟨delivered.once, fun p member => joinSources_sums (delivered.sound p member), ?_⟩
  intro exhausted order hOrder payment hPayment same kept
  refine delivered.complete exhausted order.key (fun i => ?_) kept
  cases i with
  | orders => exact List.mem_map_of_mem (mem_map_keyValue.mpr ⟨hOrder, rfl⟩)
  | payments => exact List.mem_map_of_mem (mem_map_keyValue.mpr ⟨hPayment, same.symm⟩)

/-- Orders and payments with distinct keys are joined once for each key that they share, in every
interleaving of the two sources, whatever the storage keeps and whenever it drops a key; a key that
it does not drop is joined in the end, and no source is ever held up. -/
theorem order_payment_joined_once {storage : JoinStorage JoinSide}
    {orders payments : List AnalyticsEvent} {acts : List (FedAction String JoinSide)}
    {s : Fed String JoinSide AnalyticsEvent AnalyticsResult}
    (distinctOrders : (orders.map AnalyticsEvent.key).Nodup)
    (distinctPayments : (payments.map AnalyticsEvent.key).Nodup)
    (run : Run (Performs (orderPaymentJoin storage).feed) (.init (joinSources orders payments)) acts s) :
    JoinedOnce orders payments acts s ∧
    ((∀ order ∈ orders, ∀ payment ∈ payments, order.key = payment.key →
        (SignedWord.checkedAdd order.value payment.value).isSome) →
      ∀ i, s.pending i ≠ [] → ∃ s', (orderPaymentJoin storage).feed s (.next i) = some s') := by
  have keyed := joinSources_keyed distinctOrders distinctPayments
  refine ⟨.run keyed run, fun defined i more =>
    Fed.next_enabled (orderPaymentJoin_inner storage) keyed run (fun key values all => ?_) more⟩
  obtain ⟨order, orderKey⟩ := mem_map_keyValue.mp (all .orders)
  obtain ⟨payment, paymentKey⟩ := mem_map_keyValue.mp (all .payments)
  simpa [combinePair] using defined _ order _ payment (orderKey.trans paymentKey.symm)

/-- Two keys are shared; the first one expires after it has been joined. -/
theorem order_payment_joined_once_interleaved :
    ∃ acts s, s.join.emitted =
        [("a", (⟨"a", 3, "join"⟩ : AnalyticsResult)), ("b", ⟨"b", 30, "join"⟩)] ∧
      JoinedOnce [⟨"a", 1, "order"⟩, ⟨"b", 10, "order"⟩, ⟨"c", 100, "order"⟩]
        [⟨"b", 20, "payment"⟩, ⟨"a", 2, "payment"⟩] acts s := by
  let acts : List (FedAction String JoinSide) :=
    [.next .payments, .next .orders, .next .payments, .expire "a", .next .orders, .next .orders]
  have ends : (acts.foldlM (orderPaymentJoin (.forgetful _)).feed (.init (joinSources
      [⟨"a", 1, "order"⟩, ⟨"b", 10, "order"⟩, ⟨"c", 100, "order"⟩]
      [⟨"b", 20, "payment"⟩, ⟨"a", 2, "payment"⟩]))).map (fun s => s.join.emitted) =
      some [("a", ⟨"a", 3, "join"⟩), ("b", ⟨"b", 30, "join"⟩)] := by decide
  obtain ⟨s, run, emitted⟩ := Option.map_eq_some_iff.mp ends
  exact ⟨acts, s, emitted,
    (order_payment_joined_once (by decide) (by decide) (.of_foldlM run)).1⟩

/-! ## The join of orders, payments and shipments -/

inductive MultiJoinSide
  | orders
  | payments
  | shipments
  deriving DecidableEq, Repr

instance : Fintype MultiJoinSide :=
  ⟨{.orders, .payments, .shipments}, fun i => by cases i <;> decide⟩

instance : Nonempty MultiJoinSide := ⟨.orders⟩

def analyticsMultiJoin (storage : JoinStorage MultiJoinSide) :
    Join String MultiJoinSide AnalyticsEvent AnalyticsResult where
  apply key waiting :=
    multiJoinAnalyticsEvents key (waiting .orders, waiting .payments, waiting .shipments)
  retain := storage.retain
  retain_sublist := storage.retain_sublist

/-- The sum as it is formed. -/
def sumOfThree (a b c : Int64) : Option Int64 := do
  let paid ← SignedWord.checkedAdd a b
  SignedWord.checkedAdd paid c

def combineTriple (key : String) (values : MultiJoinSide → AnalyticsEvent) : Option AnalyticsResult :=
  (sumOfThree (values .orders).value (values .payments).value (values .shipments).value).map
    (⟨key, ·, "multi"⟩)

def multiJoinSources (orders payments shipments : List AnalyticsEvent) :
    MultiJoinSide → List (String × AnalyticsEvent)
  | .orders => orders.map keyOrdersForMultiJoin
  | .payments => payments.map keyPaymentsForMultiJoin
  | .shipments => shipments.map keyShipmentsForMultiJoin

theorem sumOfThree_toInt {a b c total : Int64} (sum : sumOfThree a b c = some total) :
    total.toInt = a.toInt + b.toInt + c.toInt := by
  obtain ⟨paid, first, second⟩ := Option.bind_eq_some_iff.mp sum
  rw [SignedWord.checkedAdd_eq_some.mp second, SignedWord.checkedAdd_eq_some.mp first]

theorem analyticsMultiJoin_inner (storage : JoinStorage MultiJoinSide) :
    (analyticsMultiJoin storage).Inner combineTriple := by
  intro key waiting
  simp only [analyticsMultiJoin]
  cases complete : firsts waiting with
  | some values =>
      have heads := firsts_eq_some.mp complete
      obtain ⟨orders, eqOrders⟩ := List.head?_eq_some_iff.mp (heads .orders)
      obtain ⟨payments, eqPayments⟩ := List.head?_eq_some_iff.mp (heads .payments)
      obtain ⟨shipments, eqShipments⟩ := List.head?_eq_some_iff.mp (heads .shipments)
      rw [eqOrders, eqPayments, eqShipments]
      simp only [multiJoinAnalyticsEvents, combineTriple, sumOfThree, Option.elim_some, Option.map_map]
      cases SignedWord.checkedAdd (values .orders).value (values .payments).value with
      | none => rfl
      | some paid =>
          simp only [Option.bind_eq_bind, Option.bind_some]
          cases SignedWord.checkedAdd paid (values .shipments).value <;> rfl
  | none =>
      obtain ⟨i, empty⟩ := firsts_eq_none.mp complete
      rw [Option.elim_none]
      unfold multiJoinAnalyticsEvents
      split
      case h_1 order _ payment _ shipment _ eq =>
        simp only [Prod.mk.injEq] at eq
        cases i <;> simp_all
      case h_2 => rfl

theorem multiJoinSources_keyed {orders payments shipments : List AnalyticsEvent}
    (distinctOrders : (orders.map AnalyticsEvent.key).Nodup)
    (distinctPayments : (payments.map AnalyticsEvent.key).Nodup)
    (distinctShipments : (shipments.map AnalyticsEvent.key).Nodup) :
    Keyed (multiJoinSources orders payments shipments) := by
  intro i
  cases i with
  | orders => exact keyed_map_keyValue distinctOrders
  | payments => exact keyed_map_keyValue distinctPayments
  | shipments => exact keyed_map_keyValue distinctShipments

theorem multiJoinSources_sums {orders payments shipments : List AnalyticsEvent} {key : String}
    {result : AnalyticsResult}
    (matching : Matches (multiJoinSources orders payments shipments) combineTriple key result) :
    ∃ order ∈ orders, ∃ payment ∈ payments, ∃ shipment ∈ shipments,
      order.key = key ∧ payment.key = key ∧ shipment.key = key ∧
      result.key = key ∧ result.kind = "multi" ∧
      result.total.toInt = order.value.toInt + payment.value.toInt + shipment.value.toInt := by
  obtain ⟨values, all, combined⟩ := matching
  obtain ⟨order, orderKey⟩ := mem_map_keyValue.mp (all .orders)
  obtain ⟨payment, paymentKey⟩ := mem_map_keyValue.mp (all .payments)
  obtain ⟨shipment, shipmentKey⟩ := mem_map_keyValue.mp (all .shipments)
  obtain ⟨total, sum, rfl⟩ := Option.map_eq_some_iff.mp combined
  exact ⟨_, order, _, payment, _, shipment, orderKey, paymentKey, shipmentKey, rfl, rfl,
    sumOfThree_toInt sum⟩

/-- The results that the Case passes to its branch number `n`. -/
def routedTo (n : ℕ) (results : List AnalyticsResult) : List AnalyticsResult :=
  results.filter fun result => routeAnalyticsResult result = n

/-- What the second join hands to the sinks of its two branches. -/
structure RoutedOnce (orders payments shipments : List AnalyticsEvent)
    (acts : List (FedAction String MultiJoinSide))
    (s : Fed String MultiJoinSide AnalyticsEvent AnalyticsResult) : Prop where
  once : (s.join.emitted.map Prod.fst).Nodup
  sums : ∀ p ∈ s.join.emitted, ∃ order ∈ orders, ∃ payment ∈ payments, ∃ shipment ∈ shipments,
    order.key = p.1 ∧ payment.key = p.1 ∧ shipment.key = p.1 ∧ p.2.key = p.1 ∧
      p.2.kind = "multi" ∧
      p.2.total.toInt = order.value.toInt + payment.value.toInt + shipment.value.toInt
  /-- No result is lost between the branches, and none is on both. -/
  routed : (routedTo 0 (s.join.emitted.map Prod.snd) ++ routedTo 1 (s.join.emitted.map Prod.snd)).Perm
    (s.join.emitted.map Prod.snd)
  highValue : ∀ result ∈ routedTo 0 (s.join.emitted.map Prod.snd), 50 ≤ result.total.toInt
  standard : ∀ result ∈ routedTo 1 (s.join.emitted.map Prod.snd), result.total.toInt < 50
  complete : (∀ i, s.pending i = []) → ∀ order ∈ orders, ∀ payment ∈ payments, ∀ shipment ∈ shipments,
    order.key = payment.key → order.key = shipment.key → .expire order.key ∉ acts →
      order.key ∈ s.join.emitted.map Prod.fst

theorem routeAnalyticsResult_cases (result : AnalyticsResult) :
    routeAnalyticsResult result = 0 ∧ 50 ≤ result.total.toInt ∨
      routeAnalyticsResult result = 1 ∧ result.total.toInt < 50 := by
  unfold routeAnalyticsResult
  by_cases high : 50 ≤ result.total
  · rw [if_pos high]
    exact .inl ⟨rfl, Int64.le_iff_toInt_le.mp high⟩
  · rw [if_neg high]
    exact .inr ⟨rfl, Int.not_le.mp fun le => high (Int64.le_iff_toInt_le.mpr le)⟩

theorem routedTo_perm (results : List AnalyticsResult) :
    (routedTo 0 results ++ routedTo 1 results).Perm results := by
  have complement : routedTo 1 results = results.filter fun result => !decide (routeAnalyticsResult result = 0) :=
    List.filter_congr fun result _ => by
      rcases routeAnalyticsResult_cases result with ⟨eq, -⟩ | ⟨eq, -⟩ <;> simp [eq]
  rw [complement]
  exact List.filter_append_perm _ results

theorem mem_routedTo {results : List AnalyticsResult} {result : AnalyticsResult} :
    (result ∈ routedTo 0 results ↔ result ∈ results ∧ 50 ≤ result.total.toInt) ∧
      (result ∈ routedTo 1 results ↔ result ∈ results ∧ result.total.toInt < 50) := by
  unfold routedTo
  rw [List.mem_filter, List.mem_filter]
  rcases routeAnalyticsResult_cases result with ⟨eq, high⟩ | ⟨eq, low⟩
  · simp [eq, high]
  · simp [eq, low]

theorem RoutedOnce.run {storage : JoinStorage MultiJoinSide}
    {orders payments shipments : List AnalyticsEvent} {acts : List (FedAction String MultiJoinSide)}
    {s : Fed String MultiJoinSide AnalyticsEvent AnalyticsResult}
    (keyed : Keyed (multiJoinSources orders payments shipments))
    (run : Run (Performs (analyticsMultiJoin storage).feed)
      (.init (multiJoinSources orders payments shipments)) acts s) :
    RoutedOnce orders payments shipments acts s := by
  have delivered := Delivered.run (analyticsMultiJoin_inner storage) keyed run
  refine ⟨delivered.once, fun p member => multiJoinSources_sums (delivered.sound p member),
    routedTo_perm _, fun result member => (mem_routedTo.1.mp member).2,
    fun result member => (mem_routedTo.2.mp member).2, ?_⟩
  intro exhausted order hOrder payment hPayment shipment hShipment paid shipped kept
  refine delivered.complete exhausted order.key (fun i => ?_) kept
  cases i with
  | orders => exact List.mem_map_of_mem (mem_map_keyValue.mpr ⟨hOrder, rfl⟩)
  | payments => exact List.mem_map_of_mem (mem_map_keyValue.mpr ⟨hPayment, paid.symm⟩)
  | shipments => exact List.mem_map_of_mem (mem_map_keyValue.mpr ⟨hShipment, shipped.symm⟩)

/-- The same for three sources, whose results go to the high-value sink from a total of 50 on and
to the standard sink below. -/
theorem multi_join_routed_once {storage : JoinStorage MultiJoinSide}
    {orders payments shipments : List AnalyticsEvent} {acts : List (FedAction String MultiJoinSide)}
    {s : Fed String MultiJoinSide AnalyticsEvent AnalyticsResult}
    (distinctOrders : (orders.map AnalyticsEvent.key).Nodup)
    (distinctPayments : (payments.map AnalyticsEvent.key).Nodup)
    (distinctShipments : (shipments.map AnalyticsEvent.key).Nodup)
    (run : Run (Performs (analyticsMultiJoin storage).feed)
      (.init (multiJoinSources orders payments shipments)) acts s) :
    RoutedOnce orders payments shipments acts s ∧
    ((∀ order ∈ orders, ∀ payment ∈ payments, ∀ shipment ∈ shipments,
        order.key = payment.key → order.key = shipment.key →
        (sumOfThree order.value payment.value shipment.value).isSome) →
      ∀ i, s.pending i ≠ [] → ∃ s', (analyticsMultiJoin storage).feed s (.next i) = some s') := by
  have keyed := multiJoinSources_keyed distinctOrders distinctPayments distinctShipments
  refine ⟨.run keyed run, fun defined i more =>
    Fed.next_enabled (analyticsMultiJoin_inner storage) keyed run (fun key values all => ?_) more⟩
  obtain ⟨order, orderKey⟩ := mem_map_keyValue.mp (all .orders)
  obtain ⟨payment, paymentKey⟩ := mem_map_keyValue.mp (all .payments)
  obtain ⟨shipment, shipmentKey⟩ := mem_map_keyValue.mp (all .shipments)
  simpa [combineTriple] using defined _ order _ payment _ shipment
    (orderKey.trans paymentKey.symm) (orderKey.trans shipmentKey.symm)

theorem multi_join_routed_once_interleaved :
    ∃ acts s, s.join.emitted =
        [("b", (⟨"b", 60, "multi"⟩ : AnalyticsResult)), ("a", ⟨"a", 6, "multi"⟩)] ∧
      RoutedOnce [⟨"a", 1, "order"⟩, ⟨"b", 10, "order"⟩] [⟨"b", 20, "payment"⟩, ⟨"a", 2, "payment"⟩]
        [⟨"b", 30, "shipment"⟩, ⟨"a", 3, "shipment"⟩] acts s := by
  let acts : List (FedAction String MultiJoinSide) :=
    [.next .shipments, .next .orders, .next .payments, .next .orders, .next .payments,
      .next .shipments]
  have ends : (acts.foldlM (analyticsMultiJoin (.forgetful _)).feed (.init (multiJoinSources
      [⟨"a", 1, "order"⟩, ⟨"b", 10, "order"⟩] [⟨"b", 20, "payment"⟩, ⟨"a", 2, "payment"⟩]
      [⟨"b", 30, "shipment"⟩, ⟨"a", 3, "shipment"⟩]))).map (fun s => s.join.emitted) =
      some [("b", ⟨"b", 60, "multi"⟩), ("a", ⟨"a", 6, "multi"⟩)] := by decide
  obtain ⟨s, run, emitted⟩ := Option.map_eq_some_iff.mp ends
  exact ⟨acts, s, emitted,
    (multi_join_routed_once (by decide) (by decide) (by decide) (.of_foldlM run)).1⟩

/-! ## The sources and sinks of the service -/

/-- The first join on the sources of the service. -/
abbrev ServiceJoin (storage : JoinStorage JoinSide) (acts : List (FedAction String JoinSide))
    (s : Fed String JoinSide AnalyticsEvent AnalyticsResult) : Prop :=
  Run (Performs (orderPaymentJoin storage).feed)
    (.init (joinSources AnalyticsOrdersSource.start AnalyticsPaymentsSource.start)) acts s

/-- The second join on the sources of the service. -/
abbrev ServiceMultiJoin (storage : JoinStorage MultiJoinSide)
    (acts : List (FedAction String MultiJoinSide))
    (s : Fed String MultiJoinSide AnalyticsEvent AnalyticsResult) : Prop :=
  Run (Performs (analyticsMultiJoin storage).feed) (.init (multiJoinSources
    AnalyticsOrdersSource.start AnalyticsPaymentsSource.start AnalyticsShipmentsSource.start)) acts s

theorem ServiceJoin.joined {storage : JoinStorage JoinSide}
    {acts : List (FedAction String JoinSide)}
    {s : Fed String JoinSide AnalyticsEvent AnalyticsResult} (run : ServiceJoin storage acts s) :
    JoinedOnce AnalyticsOrdersSource.start AnalyticsPaymentsSource.start acts s :=
  .run (joinSources_keyed (by decide) (by decide)) run

theorem ServiceMultiJoin.routed {storage : JoinStorage MultiJoinSide}
    {acts : List (FedAction String MultiJoinSide)}
    {s : Fed String MultiJoinSide AnalyticsEvent AnalyticsResult}
    (run : ServiceMultiJoin storage acts s) :
    RoutedOnce AnalyticsOrdersSource.start AnalyticsPaymentsSource.start
      AnalyticsShipmentsSource.start acts s :=
  .run (multiJoinSources_keyed (by decide) (by decide) (by decide)) run

def expectedJoined : List (String × AnalyticsResult) :=
  [("high-value", ⟨"high-value", 30, "join"⟩), ("standard", ⟨"standard", 3, "join"⟩)]

def expectedRouted : List (String × AnalyticsResult) :=
  [("high-value", ⟨"high-value", 60, "multi"⟩), ("standard", ⟨"standard", 6, "multi"⟩)]

theorem ServiceJoin.results {storage : JoinStorage JoinSide}
    {acts : List (FedAction String JoinSide)}
    {s : Fed String JoinSide AnalyticsEvent AnalyticsResult} (run : ServiceJoin storage acts s)
    {p : String × AnalyticsResult} (member : p ∈ s.join.emitted) : p ∈ expectedJoined := by
  obtain ⟨order, hOrder, payment, hPayment, orderKey, paymentKey, key, kind, total⟩ :=
    (ServiceJoin.joined run).sums p member
  obtain ⟨k, key', total', kind'⟩ := p
  simp only [AnalyticsOrdersSource.start, AnalyticsPaymentsSource.start, List.mem_cons,
    List.not_mem_nil, or_false] at hOrder hPayment
  simp only at orderKey paymentKey key kind total
  subst key kind
  rcases hOrder with rfl | rfl <;> rcases hPayment with rfl | rfl <;> subst orderKey
  · obtain rfl : total' = 30 := Int64.toInt.inj total
    decide
  · exact absurd paymentKey (by decide)
  · exact absurd paymentKey (by decide)
  · obtain rfl : total' = 3 := Int64.toInt.inj total
    decide

theorem ServiceMultiJoin.results {storage : JoinStorage MultiJoinSide}
    {acts : List (FedAction String MultiJoinSide)}
    {s : Fed String MultiJoinSide AnalyticsEvent AnalyticsResult}
    (run : ServiceMultiJoin storage acts s) {p : String × AnalyticsResult}
    (member : p ∈ s.join.emitted) : p ∈ expectedRouted := by
  obtain ⟨order, hOrder, payment, hPayment, shipment, hShipment, orderKey, paymentKey, shipmentKey,
    key, kind, total⟩ := (ServiceMultiJoin.routed run).sums p member
  obtain ⟨k, key', total', kind'⟩ := p
  simp only [AnalyticsOrdersSource.start, AnalyticsPaymentsSource.start,
    AnalyticsShipmentsSource.start, List.mem_cons, List.not_mem_nil, or_false]
    at hOrder hPayment hShipment
  simp only at orderKey paymentKey shipmentKey key kind total
  subst key kind
  rcases hOrder with rfl | rfl <;> subst orderKey
  · obtain rfl : payment = ⟨"high-value", 20, "payment"⟩ :=
      hPayment.resolve_right fun eq => absurd (eq ▸ paymentKey) (by decide)
    obtain rfl : shipment = ⟨"high-value", 30, "shipment"⟩ :=
      hShipment.resolve_right fun eq => absurd (eq ▸ shipmentKey) (by decide)
    obtain rfl : total' = 60 := Int64.toInt.inj total
    decide
  · obtain rfl : payment = ⟨"standard", 2, "payment"⟩ :=
      hPayment.resolve_left fun eq => absurd (eq ▸ paymentKey) (by decide)
    obtain rfl : shipment = ⟨"standard", 3, "shipment"⟩ :=
      hShipment.resolve_left fun eq => absurd (eq ▸ shipmentKey) (by decide)
    obtain rfl : total' = 6 := Int64.toInt.inj total
    decide

/-- Results with distinct keys, all of them expected, are all that is expected once every expected
key is among them. -/
theorem perm_expected {emitted expected : List (String × AnalyticsResult)}
    (once : (emitted.map Prod.fst).Nodup) (distinct : (expected.map Prod.fst).Nodup)
    (sound : ∀ p ∈ emitted, p ∈ expected)
    (complete : ∀ key ∈ expected.map Prod.fst, key ∈ emitted.map Prod.fst) :
    emitted.Perm expected := by
  refine (List.perm_ext_iff_of_nodup (.of_map _ once) (.of_map _ distinct)).mpr fun p =>
    ⟨sound p, fun member => ?_⟩
  obtain ⟨q, here, same⟩ := List.mem_map.mp (complete p.1 (List.mem_map_of_mem member))
  rwa [List.inj_on_of_nodup_map distinct (sound q here) member same] at here

/-- However the sources of the service take turns, and whatever the storages keep or drop, no sink
behind the joins ever rejects a result; when all events have been handed on and no key has been
dropped, each sink has accepted exactly the results that it is there for. -/
theorem service_sinks_accept {storage : JoinStorage JoinSide} {storage' : JoinStorage MultiJoinSide}
    {acts : List (FedAction String JoinSide)} {acts' : List (FedAction String MultiJoinSide)}
    {s : Fed String JoinSide AnalyticsEvent AnalyticsResult}
    {s' : Fed String MultiJoinSide AnalyticsEvent AnalyticsResult}
    (first : ServiceJoin storage acts s) (second : ServiceMultiJoin storage' acts' s') :
    (∀ p ∈ s.join.emitted, JoinedAnalyticsSink.consumeMessage p.2 = .ok ()) ∧
    (∀ result ∈ routedTo 0 (s'.join.emitted.map Prod.snd),
      HighValueAnalyticsSink.consumeMessage result = .ok ()) ∧
    (∀ result ∈ routedTo 1 (s'.join.emitted.map Prod.snd),
      StandardAnalyticsSink.consumeMessage result = .ok ()) ∧
    ((∀ i, s.pending i = []) → (∀ key, .expire key ∉ acts) →
      s.join.emitted.Perm expectedJoined) ∧
    ((∀ i, s'.pending i = []) → (∀ key, .expire key ∉ acts') →
      s'.join.emitted.Perm expectedRouted) := by
  have joined := ServiceJoin.joined first
  have routed := ServiceMultiJoin.routed second
  have onBranch : ∀ result ∈ s'.join.emitted.map Prod.snd,
      result = ⟨"high-value", 60, "multi"⟩ ∨ result = ⟨"standard", 6, "multi"⟩ := by
    intro result member
    obtain ⟨p, here, rfl⟩ := List.mem_map.mp member
    have expected := ServiceMultiJoin.results second here
    simp only [expectedRouted, List.mem_cons, List.not_mem_nil, or_false] at expected
    rcases expected with rfl | rfl
    · exact .inl rfl
    · exact .inr rfl
  refine ⟨fun p member => ?_, fun result member => ?_, fun result member => ?_,
    fun exhausted kept => perm_expected joined.once (by decide) (fun p => ServiceJoin.results first) ?_,
    fun exhausted kept =>
      perm_expected routed.once (by decide) (fun p => ServiceMultiJoin.results second) ?_⟩
  · have expected := ServiceJoin.results first member
    simp only [expectedJoined, List.mem_cons, List.not_mem_nil, or_false] at expected
    rcases expected with rfl | rfl <;> decide
  · obtain ⟨here, high⟩ := mem_routedTo.1.mp member
    rcases onBranch result here with rfl | rfl
    · decide
    · exact absurd high (by decide)
  · obtain ⟨here, low⟩ := mem_routedTo.2.mp member
    rcases onBranch result here with rfl | rfl
    · exact absurd low (by decide)
    · decide
  · intro key member
    simp only [expectedJoined, List.map_cons, List.map_nil, List.mem_cons, List.not_mem_nil,
      or_false] at member
    rcases member with rfl | rfl
    · exact joined.complete exhausted ⟨"high-value", 10, "order"⟩ (by decide)
        ⟨"high-value", 20, "payment"⟩ (by decide) rfl (kept _)
    · exact joined.complete exhausted ⟨"standard", 1, "order"⟩ (by decide)
        ⟨"standard", 2, "payment"⟩ (by decide) rfl (kept _)
  · intro key member
    simp only [expectedRouted, List.map_cons, List.map_nil, List.mem_cons, List.not_mem_nil,
      or_false] at member
    rcases member with rfl | rfl
    · exact routed.complete exhausted ⟨"high-value", 10, "order"⟩ (by decide)
        ⟨"high-value", 20, "payment"⟩ (by decide) ⟨"high-value", 30, "shipment"⟩ (by decide) rfl rfl
        (kept _)
    · exact routed.complete exhausted ⟨"standard", 1, "order"⟩ (by decide)
        ⟨"standard", 2, "payment"⟩ (by decide) ⟨"standard", 3, "shipment"⟩ (by decide) rfl rfl
        (kept _)

/-- Both joins run to the end, the payments first. -/
theorem service_sinks_accept_payments_first :
    ∃ (s : Fed String JoinSide AnalyticsEvent AnalyticsResult)
      (s' : Fed String MultiJoinSide AnalyticsEvent AnalyticsResult),
      s.join.emitted.Perm expectedJoined ∧ s'.join.emitted.Perm expectedRouted ∧
      s.join.emitted.length = 2 := by
  let acts : List (FedAction String JoinSide) :=
    [.next .payments, .next .payments, .next .orders, .next .orders]
  let acts' : List (FedAction String MultiJoinSide) :=
    [.next .payments, .next .shipments, .next .payments, .next .orders, .next .orders,
      .next .shipments]
  have ends : (acts.foldlM (orderPaymentJoin (.forgetful _)).feed (.init (joinSources
      AnalyticsOrdersSource.start AnalyticsPaymentsSource.start))).map
        (fun s => (s.join.emitted.length, s.pending .orders, s.pending .payments)) =
      some (2, [], []) := by decide
  have ends' : (acts'.foldlM (analyticsMultiJoin (.forgetful _)).feed (.init (multiJoinSources
      AnalyticsOrdersSource.start AnalyticsPaymentsSource.start AnalyticsShipmentsSource.start))).map
        (fun s => (s.pending .orders, s.pending .payments, s.pending .shipments)) =
      some ([], [], []) := by decide
  obtain ⟨s, run, done⟩ := Option.map_eq_some_iff.mp ends
  obtain ⟨s', run', done'⟩ := Option.map_eq_some_iff.mp ends'
  simp only [Prod.mk.injEq] at done done'
  obtain ⟨-, -, -, joined, routed⟩ := service_sinks_accept (.of_foldlM run) (.of_foldlM run')
  exact ⟨s, s', joined (fun i => by cases i <;> simp [done]) (by simp [acts]),
    routed (fun i => by cases i <;> simp [done']) (by simp [acts']), done.1⟩

end OrderServices
