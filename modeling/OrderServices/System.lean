import OrderServices.Order.Entries
import OrderServices.Inventory.Decrements
import OrderServices.Remote

/-! The two services together. Orders are accepted at any time, each item of an accepted order is
asked for over the wire, and a request may be delivered late, twice or never. The calls of the
inventory service interleave freely, and so do the handlers of all orders. -/
namespace OrderServices

open Runs

variable {F : Type}

/-- `origins` is ghost: the order and the item that the calls of the inventory service come
from, in the order of the calls. -/
structure System (F : Type) where
  inventory : Inventory F
  orders : List (OrderRun F)
  origins : List (ℕ × ℕ)

def System.init : System F := ⟨.init initialStock, [], []⟩

/-- Item `i` of order `o`, as the fan-out emits it. -/
def System.item? (s : System F) (o i : ℕ) : Option (OrderItem F) := do
  let run ← s.orders[o]?
  (processOrderItems run.order)[i]?

def OrderAction.isRespond : OrderAction → Bool
  | .respond _ _ _ _ => true
  | _ => false

inductive SystemAction (F : Type)
  /-- A request reaches `ProcessOrderSource::beginRequest`. -/
  | accept (ambient : Surroundings) (context : MessageContext) (request : HttpRequest)
      (data : HandlerData)
  /-- The request of the sink for item `i` of order `o` reaches the inventory service. -/
  | deliver (o i : ℕ)
  /-- A call that is there already takes a step. -/
  | serve (a : InventoryAction F)
  /-- The response to call `k` reaches the sink of item `i` of order `o`. -/
  | answer (o i k : ℕ) (exit : Exit) (times : Times)
  /-- Anything else that happens to order `o`. -/
  | handle (o : ℕ) (a : OrderAction)

variable [Double F]

def System.perform (source : ProcessOrderSource) (J : BoostJson F) (s : System F) :
    SystemAction F → Option (System F)
  | .accept ambient context request data =>
      match source.beginRequest J ambient context request data with
      | (.ok (_, shared), data) => some { s with orders := s.orders ++ [.start shared.order data] }
      | (.error _, _) => some s
  | .deliver o i => do
      let item ← s.item? o i
      let inventory ← s.inventory.perform (.invoke (wireItem item))
      return { s with inventory, origins := s.origins ++ [(o, i)] }
  | .serve a =>
      if a.invoked?.isSome then none
      else do
        let inventory ← s.inventory.perform a
        return { s with inventory }
  | .answer o i k exit times =>
      if s.origins[k]? = some (o, i) then do
        let response ← s.inventory.response? k
        let run ← s.orders[o]?
        let run' ← run.perform J (.respond i response exit times)
        return { s with orders := s.orders.set o run' }
      else none
  | .handle o a =>
      if a.isRespond then none
      else do
        let run ← s.orders[o]?
        let run' ← run.perform J a
        return { s with orders := s.orders.set o run' }

inductive System.Step (source : ProcessOrderSource) (J : BoostJson F) :
    System F → SystemAction F → System F → Prop
  | accept {s : System F} {ambient : Surroundings} {context context' : MessageContext}
      {request : HttpRequest} {data data' : HandlerData} {shared : SharedState F}
      (accepted : source.beginRequest J ambient context request data =
        (.ok (context', shared), data')) :
      Step source J s (.accept ambient context request data)
        { s with orders := s.orders ++ [.start shared.order data'] }
  | reject {s : System F} {ambient : Surroundings} {context : MessageContext}
      {request : HttpRequest} {data : HandlerData} :
      Step source J s (.accept ambient context request data) s
  | deliver {s : System F} {o i : ℕ} {item : OrderItem F} {inventory : Inventory F}
      (asked : s.item? o i = some item)
      (invoked : s.inventory.perform (.invoke (wireItem item)) = some inventory) :
      Step source J s (.deliver o i) { s with inventory, origins := s.origins ++ [(o, i)] }
  | serve {s : System F} {a : InventoryAction F} {inventory : Inventory F}
      (running : a.invoked? = none) (served : s.inventory.perform a = some inventory) :
      Step source J s (.serve a) { s with inventory }
  | answer {s : System F} {o i k : ℕ} {exit : Exit} {times : Times} {run run' : OrderRun F}
      {response : ProcessOrderItemResponse} (origin : s.origins[k]? = some (o, i))
      (responded : s.inventory.response? k = some response) (here : s.orders[o]? = some run)
      (handled : run.perform J (.respond i response exit times) = some run') :
      Step source J s (.answer o i k exit times) { s with orders := s.orders.set o run' }
  | handle {s : System F} {o : ℕ} {a : OrderAction} {run run' : OrderRun F}
      (silent : a.isRespond = false) (here : s.orders[o]? = some run)
      (handled : run.perform J a = some run') :
      Step source J s (.handle o a) { s with orders := s.orders.set o run' }

theorem System.perform_step {source : ProcessOrderSource} {J : BoostJson F} {s s' : System F}
    {a : SystemAction F} (h : s.perform source J a = some s') : s.Step source J a s' := by
  cases a with
  | accept ambient context request data =>
      simp only [perform] at h
      split at h
      · rename_i context' shared data' accepted
        cases h
        exact .accept accepted
      · cases h
        exact .reject
  | deliver o i =>
      obtain ⟨item, asked, h⟩ := Option.bind_eq_some_iff.mp h
      obtain ⟨inventory, invoked, h⟩ := Option.bind_eq_some_iff.mp h
      cases h
      exact .deliver asked invoked
  | serve a =>
      simp only [perform] at h
      split at h
      · cases h
      · rename_i running
        obtain ⟨inventory, served, h⟩ := Option.bind_eq_some_iff.mp h
        cases h
        exact .serve (Option.not_isSome_iff_eq_none.mp running) served
  | answer o i k exit times =>
      simp only [perform] at h
      split at h
      · rename_i origin
        obtain ⟨response, responded, h⟩ := Option.bind_eq_some_iff.mp h
        obtain ⟨run, here, h⟩ := Option.bind_eq_some_iff.mp h
        obtain ⟨run', handled, h⟩ := Option.bind_eq_some_iff.mp h
        cases h
        exact .answer origin responded here handled
      · cases h
  | handle o a =>
      simp only [perform] at h
      split at h
      · cases h
      · rename_i silent
        obtain ⟨run, here, h⟩ := Option.bind_eq_some_iff.mp h
        obtain ⟨run', handled, h⟩ := Option.bind_eq_some_iff.mp h
        cases h
        exact .handle (Bool.not_eq_true _ ▸ silent) here handled

/-! ## What a run never takes back -/

omit [Double F]

/-- A reserved result of order `o` has its own call, which has taken exactly what it states. -/
def System.Backs (s : System F) (o : ℕ) (p : ℕ × OrderItemResult F) : Prop :=
  ∃ k, s.origins[k]? = some (o, p.1) ∧ Decremented s.inventory.calls k p.2.sku p.2.availableQty ∧
    ∃ item, s.item? o p.1 = some item ∧ p.2.sku = item.sku ∧ p.2.availableQty = item.quantity

structure System.Extends (s s' : System F) : Prop where
  items : ∀ o i item, s.item? o i = some item → s'.item? o i = some item
  origins : s.origins <+: s'.origins
  taken : ∀ k sku quantity, Decremented s.inventory.calls k sku quantity →
    Decremented s'.inventory.calls k sku quantity

theorem System.Backs.extends {s s' : System F} {o : ℕ} {p : ℕ × OrderItemResult F} (h : s.Backs o p)
    (more : s.Extends s') : s'.Backs o p := by
  obtain ⟨k, origin, taken, item, ordered, states⟩ := h
  obtain ⟨bound, eq⟩ := List.getElem?_eq_some_iff.mp origin
  have still : s'.origins[k]? = some (o, p.1) :=
    eq ▸ List.prefix_iff_getElem?.mp more.origins k bound
  exact ⟨k, still, more.taken _ _ _ taken, item, more.items _ _ _ ordered, states⟩

theorem System.item?_append {s : System F} {o i : ℕ} {item : OrderItem F}
    (ordered : s.item? o i = some item) (run : OrderRun F) :
    item? { s with orders := s.orders ++ [run] } o i = some item := by
  obtain ⟨old, here, rest⟩ := Option.bind_eq_some_iff.mp ordered
  have bound := (List.getElem?_eq_some_iff.mp here).1
  exact Option.bind_eq_some_iff.mpr ⟨old, (List.getElem?_append_left bound).trans here, rest⟩

theorem System.item?_set {s : System F} {o : ℕ} {run run' : OrderRun F}
    (here : s.orders[o]? = some run) (same : run'.order = run.order) (o' i : ℕ) :
    item? { s with orders := s.orders.set o run' } o' i = s.item? o' i := by
  unfold item?
  by_cases eq : o = o'
  · subst eq
    simp only [List.getElem?_set_self (List.getElem?_eq_some_iff.mp here).1, here,
      Option.bind_eq_bind, Option.bind_some, same]
  · simp only [List.getElem?_set_ne eq]

section Steps

variable [Double F] {source : ProcessOrderSource} {J : BoostJson F} {s s' : System F}
  {a : SystemAction F}

theorem System.perform_extends (step : s.perform source J a = some s') : s.Extends s' := by
  have same : s.origins <+: s.origins := List.prefix_rfl
  cases perform_step step with
  | accept => exact ⟨fun _ _ _ ordered => item?_append ordered _, same, fun _ _ _ taken => taken⟩
  | reject => exact ⟨fun _ _ _ ordered => ordered, same, fun _ _ _ taken => taken⟩
  | deliver asked invoked =>
      exact ⟨fun _ _ _ ordered => ordered, List.prefix_append _ _, fun _ _ _ taken => taken.step invoked⟩
  | serve running served =>
      exact ⟨fun _ _ _ ordered => ordered, same, fun _ _ _ taken => taken.step served⟩
  | answer origin responded here handled =>
      exact ⟨fun o i item ordered => (item?_set here (OrderRun.perform_order handled) o i).trans ordered,
        same, fun _ _ _ taken => taken⟩
  | handle silent here handled =>
      exact ⟨fun o i item ordered => (item?_set here (OrderRun.perform_order handled) o i).trans ordered,
        same, fun _ _ _ taken => taken⟩

/-! ## The invariant -/

/-- Every call has been asked for by an item, and everything reserved is backed. -/
structure System.Consistent (J : BoostJson F) (s : System F) : Prop where
  explained : s.inventory.Explained initialStock
  called : List.Forall₂ (fun value (origin : ℕ × ℕ) => ∃ item, s.item? origin.1 origin.2 = some item ∧
    value = wireItem item) (s.inventory.calls.map (·.value)) s.origins
  positive : ∀ o i item, s.item? o i = some item → 0 < item.quantity.toInt
  sound : ∀ run ∈ s.orders, run.Sound ∧ run.ReservedOnce
  shows : (∀ value, J.serialize value ≠ "") → ∀ run ∈ s.orders, run.Shows J
  backed : ∀ o run, s.orders[o]? = some run → ∀ p ∈ run.reservedReports, s.Backs o p

theorem System.Consistent.init (J : BoostJson F) : Consistent J System.init where
  explained := .init initialStock
  called := .nil
  positive := fun _ _ _ ordered => by cases ordered
  sound := fun _ impossible => by cases impossible
  shows := fun _ _ impossible => by cases impossible
  backed := fun _ _ impossible => by cases impossible

/-- What a response says that a reserved result rests on. -/
theorem System.Consistent.response (h : s.Consistent J) {o i k : ℕ} {item : OrderItem F}
    {response : ProcessOrderItemResponse} (origin : s.origins[k]? = some (o, i))
    (responded : s.inventory.response? k = some response) (reserved : response.reserved = true)
    (ordered : s.item? o i = some item) :
    s.Backs o (i, ProcessOrderItemSink.handleResponse (ProcessOrderItemSink.consumeMessage item).1
      response) := by
  unfold Inventory.response? at responded
  split at responded
  · rename_i value available verdict here
    cases responded
    have values : (s.inventory.calls.map (·.value))[k]? = some value := by
      rw [List.getElem?_map, here]
      rfl
    obtain ⟨asked, named, rfl⟩ := Matching.forall₂_getElem? h.called values origin
    have same : asked = item := Option.some.inj (named.symm.trans ordered)
    subst same
    cases verdict with
    | false => cases reserved
    | true => exact ⟨k, origin, ⟨_, here, rfl, rfl, rfl⟩, asked, ordered, rfl, rfl⟩
  · cases responded

theorem System.Consistent.called_extends (h : s.Consistent J) (more : s.Extends s') :
    List.Forall₂ (fun value (origin : ℕ × ℕ) => ∃ item, s'.item? origin.1 origin.2 = some item ∧
      value = wireItem item) (s.inventory.calls.map (·.value)) s.origins := by
  refine h.called.imp ?_
  rintro value origin ⟨item, ordered, eq⟩
  exact ⟨item, more.items _ _ _ ordered, eq⟩

theorem System.Consistent.accept (h : s.Consistent J) {ambient : Surroundings}
    {request : HttpRequest} {order : Order F}
    (described : ProcessOrderSource.OrderOf J ambient request order) (data : HandlerData)
    (more : s.Extends { s with orders := s.orders ++ [.start order data] }) :
    Consistent J { s with orders := s.orders ++ [.start order data] } := by
  have which {o : ℕ} {run : OrderRun F} (here : (s.orders ++ [.start order data])[o]? = some run) :
      s.orders[o]? = some run ∨ run = .start order data := by
    rw [List.getElem?_append] at here
    split at here
    · exact .inl here
    · exact .inr (List.mem_singleton.mp (List.mem_of_getElem? here))
  refine ⟨h.explained, h.called_extends more, ?_, ?_, ?_, ?_⟩
  · intro o i item ordered
    obtain ⟨run, here, ordered⟩ := Option.bind_eq_some_iff.mp ordered
    rcases which here with old | rfl
    · exact h.positive o i item (Option.bind_eq_some_iff.mpr ⟨run, old, ordered⟩)
    · obtain ⟨original, member, rfl⟩ := List.mem_map.mp (List.mem_of_getElem? ordered)
      have positive := described.positive member
      exact positive
  · intro run member
    rcases List.mem_append.mp member with old | new
    · exact h.sound run old
    · rw [List.mem_singleton.mp new]
      exact ⟨.start data described.items_pos, .start order data⟩
  · intro nonempty run member
    rcases List.mem_append.mp member with old | new
    · exact h.shows nonempty run old
    · rw [List.mem_singleton.mp new]
      intro status impossible
      cases impossible
  · intro o run here p member
    rcases which here with old | rfl
    · exact (h.backed o run old p member).extends more
    · cases member

/-- A handler runs, and what it newly reports as reserved is backed. -/
theorem System.Consistent.handle (h : s.Consistent J) {o : ℕ} {run run' : OrderRun F}
    {a : OrderAction} (here : s.orders[o]? = some run) (handled : run.perform J a = some run')
    (more : s.Extends { s with orders := s.orders.set o run' })
    (new : ∀ p ∈ run'.reservedReports, p ∈ run.reservedReports ∨ s.Backs o p) :
    Consistent J { s with orders := s.orders.set o run' } := by
  have member := List.mem_of_getElem? here
  refine ⟨h.explained, h.called_extends more, ?_, ?_, ?_, ?_⟩
  · intro o' i item ordered
    rw [item?_set here (OrderRun.perform_order handled)] at ordered
    exact h.positive o' i item ordered
  · intro other hother
    rcases List.mem_or_eq_of_mem_set hother with old | rfl
    · exact h.sound other old
    · exact ⟨(h.sound run member).1.step handled, (h.sound run member).2.step handled⟩
  · intro nonempty other hother
    rcases List.mem_or_eq_of_mem_set hother with old | rfl
    · exact h.shows nonempty other old
    · exact (h.shows nonempty run member).step nonempty (h.sound run member).1 handled
  · intro o' other hother p hp
    by_cases same : o = o'
    · subst same
      rw [List.getElem?_set_self (List.getElem?_eq_some_iff.mp here).1] at hother
      cases hother
      rcases new p hp with old | backs
      · exact (h.backed o run here p old).extends more
      · exact backs.extends more
    · rw [List.getElem?_set_ne same] at hother
      exact (h.backed o' other hother p hp).extends more

theorem System.Consistent.step (h : s.Consistent J) (step : s.perform source J a = some s') :
    s'.Consistent J := by
  have more := perform_extends step
  cases perform_step step with
  | accept accepted =>
      obtain ⟨described, -, -⟩ := ProcessOrderSource.beginRequest_ok accepted
      exact h.accept described _ more
  | reject => exact h
  | @deliver o i item inventory asked invoked =>
      have values := Inventory.map_value_step invoked
      refine { h with
        explained := h.explained.step invoked
        called := ?_
        backed := fun o run here p hp => (h.backed o run here p hp).extends more }
      change List.Forall₂ _ (inventory.calls.map (·.value)) (s.origins ++ [(o, i)])
      rw [values]
      exact List.rel_append (h.called_extends more) (.cons ⟨item, asked, rfl⟩ .nil)
  | @serve a inventory running served =>
      have values := Inventory.map_value_step served
      rw [running, Option.toList_none, List.append_nil] at values
      refine { h with
        explained := h.explained.step served
        called := ?_
        backed := fun o run here p hp => (h.backed o run here p hp).extends more }
      change List.Forall₂ _ (inventory.calls.map (·.value)) s.origins
      rw [values]
      exact h.called_extends more
  | @answer o i k exit times run run' response origin responded here handled =>
      refine h.handle here handled more fun p hp => ?_
      rcases OrderRun.perform_reserved handled with ⟨same, -⟩ |
        ⟨i, item, response, exit, times, action, ordered, -, -, reserved, appended⟩
      · exact .inl (same ▸ hp)
      · -- The only new entry is the response, and the call that it answers is behind it.
        cases action
        rw [appended] at hp
        rcases List.mem_append.mp hp with old | new
        · exact .inl old
        · rw [List.mem_singleton.mp new]
          exact .inr (h.response origin responded reserved
            (Option.bind_eq_some_iff.mpr ⟨run, here, ordered⟩))
  | @handle o a run run' silent here handled =>
      refine h.handle here handled more fun p hp => ?_
      rcases OrderRun.perform_reserved handled with ⟨same, -⟩ |
        ⟨i, item, response, exit, times, rfl, -⟩
      · exact .inl (same ▸ hp)
      · cases silent

theorem System.Consistent.run {acts : List (SystemAction F)}
    (run : Run (Performs (System.perform source J)) .init acts s) : s.Consistent J :=
  run.invariant_all (.init J) fun before step => before.step step

end Steps

/-! ## No overselling -/

/-- The reserved entries of all responses that have been written. -/
def System.reservedEntries (s : System F) : List (OrderItemResult F) :=
  s.orders.flatMap fun run => run.entries.filter fun r => r.reserved

def quantityOn (sku : String) (entries : List (OrderItemResult F)) : ℤ :=
  ((entries.filter fun r => r.sku = sku).map fun r => r.availableQty.toInt).sum

/-- What all responses together promise is there. -/
structure System.NotOversold (J : BoostJson F) (s : System F) : Prop where
  shows : (∀ value, J.serialize value ≠ "") → ∀ run ∈ s.orders, run.Shows J
  matched : ∃ ks : List ℕ, ks.Nodup ∧ List.Forall₂ (fun (r : OrderItemResult F) k =>
    Decremented s.inventory.calls k r.sku r.availableQty) s.reservedEntries ks
  bounded : ∀ sku n₀, initialStock sku = some n₀ → ∃ n, s.inventory.stock sku = some n ∧
    0 ≤ n.toInt ∧ quantityOn sku s.reservedEntries + n.toInt ≤ n₀.toInt
  known : ∀ r ∈ s.reservedEntries, (initialStock r.sku).isSome
  confirmed : ∀ o run, s.orders[o]? = some run → run.answer = some "CONFIRMED" →
    ∀ i item, s.item? o i = some item →
      ∃ k, s.origins[k]? = some (o, i) ∧ Decremented s.inventory.calls k item.sku item.quantity

/-- Entries that are matched with calls state what the calls have taken. -/
theorem quantityOn_matched {calls : List (Call F)} {entries : List (OrderItemResult F)} {ks : List ℕ}
    (matched : List.Forall₂ (fun (r : OrderItemResult F) k =>
      Decremented calls k r.sku r.availableQty) entries ks) (sku : String) :
    quantityOn sku entries = (ks.map (takesOf sku calls)).sum := by
  induction matched with
  | nil => rfl
  | @cons r k entries ks taken _ ih =>
      rw [List.map_cons, List.sum_cons, taken.takesOf sku, ← ih]
      by_cases same : r.sku = sku <;> simp [quantityOn, same]

/-- The reserved entries, each with its order and its item. -/
def System.reservedPositions (s : System F) : List ((ℕ × ℕ) × OrderItemResult F) :=
  Matching.positioned (s.orders.map OrderRun.reservedListed)

/-- Different entries rest on different calls, each of which its own item has made. -/
theorem System.Consistent.matched_positions [Double F] {J : BoostJson F} {s : System F}
    (h : s.Consistent J) :
    s.reservedPositions.map Prod.snd = s.reservedEntries ∧
    ∃ ks : List ℕ, ks.Nodup ∧ List.Forall₂ (fun (e : (ℕ × ℕ) × OrderItemResult F) k =>
      s.origins[k]? = some e.1 ∧ Decremented s.inventory.calls k e.2.sku e.2.availableQty)
      s.reservedPositions ks := by
  have entries : s.reservedPositions.map Prod.snd = s.reservedEntries := by
    rw [reservedPositions, Matching.positioned_map_snd, List.flatMap_map]
    exact List.flatMap_congr fun run member => (h.sound run member).1.reservedListed
  have keys : (s.reservedPositions.map Prod.fst).Nodup := by
    refine Matching.nodup_positioned fun g hg => ?_
    obtain ⟨run, member, rfl⟩ := List.mem_map.mp hg
    obtain ⟨sound, reserved⟩ := h.sound run member
    exact reserved.once.sublist (sound.reservedListed_sublist.map _)
  have each : ∀ e ∈ s.reservedPositions, ∃ k, s.origins[k]? = some e.1 ∧
      s.origins[k]? = some e.1 ∧ Decremented s.inventory.calls k e.2.sku e.2.availableQty := by
    intro e he
    obtain ⟨g, here, member⟩ := Matching.mem_positioned.mp he
    rw [List.getElem?_map, Option.map_eq_some_iff] at here
    obtain ⟨run, here, rfl⟩ := here
    have sound := (h.sound run (List.mem_of_getElem? here)).1
    obtain ⟨k, origin, taken, -⟩ := h.backed _ run here _ (sound.reservedListed_sublist.subset member)
    exact ⟨k, origin, origin, taken⟩
  -- A call has one origin, so entries with different keys cannot share a call.
  exact ⟨entries, Matching.exists_distinct keys each⟩

theorem System.Consistent.matched [Double F] {J : BoostJson F} {s : System F} (h : s.Consistent J) :
    ∃ ks : List ℕ, ks.Nodup ∧ List.Forall₂ (fun (r : OrderItemResult F) k =>
      Decremented s.inventory.calls k r.sku r.availableQty) s.reservedEntries ks := by
  obtain ⟨entries, ks, nodup, all⟩ := h.matched_positions
  refine ⟨ks, nodup, ?_⟩
  rw [← entries, List.forall₂_map_left_iff]
  exact all.imp fun _ _ backed => backed.2

/-- Every call asks for a positive quantity. -/
theorem System.Consistent.calls_positive [Double F] {J : BoostJson F} {s : System F}
    (h : s.Consistent J) {c : Call F} (hc : c ∈ s.inventory.calls) : 0 < c.value.quantity.toInt := by
  obtain ⟨k, bound, rfl⟩ := List.mem_iff_getElem.mp hc
  have lengths := h.called.length_eq
  rw [List.length_map] at lengths
  have values : (s.inventory.calls.map (·.value))[k]? = some s.inventory.calls[k].value := by
    simp [bound]
  have origin := List.getElem?_eq_getElem (lengths ▸ bound)
  obtain ⟨item, ordered, eq⟩ := Matching.forall₂_getElem? h.called values origin
  rw [eq]
  have positive := h.positive _ _ _ ordered
  exact positive

/-- Nothing is taken from a SKU that the inventory service does not know. -/
theorem System.Consistent.known [Double F] {J : BoostJson F} {s : System F} (h : s.Consistent J)
    {k : ℕ} {sku : String} {quantity : Int32}
    (taken : Decremented s.inventory.calls k sku quantity) : (initialStock sku).isSome := by
  by_contra unknown
  obtain ⟨-, nothing⟩ := h.explained.unknown (Option.not_isSome_iff_eq_none.mp unknown)
  have most : ([k].map (takesOf sku s.inventory.calls)).sum ≤ s.inventory.confirmedOn sku :=
    Inventory.sum_takesOf_le (fun c hc _ => (h.calls_positive hc).le) (List.nodup_singleton k)
      (by simpa using taken.lt_length)
  rw [List.map_singleton, List.sum_singleton, taken.takesOf sku, if_pos rfl, nothing] at most
  obtain ⟨c, here, -, -, rfl⟩ := taken
  have positive := h.calls_positive (List.mem_of_getElem? here)
  omega

theorem System.Consistent.notOversold [Double F] {J : BoostJson F} {s : System F}
    (h : s.Consistent J) : s.NotOversold J := by
  obtain ⟨ks, nodup, matched⟩ := h.matched
  have inRange : ∀ k ∈ ks, k < s.inventory.calls.length := by
    intro k hk
    obtain ⟨r, taken⟩ := Matching.exists_forall₂.mp ⟨_, matched.flip⟩ k hk
    exact Decremented.lt_length taken
  have sold (sku : String) : quantityOn sku s.reservedEntries ≤ s.inventory.confirmedOn sku := by
    rw [quantityOn_matched matched]
    exact Inventory.sum_takesOf_le (fun c hc _ => (h.calls_positive hc).le) nodup inRange
  refine ⟨h.shows, ⟨ks, nodup, matched⟩, ?_, ?_, ?_⟩
  · intro sku n₀ known
    obtain ⟨n, counter, low, value⟩ := h.explained.known known (initialStock_nonneg known)
    have := sold sku
    exact ⟨n, counter, low, by omega⟩
  · intro r hr
    obtain ⟨k, taken⟩ := Matching.exists_forall₂.mp ⟨_, matched⟩ r hr
    exact h.known taken
  · intro o run here answer i item ordered
    obtain ⟨sound, reserved⟩ := h.sound run (List.mem_of_getElem? here)
    obtain ⟨run', here', item'⟩ := Option.bind_eq_some_iff.mp ordered
    cases Option.some.inj (here.symm.trans here')
    obtain ⟨p, listed, rfl⟩ := List.mem_map.mp
      (sound.confirmed reserved answer (lt_of_processOrderItems item'))
    obtain ⟨k, origin, taken, asked, here₂, sku, quantity⟩ :=
      h.backed o run here p (sound.reservedListed_sublist.subset listed)
    cases Option.some.inj (here₂.symm.trans ordered)
    rw [sku, quantity] at taken
    exact ⟨k, origin, taken⟩

/-- No run of the two services oversells. Every reserved entry of every response has a call of
its own that took its quantity from the counter of its SKU; what the responses promise of a SKU
was there at the beginning, and an order answered CONFIRMED has got all its items. -/
theorem no_overselling [Double F] {source : ProcessOrderSource} {J : BoostJson F}
    {acts : List (SystemAction F)} {s : System F}
    (run : Run (Performs (System.perform source J)) .init acts s) : s.NotOversold J :=
  (System.Consistent.run run).notOversold

/-- A request that is delivered twice takes twice, and the response lists one of the two. -/
theorem no_overselling_retried :
    ∃ (acts : List (SystemAction ℚ)) (s : System ℚ),
      Run (Performs (System.perform {} (twoItemsBoost "\x7b\x7d"))) .init acts s ∧
      s.inventory.stock "SKU-001" = some 96 ∧ quantityOn "SKU-001" s.reservedEntries = 2 ∧
      s.NotOversold (twoItemsBoost "\x7b\x7d") := by
  let J : BoostJson ℚ := twoItemsBoost "\x7b\x7d"
  let data : HandlerData := ⟨0, "", "", 0⟩
  let times : Times := ⟨"2026-08-16T12:00:01Z", "2026-08-16T12:00:01Z"⟩
  let started : System ℚ := { (System.init : System ℚ) with orders := [.start twoItemsOrder data] }
  have accepted : System.init.perform {} J (.accept noon ⟨none, false⟩ twoItemsRequest data) =
      some started := by
    simp only [System.perform, J, twoItems_started]
    rfl
  let acts : List (SystemAction ℚ) :=
    [.deliver 0 0, .deliver 0 0, .serve (.load 0), .serve (.load 1), .serve (.exchange 0 false),
      .serve (.exchange 1 false), .serve (.exchange 1 false), .serve (.respond 1),
      .handle 0 (.finish 1 (some (.std "unavailable")) .returned times), .answer 0 0 1 .returned times]
  have ends : (acts.foldlM (System.perform {} J) started).map (fun s =>
      (s.inventory.stock "SKU-001", quantityOn "SKU-001" s.reservedEntries)) = some (some 96, 2) := by
    decide
  obtain ⟨s, rest, shown⟩ := Option.map_eq_some_iff.mp ends
  obtain ⟨stock, quantity⟩ := Prod.mk.inj shown
  have all : (SystemAction.accept noon ⟨none, false⟩ twoItemsRequest data :: acts).foldlM
      (System.perform {} J) .init = some s := by
    rw [List.foldlM_cons, accepted]
    exact rest
  exact ⟨_, s, .of_foldlM all, stock, quantity, no_overselling (.of_foldlM all)⟩

end OrderServices
