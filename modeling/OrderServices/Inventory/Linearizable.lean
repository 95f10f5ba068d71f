import OrderServices.Inventory.Atomic
import Mathlib.Algebra.BigOperators.Group.Finset.Basic
import Mathlib.Algebra.Order.BigOperators.Group.List
import Mathlib.Order.Interval.Finset.Nat

/-! Whatever the interleaving of their loads and exchanges, the concurrent calls of
`GetInventoryItemData` behave like try-reserves made one at a time: a call takes effect
where it reads the value that ends its loop or where its exchange succeeds. -/
namespace OrderServices

open Linearization Runs

variable {F : Type}

def Call.phase (c : Call F) : Phase :=
  match c.progress with
  | .decided _ _ => if c.returned then .responded else .decided
  | _ => .pending

def Call.reservation (c : Call F) : Reservation := ⟨c.value.sku, c.value.quantity.toInt⟩

def Emission.verdict : Emission F → Verdict
  | .out _ => .confirmed
  | .errors failure => .rejected failure.availableQty.toInt

/-- The outcome of a decided call, as it shows in what the call emits. -/
def Call.verdict (c : Call F) : Verdict :=
  match c.progress with
  | .decided available reserved => (emit c.value available reserved).verdict
  | _ => .rejected 0

def phaseOf (calls : List (Call F)) (i : ℕ) : Phase := calls[i]?.elim .absent Call.phase

def reservationOf (calls : List (Call F)) (i : ℕ) : Reservation :=
  calls[i]?.elim ⟨"", 0⟩ Call.reservation

def verdictOf (calls : List (Call F)) (i : ℕ) : Verdict := calls[i]?.elim (.rejected 0) Call.verdict

section Updates

variable {calls : List (Call F)} {i j : ℕ} {old c : Call F}

theorem phaseOf_set (here : calls[i]? = some old) (c : Call F) :
    phaseOf (calls.set i c) = Function.update (phaseOf calls) i c.phase := by
  have bound : i < calls.length := (List.getElem?_eq_some_iff.mp here).1
  funext j
  by_cases same : j = i
  · subst same; simp [phaseOf, bound]
  · have other : i ≠ j := fun h => same h.symm
    simp [phaseOf, same, List.getElem?_set_ne other]

theorem phaseOf_append (c : Call F) :
    phaseOf (calls ++ [c]) = Function.update (phaseOf calls) calls.length c.phase := by
  funext j
  by_cases same : j = calls.length
  · subst same; simp [phaseOf]
  · rw [Function.update_of_ne same]
    unfold phaseOf
    rcases Nat.lt_or_gt_of_ne same with lt | gt
    · rw [List.getElem?_append_left lt]
    · rw [List.getElem?_eq_none (by simp; omega), List.getElem?_eq_none (by omega)]

theorem reservationOf_set (here : calls[i]? = some old) (same : c.value = old.value) :
    reservationOf (calls.set i c) = reservationOf calls := by
  have bound : i < calls.length := (List.getElem?_eq_some_iff.mp here).1
  funext j
  by_cases eq : i = j
  · subst eq
    simp only [reservationOf, List.getElem?_set_self bound, here, Option.elim_some, Call.reservation, same]
  · simp only [reservationOf, List.getElem?_set_ne eq]

theorem verdictOf_set_ne (ne : i ≠ j) (c : Call F) :
    verdictOf (calls.set i c) j = verdictOf calls j := by
  simp only [verdictOf, List.getElem?_set_ne ne]

end Updates

/-- What a call that is about to exchange has made sure of. -/
structure Call.Sound (stock₀ : Stock) (c : Call F) : Prop where
  known : ∀ available, c.progress = .exchanging available → (stock₀ c.value.sku).isSome
  enough : ∀ available, c.progress = .exchanging available → c.value.quantity ≤ available

theorem Call.Sound.loading (stock₀ : Stock) (value : OrderItem F) :
    Call.Sound stock₀ ⟨value, .loading, false⟩ where
  known := fun _ impossible => by cases impossible
  enough := fun _ impossible => by cases impossible

theorem Call.Sound.decided (stock₀ : Stock) (value : OrderItem F) (available : Int32)
    (reserved returned : Bool) :
    Call.Sound stock₀ ⟨value, .decided available reserved, returned⟩ where
  known := fun _ impossible => by cases impossible
  enough := fun _ impossible => by cases impossible

/-- The invariant of every run. -/
structure Inventory.Explained (stock₀ : Stock) (s : Inventory F) : Prop where
  sound : ∀ c ∈ s.calls, c.Sound stock₀
  tracks : Tracks s.history (phaseOf s.calls)
  explains : Explains tryReserve stock₀.view s.stock.view (reservationOf s.calls)
    (verdictOf s.calls) s.history

/-! ## What the confirmed calls have taken -/

def Call.takes (sku : String) (c : Call F) : ℤ := c.reservation.takes sku c.verdict

/-- The quantities of the calls confirmed on `sku` so far. -/
def Inventory.confirmedOn (s : Inventory F) (sku : String) : ℤ :=
  (s.calls.map (Call.takes sku)).sum

theorem Call.takes_pending {sku : String} {c : Call F} (pending : c.phase = .pending) :
    c.takes sku = 0 := by
  unfold phase at pending
  unfold takes verdict
  split at pending
  · split at pending <;> cases pending
  · rfl

/-- What call `i` has taken from `sku`. -/
def takesOf (sku : String) (calls : List (Call F)) (i : ℕ) : ℤ :=
  (reservationOf calls i).takes sku (verdictOf calls i)

theorem takesOf_getElem {sku : String} {calls : List (Call F)} {i : ℕ} (bound : i < calls.length) :
    takesOf sku calls i = calls[i].takes sku := by
  simp [takesOf, reservationOf, verdictOf, bound, Call.takes]

theorem sum_takesOf (sku : String) (calls : List (Call F)) :
    ∑ i ∈ Finset.range calls.length, takesOf sku calls i = (calls.map (Call.takes sku)).sum := by
  rw [← List.toFinset_range, List.sum_toFinset _ List.nodup_range]
  congr 1
  refine List.ext_getElem (by simp) fun i h₁ h₂ => ?_
  simp only [List.getElem_map, List.getElem_range]
  exact takesOf_getElem (by simpa using h₂)

/-- An order of the settled calls covers everything that has been taken. -/
theorem takenBy_order {calls : List (Call F)} {order : List ℕ} (sku : String) (nodup : order.Nodup)
    (covers : ∀ i, i ∈ order ↔ (phaseOf calls i).Settled) :
    takenBy sku (order.map (reservationOf calls)) (order.map (verdictOf calls)) =
      (calls.map (Call.takes sku)).sum := by
  have terms : takenBy sku (order.map (reservationOf calls)) (order.map (verdictOf calls)) =
      (order.map (takesOf sku calls)).sum := by
    simp only [takenBy, List.zipWith_map, List.zipWith_self]
    rfl
  rw [terms, ← List.sum_toFinset _ nodup, ← sum_takesOf]
  refine Finset.sum_subset ?_ ?_
  · intro i hi
    rw [Finset.mem_range]
    by_contra late
    have settled := (covers i).mp (List.mem_toFinset.mp hi)
    simp [phaseOf, List.getElem?_eq_none (Nat.le_of_not_lt late), Phase.Settled] at settled
  · intro i hi missing
    have bound := Finset.mem_range.mp hi
    have unsettled := (covers i).not.mp fun h => missing (List.mem_toFinset.mpr h)
    rw [takesOf_getElem bound]
    apply Call.takes_pending
    simp only [phaseOf, List.getElem?_eq_getElem bound, Option.elim_some, Phase.Settled] at unsettled
    unfold Call.phase at unsettled ⊢
    split at unsettled
    · split at unsettled <;> simp at unsettled
    · rfl

/-- The counters in terms of what the confirmed calls have taken. -/
theorem Inventory.Explained.conserves {stock₀ : Stock} {s : Inventory F} (h : s.Explained stock₀)
    (sku : String) :
    s.stock.view sku = (stock₀.view sku).map (· - s.confirmedOn sku) ∧
      Covers (stock₀.view sku) (s.confirmedOn sku) := by
  obtain ⟨order, nodup, covers, -, replay⟩ := h.explains.linearizable h.tracks
  have total := replay_conserves stock₀.view (order.map (reservationOf s.calls)) sku
  rw [replay, takenBy_order sku nodup covers] at total
  exact total

/-- No counter is ever created or dropped. -/
theorem Inventory.Explained.isSome_iff {stock₀ : Stock} {s : Inventory F} (h : s.Explained stock₀)
    (sku : String) : (s.stock sku).isSome ↔ (stock₀ sku).isSome := by
  have counter := congrArg Option.isSome (h.conserves sku).1
  simp only [Stock.view, Option.isSome_map] at counter
  rw [counter]

/-! ## Every step keeps the invariant -/

theorem Inventory.Explained.init (stock₀ : Stock) :
    Explained stock₀ (Inventory.init stock₀ : Inventory F) := by
  refine ⟨by simp [Inventory.init], ?_, Explains.nil _ _ _ _⟩
  have empty : phaseOf ([] : List (Call F)) = fun _ => .absent := by
    funext i
    simp [phaseOf]
  unfold Inventory.init
  rw [empty]
  exact Tracks.nil

/-- A pending call moves on. When the move decides it, the atomic object does the same. -/
theorem Inventory.Explained.advance {stock₀ : Stock} {s : Inventory F} {i : ℕ}
    {value : OrderItem F} {before : Progress} (h : s.Explained stock₀) (stock : Stock)
    (after : Progress) (running : s.calls[i]? = some { value, progress := before })
    (pending : decisionMoment i before = [])
    (sound : Call.Sound stock₀ ({ value, progress := after } : Call F))
    (agrees : ∀ available reserved, after = .decided available reserved →
      tryReserve.apply s.stock.view ⟨value.sku, value.quantity.toInt⟩ =
        (stock.view, Call.verdict ({ value, progress := after } : Call F)))
    (still : decisionMoment i after = [] → stock = s.stock) :
    Inventory.Explained stock₀ { s.advance i value after with stock := stock } := by
  have bound : i < s.calls.length := (List.getElem?_eq_some_iff.mp running).1
  have phase : phaseOf s.calls i = .pending := by
    cases before with
    | decided a r => cases pending
    | loading => simp [phaseOf, running, Call.phase]
    | exchanging a => simp [phaseOf, running, Call.phase]
  have moved := phaseOf_set running { value, progress := after }
  have ops : reservationOf (s.calls.set i { value, progress := after }) = reservationOf s.calls :=
    reservationOf_set running rfl
  -- An earlier decision was never one of `i`, so its outcome stands.
  have kept : Explains tryReserve stock₀.view s.stock.view
      (reservationOf (s.calls.set i { value, progress := after }))
      (verdictOf (s.calls.set i { value, progress := after })) s.history := by
    refine h.explains.congr fun j decided => ⟨by rw [ops], verdictOf_set_ne ?_ _⟩
    rintro rfl
    have settled := (h.tracks.decided i).mp decided
    simp [phase, Phase.Settled] at settled
  refine ⟨?_, ?_, ?_⟩
  · intro c hc
    rcases List.mem_or_eq_of_mem_set hc with old | rfl
    · exact h.sound c old
    · exact sound
  · change Tracks (s.history ++ decisionMoment i after) (phaseOf (s.calls.set i _))
    rw [moved]
    cases after with
    | decided a r => exact h.tracks.decide phase
    | loading =>
        simpa [decisionMoment, Call.phase, ← phase] using h.tracks
    | exchanging a =>
        simpa [decisionMoment, Call.phase, ← phase] using h.tracks
  · change Explains tryReserve stock₀.view stock.view (reservationOf (s.calls.set i _))
      (verdictOf (s.calls.set i _)) (s.history ++ decisionMoment i after)
    cases after with
    | decided a r =>
        refine kept.decide ?_
        have verdict := agrees a r rfl
        simpa [ops, reservationOf, verdictOf, running, bound, Call.reservation] using verdict
    | loading =>
        rw [still rfl]
        exact kept.append rfl
    | exchanging a =>
        rw [still rfl]
        exact kept.append rfl

theorem Inventory.Explained.append {stock₀ : Stock} {s : Inventory F} (h : s.Explained stock₀)
    (value : OrderItem F) :
    Inventory.Explained stock₀
      { s with
        calls := s.calls ++ [{ value, progress := .loading }]
        history := s.history ++ [.invoke s.calls.length] } := by
  have fresh : phaseOf s.calls s.calls.length = .absent := by
    simp [phaseOf]
  have earlier : ∀ j, .decide j ∈ s.history → j < s.calls.length := by
    intro j decided
    by_contra late
    have absent : phaseOf s.calls j = .absent := by
      simp [phaseOf, List.getElem?_eq_none (Nat.le_of_not_lt late)]
    have settled := (h.tracks.decided j).mp decided
    simp [absent, Phase.Settled] at settled
  refine ⟨?_, ?_, ?_⟩
  · intro c hc
    rcases List.mem_append.mp hc with old | new
    · exact h.sound c old
    · rw [List.mem_singleton.mp new]
      exact Call.Sound.loading stock₀ value
  · change Tracks _ (phaseOf (s.calls ++ [_]))
    rw [phaseOf_append]
    exact h.tracks.invoke fresh
  · refine Explains.append (h.explains.congr fun j decided => ?_) rfl
    simp [reservationOf, verdictOf, List.getElem?_append_left (earlier j decided)]

/-- A call of an unknown SKU is decided as soon as it is invoked. -/
theorem Inventory.Explained.invoke {stock₀ : Stock} {s : Inventory F} {value : OrderItem F}
    (h : s.Explained stock₀) :
    Inventory.Explained stock₀
      { s with
        calls := s.calls ++ [{ value, progress := lookupSku s.stock value }]
        history := s.history ++ .invoke s.calls.length ::
          decisionMoment s.calls.length (lookupSku s.stock value) } := by
  have appended := h.append value
  rcases lookupSku_cases s.stock value with ⟨-, known⟩ | ⟨unknown, decided⟩
  · rw [known]
    exact appended
  · rw [decided]
    have absent : s.stock.view value.sku = none := by rw [Stock.view, unknown]; rfl
    have running : (s.calls ++ [⟨value, .loading, false⟩])[s.calls.length]? =
        some ⟨value, .loading, false⟩ := by simp
    have decided := appended.advance s.stock (.decided 0 false) running rfl
      (Call.Sound.decided stock₀ value 0 false false)
      (fun available reserved eq => by
        cases eq
        rw [tryReserve_unknown absent]
        rfl)
      (fun impossible => by cases impossible)
    simpa [Inventory.advance, decisionMoment] using decided

/-- The local copy was read just now, so its test decides like the atomic object. -/
theorem Inventory.Explained.read {stock₀ : Stock} {s : Inventory F} {i : ℕ} {value : OrderItem F}
    {before : Progress} {current : Int32} (h : s.Explained stock₀)
    (running : s.calls[i]? = some { value, progress := before })
    (pending : decisionMoment i before = []) (counter : s.stock value.sku = some current) :
    Inventory.Explained stock₀ (s.advance i value (loopCondition value current)) := by
  have known := (h.isSome_iff value.sku).mp (by simp [counter])
  refine h.advance s.stock _ running pending ⟨fun _ _ => known, ?_⟩ ?_ (fun _ => rfl)
  · intro available eq
    rcases loopCondition_cases value current with ⟨enough, goesOn⟩ | ⟨-, ends⟩
    · cases goesOn.symm.trans eq
      exact enough
    · cases ends.symm.trans eq
  · intro available reserved eq
    rcases loopCondition_cases value current with ⟨-, goesOn⟩ | ⟨short, ends⟩
    · cases goesOn.symm.trans eq
    · cases ends.symm.trans eq
      rw [ends]
      refine tryReserve_rejected (n := current.toInt) (by simp [Stock.view, counter]) ?_
      rw [Int32.le_iff_toInt_le] at short
      exact Int.not_le.mp short

/-- The counter still holds the copy that passed the test, so the exchange subtracts like the
atomic object and does not overflow. -/
theorem Inventory.Explained.exchanged {stock₀ : Stock} {s : Inventory F} {i : ℕ}
    {value : OrderItem F} {current desired : Int32} (h : s.Explained stock₀)
    (running : s.calls[i]? = some { value, progress := .exchanging current })
    (counter : s.stock value.sku = some current)
    (defined : SignedWord.checkedSub current value.quantity = some desired) :
    Inventory.Explained stock₀
      { s.advance i value (.decided current true) with stock := s.stock.set value.sku desired } := by
  have sound := h.sound _ (List.mem_of_getElem? running)
  refine h.advance _ _ running rfl (Call.Sound.decided stock₀ value current true false) ?_
    (fun impossible => by cases impossible)
  intro available reserved eq
  cases eq
  have enough : value.quantity.toInt ≤ current.toInt :=
    Int32.le_iff_toInt_le.mp (sound.enough current rfl)
  rw [tryReserve_confirmed (n := current.toInt) (by simp [Stock.view, counter]) enough,
    Stock.view_set, SignedWord.checkedSub_toInt defined]
  rfl

theorem Inventory.Explained.respond {stock₀ : Stock} {s : Inventory F} {i : ℕ}
    {value : OrderItem F} {available : Int32} {reserved : Bool} (h : s.Explained stock₀)
    (done : s.calls[i]? = some { value, progress := .decided available reserved }) :
    Inventory.Explained stock₀
      { s with
        calls := s.calls.set i { value, progress := .decided available reserved, returned := true }
        history := s.history ++ [.respond i] } := by
  have bound : i < s.calls.length := (List.getElem?_eq_some_iff.mp done).1
  have phase : phaseOf s.calls i = .decided := by
    simp [phaseOf, done, Call.phase]
  refine ⟨?_, ?_, ?_⟩
  · intro c hc
    rcases List.mem_or_eq_of_mem_set hc with old | rfl
    · exact h.sound c old
    · exact Call.Sound.decided stock₀ value available reserved true
  · change Tracks _ (phaseOf (s.calls.set i _))
    rw [phaseOf_set done]
    exact h.tracks.respond phase
  · refine Explains.append (h.explains.congr fun j _ => ⟨?_, ?_⟩) rfl
    · exact congrFun (reservationOf_set done
        (c := { value, progress := .decided available reserved, returned := true }) rfl) j
    · by_cases same : i = j
      · subst same
        simp only [verdictOf, List.getElem?_set_self bound, done, Option.elim_some, Call.verdict]
      · exact verdictOf_set_ne same _

/-- Every step of the machine keeps the invariant. -/
theorem Inventory.Explained.step {stock₀ : Stock} {s s' : Inventory F} {a : InventoryAction F}
    (h : s.Explained stock₀) (step : Performs Inventory.perform s a s') : s'.Explained stock₀ := by
  cases Inventory.perform_step step with
  | invoke => exact h.invoke
  | load running counter => exact h.read running rfl counter
  | exchanged running counter defined success =>
      obtain ⟨rfl, rfl, -⟩ := compareExchangeWeak_ok success
      exact h.exchanged running counter defined
  | reloaded running counter defined failure =>
      obtain ⟨rfl, -⟩ := compareExchangeWeak_error failure
      exact h.read running rfl counter
  | respond done => exact h.respond done

theorem Inventory.Explained.run {stock₀ : Stock} {acts : List (InventoryAction F)}
    {s : Inventory F} (run : Run (Performs Inventory.perform) (.init stock₀) acts s) :
    s.Explained stock₀ :=
  run.invariant_all (.init stock₀) fun before step => before.step step

theorem map_value_set {calls : List (Call F)} {i : ℕ} {c : Call F} (here : calls[i]? = some c)
    (progress : Progress) (returned : Bool) :
    (calls.set i ⟨c.value, progress, returned⟩).map (·.value) = calls.map (·.value) := by
  refine List.ext_getElem? fun j => ?_
  by_cases eq : i = j
  · subst eq
    have bound := (List.getElem?_eq_some_iff.mp here).1
    simp only [List.getElem?_map, List.getElem?_set_self bound, here, Option.map_some]
  · simp only [List.getElem?_map, List.getElem?_set_ne eq]

theorem Inventory.map_value_step {s s' : Inventory F} {a : InventoryAction F}
    (step : s.perform a = some s') :
    s'.calls.map (·.value) = s.calls.map (·.value) ++ a.invoked?.toList := by
  cases Inventory.perform_step step with
  | invoke => simp [InventoryAction.invoked?]
  | load running => exact (map_value_set running _ _).trans (List.append_nil _).symm
  | exchanged running => exact (map_value_set running _ _).trans (List.append_nil _).symm
  | reloaded running => exact (map_value_set running _ _).trans (List.append_nil _).symm
  | respond done => exact (map_value_set done _ _).trans (List.append_nil _).symm

/-- The calls are the values handed to the operator, in this order. -/
theorem Inventory.map_value_calls {stock₀ : Stock} {acts : List (InventoryAction F)}
    {s : Inventory F} (run : Run (Performs Inventory.perform) (.init stock₀) acts s) :
    s.calls.map (·.value) = acts.filterMap InventoryAction.invoked? := by
  induction run with
  | nil => rfl
  | @snoc acts s s' a run step ih =>
      have one : [a].filterMap InventoryAction.invoked? = a.invoked?.toList := by
        cases a <;> rfl
      rw [List.filterMap_append, one, ← ih]
      exact map_value_step step

theorem Inventory.invoked_of_mem {stock₀ : Stock} {acts : List (InventoryAction F)}
    {s : Inventory F} (run : Run (Performs Inventory.perform) (.init stock₀) acts s) {c : Call F}
    (hc : c ∈ s.calls) : .invoke c.value ∈ acts := by
  have member : c.value ∈ acts.filterMap InventoryAction.invoked? :=
    map_value_calls run ▸ List.mem_map_of_mem hc
  obtain ⟨a, ha, eq⟩ := List.mem_filterMap.mp member
  cases a with
  | invoke value =>
      cases eq
      exact ha
  | _ => cases eq

/-! ## Bounds -/

/-- An unknown SKU is never confirmed. -/
theorem Inventory.Explained.unknown {stock₀ : Stock} {s : Inventory F} (h : s.Explained stock₀)
    {sku : String} (unknown : stock₀ sku = none) :
    s.stock sku = none ∧ s.confirmedOn sku = 0 := by
  obtain ⟨counter, covers⟩ := h.conserves sku
  have absent : stock₀.view sku = none := by simp [Stock.view, unknown]
  refine ⟨?_, covers.absent absent⟩
  rw [absent] at counter
  simpa [Stock.view] using counter

/-- A counter is its initial value less what has been confirmed on it, and never negative. -/
theorem Inventory.Explained.known {stock₀ : Stock} {s : Inventory F} (h : s.Explained stock₀)
    {sku : String} {n₀ : Int32} (known : stock₀ sku = some n₀) (nonneg : 0 ≤ n₀.toInt) :
    ∃ n, s.stock sku = some n ∧ 0 ≤ n.toInt ∧ n.toInt = n₀.toInt - s.confirmedOn sku := by
  obtain ⟨counter, covers⟩ := h.conserves sku
  have present : stock₀.view sku = some n₀.toInt := by simp [Stock.view, known]
  have taken := covers.present _ present nonneg
  rw [present] at counter
  obtain ⟨n, here, value⟩ := Option.map_eq_some_iff.mp counter
  simp only at value
  exact ⟨n, here, by omega, value⟩

/-- Calls whose quantities are not negative only take. -/
theorem Inventory.confirmedOn_nonneg {s : Inventory F} {sku : String}
    (nonneg : ∀ c ∈ s.calls, c.value.sku = sku → 0 ≤ c.value.quantity.toInt) :
    0 ≤ s.confirmedOn sku := by
  refine List.sum_nonneg fun n hn => ?_
  obtain ⟨c, hc, rfl⟩ := List.mem_map.mp hn
  exact Reservation.takes_nonneg (nonneg c hc) _

/-- The exchange of a call whose quantity is not negative is never undefined. -/
theorem Inventory.Explained.exchange_defined {stock₀ : Stock} {s : Inventory F} {c : Call F}
    {available : Int32} (h : s.Explained stock₀) (hc : c ∈ s.calls)
    (running : c.progress = .exchanging available) (nonneg : 0 ≤ c.value.quantity.toInt) :
    SignedWord.checkedSub available c.value.quantity = some (available - c.value.quantity) :=
  SignedWord.checkedSub_of_le nonneg
    (Int32.le_iff_toInt_le.mp ((h.sound c hc).enough available running))

/-- In every reachable state the calls decided so far have a sequential explanation, and every
counter is its initial value less the quantities confirmed on it. -/
theorem reservations_linearizable {stock₀ : Stock} {acts : List (InventoryAction F)}
    {s : Inventory F} (nonneg : ∀ sku n, stock₀ sku = some n → 0 ≤ n.toInt)
    (positive : ∀ value, .invoke value ∈ acts → 1 ≤ value.quantity.toInt)
    (run : Run (Performs Inventory.perform) (.init stock₀) acts s) :
    Linearizable tryReserve stock₀.view s.stock.view (reservationOf s.calls) (verdictOf s.calls)
        s.history (fun i => (phaseOf s.calls i).Settled) ∧
      ∀ sku,
        (stock₀ sku = none → s.stock sku = none ∧ s.confirmedOn sku = 0) ∧
        ∀ n₀, stock₀ sku = some n₀ → ∃ n, s.stock sku = some n ∧
          0 ≤ n.toInt ∧ n.toInt ≤ n₀.toInt ∧ n.toInt = n₀.toInt - s.confirmedOn sku := by
  have h := Inventory.Explained.run run
  refine ⟨h.explains.linearizable h.tracks, fun sku => ⟨h.unknown, ?_⟩⟩
  intro n₀ known
  obtain ⟨n, counter, low, value⟩ := h.known known (nonneg sku n₀ known)
  have taken : 0 ≤ s.confirmedOn sku := Inventory.confirmedOn_nonneg fun c hc _ => by
    have := positive _ (Inventory.invoked_of_mem run hc)
    omega
  exact ⟨n, counter, low, by omega, value⟩

/-- Two calls load the same counter; the one that exchanges second has to reload and then
finds too little. -/
theorem reservations_linearizable_contended :
    ∃ s : Inventory ℚ,
      s.stock "SKU-003" = some 5 ∧
      Linearizable tryReserve initialStock.view s.stock.view (reservationOf s.calls)
        (verdictOf s.calls) s.history (fun i => (phaseOf s.calls i).Settled) ∧
      ∀ sku,
        (initialStock sku = none → s.stock sku = none ∧ s.confirmedOn sku = 0) ∧
        ∀ n₀, initialStock sku = some n₀ → ∃ n, s.stock sku = some n ∧
          0 ≤ n.toInt ∧ n.toInt ≤ n₀.toInt ∧ n.toInt = n₀.toInt - s.confirmedOn sku := by
  let item (quantity : Int32) : OrderItem ℚ := ⟨"order-1", "item-1", "SKU-003", quantity, 4⟩
  let acts : List (InventoryAction ℚ) :=
    [.invoke (item 20), .invoke (item 10), .load 0, .load 1, .exchange 0 false, .exchange 1 false]
  have ends : (acts.foldlM Inventory.perform (.init initialStock)).map (·.stock "SKU-003") =
      some (some 5) := by decide
  obtain ⟨s, run, left⟩ := Option.map_eq_some_iff.mp ends
  refine ⟨s, left, reservations_linearizable (fun _ _ => initialStock_nonneg) ?_ (.of_foldlM run)⟩
  intro value invoked
  have which : value = item 20 ∨ value = item 10 := by simpa [acts] using invoked
  rcases which with rfl | rfl <;> decide

end OrderServices
